import Busker.ByteMemory.Memory
import Busker.FixedFinal.Utf8
import Busker.FixedFinal.Response

/-! Header descriptors and the strings they point to: `stage-headers!` writes
them, native code reads them back. -/
namespace Busker.FixedFinal
open ByteMemory

/-- One `clj_header_t`. -/
structure CljHeader where
  name : ℕ
  nameLen : ℕ
  value : ℕ
  valueLen : ℕ
  deriving DecidableEq, Repr

def readHeader (m : Memory) (address : ℕ) : CljHeader :=
  ⟨loadWord 8 m address, loadWord 8 m (address + 8), loadWord 8 m (address + 16),
    loadWord 8 m (address + 24)⟩

/-- The name and value bytes of `count` descriptors from `address` on. -/
def readHeaders (m : Memory) : ℕ → ℕ → List (List UInt8 × List UInt8)
  | _, 0 => []
  | address, count + 1 =>
    let header := readHeader m address
    (load m header.name header.nameLen, load m header.value header.valueLen) ::
      readHeaders m (address + cljHeaderSize) count

/-- A failed bounds check throws. -/
def checked {α : Type} : Option α → Except Failure α
  | none => .error .indexOutOfBounds
  | some result => .ok result

/-- `mem/write` of one field. -/
def writeField (s : Segment) (offset width n : ℕ) (m : Memory) : Except Failure Memory :=
  checked (s.write offset (toLittleEndian width n) m)

/-- `setString` writes the UTF-8 bytes and a NUL; the result is the end of the bytes. -/
def writeUtf8 (s : Segment) (offset : ℕ) (value : JavaString) (length : ℕ) (m : Memory) :
    Except Failure (ℕ × Memory) := do
  let m ← checked (s.write offset (utf8Bytes value ++ [0]) m)
  .ok (offset + length, m)

/-- The body of the `stage-headers!` loop. -/
def stageHeader (descriptors payload : Segment) (header : HeaderPair) (index cursor : ℕ)
    (m : Memory) : Except Failure (ℕ × Memory) := do
  let nameLength := utf8Length header.name
  let (valueOffset, m) ← writeUtf8 payload cursor header.name nameLength m
  let valueLength := utf8Length header.value
  let (nextCursor, m) ← writeUtf8 payload valueOffset header.value valueLength m
  let descriptor ← checked (descriptors.slice (index * cljHeaderSize) cljHeaderSize)
  let nameSegment ← checked (payload.slice cursor (max 1 nameLength))
  let valueSegment ← checked (payload.slice valueOffset (max 1 valueLength))
  let m ← writeField descriptor 0 8 nameSegment.base m
  let m ← writeField descriptor 8 8 nameLength m
  let m ← writeField descriptor 16 8 valueSegment.base m
  let m ← writeField descriptor 24 8 valueLength m
  .ok (nextCursor, m)

def stageLoop (descriptors payload : Segment) :
    List HeaderPair → ℕ → ℕ → Memory → Except Failure (ℕ × Memory)
  | [], _, cursor, m => .ok (cursor, m)
  | header :: rest, index, cursor, m => do
    let (nextCursor, m) ← stageHeader descriptors payload header index cursor m
    stageLoop descriptors payload rest (index + 1) nextCursor m

def stageHeaders (descriptors payload : Segment) (headers : List HeaderPair) (m : Memory) :
    Except Failure (ℕ × Memory) :=
  stageLoop descriptors payload headers 0 0 m

/-! What one header leaves in memory. -/

/-- The memory after a string is written at an address. -/
def withString (m : Memory) (address : ℕ) (value : JavaString) : Memory :=
  store m address (utf8Bytes value ++ [0])

/-- The memory after a descriptor is written at an address. -/
def withDescriptor (m : Memory) (address : ℕ) (header : CljHeader) : Memory :=
  storeWord 8 (storeWord 8 (storeWord 8 (storeWord 8 m address header.name)
    (address + 8) header.nameLen) (address + 16) header.value) (address + 24) header.valueLen

section
variable {m m' : Memory} {s : Segment} {offset address : ℕ} {value : JavaString}

theorem writeUtf8_ok {length : ℕ} (fits : offset + (utf8Bytes value).length < s.size) :
    writeUtf8 s offset value length m =
      .ok (offset + length, withString m (s.base + offset) value) := by
  have room : offset + (utf8Bytes value ++ [0]).length ≤ s.size := by
    rw [List.length_append, List.length_singleton]
    omega
  rw [writeUtf8, Segment.write_of_fits room]
  rfl

theorem writeField_ok {width n : ℕ} (fits : offset + width ≤ s.size) :
    writeField s offset width n m = .ok (storeWord width m (s.base + offset) n) := by
  have room : offset + (toLittleEndian width n).length ≤ s.size := by
    rw [toLittleEndian_length]
    exact fits
  rw [writeField, Segment.write_of_fits room]
  rfl

theorem withString_onlyWithin :
    OnlyWithin address ((utf8Bytes value).length + 1) m (withString m address value) := by
  have within := @store_onlyWithin m address (utf8Bytes value ++ [0])
  rwa [List.length_append, List.length_singleton] at within

theorem load_withString :
    load (withString m address value) address (utf8Bytes value).length = utf8Bytes value := by
  have whole := @load_store m address (utf8Bytes value ++ [0])
  rw [List.length_append, List.length_singleton, load_append] at whole
  exact (List.append_inj whole (by simp)).1

theorem withDescriptor_onlyWithin {header : CljHeader} :
    OnlyWithin address 32 m (withDescriptor m address header) := by
  have word : ∀ (before : Memory) (offset n : ℕ), offset + 8 ≤ 32 →
      OnlyWithin address 32 before (storeWord 8 before (address + offset) n) :=
    fun before offset n fits => storeWord_onlyWithin.widen (by omega) (by omega)
  exact (((word m 0 header.name (by omega)).trans (word _ 8 header.nameLen (by omega))).trans
    (word _ 16 header.value (by omega))).trans (word _ 24 header.valueLen (by omega))

/-- A descriptor whose fields fit 64 bits is read back as it was written. -/
theorem readHeader_withDescriptor {header : CljHeader} (name : header.name < 2 ^ 64)
    (nameLen : header.nameLen < 2 ^ 64) (value : header.value < 2 ^ 64)
    (valueLen : header.valueLen < 2 ^ 64) :
    readHeader (withDescriptor m address header) address = header := by
  have word : (256 : ℕ) ^ 8 = 2 ^ 64 := by norm_num
  rw [← word] at name nameLen value valueLen
  have first : loadWord 8 (withDescriptor m address header) address = header.name := by
    rw [withDescriptor, loadWord_storeWord_apart (by omega),
      loadWord_storeWord_apart (by omega), loadWord_storeWord_apart (by omega),
      loadWord_storeWord name]
  have second : loadWord 8 (withDescriptor m address header) (address + 8) =
      header.nameLen := by
    rw [withDescriptor, loadWord_storeWord_apart (by omega),
      loadWord_storeWord_apart (by omega), loadWord_storeWord nameLen]
  have third : loadWord 8 (withDescriptor m address header) (address + 16) =
      header.value := by
    rw [withDescriptor, loadWord_storeWord_apart (by omega), loadWord_storeWord value]
  have fourth : loadWord 8 (withDescriptor m address header) (address + 24) =
      header.valueLen := by
    rw [withDescriptor, loadWord_storeWord valueLen]
  rw [readHeader, first, second, third, fourth]

theorem readHeader_same (same : Same m m' address 32) :
    readHeader m' address = readHeader m address := by
  have part : ∀ offset, offset + 8 ≤ 32 → Same m m' (address + offset) 8 :=
    fun offset fits a above below => same a (by omega) (by omega)
  unfold readHeader
  rw [@loadWord_same m m' address 8 (part 0 (by omega)), loadWord_same (part 8 (by omega)),
    loadWord_same (part 16 (by omega)), loadWord_same (part 24 (by omega))]

end

/-- The descriptor `stage-headers!` writes for a header whose strings start at `address`. -/
def descriptorAt (address : ℕ) (header : HeaderPair) : CljHeader :=
  ⟨address, utf8Length header.name, address + utf8Length header.name, utf8Length header.value⟩

/-- The memory after one header is staged. -/
def withHeader (m : Memory) (descriptor address : ℕ) (header : HeaderPair) : Memory :=
  withDescriptor
    (withString (withString m address header.name) (address + utf8Length header.name)
      header.value)
    descriptor (descriptorAt address header)

theorem stageHeader_ok {descriptors payload : Segment} {header : HeaderPair}
    {index cursor : ℕ} {m : Memory} (room : (index + 1) * 32 ≤ descriptors.size)
    (fits : cursor + utf8Length header.name + utf8Length header.value < payload.size) :
    stageHeader descriptors payload header index cursor m =
      .ok (cursor + utf8Length header.name + utf8Length header.value,
        withHeader m (descriptors.base + index * 32) (payload.base + cursor) header) := by
  have nameFits : cursor + (utf8Bytes header.name).length < payload.size := by
    rw [← utf8Length_eq]
    omega
  have valueFits : cursor + utf8Length header.name + (utf8Bytes header.value).length <
      payload.size := by
    rw [← utf8Length_eq]
    omega
  have slot : index * cljHeaderSize + cljHeaderSize ≤ descriptors.size := by
    simp only [cljHeaderSize]
    omega
  simp only [stageHeader, writeUtf8_ok nameFits, writeUtf8_ok valueFits,
    Segment.slice_of_fits slot,
    Segment.slice_of_fits (show cursor + max 1 (utf8Length header.name) ≤ payload.size by omega),
    Segment.slice_of_fits (show cursor + utf8Length header.name +
      max 1 (utf8Length header.value) ≤ payload.size by omega), checked, bind, Except.bind]
  rw [writeField_ok (by simp [cljHeaderSize])]
  simp only
  rw [writeField_ok (by simp [cljHeaderSize])]
  simp only
  rw [writeField_ok (by simp [cljHeaderSize])]
  simp only
  rw [writeField_ok (by simp [cljHeaderSize])]
  simp only [withHeader, withDescriptor, descriptorAt, cljHeaderSize, Nat.add_assoc,
    Nat.add_zero]

/-- The headers staged from a descriptor address and a string address on. -/
def Staged (m : Memory) : ℕ → ℕ → List HeaderPair → Prop
  | _, _, [] => True
  | descriptor, address, header :: rest =>
    readHeader m descriptor = descriptorAt address header ∧
      load m address (utf8Length header.name) = utf8Bytes header.name ∧
      load m (address + utf8Length header.name) (utf8Length header.value) =
        utf8Bytes header.value ∧
      Staged m (descriptor + 32)
        (address + utf8Length header.name + utf8Length header.value) rest

/-- Native code reads the staged strings back, in order. -/
theorem Staged.readHeaders_eq {m : Memory} {headers : List HeaderPair} {descriptor address : ℕ}
    (staged : Staged m descriptor address headers) :
    readHeaders m descriptor headers.length =
      headers.map fun header => (utf8Bytes header.name, utf8Bytes header.value) := by
  induction headers generalizing descriptor address with
  | nil => rfl
  | cons header rest ih =>
      obtain ⟨descriptorRead, name, value, others⟩ := staged
      simp only [List.length_cons, readHeaders, List.map_cons, descriptorRead, descriptorAt,
        name, value, cljHeaderSize]
      rw [ih others]

/-- The headers leave everything before their descriptors alone, and everything
between the descriptors and their strings, and everything past the last NUL. -/
def StagingFrame (descriptors payload : Segment) (index cursor length : ℕ)
    (m m' : Memory) : Prop :=
  ∀ a, a < descriptors.base + index * 32 ∨
      (descriptors.base + descriptors.size ≤ a ∧ a < payload.base + cursor) ∨
      payload.base + cursor + length < a → m' a = m a

section
variable {descriptors payload : Segment} {header : HeaderPair} {headers : List HeaderPair}
variable {index cursor : ℕ} {m : Memory}

theorem withHeader_frame (room : (index + 1) * 32 ≤ descriptors.size)
    (ahead : descriptors.base + descriptors.size ≤ payload.base) :
    StagingFrame descriptors payload index cursor
      (utf8Length header.name + utf8Length header.value) m
      (withHeader m (descriptors.base + index * 32) (payload.base + cursor) header) := by
  intro a untouched
  rw [withHeader]
  have apartDescriptor : a < descriptors.base + index * 32 ∨
      descriptors.base + index * 32 + 32 ≤ a := by omega
  have apartValue : a < payload.base + cursor + utf8Length header.name ∨
      payload.base + cursor + utf8Length header.name +
        ((utf8Bytes header.value).length + 1) ≤ a := by
    rw [← utf8Length_eq]
    omega
  have apartName : a < payload.base + cursor ∨
      payload.base + cursor + ((utf8Bytes header.name).length + 1) ≤ a := by
    rw [← utf8Length_eq]
    omega
  rw [withDescriptor_onlyWithin a apartDescriptor, withString_onlyWithin a apartValue,
    withString_onlyWithin a apartName]

theorem withHeader_staged (room : (index + 1) * 32 ≤ descriptors.size)
    (fits : cursor + utf8Length header.name + utf8Length header.value < payload.size)
    (ahead : descriptors.base + descriptors.size ≤ payload.base)
    (addressable : payload.base + payload.size ≤ 2 ^ 64) :
    Staged (withHeader m (descriptors.base + index * 32) (payload.base + cursor) header)
      (descriptors.base + index * 32) (payload.base + cursor) [header] := by
  refine ⟨?_, ?_, ?_, trivial⟩
  · apply readHeader_withDescriptor
    all_goals simp only [descriptorAt]; omega
  · -- The descriptor lies ahead, and the value only overwrites the NUL.
    rw [withHeader, withDescriptor_onlyWithin.load_eq (by omega),
      withString_onlyWithin.load_eq (by omega), utf8Length_eq, load_withString]
  · rw [withHeader, withDescriptor_onlyWithin.load_eq (by omega)]
    rw [utf8Length_eq header.value, load_withString]

theorem StagingFrame.staged {m' : Memory} {length : ℕ}
    (frame : StagingFrame descriptors payload (index + 1)
      (cursor + utf8Length header.name + utf8Length header.value) length m m')
    (ahead : descriptors.base + descriptors.size ≤ payload.base)
    (staged : Staged m (descriptors.base + index * 32) (payload.base + cursor) [header])
    (others : Staged m' (descriptors.base + (index + 1) * 32)
      (payload.base + (cursor + utf8Length header.name + utf8Length header.value)) headers) :
    Staged m' (descriptors.base + index * 32) (payload.base + cursor) (header :: headers) := by
  obtain ⟨descriptor, name, value, _⟩ := staged
  refine ⟨?_, ?_, ?_, ?_⟩
  · rw [← descriptor]
    apply readHeader_same
    intro a above below
    exact frame a (by omega)
  · rw [← name]
    apply load_same
    intro a above below
    exact frame a (by omega)
  · rw [← value]
    apply load_same
    intro a above below
    exact frame a (by omega)
  · have next : descriptors.base + index * 32 + 32 = descriptors.base + (index + 1) * 32 := by
      omega
    have strings : payload.base + cursor + utf8Length header.name + utf8Length header.value =
        payload.base + (cursor + utf8Length header.name + utf8Length header.value) := by
      omega
    rw [next, strings]
    exact others

/-- The whole loop: it never runs out of room, and leaves every header staged. -/
theorem stageLoop_ok (room : (index + headers.length) * 32 ≤ descriptors.size)
    (fits : cursor + headerBytes headers < payload.size)
    (ahead : descriptors.base + descriptors.size ≤ payload.base)
    (addressable : payload.base + payload.size ≤ 2 ^ 64) :
    ∃ m', stageLoop descriptors payload headers index cursor m =
        .ok (cursor + headerBytes headers, m') ∧
      Staged m' (descriptors.base + index * 32) (payload.base + cursor) headers ∧
      StagingFrame descriptors payload index cursor (headerBytes headers) m m' := by
  induction headers generalizing index cursor m with
  | nil => exact ⟨m, rfl, trivial, fun _ _ => rfl⟩
  | cons header rest ih =>
      rw [headerBytes_cons] at fits
      rw [List.length_cons] at room
      have own : (index + 1) * 32 ≤ descriptors.size := by omega
      have staged := stageHeader_ok (m := m) own (show cursor + utf8Length header.name +
        utf8Length header.value < payload.size by omega)
      obtain ⟨m', loop, others, frame⟩ := ih
        (m := withHeader m (descriptors.base + index * 32) (payload.base + cursor) header)
        (show (index + 1 + rest.length) * 32 ≤ descriptors.size by omega)
        (show cursor + utf8Length header.name + utf8Length header.value + headerBytes rest <
          payload.size by omega)
      refine ⟨m', ?_, ?_, ?_⟩
      · rw [stageLoop, staged]
        simp only [bind, Except.bind, loop, headerBytes_cons]
        congr 2
        omega
      · exact frame.staged ahead (withHeader_staged own (by omega) ahead addressable) others
      · intro a untouched
        rw [headerBytes_cons] at untouched
        rw [frame a (by omega)]
        exact withHeader_frame own ahead a (by omega)

/-- What `stage-headers!` does given room for the descriptors and the last NUL. -/
theorem stageHeaders_ok (room : headers.length * 32 ≤ descriptors.size)
    (fits : headerBytes headers < payload.size)
    (ahead : descriptors.base + descriptors.size ≤ payload.base)
    (addressable : payload.base + payload.size ≤ 2 ^ 64) :
    ∃ m', stageHeaders descriptors payload headers m = .ok (headerBytes headers, m') ∧
      Staged m' descriptors.base payload.base headers ∧
      StagingFrame descriptors payload 0 0 (headerBytes headers) m m' := by
  obtain ⟨m', loop, staged, frame⟩ := @stageLoop_ok descriptors payload headers 0 0 m
    (by omega) (by omega) ahead addressable
  refine ⟨m', ?_, ?_, frame⟩
  · rw [stageHeaders, loop, Nat.zero_add]
  · simpa using staged

end

end Busker.FixedFinal
