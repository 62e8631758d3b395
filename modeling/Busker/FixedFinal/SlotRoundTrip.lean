import Busker.FixedFinal.Slot

/-! Packing a plan into its slot and reading the slot natively give the plan back. -/
namespace Busker.FixedFinal
open ByteMemory

section
variable {payload : Segment} {plan : DirectResponsePlan} {m m' : Memory}

/-- The body lands at its address; past it at most a NUL is written. -/
structure BodyWritten (m m' : Memory) (address : ℕ) (bytes : List UInt8) : Prop where
  body : load m' address bytes.length = bytes
  frame : OnlyWithin address (bytes.length + 1) m m'
  nul : m' (address + bytes.length) = m (address + bytes.length) ∨
    m' (address + bytes.length) = 0

theorem nothing_written {address : ℕ} : BodyWritten m m address [] :=
  ⟨rfl, OnlyWithin.refl _ _ _, Or.inl rfl⟩

theorem string_written {address : ℕ} {value : JavaString} :
    BodyWritten m (withString m address value) address (utf8Bytes value) := by
  constructor
  · exact load_withString
  · exact withString_onlyWithin
  · right
    have last : (utf8Bytes value).length < (utf8Bytes value ++ [0]).length := by simp
    rw [withString, store_inside last]
    simp

theorem bytes_written {address : ℕ} {bytes : List UInt8} :
    BodyWritten m (store m address bytes) address bytes := by
  constructor
  · exact load_store
  · exact store_onlyWithin.widen (by omega) (by omega)
  · left
    exact store_outside (by omega)

theorem writeBody_ok (length : plan.bodyLength = plan.body.length)
    (fits : plan.headerBytes + plan.bodyLength < payload.size) :
    ∃ m', writeBody payload plan.headerBytes plan m = .ok m' ∧
      BodyWritten m m' (payload.base + plan.headerBytes) plan.body.encoded := by
  unfold writeBody
  by_cases empty : plan.bodyLength = 0
  · have none : plan.body.encoded = [] := by
      rw [← List.length_eq_zero_iff, ← FixedBody.length_eq, ← length, empty]
    rw [if_pos empty, none]
    exact ⟨m, rfl, nothing_written⟩
  · rw [if_neg empty]
    cases body : plan.body with
    | text value =>
        rw [body, FixedBody.length, utf8Length_eq] at length
        have room : plan.headerBytes + (utf8Bytes value).length < payload.size := by omega
        refine ⟨withString m (payload.base + plan.headerBytes) value, ?_, string_written⟩
        simp [writeUtf8_ok room, bind, Except.bind]
    | bytes value =>
        rw [body, FixedBody.length] at length
        refine ⟨store m (payload.base + plan.headerBytes) value, ?_, bytes_written⟩
        simp only [length, Nat.lt_irrefl, if_false, List.take_length]
        rw [Segment.write_of_fits (by omega), checked]

theorem writeFields_ok {s : Segment} {fields : List Field}
    (inside : ∀ field ∈ fields, field.offset + field.width ≤ s.size) :
    writeFields s fields m = .ok (storeFields m s.base fields) := by
  induction fields generalizing m with
  | nil => rfl
  | cons field rest ih =>
      rw [writeFields, writeField_ok (inside field List.mem_cons_self)]
      exact ih fun other mem => inside other (List.mem_cons_of_mem field mem)

end

/-- The metadata once every field is written. -/
def withMetadata (m : Memory) (data : ℕ) (plan : DirectResponsePlan)
    (status compressHint : ℤ) : Memory :=
  storeWord 4
    (storeWord 4 (storeFields m data (longFields plan plan.headerBytes))
      (data + responseSlotStatus) (intWord status))
    (data + responseSlotCompressHint) (intWord compressHint)

theorem longFields_apart (plan : DirectResponsePlan) (bodyOffset : ℕ) :
    (longFields plan bodyOffset).Pairwise Field.Apart := by
  simp [longFields, Field.Apart]

theorem longFields_inside (plan : DirectResponsePlan) (bodyOffset : ℕ) :
    ∀ field ∈ longFields plan bodyOffset, 8 ≤ field.offset ∧ field.offset + field.width ≤ 64 := by
  simp [longFields]

section
variable {m : Memory} {data : ℕ} {plan : DirectResponsePlan} {status compressHint : ℤ}

theorem withMetadata_onlyWithin :
    OnlyWithin data 72 m (withMetadata m data plan status compressHint) := by
  have longs : OnlyWithin data 72 m (storeFields m data (longFields plan plan.headerBytes)) := by
    apply storeFields_onlyWithin
    intro field mem
    have inside := longFields_inside plan plan.headerBytes field mem
    omega
  have statusField : OnlyWithin data 72 (storeFields m data (longFields plan plan.headerBytes))
      (storeWord 4 (storeFields m data (longFields plan plan.headerBytes))
        (data + responseSlotStatus) (intWord status)) :=
    storeWord_onlyWithin.widen (by omega) (by simp only [responseSlotStatus]; omega)
  have hintField : OnlyWithin data 72
      (storeWord 4 (storeFields m data (longFields plan plan.headerBytes))
        (data + responseSlotStatus) (intWord status))
      (withMetadata m data plan status compressHint) :=
    storeWord_onlyWithin.widen (by omega) (by simp only [responseSlotCompressHint]; omega)
  exact (longs.trans statusField).trans hintField

theorem loadWord_withMetadata {field : Field} (mem : field ∈ longFields plan plan.headerBytes)
    (fits : field.value < 256 ^ field.width) :
    loadWord field.width (withMetadata m data plan status compressHint) (data + field.offset) =
      field.value := by
  have inside := longFields_inside plan plan.headerBytes field mem
  rw [withMetadata, loadWord_storeWord_apart (by simp only [responseSlotCompressHint]; omega),
    loadWord_storeWord_apart (by simp only [responseSlotStatus]; omega),
    loadWord_storeFields (longFields_apart plan plan.headerBytes) mem fits]

/-- The scalar fields native code reads are the plan's, when the counts fit 64 bits. -/
theorem readSlotData_withMetadata (moduleId : plan.moduleId < 2 ^ 64)
    (requestSeq : plan.requestSeq < 2 ^ 64) (count : plan.headers.length < 2 ^ 64)
    (payload : plan.headerBytes + plan.bodyLength < 2 ^ 64) :
    readSlotData (withMetadata m data plan status compressHint) data =
      { moduleId := plan.moduleId
        requestSeq := plan.requestSeq
        headersLen := plan.headers.length
        contentLength := longWord plan.contentLength
        bodyOffset := plan.headerBytes
        bodyLen := plan.bodyLength
        payloadLen := plan.headerBytes + plan.bodyLength
        status := ofIntWord (intWord status)
        compressHint := ofIntWord (intWord compressHint) } := by
  have word : (2 : ℕ) ^ 64 = 256 ^ 8 := by norm_num
  rw [word] at moduleId requestSeq count payload
  have long : ∀ offset value, ⟨offset, 8, value⟩ ∈ longFields plan plan.headerBytes →
      value < 256 ^ 8 →
      loadWord 8 (withMetadata m data plan status compressHint) (data + offset) = value := by
    intro offset value mem fits
    exact @loadWord_withMetadata m data plan status compressHint ⟨offset, 8, value⟩ mem fits
  have statusRead : loadWord 4 (withMetadata m data plan status compressHint)
      (data + responseSlotStatus) = intWord status := by
    rw [withMetadata, loadWord_storeWord_apart
      (by simp only [responseSlotStatus, responseSlotCompressHint]; omega)]
    exact loadWord_storeWord (intWord_lt status)
  have hintRead : loadWord 4 (withMetadata m data plan status compressHint)
      (data + responseSlotCompressHint) = intWord compressHint :=
    loadWord_storeWord (intWord_lt compressHint)
  rw [readSlotData, long 8 _ (by simp [longFields]) moduleId,
    long 16 _ (by simp [longFields]) requestSeq, long 24 _ (by simp [longFields]) count,
    long 32 (longWord plan.contentLength) (by simp [longFields]) (longWord_lt _),
    long 40 plan.headerBytes (by simp [longFields]) (by omega),
    long 48 plan.bodyLength (by simp [longFields]) (by omega),
    long 56 _ (by simp [longFields]) payload, statusRead, hintRead]

end

/-! The packed slot. -/

/-- What a packed slot holds: the staged strings, the body behind them, and the metadata. -/
structure Packed (m m' : Memory) (data capacity : ℕ) (plan : DirectResponsePlan)
    (status compressHint : ℤ) : Prop where
  within : OnlyWithin data (responseSlotDataSize + (capacity + 1)) m m'
  nul : m' (data + responseSlotDataSize + capacity) =
      m (data + responseSlotDataSize + capacity) ∨
    m' (data + responseSlotDataSize + capacity) = 0
  staged : Staged m' (data + responseSlotHeadersOffset) (data + responseSlotDataSize)
    plan.headers
  body : load m' (data + responseSlotDataSize + plan.headerBytes) plan.bodyLength =
    plan.body.encoded
  slotData : readSlotData m' data =
    { moduleId := plan.moduleId
      requestSeq := plan.requestSeq
      headersLen := plan.headers.length
      contentLength := longWord plan.contentLength
      bodyOffset := plan.headerBytes
      bodyLen := plan.bodyLength
      payloadLen := plan.headerBytes + plan.bodyLength
      status := ofIntWord (intWord status)
      compressHint := ofIntWord (intWord compressHint) }

/-- Staged headers only depend on the bytes from their first descriptor to their last
string. -/
theorem Staged.of_same {m m' : Memory} {headers : List HeaderPair} {descriptor address : ℕ}
    (staged : Staged m descriptor address headers)
    (descriptors : Same m m' descriptor (32 * headers.length))
    (strings : Same m m' address (headerBytes headers)) :
    Staged m' descriptor address headers := by
  induction headers generalizing descriptor address with
  | nil => trivial
  | cons header rest ih =>
      obtain ⟨own, name, value, others⟩ := staged
      rw [List.length_cons] at descriptors
      rw [headerBytes_cons] at strings
      refine ⟨?_, ?_, ?_, ?_⟩
      · rw [← own]
        exact readHeader_same fun a above below => descriptors a above (by omega)
      · rw [← name]
        exact load_same fun a above below => strings a above (by omega)
      · rw [← value]
        exact load_same fun a above below => strings a (by omega) (by omega)
      · apply ih others
        · exact fun a above below => descriptors a (by omega) (by omega)
        · exact fun a above below => strings a (by omega) (by omega)

theorem rangeValid {value valueLen payload payloadLen : ℕ} (nonNull : 0 < value)
    (inside : payload ≤ value) (fits : value + valueLen ≤ payload + payloadLen)
    (addressable : payload + payloadLen < 2 ^ 64) :
    responsePointerRangeValid value valueLen payload payloadLen = true := by
  unfold responsePointerRangeValid uintptrMax
  simp
  omega

/-- Every header whose strings lie in the payload passes the pointer checks. -/
theorem Staged.valid {m : Memory} {headers : List HeaderPair}
    {descriptor address payload payloadLen : ℕ}
    (staged : Staged m descriptor address headers) (nonNull : 0 < payload)
    (inside : payload ≤ address)
    (fits : address + headerBytes headers ≤ payload + payloadLen)
    (addressable : payload + payloadLen < 2 ^ 64) :
    responseHeadersValid m payload payloadLen descriptor headers.length = true := by
  induction headers generalizing descriptor address with
  | nil => rfl
  | cons header rest ih =>
      obtain ⟨own, _, _, others⟩ := staged
      rw [headerBytes_cons] at fits
      have later : responseHeadersValid m payload payloadLen (descriptor + cljHeaderSize)
          rest.length = true := ih others (by omega) (by omega)
      rw [List.length_cons, responseHeadersValid, own, later]
      have name : responsePointerRangeValid address (utf8Length header.name) payload
          payloadLen = true := rangeValid (by omega) inside (by omega) addressable
      have value : responsePointerRangeValid (address + utf8Length header.name)
          (utf8Length header.value) payload payloadLen = true :=
        rangeValid (by omega) (by omega) (by omega) addressable
      simp only [descriptorAt, name, value, Bool.and_self]

section
variable {ffi : IntConversion} {plan : DirectResponsePlan} {capacity : ℕ}
variable {status compressHint : ℤ} {m : Memory}

/-- The strings, the body and then the metadata, written one after the other. -/
theorem packed_of_written {m₁ m₂ : Memory} {data : ℕ}
    (headers : plan.headers.length ≤ 64) (headerSize : plan.headerBytes = headerBytes plan.headers)
    (bodySize : plan.bodyLength = plan.body.encoded.length)
    (fits : plan.headerBytes + plan.bodyLength ≤ capacity)
    (spare : plan.headerBytes < capacity) (capacityWord : capacity < 2 ^ 64)
    (moduleId : plan.moduleId < 2 ^ 64) (requestSeq : plan.requestSeq < 2 ^ 64)
    (staged : Staged m₁ (data + 72) (data + 2120) plan.headers)
    (frame : StagingFrame ⟨data + 72, descriptorBytes plan.headers⟩
      ⟨data + 2120, capacity + 1⟩ 0 0 (headerBytes plan.headers) m m₁)
    (written : BodyWritten m₁ m₂ (data + 2120 + plan.headerBytes) plan.body.encoded) :
    Packed m (withMetadata m₂ data plan status compressHint) data capacity plan status
      compressHint := by
  have descriptors : descriptorBytes plan.headers = plan.headers.length * 32 := rfl
  have metadata := @withMetadata_onlyWithin m₂ data plan status compressHint
  have body := written.frame
  rw [← bodySize] at body
  constructor
  · intro a outside
    simp only [responseSlotDataSize] at outside
    rw [metadata a (by omega), body a (by omega)]
    exact frame a (by simp only; omega)
  · simp only [responseSlotDataSize]
    rw [metadata _ (by omega), ← frame (data + 2120 + capacity) (by simp only; omega)]
    by_cases full : plan.headerBytes + plan.bodyLength = capacity
    · have last := written.nul
      rw [← bodySize, Nat.add_assoc, full] at last
      exact last
    · left
      exact body _ (by omega)
  · apply staged.of_same
    · intro a above below
      rw [metadata a (by omega), body a (by omega)]
    · intro a above below
      rw [metadata a (by omega), body a (by omega)]
  · simp only [responseSlotDataSize]
    rw [metadata.load_eq (by omega), bodySize]
    exact written.body
  · exact readSlotData_withMetadata moduleId requestSeq (by omega) (by omega)

/-- Packing a plan that fits only depends on its two conversions to a C `int`, and leaves
the slot packed. -/
theorem writeDirectResponseSlot_eq (slot : RingSlot capacity)
    (headers : plan.headers.length ≤ 64) (headerSize : plan.headerBytes = headerBytes plan.headers)
    (bodySize : plan.bodyLength = plan.body.length)
    (fits : plan.headerBytes + plan.bodyLength ≤ capacity)
    (spare : plan.headerBytes < capacity) (moduleId : plan.moduleId < 2 ^ 64)
    (requestSeq : plan.requestSeq < 2 ^ 64) :
    ∃ packed : ℤ → ℤ → Memory,
      (∀ status compressHint, Packed m (packed status compressHint) slot.segment.base capacity
        plan status compressHint) ∧
      writeDirectResponseSlot ffi slot.segment capacity plan m =
        (convert ffi plan.status).bind fun status =>
          (convert ffi plan.compressHint).map fun compressHint => packed status compressHint := by
  obtain ⟨⟨data, size⟩, sized, addressable⟩ := slot
  simp only [responseSlotDataSize] at sized
  simp only at addressable
  have descriptors : descriptorBytes plan.headers = plan.headers.length * 32 := rfl
  obtain ⟨m₁, staging, staged, frame⟩ := @stageHeaders_ok
    ⟨data + 72, descriptorBytes plan.headers⟩ ⟨data + 2120, capacity + 1⟩ plan.headers m
    (by simp only; omega) (by simp only; omega) (by simp only; omega) (by simp only; omega)
  obtain ⟨m₂, writing, written⟩ := @writeBody_ok ⟨data + 2120, capacity + 1⟩ plan m₁ bodySize
    (by simp only; omega)
  refine ⟨fun status compressHint => withMetadata m₂ data plan status compressHint, ?_, ?_⟩
  · intro status compressHint
    exact packed_of_written headers headerSize (by rw [bodySize, FixedBody.length_eq]) fits spare
      (by omega) moduleId requestSeq staged frame written
  · have inside : ∀ field ∈ longFields plan plan.headerBytes,
        field.offset + field.width ≤ size := by
      intro field mem
      have bound := longFields_inside plan plan.headerBytes field mem
      omega
    rw [← headerSize] at staging
    unfold writeDirectResponseSlot
    rw [if_neg (by simp only [maxHeaderPairs]; omega)]
    simp only [responseSlotDataSize, responseSlotHeadersOffset]
    rw [Segment.slice_of_fits (show 2120 + (capacity + 1) ≤ size by omega),
      Segment.slice_of_fits (show 72 + descriptorBytes plan.headers ≤ size by omega)]
    simp only [checked, bind, Except.bind, staging, ne_eq, not_true_eq_false, if_false, writing,
      @writeFields_ok _ ⟨data, size⟩ _ inside]
    cases convert ffi plan.status with
    | error failure => rfl
    | ok status =>
        simp only
        rw [writeField_ok (by simp only [responseSlotStatus]; omega)]
        simp only
        cases convert ffi plan.compressHint with
        | error failure => rfl
        | ok compressHint =>
            simp only [Except.map]
            rw [writeField_ok (by simp only [responseSlotCompressHint]; omega)]
            rfl

/-- Native code accepts a packed slot whose identifiers are not zero. -/
theorem Packed.valid {data : ℕ} {m' : Memory}
    (packed : Packed m m' data capacity plan status compressHint)
    (moduleId : 0 < plan.moduleId) (requestSeq : 0 < plan.requestSeq)
    (statusInt : IsInt status) (statusFinal : 200 ≤ status)
    (headers : plan.headers.length ≤ 64) (headerSize : plan.headerBytes = headerBytes plan.headers)
    (fits : plan.headerBytes + plan.bodyLength ≤ capacity)
    (addressable : data + 2120 + capacity < 2 ^ 64) :
    responseSlotDataValid (capacity + 1) m' data = true := by
  have pointers : responseHeadersValid m' (data + 2120) (plan.headerBytes + plan.bodyLength)
      (data + responseSlotHeadersOffset) plan.headers.length = true :=
    packed.staged.valid (by omega) (le_refl _) (by simp only [responseSlotDataSize]; omega)
      (by omega)
  have range : responseRangeValid plan.headerBytes plan.bodyLength
      (plan.headerBytes + plan.bodyLength) = true := by
    simp [responseRangeValid]
  unfold responseSlotDataValid
  rw [packed.slotData, ofIntWord_intWord statusInt]
  simp only [responseSlotPayload, responseSlotDataSize, pointers, range]
  simp
  omega

/-- The native call a plan asks for. -/
def plannedFinal (plan : DirectResponsePlan) : NativeFinal :=
  { status := plan.status
    headers := plan.headers.map fun header => (utf8Bytes header.name, utf8Bytes header.value)
    contentLength := longWord plan.contentLength
    compressHint := plan.compressHint
    body := plan.body.encoded }

/-- Draining a packed slot makes the call its plan asks for. -/
theorem Packed.drained {data : ℕ} {m' : Memory}
    (packed : Packed m m' data capacity plan plan.status plan.compressHint)
    (statusInt : IsInt plan.status) (hintInt : IsInt plan.compressHint)
    (valid : responseSlotDataValid (capacity + 1) m' data = true) :
    drainSlot (capacity + 1) m' data = some (plannedFinal plan) := by
  have body : data + responseSlotDataSize + plan.headerBytes ≠ 0 := by
    simp only [responseSlotDataSize]
    omega
  rw [drainSlot, valid, packed.slotData, ofIntWord_intWord statusInt, ofIntWord_intWord hintInt]
  simp only [if_true, sendFixedFinal, if_neg body, packed.staged.readHeaders_eq,
    responseSlotPayload, packed.body, plannedFinal]

end

/-! Plans the fast path builds. -/

theorem CompressHint.isInt (hint : CompressHint) : IsInt hint.value := by
  cases hint <;> decide

section
variable {java : JavaText} {req : Request} {response : Response} {plan : DirectResponsePlan}

theorem Eligible.hint_isInt (eligible : Eligible java req response plan) :
    IsInt plan.compressHint := by
  obtain ⟨hint, value⟩ := eligible.compressHint
  rw [value]
  exact hint.isInt

theorem Eligible.fits (eligible : Eligible java req response plan) :
    plan.headerBytes + plan.bodyLength ≤ payloadCapacity req.outputBufferSize ∧
      plan.headerBytes < payloadCapacity req.outputBufferSize := by
  have staging := eligible.staging_le
  have body := eligible.body_le
  have capacity : (payloadCapacity req.outputBufferSize : ℤ) =
      16384 + min req.outputBufferSize 32768 := by
    have buffer := eligible.buffer
    rw [payloadCapacity, responseRingMaxBodyBytes]
    omega
  have spare : plan.headerBytes < 16384 := by
    by_cases none : plan.headers.length = 0
    · rw [eligible.headerBytes, List.length_eq_zero_iff.mp none]
      decide
    · omega
  constructor <;> omega

/-- What packing a plan of the fast path does, whatever its status. -/
theorem Eligible.packing (eligible : Eligible java req response plan)
    (dispatched : req.Dispatched) (ffi : IntConversion)
    (slot : RingSlot (payloadCapacity req.outputBufferSize)) (m : Memory) :
    ∃ packed : ℤ → Memory,
      (∀ status, Packed m (packed status) slot.segment.base
        (payloadCapacity req.outputBufferSize) plan status plan.compressHint) ∧
      writeDirectResponseSlot ffi slot.segment (payloadCapacity req.outputBufferSize) plan m =
        (convert ffi plan.status).map packed := by
  have hintExact : convert ffi plan.compressHint = .ok plan.compressHint := by
    rw [convert, ffi.exact _ eligible.hint_isInt]
  obtain ⟨packed, spec, result⟩ := @writeDirectResponseSlot_eq ffi plan
    (payloadCapacity req.outputBufferSize) m slot eligible.headers_le eligible.headerBytes
    eligible.bodyLength eligible.fits.1 eligible.fits.2
    (by rw [eligible.moduleId]; exact dispatched.moduleId_word)
    (by rw [eligible.requestSeq]; exact dispatched.requestSeq_word)
  refine ⟨fun status => packed status plan.compressHint, fun status => spec _ _, ?_⟩
  rw [result, hintExact]
  cases convert ffi plan.status <;> rfl

/-- Packing a plan with a C `int` for a status leaves a slot native code accepts. -/
theorem Eligible.packs (eligible : Eligible java req response plan) (dispatched : req.Dispatched)
    (ffi : IntConversion) (statusInt : IsInt plan.status)
    (slot : RingSlot (payloadCapacity req.outputBufferSize)) (m : Memory) :
    ∃ m', writeDirectResponseSlot ffi slot.segment (payloadCapacity req.outputBufferSize) plan m =
        .ok m' ∧
      Packed m m' slot.segment.base (payloadCapacity req.outputBufferSize) plan plan.status
        plan.compressHint ∧
      responseSlotDataValid (payloadCapacity req.outputBufferSize + 1) m' slot.segment.base =
        true := by
  obtain ⟨packedWith, spec, result⟩ := eligible.packing dispatched ffi slot m
  have addressable := slot.addressable
  rw [slot.size_eq, responseSlotDataSize] at addressable
  refine ⟨packedWith plan.status, ?_, spec plan.status, ?_⟩
  · rw [result, convert, ffi.exact _ statusInt]
    rfl
  · exact (spec plan.status).valid (by rw [eligible.moduleId]; exact dispatched.moduleId_pos)
      (by rw [eligible.requestSeq]; exact dispatched.requestSeq_pos) statusInt eligible.status_ge
      eligible.headers_le eligible.headerBytes eligible.fits.1 (by omega)

/-- A status of 2^31 is no C `int`: either packing throws, or native code refuses the
slot, for it then reads a negative status. -/
theorem Eligible.refused (eligible : Eligible java req response plan)
    (dispatched : req.Dispatched) (ffi : IntConversion)
    (slot : RingSlot (payloadCapacity req.outputBufferSize)) {m m' : Memory}
    (large : plan.status = 2147483648)
    (written : writeDirectResponseSlot ffi slot.segment (payloadCapacity req.outputBufferSize)
      plan m = .ok m') (capacity : ℕ) :
    responseSlotDataValid capacity m' slot.segment.base = false := by
  obtain ⟨packed, spec, result⟩ := eligible.packing dispatched ffi slot m
  rw [result, convert, large] at written
  cases converted : ffi.toInt 2147483648 with
  | none =>
      rw [converted] at written
      cases written
  | some int =>
      obtain ⟨⟨low, high⟩, narrowed⟩ := ffi.narrows 2147483648 int converted
      have negative : int = -2147483648 := by omega
      rw [converted] at written
      cases written
      unfold responseSlotDataValid
      rw [(spec int).slotData, negative]
      simp [ofIntWord, intWord]

end

/-- The slot protocol for one plan: packing does not throw and stays inside the slot,
native code accepts the slot, and it reads back the strings and the body. -/
def RoundTrips (ffi : IntConversion) {capacity : ℕ} (slot : RingSlot capacity)
    (plan : DirectResponsePlan) (m : Memory) : Prop :=
  ∃ m', writeDirectResponseSlot ffi slot.segment capacity plan m = .ok m' ∧
    OnlyWithin slot.segment.base (responseSlotDataSize + (capacity + 1)) m m' ∧
    (m' (slot.segment.base + responseSlotDataSize + capacity) =
        m (slot.segment.base + responseSlotDataSize + capacity) ∨
      m' (slot.segment.base + responseSlotDataSize + capacity) = 0) ∧
    responseSlotDataValid (capacity + 1) m' slot.segment.base = true ∧
    readHeaders m' (slot.segment.base + responseSlotHeadersOffset)
        (readSlotData m' slot.segment.base).headersLen =
      plan.headers.map (fun header => (utf8Bytes header.name, utf8Bytes header.value)) ∧
    load m' (responseSlotPayload slot.segment.base + (readSlotData m' slot.segment.base).bodyOffset)
        (readSlotData m' slot.segment.base).bodyLen = plan.body.encoded

/-- Every plan of the fast path whose status is a C `int` makes the round trip, whatever
the slot held before. -/
theorem fixedFinal_roundTrips (ffi : IntConversion) (java : JavaText) (req : Request)
    (response : Response) (final : Bool) (plan : DirectResponsePlan)
    (built : fixedFinalData java req response final = .ok (some plan))
    (dispatched : req.Dispatched) (statusFits : plan.status ≤ 2147483647)
    (slot : RingSlot (payloadCapacity req.outputBufferSize)) (m : Memory) :
    RoundTrips ffi slot plan m := by
  have eligible := fixedFinalData_eligible built
  have statusFinal := eligible.status_ge
  obtain ⟨m', written, packed, valid⟩ :=
    eligible.packs dispatched ffi ⟨by omega, statusFits⟩ slot m
  refine ⟨m', written, packed.within, packed.nul, valid, ?_, ?_⟩
  · rw [packed.slotData]
    exact packed.staged.readHeaders_eq
  · rw [packed.slotData]
    exact packed.body

/-- A slot of 16400 payload bytes at the start of a page. -/
def pageSlot : RingSlot 16400 := ⟨⟨4096, 2120 + 16401⟩, rfl, by decide⟩

/-- A surrogate pair, an unpaired surrogate, a NUL and empty strings in one response,
packed over stale bytes. -/
theorem surrogates_roundTrip :
    RoundTrips checkedConversion pageSlot
      ⟨7, 9, 200, [⟨ascii "x", [0xD83D, 0xDE00, 0xD800]⟩, ⟨[], []⟩], 6, .text [0x41, 0, 0xDC00],
        3, 3, 2⟩
      (fun _ => 255) :=
  fixedFinal_roundTrips checkedConversion asciiText ⟨7, 9, 16, none⟩
    ⟨some 200, [(ascii "x", .text [0xD83D, 0xDE00, 0xD800]), ([], .nil)],
      some (.text [0x41, 0, 0xDC00]), none, by decide⟩
    true _ (by decide) ⟨by decide, by decide, by decide, by decide⟩ (by decide) pageSlot _

/-- The round trip fails for a status of 2^31, whichever way the FFI library converts. -/
theorem large_status_not_roundTrips :
    ¬ ∃ ffi : IntConversion, ∀ (java : JavaText) (req : Request) (response : Response)
      (final : Bool) (plan : DirectResponsePlan),
      fixedFinalData java req response final = .ok (some plan) → req.Dispatched →
      ∀ (slot : RingSlot (payloadCapacity req.outputBufferSize)) (m : Memory),
        RoundTrips ffi slot plan m := by
  rintro ⟨ffi, all⟩
  let req : Request := ⟨1, 1, 16, none⟩
  let response : Response := ⟨some 2147483648, [], some (.bytes []), none, by decide⟩
  let plan : DirectResponsePlan := ⟨1, 1, 2147483648, [], 0, .bytes [], 0, 0, 2⟩
  have built : fixedFinalData asciiText req response true = .ok (some plan) := by decide
  have dispatched : req.Dispatched := ⟨by decide, by decide, by decide, by decide⟩
  obtain ⟨m', written, -, -, valid, -⟩ := all asciiText req response true plan built dispatched
    pageSlot (fun _ => 0)
  have refused := (fixedFinalData_eligible built).refused dispatched ffi pageSlot rfl written 16401
  exact Bool.false_ne_true (refused.symm.trans valid)

end Busker.FixedFinal
