import Mathlib.Data.List.Basic
import Mathlib.Tactic.Ring
import Mathlib.Tactic.NormNum

/-! Byte-addressed memory: stores and loads of byte strings, little-endian words
and bounds-checked segments. Nothing here knows who owns the memory. -/
namespace Busker.ByteMemory

/-- The byte held at every address. -/
abbrev Memory := ℕ → UInt8

def store (m : Memory) (address : ℕ) (bytes : List UInt8) : Memory := fun a =>
  if a < address then m a else (bytes[a - address]?).getD (m a)

def load (m : Memory) (address length : ℕ) : List UInt8 :=
  (List.range length).map fun offset => m (address + offset)

/-- Two memories that hold the same bytes at `length` addresses from `address` on. -/
def Same (m m' : Memory) (address length : ℕ) : Prop :=
  ∀ a, address ≤ a → a < address + length → m' a = m a

/-- The only addresses that changed are the `length` ones from `address` on. -/
def OnlyWithin (address length : ℕ) (m m' : Memory) : Prop :=
  ∀ a, a < address ∨ address + length ≤ a → m' a = m a

section
variable {m m' m'' : Memory} {address length : ℕ} {bytes : List UInt8}

@[simp] theorem load_length : (load m address length).length = length := by
  simp [load]

@[simp] theorem load_zero : load m address 0 = [] := rfl

theorem load_append (first second : ℕ) :
    load m address (first + second) =
      load m address first ++ load m (address + first) second := by
  simp only [load, List.range_add, List.map_append, List.map_map]
  congr 1
  apply List.map_congr_left
  intro offset _
  simp [Nat.add_assoc]

theorem load_same (same : Same m m' address length) :
    load m' address length = load m address length := by
  apply List.map_congr_left
  intro offset inside
  have bound := List.mem_range.mp inside
  exact same (address + offset) (by omega) (by omega)

theorem store_outside {a : ℕ} (outside : a < address ∨ address + bytes.length ≤ a) :
    store m address bytes a = m a := by
  unfold store
  split
  · rfl
  · have past : bytes.length ≤ a - address := by omega
    rw [List.getElem?_eq_none past]
    rfl

theorem store_inside {offset : ℕ} (bound : offset < bytes.length) :
    store m address bytes (address + offset) = bytes[offset] := by
  unfold store
  rw [if_neg (by omega), Nat.add_sub_cancel_left, List.getElem?_eq_getElem bound]
  rfl

theorem load_store : load (store m address bytes) address bytes.length = bytes := by
  apply List.ext_getElem
  · simp
  · intro offset _ bound
    simp only [load, List.getElem_map, List.getElem_range]
    exact store_inside bound

theorem store_same {other count : ℕ}
    (apart : other + count ≤ address ∨ address + bytes.length ≤ other) :
    Same m (store m address bytes) other count := by
  intro a above below
  apply store_outside
  omega

theorem store_onlyWithin : OnlyWithin address bytes.length m (store m address bytes) :=
  fun _ outside => store_outside outside

theorem OnlyWithin.refl (address length : ℕ) (m : Memory) : OnlyWithin address length m m :=
  fun _ _ => rfl

theorem OnlyWithin.trans (first : OnlyWithin address length m m')
    (second : OnlyWithin address length m' m'') : OnlyWithin address length m m'' := by
  intro a outside
  rw [second a outside, first a outside]

theorem OnlyWithin.widen {wider count : ℕ} (within : OnlyWithin address length m m')
    (low : wider ≤ address) (high : address + length ≤ wider + count) :
    OnlyWithin wider count m m' := by
  intro a outside
  apply within
  omega

/-- Bytes apart from the changed region are the same. -/
theorem OnlyWithin.same {other count : ℕ} (within : OnlyWithin address length m m')
    (apart : other + count ≤ address ∨ address + length ≤ other) : Same m m' other count := by
  intro a above below
  apply within
  omega

theorem OnlyWithin.load_eq {other count : ℕ} (within : OnlyWithin address length m m')
    (apart : other + count ≤ address ∨ address + length ≤ other) :
    load m' other count = load m other count :=
  load_same (within.same apart)

end

/-! Little-endian words. -/

/-- The `width` least significant bytes of `n`, least significant first. -/
def toLittleEndian : ℕ → ℕ → List UInt8
  | 0, _ => []
  | width + 1, n => UInt8.ofNat (n % 256) :: toLittleEndian width (n / 256)

def ofLittleEndian : List UInt8 → ℕ
  | [] => 0
  | byte :: rest => byte.toNat + 256 * ofLittleEndian rest

@[simp] theorem toLittleEndian_length (width n : ℕ) :
    (toLittleEndian width n).length = width := by
  induction width generalizing n with
  | zero => rfl
  | succ width ih => simp [toLittleEndian, ih]

theorem ofLittleEndian_toLittleEndian (width n : ℕ) (fits : n < 256 ^ width) :
    ofLittleEndian (toLittleEndian width n) = n := by
  induction width generalizing n with
  | zero =>
    have none : n = 0 := by simpa using fits
    rw [none]
    rfl
  | succ width ih =>
    have smaller : n / 256 < 256 ^ width := by
      rw [pow_succ] at fits
      omega
    have byte : (UInt8.ofNat (n % 256)).toNat = n % 256 := by
      rw [UInt8.toNat_ofNat']
      omega
    rw [toLittleEndian, ofLittleEndian, ih _ smaller, byte]
    omega

def storeWord (width : ℕ) (m : Memory) (address n : ℕ) : Memory :=
  store m address (toLittleEndian width n)

def loadWord (width : ℕ) (m : Memory) (address : ℕ) : ℕ :=
  ofLittleEndian (load m address width)

section
variable {m m' : Memory} {address width n : ℕ}

theorem loadWord_storeWord (fits : n < 256 ^ width) :
    loadWord width (storeWord width m address n) address = n := by
  have stored : load (storeWord width m address n) address width =
      toLittleEndian width n := by
    have whole := @load_store m address (toLittleEndian width n)
    rwa [toLittleEndian_length] at whole
  rw [loadWord, stored, ofLittleEndian_toLittleEndian width n fits]

theorem loadWord_same (same : Same m m' address width) :
    loadWord width m' address = loadWord width m address := by
  rw [loadWord, load_same same, loadWord]

theorem loadWord_storeWord_apart {other count : ℕ}
    (apart : other + count ≤ address ∨ address + width ≤ other) :
    loadWord count (storeWord width m address n) other = loadWord count m other := by
  apply loadWord_same
  apply store_same
  simpa using apart

theorem storeWord_onlyWithin : OnlyWithin address width m (storeWord width m address n) := by
  have within := @store_onlyWithin m address (toLittleEndian width n)
  rwa [toLittleEndian_length] at within

end

/-! Records: words at fixed offsets from one address. -/

/-- A word of `width` bytes at `offset`. -/
structure Field where
  offset : ℕ
  width : ℕ
  value : ℕ
  deriving DecidableEq, Repr

def Field.Apart (f g : Field) : Prop :=
  f.offset + f.width ≤ g.offset ∨ g.offset + g.width ≤ f.offset

instance (f g : Field) : Decidable (f.Apart g) :=
  inferInstanceAs (Decidable (_ ∨ _))

def storeFields (m : Memory) (address : ℕ) : List Field → Memory
  | [] => m
  | field :: rest =>
    storeFields (storeWord field.width m (address + field.offset) field.value) address rest

section
variable {m : Memory} {address : ℕ} {fields : List Field} {field : Field}

theorem storeFields_onlyWithin {length : ℕ}
    (inside : ∀ field ∈ fields, field.offset + field.width ≤ length) :
    OnlyWithin address length m (storeFields m address fields) := by
  induction fields generalizing m with
  | nil => exact OnlyWithin.refl address length m
  | cons field rest ih =>
      have fits := inside field List.mem_cons_self
      have first : OnlyWithin address length m
          (storeWord field.width m (address + field.offset) field.value) :=
        storeWord_onlyWithin.widen (by omega) (by omega)
      exact first.trans (ih fun other mem => inside other (List.mem_cons_of_mem field mem))

/-- Words apart from every field are not disturbed by a record. -/
theorem loadWord_storeFields_apart
    (apart : ∀ other ∈ fields, field.Apart other) :
    loadWord field.width (storeFields m address fields) (address + field.offset) =
      loadWord field.width m (address + field.offset) := by
  induction fields generalizing m with
  | nil => rfl
  | cons other rest ih =>
      have first := apart other List.mem_cons_self
      rw [storeFields, ih fun another mem => apart another (List.mem_cons_of_mem other mem)]
      apply loadWord_storeWord_apart
      rcases first with before | after <;> omega

/-- Every field of a record of fields apart from each other is read back as stored. -/
theorem loadWord_storeFields (apart : fields.Pairwise Field.Apart) (mem : field ∈ fields)
    (fits : field.value < 256 ^ field.width) :
    loadWord field.width (storeFields m address fields) (address + field.offset) =
      field.value := by
  induction fields generalizing m with
  | nil => cases mem
  | cons other rest ih =>
      rw [List.pairwise_cons] at apart
      rw [storeFields]
      rcases List.mem_cons.mp mem with rfl | later
      · rw [loadWord_storeFields_apart apart.1, loadWord_storeWord fits]
      · exact ih apart.2 later

end

/-! Segments: views of memory whose accesses are checked against their size. -/

structure Segment where
  base : ℕ
  size : ℕ
  deriving DecidableEq, Repr

namespace Segment

/-- The view of `length` bytes from `offset` on, when they lie inside. -/
def slice (s : Segment) (offset length : ℕ) : Option Segment :=
  if offset + length ≤ s.size then some ⟨s.base + offset, length⟩ else none

/-- Stores `bytes` at `offset`, when they lie inside. -/
def write (s : Segment) (offset : ℕ) (bytes : List UInt8) (m : Memory) : Option Memory :=
  if offset + bytes.length ≤ s.size then some (store m (s.base + offset) bytes) else none

variable {s : Segment} {offset length : ℕ} {bytes : List UInt8} {m : Memory}

theorem slice_of_fits (fits : offset + length ≤ s.size) :
    s.slice offset length = some ⟨s.base + offset, length⟩ := by
  rw [slice, if_pos fits]

theorem write_of_fits (fits : offset + bytes.length ≤ s.size) :
    s.write offset bytes m = some (store m (s.base + offset) bytes) := by
  rw [write, if_pos fits]

end Segment

end Busker.ByteMemory
