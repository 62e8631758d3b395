import Busker.FixedFinal.Plan
import Busker.FixedFinal.Staging

/-! A direct plan in a claimed ring slot: what `write-direct-response-slot!`
packs, what native code accepts and what it reads. -/
namespace Busker.FixedFinal
open ByteMemory

/-- The bits of a Java `long` in a 64-bit field. -/
def longWord (n : ℤ) : ℕ := (n % 18446744073709551616).toNat

/-- The bits of a C `int`. -/
def intWord (n : ℤ) : ℕ := (n % 4294967296).toNat

/-- A C `int` from its bits. -/
def ofIntWord (word : ℕ) : ℤ := if word < 2147483648 then word else word - 4294967296

def IsInt (n : ℤ) : Prop := -2147483648 ≤ n ∧ n ≤ 2147483647

instance (n : ℤ) : Decidable (IsInt n) :=
  inferInstanceAs (Decidable (-2147483648 ≤ n ∧ n ≤ 2147483647))

theorem ofIntWord_intWord {n : ℤ} (int : IsInt n) : ofIntWord (intWord n) = n := by
  obtain ⟨low, high⟩ := int
  unfold ofIntWord intWord
  split <;> omega

theorem longWord_lt (n : ℤ) : longWord n < 256 ^ 8 := by
  unfold longWord
  omega

theorem intWord_lt (n : ℤ) : intWord n < 256 ^ 4 := by
  unfold intWord
  omega

/-- How the FFI library passes a `long` where C takes an `int`: a value that fits is
passed as it is; for another it throws or passes the low 32 bits. -/
structure IntConversion where
  toInt : ℤ → Option ℤ
  exact : ∀ n, IsInt n → toInt n = some n
  narrows : ∀ n int, toInt n = some int → IsInt int ∧ int % 4294967296 = n % 4294967296

/-- A library that throws where the value does not fit. -/
def checkedConversion : IntConversion where
  toInt n := if IsInt n then some n else none
  exact _ int := if_pos int
  narrows n int converted := by
    split at converted
    · cases converted
      exact ⟨by assumption, rfl⟩
    · cases converted

def convert (ffi : IntConversion) (n : ℤ) : Except Failure ℤ :=
  match ffi.toInt n with
  | none => .error .intOutOfRange
  | some int => .ok int

/-! The layout of `clj_fixed_response_slot_data_t`. -/

def responseSlotDataSize : ℕ := 2120
def responseSlotHeadersOffset : ℕ := 72
def responseSlotStatus : ℕ := 64
def responseSlotCompressHint : ℕ := 68

/-- The fields written as longs, in the order they are written. -/
def longFields (plan : DirectResponsePlan) (bodyOffset : ℕ) : List Field :=
  [⟨8, 8, plan.moduleId⟩, ⟨16, 8, plan.requestSeq⟩, ⟨24, 8, plan.headers.length⟩,
    ⟨32, 8, longWord plan.contentLength⟩, ⟨40, 8, bodyOffset⟩, ⟨48, 8, plan.bodyLength⟩,
    ⟨56, 8, plan.headerBytes + plan.bodyLength⟩]

def writeFields (s : Segment) : List Field → Memory → Except Failure Memory
  | [], m => .ok m
  | field :: rest, m => do
    let m ← writeField s field.offset field.width field.value m
    writeFields s rest m

def doesNotFit (plan : DirectResponsePlan) (payloadCapacity : ℕ) : Failure :=
  .exInfo "Fixed response does not fit its claimed slot"
    [("header-count", plan.headers.length),
      ("payload-bytes", plan.headerBytes + plan.bodyLength),
      ("payload-capacity", payloadCapacity)]

def headerSizeChanged (expected actual : ℕ) : Failure :=
  .exInfo "Fixed response header size changed while packing"
    [("expected", expected), ("actual", actual)]

def bodySizeChanged (expected actual : ℕ) : Failure :=
  .exInfo "Fixed response body size changed while packing"
    [("expected", expected), ("actual", actual)]

/-- The body, unless it is empty. -/
def writeBody (payload : Segment) (bodyOffset : ℕ) (plan : DirectResponsePlan) (m : Memory) :
    Except Failure Memory :=
  if plan.bodyLength = 0 then .ok m
  else
    match plan.body with
    | .text value => do
      let (bodyEnd, m) ← writeUtf8 payload bodyOffset value plan.bodyLength m
      if plan.headerBytes + plan.bodyLength ≠ bodyEnd then
        .error (bodySizeChanged plan.bodyLength (bodyEnd - bodyOffset))
      else .ok m
    | .bytes value =>
      if value.length < plan.bodyLength then .error .indexOutOfBounds
      else checked (payload.write bodyOffset (value.take plan.bodyLength) m)

def writeDirectResponseSlot (ffi : IntConversion) (slot : Segment) (payloadCapacity : ℕ)
    (plan : DirectResponsePlan) (m : Memory) : Except Failure Memory :=
  if plan.headers.length > maxHeaderPairs ∨
      plan.headerBytes + plan.bodyLength > payloadCapacity then
    .error (doesNotFit plan payloadCapacity)
  else do
    let payload ← checked (slot.slice responseSlotDataSize (payloadCapacity + 1))
    let descriptors ← checked
      (slot.slice responseSlotHeadersOffset (descriptorBytes plan.headers))
    let (bodyOffset, m) ← stageHeaders descriptors payload plan.headers m
    if plan.headerBytes ≠ bodyOffset then .error (headerSizeChanged plan.headerBytes bodyOffset)
    else do
      let m ← writeBody payload bodyOffset plan m
      let m ← writeFields slot (longFields plan bodyOffset) m
      let status ← convert ffi plan.status
      let m ← writeField slot responseSlotStatus 4 (intWord status) m
      let compressHint ← convert ffi plan.compressHint
      writeField slot responseSlotCompressHint 4 (intWord compressHint) m

/-! The native side. -/

structure SlotData where
  moduleId : ℕ
  requestSeq : ℕ
  headersLen : ℕ
  contentLength : ℕ
  bodyOffset : ℕ
  bodyLen : ℕ
  payloadLen : ℕ
  status : ℤ
  compressHint : ℤ
  deriving DecidableEq, Repr

def readSlotData (m : Memory) (data : ℕ) : SlotData :=
  { moduleId := loadWord 8 m (data + 8)
    requestSeq := loadWord 8 m (data + 16)
    headersLen := loadWord 8 m (data + 24)
    contentLength := loadWord 8 m (data + 32)
    bodyOffset := loadWord 8 m (data + 40)
    bodyLen := loadWord 8 m (data + 48)
    payloadLen := loadWord 8 m (data + 56)
    status := ofIntWord (loadWord 4 m (data + responseSlotStatus))
    compressHint := ofIntWord (loadWord 4 m (data + responseSlotCompressHint)) }

def uintptrMax : ℕ := 18446744073709551615

def responseRangeValid (offset length total : ℕ) : Bool :=
  offset ≤ total && length ≤ total - offset

def responsePointerRangeValid (value valueLen payload payloadLen : ℕ) : Bool :=
  value != 0 && payloadLen ≤ uintptrMax - payload && payload ≤ value &&
    value ≤ payload + payloadLen && valueLen ≤ payload + payloadLen - value

/-- The loop of `response_slot_data_valid` over the descriptors that are left. -/
def responseHeadersValid (m : Memory) (payload payloadLen : ℕ) : ℕ → ℕ → Bool
  | _, 0 => true
  | address, count + 1 =>
    let header := readHeader m address
    responsePointerRangeValid header.name header.nameLen payload payloadLen &&
      responsePointerRangeValid header.value header.valueLen payload payloadLen &&
      responseHeadersValid m payload payloadLen (address + cljHeaderSize) count

def responseSlotPayload (data : ℕ) : ℕ := data + responseSlotDataSize

def responseSlotDataValid (slotPayloadCapacity : ℕ) (m : Memory) (data : ℕ) : Bool :=
  let slot := readSlotData m data
  slot.moduleId != 0 && slot.requestSeq != 0 && decide (200 ≤ slot.status) &&
    decide (slot.headersLen ≤ 64) && decide (slot.payloadLen ≤ slotPayloadCapacity) &&
    responseRangeValid slot.bodyOffset slot.bodyLen slot.payloadLen &&
    responseHeadersValid m (responseSlotPayload data) slot.payloadLen
      (data + responseSlotHeadersOffset) slot.headersLen

/-- The arguments of `clj_h2o_send_fixed_final`, strings and body by their bytes. -/
structure NativeFinal where
  status : ℤ
  headers : List (List UInt8 × List UInt8)
  contentLength : ℕ
  compressHint : ℤ
  body : List UInt8
  deriving DecidableEq, Repr

/-- `clj_h2o_send_fixed_final` for a live request: without a body it does nothing. -/
def sendFixedFinal (m : Memory) (status : ℤ) (headers headersLen contentLength : ℕ)
    (compressHint : ℤ) (body bodyLen : ℕ) : Option NativeFinal :=
  if body = 0 then none
  else some
    { status := status
      headers := readHeaders m headers headersLen
      contentLength := contentLength
      compressHint := compressHint
      body := load m body bodyLen }

/-- What draining a ready slot sends to its live request. -/
def drainSlot (slotPayloadCapacity : ℕ) (m : Memory) (data : ℕ) : Option NativeFinal :=
  let slot := readSlotData m data
  if responseSlotDataValid slotPayloadCapacity m data then
    sendFixedFinal m slot.status (data + responseSlotHeadersOffset) slot.headersLen
      slot.contentLength slot.compressHint (responseSlotPayload data + slot.bodyOffset)
      slot.bodyLen
  else none

/-- The payload capacity a generation gives its slots. -/
def payloadCapacity (outputBufferSize : ℤ) : ℕ :=
  (16384 + min outputBufferSize responseRingMaxBodyBytes).toNat

/-- A slot of a ring: its metadata, its payload and room for one NUL, in addressable
memory. -/
structure RingSlot (capacity : ℕ) where
  segment : Segment
  size_eq : segment.size = responseSlotDataSize + (capacity + 1)
  addressable : segment.base + segment.size ≤ 2 ^ 64

end Busker.FixedFinal
