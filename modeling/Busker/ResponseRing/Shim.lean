import Mathlib.Data.Fintype.Basic
import Mathlib.Data.Fin.Basic
import Mathlib.Data.Fintype.Pi

/-! The native response ring of shim.c, one definition for each call and one
program point for each atomic access. Claim, publish and abort run on any number
of threads, the drain on one. Slot contents are the descriptor structs of
shim.h; addresses are natural numbers and 0 is NULL. -/

namespace Busker.ResponseRing

/-- `clj_response_slot_state_t`. -/
inductive SlotState
  | free | claimed | ready | draining
  deriving DecidableEq, Repr

def maxHeaders : ℕ := 64
def sizeMax : ℕ := 2 ^ 64 - 1
def uintptrMax : ℕ := 2 ^ 64 - 1
def handleIndexMask : ℕ := 0xffff
def handleSequenceMask : ℕ := 0xffffffffffff

/-- `clj_header_t`. -/
structure Header where
  name : ℕ
  nameLen : ℕ
  value : ℕ
  valueLen : ℕ
  deriving DecidableEq

/-- `clj_fixed_response_slot_data_t`. -/
structure SlotData where
  claimToken : ℕ
  moduleId : ℕ
  requestSeq : ℕ
  headersLen : ℕ
  contentLength : ℕ
  bodyOffset : ℕ
  bodyLen : ℕ
  payloadLen : ℕ
  status : ℤ
  compressHint : ℤ
  headers : Fin maxHeaders → Header

/-- What `clj_h2o_mt_create_response_receiver` fixes: at least one slot, at most
`UINT16_MAX`, and the address of each slot's payload. -/
structure Geometry where
  capacity : ℕ
  slotPayloadCapacity : ℕ
  payload : Fin capacity → ℕ
  capacity_pos : 0 < capacity
  capacity_le : capacity ≤ 65535

/-- What the ring has done, in order. Claims are numbered by the value
`claim_sequence` had when they were made; no code reads this record. -/
structure History where
  issued : List ℕ := []
  published : List ℕ := []
  aborted : List ℕ := []
  drained : List ℕ := []
  sent : List ℕ := []

/-- `clj_mt_receiver_t`, with the number of the last claim of each slot. -/
structure Receiver (g : Geometry) where
  state : Fin g.capacity → SlotState
  data : Fin g.capacity → SlotData
  ringClaimed : ℕ
  ringReady : ℕ
  claimCursor : ℕ
  claimSequence : ℕ
  acceptsResponses : Bool
  occupant : Fin g.capacity → ℕ
  history : History

/-- `atomic_fetch_sub` of one on a `size_t`, which wraps at zero. -/
def fetchSub (n : ℕ) : ℕ := if n = 0 then sizeMax else n - 1

variable {g : Geometry}

/-- `(sequence << 16) | (index + 1)`. -/
def encodeHandle (sequence : ℕ) (i : Fin g.capacity) : ℕ :=
  sequence <<< 16 ||| (i.val + 1)

theorem encodeHandle_eq (sequence : ℕ) (i : Fin g.capacity) :
    encodeHandle sequence i = sequence * 2 ^ 16 + (i.val + 1) := by
  have hi := i.isLt
  have hc := g.capacity_le
  rw [encodeHandle, ← Nat.shiftLeft_add_eq_or_of_lt (by omega), Nat.shiftLeft_eq]

/-- The slot a handle names: its low 16 bits less one, when in range. -/
def decodeHandle (g : Geometry) (handle : ℕ) : Option (Fin g.capacity) :=
  let encoded := handle &&& handleIndexMask
  if h : encoded ≠ 0 ∧ encoded - 1 < g.capacity then some ⟨encoded - 1, h.2⟩ else none

@[simp] theorem decodeHandle_encodeHandle (sequence : ℕ) (i : Fin g.capacity) :
    decodeHandle g (encodeHandle sequence i) = some i := by
  have hi := i.isLt
  have hc := g.capacity_le
  have low : encodeHandle sequence i &&& handleIndexMask = i.val + 1 := by
    rw [encodeHandle_eq, handleIndexMask, show 0xffff = 2 ^ 16 - 1 from rfl,
      Nat.and_two_pow_sub_one_eq_mod]
    omega
  simp only [decodeHandle, low]
  split
  · rfl
  · omega

theorem encodeHandle_ne_zero (sequence : ℕ) (i : Fin g.capacity) :
    encodeHandle sequence i ≠ 0 := by
  rw [encodeHandle_eq]
  omega

theorem encodeHandle_injective {a b : ℕ} {i j : Fin g.capacity}
    (h : encodeHandle a i = encodeHandle b j) : a = b ∧ i = j := by
  have hi := i.isLt
  have hj := j.isLt
  have hc := g.capacity_le
  rw [encodeHandle_eq, encodeHandle_eq] at h
  exact ⟨by omega, Fin.ext (by omega)⟩

/-- `response_slot_from_handle`. -/
def slotFromHandle (r : Receiver g) (handle : ℕ) : Option (Fin g.capacity) :=
  if handle = 0 then none
  else (decodeHandle g handle).filter fun i => (r.data i).claimToken = handle

def rangeValid (offset length total : ℕ) : Bool := offset ≤ total && length ≤ total - offset

/-- `response_pointer_range_valid`. -/
def pointerRangeValid (value valueLen payload payloadLen : ℕ) : Bool :=
  value ≠ 0 && payloadLen ≤ uintptrMax - payload &&
    payload ≤ value && value ≤ payload + payloadLen && valueLen ≤ payload + payloadLen - value

/-- `response_slot_data_valid`. -/
def slotDataValid (g : Geometry) (payload : ℕ) (data : SlotData) : Bool :=
  data.moduleId ≠ 0 && data.requestSeq ≠ 0 && 200 ≤ data.status &&
    data.headersLen ≤ maxHeaders && data.payloadLen ≤ g.slotPayloadCapacity &&
    rangeValid data.bodyOffset data.bodyLen data.payloadLen &&
    decide (∀ i : Fin maxHeaders, i.val < data.headersLen →
      pointerRangeValid (data.headers i).name (data.headers i).nameLen payload data.payloadLen &&
      pointerRangeValid (data.headers i).value (data.headers i).valueLen payload data.payloadLen)

/-- Where a claimant stands. The first group is `clj_h2o_response_try_claim`,
`holding` is between calls, and the rest are `clj_h2o_response_publish` and
`clj_h2o_response_abort` with the handle they were given. -/
inductive Claimant (g : Geometry)
  | idle
  | enter
  | cursor
  | attempt (start k : ℕ)
  | reset (i : Fin g.capacity)
  | sequence (i : Fin g.capacity)
  | stamp (i : Fin g.capacity) (handle : ℕ)
  | count (i : Fin g.capacity) (handle : ℕ)
  | holding (handle : ℕ)
  | publish (handle : ℕ)
  | publishReady (i : Fin g.capacity) (handle : ℕ)
  | publishState (i : Fin g.capacity) (handle : ℕ)
  | publishUndo (i : Fin g.capacity) (handle : ℕ)
  | publishClaimed (i : Fin g.capacity)
  | refused (handle : ℕ)
  | abort (handle : ℕ)
  | abortState (i : Fin g.capacity)
  | abortClaimed (i : Fin g.capacity)
  deriving DecidableEq

/-- What a claimant does next where the code leaves a choice: start a claim, write
the claimed slot, publish it, or give it up because packing it threw. -/
inductive Move
  | tick
  | claim
  | write (data : SlotData)
  | publish
  | abandon

/-- The slot tried in the `k`th round of the claim loop. -/
def claimIndex (g : Geometry) (start k : ℕ) : Fin g.capacity :=
  ⟨(start + k) % (sizeMax + 1) % g.capacity, Nat.mod_lt _ g.capacity_pos⟩

def Receiver.setState (r : Receiver g) (i : Fin g.capacity) (s : SlotState) : Receiver g :=
  { r with state := Function.update r.state i s }

def Receiver.setData (r : Receiver g) (i : Fin g.capacity) (d : SlotData) : Receiver g :=
  { r with data := Function.update r.data i d }

/-- Number the claim of slot `i` and issue its handle. -/
def Receiver.issue (r : Receiver g) (i : Fin g.capacity) (handle : ℕ) : Receiver g :=
  { r with
    claimSequence := r.claimSequence + 1
    occupant := Function.update r.occupant i r.claimSequence
    history := { r.history with issued := r.history.issued ++ [handle] } }

/-- The slot becomes READY. -/
def Receiver.publish (r : Receiver g) (i : Fin g.capacity) : Receiver g :=
  { r.setState i .ready with
    history := { r.history with published := r.history.published ++ [r.occupant i] } }

/-- A claimed slot becomes FREE again. -/
def Receiver.abort (r : Receiver g) (i : Fin g.capacity) : Receiver g :=
  { r.setState i .free with
    history := { r.history with aborted := r.history.aborted ++ [r.occupant i] } }

/-- A drained slot becomes FREE. -/
def Receiver.drain (r : Receiver g) (i : Fin g.capacity) : Receiver g :=
  { r.setState i .free with
    history := { r.history with drained := r.history.drained ++ [r.occupant i] } }

/-- One atomic step of a claiming thread. -/
def claimantStep (r : Receiver g) : Claimant g → Move → Option (Receiver g × Claimant g)
  | .idle, .claim => some (r, .enter)
  | .enter, .tick => some (r, if r.acceptsResponses then .cursor else .idle)
  | .cursor, .tick =>
    some ({ r with claimCursor := (r.claimCursor + 1) % (sizeMax + 1) }, .attempt r.claimCursor 0)
  | .attempt start k, .tick =>
    if k < g.capacity then
      if r.state (claimIndex g start k) = .free then
        some (r.setState (claimIndex g start k) .claimed, .reset (claimIndex g start k))
      else some (r, .attempt start (k + 1))
    else some (r, .idle)
  | .reset i, .tick => some (r.setData i { r.data i with moduleId := 0 }, .sequence i)
  | .sequence i, .tick =>
    let handle := encodeHandle ((r.claimSequence + 1) &&& handleSequenceMask) i
    some (r.issue i handle, .stamp i handle)
  | .stamp i handle, .tick =>
    some (r.setData i { r.data i with claimToken := handle }, .count i handle)
  | .count _ handle, .tick => some ({ r with ringClaimed := r.ringClaimed + 1 }, .holding handle)
  | .holding handle, .write d =>
    (decodeHandle g handle).map fun i =>
      (r.setData i { d with claimToken := (r.data i).claimToken }, .holding handle)
  | .holding handle, .publish => some (r, .publish handle)
  | .holding handle, .abandon => some (r, .abort handle)
  | .publish handle, .tick =>
    match slotFromHandle r handle with
    | none => some (r, .refused handle)
    | some i =>
      if r.acceptsResponses && slotDataValid g (g.payload i) (r.data i) then
        some (r, .publishReady i handle)
      else some (r, .refused handle)
  | .publishReady i handle, .tick =>
    some ({ r with ringReady := r.ringReady + 1 }, .publishState i handle)
  | .publishState i handle, .tick =>
    if r.state i = .claimed then some (r.publish i, .publishClaimed i)
    else some (r, .publishUndo i handle)
  | .publishUndo _ handle, .tick =>
    some ({ r with ringReady := fetchSub r.ringReady }, .refused handle)
  | .publishClaimed _, .tick => some ({ r with ringClaimed := fetchSub r.ringClaimed }, .idle)
  | .refused handle, .tick => some (r, .abort handle)
  | .abort handle, .tick =>
    match slotFromHandle r handle with
    | none => some (r, .idle)
    | some i => some (r, .abortState i)
  | .abortState i, .tick =>
    if r.state i = .claimed then some (r.abort i, .abortClaimed i) else some (r, .idle)
  | .abortClaimed _, .tick => some ({ r with ringClaimed := fetchSub r.ringClaimed }, .idle)
  | _, _ => none

/-- Where the draining thread stands in `clj_h2o_response_ring_drain`. -/
inductive Drainer (g : Geometry)
  | idle
  | check
  | scan (k : ℕ)
  | send (i : Fin g.capacity)
  | release (i : Fin g.capacity)
  | count (i : Fin g.capacity)
  deriving DecidableEq

/-- `live` tells whether `response_request` finds the request a slot names. -/
inductive DrainMove
  | tick
  | drain
  | send (live : Bool)

def Receiver.send (r : Receiver g) (i : Fin g.capacity) (live : Bool) : Receiver g :=
  if slotDataValid g (g.payload i) (r.data i) && live then
    { r with history := { r.history with sent := r.history.sent ++ [r.occupant i] } }
  else r

/-- One atomic step of the draining thread. -/
def drainerStep (r : Receiver g) : Drainer g → DrainMove → Option (Receiver g × Drainer g)
  | .idle, .drain => some (r, .check)
  | .check, .tick => some (r, if r.ringReady = 0 then .idle else .scan 0)
  | .scan k, .tick =>
    if h : k < g.capacity then
      if r.state ⟨k, h⟩ = .ready then some (r.setState ⟨k, h⟩ .draining, .send ⟨k, h⟩)
      else some (r, .scan (k + 1))
    else some (r, .idle)
  | .send i, .send live => some (r.send i live, .release i)
  | .release i, .tick => some (r.drain i, .count i)
  | .count i, .tick => some ({ r with ringReady := fetchSub r.ringReady }, .scan (i.val + 1))
  | _, _ => none

/-- A receiver as `clj_h2o_mt_create_response_receiver` leaves it. -/
def Receiver.Fresh (r : Receiver g) : Prop :=
  (∀ i, r.state i = .free) ∧ r.ringClaimed = 0 ∧ r.ringReady = 0 ∧ r.claimCursor = 0 ∧
    r.claimSequence = 0 ∧ r.acceptsResponses = true ∧ r.history = {}

end Busker.ResponseRing
