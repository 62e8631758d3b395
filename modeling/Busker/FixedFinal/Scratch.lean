import Busker.FixedFinal.SlotRoundTrip

/-! The mailbox path: a plan converted to a command, staged in worker scratch and
sent on the event loop. It makes the native call that draining a slot makes. -/
namespace Busker.FixedFinal
open ByteMemory

structure FixedFinalCommand where
  moduleId : ℕ
  requestSeq : ℕ
  status : ℤ
  headers : List HeaderPair
  headerStagingBytes : ℕ
  contentLength : ℤ
  compressHint : ℤ
  body : List UInt8
  deriving DecidableEq, Repr

/-- `fixed-final-body-bytes`: UTF-8 for a string, a copy of a byte array. -/
def fixedFinalBodyBytes (java : JavaText) : FixedBody → List UInt8
  | .text value => getBytes java .utf8 value
  | .bytes value => value

def fixedFinalCommandFromData (java : JavaText) (req : Request) (plan : DirectResponsePlan) :
    FixedFinalCommand :=
  { moduleId := req.dispatchModuleId
    requestSeq := req.dispatchRequestSeq
    status := plan.status
    headers := plan.headers
    headerStagingBytes := headerStagingBytes plan.headers
    contentLength := plan.contentLength
    compressHint := plan.compressHint
    body := fixedFinalBodyBytes java plan.body }

/-- Worker scratch: a segment of native memory of the given capacity. -/
structure FixedFinalScratch where
  segment : Segment
  capacity : ℕ
  size_eq : segment.size = capacity
  nonNull : 0 < segment.base
  addressable : segment.base + segment.size ≤ 2 ^ 64

/-- Native allocation: none when memory runs out, else non-null memory of the size asked
for. -/
structure Allocator where
  allocate : ℕ → Option Segment
  size_eq : ∀ size s, allocate size = some s → s.size = size
  nonNull : ∀ size s, allocate size = some s → 0 < s.base
  addressable : ∀ size s, allocate size = some s → s.base + s.size ≤ 2 ^ 64

def Allocator.scratch (allocator : Allocator) (capacity : ℕ) : Except Failure FixedFinalScratch :=
  match allocated : allocator.allocate capacity with
  | none => .error .outOfMemory
  | some segment =>
    .ok ⟨segment, capacity, allocator.size_eq _ _ allocated, allocator.nonNull _ _ allocated,
      allocator.addressable _ _ allocated⟩

def exceededBudget : Failure := .exInfo "Fixed final command exceeded its staging budget" []

def scratchCapacity (bodyLimit : ℕ) : ℕ := maxHeaderStagingBytes + max 1 bodyLimit

/-- The worker's scratch, allocated at its first use. -/
def workerScratchSegment (allocator : Allocator) (scratch : Option FixedFinalScratch)
    (bodyLimit : ℕ) : Except Failure FixedFinalScratch :=
  match scratch with
  | some scratch =>
    if scratchCapacity bodyLimit ≠ scratch.capacity then
      .error (.exInfo "Fixed-final scratch capacity changed"
        [("expected", scratch.capacity), ("actual", scratchCapacity bodyLimit)])
    else .ok scratch
  | none => allocator.scratch (scratchCapacity bodyLimit)

/-- `mem/null` -/
def nullSegment : Segment := ⟨0, 0⟩

/-- The descriptors' slice of the scratch; without headers there is none. -/
def sliceDescriptors (segment : Segment) (headers : List HeaderPair) : Except Failure Segment :=
  if headers.length = 0 then .ok nullSegment
  else checked (segment.slice 0 (descriptorBytes headers))

/-- Descriptors first, then the strings, then the body. -/
def stageSegments (segment : Segment) (headers : List HeaderPair) (body : List UInt8)
    (m : Memory) : Except Failure (Segment × Segment × Memory) := do
  let headersSegment ← sliceDescriptors segment headers
  let payload ← checked
    (segment.slice (descriptorBytes headers) (headerBytes headers + body.length + 1))
  let (bodyOffset, m) ← stageHeaders headersSegment payload headers m
  let bodySegment ← checked (payload.slice bodyOffset (max 1 body.length))
  if 0 < body.length then do
    let m ← checked (bodySegment.write 0 body m)
    .ok (headersSegment, bodySegment, m)
  else .ok (headersSegment, bodySegment, m)

/-- `execute!` on a worker: its scratch afterwards, memory, and the native call it made. -/
def execute (ffi : IntConversion) (allocator : Allocator) (worker currentWorker : ℕ)
    (req : Request) (command : FixedFinalCommand) (scratch : Option FixedFinalScratch)
    (m : Memory) : Except Failure (Option NativeFinal × FixedFinalScratch × Memory) :=
  if worker ≠ currentWorker then
    .error (.exInfo "Fixed final command ran outside its event-loop worker" [])
  else if ¬ 0 ≤ req.outputBufferSize then .error exceededBudget
  else if (command.body.length : ℤ) > req.outputBufferSize ∨
      command.headers.length > maxHeaderPairs ∨
      command.headerStagingBytes > maxHeaderStagingBytes then
    .error exceededBudget
  else do
    let scratch ← workerScratchSegment allocator scratch req.outputBufferSize.toNat
    let (headersSegment, bodySegment, m) ←
      stageSegments scratch.segment command.headers command.body m
    let status ← convert ffi command.status
    let compressHint ← convert ffi command.compressHint
    .ok (sendFixedFinal m status headersSegment.base command.headers.length
      (longWord command.contentLength) compressHint bodySegment.base command.body.length,
      scratch, m)

theorem fixedFinalBodyBytes_eq (java : JavaText) (body : FixedBody) :
    fixedFinalBodyBytes java body = body.encoded := by
  cases body <;> rfl

/-- What is staged in scratch: the headers and the body behind them. -/
structure ScratchStaged (m m' : Memory) (segment headersSegment bodySegment : Segment)
    (headers : List HeaderPair) (body : List UInt8) : Prop where
  within : OnlyWithin segment.base segment.size m m'
  headers : readHeaders m' headersSegment.base headers.length =
    headers.map fun header => (utf8Bytes header.name, utf8Bytes header.value)
  body : load m' bodySegment.base body.length = body
  nonNull : segment.base ≤ bodySegment.base

/-- The segment the descriptors go to: none for no headers. -/
def headersSegmentOf (segment : Segment) (headers : List HeaderPair) : Segment :=
  if headers.length = 0 then nullSegment else ⟨segment.base, descriptorBytes headers⟩

theorem headersSegment_layout (segment : Segment) (headers : List HeaderPair) :
    headers.length * 32 ≤ (headersSegmentOf segment headers).size ∧
      (headersSegmentOf segment headers).base + (headersSegmentOf segment headers).size ≤
        segment.base + headers.length * 32 ∧
      ((headersSegmentOf segment headers).size = 0 ∧ (headersSegmentOf segment headers).base = 0 ∨
        (headersSegmentOf segment headers).base = segment.base) := by
  unfold headersSegmentOf
  split
  · rename_i none
    simp [nullSegment, none]
  · simp [descriptorBytes, cljHeaderSize]

/-- The body goes behind the staged headers and leaves them alone. -/
theorem scratchStaged_of_written {segment : Segment} {headers : List HeaderPair}
    {body : List UInt8} {m m₁ : Memory}
    (fits : headers.length * 32 + headerBytes headers + body.length < segment.size)
    (staged : Staged m₁ (headersSegmentOf segment headers).base
      (segment.base + headers.length * 32) headers)
    (frame : StagingFrame (headersSegmentOf segment headers)
      ⟨segment.base + headers.length * 32, headerBytes headers + body.length + 1⟩ 0 0
      (headerBytes headers) m m₁) :
    ScratchStaged m
      (store m₁ (segment.base + headers.length * 32 + headerBytes headers) body) segment
      (headersSegmentOf segment headers)
      ⟨segment.base + headers.length * 32 + headerBytes headers, max 1 body.length⟩ headers
      body := by
  obtain ⟨room, before, start⟩ := headersSegment_layout segment headers
  constructor
  · intro a outside
    rw [store_outside (by omega)]
    apply frame
    simp only
    rcases start with ⟨size, base⟩ | base <;> omega
  · have kept : Staged (store m₁ (segment.base + headers.length * 32 + headerBytes headers) body)
        (headersSegmentOf segment headers).base (segment.base + headers.length * 32) headers :=
      staged.of_same (store_same (by omega)) (store_same (by omega))
    exact kept.readHeaders_eq
  · exact load_store
  · simp only
    omega

/-- Staging needs room for the descriptors, the strings, the body and one byte. -/
theorem stageSegments_ok {segment : Segment} {headers : List HeaderPair} {body : List UInt8}
    {m : Memory}
    (fits : headers.length * 32 + headerBytes headers + body.length < segment.size)
    (addressable : segment.base + segment.size ≤ 2 ^ 64) :
    ∃ headersSegment bodySegment m', stageSegments segment headers body m =
        .ok (headersSegment, bodySegment, m') ∧
      ScratchStaged m m' segment headersSegment bodySegment headers body := by
  have descriptors : descriptorBytes headers = headers.length * 32 := rfl
  obtain ⟨room, before, start⟩ := headersSegment_layout segment headers
  obtain ⟨m₁, staging, staged, frame⟩ := @stageHeaders_ok (headersSegmentOf segment headers)
    ⟨segment.base + headers.length * 32, headerBytes headers + body.length + 1⟩ headers m room
    (by simp only; omega) before (by simp only; omega)
  refine ⟨headersSegmentOf segment headers, _, _, ?_, scratchStaged_of_written fits staged frame⟩
  have headersSliced : sliceDescriptors segment headers =
      .ok (headersSegmentOf segment headers) := by
    unfold sliceDescriptors headersSegmentOf
    split
    · rfl
    · rw [Segment.slice_of_fits (by omega)]
      rfl
  unfold stageSegments
  rw [headersSliced, descriptors, Segment.slice_of_fits
    (show headers.length * 32 + (headerBytes headers + body.length + 1) ≤ segment.size by omega)]
  simp only [bind, Except.bind, checked, staging]
  rw [Segment.slice_of_fits (by simp only; omega)]
  by_cases some : 0 < body.length
  · simp only [some, if_true]
    rw [Segment.write_of_fits (by simp only; omega)]
    rfl
  · have none : body = [] := List.length_eq_zero_iff.mp (by omega)
    subst none
    simp only [List.length_nil, Nat.lt_irrefl, if_false]
    congr 3
    funext a
    exact (store_outside (by simp only [List.length_nil]; omega)).symm

/-! Commands from plans of the fast path. -/

/-- The scratch of a worker that has executed commands of requests configured with one
output buffer size, whatever became of them. -/
inductive ScratchReached (ffi : IntConversion) (allocator : Allocator) (outputBufferSize : ℤ) :
    Option FixedFinalScratch → Prop
  | fresh : ScratchReached ffi allocator outputBufferSize none
  | used {scratch : Option FixedFinalScratch} {worker currentWorker : ℕ} {req : Request}
      {command : FixedFinalCommand} {m m' : Memory} {sent : Option NativeFinal}
      {after : FixedFinalScratch} :
      ScratchReached ffi allocator outputBufferSize scratch →
      req.outputBufferSize = outputBufferSize →
      execute ffi allocator worker currentWorker req command scratch m =
        .ok (sent, after, m') →
      ScratchReached ffi allocator outputBufferSize (some after)

section
variable {ffi : IntConversion} {allocator : Allocator} {scratch : Option FixedFinalScratch}

theorem scratch_capacity {capacity : ℕ} {after : FixedFinalScratch}
    (allocated : allocator.scratch capacity = .ok after) : after.capacity = capacity := by
  unfold Allocator.scratch at allocated
  split at allocated
  · cases allocated
  · cases allocated
    rfl

theorem scratch_ok {capacity : ℕ} (memory : (allocator.allocate capacity).isSome = true) :
    ∃ after, allocator.scratch capacity = .ok after := by
  unfold Allocator.scratch
  split
  · rename_i none
    rw [none] at memory
    cases memory
  · exact ⟨_, rfl⟩

theorem workerScratchSegment_capacity {bodyLimit : ℕ} {after : FixedFinalScratch}
    (found : workerScratchSegment allocator scratch bodyLimit = .ok after) :
    after.capacity = scratchCapacity bodyLimit := by
  cases scratch with
  | none => exact scratch_capacity found
  | some known =>
      simp only [workerScratchSegment] at found
      split at found
      · cases found
      · rename_i same
        cases found
        exact (not_not.mp same).symm

/-- A scratch of the right capacity is found again, a missing one is allocated. -/
theorem workerScratchSegment_ok {bodyLimit : ℕ}
    (known : ∀ s, scratch = some s → s.capacity = scratchCapacity bodyLimit)
    (memory : (allocator.allocate (scratchCapacity bodyLimit)).isSome = true) :
    ∃ after, workerScratchSegment allocator scratch bodyLimit = .ok after := by
  cases scratch with
  | none => exact scratch_ok memory
  | some s => exact ⟨s, if_neg (not_not.mpr (known s rfl).symm)⟩

theorem execute_scratch {worker currentWorker : ℕ} {req : Request} {command : FixedFinalCommand}
    {m m' : Memory} {sent : Option NativeFinal} {after : FixedFinalScratch}
    (executed : execute ffi allocator worker currentWorker req command scratch m =
      .ok (sent, after, m')) :
    after.capacity = scratchCapacity req.outputBufferSize.toNat := by
  unfold execute at executed
  split at executed
  · cases executed
  · split at executed
    · cases executed
    · split at executed
      · cases executed
      · cases found : workerScratchSegment allocator scratch req.outputBufferSize.toNat with
        | error failure =>
            rw [found] at executed
            cases executed
        | ok segment =>
            rw [found] at executed
            have capacity := workerScratchSegment_capacity found
            simp only [bind, Except.bind] at executed
            split at executed
            · cases executed
            · split at executed
              · cases executed
              · split at executed
                · cases executed
                · cases executed
                  exact capacity

/-- Every scratch a worker comes to hold has the capacity its configuration asks for. -/
theorem ScratchReached.capacity {outputBufferSize : ℤ} {held : FixedFinalScratch}
    (reached : ScratchReached ffi allocator outputBufferSize (some held)) :
    held.capacity = scratchCapacity outputBufferSize.toNat := by
  cases reached with
  | used before same executed =>
      rw [← same]
      exact execute_scratch executed

end

section
variable {java : JavaText} {req : Request} {response : Response} {plan : DirectResponsePlan}

/-- Header staging and body fit the scratch with a byte to spare. -/
theorem eligible_scratch_fits (eligible : Eligible java req response plan) :
    plan.headers.length * 32 + headerBytes plan.headers + plan.body.encoded.length <
      scratchCapacity req.outputBufferSize.toNat := by
  have staging := eligible.staging_le
  have body := eligible.body_le.1
  have buffer := eligible.buffer
  rw [eligible.headerBytes] at staging
  rw [eligible.encoded_length, scratchCapacity, maxHeaderStagingBytes]
  by_cases none : plan.headers.length = 0
  · have empty : headerBytes plan.headers = 0 := by
      rw [List.length_eq_zero_iff.mp none]
      rfl
    omega
  · omega

/-- Executing a plan's command is never refused, stays inside the scratch and makes the
call the plan asks for. -/
theorem Eligible.executes (eligible : Eligible java req response plan) (ffi : IntConversion)
    (allocator : Allocator) (worker : ℕ) (statusInt : IsInt plan.status)
    {scratch : Option FixedFinalScratch}
    (known : ∀ s, scratch = some s → s.capacity = scratchCapacity req.outputBufferSize.toNat)
    (memory : (allocator.allocate (scratchCapacity req.outputBufferSize.toNat)).isSome = true)
    (m : Memory) :
    ∃ after m', execute ffi allocator worker worker req
          (fixedFinalCommandFromData java req plan) scratch m =
        .ok (some (plannedFinal plan), after, m') ∧
      after.capacity = scratchCapacity req.outputBufferSize.toNat ∧
      OnlyWithin after.segment.base after.capacity m m' := by
  obtain ⟨after, found⟩ := @workerScratchSegment_ok allocator scratch _ known memory
  have capacity := workerScratchSegment_capacity found
  have size := after.size_eq.trans capacity
  obtain ⟨headersSegment, bodySegment, m', staging, staged⟩ := @stageSegments_ok after.segment
    plan.headers plan.body.encoded m (by rw [size]; exact eligible_scratch_fits eligible)
    after.addressable
  refine ⟨after, m', ?_, capacity, ?_⟩
  · have body := eligible.body_le.1
    have headers := eligible.headers_le
    have budget : headerStagingBytes plan.headers ≤ maxHeaderStagingBytes :=
      eligible.budgets.2.1
    have nonNull : bodySegment.base ≠ 0 := by
      have start := after.nonNull
      have above := staged.nonNull
      omega
    unfold execute fixedFinalCommandFromData
    rw [if_neg (not_not.mpr rfl), if_neg (not_not.mpr eligible.buffer), fixedFinalBodyBytes_eq,
      if_neg (by
        rw [eligible.encoded_length]
        simp only [maxHeaderPairs]
        omega)]
    simp only [found, bind, Except.bind, staging, convert, ffi.exact _ statusInt,
      ffi.exact _ eligible.hint_isInt, sendFixedFinal, if_neg nonNull, staged.headers,
      staged.body, plannedFinal]
  · rw [← after.size_eq]
    exact staged.within

end

/-- The mailbox path and the ring path agree on a plan: neither throws, both make the same
native call, and the mailbox path stays inside its scratch. -/
def PathsAgree (ffi : IntConversion) (java : JavaText) (allocator : Allocator) (worker : ℕ)
    (req : Request) (plan : DirectResponsePlan) (scratch : Option FixedFinalScratch)
    (m : Memory) (slot : RingSlot (payloadCapacity req.outputBufferSize)) (ring : Memory) :
    Prop :=
  ∃ sent after m' ring',
    execute ffi allocator worker worker req (fixedFinalCommandFromData java req plan) scratch m =
      .ok (some sent, after, m') ∧
    after.capacity = scratchCapacity req.outputBufferSize.toNat ∧
    OnlyWithin after.segment.base after.capacity m m' ∧
    writeDirectResponseSlot ffi slot.segment (payloadCapacity req.outputBufferSize) plan ring =
      .ok ring' ∧
    drainSlot (payloadCapacity req.outputBufferSize + 1) ring' slot.segment.base = some sent

/-- Every plan of the fast path whose status is a C `int` is delivered alike by both paths,
on a worker that has executed any commands before. -/
theorem fixedFinal_pathsAgree (ffi : IntConversion) (java : JavaText) (allocator : Allocator)
    (worker : ℕ) (req : Request) (response : Response) (final : Bool)
    (plan : DirectResponsePlan)
    (built : fixedFinalData java req response final = .ok (some plan))
    (dispatched : req.Dispatched) (statusFits : plan.status ≤ 2147483647)
    (scratch : Option FixedFinalScratch)
    (reached : ScratchReached ffi allocator req.outputBufferSize scratch)
    (memory : (allocator.allocate (scratchCapacity req.outputBufferSize.toNat)).isSome = true)
    (m : Memory)
    (slot : RingSlot (payloadCapacity req.outputBufferSize)) (ring : Memory) :
    PathsAgree ffi java allocator worker req plan scratch m slot ring := by
  have eligible := fixedFinalData_eligible built
  have statusFinal := eligible.status_ge
  have statusInt : IsInt plan.status := ⟨by omega, statusFits⟩
  have known : ∀ s, scratch = some s →
      s.capacity = scratchCapacity req.outputBufferSize.toNat := by
    intro s held
    subst held
    exact reached.capacity
  obtain ⟨after, m', executed, capacity, within⟩ :=
    eligible.executes ffi allocator worker statusInt known memory m
  obtain ⟨ring', written, packed, valid⟩ := eligible.packs dispatched ffi statusInt slot ring
  exact ⟨plannedFinal plan, after, m', ring', executed, capacity, within, written,
    packed.drained statusInt eligible.hint_isInt valid⟩

/-- An allocator with the memory of the first page on. -/
def pageAllocator : Allocator where
  allocate size := if size ≤ 2 ^ 32 then some ⟨4096, size⟩ else none
  size_eq size s allocated := by
    split at allocated
    · cases allocated
      rfl
    · cases allocated
  nonNull size s allocated := by
    split at allocated
    · cases allocated
      simp
    · cases allocated
  addressable size s allocated := by
    split at allocated
    · cases allocated
      simp only
      omega
    · cases allocated

/-- The paths agree on a response with an unpaired surrogate in its body. -/
theorem surrogates_pathsAgree :
    PathsAgree checkedConversion asciiText pageAllocator 0 ⟨7, 9, 16, none⟩
      ⟨7, 9, 200, [⟨ascii "x", [0xD83D, 0xDE00, 0xD800]⟩, ⟨[], []⟩], 6, .text [0x41, 0, 0xDC00],
        3, 3, 2⟩
      none (fun _ => 255) pageSlot (fun _ => 255) :=
  fixedFinal_pathsAgree checkedConversion asciiText pageAllocator 0 ⟨7, 9, 16, none⟩
    ⟨some 200, [(ascii "x", .text [0xD83D, 0xDE00, 0xD800]), ([], .nil)],
      some (.text [0x41, 0, 0xDC00]), none, by decide⟩
    true _ (by decide) ⟨by decide, by decide, by decide, by decide⟩ (by decide) none .fresh
    (by decide) _ pageSlot _

/-- With a status of 2^31 the ring path never makes the call, whichever way the FFI library
converts. -/
theorem large_status_not_pathsAgree :
    ¬ ∃ ffi : IntConversion, ∀ (java : JavaText) (allocator : Allocator) (worker : ℕ)
      (req : Request) (response : Response) (final : Bool) (plan : DirectResponsePlan),
      fixedFinalData java req response final = .ok (some plan) → req.Dispatched →
      ∀ scratch, ScratchReached ffi allocator req.outputBufferSize scratch →
      (allocator.allocate (scratchCapacity req.outputBufferSize.toNat)).isSome = true →
      ∀ (m : Memory) (slot : RingSlot (payloadCapacity req.outputBufferSize)) (ring : Memory),
        PathsAgree ffi java allocator worker req plan scratch m slot ring := by
  rintro ⟨ffi, all⟩
  let req : Request := ⟨1, 1, 16, none⟩
  let response : Response := ⟨some 2147483648, [], some (.bytes []), none, by decide⟩
  let plan : DirectResponsePlan := ⟨1, 1, 2147483648, [], 0, .bytes [], 0, 0, 2⟩
  have built : fixedFinalData asciiText req response true = .ok (some plan) := by decide
  have dispatched : req.Dispatched := ⟨by decide, by decide, by decide, by decide⟩
  obtain ⟨sent, after, m', ring', -, -, -, written, drained⟩ := all asciiText pageAllocator 0 req
    response true plan built dispatched none .fresh (by decide) (fun _ => 0) pageSlot (fun _ => 0)
  have refused := (fixedFinalData_eligible built).refused dispatched ffi pageSlot rfl written
    (payloadCapacity req.outputBufferSize + 1)
  rw [drainSlot, refused] at drained
  cases drained

end Busker.FixedFinal
