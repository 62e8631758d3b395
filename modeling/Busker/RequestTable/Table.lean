import Busker.Chains.Buckets

/-! The table of the requests a worker has handed to the application, by request sequence
number: `response_request_bucket` to `unregister_response_request`, and the calls through
which requests enter and leave it. It is written on the worker's thread only. A walk along a
chain is given `fuel` links. -/

namespace Busker.RequestTable

open Chains

def sizeMax : ℕ := 2 ^ 64 - 1

/-- Arithmetic of `size_t`. -/
def sizeT (n : ℕ) : ℕ := n % 2 ^ 64

/-- The fields of a `clj_req_ctx_t` that the table reads and writes, its link aside.
`responseReceiver` tells whether the pointer of that name is this receiver's or null. -/
structure Context where
  dispatchModuleId : UInt64
  dispatchRequestSeq : UInt64
  responseReceiver : Bool
  cleanup : Bool
  deriving DecidableEq, Repr

/-- The table of a `clj_mt_receiver_t` and the contexts of the worker's requests.
`request_buckets` is allocated with the receiver and freed with it. -/
structure Receiver (κ : Type*) where
  requestBuckets : Links κ
  requestCapacity : ℕ
  requestSize : ℕ
  ctx : κ → Context

def responseRequestBucket (capacity : ℕ) (requestSeq : UInt64) : ℕ :=
  let hash := requestSeq
  let hash := hash ^^^ (hash >>> 33)
  let hash := hash * 0xff51afd7ed558ccd
  let hash := hash ^^^ (hash >>> 33)
  let hash := hash * 0xc4ceb9fe1a85ec53
  let hash := hash ^^^ (hash >>> 33)
  hash.toNat &&& (capacity - 1)

/-- `clj_h2o_mt_create_response_receiver`. A context that no request has yet is as one that
has been cleaned up. -/
def Receiver.create (κ : Type*) : Receiver κ where
  requestBuckets := ⟨List.replicate 256 none, fun _ => none⟩
  requestCapacity := 256
  requestSize := 0
  ctx _ := ⟨0, 0, false, true⟩

section
variable {κ : Type*} (fuel : ℕ)

def Receiver.bucketOf (receiver : Receiver κ) (capacity : ℕ) (ctx : κ) : ℕ :=
  responseRequestBucket capacity (receiver.ctx ctx).dispatchRequestSeq

def findResponseRequest (receiver : Receiver κ) (requestSeq : UInt64) : Option (Option κ) :=
  if requestSeq = 0 then some none
  else
    let bucket := responseRequestBucket receiver.requestCapacity requestSeq
    walk receiver.requestBuckets.next
      (fun ctx => (receiver.ctx ctx).dispatchRequestSeq == requestSeq) fuel
      (receiver.requestBuckets.read (.bucket bucket))

variable [DecidableEq κ]

/-- `calloc` succeeds or not as `allocated` says. -/
def resizeResponseRequests (receiver : Receiver κ) (capacity : ℕ) (allocated : Bool) :
    Option (Bool × Receiver κ) :=
  if capacity = 0 ∨ sizeMax / 8 < capacity then some (false, receiver)
  else if !allocated then some (false, receiver)
  else do
    let buckets ← Links.relink (receiver.bucketOf capacity) fuel receiver.requestBuckets.heads
      ⟨List.replicate capacity none, receiver.requestBuckets.next⟩
    return (true, { receiver with requestBuckets := buckets, requestCapacity := capacity })

/-- The room for one more entry, which may take a resize. -/
def growResponseRequests (receiver : Receiver κ) (allocated : Bool) :
    Option (Bool × Receiver κ) :=
  if receiver.requestCapacity - receiver.requestCapacity / 4 < sizeT (receiver.requestSize + 1) then
    if sizeMax / 2 < receiver.requestCapacity then some (false, receiver)
    else resizeResponseRequests fuel receiver (sizeT (receiver.requestCapacity * 2)) allocated
  else some (true, receiver)

def registerResponseRequest (receiver : Receiver κ) (ctx : κ) (requestSeq : UInt64)
    (allocated : Bool) : Option (Bool × Receiver κ) := do
  if (← findResponseRequest fuel receiver requestSeq).isSome then return (false, receiver)
  let (roomy, receiver) ← growResponseRequests fuel receiver allocated
  if !roomy then return (false, receiver)
  let bucket := responseRequestBucket receiver.requestCapacity requestSeq
  return (true, { receiver with
    requestBuckets := receiver.requestBuckets.push bucket ctx
    requestSize := sizeT (receiver.requestSize + 1) })

def unregisterResponseRequest (receiver : Receiver κ) (ctx : κ) (requestSeq : UInt64) :
    Option (Receiver κ) :=
  if !(receiver.ctx ctx).responseReceiver ∨ requestSeq = 0 then some receiver
  else do
    let bucket := responseRequestBucket receiver.requestCapacity requestSeq
    let (buckets, found) ←
      Links.unlink ctx fuel receiver.requestBuckets (.bucket bucket)
    return { receiver with
      requestBuckets := buckets
      requestSize := if found then sizeT (receiver.requestSize + sizeMax)
        else receiver.requestSize }

def Receiver.setCtx (receiver : Receiver κ) (ctx : κ) (context : Context) : Receiver κ :=
  { receiver with ctx := Function.update receiver.ctx ctx context }

/-- `clj_h2o_install_request_dispatch`; `accepts` is the flag it loads. -/
def installRequestDispatch (receiver : Receiver κ) (ctx : κ) (accepts : Bool)
    (moduleId requestSeq : UInt64) (allocated : Bool) : Option (Bool × Receiver κ) :=
  if !accepts ∨ moduleId = 0 ∨ requestSeq = 0 then some (false, receiver)
  else do
    let (registered, receiver) ←
      registerResponseRequest fuel receiver ctx requestSeq allocated
    if !registered then return (false, receiver)
    return (true, receiver.setCtx ctx { receiver.ctx ctx with
      responseReceiver := true
      dispatchModuleId := moduleId
      dispatchRequestSeq := requestSeq })

/-- `cleanup_request` -/
def cleanupRequest (receiver : Receiver κ) (ctx : κ) : Option (Receiver κ) := do
  let requestSeq := (receiver.ctx ctx).dispatchRequestSeq
  let receiver ← unregisterResponseRequest fuel receiver ctx requestSeq
  return receiver.setCtx ctx ⟨0, 0, false, true⟩

/-- `response_request` -/
def responseRequest (receiver : Receiver κ) (moduleId requestSeq : UInt64) :
    Option (Option κ) := do
  let found ← findResponseRequest fuel receiver requestSeq
  return found.filter fun ctx =>
    let context := receiver.ctx ctx
    !context.cleanup && context.responseReceiver && context.dispatchModuleId == moduleId &&
      context.dispatchRequestSeq == requestSeq

/-- What the worker's thread does with the table. -/
inductive Call (κ : Type*)
  /-- `request_handler` clears the context of a new request. -/
  | allocate (ctx : κ)
  | install (ctx : κ) (accepts : Bool) (moduleId requestSeq : UInt64) (allocated : Bool)
  | cleanup (ctx : κ)
  | find (requestSeq : UInt64)
  | response (moduleId requestSeq : UInt64)

inductive Answer (κ : Type*)
  | done
  | installed (registered : Bool)
  | found (ctx : Option κ)

def call (receiver : Receiver κ) : Call κ → Option (Answer κ × Receiver κ)
  | .allocate ctx => some (.done, receiver.setCtx ctx ⟨0, 0, false, false⟩)
  | .install ctx accepts moduleId requestSeq allocated => do
      let (registered, receiver) ←
        installRequestDispatch fuel receiver ctx accepts moduleId requestSeq allocated
      return (.installed registered, receiver)
  | .cleanup ctx => do
      let receiver ← cleanupRequest fuel receiver ctx
      return (.done, receiver)
  | .find requestSeq => do
      let ctx ← findResponseRequest fuel receiver requestSeq
      return (.found ctx, receiver)
  | .response moduleId requestSeq => do
      let ctx ← responseRequest fuel receiver moduleId requestSeq
      return (.found ctx, receiver)

/-- What the callers see to: memory in use is not given to a new request, and the dispatch of
a live request is installed once (`on-request` is called once for each). -/
def Promised (receiver : Receiver κ) : Call κ → Prop
  | .allocate ctx => (receiver.ctx ctx).responseReceiver = false
  | .install ctx _ _ requestSeq _ =>
      (receiver.ctx ctx).cleanup = false ∧
        ((receiver.ctx ctx).responseReceiver = true →
          (receiver.ctx ctx).dispatchRequestSeq = requestSeq)
  | _ => True

/-- A history, the latest call first, and the receiver after it. -/
inductive Run : List (Call κ × Answer κ) → Receiver κ → Prop
  | create : Run [] (Receiver.create κ)
  | call {history : List (Call κ × Answer κ)} {receiver receiver' : Receiver κ} {answer : Answer κ}
      (next : Call κ) : Run history receiver → Promised receiver next →
      RequestTable.call fuel receiver next = some (answer, receiver') →
      Run ((next, answer) :: history) receiver'

end

end Busker.RequestTable
