import Busker.CallbackDispatch.Dispatch
import Busker.RequestTable.Table

/-! How a request enters and leaves a worker: `request_handler` and `cleanup_request` of the
shim with `on-request` and `on-request-cleanup` of `ol.busker.request`. All of that runs on the
worker's thread, one program point for each call that can throw; `begin-drain!` comes from
another thread at any time and `finish!` when the worker's has ended. `κ` names the memory that
the contexts of requests are placed in. -/

namespace Busker.Admission

open Interleaving RequestTable CallbackDispatch

/-- A Java `long` as the `uint64_t` of the shim. -/
def uint64 (n : ℤ) : UInt64 := UInt64.ofNat (n % 2 ^ 64).toNat

/-- A `uint64_t` as the Java `long` of a callback. -/
def long (n : UInt64) : ℤ := if n.toNat < 2 ^ 63 then n.toNat else n.toNat - 2 ^ 64

/-- The results of the upcall. -/
inductive Code
  | ok | overloaded | shuttingDown
  deriving DecidableEq, Repr

/-- How a call ends. -/
inductive Outcome
  | returns | rejected | interrupted | throws
  deriving DecidableEq, Repr

/-- What the outer handlers of `on-request` make of an exception. -/
def Outcome.code : Outcome → Code
  | .interrupted => .shuttingDown
  | _ => .overloaded

/-- The request that `on-request` wraps. No two have the same number. -/
structure Request (κ : Type) where
  ctx : κ
  number : ℕ
  hasBody : Bool
  deriving DecidableEq, Repr

/-- What `on-request` has handed to the executor. -/
structure Task (κ : Type) where
  request : Request κ
  moduleId : ℤ
  requestSeq : ℤ
  deriving DecidableEq, Repr

/-- Where the worker's thread stands in `on-request`; `code` is what it returns once the
request is retired. -/
inductive Place (κ : Type)
  | idle
  | allocating (request : Request κ)
  | creating (request : Request κ) (moduleId requestSeq : ℤ)
  | registering (request : Request κ) (moduleId requestSeq : ℤ)
  | installing (request : Request κ) (moduleId requestSeq : ℤ)
  | executing (request : Request κ) (moduleId requestSeq : ℤ)
  | retiring (request : Request κ) (moduleId requestSeq : ℤ) (code : Code)
  deriving DecidableEq, Repr

/-- `answer` is what `request_handler` was told of the request whose context is in this memory,
`number` the number of that request. -/
structure State (τ κ : Type) where
  dispatch : Dispatch τ (Request κ) ℕ
  receiver : Receiver κ
  place : Place κ
  answer : κ → Option Code
  number : κ → ℕ
  count : ℕ
  tasks : List (Task κ)

inductive Action (κ : Type)
  /-- `running` is whether the worker still runs. -/
  | request (ctx : κ) (hasBody running : Bool)
  | tick (outcome : Outcome)
  | install (accepts allocated : Bool)
  | cleanup (ctx : κ)
  | beginDrain
  | finish
  deriving DecidableEq, Repr

variable {τ κ : Type} [DecidableEq κ]

namespace State

/-- A walk is given one link more than there are requests. -/
def fuel (s : State τ κ) : ℕ := s.receiver.requestSize + 1

/-- The upcall returns. -/
def returns (s : State τ κ) (ctx : κ) (code : Code) : State τ κ :=
  { s with place := .idle, answer := Function.update s.answer ctx (some code) }

/-- `request_handler` up to the upcall: the context is cleared. -/
def enter (s : State τ κ) (ctx : κ) : State τ κ :=
  { s with
    receiver := s.receiver.setCtx ctx ⟨0, 0, false, false⟩
    answer := Function.update s.answer ctx none
    number := Function.update s.number ctx s.count
    count := s.count + 1 }

variable [DecidableEq τ] (worker : τ)

/-- A call of the dispatcher, which throws or goes on. -/
def dispatched (s : State τ κ) (result : Dispatch τ (Request κ) ℕ × List (Event τ (Request κ) ℕ))
    (ctx : κ) (next : Place κ) : State τ κ :=
  let t := { s with dispatch := result.1 }
  if .threw ∈ result.2 then t.returns ctx .overloaded else { t with place := next }

/-- The entry that `register!` is called with. -/
def entry (request : Request κ) : Entry (Request κ) ℕ :=
  ⟨request, request.hasBody, some request.number⟩

/-- A step of `on-request`. -/
def tick (s : State τ κ) (outcome : Outcome) : Place κ → Option (State τ κ)
  | .allocating request =>
    let result := s.dispatch.allocateIdentity worker
    some (s.dispatched result request.ctx
      (.creating request s.dispatch.moduleId result.1.nextRequestSeq))
  -- the body channel, the request and the emitter
  | .creating request moduleId requestSeq =>
    if outcome = .returns then some { s with place := .registering request moduleId requestSeq }
    else some (s.returns request.ctx outcome.code)
  | .registering request moduleId requestSeq =>
    some (s.dispatched (s.dispatch.register worker moduleId requestSeq (entry request)) request.ctx
      (.installing request moduleId requestSeq))
  | .executing request moduleId requestSeq =>
    match outcome with
    | .returns => some
        { s.returns request.ctx .ok with tasks := s.tasks ++ [⟨request, moduleId, requestSeq⟩] }
    | .rejected => some { s with place := .retiring request moduleId requestSeq .shuttingDown }
    | outcome => some { s with place := .retiring request moduleId requestSeq outcome.code }
  | .retiring request moduleId requestSeq code =>
    some ({ s with dispatch := (s.dispatch.retire worker moduleId requestSeq).1 }.returns
      request.ctx code)
  | _ => none

/-- `cleanup_request` with the upcall of `on-request-cleanup`. -/
def cleanup (s : State τ κ) (ctx : κ) : Option (State τ κ) := do
  let moduleId := (s.receiver.ctx ctx).dispatchModuleId
  let requestSeq := (s.receiver.ctx ctx).dispatchRequestSeq
  let receiver ← cleanupRequest s.fuel s.receiver ctx
  let dispatch := if moduleId = 0 ∨ requestSeq = 0 then s.dispatch
    else (s.dispatch.retire worker (long moduleId) (long requestSeq)).1
  return { s with receiver := receiver, dispatch := dispatch }

/-- `install-request-dispatch`; a zero is an exception. -/
def install (s : State τ κ) (request : Request κ) (moduleId requestSeq : ℤ)
    (accepts allocated : Bool) :
    Option (State τ κ) := do
  let (installed, receiver) ← installRequestDispatch s.fuel s.receiver request.ctx accepts
    (uint64 moduleId) (uint64 requestSeq) allocated
  return { s with
    receiver := receiver
    place := if installed then .executing request moduleId requestSeq
      else .retiring request moduleId requestSeq .overloaded }

end State

/-- Memory is given to a new request once the one before is cleaned up. -/
def step [DecidableEq τ] (worker : τ) (a : Action κ) (s : State τ κ) : Option (State τ κ) :=
  match a, s.place with
  | .request ctx hasBody running, .idle =>
    if !(s.receiver.ctx ctx).cleanup then none
    else if running then some { s.enter ctx with place := .allocating ⟨ctx, s.count, hasBody⟩ }
    else some ((s.enter ctx).returns ctx .shuttingDown)
  | .tick outcome, place => s.tick worker outcome place
  | .install accepts allocated, .installing request moduleId requestSeq =>
    s.install request moduleId requestSeq accepts allocated
  | .cleanup ctx, .idle => if (s.receiver.ctx ctx).cleanup then none else s.cleanup worker ctx
  | .beginDrain, _ => some { s with dispatch := s.dispatch.beginDrain.1 }
  | .finish, .idle => some { s with dispatch := s.dispatch.finish.1 }
  | _, _ => none

/-- A worker that has started. -/
def start [DecidableEq τ] (worker : τ) (moduleId : ℤ) : State τ κ where
  dispatch := ((create moduleId).dispatch.bindThread worker).1
  receiver := Receiver.create κ
  place := .idle
  answer _ := none
  number _ := 0
  count := 0
  tasks := []

def machine [DecidableEq τ] (worker : τ) (moduleId : ℤ) : Machine (State τ κ) (Action κ) where
  init s := s = start worker moduleId
  step := step worker

end Busker.Admission
