import Busker.Interleaving.Machine
import Mathlib.Logic.Function.Basic

/-! The notifier thread that delivers native wakes (`ol.busker.wake-notifier`), the
callers that request wakes, quiesce endpoints and stop the notifier, and the retirement
of a receiver (`retire-current-wakeup-receiver!`), one program point for each atomic
access. `ι` names the calling threads and `ε` the endpoints. -/

namespace Busker.WakeNotifier

open Interleaving

inductive Phase
  | opened | quiescing | closed
  deriving DecidableEq, Repr

/-- A `WakeEndpoint`. `receiver` tells whether `receiver_` still refers to one. -/
structure WakeEndpoint where
  pending : Bool
  receiver : Bool
  state : Phase
  inFlight : ℕ
  deriving DecidableEq, Repr

/-- `wake-endpoint!` inside `run-notifier!`. `again` is the second attempt of a native
call that failed, `waking` is inside that call. -/
inductive Loop (ε : Type*)
  | accepting
  | isEmpty
  | poll
  | clear (e : ε)
  | enter (e : ε)
  | state (e : ε)
  | receiver (e : ε)
  | wakeup (e : ε) (again : Bool)
  | waking (e : ε) (again : Bool)
  | leave (e : ε)
  | terminated
  deriving DecidableEq, Repr

/-- The result of `request!`. A granted request has the number of wakes of its endpoint
that had begun when it found the endpoint pending or made it so. -/
inductive Outcome
  | granted (wakes : ℕ)
  | refused
  | rejected
  deriving DecidableEq, Repr

inductive Caller (ε : Type*)
  | idle
  | accepting (e : ε)
  | openFirst (e : ε)
  | enter (e : ε)
  | acceptingAgain (e : ε)
  | openAgain (e : ε)
  | mark (e : ε)
  | offer (e : ε) (wakes : ℕ)
  | unmark (e : ε)
  | leave (e : ε) (outcome : Outcome)
  | quiesceSwap (e : ε) (retire : Bool)
  | quiesceSpin (e : ε) (retire : Bool)
  | quiesceSet (e : ε) (retire : Bool)
  | destroyReceiver (e : ε)
  | clearReceiver (e : ε)
  | stopSet
  | stopSpin
  | stopInterrupt
  | stopJoin
  deriving DecidableEq, Repr

inductive Move (ε : Type*)
  | request (e : ε)
  | quiesce (e : ε)
  | retire (e : ε)
  | stop
  | tick
  deriving DecidableEq, Repr

/-- The notifier and its endpoints. `wakes` counts the native wakes that have begun,
`granted` records the requests that returned `true`, `destroyed` the receivers that
`mt-destroy-wakeup-receiver` has freed. -/
structure Shared (ε : Type*) where
  queue : List ε
  accepting : Bool
  admissions : ℕ
  interrupted : Bool
  endpoint : ε → WakeEndpoint
  wakes : ε → ℕ
  granted : List (ε × ℕ)
  destroyed : ε → Bool

/-- The capacity of a `LinkedBlockingQueue` without a bound of its own. -/
def queueCapacity : ℕ := 0x7fffffff

variable {ι ε : Type*} [DecidableEq ε]

namespace Shared

def setEndpoint (s : Shared ε) (e : ε) (endpoint : WakeEndpoint) : Shared ε :=
  { s with endpoint := Function.update s.endpoint e endpoint }

def setPending (s : Shared ε) (e : ε) (pending : Bool) : Shared ε :=
  s.setEndpoint e { s.endpoint e with pending := pending }

def setState (s : Shared ε) (e : ε) (state : Phase) : Shared ε :=
  s.setEndpoint e { s.endpoint e with state := state }

def setInFlight (s : Shared ε) (e : ε) (inFlight : ℕ) : Shared ε :=
  s.setEndpoint e { s.endpoint e with inFlight := inFlight }

def setReceiver (s : Shared ε) (e : ε) (receiver : Bool) : Shared ε :=
  s.setEndpoint e { s.endpoint e with receiver := receiver }

def isOpen (s : Shared ε) (e : ε) : Bool := (s.endpoint e).state == .opened

section fields

variable (s : Shared ε) (e e' : ε)

@[simp] theorem setPending_pending (b : Bool) :
    ((s.setPending e b).endpoint e').pending = if e' = e then b else (s.endpoint e').pending := by
  by_cases h : e' = e <;> simp [setPending, setEndpoint, h]

@[simp] theorem setPending_receiver (b : Bool) :
    ((s.setPending e b).endpoint e').receiver = (s.endpoint e').receiver := by
  by_cases h : e' = e <;> simp [setPending, setEndpoint, h]

@[simp] theorem setPending_state (b : Bool) :
    ((s.setPending e b).endpoint e').state = (s.endpoint e').state := by
  by_cases h : e' = e <;> simp [setPending, setEndpoint, h]

@[simp] theorem setPending_inFlight (b : Bool) :
    ((s.setPending e b).endpoint e').inFlight = (s.endpoint e').inFlight := by
  by_cases h : e' = e <;> simp [setPending, setEndpoint, h]

@[simp] theorem setState_pending (p : Phase) :
    ((s.setState e p).endpoint e').pending = (s.endpoint e').pending := by
  by_cases h : e' = e <;> simp [setState, setEndpoint, h]

@[simp] theorem setState_receiver (p : Phase) :
    ((s.setState e p).endpoint e').receiver = (s.endpoint e').receiver := by
  by_cases h : e' = e <;> simp [setState, setEndpoint, h]

@[simp] theorem setState_state (p : Phase) :
    ((s.setState e p).endpoint e').state = if e' = e then p else (s.endpoint e').state := by
  by_cases h : e' = e <;> simp [setState, setEndpoint, h]

@[simp] theorem setState_inFlight (p : Phase) :
    ((s.setState e p).endpoint e').inFlight = (s.endpoint e').inFlight := by
  by_cases h : e' = e <;> simp [setState, setEndpoint, h]

@[simp] theorem setInFlight_pending (n : ℕ) :
    ((s.setInFlight e n).endpoint e').pending = (s.endpoint e').pending := by
  by_cases h : e' = e <;> simp [setInFlight, setEndpoint, h]

@[simp] theorem setInFlight_receiver (n : ℕ) :
    ((s.setInFlight e n).endpoint e').receiver = (s.endpoint e').receiver := by
  by_cases h : e' = e <;> simp [setInFlight, setEndpoint, h]

@[simp] theorem setInFlight_state (n : ℕ) :
    ((s.setInFlight e n).endpoint e').state = (s.endpoint e').state := by
  by_cases h : e' = e <;> simp [setInFlight, setEndpoint, h]

@[simp] theorem setInFlight_inFlight (n : ℕ) :
    ((s.setInFlight e n).endpoint e').inFlight = if e' = e then n else (s.endpoint e').inFlight := by
  by_cases h : e' = e <;> simp [setInFlight, setEndpoint, h]

@[simp] theorem setReceiver_pending (b : Bool) :
    ((s.setReceiver e b).endpoint e').pending = (s.endpoint e').pending := by
  by_cases h : e' = e <;> simp [setReceiver, setEndpoint, h]

@[simp] theorem setReceiver_receiver (b : Bool) :
    ((s.setReceiver e b).endpoint e').receiver = if e' = e then b else (s.endpoint e').receiver := by
  by_cases h : e' = e <;> simp [setReceiver, setEndpoint, h]

@[simp] theorem setReceiver_state (b : Bool) :
    ((s.setReceiver e b).endpoint e').state = (s.endpoint e').state := by
  by_cases h : e' = e <;> simp [setReceiver, setEndpoint, h]

@[simp] theorem setReceiver_inFlight (b : Bool) :
    ((s.setReceiver e b).endpoint e').inFlight = (s.endpoint e').inFlight := by
  by_cases h : e' = e <;> simp [setReceiver, setEndpoint, h]

end fields

/-- A native wake begins. -/
def beginWake (s : Shared ε) (e : ε) : Shared ε :=
  { s with wakes := Function.update s.wakes e (s.wakes e + 1) }

end Shared

/-- `poll`: an interrupt comes first, an empty queue times out. -/
def poll (s : Shared ε) : Shared ε × Loop ε :=
  if s.interrupted then ({ s with interrupted := false }, .accepting)
  else
    match s.queue with
    | e :: rest => ({ s with queue := rest }, .clear e)
    | [] => (s, .accepting)

/-- One step of the notifier thread; `fails` is a native wake that throws. -/
def loopStep (s : Shared ε) (fails : Bool) : Loop ε → Option (Shared ε × Loop ε)
  | .accepting => some (s, if s.accepting then .poll else .isEmpty)
  | .isEmpty => some (s, if s.queue.isEmpty then .terminated else .poll)
  | .poll => some (poll s)
  | .clear e => some (s.setPending e false, .enter e)
  | .enter e => some (s.setInFlight e ((s.endpoint e).inFlight + 1), .state e)
  | .state e => some (s, if s.isOpen e then .receiver e else .leave e)
  | .receiver e => some (s, if (s.endpoint e).receiver then .wakeup e false else .leave e)
  | .wakeup e again => some (s.beginWake e, .waking e again)
  | .waking e again => some (s, if fails && !again then .wakeup e true else .leave e)
  | .leave e => some (s.setInFlight e ((s.endpoint e).inFlight - 1), .accepting)
  | .terminated => none

/-- The compare-and-set of `pending?_`. -/
def mark (s : Shared ε) (e : ε) : Shared ε × Caller ε :=
  if (s.endpoint e).pending then (s, .leave e (.granted (s.wakes e)))
  else (s.setPending e true, .offer e (s.wakes e))

def offer (s : Shared ε) (e : ε) (wakes : ℕ) : Shared ε × Caller ε :=
  if s.queue.length < queueCapacity then
    ({ s with queue := s.queue ++ [e] }, .leave e (.granted wakes))
  else (s, .unmark e)

/-- The end of `request!`, whose answer is recorded. -/
def leave (s : Shared ε) (e : ε) : Outcome → Shared ε
  | .granted wakes => { s with admissions := s.admissions - 1, granted := s.granted ++ [(e, wakes)] }
  | .refused => { s with admissions := s.admissions - 1 }
  | .rejected => { s with admissions := s.admissions - 1 }

def quiesceSwap (s : Shared ε) (e : ε) : Shared ε :=
  if s.isOpen e then s.setState e .quiescing else s

/-- One step of a calling thread. -/
def callerStep (s : Shared ε) : Caller ε → Move ε → Option (Shared ε × Caller ε)
  | .idle, .request e => some (s, .accepting e)
  | .idle, .quiesce e => some (s, .quiesceSwap e false)
  | .idle, .retire e => some (s, .quiesceSwap e true)
  | .idle, .stop => some (s, .stopSet)
  | .accepting e, .tick => some (s, if s.accepting then .openFirst e else .idle)
  | .openFirst e, .tick => some (s, if s.isOpen e then .enter e else .idle)
  | .enter e, .tick => some ({ s with admissions := s.admissions + 1 }, .acceptingAgain e)
  | .acceptingAgain e, .tick => some (s, if s.accepting then .openAgain e else .leave e .refused)
  | .openAgain e, .tick => some (s, if s.isOpen e then .mark e else .leave e .refused)
  | .mark e, .tick => some (mark s e)
  | .offer e wakes, .tick => some (offer s e wakes)
  | .unmark e, .tick => some (s.setPending e false, .leave e .rejected)
  | .leave e outcome, .tick => some (leave s e outcome, .idle)
  | .quiesceSwap e retire, .tick => some (quiesceSwap s e, .quiesceSpin e retire)
  | .quiesceSpin e retire, .tick =>
    some (s, if 0 < (s.endpoint e).inFlight then .quiesceSpin e retire else .quiesceSet e retire)
  | .quiesceSet e retire, .tick =>
    some (s.setState e .closed, if retire then .destroyReceiver e else .idle)
  | .destroyReceiver e, .tick =>
    some (if (s.endpoint e).receiver then { s with destroyed := Function.update s.destroyed e true }
      else s, .clearReceiver e)
  | .clearReceiver e, .tick =>
    some (s.setReceiver e false, .idle)
  | .stopSet, .tick => some ({ s with accepting := false }, .stopSpin)
  | .stopSpin, .tick => some (s, if 0 < s.admissions then .stopSpin else .stopInterrupt)
  | .stopInterrupt, .tick => some ({ s with interrupted := true }, .stopJoin)
  -- join gives up after ten seconds
  | .stopJoin, .tick => some (s, .idle)
  | _, _ => none

structure State (ι ε : Type*) where
  shared : Shared ε
  loop : Loop ε
  callers : ι → Caller ε

inductive Label (ι ε : Type*)
  | notifier (fails : Bool)
  | caller (i : ι) (move : Move ε)
  deriving DecidableEq, Repr

variable [DecidableEq ι]

def stepFn (a : Label ι ε) (s : State ι ε) : Option (State ι ε) :=
  match a with
  | .notifier fails =>
    (loopStep s.shared fails s.loop).map fun next => { s with shared := next.1, loop := next.2 }
  | .caller i move =>
    (callerStep s.shared (s.callers i) move).map fun next =>
      { s with shared := next.1, callers := Function.update s.callers i next.2 }

def openEndpoint : WakeEndpoint := ⟨false, true, .opened, 0⟩

/-- `start!` and endpoints with receivers. -/
def start : State ι ε where
  shared := ⟨[], true, 0, false, fun _ => openEndpoint, fun _ => 0, [], fun _ => false⟩
  loop := .accepting
  callers _ := .idle

def machine : Machine (State ι ε) (Label ι ε) where
  init s := s = start
  step := stepFn

variable {a : Label ι ε} {s t : State ι ε}

/-- A step is one of the notifier thread or one of a calling thread. -/
theorem stepFn_cases (moves : stepFn a s = some t) :
    (∃ fails u l, a = .notifier fails ∧ loopStep s.shared fails s.loop = some (u, l) ∧
      t = { s with shared := u, loop := l }) ∨
    ∃ i move u c, a = .caller i move ∧ callerStep s.shared (s.callers i) move = some (u, c) ∧
      t = { s with shared := u, callers := Function.update s.callers i c } := by
  cases a with
  | notifier fails =>
    obtain ⟨⟨u, l⟩, moved, rfl⟩ := Option.map_eq_some_iff.mp moves
    exact .inl ⟨fails, u, l, rfl, moved, rfl⟩
  | caller i move =>
    obtain ⟨⟨u, c⟩, moved, rfl⟩ := Option.map_eq_some_iff.mp moves
    exact .inr ⟨i, move, u, c, rfl, moved, rfl⟩

end Busker.WakeNotifier
