import Mathlib.Data.Fintype.Basic
import Mathlib.Tactic.Basic

/-! The shared state of an event-loop worker and the calls that other threads make
on it: `wake`, `send-msg`, `send-required-msg` and a stop request, one program
point for each atomic access. `ι` names the calling threads, `μ` the messages. -/

namespace Busker.Evloop

/-- Entries of the notifier queue, which all the workers share. -/
inductive Endpoint
  | own | other
  deriving DecidableEq, Repr

/-- The fields of a `Worker` and of its `WakeEndpoint` and `WakeNotifier`. The lock is
held by a calling thread or, as `some none`, by the worker. `spaceSignals` counts the
`signalAll` calls so far: a waiter may go on once it has changed. `offered` and
`handled` record what entered the mailbox and what the worker has handled. -/
structure Worker (ι μ : Type*) where
  running : Bool
  accepting : Bool
  stopRequested : Bool
  admissions : ℕ
  mailboxWaiters : ℕ
  mailboxLock : Option (Option ι)
  spaceSignals : ℕ
  mailboxSignal : ℕ
  wakeGeneration : ℕ
  sleepArmed : Bool
  mailbox : List μ
  pending : Bool
  endpointOpen : Bool
  receiver : Bool
  inFlight : ℕ
  queue : List Endpoint
  notifierAccepting : Bool
  notifierAdmissions : ℕ
  posted : Bool
  offered : List μ
  handled : List μ

def mailboxCapacity : ℕ := 256

/-- `Worker.wake` and inside it `request!`. -/
inductive Wake
  | running
  | increment
  | armed
  | accepting
  | endpointOpen
  | enter
  | acceptingAgain
  | openAgain
  | mark
  | offer
  | leave
  deriving DecidableEq

/-- `signal-mailbox-space!`. -/
inductive Space
  | check | lock | signal | unlock
  deriving DecidableEq

inductive Result
  | accepted | overloaded | closed | woken
  deriving DecidableEq, Repr

/-- Where a calling thread stands. `required` tells `send-required-msg` from
`send-msg`; `wake result` is a call of `wake` after which `result` is returned. -/
inductive Client (μ : Type*)
  | idle
  | running (required : Bool) (msg : μ)
  | accepting (required : Bool) (msg : μ)
  | enter (required : Bool) (msg : μ)
  | acceptingAgain (required : Bool) (msg : μ)
  | offer (required : Bool) (msg : μ)
  | leave (required : Bool) (msg : μ) (accepted : Bool)
  | signalRead
  | signalSwap (token : ℕ)
  | refusedRunning (required : Bool) (msg : μ)
  | refusedAccepting (required : Bool) (msg : μ)
  | awaitEnter (msg : μ)
  | awaitLock (msg : μ)
  | awaitRunning (msg : μ)
  | awaitAccepting (msg : μ)
  | awaitCapacity (msg : μ)
  | waiting (msg : μ) (signals : ℕ)
  | relock (msg : μ)
  | awaitUnlock (msg : μ)
  | awaitLeave (msg : μ)
  | stopSwap
  | stopSpace (point : Space)
  | stopSpin
  | stopSet
  | wake (result : Result) (point : Wake)
  | done (result : Result)
  deriving DecidableEq

/-- `spurious` is a return from `await` without a signal. -/
inductive ClientMove (μ : Type*)
  | tick
  | sendMsg (msg : μ)
  | sendRequiredMsg (msg : μ)
  | stop
  | wake
  | spurious

variable {ι μ : Type*}

/-- One step of `wake`; `none` when the call is over. -/
def wakeStep (w : Worker ι μ) : Wake → Worker ι μ × Option Wake
  | .running => (w, if w.running then some .increment else none)
  | .increment => ({ w with wakeGeneration := w.wakeGeneration + 1 }, some .armed)
  | .armed => (w, if w.sleepArmed then some .accepting else none)
  | .accepting => (w, if w.notifierAccepting then some .endpointOpen else none)
  | .endpointOpen => (w, if w.endpointOpen then some .enter else none)
  | .enter => ({ w with notifierAdmissions := w.notifierAdmissions + 1 }, some .acceptingAgain)
  | .acceptingAgain => (w, some (if w.notifierAccepting then .openAgain else .leave))
  | .openAgain => (w, some (if w.endpointOpen then .mark else .leave))
  | .mark => if w.pending then (w, some .leave) else ({ w with pending := true }, some .offer)
  | .offer => ({ w with queue := w.queue ++ [.own] }, some .leave)
  | .leave => ({ w with notifierAdmissions := w.notifierAdmissions - 1 }, none)

/-- One step of `signal-mailbox-space!` by `me`; the outer `none` while it is blocked. -/
def spaceStep (me : Option ι) (w : Worker ι μ) : Space → Option (Worker ι μ × Option Space)
  | .check => some (w, if 0 < w.mailboxWaiters then some .lock else none)
  | .lock =>
    match w.mailboxLock with
    | none => some ({ w with mailboxLock := some me }, some .signal)
    | some _ => none
  | .signal => some ({ w with spaceSignals := w.spaceSignals + 1 }, some .unlock)
  | .unlock => some ({ w with mailboxLock := none }, none)

/-- After `admit-message!` was refused with the worker still open: `send-msg` returns
`:overloaded`, `send-required-msg` waits for space. -/
def overloaded (required : Bool) (msg : μ) : Client μ :=
  if required then .awaitEnter msg else .done .overloaded

def lockStep (i : ι) (w : Worker ι μ) (next : Client μ) : Option (Worker ι μ × Client μ) :=
  match w.mailboxLock with
  | none => some ({ w with mailboxLock := some (some i) }, next)
  | some _ => none

/-- One atomic step of calling thread `i`. -/
def clientStep (i : ι) (w : Worker ι μ) : Client μ → ClientMove μ → Option (Worker ι μ × Client μ)
  | .idle, .sendMsg msg => some (w, .running false msg)
  | .idle, .sendRequiredMsg msg => some (w, .running true msg)
  | .idle, .stop => some (w, .stopSwap)
  | .idle, .wake => some (w, .wake .woken .running)
  | .running required msg, .tick =>
    some (w, if w.running then .accepting required msg else .done .closed)
  | .accepting required msg, .tick =>
    some (w, if w.accepting then .enter required msg else .done .closed)
  | .enter required msg, .tick =>
    some ({ w with admissions := w.admissions + 1 }, .acceptingAgain required msg)
  | .acceptingAgain required msg, .tick =>
    some (w, if w.accepting then .offer required msg else .leave required msg false)
  | .offer required msg, .tick =>
    if w.mailbox.length < mailboxCapacity then
      some ({ w with mailbox := w.mailbox ++ [msg], offered := w.offered ++ [msg] },
        .leave required msg true)
    else some (w, .leave required msg false)
  | .leave required msg accepted, .tick =>
    some ({ w with admissions := w.admissions - 1 },
      if accepted then .signalRead else .refusedRunning required msg)
  | .signalRead, .tick =>
    some (w, if w.mailboxSignal % 2 = 1 then .done .accepted else .signalSwap w.mailboxSignal)
  | .signalSwap token, .tick =>
    if w.mailboxSignal = token then
      some ({ w with mailboxSignal := token + 1 }, .wake .accepted .running)
    else some (w, .signalRead)
  | .refusedRunning required msg, .tick =>
    some (w, if w.running then .refusedAccepting required msg else .done .closed)
  | .refusedAccepting required msg, .tick =>
    some (w, if w.accepting then overloaded required msg else .done .closed)
  | .awaitEnter msg, .tick =>
    some ({ w with mailboxWaiters := w.mailboxWaiters + 1 }, .awaitLock msg)
  | .awaitLock msg, .tick => lockStep i w (.awaitRunning msg)
  | .awaitRunning msg, .tick =>
    some (w, if w.running then .awaitAccepting msg else .awaitUnlock msg)
  | .awaitAccepting msg, .tick =>
    some (w, if w.accepting then .awaitCapacity msg else .awaitUnlock msg)
  | .awaitCapacity msg, .tick =>
    if mailboxCapacity ≤ w.mailbox.length then
      some ({ w with mailboxLock := none }, .waiting msg w.spaceSignals)
    else some (w, .awaitUnlock msg)
  | .waiting msg signals, .tick =>
    if w.spaceSignals = signals then none else some (w, .relock msg)
  | .waiting msg _, .spurious => some (w, .relock msg)
  | .relock msg, .tick => lockStep i w (.awaitRunning msg)
  | .awaitUnlock msg, .tick => some ({ w with mailboxLock := none }, .awaitLeave msg)
  | .awaitLeave msg, .tick =>
    some ({ w with mailboxWaiters := w.mailboxWaiters - 1 }, .running true msg)
  | .stopSwap, .tick =>
    if w.accepting then some ({ w with accepting := false }, .stopSpace .check)
    else some (w, .done .closed)
  | .stopSpace point, .tick =>
    (spaceStep (some i) w point).map fun (v, next) => (v, next.elim .stopSpin .stopSpace)
  | .stopSpin, .tick => some (w, if w.admissions = 0 then .stopSet else .stopSpin)
  | .stopSet, .tick => some ({ w with stopRequested := true }, .wake .accepted .running)
  | .wake result point, .tick =>
    let (v, next) := wakeStep w point
    some (v, next.elim (.done result) (.wake result))
  | .done _, .tick => some (w, .idle)
  | _, _ => none

end Busker.Evloop
