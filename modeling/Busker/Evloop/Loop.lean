import Busker.Evloop.Mailbox
import Busker.Interleaving.Machine

/-! The worker thread, the notifier thread and the whole event-loop machine. -/

namespace Busker.Evloop

open Interleaving

/-- Where the worker stands in `run-evloop-on-thread!`. `seen` is `wake-seen` of the
current round, `requested` its `wake-requested` and `handled` what `drain-mailbox!`
is about to return. -/
inductive Loop (μ : Type*)
  | check (seen : ℕ)
  | poll (seen : ℕ) (handled : Bool)
  | handle (seen : ℕ) (msg : μ)
  | clearRead (seen : ℕ) (handled : Bool)
  | clearSwap (seen : ℕ) (handled : Bool) (token : ℕ)
  | pollAgain (seen : ℕ) (handled : Bool)
  | markRead (seen : ℕ) (msg : μ)
  | markSwap (seen : ℕ) (msg : μ) (token : ℕ)
  | readStop (seen : ℕ) (handled : Bool)
  | clearRunning (seen : ℕ) (handled : Bool)
  | space (seen : ℕ) (handled : Bool) (point : Space)
  | readGeneration (seen : ℕ) (handled : Bool)
  | checkAgain (seen : ℕ) (handled : Bool) (requested : ℕ)
  | turn (requested : ℕ)
  | arm (seen requested : ℕ)
  | recheckMailbox (seen requested : ℕ)
  | recheckGeneration (seen requested : ℕ)
  | disarm (seen : ℕ)
  | prepare (requested : ℕ)
  | native (requested : ℕ)
  | disarmAfter (requested : ℕ)
  | closeAccepting
  | exitSpace (point : Space)
  | exited
  deriving DecidableEq

/-- `run` leaves `loop-fn`; with `consume` the native loop took the posted wake.
`throw` is an exception in a handler or in `loop-fn`. -/
inductive LoopMove
  | tick
  | run (consume : Bool)
  | throw (interrupted : Bool)

variable {ι μ : Type*}

/-- `when handled? (signal-mailbox-space! worker)`, then return from the drain. -/
def afterDrain (seen : ℕ) (handled : Bool) : Loop μ :=
  if handled then .space seen handled .check else .readGeneration seen handled

def throwStep (w : Worker ι μ) (interrupted : Bool) : Worker ι μ :=
  { w with running := w.running && !interrupted }

/-- One atomic step of the worker thread. -/
def loopStep (w : Worker ι μ) : Loop μ → LoopMove → Option (Worker ι μ × Loop μ)
  | .check seen, .tick => some (w, if w.running then .poll seen false else .closeAccepting)
  | .poll seen handled, .tick =>
    match w.mailbox with
    | msg :: rest => some ({ w with mailbox := rest }, .handle seen msg)
    | [] => some (w, .clearRead seen handled)
  | .handle seen msg, .tick => some ({ w with handled := w.handled ++ [msg] }, .poll seen true)
  | .handle _ _, .throw interrupted => some (throwStep w interrupted, .closeAccepting)
  | .clearRead seen handled, .tick =>
    some (w, if w.mailboxSignal % 2 = 0 then .pollAgain seen handled
      else .clearSwap seen handled w.mailboxSignal)
  | .clearSwap seen handled token, .tick =>
    if w.mailboxSignal = token then
      some ({ w with mailboxSignal := token + 1 }, .pollAgain seen handled)
    else some (w, .clearRead seen handled)
  | .pollAgain seen handled, .tick =>
    match w.mailbox with
    | msg :: rest => some ({ w with mailbox := rest }, .markRead seen msg)
    | [] => some (w, .readStop seen handled)
  | .markRead seen msg, .tick =>
    some (w, if w.mailboxSignal % 2 = 1 then .handle seen msg
      else .markSwap seen msg w.mailboxSignal)
  | .markSwap seen msg token, .tick =>
    if w.mailboxSignal = token then
      some ({ w with mailboxSignal := token + 1 }, .handle seen msg)
    else some (w, .markRead seen msg)
  | .readStop seen handled, .tick =>
    some (w, if w.stopRequested then .clearRunning seen handled else afterDrain seen handled)
  | .clearRunning seen handled, .tick =>
    some ({ w with running := false }, afterDrain seen handled)
  | .space seen handled point, .tick =>
    (spaceStep none w point).map fun (v, next) =>
      (v, next.elim (.readGeneration seen handled) (.space seen handled))
  | .readGeneration seen handled, .tick => some (w, .checkAgain seen handled w.wakeGeneration)
  | .checkAgain seen handled requested, .tick =>
    some (w, if !w.running then .closeAccepting
      else if handled || requested != seen then .turn requested else .arm seen requested)
  | .turn requested, .run consume =>
    some ({ w with posted := w.posted && !consume }, .check requested)
  | .turn _, .throw interrupted => some (throwStep w interrupted, .closeAccepting)
  | .arm seen requested, .tick => some ({ w with sleepArmed := true }, .recheckMailbox seen requested)
  | .recheckMailbox seen requested, .tick =>
    some (w, if w.mailbox.isEmpty then .recheckGeneration seen requested else .disarm seen)
  | .recheckGeneration seen requested, .tick =>
    some (w, if w.wakeGeneration = requested then .prepare requested else .disarm seen)
  | .disarm seen, .tick => some ({ w with sleepArmed := false }, .check seen)
  | .prepare requested, .tick => some (w, .native requested)
  | .prepare _, .throw interrupted =>
    some ({ throwStep w interrupted with sleepArmed := false }, .closeAccepting)
  | .native requested, .run consume =>
    some ({ w with posted := w.posted && !consume }, .disarmAfter requested)
  | .native _, .throw interrupted =>
    some ({ throwStep w interrupted with sleepArmed := false }, .closeAccepting)
  | .disarmAfter requested, .tick => some ({ w with sleepArmed := false }, .check requested)
  | .closeAccepting, .tick => some ({ w with accepting := false }, .exitSpace .check)
  | .exitSpace point, .tick =>
    (spaceStep none w point).map fun (v, next) => (v, next.elim .exited .exitSpace)
  | _, _ => none

/-- Where the notifier thread stands in `wake-endpoint!` of this worker's endpoint. -/
inductive Notifier
  | poll
  | clear
  | enter
  | checkOpen
  | checkReceiver
  | wakeup
  | leave
  deriving DecidableEq

/-- One atomic step of the notifier thread. Wakes of other endpoints do not touch
this worker and are left out. -/
def notifierStep (w : Worker ι μ) : Notifier → Option (Worker ι μ × Notifier)
  | .poll =>
    match w.queue with
    | .own :: rest => some ({ w with queue := rest }, .clear)
    | .other :: rest => some ({ w with queue := rest }, .poll)
    | [] => none
  | .clear => some ({ w with pending := false }, .enter)
  | .enter => some ({ w with inFlight := w.inFlight + 1 }, .checkOpen)
  | .checkOpen => some (w, if w.endpointOpen then .checkReceiver else .leave)
  | .checkReceiver => some (w, if w.receiver then .wakeup else .leave)
  | .wakeup => some ({ w with posted := true }, .leave)
  | .leave => some ({ w with inFlight := w.inFlight - 1 }, .poll)

structure State (ι μ : Type*) where
  worker : Worker ι μ
  clients : ι → Client μ
  loop : Loop μ
  notifier : Notifier

/-- `requestOther` queues another worker's endpoint; the last three retire the
notifier, the endpoint and its receiver. -/
inductive Action (ι μ : Type*)
  | client (i : ι) (move : ClientMove μ)
  | loop (move : LoopMove)
  | notifier
  | requestOther
  | closeNotifier
  | closeEndpoint
  | retireReceiver

def step [DecidableEq ι] : Action ι μ → State ι μ → Option (State ι μ)
  | .client i move, s =>
    (clientStep i s.worker (s.clients i) move).map fun (w, p) =>
      { s with worker := w, clients := Function.update s.clients i p }
  | .loop move, s =>
    (loopStep s.worker s.loop move).map fun (w, l) => { s with worker := w, loop := l }
  | .notifier, s =>
    (notifierStep s.worker s.notifier).map fun (w, n) => { s with worker := w, notifier := n }
  | .requestOther, s =>
    some { s with worker := { s.worker with queue := s.worker.queue ++ [.other] } }
  | .closeNotifier, s => some { s with worker := { s.worker with notifierAccepting := false } }
  | .closeEndpoint, s => some { s with worker := { s.worker with endpointOpen := false } }
  | .retireReceiver, s => some { s with worker := { s.worker with receiver := false } }

/-- A worker as `start!` makes it. -/
def freshWorker (ι μ : Type*) : Worker ι μ where
  running := true
  accepting := true
  stopRequested := false
  admissions := 0
  mailboxWaiters := 0
  mailboxLock := none
  spaceSignals := 0
  mailboxSignal := 0
  wakeGeneration := 0
  sleepArmed := false
  mailbox := []
  pending := false
  endpointOpen := true
  receiver := true
  inFlight := 0
  queue := []
  notifierAccepting := true
  notifierAdmissions := 0
  posted := false
  offered := []
  handled := []

def freshState (ι μ : Type*) : State ι μ := ⟨freshWorker ι μ, fun _ => .idle, .check 0, .poll⟩

def machine (ι μ : Type*) [DecidableEq ι] : Machine (State ι μ) (Action ι μ) where
  init s := s = freshState ι μ
  step := step

end Busker.Evloop
