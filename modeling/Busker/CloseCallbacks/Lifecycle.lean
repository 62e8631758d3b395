import Busker.Interleaving.Machine
import Mathlib.Data.List.Basic
import Mathlib.Logic.Function.Basic

/-! The lifecycle of a response emitter and its close callbacks (`on-close`, `close` and
`stop-emitter` of `ol.busker.response`), one program point for each atomic access. `ι`
names the calling threads and `κ` the callbacks. -/

namespace Busker.CloseCallbacks

open Interleaving

inductive Phase
  | opened | closing | closed
  deriving DecidableEq, Repr

/-- The value of `lifecycle_`. -/
structure Lifecycle (κ : Type*) where
  phase : Phase
  callbacks : List κ
  deriving DecidableEq, Repr

/-- Where the thread stands that runs a chained task; `reserved` before the task has been
handed to one. `inside` is in a callback; `delivered` has left the task and not yet the
`finally` around it. -/
inductive Runner (κ : Type*)
  | reserved
  | dispatched
  | running (rest : List κ)
  | inside (callback : κ) (rest : List κ)
  | delivered
  | finished
  deriving DecidableEq, Repr

/-- A chained task of `reserve-close-callbacks!`, which waits for the promise `previous`
and delivers `complete`. `ran` are the callbacks it has begun. -/
structure Task (κ : Type*) where
  callbacks : List κ
  previous : ℕ
  complete : ℕ
  runner : Runner κ
  ran : List κ
  deriving DecidableEq, Repr

/-- What follows the use of the lock: the end of `on-close`, or of a `close` that has
closed the writer, whose writer threw, or that found the writer stopped, or of
`stop-emitter`. -/
inductive Site
  | onClose | closed | closeThrew | alreadyStopped | stopEmitter
  deriving DecidableEq, Repr

/-- What `reserve-close-callbacks!` is called for: a callback registered too late, or
those of a `terminal!`. -/
inductive Batch (κ : Type*)
  | late (callback : κ)
  | final (site : Site) (callbacks : List κ)
  deriving DecidableEq, Repr

/-- Where a calling thread stands. `task` is the place of a task it has reserved. -/
inductive Caller (κ : Type*)
  | idle
  | registerLock (callback : κ)
  | registerRead (callback : κ)
  | registerPush (callback : κ) (lifecycle : Lifecycle κ)
  | closeStopped (writer : Bool)
  | beginLock (writer : Bool)
  | beginRead (writer : Bool)
  | beginSet (lifecycle : Lifecycle κ)
  | beginUnlock (writer claimed : Bool)
  | closeStream
  | closeAgain (writer : Bool)
  | stopWriter (created : Bool)
  | terminalLock (site : Site)
  | terminalRead (site : Site)
  | reserveRead (batch : Batch κ)
  | reserveSwap (batch : Batch κ) (previous : ℕ)
  | terminalSet (site : Site) (task : Option ℕ)
  | unlock (site : Site) (task : Option ℕ)
  | dispatch (site : Site) (task : ℕ)
  | fallback (site : Site) (task : ℕ)
  deriving DecidableEq, Repr

/-- `throws` is a `.close` of the stream, a `pi/stop` or a dispatcher that throws. -/
inductive Move (κ : Type*)
  | onClose (callback : κ)
  | close (writer : Bool)
  | stopEmitter (created : Bool)
  | tick
  | throws
  deriving DecidableEq, Repr

/-- The emitter. `tail` is the promise in `callback-tail_`; promises are named by their
place in the chain, `0` is the one that is delivered from the start. `registered` and
`started` record the callbacks in the order of their registration and of their runs,
`failed` those that threw; `closes` counts the calls of `close` that have returned `true`. -/
structure Emitter (ι κ : Type*) where
  lifecycle : Lifecycle κ
  lock : Option ι
  stopped : Bool
  tail : ℕ
  delivered : ℕ → Bool
  tasks : List (Task κ)
  registered : List κ
  started : List κ
  failed : List κ
  closes : ℕ

variable {ι κ : Type*}

namespace Emitter

variable (e : Emitter ι κ)

def setLifecycle (lifecycle : Lifecycle κ) : Emitter ι κ := { e with lifecycle := lifecycle }

/-- A callback is registered when it enters the vector, or the chain. -/
def register (callback : κ) : Emitter ι κ := { e with registered := e.registered ++ [callback] }

/-- The chain grows by a task. -/
def reserve (callbacks : List κ) (previous : ℕ) : Emitter ι κ :=
  { e with
    tail := e.tasks.length + 1
    tasks := e.tasks ++ [⟨callbacks, previous, e.tasks.length + 1, .reserved, []⟩] }

def setTask (k : ℕ) (task : Task κ) : Emitter ι κ := { e with tasks := e.tasks.set k task }

def deliver (promise : ℕ) : Emitter ι κ :=
  { e with delivered := Function.update e.delivered promise true }

/-- A thread is given the task. -/
def handOver (k : ℕ) : Emitter ι κ :=
  match e.tasks[k]? with
  | some task => e.setTask k { task with runner := .dispatched }
  | none => e

end Emitter

/-- The end of a call. -/
def leave (e : Emitter ι κ) : Site → Emitter ι κ × Caller κ
  | .closed => ({ e with closes := e.closes + 1 }, .idle)
  | .onClose | .closeThrew | .alreadyStopped | .stopEmitter => (e, .idle)

def acquire (i : ι) (e : Emitter ι κ) (next : Caller κ) : Option (Emitter ι κ × Caller κ) :=
  match e.lock with
  | none => some ({ e with lock := some i }, next)
  | some _ => none

/-- `terminal!` inside the lock. -/
def terminalRead (e : Emitter ι κ) (site : Site) : Caller κ :=
  if e.lifecycle.phase = .closed then .unlock site none
  else if e.lifecycle.callbacks.isEmpty then .terminalSet site none
  else .reserveRead (.final site e.lifecycle.callbacks)

/-- The compare-and-set of `callback-tail_`. -/
def reserveSwap (e : Emitter ι κ) (batch : Batch κ) (previous : ℕ) : Emitter ι κ × Caller κ :=
  if e.tail = previous then
    match batch with
    | .late callback =>
      ((e.reserve [callback] previous).register callback, .unlock .onClose (some e.tasks.length))
    | .final site callbacks =>
      (e.reserve callbacks previous, .terminalSet site (some e.tasks.length))
  else (e, .reserveRead batch)

/-- One step of calling thread `i`. -/
def callerStep (i : ι) (e : Emitter ι κ) : Caller κ → Move κ → Option (Emitter ι κ × Caller κ)
  | .idle, .onClose callback => some (e, .registerLock callback)
  | .idle, .close writer => some (e, .closeStopped writer)
  | .idle, .stopEmitter created => some (e, .stopWriter created)
  | .registerLock callback, .tick => acquire i e (.registerRead callback)
  | .registerRead callback, .tick =>
    some (e, if e.lifecycle.phase = .closed then .reserveRead (.late callback)
      else .registerPush callback e.lifecycle)
  | .registerPush callback lifecycle, .tick =>
    some ((e.setLifecycle { lifecycle with callbacks := lifecycle.callbacks ++ [callback] }).register callback,
      .unlock .onClose none)
  | .closeStopped writer, .tick =>
    some (e, if !writer || !e.stopped then .beginLock writer else .closeAgain writer)
  | .beginLock writer, .tick => acquire i e (.beginRead writer)
  | .beginRead writer, .tick =>
    some (e, if e.lifecycle.phase = .opened then .beginSet e.lifecycle else .beginUnlock writer false)
  | .beginSet lifecycle, .tick =>
    some (e.setLifecycle { lifecycle with phase := .closing }, .beginUnlock true true)
  | .beginUnlock writer claimed, .tick =>
    some ({ e with lock := none }, if claimed then .closeStream else .closeAgain writer)
  | .closeStream, .tick => some (e, .terminalLock .closed)
  | .closeStream, .throws => some (e, .terminalLock .closeThrew)
  | .closeAgain writer, .tick =>
    some (e, if writer && e.stopped then .terminalLock .alreadyStopped else .idle)
  | .stopWriter created, .tick =>
    some ({ e with stopped := e.stopped || created }, .terminalLock .stopEmitter)
  | .stopWriter _, .throws => some (e, .idle)
  | .terminalLock site, .tick => acquire i e (.terminalRead site)
  | .terminalRead site, .tick => some (e, terminalRead e site)
  | .reserveRead batch, .tick => some (e, .reserveSwap batch e.tail)
  | .reserveSwap batch previous, .tick => some (reserveSwap e batch previous)
  | .terminalSet site task, .tick => some (e.setLifecycle ⟨.closed, []⟩, .unlock site task)
  | .unlock site task, .tick =>
    match task with
    | some task => some ({ e with lock := none }, .dispatch site task)
    | none => some (leave { e with lock := none } site)
  | .dispatch site task, .tick => some (leave (e.handOver task) site)
  | .dispatch site task, .throws => some (e, .fallback site task)
  | .fallback site task, .tick => some (leave (e.handOver task) site)
  | _, _ => none

/-- One step of the thread that runs task `k`; `throws` is a callback that throws. -/
def runnerStep (e : Emitter ι κ) (k : ℕ) (throws : Bool) : Option (Emitter ι κ) :=
  match e.tasks[k]? with
  | none => none
  | some task =>
    match task.runner with
    | .reserved => none
    | .dispatched =>
      if e.delivered task.previous then some (e.setTask k { task with runner := .running task.callbacks })
      else none
    | .running (callback :: rest) =>
      some { e.setTask k { task with runner := .inside callback rest, ran := task.ran ++ [callback] } with
        started := e.started ++ [callback] }
    | .running [] => some ((e.setTask k { task with runner := .delivered }).deliver task.complete)
    | .inside callback rest =>
      some { e.setTask k { task with runner := .running rest } with
        failed := if throws then e.failed ++ [callback] else e.failed }
    | .delivered => some ((e.setTask k { task with runner := .finished }).deliver task.complete)
    | .finished => none

structure State (ι κ : Type*) where
  emitter : Emitter ι κ
  callers : ι → Caller κ

/-- `callback` is a step of the thread that runs a task, `stopWriter` the end of the
native response. -/
inductive Label (ι κ : Type*)
  | caller (i : ι) (move : Move κ)
  | callback (task : ℕ) (throws : Bool)
  | stopWriter
  deriving DecidableEq, Repr

variable [DecidableEq ι]

def stepFn (a : Label ι κ) (s : State ι κ) : Option (State ι κ) :=
  match a with
  | .caller i move =>
    (callerStep i s.emitter (s.callers i) move).map fun next =>
      ⟨next.1, Function.update s.callers i next.2⟩
  | .callback task throws => (runnerStep s.emitter task throws).map fun e => { s with emitter := e }
  | .stopWriter => some { s with emitter := { s.emitter with stopped := true } }

/-- `new-response-emitter`. -/
def newEmitter : State ι κ where
  emitter := ⟨⟨.opened, []⟩, none, false, 0, fun promise => promise == 0, [], [], [], [], 0⟩
  callers _ := .idle

def machine : Machine (State ι κ) (Label ι κ) where
  init s := s = newEmitter
  step := stepFn

end Busker.CloseCallbacks
