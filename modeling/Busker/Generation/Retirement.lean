import Busker.Unwinding.Program

/-! Stopping a generation (`begin-stop!` and `stop!`): requests drain, the wake receivers
retire, the workers are joined and what the generation owns is released. Every call it
makes can throw; a generation whose workers could not be joined is kept in
`failed-retirements_` to be stopped again. What a worker's thread holds it disposes of
itself, if no exception ends it before. Left out is the scratch arena of such a thread, which
it closes in a `finally`. -/

namespace Busker.Generation

open Unwinding Program

inductive Phase
  | running | stopping | retiring | retirementFailed | stopped
  deriving DecidableEq, Repr

/-- What a generation owns; the numbers are places in the generation's vectors. -/
inductive Resource
  | keyManager
  | executor
  | wakeupReceiver (idx : ℕ)
  | responseReceiver (idx : ℕ)
  | wakeNotifier
  | context (worker : ℕ)
  | socket (listener worker : ℕ)
  | http3Context (listener worker : ℕ)
  | callbackDispatch (worker : ℕ)
  | closeCallbackExecutor
  | quiclyCtx (idx : ℕ)
  | ptlsCtx (idx : ℕ)
  | encryptTicket (idx : ℕ)
  | nativeTicketMgr
  | loop (idx : ℕ)
  | configPtr
  | sslCtx (idx : ℕ)
  | bufferPool
  | listenerClaim (idx : ℕ)
  | arena
  deriving DecidableEq, Repr

/-- The calls that stopping a generation makes. `dispose` is made by a worker's thread: `done`
if the thread has disposed of the resource when it ends. -/
inductive Call
  | release (resource : Resource)
  | handlerSetShuttingDown
  | beginDrain (worker : ℕ)
  | wake (worker : ℕ)
  | awaitExecutor (again : Bool)
  | shutdownNowExecutor
  | retireWakeupReceiver (worker : ℕ)
  | join (worker : ℕ)
  | isAlive (worker : ℕ)
  | awaitCloseCallbacks (again : Bool)
  | shutdownNowCloseCallbacks
  | dispose (resource : Resource)
  deriving DecidableEq, Repr

/-- `refused` is `false`, or `:closed` where a worker is asked. A thread refuses to dispose of
what it had not got to when an exception ended it: `run-evloop-on-thread!` catches every one. -/
inductive Answer
  | done
  | refused
  | threw
  deriving DecidableEq, Repr

/-- What each call answers within one call of `stop!`. -/
abbrev Environment := Call → Answer

/-- The contexts of one HTTP/3 listener. -/
structure Http3Context where
  quiclyCtx : Bool
  ptlsCtx : Bool
  encryptTicket : Bool
  deriving DecidableEq, Repr

/-- The parts of its state map that stopping a generation and its workers read: what is
there, how many there are, which pointers are set. Each listener, of which `sslCtxPtrs` has the
pointer, has a socket in each context, and `http3WorkerContexts` has a row for each worker.
`self` is the map's identity. -/
structure GenerationState where
  self : ℕ
  handlerPtr : Bool
  keyManager : Bool
  executor : Bool
  workers : List ℕ
  wakeupReceivers : List Bool
  responseReceivers : List Bool
  wakeNotifier : Bool
  wakeNotifierOwned : Option Bool
  closeCallbackExecutor : Bool
  http3Contexts : List Http3Context
  nativeTicketMgr : Bool
  loops : ℕ
  contexts : ℕ
  http3WorkerContexts : List (List Bool)
  configPtr : Bool
  sslCtxPtrs : List Bool
  bufferPool : Bool
  listenerClaims : ℕ
  arena : Bool
  deriving DecidableEq, Repr

/-- The generation's phase, the process's `failed-retirements_`, and what of the
generation has been released. -/
structure StopState where
  phase : Phase
  failedRetirements : List ℕ
  released : List Resource
  deriving DecidableEq, Repr

inductive Thrown
  | byCall (call : Call)
  | exInfo (message : String) (workerId : Option ℕ)
  deriving DecidableEq, Repr

abbrev Stop := Program StopState Thrown

def StopState.record (call : Call) (s : StopState) : StopState :=
  match call with
  | .release resource => { s with released := resource :: s.released }
  | _ => s

/-- Make a call whose answer does not matter. -/
def perform (env : Environment) (call : Call) : Stop Unit :=
  if env call = .threw then throw (.byCall call) else modify (StopState.record call)

/-- Make a call that answers yes or no. -/
def ask (env : Environment) (call : Call) : Stop Bool :=
  if env call = .threw then throw (.byCall call) else pure (env call == .done)

def setPhase (phase : Phase) : Stop Unit := modify fun s => { s with phase := phase }

def retainFailedRetirement (g : GenerationState) : Stop Unit :=
  modify fun s =>
    { s with
      failedRetirements := s.failedRetirements ++ [g.self]
      phase := .retirementFailed }

def removeFailedRetirement (g : GenerationState) : Stop Unit :=
  modify fun s => { s with failedRetirements := s.failedRetirements.filter (· ≠ g.self) }

/-- The places at which a vector of pointers has one. -/
def places (pointers : List Bool) : List ℕ :=
  (List.range pointers.length).filter fun idx => pointers[idx]? = some true

def broadcastWake (g : GenerationState) (env : Environment) : Stop Unit :=
  g.workers.forM fun worker => perform env (.wake worker)

/-- The calls of `begin-stop!`. -/
def shutDown (g : GenerationState) (env : Environment) : Stop Unit := do
  when g.handlerPtr (perform env .handlerSetShuttingDown)
  when g.keyManager (perform env (.release .keyManager))
  g.workers.forM fun worker => perform env (.beginDrain worker)
  broadcastWake g env
  when g.executor (perform env (.release .executor))

/-- `begin-stop!` -/
def beginStop (g : GenerationState) (env : Environment) : Stop Unit := do
  let s ← get
  when (s.phase = .running) do
    shutDown g env
    setPhase .stopping

/-- The two waits for an executor that was shut down; what is left then is only reported. -/
def awaitTermination (env : Environment) (await : Bool → Call) (shutdownNow : Call) :
    Stop Unit := do
  let ended ← ask env (await false)
  when (¬ ended) do
    perform env shutdownNow
    let _ ← ask env (await true)

/-- `request-wakeup-receiver-retirement!` -/
def requestWakeupReceiverRetirement (env : Environment) (worker : ℕ) : Stop Unit := do
  let accepted ← ask env (.retireWakeupReceiver worker)
  when (¬ accepted) (throw (.exInfo "Worker stopped before wake receiver retirement" (some worker)))

/-- `stop!` in the phase `:stopping`, up to the phase `:retiring`. -/
def retireReceivers (g : GenerationState) (env : Environment) : Stop Unit := do
  when g.executor (awaitTermination env .awaitExecutor .shutdownNowExecutor)
  broadcastWake g env
  if g.workers ≠ [] then
    g.workers.forM (requestWakeupReceiverRetirement env)
  else
    (places g.wakeupReceivers).forM fun idx => perform env (.release (.wakeupReceiver idx))
    (places g.responseReceivers).forM fun idx => perform env (.release (.responseReceiver idx))

/-- Whether all workers have ended; no exception leaves it. -/
def joinAll (g : GenerationState) (env : Environment) : Stop Bool :=
  tryCatch (do
      g.workers.forM fun worker => perform env (.join worker)
      let alive ← g.workers.anyM fun worker => ask env (.isAlive worker)
      pure (!alive))
    fun _ => pure false

/-- `free-http3-contexts` -/
def freeHttp3Contexts (g : GenerationState) (env : Environment) : Stop Unit :=
  (List.range g.http3Contexts.length).forM fun idx => do
    when (idx ∈ places (g.http3Contexts.map Http3Context.quiclyCtx))
      (perform env (.release (.quiclyCtx idx)))
    when (idx ∈ places (g.http3Contexts.map Http3Context.ptlsCtx))
      (perform env (.release (.ptlsCtx idx)))

/-- `stop!` once the workers are joined. -/
def tearDown (g : GenerationState) (env : Environment) : Stop Unit := do
  when (g.wakeNotifierOwned ≠ some false ∧ g.wakeNotifier) (stopNotifier env)
  g.workers.forM fun worker => perform env (.release (.callbackDispatch worker))
  when g.closeCallbackExecutor do
    perform env (.release .closeCallbackExecutor)
    awaitTermination env .awaitCloseCallbacks .shutdownNowCloseCallbacks
  freeHttp3Contexts g env
  when g.nativeTicketMgr (perform env (.release .nativeTicketMgr))
  (List.range g.loops).forM fun idx => perform env (.release (.loop idx))
  when g.configPtr (perform env (.release .configPtr))
  (places g.sslCtxPtrs).forM fun idx => perform env (.release (.sslCtx idx))
  when g.bufferPool (perform env (.release .bufferPool))
  (List.range g.listenerClaims).forM fun idx => perform env (.release (.listenerClaim idx))
  when g.arena (perform env (.release .arena))
where
  stopNotifier (env : Environment) : Stop Unit := do
    let stopped ← ask env (.release .wakeNotifier)
    when (¬ stopped) (throw (.exInfo "Wake notifier did not stop" none))
    modify (StopState.record (.release .wakeNotifier))

/-- What the workers' threads hold: the receivers they retire, their contexts, the sockets and
the HTTP/3 contexts of the listeners. Without a worker `stop!` releases the receivers. -/
def threadResources (g : GenerationState) : List Resource :=
  (if g.workers ≠ [] then (places g.wakeupReceivers).map .wakeupReceiver ++
    (places g.responseReceivers).map .responseReceiver else []) ++
  ((List.range g.contexts).map .context ++
  (((List.range g.contexts).flatMap fun worker =>
    (List.range g.sslCtxPtrs.length).map fun listener => .socket listener worker) ++
  g.http3WorkerContexts.zipIdx.flatMap fun row =>
    (places row.1).map fun listener => .http3Context listener row.2))

/-- What the threads have disposed of when they have ended. -/
def threadsDisposed (g : GenerationState) (env : Environment) : List Resource :=
  if g.workers = [] then [] else (threadResources g).filter fun r => env (.dispose r) = .done

/-- The workers' threads have ended. -/
def noteThreads (g : GenerationState) (env : Environment) : Stop Unit :=
  modify fun s => { s with released := threadsDisposed g env ++ s.released }

/-- `stop!` from the join on. -/
def joinAndTearDown (g : GenerationState) (env : Environment) : Stop Unit := do
  let joined ← joinAll g env
  if joined then
    noteThreads g env
    tearDown g env
    removeFailedRetirement g
    setPhase .stopped
  else
    retainFailedRetirement g

/-- `stop!` -/
def stop (g : GenerationState) (env : Environment) : Stop Unit := do
  beginStop g env
  let s ← get
  when (s.phase ≠ .stopped) do
    when (s.phase = .stopping ∨ s.phase = .retirementFailed) do
      when (s.phase = .stopping) do
        retireReceivers g env
        setPhase .retiring
      joinAndTearDown g env

/-- A call on the generation: `begin-stop!` alone or `stop!`. -/
inductive Op
  | beginStop (env : Environment)
  | stop (env : Environment)

def Op.program (g : GenerationState) : Op → Stop Unit
  | .beginStop env => Generation.beginStop g env
  | .stop env => Generation.stop g env

/-- The state after calls made one after the other, which the `stop-lock` sees to. -/
def afterCalls (g : GenerationState) (ops : List Op) (s : StopState) : StopState :=
  ops.foldl (fun s op => (outcome (op.program g) s).2) s

end Busker.Generation
