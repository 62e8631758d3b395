import Busker.Generation.Retirement
import Busker.ListenerPool.Pool
import Busker.Unwinding.Traces

/-! Starting a generation (`start!`): its stages, each of which acquires resources and can
throw, and what happens then. `cleanup-state_` holds the map the generation is stopped with
if a later stage throws. -/

namespace Busker.Generation

open Unwinding Program
open ListenerPool (Listener ListenerKey listenerKey)

/-- `tls` is whether the listener's `:tls` is a map, `http3` whether its `:http3?` is not
`false`. -/
structure ListenerConfig extends Listener where
  tls : Bool
  http3 : Bool
  deriving DecidableEq, Repr

/-- `http3-enabled?` -/
def ListenerConfig.http3Enabled (listener : ListenerConfig) : Bool := listener.tls && listener.http3

def ListenerConfig.key (listener : ListenerConfig) : ListenerKey := listenerKey listener.toListener

/-- The key of the UDP socket next to a listener. -/
def ListenerConfig.udpKey (listener : ListenerConfig) : ListenerKey :=
  listenerKey { listener.toListener with transport := some .udp }

/-- `claim-keys` -/
def claimKeys (listeners : List ListenerConfig) : List ListenerKey :=
  (listeners.flatMap fun listener =>
    listener.key :: if listener.http3Enabled then [listener.udpKey] else []).eraseDups

/-- `:session-tickets` of the configuration; `storage` is a `:persistence` of `:storage`. -/
structure SessionTickets where
  disabled : Bool
  storage : Bool
  deriving DecidableEq, Repr

/-- What `start!` is given: the parts of the configuration it reads and its options. `self`
is the identity of the generation's map. -/
structure Setup where
  self : ℕ
  listeners : List ListenerConfig
  nWorkers : ℕ
  tlsCallbackRequired : Bool
  sessionTickets : SessionTickets
  memoryTicketService : Bool
  bufferPool : Bool
  wakeNotifierOwned : Bool
  activateHttp3Transports : Bool
  deriving DecidableEq, Repr

/-- What starting acquires: what the generation owns, the workers, and the descriptors their
sockets are made of. The numbers are places in the vectors of listeners and of workers. -/
inductive Held
  | owned (resource : Resource)
  | listenerFd (listener worker : ℕ)
  | worker (worker : ℕ)
  deriving DecidableEq, Repr

def Held.claim (idx : ℕ) : Held := .owned (.listenerClaim idx)

/-- The calls that starting a generation makes. -/
inductive StartCall
  | acquire (held : Held)
  | release (held : Held)
  | dispatchHandler
  | buildTlsLookup
  | connLimitSetMax
  | configRegisterHost
  | createHandler
  | responseSlots
  | createCloseCallback
  | createAcceptCtx (listener worker : ℕ)
  | createAcceptCallback (listener worker : ℕ)
  | socketReadStart (listener worker : ℕ)
  | storageTicketStore
  | createKeyManager
  | attachNativeManager
  | setTickets (listener : ℕ)
  | ptlsSetTickets (listener : ℕ)
  | setQuicTag (listener : ℕ)
  | getHosts
  | activateTransport (claim : ℕ)
  deriving DecidableEq, Repr

inductive Failure
  | byCall (call : StartCall)
  | exInfo (message : String) (place : Option ℕ)
  | byStop (thrown : Thrown)
  deriving DecidableEq, Repr

/-- What each call answers within one `start!`; `refused` is a null pointer. -/
abbrev StartEnvironment := StartCall → Answer

inductive Event
  | acquired (held : Held)
  | released (held : Held)
  deriving DecidableEq, Repr

structure StartState where
  log : List Event
  cleanup : Option GenerationState
  deriving DecidableEq, Repr

abbrev Start := Program StartState Failure

def StartState.note (s : StartState) (events : List Event) : StartState :=
  { s with log := s.log ++ events }

def StartState.fresh : StartState := ⟨[], none⟩

section calls

variable (env : StartEnvironment)

def call (c : StartCall) : Start Unit := if env c = .threw then throw (.byCall c) else pure ()

/-- Acquire a resource whose pointer is not looked at. -/
def create (held : Held) : Start Unit :=
  if env (.acquire held) = .threw then throw (.byCall (.acquire held))
  else modify (·.note [.acquired held])

/-- Acquire a resource; whether its pointer is not null. -/
def acquire (held : Held) : Start Bool :=
  if env (.acquire held) = .threw then throw (.byCall (.acquire held))
  else if env (.acquire held) = .refused then pure false
  else do
    modify (·.note [.acquired held])
    pure true

/-- Acquire a resource; a null pointer is an error. -/
def acquireOr (held : Held) (failure : Failure) : Start Unit := do
  let some? ← acquire env held
  when (¬some?) (throw failure)

def release (held : Held) : Start Unit :=
  if env (.release held) = .threw then throw (.byCall (.release held))
  else modify (·.note [.released held])

/-- `attempt-core-unwind!`; the exception is only added to the suppressed ones. -/
def attemptCoreUnwind (held : Held) : Start Unit := tryCatch (release env held) fun _ => pure ()

/-- `listen/release!`, which a claim goes through once. -/
def releaseClaim (idx : ℕ) : Start Unit := do
  let s ← get
  when (.released (.claim idx) ∉ s.log) (release env (.claim idx))

/-- `release-listener-claims!` for the first `n` claims -/
def releaseListenerClaims (n : ℕ) : Start Unit := (List.range n).forM (releaseClaim env)

/-- A step of `acquire-listener-claims!`; if it fails, the claims before it are given back. -/
def acquireListenerClaim (idx : ℕ) : Start Unit :=
  tryCatch (create env (.claim idx)) fun t => do
    releaseListenerClaims env idx
    throw t

/-- `acquire-listener-claims!` -/
def acquireListenerClaims (n : ℕ) : Start Unit := (List.range n).forM (acquireListenerClaim env)

end calls

section stages

variable (g : Setup) (env : StartEnvironment)

/-- `init-tls-lookup-state` -/
def initTlsLookupState : Start Unit := when g.tlsCallbackRequired (call env .buildTlsLookup)

/-- The receivers of the workers, `false` for a null pointer. -/
structure Receivers where
  wakeup : List Bool
  response : List Bool
  deriving DecidableEq, Repr

/-- What `init-core-state` has acquired when it looks at its receivers. -/
def coreResources (receivers : Receivers) : List Held :=
  [.owned .arena, .owned .configPtr] ++ (List.range g.nWorkers).map (.owned ∘ .loop) ++
    (List.range g.nWorkers).map (.owned ∘ .context) ++
    (places receivers.wakeup).map (.owned ∘ .wakeupReceiver) ++
    (places receivers.response).map (.owned ∘ .responseReceiver)

/-- `unwind-core-state!` -/
def unwindCoreState (receivers : Receivers) : Start Unit := do
  (places receivers.response).reverse.forM fun idx =>
    attemptCoreUnwind env (.owned (.responseReceiver idx))
  (places receivers.wakeup).reverse.forM fun idx =>
    attemptCoreUnwind env (.owned (.wakeupReceiver idx))
  (List.range g.nWorkers).reverse.forM fun idx => attemptCoreUnwind env (.owned (.context idx))
  (List.range g.nWorkers).reverse.forM fun idx => attemptCoreUnwind env (.owned (.loop idx))
  attemptCoreUnwind env (.owned .configPtr)
  attemptCoreUnwind env (.owned .arena)

/-- `create-contexts`, whose precondition wants a loop. -/
def createContexts : Start Unit := do
  when (g.nWorkers = 0) (throw (.exInfo "Assert failed: (seq loops)" none))
  (List.range g.nWorkers).forM fun idx => create env (.owned (.context idx))

def nullReceiver : Failure := .exInfo "Could not create native response receiver" none

/-- What `init-core-state` creates before it looks at its response receivers. -/
def createCore : Start Receivers := do
  create env (.owned .arena)
  call env .connLimitSetMax
  create env (.owned .configPtr)
  call env .configRegisterHost
  call env .createHandler
  (List.range g.nWorkers).forM fun idx => create env (.owned (.loop idx))
  createContexts g env
  let wakeup ← (List.range g.nWorkers).mapM fun idx => acquire env (.owned (.wakeupReceiver idx))
  let response ← (List.range g.nWorkers).mapM fun idx => acquire env (.owned (.responseReceiver idx))
  pure ⟨wakeup, response⟩

/-- `init-core-state` -/
def initCoreState : Start Receivers := do
  let receivers ← createCore g env
  when (false ∈ receivers.response) do
    unwindCoreState g env receivers
    throw nullReceiver
  call env .responseSlots
  call env .createCloseCallback
  pure receivers

/-- `create-ssl-context` -/
def createSslContext (idx : ℕ) (listener : ListenerConfig) : Start Unit :=
  when listener.tls (acquireOr env (.owned (.sslCtx idx))
    (.exInfo "Failed to create SSL_CTX (check OpenSSL errors in stderr)" none))

/-- `init-single-listener-state` -/
def initSingleListenerState (idx : ℕ) (listener : ListenerConfig) : Start Unit := do
  createSslContext env idx listener
  when (listener.key ∉ claimKeys g.listeners) (throw (.exInfo "Missing TCP listener claim" none))
  (List.range g.nWorkers).forM fun worker => create env (.listenerFd idx worker)
  (List.range g.nWorkers).forM fun worker => do
    call env (.createAcceptCtx idx worker)
    call env (.createAcceptCallback idx worker)
    create env (.owned (.socket idx worker))
    call env (.socketReadStart idx worker)

/-- `init-listener-state` -/
def initListenerState : Start Unit :=
  g.listeners.zipIdx.forM fun (listener, idx) => initSingleListenerState g env idx listener

/-- Whether the generation has a native ticket manager. -/
def Setup.issuesTickets (g : Setup) : Bool :=
  g.listeners.any ListenerConfig.tls && !g.sessionTickets.disabled

def nullQuicly (idx : ℕ) : Failure := .exInfo "Failed to create quicly context for HTTP/3" (some idx)

/-- `create-http3-contexts` for one listener -/
def createHttp3Context (idx : ℕ) : Start Unit := do
  acquireOr env (.owned (.ptlsCtx idx)) (.exInfo "Failed to create ptls context for HTTP/3" (some idx))
  when g.issuesTickets do
    create env (.owned (.encryptTicket idx))
    call env (.ptlsSetTickets idx)
  let quicly ← acquire env (.owned (.quiclyCtx idx))
  when (¬quicly) do
    release env (.owned (.ptlsCtx idx))
    throw (nullQuicly idx)
  when g.issuesTickets (call env (.setQuicTag idx))

/-- `create-http3-contexts` -/
def createHttp3Contexts : Start Unit :=
  g.listeners.zipIdx.forM fun (listener, idx) => when listener.http3Enabled (createHttp3Context g env idx)

/-- `create-http3-worker-contexts` -/
def createHttp3WorkerContexts : Start Unit := do
  call env .getHosts
  (List.range g.nWorkers).forM fun worker =>
    g.listeners.zipIdx.forM fun (listener, idx) => when listener.http3Enabled do
      when (listener.udpKey ∉ claimKeys g.listeners)
        (throw (.exInfo "Missing UDP listener claim" none))
      acquireOr env (.owned (.http3Context idx worker))
        (.exInfo "Failed to create HTTP/3 worker context" (some idx))

/-- The key manager; one that is attached to a shared service is only started with
`register-shared-ticket-manager!`. -/
def startKeyManager : Start Unit :=
  when (g.sessionTickets.storage ∨ ¬g.memoryTicketService) do
    call env .createKeyManager
    create env (.owned .keyManager)
    call env .attachNativeManager

/-- `init-tls-http3-state` -/
def initTlsHttp3State : Start Unit := do
  when g.issuesTickets do
    when g.sessionTickets.storage (call env .storageTicketStore)
    create env (.owned .nativeTicketMgr)
    startKeyManager g env
    g.listeners.zipIdx.forM fun (listener, idx) => when listener.tls (call env (.setTickets idx))
  createHttp3Contexts g env
  createHttp3WorkerContexts g env

/-- `init-worker-state` -/
def initWorkerState : Start Unit :=
  (List.range g.nWorkers).forM fun worker => do
    create env (.owned (.callbackDispatch worker))
    create env (.worker worker)

/-- `activate-http3-transports!` -/
def activateHttp3Transports : Start Unit :=
  (claimKeys g.listeners).zipIdx.forM fun (key, idx) =>
    when (isUdp key) (call env (.activateTransport idx))
where
  isUdp : ListenerKey → Bool
    | .unix transport _ => transport == .udp
    | .inet transport _ _ => transport == .udp

/-- The map `stop!` is given if a stage throws: the base state, with or without the
notifier and the executors. -/
def cleanupState (executors : Bool) : GenerationState where
  self := g.self
  handlerPtr := false
  keyManager := false
  executor := executors
  workers := []
  wakeupReceivers := []
  responseReceivers := []
  wakeNotifier := executors
  wakeNotifierOwned := if executors then some g.wakeNotifierOwned else none
  closeCallbackExecutor := executors
  http3Contexts := []
  nativeTicketMgr := false
  loops := 0
  contexts := 0
  http3WorkerContexts := []
  configPtr := false
  sslCtxPtrs := []
  bufferPool := g.bufferPool
  listenerClaims := (claimKeys g.listeners).length
  arena := false

/-- The generation that `start!` returns. -/
def startedState (receivers : Receivers) : GenerationState where
  self := g.self
  handlerPtr := true
  keyManager := g.issuesTickets
  executor := true
  workers := List.range g.nWorkers
  wakeupReceivers := receivers.wakeup
  responseReceivers := receivers.response
  wakeNotifier := true
  wakeNotifierOwned := some g.wakeNotifierOwned
  closeCallbackExecutor := true
  http3Contexts := g.listeners.map fun listener =>
    ⟨listener.http3Enabled, listener.http3Enabled, listener.http3Enabled && g.issuesTickets⟩
  nativeTicketMgr := g.issuesTickets
  loops := g.nWorkers
  contexts := g.nWorkers
  http3WorkerContexts := List.replicate g.nWorkers (g.listeners.map ListenerConfig.http3Enabled)
  configPtr := true
  sslCtxPtrs := g.listeners.map ListenerConfig.tls
  bufferPool := g.bufferPool
  listenerClaims := (claimKeys g.listeners).length
  arena := true

/-- The stages after the executors are there. -/
def stages : Start GenerationState := do
  initTlsLookupState g env
  let receivers ← initCoreState g env
  initListenerState g env
  initTlsHttp3State g env
  initWorkerState g env
  when g.activateHttp3Transports (activateHttp3Transports g env)
  pure (startedState g receivers)

def setCleanup (state : GenerationState) : Start Unit :=
  modify fun s => { s with cleanup := some state }

/-- What `start!` tries. -/
def attemptStart : Start GenerationState := do
  call env .dispatchHandler
  setCleanup (cleanupState g false)
  create env (.owned .executor)
  create env (.owned .closeCallbackExecutor)
  setCleanup (cleanupState g true)
  stages g env

variable (stopEnv : Environment)

/-- `stop!` of a generation that did not start, within `start!`. -/
def stopUnstarted (state : GenerationState) : Start Unit := do
  let ended := outcome (stop state stopEnv) ⟨.running, [], []⟩
  modify (·.note (ended.2.released.reverse.map fun resource => .released (.owned resource)))
  match ended.1 with
  | .ok _ => pure ()
  | .error thrown => throw (.byStop thrown)

/-- The handler of `start!`; the exception it was called with is thrown again. -/
def unwindStart (t : Failure) : Start GenerationState := do
  let s ← get
  let n := (claimKeys g.listeners).length
  tryCatch
    (match s.cleanup with
      | some state => stopUnstarted stopEnv state
      | none => releaseListenerClaims env n)
    fun _ => releaseListenerClaims env n
  throw t

/-- `start!` with the options -/
def start : Start GenerationState := do
  acquireListenerClaims env (claimKeys g.listeners).length
  tryCatch (attemptStart g env) (unwindStart g env stopEnv)

end stages

end Busker.Generation
