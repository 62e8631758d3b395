import Busker.Interleaving.Machine
import Mathlib.Logic.Function.Basic
import Mathlib.Data.Nat.Notation

/-! The server as one state machine: the lifecycle thread in `start!`, `reload!` and `stop!`,
one stage a step, beside the drain future of every generation that was replaced. A started
service is known by its number in the order of starts. Any call of a stage may throw, the stop
of a service among them. Left out are what a generation does inside (`Busker.Generation`), the
listener pool and the wake notifier but for its last join, the listener part of a reload plan,
the wrapping of exceptions, and interrupts of the lifecycle thread. -/

namespace Busker.Runtime

open Interleaving

/-- The services generations share. -/
inductive Kind
  | cert
  | ticket
  deriving DecidableEq

/-- `memory-ticket-policy` -/
structure TicketPolicy where
  lifetimeMs : ℕ
  maxKeys : ℕ
  deriving DecidableEq

structure CertRuntime (π : Type) where
  id : ℕ
  managedPlan : π

structure TicketService where
  id : ℕ
  policy : TicketPolicy

/-- What the configuration namespaces make of a user configuration: its normalized snapshot,
the managed plan of that, and the ticket policy when `memory-session-tickets?`. -/
structure Prepared (σ π : Type) where
  snapshot : σ
  managedPlan : Option π
  ticketPolicy : Option TicketPolicy

structure Generation (σ π : Type) where
  id : ℕ
  config : σ
  managedPlan : Option π
  certAutomation : Option (CertRuntime π)
  memoryTicketService : Option TicketService

inductive Phase
  | starting
  | running
  | stopping
  | stopped
  deriving DecidableEq

/-- `:busker/state`; before `start!` has returned there is none and the phase is `starting`. -/
structure Server (σ π : Type) where
  phase : Phase
  config : Option σ
  nextGenerationId : ℕ
  memoryTicketService : Option TicketService
  active : Option (Generation σ π)
  draining : List (Generation σ π)

/-- A service and whether it was there before. -/
structure Acquired (α : Type) where
  service : Option α
  reused : Bool

variable {σ π : Type}

def Generation.service (g : Generation σ π) : Kind → Option ℕ
  | .cert => g.certAutomation.map (·.id)
  | .ticket => g.memoryTicketService.map (·.id)

/-- `acquire-cert-automation!` -/
def acquireCertAutomation [DecidableEq π] (current : Option (CertRuntime π)) (managedPlan : Option π)
    (fresh : ℕ) : Acquired (CertRuntime π) :=
  match managedPlan, current with
  | none, _ => ⟨none, false⟩
  | some plan, some runtime =>
    if runtime.managedPlan = plan then ⟨some runtime, true⟩ else ⟨some ⟨fresh, plan⟩, false⟩
  | some plan, none => ⟨some ⟨fresh, plan⟩, false⟩

/-- `acquire-memory-ticket-service!` -/
def acquireMemoryTicketService (current : Option TicketService) (policy : Option TicketPolicy)
    (fresh : ℕ) : Acquired TicketService :=
  match policy, current with
  | none, _ => ⟨none, false⟩
  | some policy, some service =>
    if policy = service.policy then ⟨some service, true⟩ else ⟨some ⟨fresh, policy⟩, false⟩
  | some policy, none => ⟨some ⟨fresh, policy⟩, false⟩

namespace Server

/-- `current-generations` -/
def currentGenerations (server : Server σ π) : List (Generation σ π) :=
  server.active.toList ++ server.draining

/-- `cert-runtime-in-use?` and `ticket-service-in-use?` -/
def inUse (server : Server σ π) (kind : Kind) (id : ℕ) : Bool :=
  server.currentGenerations.any fun g => g.service kind == some id

/-- The locked part of `finalize-draining-generation!`, with the services it leaves to stop. -/
def finalizeDraining (server : Server σ π) (g : Generation σ π) :
    Server σ π × Option (CertRuntime π) × Option TicketService :=
  let next := { server with draining := server.draining.filter fun d => g.id != d.id }
  let ticket := g.memoryTicketService.filter fun t => !next.inUse .ticket t.id
  let last := ticket.any fun t => server.memoryTicketService.any fun s => t.id == s.id
  (if last then { next with memoryTicketService := none } else next,
    if server.phase = .running then g.certAutomation.filter fun c => !next.inUse .cert c.id else none,
    ticket)

/-- The state `reload!` publishes. -/
def publish (entry : Server σ π) (g : Generation σ π) : Server σ π where
  phase := .running
  config := some g.config
  nextGenerationId := entry.nextGenerationId + 1
  memoryTicketService := g.memoryTicketService
  active := some g
  draining := entry.draining

end Server

/-- Where `start!` or `reload!` stands on its way to a new generation. -/
inductive Stage (σ π : Type)
  | compile
  | acquireCert
  | acquireTickets (cert : Acquired (CertRuntime π))
  | startGeneration (cert : Acquired (CertRuntime π)) (ticket : Acquired TicketService)
  | unwindTickets (cert : Acquired (CertRuntime π)) (ticket : Acquired TicketService)
  | unwindCert (cert : Acquired (CertRuntime π))
  | activate (candidate : Generation σ π)
  | register (candidate : Generation σ π)
  | publish (candidate : Generation σ π)
  | beginDrain (candidate : Generation σ π)
  | addDraining
  | cleanupCert (candidate : Generation σ π)
  | cleanupTickets (candidate : Generation σ π)

/-- Where the lifecycle thread stands. `entry` is the state `reload!` has read, `generations`
those `stop!` has to see drained. `threw` is a `stop!` that failed, with the generations
whose certificate runtimes it leaves, `halted` one that failed on a certificate runtime, with
those after it. -/
inductive Lifecycle (σ π : Type)
  | idle
  | reload (entry : Server σ π) (config : Prepared σ π) (stage : Stage σ π)
  | awaiting (generations todo : List (Generation σ π)) (service : Option TicketService)
  | stopCerts (todo : List ℕ) (service : Option TicketService)
  | stopTickets (service : Option TicketService)
  | stopNotifier
  | finish
  | threw (generations : List (Generation σ π))
  | halted (todo : List ℕ)
  | closed

/-- Where the drain future of a generation stands; `ok` says whether `generation/stop!` returned.
A future that is done with `false` has a result, or an exception, that `await-drain!` throws. -/
inductive Finalizer (σ π : Type)
  | absent
  | draining (g : Generation σ π)
  | finalizing (g : Generation σ π) (ok : Bool)
  | stopping (cert : Option (CertRuntime π)) (ticket : Option TicketService) (ok : Bool)
  | done (ok : Bool)

/-- How the stop of a service ended: the call returned or threw, or an exception of another
stop came before it. -/
inductive Ending
  | returned
  | threw
  | skipped
  deriving DecidableEq

def Ending.of (ok : Bool) : Ending := if ok then .returned else .threw

/-- `ends` is history: the services that were to be stopped, in this order. -/
structure System (σ π : Type) where
  server : Server σ π
  lifecycle : Lifecycle σ π
  finalizer : ℕ → Finalizer σ π
  started : Kind → ℕ
  ends : Kind → List (ℕ × Ending)

inductive Action (σ π : Type)
  | submit (config : Prepared σ π) (force : Bool)
  | stop (ok : Bool)
  | tick (ok : Bool)
  | drained (id : ℕ) (ok : Bool)
  | finalize (id : ℕ)
  | finalizerTick (id : ℕ) (ok : Bool)

namespace Acquired

variable {α : Type}

/-- The service the acquisition started. -/
def fresh (acquired : Acquired α) : Option α := if acquired.reused then none else acquired.service

end Acquired

namespace System

def startIf (w : System σ π) (kind : Kind) (fresh : Bool) : System σ π :=
  if fresh then { w with started := Function.update w.started kind (w.started kind + 1) } else w

/-- The services that were to be stopped. -/
def settled (w : System σ π) (kind : Kind) : List ℕ := (w.ends kind).map Prod.fst

/-- The services whose stop was called. -/
def stopped (w : System σ π) (kind : Kind) : List ℕ :=
  ((w.ends kind).filter fun e => e.2 != .skipped).map Prod.fst

def stopService (w : System σ π) (kind : Kind) (id : ℕ) (ending : Ending) : System σ π :=
  { w with ends := Function.update w.ends kind (w.ends kind ++ [(id, ending)]) }

/-- Stops a service if there is one. -/
def stopOptional (w : System σ π) (kind : Kind) (service : Option ℕ) (ending : Ending) : System σ π :=
  match service with
  | some id => w.stopService kind id ending
  | none => w

def goto (w : System σ π) (lifecycle : Lifecycle σ π) : System σ π := { w with lifecycle := lifecycle }

/-- The exception of `start!` shuts the executor down, that of `reload!` leaves the server as it is. -/
def giveUp (w : System σ π) (entry : Server σ π) : System σ π :=
  w.goto (if entry.phase = .starting then .closed else .idle)

/-- `begin-drain!` -/
def beginDrain (w : System σ π) (g : Generation σ π) : System σ π :=
  { w with finalizer := Function.update w.finalizer g.id (.draining g) }

section

variable (w : System σ π) (kind : Kind) (service : Option ℕ) (fresh : Bool)

@[simp] theorem startIf_server : (w.startIf kind fresh).server = w.server := by
  cases fresh <;> rfl

@[simp] theorem startIf_lifecycle : (w.startIf kind fresh).lifecycle = w.lifecycle := by
  cases fresh <;> rfl

@[simp] theorem startIf_finalizer : (w.startIf kind fresh).finalizer = w.finalizer := by
  cases fresh <;> rfl

@[simp] theorem startIf_ends : (w.startIf kind fresh).ends = w.ends := by
  cases fresh <;> rfl

variable (ending : Ending)

@[simp] theorem stopOptional_server : (w.stopOptional kind service ending).server = w.server := by
  cases service <;> rfl

@[simp] theorem stopOptional_finalizer : (w.stopOptional kind service ending).finalizer = w.finalizer := by
  cases service <;> rfl

@[simp] theorem stopOptional_lifecycle : (w.stopOptional kind service ending).lifecycle = w.lifecycle := by
  cases service <;> rfl

@[simp] theorem stopOptional_started : (w.stopOptional kind service ending).started = w.started := by
  cases service <;> rfl

end

end System

/-- The services of a candidate `cleanup-unpublished-generation!` stops: those it does not
share with the state before. -/
def Generation.own (candidate : Generation σ π) (entry : Server σ π) : Kind → Option ℕ
  | .cert => (candidate.service .cert).filter fun id => entry.active.bind (·.service .cert) != some id
  | .ticket => (candidate.service .ticket).filter fun id =>
      entry.memoryTicketService.map (·.id) != some id

/-- The result of `build-generation!`. -/
def candidate (entry : Server σ π) (config : Prepared σ π) (cert : Acquired (CertRuntime π))
    (ticket : Acquired TicketService) : Generation σ π where
  id := entry.nextGenerationId
  config := config.snapshot
  managedPlan := config.managedPlan
  certAutomation := cert.service
  memoryTicketService := ticket.service

/-- The next stage of `start!` or `reload!`; `ok` says whether the call made there returns. -/
def reloadStep [DecidableEq π] (w : System σ π) (entry : Server σ π) (config : Prepared σ π) :
    Stage σ π → Bool → Option (System σ π)
  | .compile, ok => some (if ok then w.goto (.reload entry config .acquireCert) else w.giveUp entry)
  | .acquireCert, ok =>
    let cert := acquireCertAutomation (entry.active.bind (·.certAutomation)) config.managedPlan
      (w.started .cert)
    if ok then
      some ((w.startIf .cert cert.fresh.isSome).goto (.reload entry config (.acquireTickets cert)))
    else if cert.fresh.isSome then some (w.giveUp entry)
    else none
  | .acquireTickets cert, ok =>
    let ticket := acquireMemoryTicketService entry.memoryTicketService config.ticketPolicy
      (w.started .ticket)
    if ok then
      some ((w.startIf .ticket ticket.fresh.isSome).goto
        (.reload entry config (.startGeneration cert ticket)))
    else if ticket.fresh.isSome then some (w.goto (.reload entry config (.unwindCert cert)))
    else none
  | .startGeneration cert ticket, ok =>
    some (w.goto (.reload entry config (if ok then
      -- The first generation activates its transports inside `generation/start!`.
      if entry.active.isNone then .register (candidate entry config cert ticket)
      else .activate (candidate entry config cert ticket)
    else .unwindTickets cert ticket)))
  | .unwindTickets cert ticket, true =>
    some ((w.stopOptional .ticket (ticket.fresh.map (·.id)) .returned).goto
      (.reload entry config (.unwindCert cert)))
  -- The exception of the stop takes the place of the one that is unwound.
  | .unwindTickets cert ticket, false =>
    if ticket.fresh.isSome then
      some (((w.stopOptional .ticket (ticket.fresh.map (·.id)) .threw).stopOptional .cert
        (cert.fresh.map (·.id)) .skipped).giveUp entry)
    else none
  | .unwindCert cert, ok => some ((w.stopOptional .cert (cert.fresh.map (·.id)) (.of ok)).giveUp entry)
  | .activate g, ok => some (w.goto (.reload entry config (if ok then .register g else .cleanupCert g)))
  | .register g, ok => some (w.goto (.reload entry config (if ok then .publish g else .cleanupCert g)))
  | .publish g, true =>
    some ({ w with server := entry.publish g }.goto
      (if entry.active.isNone then .idle else .reload entry config (.beginDrain g)))
  | .beginDrain g, ok =>
    match entry.active with
    | some old =>
      some (if ok then (w.beginDrain old).goto (.reload entry config .addDraining)
        else w.goto (.reload entry config (.cleanupCert g)))
    | none => none
  | .addDraining, true =>
    some ({ w with
      server := { w.server with draining := w.server.draining ++ entry.active.toList } }.goto .idle)
  -- `cleanup-unpublished-generation!` catches what its calls throw.
  | .cleanupCert g, ok =>
    some ((w.stopOptional .cert (g.own entry .cert) (.of ok)).goto (.reload entry config (.cleanupTickets g)))
  | .cleanupTickets g, ok => some ((w.stopOptional .ticket (g.own entry .ticket) (.of ok)).giveUp entry)
  | _, _ => none

/-- The state `stop!` leaves while it waits. -/
def Server.stopping (server : Server σ π) : Server σ π :=
  { server with
    phase := .stopping
    active := none
    draining := server.draining ++ server.active.toList }

def Server.stop (server : Server σ π) : Server σ π :=
  { server with phase := .stopped, memoryTicketService := none, active := none, draining := [] }

/-- The next step of the lifecycle thread. -/
def lifecycleStep [DecidableEq π] (w : System σ π) : Lifecycle σ π → Bool → Option (System σ π)
  | .reload entry config stage, ok => reloadStep w entry config stage ok
  | .awaiting gens (g :: rest) service, true =>
    match w.finalizer g.id with
    | .done true => some (w.goto (.awaiting gens rest service))
    | .done false => some (w.goto (.threw gens))
    | _ => none
  | .awaiting gens [] service, true =>
    some (w.goto (.stopCerts (gens.filterMap (·.service .cert)).eraseDups service))
  | .stopCerts (id :: rest) service, ok =>
    some ((w.stopService .cert id (.of ok)).goto (if ok then .stopCerts rest service else .halted rest))
  | .stopCerts [] service, true => some (w.goto (.stopTickets service))
  | .stopTickets service, true =>
    some ((w.stopOptional .ticket (service.map (·.id)) .returned).goto .stopNotifier)
  | .stopTickets (some service), false => some ((w.stopService .ticket service.id .threw).goto (.threw []))
  | .stopNotifier, ok => some (w.goto (if ok then .finish else .threw []))
  | .finish, true => some ({ w with server := w.server.stop }.goto .closed)
  | _, _ => none

/-- The lifecycle gate is held over the whole of `reload!`. -/
def Lifecycle.gated : Lifecycle σ π → Bool
  | .reload _ _ _ => true
  | _ => false

/-- The rest of `finalize-draining-generation!`; `returns` says whether the stop made there
does. -/
def finalizerStep (w : System σ π) (id : ℕ) : Finalizer σ π → Bool → Option (System σ π)
  | .stopping (some cert) ticket ok, true =>
    some { w.stopService .cert cert.id .returned with
      finalizer := Function.update w.finalizer id (.stopping none ticket ok) }
  | .stopping (some cert) ticket _, false =>
    some { (w.stopService .cert cert.id .threw).stopOptional .ticket (ticket.map (·.id)) .skipped with
      finalizer := Function.update w.finalizer id (.done false) }
  | .stopping none (some ticket) ok, returns =>
    some { w.stopService .ticket ticket.id (.of returns) with
      finalizer := Function.update w.finalizer id
        (if returns then .stopping none none ok else .done false) }
  | .stopping none none ok, true => some { w with finalizer := Function.update w.finalizer id (.done ok) }
  | _, _ => none

/-- The locked part of a finalizer whose turn it is. -/
def finalizeStep (w : System σ π) (id : ℕ) : Finalizer σ π → Option (System σ π)
  | .finalizing g ok =>
    let (server, cert, ticket) := w.server.finalizeDraining g
    some { w with
      server := server
      finalizer := Function.update w.finalizer id (.stopping cert ticket ok) }
  | _ => none

/-- `candidate-plan` finds nothing to do. -/
def unchanged [DecidableEq σ] (server : Server σ π) (config : Prepared σ π) (force : Bool) : Bool :=
  !force && server.active.map (·.config) == some config.snapshot

def step [DecidableEq σ] [DecidableEq π] : Action σ π → System σ π → Option (System σ π)
  | .submit config force, w =>
    match w.lifecycle with
    | .idle =>
      if w.server.phase = .stopping ∨ w.server.phase = .stopped ∨ unchanged w.server config force then none
      else some (w.goto (.reload w.server config .compile))
    | _ => none
  | .stop ok, w =>
    match w.lifecycle with
    | .idle =>
      if w.server.phase = .running then
        let stopping := w.server.stopping
        some (if ok then
          { (w.server.active.elim w w.beginDrain) with server := stopping }.goto
            (.awaiting stopping.draining stopping.draining w.server.memoryTicketService)
        else w.goto (.threw []))
      else none
    | _ => none
  | .tick ok, w => lifecycleStep w w.lifecycle ok
  | .drained id ok, w =>
    match w.finalizer id with
    | .draining g => some { w with finalizer := Function.update w.finalizer id (.finalizing g ok) }
    | _ => none
  | .finalize id, w => if w.lifecycle.gated then none else finalizeStep w id (w.finalizer id)
  | .finalizerTick id ok, w => finalizerStep w id (w.finalizer id) ok

/-- Before `start!`. -/
def unstarted : System σ π where
  server := ⟨.starting, none, 1, none, none, []⟩
  lifecycle := .idle
  finalizer := fun _ => .absent
  started := fun _ => 0
  ends := fun _ => []

def machine (σ π : Type) [DecidableEq σ] [DecidableEq π] : Machine (System σ π) (Action σ π) where
  init w := w = unstarted
  step := step

end Busker.Runtime
