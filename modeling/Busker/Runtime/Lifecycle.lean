import Busker.Interleaving.Custody
import Busker.Runtime.Server
import Mathlib.Order.Basic
import Mathlib.Algebra.Order.Group.Nat

/-! What the lifecycle thread and the drain futures know of each other: whose services a
stage holds, and that a drain future runs for the generations that are draining and for no
other. -/

namespace Busker.Runtime

open Interleaving

variable {σ π : Type}

namespace Finalizer

/-- The generation a drain future has still to take out of `:draining`. -/
def drains : Finalizer σ π → Option (Generation σ π)
  | .draining g | .finalizing g _ => some g
  | _ => none

def finished : Finalizer σ π → Bool
  | .done _ => true
  | _ => false

/-- The service a drain future has undertaken to stop. -/
def closing : Finalizer σ π → Kind → Option ℕ
  | .stopping cert _ _, .cert => cert.map (·.id)
  | .stopping _ ticket _, .ticket => ticket.map (·.id)
  | _, _ => none

end Finalizer

namespace Lifecycle

/-- The services the lifecycle thread keeps for a generation that is not in the state. -/
def uses : Lifecycle σ π → Kind → List ℕ
  | .reload _ _ (.acquireTickets cert), .cert => (cert.service.map (·.id)).toList
  | .reload _ _ (.startGeneration cert _), .cert => (cert.service.map (·.id)).toList
  | .reload _ _ (.startGeneration _ ticket), .ticket => (ticket.service.map (·.id)).toList
  | .reload _ _ (.activate g), kind | .reload _ _ (.register g), kind
  | .reload _ _ (.publish g), kind => (g.service kind).toList
  | .reload entry _ (.beginDrain _), kind | .reload entry _ .addDraining, kind =>
    (entry.active.bind (·.service kind)).toList
  | .awaiting gens _ _, .cert | .threw gens, .cert => gens.filterMap (·.service .cert)
  | _, _ => []

/-- The services the lifecycle thread is about to stop. -/
def closing : Lifecycle σ π → Kind → List ℕ
  | .reload _ _ (.unwindTickets cert _), .cert | .reload _ _ (.unwindCert cert), .cert =>
    (cert.fresh.map (·.id)).toList
  | .reload _ _ (.unwindTickets _ ticket), .ticket => (ticket.fresh.map (·.id)).toList
  | .reload entry _ (.cleanupCert g), kind => (g.own entry kind).toList
  | .reload entry _ (.cleanupTickets g), .ticket => (g.own entry .ticket).toList
  | .stopCerts todo _, .cert | .halted todo, .cert => todo
  | .stopTickets service, .ticket => (service.map (·.id)).toList
  | _, _ => []

/-- The generation that was replaced and is not yet in `:draining`. -/
def replaced : Lifecycle σ π → Option (Generation σ π)
  | .reload entry _ .addDraining => entry.active
  | _ => none

end Lifecycle

namespace System

def used (w : System σ π) (kind : Kind) (id : ℕ) : Prop :=
  (∃ g ∈ w.server.currentGenerations, g.service kind = some id) ∨ id ∈ w.lifecycle.uses kind

/-- What the lifecycle thread, or the drain future of a generation, has undertaken to stop. -/
def closing (w : System σ π) (kind : Kind) : Option ℕ → ℕ → Prop
  | none, id => id ∈ w.lifecycle.closing kind
  | some g, id => (w.finalizer g).closing kind = some id

/-- Only a certificate runtime is never stopped twice: `stop!` stops the ticket service of
the last generation after its drain future has. -/
def Kept (w : System σ π) (kind : Kind) : Prop :=
  Custody (kind = .cert) (w.started kind) (w.used kind) (w.closing kind) (w.settled kind)

end System

/-- A service acquired for a candidate was started for it, or is the active generation's. -/
structure Lent (entry : Server σ π) (kind : Kind) (service fresh : Option ℕ) : Prop where
  new : ∀ i, fresh = some i → service = some i ∧
    ∀ g ∈ entry.currentGenerations, g.service kind ≠ some i
  shared : fresh = none → service = none ∨ service = entry.active.bind (·.service kind)

/-- The ticket service of the state is the active generation's. -/
def Server.Tickets (server : Server σ π) : Prop :=
  server.memoryTicketService.map (·.id) = server.active.bind (·.service .ticket)

/-- What holds at a stage of `start!` or `reload!`. -/
def StageOk (w : System σ π) (entry : Server σ π) (config : Prepared σ π) : Stage σ π → Prop
  | .compile | .acquireCert => w.server = entry
  | .acquireTickets cert | .unwindCert cert => w.server = entry ∧
    Lent entry .cert (cert.service.map (·.id)) (cert.fresh.map (·.id))
  | .startGeneration cert ticket | .unwindTickets cert ticket => w.server = entry ∧
    Lent entry .cert (cert.service.map (·.id)) (cert.fresh.map (·.id)) ∧
    Lent entry .ticket (ticket.service.map (·.id)) (ticket.fresh.map (·.id))
  | .activate g | .register g | .publish g | .cleanupCert g | .cleanupTickets g =>
    w.server = entry ∧ (g.id = entry.nextGenerationId ∧ g.config = config.snapshot) ∧
    ∀ kind, Lent entry kind (g.service kind) (g.own entry kind)
  | .beginDrain g => w.server = entry.publish g ∧
    (g.id = entry.nextGenerationId ∧ g.config = config.snapshot) ∧ ∃ old, entry.active = some old ∧
    old.id < entry.nextGenerationId ∧ w.finalizer old.id = .absent
  | .addDraining => (∃ g, w.server = entry.publish g ∧ g.id = entry.nextGenerationId ∧
      g.config = config.snapshot) ∧ ∃ old, entry.active = some old ∧
    old.id < entry.nextGenerationId ∧ (w.finalizer old.id).drains = some old ∧
    ∀ d ∈ entry.draining, d.id ≠ old.id

def LifecycleOk (w : System σ π) : Lifecycle σ π → Prop
  | .idle => (w.server.phase = .starting ∨ w.server.phase = .running) ∧ w.server.Tickets
  | .reload entry config stage => (entry.phase = .starting ∨ entry.phase = .running) ∧ entry.Tickets ∧
    StageOk w entry config stage
  | .awaiting gens todo service => w.server.phase = .stopping ∧ w.server.active = none ∧
    (∀ d ∈ w.server.draining, d ∈ gens) ∧
    (∀ g ∈ gens, g ∉ todo → (w.finalizer g.id).finished = true) ∧
    ∀ t, service = some t → t.id < w.started .ticket
  | .stopCerts todo service => w.server.phase = .stopping ∧ w.server.currentGenerations = [] ∧ todo.Nodup ∧
    ∀ t, service = some t → t.id < w.started .ticket
  | .stopTickets service => w.server.phase = .stopping ∧ w.server.currentGenerations = [] ∧
    ∀ t, service = some t → t.id < w.started .ticket
  | .stopNotifier | .finish | .halted _ =>
    w.server.phase = .stopping ∧ w.server.currentGenerations = []
  | .threw gens => w.server.phase = .running ∧ gens = [] ∧ w.server.Tickets ∨
    w.server.phase = .stopping ∧ w.server.active = none ∧ ∀ d ∈ w.server.draining, d ∈ gens
  | .closed => w.server.currentGenerations = []

structure Wellformed (w : System σ π) : Prop where
  known : ∀ g ∈ w.server.currentGenerations, g.id < w.server.nextGenerationId
  later : ∀ i, w.server.nextGenerationId ≤ i → w.finalizer i = .absent
  unborn : w.server.phase = .starting → w.server.currentGenerations = []
  undrained : ∀ g, w.server.active = some g → w.finalizer g.id = .absent
  drains : ∀ i g, (w.finalizer i).drains = some g →
    g.id = i ∧ (g ∈ w.server.draining ∨ w.lifecycle.replaced = some g)
  draining : ∀ g ∈ w.server.draining, (w.finalizer g.id).drains = some g
  distinct : (w.server.draining.map (·.id)).Nodup
  stage : LifecycleOk w w.lifecycle

structure Consistent (w : System σ π) : Prop where
  formed : Wellformed w
  kept : ∀ kind, w.Kept kind

/-- A drain future went on, or none did. -/
structure Advanced (p q : Finalizer σ π) : Prop where
  absent : p = .absent → q = .absent
  drains : q.drains = p.drains
  finished : p.finished = true → q.finished = true

theorem Advanced.refl (p : Finalizer σ π) : Advanced p p := ⟨id, rfl, id⟩

theorem advanced_update {finalizer : ℕ → Finalizer σ π} {id : ℕ} {q : Finalizer σ π}
    (advanced : Advanced (finalizer id) q) (j : ℕ) :
    Advanced (finalizer j) (Function.update finalizer id q j) := by
  by_cases h : j = id
  · subst h
    rwa [Function.update_self]
  · rw [Function.update_of_ne h]
    exact .refl _

variable {w v : System σ π} {l : Lifecycle σ π}

theorem StageOk.mono {entry : Server σ π} {config : Prepared σ π} {stage : Stage σ π}
    (server : v.server = w.server)
    (advanced : ∀ j, Advanced (w.finalizer j) (v.finalizer j)) (h : StageOk w entry config stage) :
    StageOk v entry config stage := by
  cases stage <;> simp only [StageOk, server] at h ⊢
  case beginDrain g =>
    obtain ⟨same, new, old, active, known, absent⟩ := h
    exact ⟨same, new, old, active, known, (advanced old.id).absent absent⟩
  case addDraining =>
    obtain ⟨published, old, active, known, drains, others⟩ := h
    exact ⟨published, old, active, known, (advanced old.id).drains.trans drains, others⟩
  all_goals exact h

theorem LifecycleOk.mono (server : v.server = w.server) (started : w.started .ticket ≤ v.started .ticket)
    (advanced : ∀ j, Advanced (w.finalizer j) (v.finalizer j)) (h : LifecycleOk w l) : LifecycleOk v l := by
  cases l <;> simp only [LifecycleOk, server] at h ⊢
  case reload entry config stage => exact ⟨h.1, h.2.1, h.2.2.mono server advanced⟩
  case awaiting gens todo service =>
    obtain ⟨phase, active, draining, finished, known⟩ := h
    exact ⟨phase, active, draining, fun g hg gone => (advanced g.id).finished (finished g hg gone),
      fun t ht => (known t ht).trans_le started⟩
  case stopCerts todo service =>
    exact ⟨h.1, h.2.1, h.2.2.1, fun t ht => (h.2.2.2 t ht).trans_le started⟩
  case stopTickets service => exact ⟨h.1, h.2.1, fun t ht => (h.2.2 t ht).trans_le started⟩
  all_goals exact h

/-- The lifecycle thread went on, or a drain future did. -/
theorem Wellformed.advance (h : Wellformed w) (server : v.server = w.server)
    (advanced : ∀ j, Advanced (w.finalizer j) (v.finalizer j))
    (replaced : v.lifecycle.replaced = w.lifecycle.replaced) (stage : LifecycleOk v v.lifecycle) :
    Wellformed v where
  known := by rw [server]; exact h.known
  later i := by rw [server]; exact fun le => (advanced i).absent (h.later i le)
  unborn := by rw [server]; exact h.unborn
  undrained g := by rw [server]; exact fun active => (advanced g.id).absent (h.undrained g active)
  drains i g at_ := by
    rw [server, replaced]
    exact h.drains i g ((advanced i).drains.symm.trans at_)
  draining g := by
    rw [server]
    exact fun hg => (advanced g.id).drains.trans (h.draining g hg)
  distinct := by rw [server]; exact h.distinct
  stage := stage

theorem Wellformed.drained (h : Wellformed w) {id : ℕ} {g : Generation σ π} {ok : Bool}
    (at_ : w.finalizer id = .draining g) :
    Wellformed { w with finalizer := Function.update w.finalizer id (.finalizing g ok) } :=
  have advanced (j : ℕ) :
      Advanced (w.finalizer j) (Function.update w.finalizer id (.finalizing g ok) j) :=
    advanced_update (at_ ▸ ⟨nofun, rfl, nofun⟩) j
  h.advance rfl advanced rfl (h.stage.mono (w := w) rfl le_rfl advanced)

/-- The steps of a drain future that is past its lock. -/
structure Finalized (w v : System σ π) (id : ℕ) (q : Finalizer σ π) : Prop where
  server : v.server = w.server
  lifecycle : v.lifecycle = w.lifecycle
  started : v.started = w.started
  finalizer : v.finalizer = Function.update w.finalizer id q
  calm : q.drains = none

theorem finalizerStep_finalized {id : ℕ} {returns : Bool}
    (moves : finalizerStep w id (w.finalizer id) returns = some v) :
    ∃ cert ticket ok q, w.finalizer id = .stopping cert ticket ok ∧ Finalized w v id q := by
  cases at_ : w.finalizer id
  case stopping cert ticket ok =>
    refine ⟨cert, ticket, ok, ?_⟩
    cases cert <;> cases ticket <;> cases returns <;>
      simp only [at_, finalizerStep, reduceCtorEq, Option.some.injEq] at moves <;> subst moves <;>
      exact ⟨_, rfl, by constructor <;> rfl⟩
  all_goals simp [at_, finalizerStep] at moves

theorem Wellformed.finalizerStep (h : Wellformed w) {id : ℕ} {returns : Bool}
    (moves : finalizerStep w id (w.finalizer id) returns = some v) : Wellformed v := by
  obtain ⟨cert, ticket, ok, q, at_, finalized⟩ := finalizerStep_finalized moves
  have advanced (j : ℕ) : Advanced (w.finalizer j) (v.finalizer j) := by
    rw [finalized.finalizer]
    exact advanced_update (at_ ▸ ⟨nofun, finalized.calm, nofun⟩) j
  refine h.advance finalized.server advanced (by rw [finalized.lifecycle]) ?_
  rw [finalized.lifecycle]
  exact h.stage.mono finalized.server (finalized.started ▸ le_rfl) advanced

/-- What the locked part of a drain future leaves of the state. -/
structure FinalizeFrame (server next : Server σ π) (g : Generation σ π) : Prop where
  phase : next.phase = server.phase
  nextGenerationId : next.nextGenerationId = server.nextGenerationId
  active : next.active = server.active
  draining : next.draining = server.draining.filter fun d => g.id != d.id

theorem finalizeDraining_frame (server : Server σ π) (g : Generation σ π) :
    FinalizeFrame server (server.finalizeDraining g).1 g := by
  unfold Server.finalizeDraining
  dsimp only
  split <;> exact ⟨rfl, rfl, rfl, rfl⟩

theorem FinalizeFrame.mem {server next : Server σ π} {g d : Generation σ π}
    (h : FinalizeFrame server next g) : d ∈ next.draining ↔ d ∈ server.draining ∧ d.id ≠ g.id := by
  rw [h.draining, List.mem_filter, bne_iff_ne, ne_comm]

theorem FinalizeFrame.mem_current {server next : Server σ π} {g d : Generation σ π}
    (h : FinalizeFrame server next g) (hd : d ∈ next.currentGenerations) :
    d ∈ server.currentGenerations := by
  rw [Server.currentGenerations, h.active] at hd
  exact (List.mem_append.mp hd).elim (List.mem_append_left _)
    fun hd => List.mem_append_right _ (h.mem.mp hd).1

/-- The ticket service of the state is in use as long as there is an active generation. -/
theorem Server.Tickets.finalize {server : Server σ π} (h : server.Tickets) (g : Generation σ π) :
    (server.finalizeDraining g).1.Tickets := by
  unfold Server.finalizeDraining
  dsimp only
  split
  · rename_i last
    obtain ⟨t, ticket, same⟩ := (Option.any_eq_true ..).mp last
    obtain ⟨s, memory, same⟩ := (Option.any_eq_true ..).mp same
    obtain ⟨-, unused⟩ := Option.filter_eq_some_iff.mp ticket
    refine absurd ?_ (Bool.eq_false_iff.mp (by simpa using unused))
    rw [Server.Tickets, memory, Option.map_some, eq_comm, Option.bind_eq_some_iff] at h
    obtain ⟨a, active, its⟩ := h
    simp only [Server.inUse, Server.currentGenerations, List.any_append, active, Option.toList_some,
      List.any_cons, its, beq_iff_eq.mp same, BEq.rfl, Bool.true_or]
  · exact h

/-- A drain future has taken its generation out of the state. -/
theorem Wellformed.finalized (h : Wellformed w) {g : Generation σ π} {ok : Bool}
    (at_ : w.finalizer g.id = .finalizing g ok) (member : g ∈ w.server.draining)
    (frame : FinalizeFrame w.server v.server g) (tickets : w.server.Tickets → v.server.Tickets)
    (free : w.lifecycle.gated = false) (lifecycle : v.lifecycle = w.lifecycle)
    (started : v.started = w.started) (gone : (v.finalizer g.id).drains = none)
    (other : ∀ j, j ≠ g.id → v.finalizer j = w.finalizer j) : Wellformed v := by
  have replaced : w.lifecycle.replaced = none := by
    cases l : w.lifecycle <;> simp_all [Lifecycle.gated, Lifecycle.replaced]
  have differs {d : Generation σ π} (absent : w.finalizer d.id = .absent) : d.id ≠ g.id := fun same => by
    rw [same, at_] at absent
    contradiction
  exact {
    known := fun d hd => by
      rw [frame.nextGenerationId]
      exact h.known d (frame.mem_current hd)
    later := fun i le => by
      rw [frame.nextGenerationId] at le
      have below := h.known g (List.mem_append_right _ member)
      rw [other i (by omega)]
      exact h.later i le
    unborn := fun starting => by
      have empty := h.unborn (frame.phase.symm.trans starting)
      simp [(List.append_eq_nil_iff.mp empty).2] at member
    undrained := fun d active => by
      have absent := h.undrained d (frame.active.symm.trans active)
      rw [other _ (differs absent)]
      exact absent
    drains := fun i d drains => by
      by_cases hi : i = g.id
      · rw [hi, gone] at drains
        contradiction
      · rw [other i hi] at drains
        obtain ⟨rfl, found⟩ := h.drains i d drains
        exact ⟨rfl, .inl (frame.mem.mpr ⟨found.resolve_right (by simp [replaced]), hi⟩)⟩
    draining := fun d hd => by
      obtain ⟨hd, hi⟩ := frame.mem.mp hd
      rw [other _ hi]
      exact h.draining d hd
    distinct := by
      rw [frame.draining]
      exact h.distinct.sublist (List.filter_sublist.map _)
    stage := by
      have stage := h.stage
      rw [lifecycle]
      cases l : w.lifecycle <;> simp only [l, LifecycleOk] at stage ⊢
      case idle => exact ⟨by rw [frame.phase]; exact stage.1, tickets stage.2⟩
      case reload => simp [l, Lifecycle.gated] at free
      case awaiting gens todo service =>
        obtain ⟨phase, active, draining, finished, known⟩ := stage
        refine ⟨frame.phase.trans phase, frame.active.trans active,
          fun d hd => draining d (frame.mem.mp hd).1, fun d hd gone => ?_, by rwa [started]⟩
        have done := finished d hd gone
        rw [other _ fun same => by simp [same, at_, Finalizer.finished] at done]
        exact done
      case threw gens =>
        rcases stage with ⟨phase, empty, kept⟩ | ⟨phase, active, draining⟩
        · exact .inl ⟨frame.phase.trans phase, empty, tickets kept⟩
        · exact .inr ⟨frame.phase.trans phase, frame.active.trans active,
            fun d hd => draining d (frame.mem.mp hd).1⟩
      all_goals
        have empty : w.server.currentGenerations = [] := by simp_all
        simp [(List.append_eq_nil_iff.mp empty).2] at member }

theorem Wellformed.finalizing (h : Wellformed w) (free : w.lifecycle.gated = false) {id : ℕ}
    {g : Generation σ π} {ok : Bool} (at_ : w.finalizer id = .finalizing g ok) :
    g.id = id ∧ g ∈ w.server.draining := by
  obtain ⟨same, member⟩ := h.drains id g (by rw [at_]; rfl)
  refine ⟨same, member.resolve_right fun replaced => ?_⟩
  cases l : w.lifecycle <;> simp_all [Lifecycle.gated, Lifecycle.replaced]

theorem Wellformed.finalize (h : Wellformed w) {id : ℕ} (free : w.lifecycle.gated = false)
    (moves : finalizeStep w id (w.finalizer id) = some v) : Wellformed v := by
  cases at_ : w.finalizer id
  case finalizing g ok =>
    simp only [at_, finalizeStep, Option.some.injEq] at moves
    subst moves
    obtain ⟨rfl, member⟩ := h.finalizing free at_
    exact h.finalized at_ member (finalizeDraining_frame w.server g) (·.finalize g) free rfl rfl
      (by simp [Finalizer.drains]) fun j hj => Function.update_of_ne hj ..
  all_goals simp [at_, finalizeStep] at moves

theorem Server.mem_active {server : Server σ π} {g : Generation σ π} (h : server.active = some g) :
    g ∈ server.currentGenerations := List.mem_append_left _ (by simp [h])

theorem acquireCert_lent [DecidableEq π] {entry : Server σ π} {managedPlan : Option π} {fresh : ℕ}
    (new : ∀ g ∈ entry.currentGenerations, g.service .cert ≠ some fresh) :
    let cert := acquireCertAutomation (entry.active.bind (·.certAutomation)) managedPlan fresh
    Lent entry .cert (cert.service.map (·.id)) (cert.fresh.map (·.id)) := by
  unfold acquireCertAutomation
  split
  · exact ⟨nofun, fun _ => .inl rfl⟩
  · rename_i plan runtime current
    obtain ⟨g, active, its⟩ := Option.bind_eq_some_iff.mp current
    split
    · refine ⟨nofun, fun _ => .inr ?_⟩
      simp [active, Generation.service, its]
    · exact ⟨fun i same => ⟨same, fun d hd at_ => new d hd (at_.trans same.symm)⟩, nofun⟩
  · exact ⟨fun i same => ⟨same, fun d hd at_ => new d hd (at_.trans same.symm)⟩, nofun⟩

theorem acquireTickets_lent {entry : Server σ π} {policy : Option TicketPolicy} {fresh : ℕ}
    (tickets : entry.Tickets) (new : ∀ g ∈ entry.currentGenerations, g.service .ticket ≠ some fresh) :
    let ticket := acquireMemoryTicketService entry.memoryTicketService policy fresh
    Lent entry .ticket (ticket.service.map (·.id)) (ticket.fresh.map (·.id)) := by
  unfold acquireMemoryTicketService
  split
  · exact ⟨nofun, fun _ => .inl rfl⟩
  · rename_i policy service current
    split
    · exact ⟨nofun, fun _ => .inr (by rw [← tickets, current])⟩
    · exact ⟨fun i same => ⟨same, fun d hd at_ => new d hd (at_.trans same.symm)⟩, nofun⟩
  · exact ⟨fun i same => ⟨same, fun d hd at_ => new d hd (at_.trans same.symm)⟩, nofun⟩

/-- What `cleanup-unpublished-generation!` stops of a candidate is what was started for it. -/
theorem own_of_lent {entry : Server σ π} {g : Generation σ π} {kind : Kind} {fresh : Option ℕ}
    (tickets : entry.Tickets) (h : Lent entry kind (g.service kind) fresh) : g.own entry kind = fresh := by
  have own : g.own entry kind =
      (g.service kind).filter fun id => entry.active.bind (·.service kind) != some id := by
    cases kind
    · rfl
    · rw [Generation.own, tickets]
  rw [own]
  cases fresh with
  | none =>
    rcases h.shared rfl with none | shared
    · rw [none, Option.filter_none]
    · refine Option.filter_eq_none_iff.mpr fun i its => ?_
      simp [← shared, its]
  | some i =>
    obtain ⟨its, others⟩ := h.new i rfl
    refine Option.filter_eq_some_iff.mpr ⟨its, bne_iff_ne.mpr fun shared => ?_⟩
    obtain ⟨d, active, shared⟩ := Option.bind_eq_some_iff.mp shared
    exact others d (Server.mem_active active) shared

theorem candidate_lent {entry : Server σ π} {config : Prepared σ π} {cert : Acquired (CertRuntime π)}
    {ticket : Acquired TicketService} (tickets : entry.Tickets)
    (certs : Lent entry .cert (cert.service.map (·.id)) (cert.fresh.map (·.id)))
    (services : Lent entry .ticket (ticket.service.map (·.id)) (ticket.fresh.map (·.id))) (kind : Kind) :
    Lent entry kind ((candidate entry config cert ticket).service kind)
      ((candidate entry config cert ticket).own entry kind) := by
  cases kind
  · exact (own_of_lent (g := candidate entry config cert ticket) tickets certs).symm ▸ certs
  · exact (own_of_lent (g := candidate entry config cert ticket) tickets services).symm ▸ services

/-- After `start!` or `reload!` has thrown. -/
theorem Wellformed.giveUp (h : Wellformed w) {entry : Server σ π} (same : w.server = entry)
    (phase : entry.phase = .starting ∨ entry.phase = .running) (tickets : entry.Tickets)
    (server : v.server = w.server) (finalizer : v.finalizer = w.finalizer)
    (replaced : w.lifecycle.replaced = none) : Wellformed (v.giveUp entry) := by
  subst same
  have stage : LifecycleOk (v.giveUp w.server) (v.giveUp w.server).lifecycle := by
    unfold System.giveUp System.goto
    split <;> rename_i starting
    · show v.server.currentGenerations = []
      rw [server]
      exact h.unborn starting
    · show (v.server.phase = _ ∨ _) ∧ v.server.Tickets
      rw [server]
      exact ⟨phase, tickets⟩
  refine h.advance server (fun j => finalizer ▸ .refl _) ?_ stage
  rw [replaced]
  unfold System.giveUp System.goto
  split <;> rfl

/-- `begin-drain!` of the generation that was replaced throws. -/
def drainRefused : Action σ π → System σ π → Bool
  | .tick false, w =>
    match w.lifecycle with
    | .reload _ _ (.beginDrain _) => true
    | _ => false
  | _, _ => false

theorem Wellformed.publish (h : Wellformed w) {entry : Server σ π} {g : Generation σ π}
    (same : w.server = entry) (new : g.id = entry.nextGenerationId) (server : v.server = entry.publish g)
    (finalizer : v.finalizer = w.finalizer) (replaced : w.lifecycle.replaced = none)
    (stage : LifecycleOk v v.lifecycle) : Wellformed v := by
  subst same
  have active : v.server.active = some g := by rw [server]; rfl
  have draining : v.server.draining = w.server.draining := by rw [server]; rfl
  have next : v.server.nextGenerationId = w.server.nextGenerationId + 1 := by rw [server]; rfl
  exact {
    known := fun d hd => by
      rw [next]
      rw [Server.currentGenerations, active, draining] at hd
      rcases List.mem_append.mp hd with hd | hd
      · obtain rfl := List.mem_singleton.mp hd
        omega
      · have := h.known d (List.mem_append_right _ hd)
        omega
    later := fun i le => by
      rw [finalizer]
      exact h.later i (by omega)
    unborn := by rw [server]; nofun
    undrained := fun d at_ => by
      obtain rfl := Option.some.inj (active.symm.trans at_)
      rw [finalizer]
      exact h.later _ (by omega)
    drains := fun i d drains => by
      rw [finalizer] at drains
      obtain ⟨rfl, found⟩ := h.drains i d drains
      exact ⟨rfl, .inl (draining ▸ found.resolve_right (by simp [replaced]))⟩
    draining := fun d hd => by
      rw [finalizer]
      exact h.draining d (draining ▸ hd)
    distinct := draining ▸ h.distinct
    stage := stage }

/-- The drain future of the replaced generation starts. -/
theorem Wellformed.beginDrain (h : Wellformed w) {old : Generation σ π}
    (known : old.id < w.server.nextGenerationId) (absent : w.finalizer old.id = .absent)
    (inactive : ∀ g, w.server.active = some g → g.id ≠ old.id) (server : v.server = w.server)
    (finalizer : v.finalizer = Function.update w.finalizer old.id (.draining old))
    (replaced : w.lifecycle.replaced = none) (after : v.lifecycle.replaced = some old)
    (stage : LifecycleOk v v.lifecycle) : Wellformed v := by
  have other {j : ℕ} (hj : j ≠ old.id) : v.finalizer j = w.finalizer j := by
    rw [finalizer, Function.update_of_ne hj]
  exact {
    known := by rw [server]; exact h.known
    later := fun i le => by
      rw [server] at le
      rw [other (by omega)]
      exact h.later i le
    unborn := by rw [server]; exact h.unborn
    undrained := fun g active => by
      rw [server] at active
      rw [other (inactive g active)]
      exact h.undrained g active
    drains := fun i d drains => by
      by_cases hi : i = old.id
      · subst hi
        rw [finalizer, Function.update_self] at drains
        obtain rfl := Option.some.inj drains
        exact ⟨rfl, .inr after⟩
      · rw [other hi] at drains
        obtain ⟨rfl, found⟩ := h.drains i d drains
        exact ⟨rfl, .inl (server ▸ found.resolve_right (by simp [replaced]))⟩
    draining := fun d hd => by
      rw [server] at hd
      have drains := h.draining d hd
      rwa [other fun same => by simp [same, absent, Finalizer.drains] at drains]
    distinct := by rw [server]; exact h.distinct
    stage := stage }

/-- The next number is no generation's. -/
theorem System.Kept.unused {kind : Kind} (h : w.Kept kind) {entry : Server σ π} (same : w.server = entry) :
    ∀ g ∈ entry.currentGenerations, g.service kind ≠ some (w.started kind) := fun g hg its =>
  Nat.lt_irrefl _ (h.known _ (.inl (.inl ⟨g, same ▸ hg, its⟩)))

theorem Wellformed.reload [DecidableEq π] (h : Wellformed w) (kept : ∀ kind, w.Kept kind)
    {entry : Server σ π} {config : Prepared σ π} {stage : Stage σ π} {ok : Bool}
    (at_ : w.lifecycle = .reload entry config stage) (begins : drainRefused (.tick ok) w = false)
    (moves : reloadStep w entry config stage ok = some v) : Wellformed v := by
  have inside := h.stage
  rw [at_] at inside
  obtain ⟨phase, tickets, holds⟩ := inside
  have none_ (calm : stage ≠ .addDraining) : w.lifecycle.replaced = none := by
    rw [at_]
    cases stage <;> first | rfl | contradiction
  have advance {u : System σ π} (calm : stage ≠ .addDraining) (server : u.server = w.server)
      (finalizer : u.finalizer = w.finalizer) (replaced : u.lifecycle.replaced = none)
      (ok : LifecycleOk u u.lifecycle) : Wellformed u :=
    h.advance server (fun j => finalizer ▸ .refl _) (replaced.trans (none_ calm).symm) ok
  cases stage <;> cases ok <;> simp only [reloadStep, reduceCtorEq, Bool.false_eq_true, if_true, if_false,
    Option.some.injEq] at moves
  case compile.false =>
    subst moves
    exact h.giveUp holds phase tickets rfl rfl (none_ nofun)
  case compile.true =>
    subst moves
    exact advance nofun rfl rfl rfl ⟨phase, tickets, holds⟩
  case acquireCert.false =>
    split at moves <;> simp only [reduceCtorEq, Option.some.injEq] at moves
    subst moves
    exact h.giveUp holds phase tickets rfl rfl (none_ nofun)
  case acquireCert.true =>
    subst moves
    refine advance nofun (by simp [System.goto]) (by simp [System.goto]) rfl
      ⟨phase, tickets, by simpa [System.goto, StageOk] using holds, ?_⟩
    exact acquireCert_lent ((kept .cert).unused holds)
  case acquireTickets.false cert =>
    split at moves <;> simp only [reduceCtorEq, Option.some.injEq] at moves
    subst moves
    exact advance nofun rfl rfl rfl ⟨phase, tickets, holds⟩
  case acquireTickets.true cert =>
    subst moves
    refine advance nofun (by simp [System.goto]) (by simp [System.goto]) rfl
      ⟨phase, tickets, by simpa [System.goto] using holds.1, holds.2, ?_⟩
    exact acquireTickets_lent tickets ((kept .ticket).unused holds.1)
  case startGeneration.false cert ticket =>
    subst moves
    exact advance nofun rfl rfl rfl ⟨phase, tickets, holds⟩
  case startGeneration.true cert ticket =>
    subst moves
    have lent := @candidate_lent _ _ _ config _ _ tickets holds.2.1 holds.2.2
    cases entry.active.isNone <;> exact advance nofun rfl rfl rfl ⟨phase, tickets, holds.1, ⟨rfl, rfl⟩, lent⟩
  case unwindTickets.true cert ticket =>
    subst moves
    exact advance nofun (by simp [System.goto]) (by simp [System.goto]) rfl
      ⟨phase, tickets, by simpa [System.goto] using holds.1, holds.2.1⟩
  case unwindTickets.false cert ticket =>
    split at moves <;> simp only [reduceCtorEq, Option.some.injEq] at moves
    subst moves
    exact h.giveUp holds.1 phase tickets (by simp) (by simp) (none_ nofun)
  case unwindCert.false cert | unwindCert.true cert =>
    subst moves
    exact h.giveUp holds.1 phase tickets (by simp) (by simp) (none_ nofun)
  case activate.false g | activate.true g | register.false g | register.true g =>
    subst moves
    exact advance nofun rfl rfl rfl ⟨phase, tickets, holds⟩
  case cleanupCert.false g | cleanupCert.true g =>
    subst moves
    exact advance nofun (by simp [System.goto]) (by simp [System.goto]) rfl
      ⟨phase, tickets, by simpa [System.goto] using holds.1, holds.2⟩
  case cleanupTickets.false g | cleanupTickets.true g =>
    subst moves
    exact h.giveUp holds.1 phase tickets (by simp) (by simp) (none_ nofun)
  case publish.true g =>
    subst moves
    obtain ⟨same, new, lent⟩ := holds
    cases active : entry.active with
    | none => exact h.publish same new.1 rfl rfl (none_ nofun) ⟨.inr rfl, rfl⟩
    | some old =>
      refine h.publish same new.1 rfl rfl (none_ nofun) ⟨phase, tickets, rfl, new, old, active, ?_, ?_⟩
      · exact same ▸ h.known old (same ▸ Server.mem_active active)
      · exact h.undrained old (same ▸ active)
  case beginDrain.false g => simp [drainRefused, at_] at begins
  case beginDrain.true g =>
    obtain ⟨same, new, old, active, known, absent⟩ := holds
    simp only [active, Option.some.injEq] at moves
    subst moves
    refine @Wellformed.beginDrain _ _ _ _ h old (by rw [same]; exact Nat.lt_succ_of_lt known) absent
      ?_ rfl rfl
      (none_ nofun) active ⟨phase, tickets, ⟨g, same, new⟩, old, active, known, ?_, fun d hd differs => ?_⟩
    · rintro _ its
      rw [same] at its
      obtain rfl := Option.some.inj its
      have := new.1
      omega
    · simp [System.goto, System.beginDrain, Finalizer.drains]
    · have drains := h.draining d (by rw [same]; exact hd)
      simp [differs, absent, Finalizer.drains] at drains
  case addDraining.true =>
    subst moves
    obtain ⟨⟨g, same, -⟩, old, active, known, drains, others⟩ := holds
    have draining : w.server.draining = entry.draining := by rw [same]; rfl
    have replaced : w.lifecycle.replaced = some old := by rw [at_]; exact active
    simp only [active, Option.toList_some, System.goto]
    exact {
      known := fun d hd => by
        simp only [Server.currentGenerations, ← List.append_assoc] at hd
        rcases List.mem_append.mp hd with hd | hd
        · exact h.known d hd
        · obtain rfl := List.mem_singleton.mp hd
          show d.id < w.server.nextGenerationId
          rw [same]
          exact Nat.lt_succ_of_lt known
      later := h.later
      unborn := by simp [same, Server.publish]
      undrained := h.undrained
      drains := fun i d at_ => by
        obtain ⟨rfl, found⟩ := h.drains i d at_
        refine ⟨rfl, .inl ?_⟩
        rcases found with found | found
        · exact List.mem_append_left _ found
        · exact List.mem_append_right _ (by simpa using Option.some.inj (found.symm.trans replaced))
      draining := fun d hd => by
        rcases List.mem_append.mp hd with hd | hd
        · exact h.draining d hd
        · obtain rfl := List.mem_singleton.mp hd
          exact drains
      distinct := by
        rw [List.map_append, List.map_singleton, List.nodup_append_comm, List.singleton_append,
          List.nodup_cons, List.mem_map, draining]
        refine ⟨?_, draining ▸ h.distinct⟩
        rintro ⟨d, hd, its⟩
        exact others d hd its
      stage := ⟨.inr (by rw [same]; rfl), by rw [same]; rfl⟩ }

theorem nodup_eraseDups (ids : List ℕ) : ids.eraseDups.Nodup := by
  induction h : ids.length using Nat.strong_induction_on generalizing ids with
  | _ n ih =>
    cases ids with
    | nil => exact List.nodup_nil
    | cons id rest =>
      rw [List.eraseDups_cons]
      refine List.nodup_cons.mpr ⟨by simp [List.mem_eraseDups], ih _ ?_ _ rfl⟩
      have := List.length_filter_le (fun other => !other == id) rest
      rw [List.length_cons] at h
      omega

/-- The lifecycle thread in `stop!`. -/
theorem Wellformed.stopping [DecidableEq π] (h : Wellformed w) (ungated : w.lifecycle.gated = false)
    {ok : Bool} (moves : lifecycleStep w w.lifecycle ok = some v) : Wellformed v := by
  have inside := h.stage
  cases at_ : w.lifecycle <;> rw [at_] at moves ungated inside
  case reload => contradiction
  case idle | threw | halted | closed => simp [lifecycleStep] at moves
  case awaiting gens todo service =>
    obtain ⟨phase, active, draining, finished, known⟩ := inside
    cases ok
    · cases todo <;> simp [lifecycleStep] at moves
    cases todo with
    | nil =>
      simp only [lifecycleStep, Option.some.injEq] at moves
      subst moves
      have empty : w.server.currentGenerations = [] := by
        rw [Server.currentGenerations, active, Option.toList_none, List.nil_append]
        refine List.eq_nil_iff_forall_not_mem.mpr fun d hd => ?_
        have drains := h.draining d hd
        have done := finished d (draining d hd) (by simp)
        cases f : w.finalizer d.id <;> simp_all [Finalizer.drains, Finalizer.finished]
      exact h.advance rfl (fun _ => .refl _) (by rw [at_]; rfl)
        ⟨phase, empty, nodup_eraseDups _, known⟩
    | cons g rest =>
      simp only [lifecycleStep] at moves
      split at moves <;> simp only [reduceCtorEq, Option.some.injEq] at moves <;> subst moves
      · rename_i done
        refine h.advance rfl (fun _ => .refl _) (by rw [at_]; rfl)
          ⟨phase, active, draining, fun d hd gone => ?_, known⟩
        by_cases same : d = g
        · rw [same]
          show (w.finalizer g.id).finished = true
          rw [done]
          rfl
        · exact finished d hd (by simp [same, gone])
      · exact h.advance rfl (fun _ => .refl _) (by rw [at_]; rfl) (.inr ⟨phase, active, draining⟩)
  case stopCerts todo service =>
    obtain ⟨phase, empty, distinct, known⟩ := inside
    cases todo <;> cases ok <;> simp only [lifecycleStep, Bool.false_eq_true, if_true, if_false,
      reduceCtorEq, Option.some.injEq] at moves <;> subst moves
    · exact h.advance rfl (fun _ => .refl _) (by rw [at_]; rfl) ⟨phase, empty, known⟩
    · exact h.advance rfl (fun _ => .refl _) (by rw [at_]; rfl) ⟨phase, empty⟩
    · exact h.advance rfl (fun _ => .refl _) (by rw [at_]; rfl)
        ⟨phase, empty, (List.nodup_cons.mp distinct).2, known⟩
  case stopTickets service =>
    obtain ⟨phase, empty, known⟩ := inside
    cases ok
    · cases service <;> simp only [lifecycleStep, reduceCtorEq, Option.some.injEq] at moves
      subst moves
      obtain ⟨active, draining⟩ := List.append_eq_nil_iff.mp empty
      exact h.advance rfl (fun _ => .refl _) (by rw [at_]; rfl) (.inr ⟨phase,
        Option.toList_eq_nil_iff.mp active, by simp [System.goto, System.stopService, draining]⟩)
    · simp only [lifecycleStep, Option.some.injEq] at moves
      subst moves
      exact h.advance (by simp [System.goto]) (fun _ => by simp [System.goto, Advanced.refl])
        (by rw [at_]; rfl) (by simpa [System.goto, LifecycleOk] using ⟨phase, empty⟩)
  case stopNotifier =>
    cases ok <;> simp only [lifecycleStep, Option.some.injEq, Bool.false_eq_true, if_true, if_false] at moves <;>
      subst moves
    · exact h.advance rfl (fun _ => .refl _) (by rw [at_]; rfl)
        (.inr ⟨inside.1, Option.toList_eq_nil_iff.mp (List.append_eq_nil_iff.mp inside.2).1,
          by simp [System.goto, (List.append_eq_nil_iff.mp inside.2).2]⟩)
    · exact h.advance rfl (fun _ => .refl _) (by rw [at_]; rfl) inside
  case finish =>
    cases ok <;> simp only [lifecycleStep, reduceCtorEq, Option.some.injEq] at moves
    subst moves
    obtain ⟨phase, empty⟩ := inside
    obtain ⟨-, drained⟩ := List.append_eq_nil_iff.mp empty
    have none (i : ℕ) : (w.finalizer i).drains = none := Option.eq_none_iff_forall_ne_some.mpr
      fun d drains => by
        obtain ⟨-, found⟩ := h.drains i d drains
        simp [drained, at_, Lifecycle.replaced] at found
    exact {
      known := by simp [System.goto, Server.stop, Server.currentGenerations]
      later := h.later
      unborn := nofun
      undrained := nofun
      drains := fun i d drains => by
        have := (none i).symm.trans drains
        contradiction
      draining := by simp [System.goto, Server.stop]
      distinct := List.nodup_nil
      stage := rfl }

theorem Wellformed.submit [DecidableEq σ] [DecidableEq π] (h : Wellformed w) {config : Prepared σ π}
    {force : Bool} (moves : step (.submit config force) w = some v) : Wellformed v := by
  have inside := h.stage
  simp only [step] at moves
  split at moves <;> rename_i at_
  · split at moves <;> simp only [reduceCtorEq, Option.some.injEq] at moves
    subst moves
    rw [at_] at inside
    exact h.advance rfl (fun _ => .refl _) (by rw [at_]; rfl) ⟨inside.1, inside.2, rfl⟩
  · contradiction

theorem Wellformed.stop [DecidableEq σ] [DecidableEq π] (h : Wellformed w) {ok : Bool}
    (known : ∀ kind i, w.used kind i → i < w.started kind)
    (moves : step (.stop ok) w = some v) : Wellformed v := by
  have inside := h.stage
  simp only [step] at moves
  split at moves <;> rename_i at_ <;> try contradiction
  split at moves <;> rename_i running <;> simp only [reduceCtorEq, Option.some.injEq] at moves
  rw [at_] at inside
  have replaced : w.lifecycle.replaced = none := by rw [at_]; rfl
  cases ok <;> simp only [Bool.false_eq_true, if_true, if_false] at moves <;> subst moves
  · exact h.advance rfl (fun _ => .refl _) replaced.symm (.inl ⟨running, rfl, inside.2⟩)
  have service (t : TicketService) (memory : w.server.memoryTicketService = some t) :
      t.id < w.started .ticket := by
    have tickets := inside.2
    rw [Server.Tickets, memory, Option.map_some, eq_comm, Option.bind_eq_some_iff] at tickets
    obtain ⟨g, active, its⟩ := tickets
    exact known .ticket t.id (.inl ⟨g, Server.mem_active active, its⟩)
  cases active : w.server.active with
  | none =>
    have draining : w.server.stopping.draining = w.server.draining := by simp [Server.stopping, active]
    have current : w.server.currentGenerations = w.server.draining := by
      simp [Server.currentGenerations, active]
    exact {
      known := fun d hd => h.known d
        (by simpa [System.goto, Server.stopping, Server.currentGenerations, active] using hd)
      later := h.later
      unborn := nofun
      undrained := nofun
      drains := fun i d drains => by
        obtain ⟨same, found⟩ := h.drains i d drains
        exact ⟨same, .inl (by simpa [System.goto, draining] using found.resolve_right (by simp [replaced]))⟩
      draining := fun d hd => h.draining d (by simpa [System.goto, draining] using hd)
      distinct := by simpa [System.goto, draining] using h.distinct
      stage := ⟨rfl, rfl, fun d hd => hd, fun d hd gone => absurd hd gone, service⟩ }
  | some g =>
    have absent := h.undrained g active
    have differs {d : Generation σ π} (hd : d ∈ w.server.draining) : d.id ≠ g.id := fun same => by
      have drains := h.draining d hd
      simp [same, absent, Finalizer.drains] at drains
    have draining : w.server.stopping.draining = w.server.draining ++ [g] := by simp [Server.stopping, active]
    exact {
      known := fun d hd => by
        refine h.known d ?_
        simp only [System.goto, Server.stopping, Server.currentGenerations, Option.toList_none, active,
          Option.toList_some, List.nil_append, List.mem_append] at hd ⊢
        exact hd.symm
      later := fun i le => by
        have below := h.known g (Server.mem_active active)
        have le : w.server.nextGenerationId ≤ i := le
        simp only [System.goto, System.beginDrain, Option.elim_some]
        rw [Function.update_of_ne (by omega)]
        exact h.later i le
      unborn := nofun
      undrained := nofun
      drains := fun i d drains => by
        simp only [System.goto, System.beginDrain, Option.elim_some, draining] at drains ⊢
        by_cases hi : i = g.id
        · subst hi
          rw [Function.update_self] at drains
          obtain rfl := Option.some.inj drains
          exact ⟨rfl, .inl (List.mem_append_right _ (List.mem_singleton_self _))⟩
        · rw [Function.update_of_ne hi] at drains
          obtain ⟨same, found⟩ := h.drains i d drains
          exact ⟨same, .inl (List.mem_append_left _ (found.resolve_right (by simp [replaced])))⟩
      draining := fun d hd => by
        simp only [System.goto, System.beginDrain, Option.elim_some, draining] at hd ⊢
        rcases List.mem_append.mp hd with hd | hd
        · rw [Function.update_of_ne (differs hd)]
          exact h.draining d hd
        · obtain rfl := List.mem_singleton.mp hd
          rw [Function.update_self]
          rfl
      distinct := by
        simp only [System.goto, draining]
        rw [List.map_append, List.map_singleton, List.nodup_append_comm, List.singleton_append,
          List.nodup_cons, List.mem_map]
        refine ⟨?_, h.distinct⟩
        rintro ⟨d, hd, same⟩
        exact differs hd same
      stage := ⟨rfl, rfl, fun d hd => hd, fun d hd gone => absurd hd gone, service⟩ }

theorem Wellformed.step [DecidableEq σ] [DecidableEq π] (h : Wellformed w) (kept : ∀ kind, w.Kept kind)
    {a : Action σ π} (begins : drainRefused a w = false) (moves : step a w = some v) : Wellformed v := by
  cases a with
  | submit config force => exact h.submit moves
  | stop ok => exact h.stop (fun kind i used => (kept kind).known i (.inl used)) moves
  | tick ok =>
    cases gated : w.lifecycle.gated
    · exact h.stopping gated moves
    · cases at_ : w.lifecycle <;> simp_all only [Lifecycle.gated, Bool.false_eq_true]
      exact h.reload kept at_ begins (by simpa [Runtime.step, lifecycleStep, at_] using moves)
  | drained id ok =>
    simp only [Runtime.step] at moves
    split at moves <;> simp only [reduceCtorEq, Option.some.injEq] at moves
    subst moves
    exact h.drained ‹_›
  | finalize id =>
    simp only [Runtime.step] at moves
    split at moves <;> rename_i gated
    · contradiction
    · exact h.finalize (Bool.eq_false_iff.mpr gated) moves
  | finalizerTick id ok => exact h.finalizerStep moves

end Busker.Runtime
