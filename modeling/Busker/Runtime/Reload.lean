import Busker.Runtime.Endings
import Busker.Runtime.Services

/-! What a user of the server can rely on: services outlive their generations and not the
server, a reload happens as a whole or not at all, and a generation that has drained is
gone. -/

namespace Busker.Runtime

open Interleaving

variable {σ π : Type} {w u v : System σ π}

theorem LifecycleOk.stopped (h : LifecycleOk w w.lifecycle) (stopped : w.server.phase = .stopped) :
    w.lifecycle = .closed := by
  cases at_ : w.lifecycle <;> simp only [at_, LifecycleOk] at h
  case reload entry config stage =>
    obtain ⟨phase, -, holds⟩ := h
    cases stage <;> simp only [StageOk] at holds
    case beginDrain => simp [holds.1, Server.publish] at stopped
    case addDraining =>
      obtain ⟨⟨g, same, -⟩, -⟩ := holds
      simp [same, Server.publish] at stopped
    all_goals simp_all
  all_goals simp_all

/-- What a step does to a drain future. Inside the gate none gets past its lock. -/
inductive Progress (gated : Bool) : Finalizer σ π → Finalizer σ π → Prop
  | same (p : Finalizer σ π) : Progress gated p p
  | begins (g : Generation σ π) : Progress gated .absent (.draining g)
  | drained (g : Generation σ π) (ok : Bool) : Progress gated (.draining g) (.finalizing g ok)
  | finalized (free : gated = false) (g : Generation σ π) (cert : Option (CertRuntime π))
      (ticket : Option TicketService) (ok : Bool) :
      Progress gated (.finalizing g ok) (.stopping cert ticket ok)
  | stoppedCert (cert : CertRuntime π) (ticket : Option TicketService) (ok : Bool) :
      Progress gated (.stopping (some cert) ticket ok) (.stopping none ticket ok)
  | stoppedTickets (ticket : TicketService) (ok : Bool) :
      Progress gated (.stopping none (some ticket) ok) (.stopping none none ok)
  | done (ok : Bool) : Progress gated (.stopping none none ok) (.done ok)
  | threw (cert : Option (CertRuntime π)) (ticket : Option TicketService) (ok : Bool) :
      Progress gated (.stopping cert ticket ok) (.done false)

theorem Progress.update {gated : Bool} {finalizer : ℕ → Finalizer σ π} {id : ℕ} {q : Finalizer σ π}
    (h : Progress gated (finalizer id) q) (j : ℕ) :
    Progress gated (finalizer j) (Function.update finalizer id q j) := by
  by_cases hj : j = id
  · subst hj
    rwa [Function.update_self]
  · rw [Function.update_of_ne hj]
    exact .same _

theorem reloadStep_progress [DecidableEq π] {entry : Server σ π} {config : Prepared σ π}
    {stage : Stage σ π} {ok : Bool}
    (h : Wellformed w) (at_ : w.lifecycle = .reload entry config stage)
    (moves : reloadStep w entry config stage ok = some v) (id : ℕ) :
    Progress w.lifecycle.gated (w.finalizer id) (v.finalizer id) := by
  have same (finalizer : v.finalizer = w.finalizer) :
      Progress w.lifecycle.gated (w.finalizer id) (v.finalizer id) := finalizer ▸ .same _
  cases stage <;> cases ok <;> simp only [reloadStep, reduceCtorEq, Bool.false_eq_true, if_true, if_false,
    Option.some.injEq] at moves
  case beginDrain.true g =>
    have inside := h.stage
    rw [at_] at inside
    obtain ⟨-, -, -, -, old, active, -, absent⟩ := inside
    simp only [active, Option.some.injEq] at moves
    subst moves
    exact Progress.update (absent ▸ .begins old) id
  case beginDrain.false g =>
    split at moves <;> simp only [reduceCtorEq, Option.some.injEq] at moves
    subst moves
    exact same rfl
  case acquireCert.false | acquireTickets.false | unwindTickets.false =>
    split at moves <;> simp only [reduceCtorEq, Option.some.injEq] at moves
    subst moves
    exact same (by simp [System.goto, System.giveUp])
  all_goals
    subst moves
    exact same (by simp [System.goto, System.giveUp])

theorem step_progress [DecidableEq σ] [DecidableEq π] {a : Action σ π} (h : Wellformed w)
    (moves : step a w = some v) (id : ℕ) :
    Progress w.lifecycle.gated (w.finalizer id) (v.finalizer id) := by
  have same (finalizer : v.finalizer = w.finalizer) :
      Progress w.lifecycle.gated (w.finalizer id) (v.finalizer id) := finalizer ▸ .same _
  cases a with
  | submit config force =>
    simp only [step] at moves
    split at moves <;> try contradiction
    split at moves <;> simp only [reduceCtorEq, Option.some.injEq] at moves
    subst moves
    exact same rfl
  | stop ok =>
    simp only [step] at moves
    split at moves <;> try contradiction
    split at moves <;> simp only [reduceCtorEq, Option.some.injEq] at moves
    cases ok <;> simp only [Bool.false_eq_true, if_true, if_false] at moves <;> subst moves
    · exact same rfl
    cases active : w.server.active with
    | none => exact .same _
    | some g =>
      simp only [System.goto, Option.elim_some]
      exact Progress.update (h.undrained g active ▸ .begins g) id
  | tick ok =>
    simp only [step] at moves
    cases at_ : w.lifecycle <;> rw [at_] at moves
    case reload entry config stage => exact at_ ▸ reloadStep_progress h at_ moves id
    case awaiting gens todo service =>
      cases todo <;> cases ok <;> simp only [lifecycleStep, reduceCtorEq, Option.some.injEq] at moves
      · subst moves
        exact .same _
      · split at moves <;> simp only [reduceCtorEq, Option.some.injEq] at moves <;> subst moves <;>
          exact .same _
    case stopCerts todo service =>
      cases todo <;> cases ok <;> simp only [lifecycleStep, reduceCtorEq, Option.some.injEq] at moves <;>
        subst moves <;> exact .same _
    case stopTickets service =>
      cases ok <;> cases service <;> simp only [lifecycleStep, reduceCtorEq, Option.some.injEq] at moves <;>
        subst moves <;> exact .same _
    all_goals
      cases ok <;> simp only [lifecycleStep, reduceCtorEq, Option.some.injEq] at moves <;> subst moves <;>
        exact .same _
  | drained j ok =>
    simp only [step] at moves
    split at moves <;> rename_i at_ <;> simp only [reduceCtorEq, Option.some.injEq] at moves
    subst moves
    exact Progress.update (at_ ▸ .drained _ ok) id
  | finalize j =>
    simp only [step] at moves
    split at moves <;> rename_i gated
    · contradiction
    cases at_ : w.finalizer j <;> simp only [at_, finalizeStep, reduceCtorEq, Option.some.injEq] at moves
    subst moves
    exact Progress.update (at_ ▸ .finalized (Bool.eq_false_iff.mpr gated) ..) id
  | finalizerTick j returns =>
    simp only [step] at moves
    cases at_ : w.finalizer j
    case stopping cert ticket ok =>
      cases cert <;> cases ticket <;> cases returns <;>
        simp only [at_, finalizerStep, reduceCtorEq, Option.some.injEq] at moves <;> subst moves
      · exact Progress.update (at_ ▸ .done ok) id
      · exact Progress.update (at_ ▸ .threw ..) id
      · exact Progress.update (at_ ▸ .stoppedTickets ..) id
      · exact Progress.update (at_ ▸ .threw ..) id
      · exact Progress.update (at_ ▸ .stoppedCert ..) id
      · exact Progress.update (at_ ▸ .threw ..) id
      · exact Progress.update (at_ ▸ .stoppedCert ..) id
    all_goals simp [at_, finalizerStep] at moves

/-- Has taken its generation out of the state. -/
def Finalizer.past : Finalizer σ π → Bool
  | .stopping _ _ _ | .done _ => true
  | _ => false

theorem Progress.past {gated : Bool} {p q : Finalizer σ π} (h : Progress gated p q)
    (past : p.past = true) : q.past = true := by
  cases h <;> first | exact past | rfl

/-- The state after a reload, or after `start!`, that went through. -/
def Server.replace (entry : Server σ π) (g : Generation σ π) : Server σ π :=
  { entry.publish g with draining := entry.draining ++ entry.active.toList }

/-- The lifecycle thread is back from a reload that threw, or from one that went through. -/
inductive Returned (entry : Server σ π) (config : Prepared σ π) (w : System σ π) : Prop
  | threw (idle : w.lifecycle = .idle ∨ w.lifecycle = .closed) (same : w.server = entry)
  | activated (idle : w.lifecycle = .idle) (g : Generation σ π) (new : g.id = entry.nextGenerationId)
      (submitted : g.config = config.snapshot) (replaced : w.server = entry.replace g)

theorem Returned.ungated {entry : Server σ π} {config : Prepared σ π} (h : Returned entry config w) :
    w.lifecycle.gated = false := by
  rcases h with ⟨idle | closed, -⟩ | ⟨idle, -⟩
  · rw [idle]
    rfl
  · rw [closed]
    rfl
  · rw [idle]
    rfl

theorem Returned.giveUp {entry : Server σ π} {config : Prepared σ π} (same : w.server = entry) :
    Returned entry config (w.giveUp entry) := by
  refine .threw ?_ same
  unfold System.giveUp
  split
  · exact .inr rfl
  · exact .inl rfl

theorem reloadStep_returned [DecidableEq π] {entry : Server σ π} {config : Prepared σ π} {stage : Stage σ π}
    {ok : Bool} (holds : StageOk w entry config stage) (moves : reloadStep w entry config stage ok = some v) :
    (∃ next, v.lifecycle = .reload entry config next) ∨ Returned entry config v := by
  cases stage <;> cases ok <;> simp only [reloadStep, reduceCtorEq, Bool.false_eq_true, if_true, if_false,
    Option.some.injEq] at moves
  case compile.false =>
    subst moves
    exact .inr (.giveUp holds)
  case acquireCert.false =>
    split at moves <;> simp only [reduceCtorEq, Option.some.injEq] at moves
    subst moves
    exact .inr (.giveUp holds)
  case acquireTickets.false =>
    split at moves <;> simp only [reduceCtorEq, Option.some.injEq] at moves
    subst moves
    exact .inl ⟨_, rfl⟩
  case unwindTickets.false =>
    split at moves <;> simp only [reduceCtorEq, Option.some.injEq] at moves
    subst moves
    exact .inr (.giveUp (by simpa using holds.1))
  case unwindCert.false | unwindCert.true | cleanupTickets.false | cleanupTickets.true =>
    subst moves
    exact .inr (.giveUp (by simpa using holds.1))
  case publish.true g =>
    subst moves
    obtain ⟨same, ⟨new, submitted⟩, -⟩ := holds
    cases active : entry.active with
    | none =>
      refine .inr (.activated rfl g new submitted ?_)
      simp [System.goto, Server.replace, Server.publish, active]
    | some old => exact .inl ⟨.beginDrain g, rfl⟩
  case beginDrain.false g | beginDrain.true g =>
    split at moves <;> simp only [reduceCtorEq, Option.some.injEq] at moves
    subst moves
    exact .inl ⟨_, rfl⟩
  case addDraining.true =>
    subst moves
    obtain ⟨⟨g, same, new, submitted⟩, -⟩ := holds
    exact .inr (.activated rfl g new submitted (by simp [System.goto, Server.replace, Server.publish, same]))
  all_goals
    subst moves
    exact .inl ⟨_, rfl⟩

theorem Progress.closing {gated : Bool} {p q : Finalizer σ π} (h : Progress gated p q) (held : gated = true)
    {kind : Kind} {i : ℕ} (closes : q.closing kind = some i) : p.closing kind = some i := by
  cases h <;> cases kind <;> simp_all [Finalizer.closing]

variable [DecidableEq σ] [DecidableEq π]

instance (a : Action σ π) (w : System σ π) : Decidable (begins a w) :=
  inferInstanceAs (Decidable (_ = _))

/-- A site with a managed certificate and session tickets. -/
def site (snapshot plan : ℕ) : Prepared ℕ ℕ := ⟨snapshot, some plan, some ⟨60000, 3⟩⟩

def startSite : List (Action ℕ ℕ) := .submit (site 1 7) false :: List.replicate 6 (.tick true)

/-- The new generation shares the services of the first. -/
def reloadSite : List (Action ℕ ℕ) := .submit (site 2 7) false :: List.replicate 9 (.tick true)

def drainFirst : List (Action ℕ ℕ) := [.drained 1 true, .finalize 1, .finalizerTick 1 true]

def siteAfter (schedule : List (Action ℕ ℕ)) : System ℕ ℕ :=
  (machine ℕ ℕ).runFromVia begins schedule unstarted

theorem siteAfter_reachable (schedule : List (Action ℕ ℕ)) :
    (machine ℕ ℕ).ReachableVia begins (siteAfter schedule) :=
  Machine.ReachableVia.runFromVia _ (.init rfl)

/-- No generation loses a service it uses, and no certificate runtime is stopped twice. -/
theorem services_outlive (h : (machine σ π).ReachableVia begins w) :
    (∀ g ∈ w.server.currentGenerations, ∀ kind i, g.service kind = some i →
      i < w.started kind ∧ i ∉ w.stopped kind ∧ ∀ id, (w.finalizer id).closing kind ≠ some i) ∧
    (w.stopped .cert).Nodup := by
  have kept := (consistent_of_reachable h).kept
  refine ⟨fun g hg kind i its => ?_, ((kept .cert).once rfl).sublist (stopped_sublist w .cert)⟩
  have used : w.used kind i := .inl ⟨g, hg, its⟩
  obtain ⟨calm, running⟩ := (kept kind).apart i used
  exact ⟨(kept kind).known i (.inl used), fun gone => running ((stopped_sublist w kind).subset gone),
    fun id => calm (some id)⟩

/-- Service 0 of either kind is used by the active and by the draining generation. -/
theorem services_outlive_reloaded :
    0 ∉ (siteAfter (startSite ++ reloadSite)).stopped .cert ∧
      0 ∉ (siteAfter (startSite ++ reloadSite)).stopped .ticket :=
  have outlive := (services_outlive (siteAfter_reachable (startSite ++ reloadSite))).1
    ⟨2, 2, some 7, some ⟨0, 7⟩, some ⟨0, ⟨60000, 3⟩⟩⟩ List.mem_cons_self
  ⟨(outlive .cert 0 rfl).2.1, (outlive .ticket 0 rfl).2.1⟩

/-- Once the server is stopped, a service that was ever started has been stopped, or a drain
future that finished with its generation before `stop!` is about to stop it, or an exception of
stopping one of the other kind has passed it over. -/
theorem services_stopped (h : (machine σ π).ReachableVia begins w) (stopped : w.server.phase = .stopped)
    (kind : Kind) (i : ℕ) (started : i < w.started kind) :
    i ∈ w.stopped kind ∨ (∃ id, (w.finalizer id).closing kind = some i) ∨
      (i, .skipped) ∈ w.ends kind ∧ ∃ other j, kind ≠ other ∧ (j, .threw) ∈ w.ends other := by
  obtain ⟨formed, kept⟩ := consistent_of_reachable h
  have closed := formed.stage.stopped stopped
  have empty : w.server.currentGenerations = [] := by
    have stage := formed.stage
    rwa [closed] at stage
  rcases (kept kind).kept i started with used | ⟨k, closes⟩ | gone
  · cases kind <;> simp [System.used, empty, closed, Lifecycle.uses] at used
  · cases k with
    | none => cases kind <;> simp [System.closing, closed, Lifecycle.closing] at closes
    | some id => exact .inr (.inl ⟨id, closes⟩)
  · exact (stopped_or_skipped gone).imp_right fun skipped =>
      .inr ⟨skipped, blamed_of_reachable h.reachable kind i skipped⟩

/-- The first generation drains while the second runs, with a certificate runtime that does not
let itself be stopped. The server then stops. -/
def throwingSite : List (Action ℕ ℕ) :=
  startSite ++ .submit ⟨2, some 8, none⟩ false :: List.replicate 9 (.tick true) ++
    [.drained 1 true, .finalize 1, .finalizerTick 1 false] ++
    [.stop true, .drained 2 true, .finalize 2, .finalizerTick 2 true] ++ List.replicate 7 (.tick true)

theorem services_stopped_site :
    0 ∈ (siteAfter throwingSite).stopped .ticket ∨
      (∃ id, ((siteAfter throwingSite).finalizer id).closing .ticket = some 0) ∨
      (0, .skipped) ∈ (siteAfter throwingSite).ends .ticket ∧
        ∃ other j, Kind.ticket ≠ other ∧ (j, .threw) ∈ (siteAfter throwingSite).ends other :=
  services_stopped (siteAfter_reachable throwingSite) rfl .ticket 0 (by decide)

/-- A drain future runs for exactly the generations that are draining, and no two current
generations have the same number. -/
theorem draining_iff (h : (machine σ π).ReachableVia begins w) :
    (w.server.currentGenerations.map (·.id)).Nodup ∧
    ∀ g, g ∈ w.server.draining ∨ w.lifecycle.replaced = some g ↔
      (w.finalizer g.id).drains = some g := by
  have formed := (consistent_of_reachable h).formed
  constructor
  · rw [Server.currentGenerations, List.map_append]
    refine List.nodup_append.mpr ⟨by cases w.server.active <;> simp, formed.distinct, ?_⟩
    intro i active j draining same
    obtain ⟨g, hg, rfl⟩ := List.mem_map.mp active
    obtain ⟨d, hd, rfl⟩ := List.mem_map.mp draining
    have drains := formed.draining d hd
    rw [← same, formed.undrained g (by simpa using hg)] at drains
    contradiction
  · refine fun g => ⟨fun found => ?_, fun drains => (formed.drains g.id g drains).2⟩
    rcases found with draining | replaced
    · exact formed.draining g draining
    · have stage := formed.stage
      cases at_ : w.lifecycle <;> simp only [at_, Lifecycle.replaced] at replaced
      case reload entry config stage' =>
        cases stage' <;> simp only [reduceCtorEq] at replaced
        rw [at_] at stage
        obtain ⟨-, -, -, old, active, -, drains, -⟩ := stage
        obtain rfl := Option.some.inj (replaced.symm.trans active)
        exact drains
      all_goals contradiction

theorem draining_iff_reloaded :
    ((siteAfter (startSite ++ reloadSite)).server.currentGenerations.map (·.id)).Nodup ∧
    ∀ g, g ∈ (siteAfter (startSite ++ reloadSite)).server.draining ∨
      (siteAfter (startSite ++ reloadSite)).lifecycle.replaced = some g ↔
      ((siteAfter (startSite ++ reloadSite)).finalizer g.id).drains = some g :=
  draining_iff (siteAfter_reachable _)

/-- A generation whose drain future has taken it out of the state is in no later state. -/
theorem drained_for_good (h : (machine σ π).ReachableVia begins w) {id : ℕ}
    (past : (w.finalizer id).past = true) {schedule : List (Action σ π)}
    (moves : (machine σ π).runVia begins schedule w = some v) :
    ∀ g ∈ v.server.currentGenerations, g.id ≠ id := by
  have after : Consistent v ∧ (v.finalizer id).past = true := by
    refine Machine.runVia_invariant (I := fun u => Consistent u ∧ (u.finalizer id).past = true)
      (fun a s t ⟨consistent, past⟩ begins moves => ?_) ⟨consistent_of_reachable h, past⟩ moves
    exact ⟨consistent.step begins moves, (step_progress consistent.formed moves id).past past⟩
  obtain ⟨⟨formed, -⟩, past⟩ := after
  rintro g hg rfl
  rcases List.mem_append.mp hg with active | draining
  · simp [formed.undrained g (by simpa using active), Finalizer.past] at past
  · have drains := formed.draining g draining
    cases at_ : v.finalizer g.id <;> simp_all [Finalizer.drains, Finalizer.past]

def reloadAgain : List (Action ℕ ℕ) := .submit (site 3 8) false :: List.replicate 9 (.tick true)

theorem drained_for_good_reloaded :
    1 ∉ ((machine ℕ ℕ).runFromVia begins reloadAgain
      (siteAfter (startSite ++ reloadSite ++ drainFirst))).server.currentGenerations.map (·.id) := by
  intro found
  obtain ⟨g, current, same⟩ := List.mem_map.mp found
  exact @drained_for_good ℕ ℕ _ _ _ _ (siteAfter_reachable (startSite ++ reloadSite ++ drainFirst)) 1 rfl
    reloadAgain (Machine.runVia_of_isSome rfl) g current same

/-- The steps from the submission of a reload to its return. -/
def withinReload (a : Action σ π) (w : System σ π) : Prop := begins a w ∧ w.lifecycle.gated = true

instance (a : Action σ π) (w : System σ π) : Decidable (withinReload a w) :=
  inferInstanceAs (Decidable (_ ∧ _))

/-- A certificate runtime started since `w` is passed over only where the stop of a ticket
service started since has thrown. -/
structure Passed (w u : System σ π) (kind : Kind) (i : ℕ) : Prop where
  cert : kind = .cert
  skipped : (i, .skipped) ∈ u.ends kind
  threw : ∃ j, w.started .ticket ≤ j ∧ (j, .threw) ∈ u.ends .ticket

/-- A reload of `w` under way. -/
structure Attempt (w : System σ π) (config : Prepared σ π) (u : System σ π) : Prop where
  consistent : Consistent u
  closing : ∀ id kind i, (u.finalizer id).closing kind = some i → i < w.started kind
  outcome : (∃ stage, u.lifecycle = .reload w.server config stage) ∨ Returned w.server config u
  grown : w.started .ticket ≤ u.started .ticket
  fresh : ∀ stage, u.lifecycle = .reload w.server config stage →
    ∀ j, stage.freshTicket = some j → w.started .ticket ≤ j
  passed : ∀ kind i, (i, .skipped) ∈ u.ends kind → w.started kind ≤ i → Passed w u kind i

omit [DecidableEq σ] [DecidableEq π] in
/-- What is passed over in a step of the attempt. -/
theorem Attempt.passes {config : Prepared σ π} (h : Attempt w config u) (ended : Ended u v.ends)
    (new : ∀ kind i, (i, .skipped) ∈ v.ends kind → w.started kind ≤ i → (i, .skipped) ∈ u.ends kind ∨
      kind = .cert ∧ ∃ j, w.started .ticket ≤ j ∧ (j, .threw) ∈ v.ends .ticket) :
    ∀ kind i, (i, .skipped) ∈ v.ends kind → w.started kind ≤ i → Passed w v kind i := by
  intro kind i mem newer
  rcases new kind i mem newer with old | ⟨cert, threw⟩
  · obtain ⟨cert, -, j, above, threw⟩ := h.passed kind i old newer
    exact ⟨cert, mem, j, above, ended.mono threw⟩
  · exact ⟨cert, mem, threw⟩

theorem Attempt.step {config : Prepared σ π} {a : Action σ π} (h : Attempt w config u)
    (within : withinReload a u) (moves : step a u = some v) : Attempt w config v := by
  obtain ⟨begins, gated⟩ := within
  obtain ⟨stage, at_⟩ := h.outcome.resolve_right fun returned => by simp [returned.ungated] at gated
  have progress := step_progress h.consistent.formed moves
  have ended := step_ended moves
  have consistent := h.consistent.step begins moves
  have closing : ∀ id kind i, (v.finalizer id).closing kind = some i → i < w.started kind :=
    fun id kind i closes => h.closing id kind i ((progress id).closing gated closes)
  have future (lifecycle : v.lifecycle = u.lifecycle) (started : v.started = u.started)
      (new : ∀ kind i, (i, .skipped) ∈ v.ends kind → w.started kind ≤ i → (i, .skipped) ∈ u.ends kind) :
      Attempt w config v :=
    ⟨consistent, closing, .inl ⟨stage, lifecycle.trans at_⟩, by rw [started]; exact h.grown,
      fun next at_ => h.fresh next (lifecycle.symm.trans at_),
      h.passes ended fun kind i mem newer => .inl (new kind i mem newer)⟩
  cases a with
  | submit | stop => simp [Runtime.step, at_] at moves
  | tick ok =>
    have holds := h.consistent.formed.stage
    simp only [Runtime.step] at moves
    rw [at_] at holds moves
    have fresh := h.fresh stage at_
    refine ⟨consistent, closing, reloadStep_returned holds.2.2 moves,
      h.grown.trans (reloadStep_started moves .ticket),
      fun next after => reloadStep_fresh moves h.grown fresh after, h.passes ended fun kind i mem _ => ?_⟩
    rcases reloadStep_skipped moves mem with old | ⟨cert, j, its, threw⟩
    · exact .inl old
    · exact .inr ⟨cert, j, fresh j its, threw⟩
  | drained id ok =>
    simp only [Runtime.step] at moves
    split at moves <;> simp only [reduceCtorEq, Option.some.injEq] at moves
    subst moves
    exact future rfl rfl fun kind i mem _ => mem
  | finalize id => simp [Runtime.step, gated] at moves
  | finalizerTick id ok =>
    simp only [Runtime.step] at moves
    obtain ⟨_, _, _, _, _, finalized⟩ := finalizerStep_finalized moves
    refine future finalized.lifecycle finalized.started fun kind i mem newer => ?_
    rcases finalizerStep_skipped moves mem with old | closes
    · exact old
    · exact absurd (h.closing id kind i closes) (Nat.not_lt.mpr newer)

/-- A reload happens as a whole or not at all. If it throws, the state is the one it found
and every service started for it has been stopped, or passed over where stopping the other threw;
otherwise the submitted configuration is active under a new number and the generation before it
is draining. -/
theorem reload_atomic (h : (machine σ π).ReachableVia begins w) {config : Prepared σ π} {force : Bool}
    (submitted : step (.submit config force) w = some u) {schedule : List (Action σ π)}
    (moves : (machine σ π).runVia withinReload schedule u = some v) (back : v.lifecycle.gated = false) :
    v.server = w.server ∧ (∀ kind i, w.started kind ≤ i → i < v.started kind →
      i ∈ v.stopped kind ∨ Passed w v kind i) ∨
    ∃ g : Generation σ π, g.id = w.server.nextGenerationId ∧ g.config = config.snapshot ∧
      v.server = w.server.replace g := by
  have before := consistent_of_reachable h
  have start : Attempt w config u := by
    refine ⟨before.step rfl submitted, fun id kind i closes => ?_, ?_, ?_, ?_, fun kind i mem newer => ?_⟩ <;>
      simp only [step] at submitted <;> split at submitted <;> try contradiction
    all_goals
      split at submitted <;> simp only [reduceCtorEq, Option.some.injEq] at submitted
      subst submitted
    · exact (before.kept kind).known i (.inr (.inl ⟨some id, closes⟩))
    · exact .inl ⟨.compile, rfl⟩
    · exact le_rfl
    · intro stage at_
      obtain ⟨-, -, rfl⟩ := Lifecycle.reload.inj at_
      rintro i ⟨⟩
    · exact absurd ((before.kept kind).known i (.inr (.inr (List.mem_map.mpr ⟨_, mem, rfl⟩))))
        (Nat.not_lt.mpr newer)
  have attempt := Machine.runVia_invariant (I := Attempt w config)
    (fun a s t attempt within moves => attempt.step within moves) start moves
  rcases attempt.outcome with ⟨stage, at_⟩ | ⟨idle, same⟩ | ⟨-, g, new, config, replaced⟩
  · simp [at_, Lifecycle.gated] at back
  · refine .inl ⟨same, fun kind i newer started => ?_⟩
    rcases (attempt.consistent.kept kind).kept i started with used | ⟨k, closes⟩ | settled
    · have used : ∃ g ∈ w.server.currentGenerations, g.service kind = some i := by
        rcases idle with idle | closed <;> cases kind <;>
          simpa [System.used, *, Lifecycle.uses] using used
      exact absurd ((before.kept kind).known i (.inl (.inl used))) (Nat.not_lt.mpr newer)
    · cases k with
      | none => rcases idle with idle | closed <;> cases kind <;>
          simp [System.closing, *, Lifecycle.closing] at closes
      | some id => exact absurd (attempt.closing id kind i closes) (Nat.not_lt.mpr newer)
    · exact (stopped_or_skipped settled).imp_right fun skipped => attempt.passed kind i skipped newer
  · exact .inr ⟨g, new, config, replaced⟩

/-- A reload with a new managed plan whose transports cannot be activated. -/
def failedReload : List (Action ℕ ℕ) :=
  List.replicate 4 (.tick true) ++ [.tick false] ++ List.replicate 2 (.tick true)

theorem reload_atomic_failed :
    (siteAfter (startSite ++ .submit (site 2 8) false :: failedReload)).server =
        (siteAfter startSite).server ∧
      (∀ kind i, (siteAfter startSite).started kind ≤ i →
        i < (siteAfter (startSite ++ .submit (site 2 8) false :: failedReload)).started kind →
        i ∈ (siteAfter (startSite ++ .submit (site 2 8) false :: failedReload)).stopped kind ∨
          Passed (siteAfter startSite) (siteAfter (startSite ++ .submit (site 2 8) false :: failedReload))
            kind i) ∨
    ∃ g : Generation ℕ ℕ, g.id = (siteAfter startSite).server.nextGenerationId ∧ g.config = 2 ∧
      (siteAfter (startSite ++ .submit (site 2 8) false :: failedReload)).server =
        (siteAfter startSite).server.replace g :=
  @reload_atomic ℕ ℕ _ _ _ _ _ (siteAfter_reachable startSite) (site 2 8) false rfl failedReload rfl rfl

/-- A candidate that is active is torn down. -/
structure Torn (entry : Server σ π) (config : Prepared σ π) (g : Generation σ π) (w : System σ π) : Prop where
  server : w.server = entry.publish g
  cleanup : w.lifecycle = .reload entry config (.cleanupCert g) ∨
    w.lifecycle = .reload entry config (.cleanupTickets g) ∧
      (∀ i, g.own entry .cert = some i → i ∈ w.stopped .cert) ∨
    w.lifecycle.gated = false ∧ ∀ kind i, g.own entry kind = some i → i ∈ w.stopped kind

theorem Torn.step {entry : Server σ π} {config : Prepared σ π} {g : Generation σ π} {a : Action σ π}
    (h : Torn entry config g w) (gated : w.lifecycle.gated = true) (moves : step a w = some v) :
    Torn entry config g v := by
  obtain ⟨server, cleanup⟩ := h
  cases a with
  | submit | stop => cases at_ : w.lifecycle <;> simp_all [Runtime.step, Lifecycle.gated]
  | tick ok =>
    simp only [Runtime.step] at moves
    rcases cleanup with at_ | ⟨at_, cert⟩ | ⟨free, -⟩
    · rw [at_] at moves
      simp only [lifecycleStep, reloadStep, Option.some.injEq] at moves
      subst moves
      exact ⟨by simpa [System.goto] using server,
        .inr (.inl ⟨rfl, fun i its => System.mem_stopOptional_self its⟩)⟩
    · rw [at_] at moves
      simp only [lifecycleStep, reloadStep, Option.some.injEq] at moves
      subst moves
      refine ⟨by simpa [System.giveUp, System.goto] using server, .inr (.inr ⟨?_, fun kind i its => ?_⟩)⟩
      · unfold System.giveUp
        split <;> rfl
      · cases kind with
        | cert => exact System.mem_stopOptional (cert i its)
        | ticket => exact System.mem_stopOptional_self its
    · simp [free] at gated
  | drained id ok =>
    simp only [Runtime.step] at moves
    split at moves <;> simp only [reduceCtorEq, Option.some.injEq] at moves
    subst moves
    exact ⟨server, cleanup⟩
  | finalize id => simp [Runtime.step, gated] at moves
  | finalizerTick id ok =>
    have grown {kind : Kind} {i : ℕ} (its : i ∈ w.stopped kind) : i ∈ v.stopped kind :=
      (step_ended moves).stopped its
    obtain ⟨_, _, _, _, _, finalized⟩ := finalizerStep_finalized moves
    refine ⟨finalized.server.trans server, ?_⟩
    rw [finalized.lifecycle]
    exact cleanup.imp_right (Or.imp (And.imp_right fun cert i its => grown (cert i its))
      (And.imp_right fun all kind i its => grown (all kind i its)))

/-- What the runs above leave out. If `begin-drain!` of the replaced generation throws, its
successor stays active with its own services stopped, and the replaced generation is neither
active nor draining. -/
theorem reload_torn (h : (machine σ π).ReachableVia begins w) {entry : Server σ π} {config : Prepared σ π}
    {g : Generation σ π} (at_ : w.lifecycle = .reload entry config (.beginDrain g))
    (refused : step (.tick false) w = some u) {schedule : List (Action σ π)}
    (moves : (machine σ π).runVia (fun _ s => s.lifecycle.gated = true) schedule u = some v)
    (back : v.lifecycle.gated = false) :
    v.server.active = some g ∧ (∀ kind i, g.own entry kind = some i → i ∈ v.stopped kind) ∧
      ∃ old, entry.active = some old ∧ old ∉ v.server.currentGenerations := by
  have formed := (consistent_of_reachable h).formed
  have inside := formed.stage
  rw [at_] at inside
  obtain ⟨-, -, same, ⟨new, -⟩, old, active, known, absent⟩ := inside
  simp only [step, at_, lifecycleStep, reloadStep, active, Bool.false_eq_true, if_false,
    Option.some.injEq] at refused
  subst refused
  obtain ⟨server, cleanup⟩ := Machine.runVia_invariant (m := machine σ π) (I := Torn entry config g)
    (fun a s t torn gated moves => torn.step gated moves)
    (s := w.goto (.reload entry config (.cleanupCert g))) ⟨same, .inl rfl⟩ moves
  refine ⟨by rw [server]; rfl, ?_, old, active, fun current => ?_⟩
  · rcases cleanup with cleanup | ⟨cleanup, -⟩ | ⟨-, stopped⟩
    · simp [cleanup, Lifecycle.gated] at back
    · simp [cleanup, Lifecycle.gated] at back
    · exact stopped
  · rw [server] at current
    rcases List.mem_append.mp current with current | draining
    · obtain rfl : old = g := by simpa [Server.publish] using current
      omega
    · have drains := formed.draining old (by rw [same]; exact draining)
      simp [absent, Finalizer.drains] at drains

/-- The drain of the first generation is refused after the second is published. -/
def refusedDrain : List (Action ℕ ℕ) :=
  startSite ++ .submit (site 2 8) false :: List.replicate 7 (.tick true)

def second : Generation ℕ ℕ := ⟨2, 2, some 8, some ⟨1, 8⟩, some ⟨0, ⟨60000, 3⟩⟩⟩

def refused : System ℕ ℕ := (step (.tick false) (siteAfter refusedDrain)).getD unstarted

def torn : System ℕ ℕ :=
  (machine ℕ ℕ).runFromVia (fun _ s => s.lifecycle.gated = true) (List.replicate 2 (.tick true)) refused

theorem reload_torn_second : torn.server.active = some second ∧ 1 ∈ torn.stopped .cert :=
  have drain : step (.tick false) (siteAfter refusedDrain) = some refused := rfl
  have ⟨active, stopped, _⟩ := @reload_torn ℕ ℕ _ _ _ _ _ (siteAfter_reachable refusedDrain)
    (siteAfter startSite).server (site 2 8) second rfl drain (List.replicate 2 (.tick true))
    (Machine.runVia_of_isSome rfl) rfl
  ⟨active, stopped .cert 1 rfl⟩

end Busker.Runtime
