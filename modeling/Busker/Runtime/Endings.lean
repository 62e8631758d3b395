import Busker.Runtime.Services

/-! The history of stops: what one step adds to it, and that a service is passed over only where
the stop of another has thrown. -/

namespace Busker.Runtime

open Interleaving

variable {σ π : Type} {w u v : System σ π}

/-- What a step adds to the history of stops: nothing, a call, or a call that threw and a
service of the other kind that is passed over. -/
inductive Ended (w : System σ π) : (Kind → List (ℕ × Ending)) → Prop
  | nothing : Ended w w.ends
  | called (kind : Kind) (id : ℕ) (ok : Bool) : Ended w (w.stopService kind id (.of ok)).ends
  | passed (kind other : Kind) (differs : kind ≠ other) (id : ℕ) (service : Option ℕ) :
      Ended w ((w.stopService other id .threw).stopOptional kind service .skipped).ends

theorem Ended.optional (w : System σ π) (kind : Kind) (service : Option ℕ) (ok : Bool) :
    Ended w (w.stopOptional kind service (.of ok)).ends := by
  cases service with
  | none => exact .nothing
  | some id => exact .called kind id ok

@[simp] theorem giveUp_ends (w : System σ π) (entry : Server σ π) : (w.giveUp entry).ends = w.ends := rfl

@[simp] theorem goto_ends (w : System σ π) (l : Lifecycle σ π) : (w.goto l).ends = w.ends := rfl

theorem reloadStep_ended [DecidableEq π] {entry : Server σ π} {config : Prepared σ π}
    {stage : Stage σ π} {ok : Bool} (moves : reloadStep w entry config stage ok = some v) :
    Ended w v.ends := by
  cases stage <;> cases ok <;> simp only [reloadStep, reduceCtorEq, Bool.false_eq_true, if_true, if_false,
    Option.some.injEq] at moves
  case unwindTickets.false cert ticket =>
    obtain ⟨some_, same⟩ := Option.ite_none_right_eq_some.mp moves
    obtain ⟨fresh, new⟩ := Option.isSome_iff_exists.mp some_
    obtain rfl := Option.some.inj same
    rw [new]
    exact .passed .cert .ticket (by decide) fresh.id _
  case unwindTickets.true | unwindCert.true | cleanupCert.true | cleanupTickets.true =>
    subst moves
    exact .optional w _ _ true
  case unwindCert.false | cleanupCert.false | cleanupTickets.false =>
    subst moves
    exact .optional w _ _ false
  case acquireCert.false | acquireTickets.false | beginDrain.false | beginDrain.true =>
    split at moves <;> simp only [reduceCtorEq, Option.some.injEq] at moves
    subst moves
    exact .nothing
  all_goals
    subst moves
    simp only [goto_ends, giveUp_ends, System.startIf_ends]
    exact .nothing

theorem finalizerStep_ended {id : ℕ} {p : Finalizer σ π} {returns : Bool}
    (moves : finalizerStep w id p returns = some v) : Ended w v.ends := by
  cases p
  case stopping cert ticket ok =>
    cases cert <;> cases ticket <;> cases returns <;>
      simp only [finalizerStep, reduceCtorEq, Option.some.injEq] at moves <;> subst moves
    · exact .nothing
    · exact .called .ticket _ false
    · exact .called .ticket _ true
    · exact .passed .ticket .cert (by decide) _ none
    · exact .called .cert _ true
    · exact .passed .ticket .cert (by decide) _ (some _)
    · exact .called .cert _ true
  all_goals simp [finalizerStep] at moves

theorem lifecycleStep_ended [DecidableEq π] {l : Lifecycle σ π} {ok : Bool}
    (moves : lifecycleStep w l ok = some v) : Ended w v.ends := by
  cases l
  case reload entry config stage => exact reloadStep_ended moves
  case awaiting gens todo service =>
    cases todo <;> cases ok <;> simp only [lifecycleStep, reduceCtorEq, Option.some.injEq] at moves
    · subst moves
      exact .nothing
    · split at moves <;> simp only [reduceCtorEq, Option.some.injEq] at moves <;> subst moves <;> exact .nothing
  case stopCerts todo service =>
    cases todo <;> cases ok <;> simp only [lifecycleStep, reduceCtorEq, Option.some.injEq] at moves <;>
      subst moves
    · exact .nothing
    · exact .called .cert _ false
    · exact .called .cert _ true
  case stopTickets service =>
    cases ok <;> cases service <;> simp only [lifecycleStep, reduceCtorEq, Option.some.injEq] at moves <;>
      subst moves
    · exact .called .ticket _ false
    · exact .nothing
    · exact .called .ticket _ true
  all_goals
    cases ok <;> simp only [lifecycleStep, reduceCtorEq, Option.some.injEq] at moves <;> subst moves <;>
      exact .nothing

theorem step_ended [DecidableEq σ] [DecidableEq π] {a : Action σ π} (moves : step a w = some v) :
    Ended w v.ends := by
  cases a with
  | tick ok => exact lifecycleStep_ended moves
  | finalizerTick id ok => exact finalizerStep_ended moves
  | submit config force =>
    simp only [step] at moves
    split at moves <;> try contradiction
    split at moves <;> simp only [reduceCtorEq, Option.some.injEq] at moves
    subst moves
    exact .nothing
  | stop ok =>
    simp only [step] at moves
    split at moves <;> try contradiction
    split at moves <;> simp only [reduceCtorEq, Option.some.injEq] at moves
    cases ok <;> simp only [Bool.false_eq_true, if_true, if_false] at moves <;> subst moves
    · exact .nothing
    · cases active : w.server.active <;> exact .nothing
  | drained id ok =>
    simp only [step] at moves
    split at moves <;> simp only [reduceCtorEq, Option.some.injEq] at moves
    subst moves
    exact .nothing
  | finalize id =>
    simp only [step] at moves
    split at moves <;> try contradiction
    cases at_ : w.finalizer id <;> simp only [at_, finalizeStep, reduceCtorEq, Option.some.injEq] at moves
    subst moves
    exact .nothing

/-- The history only grows. -/
theorem Ended.mono {ends : Kind → List (ℕ × Ending)} (h : Ended w ends) {kind : Kind} {e : ℕ × Ending}
    (mem : e ∈ w.ends kind) : e ∈ ends kind := by
  have one (u : System σ π) (other : Kind) (id : ℕ) (ending : Ending) (mem : e ∈ u.ends kind) :
      e ∈ (u.stopService other id ending).ends kind := by
    by_cases same : kind = other
    · subst same
      simp only [System.stopService, Function.update_self]
      exact List.mem_append_left _ mem
    · simpa only [System.stopService, Function.update_of_ne same] using mem
  cases h with
  | nothing => exact mem
  | called other id ok => exact one w other id _ mem
  | passed its other differs id service =>
    cases service with
    | none => exact one w other id _ mem
    | some j => exact one _ its j _ (one w other id _ mem)

theorem mem_stopped_iff {kind : Kind} {i : ℕ} :
    i ∈ w.stopped kind ↔ ∃ ending, ending ≠ .skipped ∧ (i, ending) ∈ w.ends kind := by
  simp [System.stopped, and_comm]

theorem stopped_sublist (w : System σ π) (kind : Kind) : (w.stopped kind).Sublist (w.settled kind) :=
  List.filter_sublist.map _

theorem stopped_or_skipped {kind : Kind} {i : ℕ} (h : i ∈ w.settled kind) :
    i ∈ w.stopped kind ∨ (i, .skipped) ∈ w.ends kind := by
  obtain ⟨⟨j, ending⟩, mem, rfl⟩ := List.mem_map.mp h
  by_cases skipped : ending = .skipped
  · exact .inr (skipped ▸ mem)
  · exact .inl (mem_stopped_iff.mpr ⟨ending, skipped, mem⟩)

theorem Ended.stopped (h : Ended w v.ends) {kind : Kind} {i : ℕ} (mem : i ∈ w.stopped kind) :
    i ∈ v.stopped kind := by
  obtain ⟨ending, called, mem⟩ := mem_stopped_iff.mp mem
  exact mem_stopped_iff.mpr ⟨ending, called, h.mono mem⟩

theorem skipped_stopService {kind other : Kind} {i id : ℕ} {ending : Ending} (called : ending ≠ .skipped)
    (mem : (i, .skipped) ∈ (w.stopService other id ending).ends kind) : (i, .skipped) ∈ w.ends kind := by
  by_cases same : kind = other
  · subst same
    simp only [System.stopService, Function.update_self] at mem
    rcases List.mem_append.mp mem with old | new
    · exact old
    · exact absurd (Prod.mk.inj (List.mem_singleton.mp new)).2.symm called
  · simpa only [System.stopService, Function.update_of_ne same] using mem

theorem skipped_stopOptional {kind other : Kind} {i : ℕ} {service : Option ℕ} {ending : Ending}
    (called : ending ≠ .skipped) (mem : (i, .skipped) ∈ (w.stopOptional other service ending).ends kind) :
    (i, .skipped) ∈ w.ends kind := by
  cases service with
  | none => exact mem
  | some id => exact skipped_stopService called mem

theorem skipped_other {kind other : Kind} {service : Option ℕ} {ending : Ending} (differs : kind ≠ other) :
    (w.stopOptional other service ending).ends kind = w.ends kind := by
  cases service with
  | none => rfl
  | some id => exact Function.update_of_ne differs ..

theorem Ending.of_ne_skipped (ok : Bool) : Ending.of ok ≠ .skipped := by
  cases ok <;> decide

theorem mem_stopService_self (w : System σ π) (kind : Kind) (id : ℕ) (ending : Ending) :
    (id, ending) ∈ (w.stopService kind id ending).ends kind := by
  simp [System.stopService]

/-- What a step passes over is of another kind than the service whose stop has thrown. -/
theorem Ended.skipped {ends : Kind → List (ℕ × Ending)} (h : Ended w ends) {kind : Kind} {i : ℕ}
    (mem : (i, .skipped) ∈ ends kind) :
    (i, .skipped) ∈ w.ends kind ∨ ∃ other j, kind ≠ other ∧ (j, .threw) ∈ ends other := by
  cases h with
  | nothing => exact .inl mem
  | called other id ok => exact .inl (skipped_stopService (Ending.of_ne_skipped ok) mem)
  | passed its other differs id service =>
    by_cases same : kind = its
    · subst same
      refine .inr ⟨other, id, differs, ?_⟩
      rw [skipped_other differs.symm]
      exact mem_stopService_self w other id .threw
    · rw [skipped_other same] at mem
      exact .inl (skipped_stopService (by decide) mem)

/-- What was passed over was passed over by an exception of a stop of the other kind. -/
def Blamed (w : System σ π) : Prop :=
  ∀ kind i, (i, .skipped) ∈ w.ends kind → ∃ other j, kind ≠ other ∧ (j, .threw) ∈ w.ends other

theorem Ended.blamed (h : Ended w v.ends) (blamed : Blamed w) : Blamed v := by
  intro kind i mem
  rcases h.skipped mem with old | new
  · obtain ⟨other, j, differs, threw⟩ := blamed kind i old
    exact ⟨other, j, differs, h.mono threw⟩
  · exact new

/-- The ticket service started for the candidate of a reload. -/
def Stage.freshTicket : Stage σ π → Option ℕ
  | .startGeneration _ ticket | .unwindTickets _ ticket => ticket.fresh.map (·.id)
  | _ => none

/-- What a stage of a reload passes over is a certificate runtime, by the exception of stopping a
ticket service that was started for the same candidate. -/
theorem reloadStep_skipped [DecidableEq π] {entry : Server σ π} {config : Prepared σ π}
    {stage : Stage σ π} {ok : Bool} (moves : reloadStep w entry config stage ok = some v) {kind : Kind}
    {i : ℕ} (mem : (i, .skipped) ∈ v.ends kind) : (i, .skipped) ∈ w.ends kind ∨
      kind = .cert ∧ ∃ j, stage.freshTicket = some j ∧ (j, .threw) ∈ v.ends .ticket := by
  cases stage <;> cases ok <;> simp only [reloadStep, reduceCtorEq, Bool.false_eq_true, if_true, if_false,
    Option.some.injEq] at moves
  case unwindTickets.false cert ticket =>
    obtain ⟨some_, same⟩ := Option.ite_none_right_eq_some.mp moves
    obtain ⟨fresh, new⟩ := Option.isSome_iff_exists.mp some_
    obtain rfl := Option.some.inj same
    simp only [giveUp_ends, new, Option.map_some] at mem ⊢
    cases kind with
    | cert =>
      refine .inr ⟨rfl, fresh.id, by simp [Stage.freshTicket, new], ?_⟩
      rw [skipped_other (by decide)]
      exact mem_stopService_self w .ticket fresh.id .threw
    | ticket =>
      rw [skipped_other (by decide)] at mem
      exact .inl (skipped_stopOptional (by decide) mem)
  case unwindTickets.true | unwindCert.false | unwindCert.true | cleanupCert.false | cleanupCert.true
      | cleanupTickets.false | cleanupTickets.true =>
    subst moves
    exact .inl (skipped_stopOptional (by decide) mem)
  case acquireCert.false | acquireTickets.false | beginDrain.false | beginDrain.true =>
    split at moves <;> simp only [reduceCtorEq, Option.some.injEq] at moves
    subst moves
    exact .inl mem
  all_goals
    subst moves
    exact .inl (by simpa only [goto_ends, giveUp_ends, System.startIf_ends] using mem)

/-- A stage keeps its ticket service, or acquires one under the next number. -/
theorem reloadStep_fresh [DecidableEq π] {entry : Server σ π} {config : Prepared σ π}
    {stage : Stage σ π} {ok : Bool} (moves : reloadStep w entry config stage ok = some v) {n : ℕ}
    (grown : n ≤ w.started .ticket) (fresh : ∀ i, stage.freshTicket = some i → n ≤ i) {next : Stage σ π}
    (after : v.lifecycle = .reload entry config next) : ∀ i, next.freshTicket = some i → n ≤ i := by
  have back {u : System σ π} (after : (u.giveUp entry).lifecycle = .reload entry config next) : False := by
    unfold System.giveUp System.goto at after
    split at after <;> contradiction
  cases stage <;> cases ok <;> simp only [reloadStep, reduceCtorEq, Bool.false_eq_true, if_true, if_false,
    Option.some.injEq] at moves
  case acquireTickets.true cert =>
    subst moves
    obtain ⟨-, -, rfl⟩ := Lifecycle.reload.inj after
    intro i its
    rw [acquireTickets_numbered its]
    exact grown
  case startGeneration.false cert ticket =>
    subst moves
    obtain ⟨-, -, rfl⟩ := Lifecycle.reload.inj after
    exact fresh
  case startGeneration.true cert ticket =>
    subst moves
    obtain ⟨-, -, rfl⟩ := Lifecycle.reload.inj after
    split <;> rintro i ⟨⟩
  case publish.true g =>
    subst moves
    simp only [System.goto] at after
    split at after
    · contradiction
    · obtain ⟨-, -, rfl⟩ := Lifecycle.reload.inj after
      rintro i ⟨⟩
  case compile.false | unwindCert.false | unwindCert.true | cleanupTickets.false | cleanupTickets.true =>
    subst moves
    exact (back after).elim
  case acquireCert.false | unwindTickets.false =>
    split at moves <;> simp only [reduceCtorEq, Option.some.injEq] at moves
    subst moves
    exact (back after).elim
  case addDraining.true =>
    subst moves
    cases after
  case acquireTickets.false | beginDrain.false | beginDrain.true =>
    split at moves <;> simp only [reduceCtorEq, Option.some.injEq] at moves
    subst moves
    obtain ⟨-, -, rfl⟩ := Lifecycle.reload.inj after
    rintro i ⟨⟩
  all_goals
    subst moves
    obtain ⟨-, -, rfl⟩ := Lifecycle.reload.inj after
    rintro i ⟨⟩

theorem reloadStep_started [DecidableEq π] {entry : Server σ π} {config : Prepared σ π}
    {stage : Stage σ π} {ok : Bool} (moves : reloadStep w entry config stage ok = some v) (kind : Kind) :
    w.started kind ≤ v.started kind := by
  have more (u : System σ π) (other : Kind) (new : Bool) : u.started kind ≤ (u.startIf other new).started kind := by
    cases new
    · exact le_rfl
    · by_cases same : kind = other
      · subst same
        simp [System.startIf]
      · simp [System.startIf, Function.update_of_ne same]
  cases stage <;> cases ok <;> simp only [reloadStep, reduceCtorEq, Bool.false_eq_true, if_true, if_false,
    Option.some.injEq] at moves
  case acquireCert.true | acquireTickets.true =>
    subst moves
    exact more w _ _
  case acquireCert.false | acquireTickets.false | unwindTickets.false | beginDrain.false | beginDrain.true =>
    split at moves <;> simp only [reduceCtorEq, Option.some.injEq] at moves
    subst moves
    simp [System.goto, System.giveUp, System.beginDrain]
  all_goals
    subst moves
    simp [System.goto, System.giveUp]

/-- What a drain future passes over it had undertaken to stop. -/
theorem finalizerStep_skipped {id : ℕ} {returns : Bool}
    (moves : finalizerStep w id (w.finalizer id) returns = some v) {kind : Kind} {i : ℕ}
    (mem : (i, .skipped) ∈ v.ends kind) : (i, .skipped) ∈ w.ends kind ∨
      (w.finalizer id).closing kind = some i := by
  cases at_ : w.finalizer id
  case stopping cert ticket ok =>
    cases cert <;> cases ticket <;> cases returns <;>
      simp only [at_, finalizerStep, reduceCtorEq, Option.some.injEq] at moves <;> subst moves
    case some.some.false cert ticket =>
      cases kind with
      | cert =>
        have mem : (i, .skipped) ∈ ((w.stopService .cert cert.id .threw).stopOptional .ticket
          (some ticket.id) .skipped).ends .cert := mem
        rw [skipped_other (by decide)] at mem
        exact .inl (skipped_stopService (by decide) mem)
      | ticket =>
        simp only [System.stopOptional, System.stopService, Option.map_some, Function.update_self] at mem
        rcases List.mem_append.mp mem with old | new
        · exact .inl (by simpa [Function.update] using old)
        · exact .inr (congrArg some (Prod.mk.inj (List.mem_singleton.mp new)).1.symm)
    case none.none.true => exact .inl mem
    case none.some.false | none.some.true => exact .inl (skipped_stopService (Ending.of_ne_skipped _) mem)
    case some.none.false cert => exact .inl (@skipped_stopService _ _ w _ .cert _ _ .threw (by decide) mem)
    all_goals exact .inl (@skipped_stopService _ _ w _ .cert _ _ .returned (by decide) mem)
  all_goals simp [at_, finalizerStep] at moves

variable [DecidableEq σ] [DecidableEq π]

theorem blamed_of_reachable (h : (machine σ π).Reachable w) : Blamed w := by
  refine h.invariant ?_ fun a s t blamed moves => (step_ended moves).blamed blamed
  rintro s rfl
  exact fun kind i mem => absurd mem (List.not_mem_nil)

end Busker.Runtime
