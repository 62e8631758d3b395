import Busker.Runtime.Lifecycle

/-! Certificate runtimes and ticket services over whole runs of the server: none is stopped
under a generation that uses it, and every one that was started is stopped in the end, or
passed over by an exception of another stop. -/

namespace Busker.Runtime

open Interleaving

variable {σ π : Type} {w v : System σ π} {kind : Kind} {l m : Lifecycle σ π}

namespace System

theorem used_iff {i : ℕ} : w.used kind i ↔ w.server.active.bind (·.service kind) = some i ∨
    (∃ g ∈ w.server.draining, g.service kind = some i) ∨ i ∈ w.lifecycle.uses kind := by
  unfold used Server.currentGenerations
  cases w.server.active <;> simp [or_and_right, exists_or, or_assoc]

/-- A step that moves uses from one place to another. -/
theorem Kept.congr (h : w.Kept kind) (started : v.started kind = w.started kind)
    (ends : v.ends kind = w.ends kind) (uses : ∀ i, v.used kind i ↔ w.used kind i)
    (closes : ∀ k i, v.closing kind k i ↔ w.closing kind k i) : v.Kept kind := by
  unfold Kept settled
  rw [started, ends]
  exact Custody.congr h uses closes

theorem settled_stopService (w : System σ π) (kind : Kind) (j : ℕ) (ending : Ending) :
    (w.stopService kind j ending).settled kind = w.settled kind ++ [j] := by
  simp [settled, stopService]

/-- The stop of a service of the other kind is ordered. -/
theorem Kept.other (h : w.Kept kind) {other : Kind} (differs : kind ≠ other) (service : Option ℕ)
    (ending : Ending) : (w.stopOptional other service ending).Kept kind := by
  cases service with
  | none => exact h
  | some j =>
    refine h.congr rfl (Function.update_of_ne differs ..) (fun _ => Iff.rfl) fun k _ => ?_
    cases k <;> rfl

/-- The lifecycle thread goes on without touching what it uses and what it is to stop. -/
theorem Kept.goto (h : w.Kept kind) (at_ : w.lifecycle = m) (uses : l.uses kind = m.uses kind)
    (closes : l.closing kind = m.closing kind) : (w.goto l).Kept kind := by
  subst at_
  refine h.congr rfl rfl (fun i => or_congr_right (uses ▸ Iff.rfl)) fun k i => ?_
  cases k
  · exact Iff.of_eq (congrArg (i ∈ ·) closes)
  · rfl

theorem closing_update {i : ℕ} {q : Finalizer σ π} (same : q.closing kind = (w.finalizer i).closing kind)
    (k : Option ℕ) (id : ℕ) : ({ w with finalizer := Function.update w.finalizer i q }).closing kind k id ↔
      w.closing kind k id := by
  cases k with
  | none => rfl
  | some j =>
    by_cases hj : j = i
    · subst hj
      simp [closing, same]
    · simp [closing, Function.update_of_ne hj]

/-- A drain future starts for a generation that had none. -/
theorem Kept.beginDrain (h : w.Kept kind) {g : Generation σ π} (absent : w.finalizer g.id = .absent) :
    (w.beginDrain g).Kept kind := by
  refine h.congr rfl rfl (fun i => Iff.rfl) fun k i => closing_update ?_ k i
  rw [absent]
  cases kind <;> rfl

/-- The generation that was replaced is put in `:draining`. -/
theorem Kept.addDraining (h : w.Kept kind) (at_ : w.lifecycle = m) {old : Option (Generation σ π)}
    (uses : m.uses kind = (old.bind (·.service kind)).toList) (calm : m.closing kind = [])
    (after : l.uses kind = []) (closes : l.closing kind = []) : (({ w with
      server := { w.server with draining := w.server.draining ++ old.toList } }).goto l).Kept kind := by
  subst at_
  refine h.congr rfl rfl (fun i => ?_) fun k i => ?_
  · rw [used_iff, used_iff, uses]
    show _ ∨ (∃ g ∈ w.server.draining ++ old.toList, _) ∨ i ∈ l.uses kind ↔ _
    rw [after]
    cases old <;> simp [or_and_right, exists_or, System.goto]
  · cases k
    · simp [closing, System.goto, closes, calm]
    · rfl

/-- The lifecycle thread gives up what it uses, and undertakes to stop what nobody else does. -/
theorem Kept.leave (h : w.Kept kind) (at_ : w.lifecycle = m) (calm : m.closing kind = [])
    (uses : l.uses kind = [])
    (left : ∀ i ∈ m.uses kind, i ∈ l.closing kind ∨
      ∃ g ∈ w.server.currentGenerations, g.service kind = some i)
    (undertaken : ∀ i ∈ l.closing kind, i ∈ m.uses kind ∧
      ∀ g ∈ w.server.currentGenerations, g.service kind ≠ some i) : (w.goto l).Kept kind := by
  subst at_
  have after {i : ℕ} : (w.goto l).used kind i ↔
      ∃ g ∈ w.server.currentGenerations, g.service kind = some i := by
    simp [used, System.goto, uses]
  refine Custody.leave h none (fun i used => .inl (after.mp used)) (fun i used => ?_) (fun k i closes => ?_)
    fun k i closes => ?_
  · rcases used with current | used
    · exact .inl (after.mpr current)
    · exact (left i used).symm.imp_left after.mpr
  · cases k
    · simp [closing, calm] at closes
    · exact closes
  · cases k
    · obtain ⟨used, others⟩ := undertaken i closes
      refine .inr ⟨rfl, .inr used, fun still => ?_⟩
      obtain ⟨g, hg, its⟩ := after.mp still
      exact others g hg its
    · exact .inl closes

/-- The lifecycle thread stops one of the services it was about to stop. -/
theorem Kept.stop (h : w.Kept kind) (at_ : w.lifecycle = m) {service : Option ℕ} {ending : Ending}
    (uses : l.uses kind = m.uses kind) (closes : m.closing kind = service.toList ++ l.closing kind)
    (distinct : (m.closing kind).Nodup) :
    ((w.stopOptional kind service ending).goto l).Kept kind := by
  subst at_
  cases service with
  | none => exact h.goto rfl uses closes.symm
  | some j =>
    rw [closes] at distinct
    have gone : j ∉ l.closing kind := (List.nodup_cons.mp distinct).1
    have member {i : ℕ} : i ∈ w.lifecycle.closing kind ↔ i = j ∨ i ∈ l.closing kind := by
      rw [closes]
      exact List.mem_cons
    show Custody _ _ _ _ ((w.stopService kind j ending).settled kind)
    rw [settled_stopService]
    refine Custody.stop h (k := none) (member.mpr (.inl rfl)) (fun i => or_congr_right (uses ▸ Iff.rfl))
      (fun k i closes => ?_) (fun k i closes => ?_) gone
    · cases k
      · exact member.mpr (.inr closes)
      · exact closes
    · cases k
      · exact (member.mp closes).symm
      · exact .inl closes

/-- The lifecycle thread stops a service of the other kind. -/
theorem Kept.stopOther (h : w.Kept kind) (at_ : w.lifecycle = m) {other : Kind} (differs : kind ≠ other)
    {service : Option ℕ} {ending : Ending} (uses : l.uses kind = m.uses kind)
    (closes : l.closing kind = m.closing kind) :
    ((w.stopOptional other service ending).goto l).Kept kind :=
  (h.other differs service ending).goto ((System.stopOptional_lifecycle ..).trans at_) uses closes

/-- The lifecycle thread starts a service for a candidate, or shares the active generation's. -/
theorem Kept.acquire (h : w.Kept kind) (at_ : w.lifecycle = m) {entry : Server σ π}
    (same : w.server = entry) {service fresh : Option ℕ} {new : Bool} (begun : new = fresh.isSome)
    (uses : m.uses kind = []) (its : l.uses kind = service.toList)
    (closes : l.closing kind = m.closing kind) (lent : Lent entry kind service fresh)
    (numbered : ∀ i, fresh = some i → i = w.started kind) :
    ((w.startIf kind new).goto l).Kept kind := by
  subst at_ begun same
  have closing (k : Option ℕ) (i : ℕ) :
      ((w.startIf kind fresh.isSome).goto l).closing kind k i ↔ w.closing kind k i := by
    cases k
    · exact Iff.of_eq (congrArg (i ∈ ·) closes)
    · simp [closing, System.goto]
  have before (i : ℕ) : w.used kind i ↔ ∃ g ∈ w.server.currentGenerations, g.service kind = some i := by
    simp [used, uses]
  have after (i : ℕ) : ((w.startIf kind fresh.isSome).goto l).used kind i ↔
      (∃ g ∈ w.server.currentGenerations, g.service kind = some i) ∨ service = some i := by
    simp [used, System.goto, its]
  cases new : fresh with
  | none =>
    subst new
    refine h.congr rfl rfl (fun i => ?_) closing
    rw [after, before, or_iff_left_of_imp]
    intro same
    rcases lent.shared rfl with none | shared
    · simp [none] at same
    · obtain ⟨g, active, its⟩ := Option.bind_eq_some_iff.mp (shared.symm.trans same)
      exact ⟨g, Server.mem_active active, its⟩
  | some j =>
    subst new
    obtain rfl := numbered j rfl
    have started : ((w.startIf kind true).goto l).started kind = w.started kind + 1 :=
      Function.update_self ..
    unfold Kept
    rw [Option.isSome_some, started]
    refine Custody.congr (Custody.start h fun i => ?_) (fun i => Iff.rfl) closing
    rw [Option.isSome_some] at after
    rw [after, before, (lent.new _ rfl).1, Option.some.injEq, eq_comm (a := i)]

/-- The lifecycle thread starts a service of the other kind. -/
theorem Kept.acquireOther (h : w.Kept kind) (at_ : w.lifecycle = m) {other : Kind}
    (differs : kind ≠ other) {new : Bool} (uses : l.uses kind = m.uses kind)
    (closes : l.closing kind = m.closing kind) : ((w.startIf other new).goto l).Kept kind := by
  cases new
  · exact h.goto at_ uses closes
  · exact (h.goto at_ uses closes).congr (Function.update_of_ne differs ..) rfl (fun _ => Iff.rfl)
      fun _ _ => Iff.rfl

theorem mem_stopService {other : Kind} {i j : ℕ} {ending : Ending} (h : i ∈ w.stopped kind) :
    i ∈ (w.stopService other j ending).stopped kind := by
  by_cases same : kind = other
  · subst same
    simp only [stopped, stopService, Function.update_self, List.filter_append, List.map_append]
    exact List.mem_append_left _ h
  · simpa only [stopped, stopService, Function.update_of_ne same] using h

theorem mem_stopOptional {other : Kind} {service : Option ℕ} {i : ℕ} {ending : Ending}
    (h : i ∈ w.stopped kind) : i ∈ (w.stopOptional other service ending).stopped kind := by
  cases service
  · exact h
  · exact mem_stopService h

theorem mem_stopOptional_self {service : Option ℕ} {i : ℕ} {ok : Bool} (h : service = some i) :
    i ∈ (w.stopOptional kind service (.of ok)).stopped kind := by
  subst h
  cases ok <;> simp [stopOptional, stopService, stopped, Ending.of]

/-- After `start!` or `reload!` has thrown the lifecycle thread holds nothing. -/
theorem giveUp_goto (w : System σ π) (entry : Server σ π) :
    ∃ l, w.giveUp entry = w.goto l ∧ ∀ kind, l.uses kind = [] ∧ l.closing kind = [] := by
  unfold giveUp
  split
  · exact ⟨.closed, rfl, fun kind => by cases kind <;> exact ⟨rfl, rfl⟩⟩
  · exact ⟨.idle, rfl, fun kind => by cases kind <;> exact ⟨rfl, rfl⟩⟩

theorem Kept.giveUp (h : w.Kept kind) (at_ : w.lifecycle = m) {entry : Server σ π}
    (uses : m.uses kind = []) (closes : m.closing kind = []) : (w.giveUp entry).Kept kind := by
  obtain ⟨l, same, calm⟩ := w.giveUp_goto entry
  rw [same]
  exact h.goto at_ ((calm kind).1.trans uses.symm) ((calm kind).2.trans closes.symm)

/-- The candidate is published: the state takes over what the lifecycle thread used for it, and
the lifecycle thread what the state used for the generation before. -/
theorem Kept.publish (h : w.Kept kind) (at_ : w.lifecycle = m) {entry : Server σ π} {g : Generation σ π}
    (same : w.server = entry) (uses : m.uses kind = (g.service kind).toList) (calm : m.closing kind = [])
    (after : l.uses kind = (entry.active.bind (·.service kind)).toList) (closes : l.closing kind = []) :
    (({ w with server := entry.publish g }).goto l).Kept kind := by
  subst same at_
  refine h.congr rfl rfl (fun i => ?_) fun k i => ?_
  · rw [used_iff, used_iff, uses, Option.mem_toList]
    show g.service kind = some i ∨ _ ∨ i ∈ l.uses kind ↔ _
    rw [after, Option.mem_toList]
    exact or_comm.trans ((or_congr_left or_comm).trans or_assoc)
  · cases k
    · simp [closing, System.goto, closes, calm]
    · rfl

end System

theorem acquireCert_numbered [DecidableEq π] {current : Option (CertRuntime π)} {managedPlan : Option π}
    {fresh i : ℕ} (h : (acquireCertAutomation current managedPlan fresh).fresh.map (·.id) = some i) :
    i = fresh := by
  unfold acquireCertAutomation Acquired.fresh at h
  split at h <;> (try split at h) <;> simp_all

theorem acquireTickets_numbered {current : Option TicketService} {policy : Option TicketPolicy}
    {fresh i : ℕ} (h : (acquireMemoryTicketService current policy fresh).fresh.map (·.id) = some i) :
    i = fresh := by
  unfold acquireMemoryTicketService Acquired.fresh at h
  split at h <;> (try split at h) <;> simp_all

/-- A candidate that is given up leaves its own services to be stopped. -/
theorem Lent.leave {entry : Server σ π} {service fresh : Option ℕ} (h : Lent entry kind service fresh) :
    (∀ i ∈ service.toList, i ∈ fresh.toList ∨ ∃ g ∈ entry.currentGenerations, g.service kind = some i) ∧
    ∀ i ∈ fresh.toList, i ∈ service.toList ∧ ∀ g ∈ entry.currentGenerations, g.service kind ≠ some i := by
  refine ⟨fun i its => ?_, fun i its => ?_⟩ <;> rw [Option.mem_toList] at its
  · cases new : fresh with
    | none =>
      rcases h.shared new with none | shared
      · simp [none] at its
      · obtain ⟨g, active, its⟩ := Option.bind_eq_some_iff.mp (shared.symm.trans its)
        exact .inr ⟨g, Server.mem_active active, its⟩
    | some j =>
      obtain rfl := Option.some.inj ((h.new j new).1.symm.trans its)
      exact .inl (by simp)
  · obtain ⟨same, others⟩ := h.new i its
    exact ⟨by simp [same], others⟩

theorem nodup_toList (service : Option ℕ) : service.toList.Nodup := by cases service <;> simp

theorem System.Kept.reload [DecidableEq π] (h : w.Kept kind) (formed : Wellformed w) {entry : Server σ π}
    {config : Prepared σ π} {stage : Stage σ π} {ok : Bool} (at_ : w.lifecycle = .reload entry config stage)
    (begins : drainRefused (.tick ok) w = false) (moves : reloadStep w entry config stage ok = some v) :
    v.Kept kind := by
  have inside := formed.stage
  rw [at_] at inside
  obtain ⟨phase, tickets, holds⟩ := inside
  cases stage <;> cases ok <;> simp only [reloadStep, reduceCtorEq, Bool.false_eq_true, if_true, if_false,
    Option.some.injEq] at moves
  case compile.false =>
    subst moves
    cases kind <;> exact h.giveUp at_ rfl rfl
  case compile.true =>
    subst moves
    cases kind <;> exact h.goto at_ rfl rfl
  case acquireCert.false =>
    split at moves <;> simp only [reduceCtorEq, Option.some.injEq] at moves
    subst moves
    cases kind <;> exact h.giveUp at_ rfl rfl
  case acquireCert.true =>
    subst moves
    cases kind with
    | cert =>
      have lent := @acquireCert_lent _ _ _ _ config.managedPlan _ (h.unused holds)
      exact h.acquire at_ holds (by rw [Option.isSome_map]) rfl rfl rfl lent fun i => acquireCert_numbered
    | ticket => exact h.acquireOther at_ (by decide) rfl rfl
  case acquireTickets.false cert =>
    split at moves <;> simp only [reduceCtorEq, Option.some.injEq] at moves
    subst moves
    cases kind with
    | cert =>
      obtain ⟨left, undertaken⟩ := holds.2.leave
      exact h.leave at_ rfl rfl (holds.1 ▸ left) (holds.1 ▸ undertaken)
    | ticket => exact h.goto at_ rfl rfl
  case acquireTickets.true cert =>
    subst moves
    cases kind with
    | cert => exact h.acquireOther at_ (by decide) rfl rfl
    | ticket =>
      have lent := @acquireTickets_lent _ _ _ config.ticketPolicy _ tickets (h.unused holds.1)
      exact h.acquire at_ holds.1 (by rw [Option.isSome_map]) rfl rfl rfl lent fun i =>
        acquireTickets_numbered
  case startGeneration.false cert ticket =>
    subst moves
    cases kind with
    | cert =>
      obtain ⟨left, undertaken⟩ := holds.2.1.leave
      exact h.leave at_ rfl rfl (holds.1 ▸ left) (holds.1 ▸ undertaken)
    | ticket =>
      obtain ⟨left, undertaken⟩ := holds.2.2.leave
      exact h.leave at_ rfl rfl (holds.1 ▸ left) (holds.1 ▸ undertaken)
  case startGeneration.true cert ticket =>
    subst moves
    cases entry.active.isNone <;> cases kind <;> exact h.goto at_ rfl rfl
  case unwindTickets.true cert ticket =>
    subst moves
    cases kind with
    | cert => exact h.stopOther at_ (by decide) rfl rfl
    | ticket => exact h.stop at_ rfl (by simp [Lifecycle.closing]) (nodup_toList _)
  case unwindTickets.false cert ticket =>
    split at moves <;> simp only [reduceCtorEq, Option.some.injEq] at moves
    subst moves
    obtain ⟨l, same, calm⟩ := ((w.stopOptional .ticket (ticket.fresh.map (·.id)) .threw).stopOptional .cert
      (cert.fresh.map (·.id)) .skipped).giveUp_goto entry
    rw [same]
    have threw : (w.stopOptional .ticket (ticket.fresh.map (·.id)) .threw).lifecycle =
      .reload entry config (.unwindTickets cert ticket) := (System.stopOptional_lifecycle ..).trans at_
    cases kind with
    | cert =>
      have before : (w.stopOptional .ticket (ticket.fresh.map (·.id)) .threw).Kept .cert :=
        h.other (by decide) _ _
      exact before.stop threw (calm .cert).1 (by rw [(calm .cert).2, List.append_nil]; rfl)
        (nodup_toList _)
    | ticket =>
      have stopped : ((w.stopOptional .ticket (ticket.fresh.map (·.id)) .threw).goto
          (.reload entry config (.unwindCert cert))).Kept .ticket :=
        h.stop at_ rfl (by simp [Lifecycle.closing]) (nodup_toList _)
      cases cert.fresh.map (·.id) with
      | none => exact stopped.goto rfl (calm .ticket).1 (calm .ticket).2
      | some j =>
        exact @System.Kept.stopOther _ _ _ .ticket _ _ stopped rfl .cert (by decide) (some j) _
          (calm .ticket).1 (calm .ticket).2
  case unwindCert.false cert | unwindCert.true cert =>
    subst moves
    obtain ⟨l, same, calm⟩ := (w.stopOptional .cert (cert.fresh.map (·.id)) (.of _)).giveUp_goto entry
    rw [same]
    cases kind with
    | cert =>
      exact h.stop at_ (calm .cert).1 (by rw [(calm .cert).2, List.append_nil]; rfl) (nodup_toList _)
    | ticket => exact h.stopOther at_ (by decide) (calm .ticket).1 (calm .ticket).2
  case activate.true g | register.true g =>
    subst moves
    cases kind <;> exact h.goto at_ rfl rfl
  case activate.false g | register.false g =>
    subst moves
    obtain ⟨left, undertaken⟩ := (holds.2.2 kind).leave
    cases kind <;> exact h.leave at_ rfl rfl (holds.1 ▸ left) (holds.1 ▸ undertaken)
  case cleanupCert.false g | cleanupCert.true g =>
    subst moves
    cases kind with
    | cert => exact h.stop at_ rfl (by simp [Lifecycle.closing]) (nodup_toList _)
    | ticket => exact h.stopOther at_ (by decide) rfl rfl
  case cleanupTickets.false g | cleanupTickets.true g =>
    subst moves
    obtain ⟨l, same, calm⟩ := (w.stopOptional .ticket (g.own entry .ticket) (.of _)).giveUp_goto entry
    rw [same]
    cases kind with
    | cert => exact h.stopOther at_ (by decide) (calm .cert).1 (calm .cert).2
    | ticket =>
      exact h.stop at_ (calm .ticket).1 (by rw [(calm .ticket).2, List.append_nil]; rfl)
        (nodup_toList _)
  case publish.true g =>
    subst moves
    cases active : entry.active with
    | none => cases kind <;> exact h.publish at_ holds.1 rfl rfl (by rw [active]; rfl) rfl
    | some old =>
      cases kind <;>
        exact h.publish at_ holds.1 rfl rfl (by rw [active]; simp [Lifecycle.uses, active]) rfl
  case beginDrain.false g => simp [drainRefused, at_] at begins
  case beginDrain.true g =>
    obtain ⟨same, new, old, active, known, absent⟩ := holds
    simp only [active, Option.some.injEq] at moves
    subst moves
    cases kind <;> exact (h.beginDrain absent).goto at_ rfl rfl
  case addDraining.true =>
    subst moves
    cases kind <;> exact h.addDraining at_ rfl rfl rfl rfl

namespace System

theorem Kept.finalizerStop (h : w.Kept kind) {id j : ℕ} {q : Finalizer σ π}
    (its : (w.finalizer id).closing kind = some j) (gone : q.closing kind = none) (ending : Ending) :
    ({ w.stopService kind j ending with finalizer := Function.update w.finalizer id q }).Kept kind := by
  have other {i : ℕ} (hi : i ≠ id) : Function.update w.finalizer id q i = w.finalizer i :=
    Function.update_of_ne hi ..
  show Custody _ _ _ _ ((w.stopService kind j ending).settled kind)
  rw [settled_stopService]
  refine Custody.stop h (k := some id) its (fun i => Iff.rfl) (fun k i closes => ?_) (fun k i closes => ?_) ?_
  · cases k with
    | none => exact closes
    | some k =>
      by_cases hk : k = id
      · subst hk
        simp [closing, gone] at closes
      · simpa [closing, other hk] using closes
  · cases k with
    | none => exact .inl closes
    | some k =>
      by_cases hk : k = id
      · subst hk
        exact .inr (Option.some.inj (closes.symm.trans its))
      · exact .inl (by simpa [closing, other hk] using closes)
  · simp [closing, gone]

theorem Kept.finalizerOther (h : w.Kept kind) {id j : ℕ} {other : Kind} {q : Finalizer σ π}
    (differs : kind ≠ other) (same : q.closing kind = (w.finalizer id).closing kind) (ending : Ending) :
    ({ w.stopService other j ending with finalizer := Function.update w.finalizer id q }).Kept kind :=
  h.congr rfl (Function.update_of_ne differs ..) (fun _ => Iff.rfl) (closing_update same)

theorem Kept.finalizerStep (h : w.Kept kind) {id : ℕ} {returns : Bool}
    (moves : finalizerStep w id (w.finalizer id) returns = some v) : v.Kept kind := by
  cases at_ : w.finalizer id
  case stopping cert ticket ok =>
    cases cert with
    | some cert =>
      cases returns <;> simp only [at_, Runtime.finalizerStep, Option.some.injEq] at moves <;> subst moves
      case false =>
        -- The exception passes over the ticket service.
        cases kind with
        | cert =>
          have stopped : (({ w.stopService .cert cert.id .threw with
              finalizer := Function.update w.finalizer id (.done false) } : System σ π).stopOptional .ticket
                (ticket.map (·.id)) .skipped).Kept .cert :=
            (h.finalizerStop (by rw [at_]; rfl) rfl _).other (by decide) _ _
          cases ticket <;> exact stopped
        | ticket =>
          have stopped : (w.stopOptional .cert (some cert.id) .threw).Kept .ticket := h.other (by decide) _ _
          cases ticket with
          | none => exact stopped.congr rfl rfl (fun _ => Iff.rfl) (closing_update (at_.symm ▸ rfl))
          | some ticket => exact stopped.finalizerStop (at_.symm ▸ rfl) rfl .skipped
      case true =>
        cases kind with
        | cert => exact h.finalizerStop (by rw [at_]; rfl) rfl _
        | ticket => exact h.finalizerOther (by decide) (by rw [at_]; rfl) _
    | none =>
      cases ticket with
      | some ticket =>
        simp only [at_, Runtime.finalizerStep, Option.some.injEq] at moves
        subst moves
        cases kind with
        | cert => exact h.finalizerOther (by decide) (by rw [at_]; cases returns <;> rfl) _
        | ticket => exact h.finalizerStop (by rw [at_]; rfl) (by cases returns <;> rfl) _
      | none =>
        cases returns <;> simp only [at_, Runtime.finalizerStep, reduceCtorEq, Option.some.injEq] at moves
        subst moves
        exact h.congr rfl rfl (fun _ => Iff.rfl) (closing_update (by rw [at_]; cases kind <;> rfl))
  all_goals simp [at_, Runtime.finalizerStep] at moves

end System

theorem Server.inUse_iff {server : Server σ π} {i : ℕ} : server.inUse kind i = true ↔
    server.active.bind (·.service kind) = some i ∨ ∃ g ∈ server.draining, g.service kind = some i := by
  unfold Server.inUse Server.currentGenerations
  cases server.active <;> simp

/-- What `finalize-draining-generation!` decides to stop of a generation's services. -/
structure Undertaken (server next : Server σ π) (g : Generation σ π) (kind : Kind)
    (closing : Option ℕ) : Prop where
  last : ∀ i, closing = some i → g.service kind = some i ∧ next.inUse kind i = false ∧
    (kind = .cert → server.phase = .running)
  all : ∀ i, g.service kind = some i → next.inUse kind i = false →
    closing = some i ∨ kind = .cert ∧ server.phase ≠ .running

theorem finalizeDraining_undertaken (server : Server σ π) (g : Generation σ π) (kind : Kind) (ok : Bool) :
    Undertaken server (server.finalizeDraining g).1 g kind ((Finalizer.stopping
      (server.finalizeDraining g).2.1 (server.finalizeDraining g).2.2 ok : Finalizer σ π).closing kind) := by
  have frame := finalizeDraining_frame server g
  have inUse (i : ℕ) : (server.finalizeDraining g).1.inUse kind i =
      Server.inUse { server with draining := server.draining.filter fun d => g.id != d.id } kind i := by
    unfold Server.inUse Server.currentGenerations
    rw [frame.active, frame.draining]
  have last (i : ℕ) (free :
      Server.inUse { server with draining := server.draining.filter fun d => g.id != d.id }
      kind i = false) : (server.finalizeDraining g).1.inUse kind i = false := (inUse i).trans free
  cases kind with
  | cert =>
    refine ⟨fun i closing => ?_, fun i its free => ?_⟩
    · obtain ⟨c, chosen, rfl⟩ := Option.map_eq_some_iff.mp closing
      obtain ⟨running, chosen⟩ := Option.ite_none_right_eq_some.mp chosen
      obtain ⟨held, free⟩ := Option.filter_eq_some_iff.mp chosen
      exact ⟨by simp [Generation.service, held], last _ (by simpa using free), fun _ => running⟩
    · obtain ⟨c, held, rfl⟩ := Option.map_eq_some_iff.mp its
      by_cases running : server.phase = .running
      · rw [inUse] at free
        exact .inl (Option.map_eq_some_iff.mpr ⟨c, Option.ite_none_right_eq_some.mpr
          ⟨running, Option.filter_eq_some_iff.mpr ⟨held, by simp [free]⟩⟩, rfl⟩)
      · exact .inr ⟨rfl, running⟩
  | ticket =>
    refine ⟨fun i closing => ?_, fun i its free => ?_⟩
    · obtain ⟨t, chosen, rfl⟩ := Option.map_eq_some_iff.mp closing
      obtain ⟨held, free⟩ := Option.filter_eq_some_iff.mp chosen
      exact ⟨by simp [Generation.service, held], last _ (by simpa using free), by rintro ⟨⟩⟩
    · obtain ⟨t, held, rfl⟩ := Option.map_eq_some_iff.mp its
      rw [inUse] at free
      exact .inl (Option.map_eq_some_iff.mpr
        ⟨t, Option.filter_eq_some_iff.mpr ⟨held, by simp [free]⟩, rfl⟩)

theorem LifecycleOk.calm (h : LifecycleOk w m) (free : m.gated = false)
    (calm : kind = .cert → w.server.phase = .running) : m.uses kind = [] := by
  cases kind with
  | ticket =>
    cases m <;> first | rfl | contradiction
  | cert =>
    have running := calm rfl
    cases m <;> simp_all [LifecycleOk, Lifecycle.uses, Lifecycle.gated]

/-- `stop!` keeps the certificate runtimes of the generations that have still to drain. -/
theorem LifecycleOk.keeps (h : LifecycleOk w m) (free : m.gated = false) {g : Generation σ π} {i : ℕ}
    (member : g ∈ w.server.draining) (unborn : w.server.phase = .starting → w.server.currentGenerations = [])
    (stopping : w.server.phase ≠ .running) (its : g.service .cert = some i) : i ∈ m.uses .cert := by
  have occupied : w.server.currentGenerations ≠ [] := List.ne_nil_of_mem (List.mem_append_right _ member)
  have keep (gens : List (Generation σ π)) (draining : ∀ d ∈ w.server.draining, d ∈ gens) :
      i ∈ gens.filterMap (·.service .cert) := List.mem_filterMap.mpr ⟨g, draining g member, its⟩
  cases m with
  | reload => contradiction
  | awaiting gens todo service => exact keep gens h.2.2.1
  | threw gens => exact keep gens (h.resolve_left fun running => stopping running.1).2.2
  | idle => exact absurd (unborn (h.1.resolve_right stopping)) occupied
  | stopCerts | stopTickets => exact absurd h.2.1 occupied
  | stopNotifier | finish | halted => exact absurd h.2 occupied
  | closed => exact absurd h occupied

/-- A drain future takes its generation out of the state and undertakes to stop the services
that nobody uses any more. -/
theorem System.Kept.finalized (h : w.Kept kind) (formed : Wellformed w) {g : Generation σ π} {ok : Bool}
    (at_ : w.finalizer g.id = .finalizing g ok) (member : g ∈ w.server.draining)
    (free : w.lifecycle.gated = false) {next : Server σ π} {q : Finalizer σ π}
    (frame : FinalizeFrame w.server next g) (undertaken : Undertaken w.server next g kind (q.closing kind)) :
    (⟨next, w.lifecycle, Function.update w.finalizer g.id q, w.started, w.ends⟩ :
      System σ π).Kept kind := by
  have after {i : ℕ} : (⟨next, w.lifecycle, Function.update w.finalizer g.id q, w.started, w.ends⟩ :
      System σ π).used kind i ↔ next.inUse kind i = true ∨ i ∈ w.lifecycle.uses kind := by
    rw [System.used_iff, Server.inUse_iff, or_assoc]
  have before {i : ℕ} : w.used kind i ↔ w.server.inUse kind i = true ∨ i ∈ w.lifecycle.uses kind := by
    rw [System.used_iff, Server.inUse_iff, or_assoc]
  have other {j : ℕ} (hj : j ≠ g.id) : Function.update w.finalizer g.id q j = w.finalizer j :=
    Function.update_of_ne hj ..
  have only {d : Generation σ π} (hd : d ∈ w.server.draining) (same : d.id = g.id) : d = g := by
    have drains := formed.draining d hd
    rw [same, at_] at drains
    exact (Option.some.inj drains).symm
  have fewer {i : ℕ} (used : next.inUse kind i = true) : w.server.inUse kind i = true := by
    rw [Server.inUse_iff, frame.active] at used
    exact Server.inUse_iff.mpr (used.imp_right fun ⟨d, hd, its⟩ => ⟨d, (frame.mem.mp hd).1, its⟩)
  refine Custody.leave h (some g.id) (fun i used => before.mpr ((after.mp used).imp_left fewer))
    (fun i used => ?_) (fun k i closes => ?_) fun k i closes => ?_
  · rcases before.mp used with used | used
    · by_cases still : next.inUse kind i = true
      · exact .inl (after.mpr (.inl still))
      have its : g.service kind = some i := by
        rcases Server.inUse_iff.mp used with active | ⟨d, hd, its⟩
        · exact absurd (Server.inUse_iff.mpr (.inl (frame.active ▸ active))) still
        · by_cases same : d.id = g.id
          · rwa [only hd same] at its
          · exact absurd (Server.inUse_iff.mpr (.inr ⟨d, frame.mem.mpr ⟨hd, same⟩, its⟩)) still
      rcases undertaken.all i its (Bool.eq_false_iff.mpr still) with closing | ⟨rfl, stopping⟩
      · exact .inr (by simpa [System.closing] using closing)
      · exact .inl (after.mpr (.inr (formed.stage.keeps free member formed.unborn stopping its)))
    · exact .inl (after.mpr (.inr used))
  · cases k with
    | none => exact closes
    | some k =>
      by_cases hk : k = g.id
      · subst hk
        cases kind <;> simp [System.closing, at_, Finalizer.closing] at closes
      · simpa [System.closing, other hk] using closes
  · cases k with
    | none => exact .inl closes
    | some k =>
      by_cases hk : k = g.id
      · subst hk
        obtain ⟨its, unused, running⟩ := undertaken.last i (by simpa [System.closing] using closes)
        refine .inr ⟨rfl, before.mpr (.inl (Server.inUse_iff.mpr (.inr ⟨g, member, its⟩))), fun used => ?_⟩
        rcases after.mp used with used | used
        · simp [unused] at used
        · simp [formed.stage.calm free running] at used
      · exact .inl (by simpa [System.closing, other hk] using closes)

theorem System.Kept.finalize (h : w.Kept kind) (formed : Wellformed w) {id : ℕ}
    (free : w.lifecycle.gated = false) (moves : finalizeStep w id (w.finalizer id) = some v) :
    v.Kept kind := by
  cases at_ : w.finalizer id
  case finalizing g ok =>
    simp only [at_, finalizeStep, Option.some.injEq] at moves
    subst moves
    obtain ⟨rfl, member⟩ := formed.finalizing free at_
    exact h.finalized formed at_ member free (finalizeDraining_frame w.server g)
      (finalizeDraining_undertaken w.server g kind ok)
  all_goals simp [at_, finalizeStep] at moves

/-- The lifecycle thread in `stop!`. -/
theorem System.Kept.stopping [DecidableEq π] (h : w.Kept kind) (formed : Wellformed w)
    (after : Wellformed v) (ungated : w.lifecycle.gated = false) {ok : Bool}
    (moves : lifecycleStep w w.lifecycle ok = some v) : v.Kept kind := by
  have inside := formed.stage
  have stage := after.stage
  cases at_ : w.lifecycle <;> rw [at_] at moves ungated inside
  case reload => contradiction
  case idle | threw | halted | closed => simp [lifecycleStep] at moves
  case awaiting gens todo service =>
    cases todo <;> cases ok <;> simp only [lifecycleStep, reduceCtorEq, Option.some.injEq] at moves
    case nil.true =>
      subst moves
      obtain ⟨-, empty, -, -⟩ := stage
      cases kind with
      | cert =>
        refine h.leave at_ rfl rfl (fun i uses => .inl (List.mem_eraseDups.mpr uses)) fun i closes =>
          ⟨List.mem_eraseDups.mp closes, fun g hg => ?_⟩
        have empty : w.server.currentGenerations = [] := empty
        simp [empty] at hg
      | ticket => exact h.goto at_ rfl rfl
    case cons.true =>
      split at moves <;> simp only [reduceCtorEq, Option.some.injEq] at moves <;> subst moves <;>
        cases kind <;> exact h.goto at_ rfl rfl
  case stopCerts todo service =>
    obtain ⟨phase, empty, distinct, known⟩ := inside
    cases todo <;> cases ok <;> simp only [lifecycleStep, Bool.false_eq_true, if_true, if_false,
      reduceCtorEq, Option.some.injEq] at moves <;> subst moves
    case nil.true =>
      cases kind with
      | cert => exact h.goto at_ rfl rfl
      | ticket =>
        cases service with
        | none => exact h.goto at_ rfl rfl
        | some t =>
          have free : ¬w.used .ticket t.id := by
            simp [System.used, empty, at_, Lifecycle.uses]
          refine Custody.undertake h (by decide) (known t rfl) free (fun i => ?_) (fun k i closes => ?_)
            fun k i closes => ?_
          · simp [System.used, System.goto, at_, Lifecycle.uses]
          · cases k
            · simp [System.closing, at_, Lifecycle.closing] at closes
            · exact closes
          · cases k
            · exact .inr (by simpa [System.closing, System.goto, Lifecycle.closing] using closes)
            · exact .inl closes
    case cons.false id rest | cons.true id rest =>
      cases kind with
      | cert => exact @System.Kept.stop _ _ w .cert _ _ h at_ (some id) _ rfl rfl distinct
      | ticket => exact @System.Kept.stopOther _ _ w .ticket _ _ h at_ .cert (by decide) (some id) _ rfl rfl
  case stopTickets service =>
    cases ok
    · cases service <;> simp only [lifecycleStep, reduceCtorEq, Option.some.injEq] at moves
      subst moves
      rename_i t
      cases kind with
      | cert => exact @System.Kept.stopOther _ _ w .cert _ _ h at_ .ticket (by decide) (some t.id) _ rfl rfl
      | ticket => exact @System.Kept.stop _ _ w .ticket _ _ h at_ (some t.id) _ rfl rfl (List.nodup_singleton _)
    · simp only [lifecycleStep, Option.some.injEq] at moves
      subst moves
      cases kind with
      | cert => exact h.stopOther at_ (by decide) rfl rfl
      | ticket => exact h.stop at_ rfl (by simp [Lifecycle.closing]) (nodup_toList _)
  case stopNotifier =>
    cases ok <;> simp only [lifecycleStep, Option.some.injEq, Bool.false_eq_true, if_true, if_false] at moves <;>
      subst moves <;> cases kind <;> exact h.goto at_ rfl rfl
  case finish =>
    cases ok <;> simp only [lifecycleStep, reduceCtorEq, Option.some.injEq] at moves
    subst moves
    have none (u : System σ π) (empty : u.server.currentGenerations = []) (uses : u.lifecycle.uses kind = [])
        (i : ℕ) : ¬u.used kind i := by simp [System.used, empty, uses]
    refine h.congr rfl rfl (fun i => iff_of_false (none _ rfl (by cases kind <;> rfl) i)
      (none w inside.2 (by rw [at_]; cases kind <;> rfl) i)) fun k i => ?_
    cases k
    · cases kind <;> simp [System.closing, System.goto, at_, Lifecycle.closing]
    · rfl

theorem System.Kept.submit [DecidableEq σ] [DecidableEq π] (h : w.Kept kind) {config : Prepared σ π}
    {force : Bool} (moves : step (.submit config force) w = some v) : v.Kept kind := by
  simp only [step] at moves
  split at moves <;> rename_i at_
  · split at moves <;> simp only [reduceCtorEq, Option.some.injEq] at moves
    subst moves
    cases kind <;> exact h.goto at_ rfl rfl
  · contradiction

/-- `stop!` takes the generations over. -/
theorem System.Kept.stopAll [DecidableEq σ] [DecidableEq π] (h : w.Kept kind) (formed : Wellformed w)
    {ok : Bool} (moves : step (.stop ok) w = some v) : v.Kept kind := by
  simp only [step] at moves
  split at moves <;> rename_i at_ <;> try contradiction
  split at moves <;> simp only [reduceCtorEq, Option.some.injEq] at moves
  cases ok <;> simp only [Bool.false_eq_true, if_true, if_false] at moves <;> subst moves
  · cases kind <;> exact h.goto at_ rfl rfl
  have begun : (w.server.active.elim w w.beginDrain).Kept kind := by
    cases active : w.server.active with
    | none => exact h
    | some g => exact h.beginDrain (formed.undrained g active)
  have same : (w.server.active.elim w w.beginDrain).server = w.server ∧
      (w.server.active.elim w w.beginDrain).lifecycle = .idle := by
    cases w.server.active <;> exact ⟨rfl, at_⟩
  refine begun.congr rfl rfl (fun i => ?_) fun k i => ?_
  · rw [System.used_iff, System.used_iff, same.1, same.2]
    cases kind <;> cases active : w.server.active <;>
      simp [System.goto, Server.stopping, Lifecycle.uses, or_and_right, exists_or, or_comm, active]
  · cases k
    · cases kind <;> simp [System.closing, System.goto, same.2, Lifecycle.closing]
    · rfl

theorem Consistent.step [DecidableEq σ] [DecidableEq π] (h : Consistent w) {a : Action σ π}
    (begins : drainRefused a w = false) (moves : step a w = some v) : Consistent v := by
  have formed := h.formed.step h.kept begins moves
  refine ⟨formed, fun kind => ?_⟩
  have kept := h.kept kind
  cases a with
  | submit config force => exact kept.submit moves
  | stop ok => exact kept.stopAll h.formed moves
  | tick ok =>
    cases gated : w.lifecycle.gated
    · exact kept.stopping h.formed formed gated moves
    · cases at_ : w.lifecycle <;> simp_all only [Lifecycle.gated, Bool.false_eq_true]
      exact kept.reload h.formed at_ begins (by simpa [Runtime.step, lifecycleStep, at_] using moves)
  | drained id ok =>
    simp only [Runtime.step] at moves
    split at moves <;> rename_i at_ <;> simp only [reduceCtorEq, Option.some.injEq] at moves
    subst moves
    exact kept.congr rfl rfl (fun _ => Iff.rfl)
      (System.closing_update (by rw [at_]; cases kind <;> rfl))
  | finalize id =>
    simp only [Runtime.step] at moves
    split at moves <;> rename_i gated
    · contradiction
    · exact kept.finalize h.formed (Bool.eq_false_iff.mpr gated) moves
  | finalizerTick id ok => exact kept.finalizerStep moves

theorem consistent_unstarted : Consistent (unstarted : System σ π) := by
  refine ⟨⟨?_, fun _ _ => rfl, fun _ => rfl, nofun, nofun, ?_, List.nodup_nil, .inl rfl, rfl⟩, fun kind => ?_⟩
  · simp [unstarted, Server.currentGenerations]
  · simp [unstarted]
  · refine Custody.congr (Custody.empty (κ := Option ℕ)) (fun i => ?_) fun k i => ?_
    · cases kind <;> simp [System.used, unstarted, Server.currentGenerations, Lifecycle.uses]
    · cases k <;> cases kind <;> simp [System.closing, unstarted, Lifecycle.closing, Finalizer.closing]

/-- In these runs every `begin-drain!` of a replaced generation returns. -/
def begins (a : Action σ π) (w : System σ π) : Prop := drainRefused a w = false

theorem consistent_of_reachable [DecidableEq σ] [DecidableEq π]
    (h : (machine σ π).ReachableVia begins w) : Consistent w := by
  refine h.invariant (I := Consistent) ?_ fun a w v hw begins moves => hw.step begins moves
  rintro _ rfl
  exact consistent_unstarted

end Busker.Runtime
