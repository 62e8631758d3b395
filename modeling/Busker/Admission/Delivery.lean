import Busker.Admission.Steps

/-! What the two tables are for: between two calls of `on-request` the dispatcher has exactly
the requests that were handed over and are not cleaned up, a response to one of them finds its
context, and nothing is left of a request that has been cleaned up. -/

namespace Busker.Admission

open Interleaving RequestTable CallbackDispatch

variable {τ κ : Type} [DecidableEq τ] [DecidableEq κ] {worker : τ} {module : ℤ} {s : State τ κ}

/-- A request in the memory `true` is admitted. -/
def admitOne : List (Action Bool) :=
  [.request true true true, .tick .returns, .tick .returns, .tick .returns, .install true true,
    .tick .returns]

def admitted : State Unit Bool := (machine () 1).runFrom admitOne (start () 1)

theorem reachable_admitted : (machine () 1).Reachable admitted :=
  Machine.Reachable.runFrom admitOne (.init rfl)

/-- The entries of the dispatcher are the tasks of the requests that have their memory still. -/
theorem entered_iff (positive : 0 < module) (bounded : module ≤ longMax)
    (reached : (machine (κ := κ) worker module).Reachable s) (idle : s.place = .idle)
    (opened : s.dispatch.phase ≠ .closed) (request : Request κ) (requestSeq : ℤ) :
    s.Entered request requestSeq ↔
      s.Current request ∧ ∃ task ∈ s.tasks, task.request = request ∧
        task.requestSeq = requestSeq := by
  have h := agreed_of_reachable positive bounded reached
  constructor
  · rintro ⟨entry, found, rfl⟩
    rcases h.entries requestSeq entry found with ⟨task, member, its, number, current⟩ | registered
    · exact ⟨its ▸ current, task, member, its, number⟩
    · rw [idle] at registered
      cases registered
  · rintro ⟨current, task, member, rfl, rfl⟩
    exact ((h.tasks task member).current current).2.2 opened

theorem entered_iff_admitted : admitted.Entered ⟨true, 0, true⟩ 1 :=
  (entered_iff (by decide) (by decide) reachable_admitted rfl (by decide) _ _).mpr
    ⟨⟨rfl, rfl⟩, _, List.mem_singleton_self _, rfl, rfl⟩

/-- A response under the identity of a task reaches the request of the task, or none once that
request is cleaned up, whatever has the memory now. -/
theorem response_reaches (positive : 0 < module) (bounded : module ≤ longMax)
    (reached : (machine (κ := κ) worker module).Reachable s) {task : Task κ}
    (handed : task ∈ s.tasks) :
    (s.Current task.request →
      responseRequest s.fuel s.receiver (uint64 task.moduleId) (uint64 task.requestSeq) =
      some (some task.request.ctx)) ∧
    (¬s.Current task.request →
      responseRequest s.fuel s.receiver (uint64 task.moduleId) (uint64 task.requestSeq) =
      some none) := by
  have h := agreed_of_reachable positive bounded reached
  have known := h.tasks task handed
  obtain ⟨table, contexts, kept⟩ := h.kept
  have enough : contexts.card < s.fuel := by
    rw [State.fuel, kept.size]
    omega
  rw [kept.response enough]
  constructor
  · intro current
    obtain ⟨⟨installed, number⟩, -⟩ := known.current current
    have module : (s.receiver.ctx task.request.ctx).dispatchModuleId = uint64 task.moduleId := by
      rw [known.module]
      exact (h.installed _ installed).1
    rw [(kept.table _ _ _).mpr ⟨(kept.members _).mpr installed, number, module⟩]
    simp
  · intro gone
    cases found : table (uint64 task.requestSeq) with
    | none => rfl
    | some entry =>
      obtain ⟨ctx, owner⟩ := entry
      obtain ⟨inside, number, -⟩ := (kept.table _ _ _).mp found
      obtain ⟨own, same⟩ := known.own ctx ((kept.members ctx).mp inside) number
      exact absurd ⟨own ▸ same, own ▸ (kept.live ctx inside).1⟩ gone

/-- Its memory is given to another request, which is admitted too. -/
def reused : State Unit Bool := (machine () 1).runFrom (.cleanup true :: admitOne) admitted

theorem reachable_reused : (machine () 1).Reachable reused :=
  Machine.Reachable.runFrom _ reachable_admitted

theorem response_reaches_reused :
    responseRequest reused.fuel reused.receiver (uint64 1) (uint64 1) = some none ∧
      responseRequest reused.fuel reused.receiver (uint64 1) (uint64 2) = some (some true) := by
  constructor
  · exact (@response_reaches _ _ _ _ _ _ _ (by decide) (by decide) reachable_reused
      ⟨⟨true, 0, true⟩, 1, 1⟩
      (List.mem_cons_self ..)).2 fun current => absurd current.number (by decide)
  · exact (@response_reaches _ _ _ _ _ _ _ (by decide) (by decide) reachable_reused
      ⟨⟨true, 1, true⟩, 1, 2⟩
      (List.mem_cons_of_mem _ (List.mem_singleton_self _))).1 ⟨rfl, rfl⟩

/-- `request_handler` is told that a request was admitted exactly when one task has it, and no
two tasks have one number. -/
theorem admitted_iff_handed (positive : 0 < module) (bounded : module ≤ longMax)
    (reached : (machine (κ := κ) worker module).Reachable s) :
    (∀ ctx, (s.receiver.ctx ctx).cleanup = false → (s.answer ctx = some .ok ↔
      ∃! task, task ∈ s.tasks ∧ task.request.ctx = ctx ∧ task.request.number = s.number ctx)) ∧
    (s.tasks.map (·.requestSeq)).Nodup := by
  have h := agreed_of_reachable positive bounded reached
  refine ⟨fun ctx live => ⟨fun ok => ?_, ?_⟩, h.identities⟩
  · obtain ⟨task, member, own, number⟩ := h.admitted ctx live ok
    refine ⟨task, ⟨member, own, number⟩, ?_⟩
    rintro other ⟨member', -, number'⟩
    exact List.inj_on_of_nodup_map h.distinct member' member (number'.trans number.symm)
  · rintro ⟨task, ⟨member, rfl, number⟩, -⟩
    exact ((h.tasks task member).current ⟨number.symm, live⟩).2.1

theorem admitted_iff_handed_reused :
    ∃! task, task ∈ reused.tasks ∧ task.request.ctx = true ∧
      task.request.number = reused.number true :=
  ((admitted_iff_handed (by decide) (by decide) reachable_reused).1 true rfl).mp rfl

/-- When every request is cleaned up both tables are empty, and `finish!` has nothing to force
out. -/
theorem nothing_left (positive : 0 < module) (bounded : module ≤ longMax)
    (reached : (machine (κ := κ) worker module).Reachable s) (idle : s.place = .idle)
    (cleaned : ∀ ctx, (s.receiver.ctx ctx).cleanup = true) :
    s.receiver.requestSize = 0 ∧ (∀ head ∈ s.receiver.requestBuckets.heads, head = none) ∧
      s.dispatch.entries = ∅ ∧ s.dispatch.finish.2 = [] := by
  have h := agreed_of_reachable positive bounded reached
  have empty : s.dispatch.entries = ∅ := by
    have none : s.dispatch.entries.entries = [] := by
      refine List.eq_nil_iff_forall_not_mem.mpr fun ⟨q, entry⟩ member => ?_
      have found := AList.mem_lookup_iff.mpr member
      rcases h.entries q entry found with ⟨task, -, -, -, current⟩ | registered
      · have live := current.live
        rw [cleaned] at live
        cases live
      · rw [idle] at registered
        cases registered
    exact AList.ext none
  obtain ⟨table, contexts, kept⟩ := h.kept
  obtain rfl : contexts = ∅ := by
    rw [Finset.eq_empty_iff_forall_notMem]
    intro ctx inside
    have live := (kept.live ctx inside).1
    rw [cleaned] at live
    cases live
  refine ⟨kept.size, fun head listed => kept.holds.heads_empty listed, empty, ?_⟩
  · unfold Dispatch.finish
    rw [empty]
    rfl

theorem nothing_left_cleaned :
    ((machine () 1).runFrom [.cleanup true] admitted).receiver.requestSize = 0 ∧
      ∀ head ∈ ((machine () 1).runFrom [.cleanup true] admitted).receiver.requestBuckets.heads, head = none := by
  have idle : ((machine () 1).runFrom [.cleanup true] admitted).place = .idle := rfl
  have cleaned : ∀ ctx,
      (((machine () 1).runFrom [.cleanup true] admitted).receiver.ctx ctx).cleanup = true := by
    intro ctx
    cases ctx <;> rfl
  obtain ⟨size, buckets, -⟩ := nothing_left (by decide) (by decide)
    (Machine.Reachable.runFrom _ reachable_admitted) idle cleaned
  exact ⟨size, buckets⟩

section drain

/-- The task that is still to be handed over of a request that is registered. -/
def Place.task : Place κ → Option (Task κ)
  | .installing request moduleId requestSeq => some ⟨request, moduleId, requestSeq⟩
  | .executing request moduleId requestSeq => some ⟨request, moduleId, requestSeq⟩
  | _ => none

/-- The dispatcher is past accepting, and the tasks are those of `tasks` so far. -/
structure Draining (tasks : List (Task κ)) (s : State τ κ) : Prop where
  phase : s.dispatch.phase ≠ .accepting
  tasks : s.tasks ++ s.place.task.toList <+: tasks

variable {tasks : List (Task κ)} {s' : State τ κ}

omit [DecidableEq τ] in
theorem Draining.returns (h : Draining tasks s) {d : Dispatch τ (Request κ) ℕ}
    (phase : d.phase = s.dispatch.phase)
    (ctx : κ) (code : Code) : Draining tasks ({ s with dispatch := d }.returns ctx code) where
  phase := phase ▸ h.phase
  tasks := by
    refine List.IsPrefix.trans ?_ h.tasks
    show s.tasks ++ [] <+: _
    exact List.prefix_append_right_inj _ |>.mpr (List.nil_prefix)

theorem Draining.tick (h : Draining tasks s) {outcome : Outcome}
    (moves : s.tick worker outcome s.place = some s') : Draining tasks s' := by
  cases here : s.place with
  | idle =>
    rw [here] at moves
    cases moves
  | allocating r =>
    rw [here, State.tick, (refuses h.phase 0 0 (State.entry r)).1] at moves
    cases moves
    exact h.returns rfl _ _
  | creating r m q =>
    rw [here, State.tick] at moves
    split at moves
    · cases moves
      exact ⟨h.phase, by simpa [here, Place.task] using h.tasks⟩
    · cases moves
      exact h.returns rfl _ _
  | registering r m q =>
    rw [here, State.tick, (refuses h.phase m q (State.entry r)).2] at moves
    cases moves
    exact h.returns rfl _ _
  | installing r m q =>
    rw [here] at moves
    cases moves
  | executing r m q =>
    have all := h.tasks
    rw [here] at moves all
    cases outcome with
    | returns =>
      cases moves
      exact ⟨h.phase, by simpa [State.returns, Place.task] using all⟩
    | rejected =>
      cases moves
      exact ⟨h.phase, (List.prefix_append_right_inj _).mpr List.nil_prefix |>.trans all⟩
    | interrupted =>
      cases moves
      exact ⟨h.phase, (List.prefix_append_right_inj _).mpr List.nil_prefix |>.trans all⟩
    | throws =>
      cases moves
      exact ⟨h.phase, (List.prefix_append_right_inj _).mpr List.nil_prefix |>.trans all⟩
  | retiring r m q code =>
    rw [here] at moves
    cases moves
    exact h.returns (retire_phase m q) _ _

theorem Draining.step (h : Draining tasks s) {a : Action κ} (moves : step worker a s = some s') :
    Draining tasks s' := by
  have so : s.tasks <+: tasks := (List.prefix_append _ _).trans h.tasks
  unfold Admission.step at moves
  split at moves
  case h_1 ctx hasBody running idle =>
    split at moves
    · cases moves
    · split at moves <;> cases moves
      · exact ⟨h.phase, by simpa [State.enter, Place.task] using so⟩
      · exact ⟨h.phase, by simpa [State.enter, State.returns, Place.task] using so⟩
  case h_2 outcome => exact h.tick moves
  case h_3 accepts room r m q here =>
    have all := h.tasks
    rw [here] at all
    obtain ⟨⟨installed, receiver⟩, -, moves⟩ := Option.bind_eq_some_iff.mp moves
    cases moves
    cases installed with
    | true => exact ⟨h.phase, all⟩
    | false => exact ⟨h.phase, by simpa [Place.task] using so⟩
  case h_4 ctx idle =>
    split at moves
    · cases moves
    · obtain ⟨receiver, -, moves⟩ := Option.bind_eq_some_iff.mp moves
      cases moves
      refine ⟨?_, by simpa [idle, Place.task] using so⟩
      dsimp only
      split
      · exact h.phase
      · rw [retire_phase]
        exact h.phase
  case h_5 =>
    cases moves
    have same : s.dispatch.beginDrain.1 = s.dispatch := by
      unfold Dispatch.beginDrain
      rw [if_neg h.phase]
    rw [same]
    exact h
  case h_6 idle =>
    cases moves
    exact ⟨by rw [finish_lookup.1]; decide, by simpa [idle, Place.task] using so⟩
  case h_7 => cases moves

/-- Once draining has begun no request is admitted, but for one that had been registered. -/
theorem admitsNoMore (draining : s.dispatch.phase ≠ .accepting) {schedule : List (Action κ)}
    (moves : (machine (κ := κ) worker module).run schedule s = some s') :
    s'.tasks <+: s.tasks ++ s.place.task.toList := by
  have kept : Draining (s.tasks ++ s.place.task.toList) s' :=
    Machine.run_invariant (fun _ _ _ h moves => h.step moves) ⟨draining, List.prefix_rfl⟩ moves
  exact (List.prefix_append _ _).trans kept.tasks

/-- Draining begins while a registered request is being installed. -/
def draining : State Unit Bool :=
  (machine () 1).runFrom (admitOne.take 4 ++ [.beginDrain]) (start () 1)

def handing : List (Action Bool) :=
  [.install true true, .tick .returns, .request false true true, .tick .returns]

theorem admitsNoMore_handing : ((machine () 1).runFrom handing draining).tasks <+:
    [⟨⟨true, 0, true⟩, 1, 1⟩] := by
  have enabled : ((machine () 1).run handing draining).isSome = true := rfl
  obtain ⟨t, moves⟩ := Option.isSome_iff_exists.mp enabled
  rw [Machine.runFrom, moves, Option.getD_some]
  exact admitsNoMore (by decide) moves

end drain

end Busker.Admission
