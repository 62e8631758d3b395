import Busker.Interleaving.Census
import Busker.Interleaving.Threads
import Busker.WakeNotifier.Notifier
import Mathlib.Data.List.Count

/-! Two guarantees of the notifier for every interleaving: an endpoint is queued at most
once and is pending while it is, and after `quiesce-endpoint!` has returned no native
wake of the endpoint is running or begins. -/

namespace Busker.WakeNotifier

open Interleaving

variable {ι ε : Type*} [DecidableEq ε]

/-- Between the increment and the decrement of the endpoint's `in-flight_`. -/
def inside (e : ε) : Loop ε → Bool
  | .state e' | .receiver e' | .wakeup e' _ | .waking e' _ | .leave e' => decide (e' = e)
  | _ => false

/-- The notifier has found the endpoint open and may be in, or begin, a native wake. -/
def touching (e : ε) : Loop ε → Bool
  | .receiver e' | .wakeup e' _ | .waking e' _ => decide (e' = e)
  | _ => false

/-- The endpoint that the caller has taken out of `:open`. -/
def quiescing : Caller ε → Option ε
  | .quiesceSpin e _ | .quiesceSet e _ | .destroyReceiver e | .clearReceiver e => some e
  | _ => none

/-- The endpoint whose native wakes the caller has seen come to an end. -/
def settled : Caller ε → Option ε
  | .quiesceSet e _ | .destroyReceiver e | .clearReceiver e => some e
  | _ => none

/-- What `quiesce-endpoint!` relies on. -/
structure Quiet (s : State ι ε) : Prop where
  inFlight : ∀ e, (s.shared.endpoint e).inFlight = if inside e s.loop then 1 else 0
  unopened : ∀ i e, quiescing (s.callers i) = some e → s.shared.isOpen e = false
  untouched : ∀ i e, settled (s.callers i) = some e → touching e s.loop = false
  closed : ∀ e, (s.shared.endpoint e).state = .closed → touching e s.loop = false

theorem inside_of_touching {e : ε} {l : Loop ε} (h : touching e l = true) : inside e l = true := by
  cases l <;> simp_all [touching, inside]

omit [DecidableEq ε] in
theorem quiescing_of_settled {c : Caller ε} {e : ε} (h : settled c = some e) : quiescing c = some e := by
  cases c <;> simp_all [settled, quiescing]

section step

variable {s : State ι ε} {u : Shared ε} {fails : Bool} {l : Loop ε}

theorem poll_keeps (shared : Shared ε) (e : ε) :
    (poll shared).1.endpoint = shared.endpoint ∧ inside e (poll shared).2 = false ∧
      touching e (poll shared).2 = false := by
  unfold poll
  split
  · exact ⟨rfl, rfl, rfl⟩
  · split <;> exact ⟨rfl, rfl, rfl⟩

/-- What a step of the notifier does to an endpoint's phase and in-flight count. -/
theorem loopStep_quiet (moved : loopStep s.shared fails s.loop = some (u, l))
    (h : ∀ e, (s.shared.endpoint e).inFlight = if inside e s.loop then 1 else 0) (e : ε) :
    (u.endpoint e).state = (s.shared.endpoint e).state ∧
      ((u.endpoint e).inFlight = if inside e l then 1 else 0) ∧
      (touching e l = true → touching e s.loop = true ∨ s.shared.isOpen e = true) := by
  have before := h e
  generalize s.loop = loop at moved before h
  cases loop <;> simp only [loopStep, Option.some.injEq, reduceCtorEq] at moved
  case poll =>
    obtain ⟨same, out, away⟩ := poll_keeps s.shared e
    rw [moved] at same out away
    rw [same, out, away]
    exact ⟨rfl, before, fun h => by contradiction⟩
  all_goals obtain ⟨rfl, rfl⟩ := Prod.mk.inj moved
  case accepting =>
    refine ⟨rfl, ?_, ?_⟩
    · split <;> exact before
    · split <;> intro h <;> contradiction
  case isEmpty =>
    refine ⟨rfl, ?_, ?_⟩
    · split <;> exact before
    · split <;> intro h <;> contradiction
  case clear e' => simpa [inside, touching] using before
  case enter e' =>
    have none_inside := h e'
    by_cases he : e = e'
    · subst he
      simp_all [inside, touching]
    · simp_all [inside, touching, Ne.symm he]
  case state e' =>
    refine ⟨rfl, ?_, ?_⟩
    · split <;> exact before
    · split
      · rename_i opened
        intro touch
        obtain rfl : e' = e := by simpa [touching] using touch
        exact .inr opened
      · intro h
        contradiction
  case receiver e' =>
    refine ⟨rfl, ?_, ?_⟩
    · split <;> exact before
    · split
      · exact fun touch => .inl touch
      · intro h
        contradiction
  case wakeup e' again => exact ⟨rfl, before, fun touch => .inl touch⟩
  case waking e' again =>
    refine ⟨rfl, ?_, ?_⟩
    · split <;> exact before
    · split
      · exact fun touch => .inl touch
      · intro h
        contradiction
  case leave e' =>
    have own := h e'
    by_cases he : e = e'
    · subst he
      simp_all [inside, touching]
    · simp_all [inside, touching, Ne.symm he]

variable {c q : Caller ε} {move : Move ε} {v : Shared ε}

/-- What a step of a calling thread does to an endpoint's phase, and what it knows. -/
structure CallerEffect (v u : Shared ε) (c q : Caller ε) (e : ε) : Prop where
  inFlight : (u.endpoint e).inFlight = (v.endpoint e).inFlight
  stays : v.isOpen e = false → u.isOpen e = false
  unopened : quiescing q = some e → quiescing c = some e ∨ u.isOpen e = false
  untouched : settled q = some e → settled c = some e ∨
    quiescing c = some e ∧ (v.endpoint e).inFlight = 0
  closed : (u.endpoint e).state = .closed → (v.endpoint e).state = .closed ∨ settled c = some e

theorem callerEffect_of_step (moved : callerStep v c move = some (u, q)) (e : ε) :
    CallerEffect v u c q e := by
  have keep : ∀ {w : Shared ε} {c q : Caller ε}, w.endpoint = v.endpoint → quiescing q = none →
      settled q = none → CallerEffect v w c q e := by
    intro w c q same hq hs
    have opened : w.isOpen e = v.isOpen e := by rw [Shared.isOpen, same, Shared.isOpen]
    exact ⟨by rw [same], fun h => opened.trans h, fun h => by simp [hq] at h,
      fun h => by simp [hs] at h, fun h => .inl (same ▸ h)⟩
  have pending : ∀ {c q : Caller ε} (e' : ε) (b : Bool), quiescing q = none → settled q = none →
      CallerEffect v (v.setPending e' b) c q e := by
    intro c q e' b hq hs
    exact ⟨by simp, fun h => by simpa [Shared.isOpen] using h, fun h => by simp [hq] at h,
      fun h => by simp [hs] at h, fun h => .inl (by simpa using h)⟩
  cases c <;> cases move <;> simp only [callerStep, reduceCtorEq, Option.some.injEq] at moved
  case mark.tick e' =>
    unfold mark at moved
    split at moved <;> obtain ⟨rfl, rfl⟩ := Prod.mk.inj moved
    · exact keep rfl rfl rfl
    · exact pending e' true rfl rfl
  case offer.tick e' wakes =>
    unfold offer at moved
    split at moved <;> obtain ⟨rfl, rfl⟩ := Prod.mk.inj moved
    all_goals exact keep rfl rfl rfl
  case leave.tick e' outcome =>
    obtain ⟨same, rfl⟩ := Prod.mk.inj moved
    subst same
    cases outcome <;> exact keep rfl rfl rfl
  case quiesceSwap.tick e' retire =>
    obtain ⟨same, rfl⟩ := Prod.mk.inj moved
    have opened : (quiesceSwap v e').isOpen e' = false ∧
        (v.isOpen e = false → (quiesceSwap v e').isOpen e = false) ∧
        ((quiesceSwap v e').endpoint e).inFlight = (v.endpoint e).inFlight ∧
        (((quiesceSwap v e').endpoint e).state = .closed → (v.endpoint e).state = .closed) := by
      unfold quiesceSwap
      split
      · refine ⟨by simp [Shared.isOpen], fun h => ?_, by simp, fun h => ?_⟩
        · by_cases he : e = e' <;> simp_all [Shared.isOpen]
        · by_cases he : e = e' <;> simp_all
      · exact ⟨by simp_all, id, rfl, id⟩
    rw [same] at opened
    refine ⟨opened.2.2.1, opened.2.1, fun h => ?_, fun h => by simp [settled] at h,
      fun h => .inl (opened.2.2.2 h)⟩
    obtain rfl := Option.some.inj h
    exact .inr opened.1
  all_goals obtain ⟨rfl, rfl⟩ := Prod.mk.inj moved
  case unmark.tick e' => exact pending e' false rfl rfl
  case accepting.tick => split <;> exact keep rfl rfl rfl
  case openFirst.tick => split <;> exact keep rfl rfl rfl
  case acceptingAgain.tick => split <;> exact keep rfl rfl rfl
  case openAgain.tick => split <;> exact keep rfl rfl rfl
  case stopSpin.tick => split <;> exact keep rfl rfl rfl
  case quiesceSpin.tick e' retire =>
    split
    · exact ⟨rfl, id, fun h => .inl h, fun h => by simp [settled] at h, .inl⟩
    · rename_i none_left
      refine ⟨rfl, id, fun h => .inl h, fun h => ?_, .inl⟩
      obtain rfl := Option.some.inj h
      exact .inr ⟨rfl, by omega⟩
  case quiesceSet.tick e' retire =>
    refine ⟨by simp, fun h => ?_, fun h => ?_, fun h => ?_, fun h => ?_⟩
    · by_cases he : e = e' <;> simp_all [Shared.isOpen]
    · cases retire <;> simp_all [quiescing]
    · cases retire <;> simp_all [settled]
    · by_cases he : e = e'
      · exact .inr (he ▸ rfl)
      · simp_all
  case destroyReceiver.tick e' =>
    split
    · exact ⟨rfl, id, fun h => .inl h, fun h => .inl h, .inl⟩
    · exact ⟨rfl, id, fun h => .inl h, fun h => .inl h, .inl⟩
  case clearReceiver.tick e' =>
    exact ⟨by simp, fun h => by simpa [Shared.isOpen] using h, fun h => by simp [quiescing] at h,
      fun h => by simp [settled] at h, fun h => .inl (by simpa using h)⟩
  all_goals exact keep rfl rfl rfl

theorem closed_callerStep {e : ε} (moved : callerStep v c move = some (u, q))
    (closed : (v.endpoint e).state = .closed) :
    (u.endpoint e).state = .closed ∧ u.wakes e = v.wakes e := by
  cases c <;> cases move <;> simp only [callerStep, reduceCtorEq, Option.some.injEq] at moved
  case mark.tick e' =>
    unfold mark at moved
    split at moved <;> obtain ⟨rfl, -⟩ := Prod.mk.inj moved
    · exact ⟨closed, rfl⟩
    · exact ⟨by simpa using closed, rfl⟩
  case offer.tick e' wakes =>
    unfold offer at moved
    split at moved <;> obtain ⟨rfl, -⟩ := Prod.mk.inj moved <;> exact ⟨closed, rfl⟩
  case leave.tick e' outcome =>
    obtain ⟨same, -⟩ := Prod.mk.inj moved
    subst same
    cases outcome <;> exact ⟨closed, rfl⟩
  case quiesceSwap.tick e' retire =>
    obtain ⟨same, -⟩ := Prod.mk.inj moved
    unfold quiesceSwap at same
    split at same <;> subst same
    · rename_i opened
      have other : e ≠ e' := by
        rintro rfl
        simp [Shared.isOpen, closed] at opened
      exact ⟨by simpa [other] using closed, rfl⟩
    · exact ⟨closed, rfl⟩
  all_goals obtain ⟨rfl, -⟩ := Prod.mk.inj moved
  case unmark.tick e' => exact ⟨by simpa using closed, rfl⟩
  case quiesceSet.tick e' retire =>
    refine ⟨?_, rfl⟩
    rw [Shared.setState_state]
    split
    · rfl
    · exact closed
  case destroyReceiver.tick e' => split <;> exact ⟨closed, rfl⟩
  case clearReceiver.tick e' => exact ⟨by simpa using closed, rfl⟩
  all_goals exact ⟨closed, rfl⟩

end step

section run

variable [DecidableEq ι] {a : Label ι ε} {s t : State ι ε}

theorem quiet_step (h : Quiet s) (moves : stepFn a s = some t) : Quiet t := by
  rcases stepFn_cases moves with ⟨fails, u, l, -, moved, rfl⟩ | ⟨i, move, u, c, -, moved, rfl⟩
  · have effect := loopStep_quiet moved h.inFlight
    have untouched : ∀ e, touching e s.loop = false → s.shared.isOpen e = false →
        touching e l = false := by
      intro e away unopened
      by_contra touch
      have := (effect e).2.2 (by simpa using touch)
      simp_all
    refine ⟨fun e => (effect e).2.1, fun i e hq => ?_, fun i e hs => ?_, fun e hc => ?_⟩
    · have before := h.unopened i e hq
      simp only [Shared.isOpen, (effect e).1] at before ⊢
      exact before
    · exact untouched e (h.untouched i e hs) (h.unopened i e (quiescing_of_settled hs))
    · have closed := (effect e).1 ▸ hc
      exact untouched e (h.closed e closed) (by simp [Shared.isOpen, closed])
  · have effect := callerEffect_of_step moved
    have away : ∀ e, settled c = some e ∨ settled (s.callers i) = some e → touching e s.loop = false := by
      rintro e (now | before)
      · rcases (effect e).untouched now with before | ⟨-, none_inside⟩
        · exact h.untouched i e before
        · have outside := h.inFlight e
          by_contra touch
          rw [none_inside, if_pos (inside_of_touching (by simpa using touch))] at outside
          contradiction
      · exact h.untouched i e before
    refine ⟨fun e => ?_, ?_, ?_, fun e hc => ?_⟩
    · rw [(effect e).inFlight]
      exact h.inFlight e
    · intro j e
      refine forall_update (P := fun _ c => quiescing c = some e → u.isOpen e = false)
        (fun j hq => (effect e).stays (h.unopened j e hq)) (fun hq => ?_) j
      exact ((effect e).unopened hq).elim (fun before => (effect e).stays (h.unopened i e before)) id
    · intro j e
      exact forall_update (P := fun _ c => settled c = some e → touching e s.loop = false)
        (fun j hs => h.untouched j e hs) (fun hs => away e (.inl hs)) j
    · rcases (effect e).closed hc with before | now
      · exact h.closed e before
      · exact away e (.inr now)

theorem quiet_of_reachable (h : (machine (ι := ι) (ε := ε)).Reachable s) : Quiet s := by
  apply h.invariant
  · rintro _ rfl
    exact ⟨fun _ => rfl, fun _ _ h => by simp [start, quiescing] at h,
      fun _ _ h => by simp [start, settled] at h, fun _ _ => rfl⟩
  · exact fun a s t hs moves => quiet_step hs moves

/-- Once an endpoint is closed it stays closed and no native wake of it begins. -/
theorem closed_step (h : Quiet s) (moves : stepFn a s = some t) {e : ε}
    (closed : (s.shared.endpoint e).state = .closed) :
    (t.shared.endpoint e).state = .closed ∧ t.shared.wakes e = s.shared.wakes e := by
  rcases stepFn_cases moves with ⟨fails, u, l, -, moved, rfl⟩ | ⟨i, move, u, c, -, moved, rfl⟩
  · refine ⟨(loopStep_quiet moved h.inFlight e).1.trans closed, ?_⟩
    have away := h.closed e closed
    generalize s.loop = loop at moved away
    cases loop <;> simp only [loopStep, Option.some.injEq, reduceCtorEq] at moved
    case wakeup e' again =>
      obtain ⟨rfl, -⟩ := Prod.mk.inj moved
      have other : e ≠ e' := fun he => by simp [touching, he] at away
      exact Function.update_of_ne other ..
    case poll =>
      unfold poll at moved
      split at moved
      · obtain ⟨rfl, -⟩ := Prod.mk.inj moved
        rfl
      · split at moved <;> obtain ⟨rfl, -⟩ := Prod.mk.inj moved <;> rfl
    all_goals
      obtain ⟨rfl, -⟩ := Prod.mk.inj moved
      rfl
  · exact closed_callerStep moved closed

end run

section queue

variable [Fintype ι]

/-- The caller has made the endpoint pending and has not queued it. -/
def offering (e : ε) : Caller ε → ℕ
  | .offer e' _ | .unmark e' => if e' = e then 1 else 0
  | _ => 0

/-- The notifier has taken the endpoint from the queue and not cleared `pending?_`. -/
def clearing (e : ε) : Loop ε → ℕ
  | .clear e' => if e' = e then 1 else 0
  | _ => 0

/-- The endpoint is pending as long as it is on its way into, in, or out of the queue,
and it is in one of these places only. -/
def Tokened (s : State ι ε) (e : ε) : Prop :=
  s.shared.queue.count e + census (offering e) s.callers + clearing e s.loop =
    if (s.shared.endpoint e).pending then 1 else 0

variable {s : State ι ε} {u : Shared ε} {fails : Bool} {l : Loop ε} {e : ε}

theorem tokened_loopStep (h : Tokened s e) (moved : loopStep s.shared fails s.loop = some (u, l)) :
    Tokened { s with shared := u, loop := l } e := by
  obtain ⟨shared, loop, callers⟩ := s
  unfold Tokened at h ⊢
  dsimp only at h moved ⊢
  cases loop <;> simp only [loopStep, Option.some.injEq, reduceCtorEq] at moved
  case poll =>
    unfold poll at moved
    split at moved
    · obtain ⟨rfl, rfl⟩ := Prod.mk.inj moved
      exact h
    · split at moved <;> obtain ⟨rfl, rfl⟩ := Prod.mk.inj moved
      · rename_i first rest here
        rw [here, List.count_cons] at h
        simp only [clearing, beq_iff_eq] at h ⊢
        omega
      · exact h
  all_goals obtain ⟨rfl, rfl⟩ := Prod.mk.inj moved
  case clear e' =>
    change shared.queue.count e + _ + _ = _
    simp only [clearing, Shared.setPending_pending] at h ⊢
    by_cases he : e' = e
    · subst he
      simp only [if_true] at h ⊢
      split at h <;> simp only [Bool.false_eq_true, if_false] <;> omega
    · simpa [he, Ne.symm he] using h
  case accepting => split <;> exact h
  case isEmpty => split <;> exact h
  case state e' => split <;> exact h
  case receiver e' => split <;> exact h
  case waking e' again => split <;> exact h
  case wakeup e' again => exact h
  all_goals
    change shared.queue.count e + _ + _ = _
    simpa [clearing] using h

theorem tokened_callerStep [DecidableEq ι] {i : ι} {c : Caller ε} {move : Move ε} (h : Tokened s e)
    (moved : callerStep s.shared (s.callers i) move = some (u, c)) :
    Tokened { s with shared := u, callers := Function.update s.callers i c } e := by
  have counts := census_update (offering e) s.callers i c
  obtain ⟨shared, loop, callers⟩ := s
  unfold Tokened at h ⊢
  dsimp only at h moved counts ⊢
  have keep : u.queue = shared.queue → (u.endpoint e).pending = (shared.endpoint e).pending →
      offering e c = offering e (callers i) →
      u.queue.count e + census (offering e) (Function.update callers i c) + clearing e loop =
        if (u.endpoint e).pending then 1 else 0 := by
    intro queue pending same
    rw [queue, pending]
    omega
  generalize hp : callers i = p at moved counts keep
  cases p <;> cases move <;> simp only [callerStep, reduceCtorEq, Option.some.injEq] at moved
  case mark.tick e' =>
    unfold mark at moved
    split at moved <;> obtain ⟨rfl, rfl⟩ := Prod.mk.inj moved
    · exact keep rfl rfl rfl
    · change shared.queue.count e + _ + _ = _
      simp only [offering, Shared.setPending_pending] at counts ⊢
      by_cases he : e' = e
      · subst he
        simp_all
      · simp only [he, Ne.symm he, if_false] at counts ⊢
        omega
  case offer.tick e' wakes =>
    unfold offer at moved
    split at moved <;> obtain ⟨rfl, rfl⟩ := Prod.mk.inj moved
    · change (shared.queue ++ [e']).count e + _ + _ = _
      rw [List.count_append, List.count_singleton]
      simp only [offering, beq_iff_eq] at counts ⊢
      omega
    · exact keep rfl rfl rfl
  case unmark.tick e' =>
    obtain ⟨rfl, rfl⟩ := Prod.mk.inj moved
    change shared.queue.count e + _ + _ = _
    simp only [offering, Shared.setPending_pending] at counts ⊢
    have own := le_census (offering e) callers i
    rw [hp, offering] at own
    by_cases he : e' = e
    · subst he
      simp only [if_true] at counts own ⊢
      split at h <;> simp only [Bool.false_eq_true, if_false] <;> omega
    · simp only [he, Ne.symm he, if_false] at counts ⊢
      omega
  case leave.tick e' outcome =>
    obtain ⟨same, rfl⟩ := Prod.mk.inj moved
    subst same
    cases outcome <;> exact keep rfl rfl rfl
  case quiesceSwap.tick e' retire =>
    obtain ⟨same, rfl⟩ := Prod.mk.inj moved
    unfold quiesceSwap at same
    split at same <;> subst same
    · exact keep rfl (by simp) rfl
    · exact keep rfl rfl rfl
  all_goals obtain ⟨rfl, rfl⟩ := Prod.mk.inj moved
  case accepting.tick => exact keep rfl rfl (by split <;> rfl)
  case openFirst.tick => exact keep rfl rfl (by split <;> rfl)
  case acceptingAgain.tick => exact keep rfl rfl (by split <;> rfl)
  case openAgain.tick => exact keep rfl rfl (by split <;> rfl)
  case stopSpin.tick => exact keep rfl rfl (by split <;> rfl)
  case quiesceSpin.tick => exact keep rfl rfl (by split <;> rfl)
  case quiesceSet.tick e' retire => cases retire <;> exact keep rfl (by simp) rfl
  case destroyReceiver.tick => exact keep (by split <;> rfl) (by split <;> rfl) rfl
  case clearReceiver.tick e' => exact keep rfl (by simp) rfl
  all_goals exact keep rfl rfl rfl

theorem tokened_of_reachable [DecidableEq ι] (h : (machine (ι := ι) (ε := ε)).Reachable s) (e : ε) :
    Tokened s e := by
  apply h.invariant
  · rintro _ rfl
    have none_offering : census (offering e) (start : State ι ε).callers = 0 := census_const_zero rfl
    rw [Tokened, none_offering]
    rfl
  · intro a s t hs moves
    rcases stepFn_cases moves with ⟨fails, u, l, -, moved, rfl⟩ | ⟨i, move, u, c, -, moved, rfl⟩
    · exact tokened_loopStep hs moved
    · exact tokened_callerStep hs moved

end queue

/-- The queue of the notifier. -/
structure QueuedOnce (s : State ι ε) : Prop where
  once : ∀ e, s.shared.queue.count e ≤ 1
  pending : ∀ e ∈ s.shared.queue, (s.shared.endpoint e).pending = true

theorem queuedOnce_of_tokened [Fintype ι] {s : State ι ε} (h : ∀ e, Tokened s e) : QueuedOnce s := by
  constructor
  · intro e
    have token := h e
    unfold Tokened at token
    split at token <;> omega
  · intro e queued
    have token := h e
    have counted := List.count_pos_iff.mpr queued
    unfold Tokened at token
    by_contra idle
    rw [if_neg idle] at token
    omega

/-- After `quiesce-endpoint!` has closed an endpoint, no native wake of it runs and none
begins, whatever else is called. -/
theorem wakes_quiesced [DecidableEq ι] [Fintype ι] {s : State ι ε}
    (h : (machine (ι := ι) (ε := ε)).Reachable s) :
    QueuedOnce s ∧ ∀ schedule t e, machine.run schedule s = some t →
      (s.shared.endpoint e).state = .closed →
      (t.shared.endpoint e).state = .closed ∧ touching e t.loop = false ∧
        t.shared.wakes e = s.shared.wakes e := by
  refine ⟨queuedOnce_of_tokened fun e => tokened_of_reachable h e, fun schedule => ?_⟩
  induction schedule generalizing s with
  | nil =>
    intro t e ran closed
    obtain rfl := Option.some.inj ran
    exact ⟨closed, (quiet_of_reachable h).closed e closed, rfl⟩
  | cons a rest ih =>
    intro t e ran closed
    obtain ⟨next, moves, ran⟩ := Option.bind_eq_some_iff.mp ran
    have after := closed_step (quiet_of_reachable h) moves closed
    obtain ⟨still, away, wakes⟩ := ih (h.step moves) t e ran after.1
    exact ⟨still, away, wakes.trans after.2⟩

/-- An endpoint is queued for a wake, and then quiesced while the notifier has it. -/
def quiesced : State Bool Unit :=
  machine.runFrom (.caller true (.request ()) :: List.replicate 8 (.caller true .tick) ++
    List.replicate 3 (.notifier false) ++ .caller false (.quiesce ()) ::
    List.replicate 3 (.caller false .tick)) start

theorem quiesced_wakes :
    (machine.runFrom (List.replicate 3 (.notifier true)) quiesced).shared.wakes () =
      quiesced.shared.wakes () :=
  ((wakes_quiesced (.runFrom _ (.init rfl))).2 (List.replicate 3 (.notifier true)) _ () rfl
    (by decide +kernel)).2.2

end Busker.WakeNotifier
