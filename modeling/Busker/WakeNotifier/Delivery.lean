import Busker.WakeNotifier.Quiescence

/-! Whether a request that was granted is followed by a native wake. It is as long as
the notifier does not leave its loop while an admitted request has still to be queued:
`run-notifier!` looks at `accepting?` and at the queue, and not at the admissions that
`stop-and-join!` waits for. -/

namespace Busker.WakeNotifier

open Interleaving

variable {ι ε : Type*} [DecidableEq ε]

/-- The endpoint of a request that has been admitted and may still be queued. -/
def admitted : Caller ε → Option ε
  | .openAgain e | .mark e | .offer e _ => some e
  | _ => none

/-- The request that is or will be granted, with the wakes before it. -/
def holding : Caller ε → Option (ε × ℕ)
  | .offer e wakes | .leave e (.granted wakes) => some (e, wakes)
  | _ => none

/-- The notifier has the endpoint in hand and has not begun its native wake. -/
def handling (e : ε) : Loop ε → Bool
  | .clear e' | .enter e' | .state e' | .receiver e' | .wakeup e' _ => decide (e' = e)
  | _ => false

/-- The notifier ends its loop with every admitted request for an open endpoint queued,
and the queue takes every offer. -/
def timely [Fintype ι] (a : Label ι ε) (s : State ι ε) : Bool :=
  match a with
  | .notifier _ =>
    match s.loop with
    | .isEmpty => !s.shared.queue.isEmpty ||
        decide (∀ i, (admitted (s.callers i)).all (fun e => !s.shared.isOpen e) = true)
    | _ => true
  | .caller i _ =>
    match s.callers i with
    | .offer .. => decide (s.shared.queue.length < queueCapacity)
    | _ => true

def Timely [Fintype ι] (a : Label ι ε) (s : State ι ε) : Prop := timely a s = true

instance [Fintype ι] (a : Label ι ε) (s : State ι ε) : Decidable (Timely a s) :=
  inferInstanceAs (Decidable (_ = true))

/-- Somebody is about to see to a wake of the endpoint. -/
def Coming (s : State ι ε) (e : ε) : Prop :=
  e ∈ s.shared.queue ∨ (∃ i wakes, s.callers i = .offer e wakes) ∨ handling e s.loop = true

/-- The endpoint is not open any more, or was woken since, or will be. -/
def Met (s : State ι ε) (e : ε) (wakes : ℕ) : Prop :=
  s.shared.isOpen e = false ∨ wakes < s.shared.wakes e ∨ Coming s e

def Promised (s : State ι ε) (e : ε) (wakes : ℕ) : Prop :=
  (e, wakes) ∈ s.shared.granted ∨ ∃ i, holding (s.callers i) = some (e, wakes)

structure Delivering (s : State ι ε) : Prop where
  bounded : ∀ e wakes, Promised s e wakes → wakes ≤ s.shared.wakes e
  met : ∀ e wakes, Promised s e wakes → Met s e wakes
  offered : ∀ i e, s.callers i ≠ .unmark e
  receivers : ∀ e, (s.shared.endpoint e).receiver = false → s.shared.isOpen e = false
  ending : s.loop = .isEmpty ∨ s.loop = .terminated → s.shared.accepting = false
  ended : s.loop = .terminated →
    (∀ i e, admitted (s.callers i) = some e → s.shared.isOpen e = false) ∧
      ∀ e ∈ s.shared.queue, s.shared.isOpen e = false

section notifier

variable {s : State ι ε} {u : Shared ε} {fails : Bool} {l : Loop ε}

/-- What the notifier leaves as it is, and that wakes only grow. -/
structure LoopFrame (v u : Shared ε) : Prop where
  accepting : u.accepting = v.accepting
  granted : u.granted = v.granted
  isOpen : ∀ e, u.isOpen e = v.isOpen e
  receiver : ∀ e, (u.endpoint e).receiver = (v.endpoint e).receiver
  wakes : ∀ e, v.wakes e ≤ u.wakes e
  queue : ∀ e ∈ u.queue, e ∈ v.queue

theorem loopFrame_of_step (moved : loopStep s.shared fails s.loop = some (u, l)) :
    LoopFrame s.shared u := by
  have same : ∀ {v : Shared ε}, LoopFrame v v := ⟨rfl, rfl, fun _ => rfl, fun _ => rfl, fun _ => le_rfl,
    fun _ h => h⟩
  generalize s.loop = loop at moved
  cases loop <;> simp only [loopStep, Option.some.injEq, reduceCtorEq] at moved
  case poll =>
    unfold poll at moved
    split at moved
    · obtain ⟨rfl, -⟩ := Prod.mk.inj moved
      exact ⟨rfl, rfl, fun _ => rfl, fun _ => rfl, fun _ => le_rfl, fun _ h => h⟩
    · split at moved <;> obtain ⟨rfl, -⟩ := Prod.mk.inj moved
      · rename_i first rest here
        exact ⟨rfl, rfl, fun _ => rfl, fun _ => rfl, fun _ => le_rfl,
          fun e h => here ▸ List.mem_cons_of_mem _ h⟩
      · exact same
  all_goals obtain ⟨rfl, -⟩ := Prod.mk.inj moved
  case clear e' =>
    exact ⟨rfl, rfl, fun _ => by simp [Shared.isOpen], fun _ => by simp, fun _ => le_rfl, fun _ h => h⟩
  case enter e' =>
    exact ⟨rfl, rfl, fun _ => by simp [Shared.isOpen], fun _ => by simp, fun _ => le_rfl, fun _ h => h⟩
  case leave e' =>
    exact ⟨rfl, rfl, fun _ => by simp [Shared.isOpen], fun _ => by simp, fun _ => le_rfl, fun _ h => h⟩
  case wakeup e' again =>
    refine ⟨rfl, rfl, fun _ => rfl, fun _ => rfl, fun e => ?_, fun _ h => h⟩
    by_cases he : e = e' <;> simp [Shared.beginWake, he]
  all_goals exact same

theorem queued_loopStep {v : Shared ε} {loop : Loop ε} (moved : loopStep v fails loop = some (u, l)) {e : ε}
    (queued : e ∈ v.queue) : e ∈ u.queue ∨ handling e l = true := by
  cases loop <;> simp only [loopStep, Option.some.injEq, reduceCtorEq] at moved
  case poll =>
    unfold poll at moved
    split at moved
    · obtain ⟨rfl, -⟩ := Prod.mk.inj moved
      exact .inl queued
    · split at moved <;> obtain ⟨rfl, rfl⟩ := Prod.mk.inj moved
      · rename_i first rest here
        rw [here] at queued
        rcases List.mem_cons.mp queued with taken | later
        · exact .inr (by simp [handling, taken])
        · exact .inl later
      · exact .inl queued
  all_goals
    obtain ⟨rfl, -⟩ := Prod.mk.inj moved
    exact .inl queued

theorem handled_loopStep {v : Shared ε} {loop : Loop ε} (moved : loopStep v fails loop = some (u, l)) {e : ε}
    (receivers : (v.endpoint e).receiver = false → v.isOpen e = false) (handled : handling e loop = true) :
    v.isOpen e = false ∨ v.wakes e < u.wakes e ∨ handling e l = true := by
  cases loop <;> simp only [handling, decide_eq_true_eq, Bool.false_eq_true] at handled
  all_goals
    subst handled
    simp only [loopStep, Option.some.injEq] at moved
    obtain ⟨rfl, rfl⟩ := Prod.mk.inj moved
  case clear => exact .inr (.inr (by simp [handling]))
  case enter => exact .inr (.inr (by simp [handling]))
  case state =>
    split
    · exact .inr (.inr (by simp [handling]))
    · rename_i unopened
      exact .inl (by simpa using unopened)
  case receiver =>
    split
    · exact .inr (.inr (by simp [handling]))
    · rename_i retired
      exact .inl (receivers (by simpa using retired))
  case wakeup again => exact .inr (.inl (by simp [Shared.beginWake]))

theorem ending_loopStep {v : Shared ε} {loop : Loop ε} (moved : loopStep v fails loop = some (u, l)) :
    (l = .isEmpty → v.accepting = false) ∧ (l = .terminated → loop = .isEmpty ∧ v.queue = []) := by
  cases loop <;> simp only [loopStep, Option.some.injEq, reduceCtorEq] at moved
  case poll =>
    unfold poll at moved
    split at moved
    · obtain ⟨-, rfl⟩ := Prod.mk.inj moved
      simp
    · split at moved <;> obtain ⟨-, rfl⟩ := Prod.mk.inj moved <;> simp
  all_goals obtain ⟨-, rfl⟩ := Prod.mk.inj moved
  case accepting => cases hv : v.accepting <;> simp
  case isEmpty => cases hv : v.queue <;> simp
  all_goals (try split) <;> simp

/-- A wake that is coming begins, or is still coming, or the endpoint is not open. -/
theorem met_loopStep (h : Delivering s) (moved : loopStep s.shared fails s.loop = some (u, l)) {e : ε}
    {wakes : ℕ} (bound : wakes ≤ s.shared.wakes e) (met : Met s e wakes) :
    Met { s with shared := u, loop := l } e wakes := by
  have frame := loopFrame_of_step moved
  rcases met with closed | woken | queued | offering | handled
  · exact .inl ((frame.isOpen e).trans closed)
  · exact .inr (.inl (woken.trans_le (frame.wakes e)))
  · rcases queued_loopStep moved queued with still | taken
    · exact .inr (.inr (.inl still))
    · exact .inr (.inr (.inr (.inr taken)))
  · exact .inr (.inr (.inr (.inl offering)))
  · rcases handled_loopStep moved (h.receivers e) handled with closed | woken | still
    · exact .inl ((frame.isOpen e).trans closed)
    · exact .inr (.inl (bound.trans_lt woken))
    · exact .inr (.inr (.inr (.inr still)))

end notifier

section caller

variable {v u : Shared ε} {c q : Caller ε} {move : Move ε}

/-- What a calling thread does to an endpoint, the queue and the requests granted. -/
structure CallerFrame (v u : Shared ε) (c q : Caller ε) : Prop where
  accepting : v.accepting = false → u.accepting = false
  wakes : u.wakes = v.wakes
  receiver : ∀ e, (u.endpoint e).receiver = false →
    (v.endpoint e).receiver = false ∨ quiescing c = some e
  queued : ∀ e ∈ v.queue, e ∈ u.queue
  queue : ∀ e ∈ u.queue, e ∈ v.queue ∨ admitted c = some e
  offered : ∀ e wakes, c = .offer e wakes → e ∈ u.queue
  granted : ∀ e wakes, (e, wakes) ∈ u.granted → (e, wakes) ∈ v.granted ∨ holding c = some (e, wakes)
  holding : ∀ e wakes, holding q = some (e, wakes) → holding c = some (e, wakes) ∨
    c = .mark e ∧ wakes = v.wakes e ∧ ((v.endpoint e).pending = true ∨ q = .offer e wakes)
  admitted : ∀ e, admitted q = some e → admitted c = some e ∨ v.accepting = true
  unmark : ∀ e, q ≠ .unmark e

theorem callerFrame_of_step (moved : callerStep v c move = some (u, q))
    (room : ∀ e wakes, c = .offer e wakes → v.queue.length < queueCapacity) : CallerFrame v u c q := by
  have keep : ∀ {w : Shared ε} {c q : Caller ε}, w.queue = v.queue → w.granted = v.granted →
      w.wakes = v.wakes → (v.accepting = false → w.accepting = false) →
      (∀ e, (w.endpoint e).receiver = false → (v.endpoint e).receiver = false ∨ quiescing c = some e) →
      (∀ e wakes, c ≠ .offer e wakes) → WakeNotifier.holding q = none →
      (∀ e, WakeNotifier.admitted q = some e → WakeNotifier.admitted c = some e ∨ v.accepting = true) →
      (∀ e, q ≠ .unmark e) → CallerFrame v w c q := by
    intro w c q queue granted wakes accepting receiver offer hold admits unmark
    exact ⟨accepting, wakes, receiver, fun e h => queue ▸ h, fun e h => .inl (queue ▸ h),
      fun e n h => absurd h (offer e n), fun e n h => .inl (granted ▸ h),
      fun e n h => by simp [hold] at h, admits, unmark⟩
  have quiet : ∀ {c q : Caller ε}, (∀ e wakes, c ≠ .offer e wakes) → WakeNotifier.holding q = none →
      (∀ e, WakeNotifier.admitted q = some e → WakeNotifier.admitted c = some e ∨ v.accepting = true) →
      (∀ e, q ≠ .unmark e) → CallerFrame v v c q :=
    fun offer hold admits unmark =>
      keep rfl rfl rfl id (fun _ h => .inl h) offer hold admits unmark
  cases c <;> cases move <;> simp only [callerStep, reduceCtorEq, Option.some.injEq] at moved
  case mark.tick e =>
    unfold mark at moved
    split at moved <;> obtain ⟨rfl, rfl⟩ := Prod.mk.inj moved
    · rename_i marked
      exact ⟨id, rfl, fun _ h => .inl h, fun _ h => h, fun _ h => .inl h, by simp,
        fun _ _ h => .inl h, by simp_all [WakeNotifier.holding], by simp [WakeNotifier.admitted], by simp⟩
    · exact ⟨id, rfl, fun _ h => .inl (by simpa using h), fun _ h => h, fun _ h => .inl h, by simp,
        fun _ _ h => .inl h, by simp_all [WakeNotifier.holding], fun _ h => .inl h, by simp⟩
  case offer.tick e wakes =>
    have fits := room e wakes rfl
    rw [offer, if_pos fits] at moved
    obtain ⟨rfl, rfl⟩ := Prod.mk.inj moved
    refine ⟨id, rfl, fun _ h => .inl h, fun _ h => List.mem_append_left _ h, fun e' h => ?_, by simp,
      fun _ _ h => .inl h, fun _ _ h => .inl h, by simp [WakeNotifier.admitted], by simp⟩
    refine (List.mem_append.mp h).imp id fun own => ?_
    rw [List.mem_singleton.mp own, WakeNotifier.admitted]
  case leave.tick e outcome =>
    obtain ⟨same, rfl⟩ := Prod.mk.inj moved
    subst same
    cases outcome
    case granted wakes =>
      refine ⟨id, rfl, fun _ h => .inl h, fun _ h => h, fun _ h => .inl h, by simp, fun e' n h => ?_,
        by simp [WakeNotifier.holding], by simp [WakeNotifier.admitted], by simp⟩
      refine (List.mem_append.mp h).imp id fun own => ?_
      rw [List.mem_singleton.mp own, WakeNotifier.holding]
    all_goals exact keep rfl rfl rfl id (fun _ h => .inl h) (by simp) rfl (by simp [WakeNotifier.admitted]) (by simp)
  case quiesceSwap.tick e retire =>
    obtain ⟨same, rfl⟩ := Prod.mk.inj moved
    unfold quiesceSwap at same
    split at same <;> subst same
    · exact keep rfl rfl rfl id (fun _ h => .inl (by simpa using h)) (by simp) rfl (by simp [WakeNotifier.admitted]) (by simp)
    · exact quiet (by simp) rfl (by simp [WakeNotifier.admitted]) (by simp)
  all_goals obtain ⟨rfl, rfl⟩ := Prod.mk.inj moved
  case unmark.tick e =>
    exact keep rfl rfl rfl id (fun _ h => .inl (by simpa using h)) (by simp) rfl (by simp [WakeNotifier.admitted]) (by simp)
  case enter.tick e =>
    exact keep rfl rfl rfl id (fun _ h => .inl h) (by simp) rfl (by simp [WakeNotifier.admitted]) (by simp)
  case acceptingAgain.tick e =>
    split
    · rename_i accepting
      exact quiet (by simp) rfl (fun _ _ => .inr accepting) (by simp)
    · exact quiet (by simp) rfl (by simp [WakeNotifier.admitted]) (by simp)
  case openAgain.tick e =>
    split
    · exact quiet (by simp) rfl (fun _ h => .inl h) (by simp)
    · exact quiet (by simp) rfl (by simp [WakeNotifier.admitted]) (by simp)
  case quiesceSet.tick e retire =>
    refine keep rfl rfl rfl id (fun _ h => .inl (by simpa using h)) (by simp) ?_ ?_ ?_
    all_goals cases retire <;> simp [WakeNotifier.holding, WakeNotifier.admitted]
  case destroyReceiver.tick e =>
    split
    · exact keep rfl rfl rfl id (fun _ h => .inl h) (by simp) rfl (by simp [WakeNotifier.admitted]) (by simp)
    · exact quiet (by simp) rfl (by simp [WakeNotifier.admitted]) (by simp)
  case clearReceiver.tick e =>
    refine keep rfl rfl rfl id (fun e' h => ?_) (by simp) rfl (by simp [WakeNotifier.admitted]) (by simp)
    rw [Shared.setReceiver_receiver] at h
    split at h
    · rename_i own
      exact .inr (own ▸ rfl)
    · exact .inl h
  case stopSet.tick =>
    exact keep rfl rfl rfl (fun _ => rfl) (fun _ h => .inl h) (by simp) rfl (by simp [WakeNotifier.admitted]) (by simp)
  case stopInterrupt.tick =>
    exact keep rfl rfl rfl id (fun _ h => .inl h) (by simp) rfl (by simp [WakeNotifier.admitted]) (by simp)
  case accepting.tick e =>
    split <;> exact quiet (by simp) rfl (by simp [WakeNotifier.admitted]) (by simp)
  case openFirst.tick e =>
    split <;> exact quiet (by simp) rfl (by simp [WakeNotifier.admitted]) (by simp)
  case quiesceSpin.tick e retire =>
    split <;> exact quiet (by simp) rfl (by simp [WakeNotifier.admitted]) (by simp)
  case stopSpin.tick =>
    split <;> exact quiet (by simp) rfl (by simp [WakeNotifier.admitted]) (by simp)
  all_goals exact quiet (by simp) rfl (by simp [WakeNotifier.admitted]) (by simp)

end caller

section run

variable [Fintype ι] [DecidableEq ι] {a : Label ι ε} {s t : State ι ε} {e : ε} {n : ℕ}

omit [DecidableEq ι] in
/-- An endpoint is pending because its wake is coming. -/
theorem coming_of_pending (token : Tokened s e) (offered : ∀ i, s.callers i ≠ .unmark e)
    (pending : (s.shared.endpoint e).pending = true) : Coming s e := by
  rw [Tokened, if_pos pending] at token
  by_cases queued : e ∈ s.shared.queue
  · exact .inl queued
  by_cases taken : clearing e s.loop = 0
  · have some_offering : ¬census (offering e) s.callers = 0 := by
      rw [List.count_eq_zero.mpr queued, taken] at token
      omega
    rw [census_eq_zero, not_forall] at some_offering
    obtain ⟨i, held⟩ := some_offering
    refine .inr (.inl ⟨i, ?_⟩)
    have known := offered i
    generalize s.callers i = c at held known
    cases c <;> simp only [offering, not_true_eq_false, ite_eq_right_iff, one_ne_zero, imp_false,
      not_not] at held
    case offer e' wakes => exact ⟨wakes, held ▸ rfl⟩
    case unmark e' => exact absurd (held ▸ rfl) known
  · refine .inr (.inr ?_)
    generalize s.loop = l at taken
    cases l <;> simp_all [clearing, handling]

omit [Fintype ι] in
theorem met_callerStep {u : Shared ε} {i : ι} {c : Caller ε} (frame : CallerFrame s.shared u (s.callers i) c)
    (stays : s.shared.isOpen e = false → u.isOpen e = false) (met : Met s e n) :
    Met { s with shared := u, callers := Function.update s.callers i c } e n := by
  rcases met with closed | woken | queued | ⟨j, wakes, offers⟩ | handled
  · exact .inl (stays closed)
  · exact .inr (.inl (frame.wakes ▸ woken))
  · exact .inr (.inr (.inl (frame.queued e queued)))
  · by_cases hj : j = i
    · exact .inr (.inr (.inl (frame.offered e wakes (hj ▸ offers))))
    · exact .inr (.inr (.inr (.inl ⟨j, wakes, (Function.update_of_ne hj ..).trans offers⟩)))
  · exact .inr (.inr (.inr (.inr handled)))

omit [DecidableEq ι] in
theorem delivering_loopStep {u : Shared ε} {fails : Bool} {l : Loop ε} (h : Delivering s)
    (timely : Timely (.notifier fails) s) (moved : loopStep s.shared fails s.loop = some (u, l)) :
    Delivering { s with shared := u, loop := l } := by
  have frame := loopFrame_of_step moved
  have promised : ∀ e n, Promised { s with shared := u, loop := l } e n → Promised s e n := by
    intro e n hp
    exact hp.imp_left fun granted => frame.granted ▸ granted
  have bounded : ∀ e n, Promised { s with shared := u, loop := l } e n → n ≤ s.shared.wakes e :=
    fun e n hp => h.bounded e n (promised e n hp)
  have ending := ending_loopStep moved
  refine ⟨fun e n hp => (bounded e n hp).trans (frame.wakes e),
    fun e n hp => met_loopStep h moved (bounded e n hp) (h.met e n (promised e n hp)), h.offered,
    fun e hr => (frame.isOpen e).trans (h.receivers e (frame.receiver e ▸ hr)), ?_, ?_⟩
  · intro at_end
    refine frame.accepting.trans (at_end.elim ending.1 fun ended => ?_)
    exact h.ending (.inl (ending.2 ended).1)
  · intro ended
    obtain ⟨at_end, none_queued⟩ := ending.2 ended
    simp only [Timely, WakeNotifier.timely, at_end, none_queued, List.isEmpty_nil, Bool.not_true,
      Bool.false_or, decide_eq_true_eq] at timely
    refine ⟨fun i e admits => (frame.isOpen e).trans ?_, fun e queued => ?_⟩
    · have unopened := timely i
      rw [admits] at unopened
      simpa using unopened
    · have := frame.queue e queued
      rw [none_queued] at this
      contradiction

theorem delivering_callerStep {u : Shared ε} {i : ι} {move : Move ε} {c : Caller ε} (h : Delivering s)
    (quiet : Quiet s) (tokens : ∀ e, Tokened s e) (timely : Timely (.caller i move) s)
    (moved : callerStep s.shared (s.callers i) move = some (u, c)) :
    Delivering { s with shared := u, callers := Function.update s.callers i c } := by
  have frame := callerFrame_of_step moved fun e wakes here => by
    simpa [Timely, WakeNotifier.timely, here] using timely
  have stays := fun e => (callerEffect_of_step moved e).stays
  -- the requests promised before, and one that has just found or made its endpoint pending
  have promised : ∀ e n, Promised { s with shared := u, callers := Function.update s.callers i c } e n →
      Promised s e n ∨ s.callers i = .mark e ∧ n = s.shared.wakes e ∧
        ((s.shared.endpoint e).pending = true ∨ c = .offer e n) := by
    rintro e n (granted | ⟨j, held⟩)
    · exact .inl ((frame.granted e n granted).imp id fun held => ⟨i, held⟩)
    · dsimp only at held
      by_cases hj : j = i
      · subst hj
        rw [Function.update_self] at held
        exact (frame.holding e n held).imp_left fun held => .inr ⟨j, held⟩
      · rw [Function.update_of_ne hj] at held
        exact .inl (.inr ⟨j, held⟩)
  refine ⟨fun e n hp => ?_, fun e n hp => ?_, fun j e => ?_, fun e hr => ?_, fun at_end => ?_, fun ended => ?_⟩
  · change n ≤ u.wakes e
    rw [frame.wakes]
    exact (promised e n hp).elim (h.bounded e n) fun new => new.2.1.le
  · rcases promised e n hp with before | ⟨-, -, pending | offers⟩
    · exact met_callerStep frame (stays e) (h.met e n before)
    · refine met_callerStep frame (stays e) (.inr (.inr ?_))
      exact coming_of_pending (tokens e) (fun j => h.offered j e) pending
    · exact .inr (.inr (.inr (.inl ⟨i, n, offers ▸ Function.update_self ..⟩)))
  · exact forall_update (P := fun _ c => c ≠ Caller.unmark e) (fun j => h.offered j e) (frame.unmark e) j
  · rcases frame.receiver e hr with before | retiring
    · exact stays e (h.receivers e before)
    · exact stays e (quiet.unopened i e retiring)
  · exact frame.accepting (h.ending at_end)
  · obtain ⟨admits, queued⟩ := h.ended ended
    have own : ∀ e, admitted c = some e → u.isOpen e = false := by
      intro e admitted_now
      rcases frame.admitted e admitted_now with before | accepting
      · exact stays e (admits i e before)
      · simp [h.ending (.inr ended)] at accepting
    refine ⟨fun j e => ?_, fun e hq => ?_⟩
    · exact forall_update (P := fun _ c => admitted c = some e → u.isOpen e = false)
        (fun j hj => stays e (admits j e hj)) (own e) j
    · rcases frame.queue e hq with before | offers
      · exact stays e (queued e before)
      · exact stays e (admits i e offers)

theorem delivering_of_timely (h : (machine (ι := ι) (ε := ε)).ReachableVia Timely s) : Delivering s := by
  refine h.invariant_of (J := fun s => Quiet s ∧ ∀ e, Tokened s e)
    (fun s hs => ⟨quiet_of_reachable hs.reachable, tokened_of_reachable hs.reachable⟩) ?_ ?_
  · rintro _ rfl
    exact ⟨by simp [Promised, start, holding], by simp [Promised, start, holding], by simp [start],
      by simp [start, openEndpoint], by simp [start], by simp [start]⟩
  · rintro a s t ⟨quiet, tokens⟩ hs timely moves
    rcases stepFn_cases moves with ⟨fails, u, l, rfl, moved, rfl⟩ | ⟨i, move, u, c, rfl, moved, rfl⟩
    · exact delivering_loopStep hs timely moved
    · exact delivering_callerStep hs quiet tokens timely moved

end run

/-- When the notifier thread has terminated, every request it granted for an endpoint that
is still open was followed by a native wake. -/
def Drained (s : State ι ε) : Prop :=
  s.loop = .terminated → ∀ e wakes, (e, wakes) ∈ s.shared.granted → s.shared.isOpen e = true →
    wakes < s.shared.wakes e

/-- While no admitted request for an open endpoint is left behind when the notifier ends
its loop, a granted request is woken for, and before the thread terminates. -/
theorem drained_of_timely [Fintype ι] [DecidableEq ι] {s : State ι ε}
    (h : (machine (ι := ι) (ε := ε)).ReachableVia Timely s) :
    (∀ e wakes, (e, wakes) ∈ s.shared.granted → Met s e wakes) ∧ Drained s := by
  have delivering := delivering_of_timely h
  refine ⟨fun e wakes granted => delivering.met e wakes (.inl granted), fun ended e wakes granted opened => ?_⟩
  obtain ⟨admits, queued⟩ := delivering.ended ended
  have still_open : ¬s.shared.isOpen e = false := by simp [opened]
  rcases delivering.met e wakes (.inl granted) with closed | woken | waits | ⟨i, n, offers⟩ | handled
  · exact absurd closed still_open
  · exact woken
  · exact absurd (queued e waits) still_open
  · exact absurd (admits i e (by rw [offers, admitted])) still_open
  · simp [ended, handling] at handled

/-- Thread `true` requests a wake, and thread `false` stops the notifier when it has done
so many of its eight steps. -/
def stoppedAfter (steps : ℕ) : List (Label Bool Unit) :=
  .caller true (.request ()) :: List.replicate steps (.caller true .tick) ++
    [.caller false .stop, .caller false .tick] ++ List.replicate 2 (.notifier false)

/-- The request is granted before the notifier is stopped, which serves it. -/
def served : State Bool Unit :=
  machine.runFromVia Timely (stoppedAfter 8 ++ List.replicate 10 (.notifier false)) start

theorem served_drained : served.loop = .terminated ∧
    (∀ e wakes, (e, wakes) ∈ served.shared.granted → Met served e wakes) ∧ Drained served :=
  ⟨by decide +kernel, drained_of_timely (.runFromVia _ (.init rfl))⟩

/-- The notifier is stopped between the second look at `accepting?_` and the `offer`. -/
def stranded : State Bool Unit :=
  machine.runFrom (stoppedAfter 4 ++ List.replicate 4 (.caller true .tick)) start

theorem stranded_not_drained : (machine (ι := Bool)).Reachable stranded ∧ ¬Drained stranded := by
  refine ⟨.runFrom _ (.init rfl), fun drained => ?_⟩
  have woken := drained (by decide +kernel) () 0 (by decide +kernel) (by decide +kernel)
  have none_begun : stranded.shared.wakes () = 0 := by decide +kernel
  omega

end Busker.WakeNotifier
