import Busker.CloseCallbacks.Registration

/-! Delivery of close callbacks, for every interleaving of registrations, closes, stops
and runs of the tasks. -/

namespace Busker.CloseCallbacks

open Interleaving

variable {ι κ : Type*}

/-- No thread has been given the task yet. -/
def Reserved (tasks : List (Task κ)) (k : ℕ) : Prop :=
  ∃ t : Task κ, tasks[k]? = some t ∧ t.runner = .reserved

structure Lawful [Fintype ι] (s : State ι κ) : Prop where
  chained : Chained s.emitter
  guarded : Guarded s.emitter.lock Caller.inside s.callers
  knows : ∀ i, Knows s.emitter.lifecycle (s.callers i)
  emptied : s.emitter.lifecycle.phase = .closed → s.emitter.lifecycle.callbacks = []
  settled : (∀ i, (s.callers i).clearing = false) → Accounted s.emitter false
  clearing : ∀ i, (s.callers i).clearing = true → Accounted s.emitter true
  exclusive : Exclusive fun i => (s.callers i).hand
  held : ∀ k, Reserved s.emitter.tasks k ↔ ∃ i, (s.callers i).hand = some k
  claims : s.emitter.closes + census Caller.claiming s.callers ≤
    if s.emitter.lifecycle.phase = .opened then 0 else 1

theorem Caller.inside_of_clearing {c : Caller κ} (h : c.clearing = true) : c.inside = true := by
  cases c <;> simp_all [Caller.clearing, Caller.inside]

section runner

variable {e e' : Emitter ι κ} {k : ℕ} {throws : Bool}

/-- What the threads that run tasks leave as it is. -/
structure RunnerFrame (e e' : Emitter ι κ) : Prop where
  lifecycle : e'.lifecycle = e.lifecycle
  lock : e'.lock = e.lock
  registered : e'.registered = e.registered
  closes : e'.closes = e.closes
  callbacks : e'.tasks.flatMap Task.callbacks = e.tasks.flatMap Task.callbacks
  reserved : ∀ k, Reserved e'.tasks k ↔ Reserved e.tasks k

theorem reserved_set {tasks : List (Task κ)} {t t' : Task κ} (here : tasks[k]? = some t)
    (before : t.runner ≠ .reserved) (after : t'.runner ≠ .reserved) (j : ℕ) :
    Reserved (tasks.set k t') j ↔ Reserved tasks j := by
  unfold Reserved
  have inside := (List.getElem?_eq_some_iff.mp here).1
  by_cases hj : j = k
  · subst hj
    rw [List.getElem?_set_self inside, here]
    simp [before, after]
  · rw [List.getElem?_set_ne (Ne.symm hj)]

theorem runnerFrame_of_step (moves : runnerStep e k throws = some e') : RunnerFrame e e' := by
  unfold runnerStep at moves
  split at moves
  · contradiction
  rename_i t here
  have changed : ∀ {e' : Emitter ι κ} {t' : Task κ}, e'.tasks = e.tasks.set k t' →
      t'.callbacks = t.callbacks → t.runner ≠ .reserved → t'.runner ≠ .reserved →
      e'.lifecycle = e.lifecycle → e'.lock = e.lock → e'.registered = e.registered →
      e'.closes = e.closes → RunnerFrame e e' := by
    intro e' t' tasks callbacks before after lifecycle lock registered closes
    refine ⟨lifecycle, lock, registered, closes, ?_, ?_⟩
    · obtain ⟨whole, set⟩ := flatMap_set Task.callbacks (b := t') here
      rw [tasks, set, whole, callbacks]
    · rw [tasks]
      exact reserved_set here before after
  split at moves <;> rename_i runner
  · contradiction
  · split at moves
    · obtain rfl := Option.some.inj moves
      exact changed rfl rfl (by simp [runner]) (by simp) rfl rfl rfl rfl
    · contradiction
  · obtain rfl := Option.some.inj moves
    exact changed rfl rfl (by simp [runner]) (by simp) rfl rfl rfl rfl
  · obtain rfl := Option.some.inj moves
    exact changed rfl rfl (by simp [runner]) (by simp) rfl rfl rfl rfl
  · obtain rfl := Option.some.inj moves
    exact changed rfl rfl (by simp [runner]) (by simp) rfl rfl rfl rfl
  · obtain rfl := Option.some.inj moves
    exact changed rfl rfl (by simp [runner]) (by simp) rfl rfl rfl rfl
  · contradiction

end runner

theorem reserved_reserve (e : Emitter ι κ) (callbacks : List κ) (previous k : ℕ) :
    Reserved (e.reserve callbacks previous).tasks k ↔ k = e.tasks.length ∨ Reserved e.tasks k := by
  unfold Reserved Emitter.reserve
  dsimp only
  rcases Nat.lt_trichotomy k e.tasks.length with inside | rfl | outside
  · rw [List.getElem?_append_left inside]
    exact ⟨.inr, fun h => h.resolve_left inside.ne⟩
  · simp
  · have absent : e.tasks[k]? = none := List.getElem?_eq_none outside.le
    have beyond : (e.tasks ++ [⟨callbacks, previous, e.tasks.length + 1, .reserved, []⟩])[k]? = none := by
      rw [List.getElem?_eq_none_iff, List.length_append, List.length_singleton]
      exact outside
    rw [absent, beyond]
    simp [outside.ne']

theorem reserved_handOver {e : Emitter ι κ} {k : ℕ} (here : Reserved e.tasks k) (l : ℕ) :
    Reserved (e.handOver k).tasks l ↔ l ≠ k ∧ Reserved e.tasks l := by
  obtain ⟨t, there, -⟩ := here
  have inside := (List.getElem?_eq_some_iff.mp there).1
  have made : (e.handOver k).tasks = e.tasks.set k { t with runner := .dispatched } := by
    rw [Emitter.handOver, there]
    rfl
  unfold Reserved
  rw [made]
  by_cases same : l = k
  · subst same
    rw [List.getElem?_set_self inside]
    simp
  · rw [List.getElem?_set_ne (Ne.symm same)]
    simp [same]

theorem Accounted.congr {e e' : Emitter ι κ} {clearing : Bool} (h : Accounted e clearing)
    (lifecycle : e'.lifecycle = e.lifecycle) (registered : e'.registered = e.registered)
    (callbacks : e'.tasks.flatMap Task.callbacks = e.tasks.flatMap Task.callbacks) :
    Accounted e' clearing := by
  rw [Accounted, registered, callbacks, lifecycle]
  exact h

theorem Chained.congr {e e' : Emitter ι κ} (h : Chained e) (tail : e'.tail = e.tail)
    (delivered : e'.delivered = e.delivered) (tasks : e'.tasks = e.tasks)
    (started : e'.started = e.started) : Chained e' := by
  refine ⟨?_, ?_, ?_, ?_, ?_, ?_, ?_⟩
  · rw [tail, tasks]
    exact h.tail
  · rw [tasks]
    exact h.linked
  · rw [tasks]
    exact h.sound
  · rw [tasks]
    exact h.ordered
  · rw [started, tasks]
    exact h.started
  · rw [tasks, delivered]
    exact h.delivered
  · rw [tasks, delivered]
    exact h.fresh

section step

variable [Fintype ι] {s : State ι κ} {e : Emitter ι κ}

theorem Lawful.runner (h : Lawful s) {k : ℕ} {throws : Bool}
    (moves : runnerStep s.emitter k throws = some e) : Lawful { s with emitter := e } := by
  have frame := runnerFrame_of_step moves
  refine ⟨h.chained.runnerStep moves, ?_, fun i => ?_, ?_, fun none_clears => ?_, fun i clears => ?_,
    h.exclusive, fun k => (frame.reserved k).trans (h.held k), ?_⟩
  · dsimp only
    rw [frame.lock]
    exact h.guarded
  · dsimp only
    rw [frame.lifecycle]
    exact h.knows i
  · dsimp only
    rw [frame.lifecycle]
    exact h.emptied
  · exact (h.settled none_clears).congr frame.lifecycle frame.registered frame.callbacks
  · exact (h.clearing i clears).congr frame.lifecycle frame.registered frame.callbacks
  · dsimp only
    rw [frame.lifecycle, frame.closes]
    exact h.claims

variable [DecidableEq ι] {i : ι} {c : Caller κ}

/-- What is registered is accounted for, as the thread that moves sees it. -/
theorem Lawful.accounted (h : Lawful s) (inside : (s.callers i).inside = true) :
    Accounted s.emitter (s.callers i).clearing := by
  cases clears : (s.callers i).clearing
  · refine h.settled fun j => ?_
    by_cases hj : j = i
    · exact hj ▸ clears
    · by_contra other
      have within := Caller.inside_of_clearing (by simpa using other)
      simp [h.guarded.others inside hj] at within
  · exact h.clearing i clears

/-- What a thread has in hand is reserved, and what is reserved is in one thread's hands. -/
theorem Lawful.hands (h : Lawful s) (move : ChainMove s.emitter e (s.callers i).hand c.hand) :
    Chained e ∧ (Exclusive fun j => (Function.update s.callers i c j).hand) ∧
      ∀ k, Reserved e.tasks k ↔ ∃ j, (Function.update s.callers i c j).hand = some k := by
  have before := h.held
  have exclusive := h.exclusive
  have hands := held_update Caller.hand s.callers i c
  generalize hp : (s.callers i).hand = p at move
  generalize hq : c.hand = q at move hands
  have after : ∀ k, (∃ j, (Function.update s.callers i c j).hand = some k) ↔
      ∃ j, Function.update (fun j => (s.callers j).hand) i q j = some k :=
    fun k => exists_congr fun j => by rw [← congrFun hands j]
  cases move with
  | keep _ tail delivered tasks started =>
    have same : (fun j => (Function.update s.callers i c j).hand) = fun j => (s.callers j).hand :=
      held_update_same (hq.trans hp.symm)
    refine ⟨h.chained.congr tail delivered tasks started, same ▸ exclusive, fun k => ?_⟩
    rw [tasks, before k]
    exact exists_congr fun j => by rw [congrFun same j]
  | reserve callbacks tail delivered tasks started =>
    refine ⟨(h.chained.reserve callbacks).congr tail delivered tasks started, ?_, fun k => ?_⟩
    · rw [hands]
      refine exclusive.acquire fun j held => ?_
      obtain ⟨t, there, -⟩ := (before _).mpr ⟨j, held⟩
      exact absurd (List.getElem?_eq_some_iff.mp there).1 (Nat.lt_irrefl _)
    · rw [tasks, reserved_reserve, before k, after k]
      exact (held_acquire (fun j => (s.callers j).hand) hp).symm
  | handOver k tail delivered tasks started =>
    have here := (before k).mpr ⟨i, hp⟩
    obtain ⟨t, there, reserved⟩ := here
    refine ⟨(h.chained.handOver there reserved).congr ?_ ?_ tasks ?_, ?_, fun l => ?_⟩
    · rw [tail, (handOver_same _ k).1]
    · rw [delivered, (handOver_same _ k).2.1]
    · rw [started, (handOver_same _ k).2.2.1]
    · rw [hands]
      exact exclusive.release i
    · rw [tasks, reserved_handOver ⟨t, there, reserved⟩, before l, after l]
      exact (exclusive.held_release hp).symm

theorem Lawful.caller (h : Lawful s) (spec : CallerSpec i s.emitter e (s.callers i) c) :
    Lawful ⟨e, Function.update s.callers i c⟩ := by
  have others : ∀ j, j ≠ i → (s.callers i).inside = true → (s.callers j).clearing = false := by
    intro j hj inside
    by_contra clears
    have within := Caller.inside_of_clearing (by simpa using clears)
    simp [h.guarded.others inside hj] at within
  have inside_kept : ∀ j, Knows e.lifecycle (Function.update s.callers i c j) := by
    intro j
    by_cases hj : j = i
    · subst hj
      rw [Function.update_self]
      exact spec.knows
    · rw [Function.update_of_ne hj]
      cases within : (s.callers j).inside
      · exact knows_of_outside within
      · have away : (s.callers i).inside = false := h.guarded.others within (Ne.symm hj)
        rw [(spec.outside away).1]
        exact h.knows j
  obtain ⟨chained, exclusive, held⟩ := h.hands spec.chain
  have claims := h.claims
  have moved := census_update Caller.claiming s.callers i c
  refine ⟨chained, h.guarded.step spec.lock, inside_kept, spec.emptied h.emptied, fun none_clears => ?_,
    fun j clears => ?_, exclusive, held, ?_⟩
  · dsimp only at none_clears ⊢
    have own : c.clearing = false := by
      have := none_clears i
      rwa [Function.update_self] at this
    cases within : (s.callers i).inside
    · obtain ⟨lifecycle, registered, callbacks, -⟩ := spec.outside within
      refine (h.settled fun j => ?_).congr lifecycle registered callbacks
      by_cases hj : j = i
      · subst hj
        by_contra clears
        simp [Caller.inside_of_clearing (by simpa using clears)] at within
      · have := none_clears j
        rwa [Function.update_of_ne hj] at this
    · have accounted := spec.accounted within h.emptied (h.accounted within)
      rwa [own] at accounted
  · dsimp only at clears ⊢
    cases within : (s.callers i).inside
    · obtain ⟨lifecycle, registered, callbacks, clear⟩ := spec.outside within
      have other : j ≠ i := by
        rintro rfl
        rw [Function.update_self, clear] at clears
        contradiction
      rw [Function.update_of_ne other] at clears
      exact (h.clearing j clears).congr lifecycle registered callbacks
    · have accounted := spec.accounted within h.emptied (h.accounted within)
      by_cases hj : j = i
      · subst hj
        rw [Function.update_self] at clears
        rwa [clears] at accounted
      · rw [Function.update_of_ne hj, others j hj within] at clears
        contradiction
  · dsimp only
    by_cases opened : e.lifecycle.phase = .opened
    · obtain ⟨before, bound⟩ := spec.opened opened
      rw [if_pos before] at claims
      rw [if_pos opened]
      omega
    · rw [if_neg opened]
      rcases spec.claims with bound | ⟨before, bound⟩
      · split at claims <;> omega
      · rw [if_pos before] at claims
        omega

theorem Lawful.step {a : Label ι κ} {t : State ι κ} (h : Lawful s) (moves : stepFn a s = some t) :
    Lawful t := by
  cases a with
  | caller i move =>
    obtain ⟨⟨e, c⟩, moved, rfl⟩ := Option.map_eq_some_iff.mp moves
    exact h.caller (callerSpec_of_step moved (h.knows i))
  | callback task throws =>
    obtain ⟨e, moved, rfl⟩ := Option.map_eq_some_iff.mp moves
    exact h.runner moved
  | stopWriter =>
    obtain rfl := Option.some.inj moves
    exact ⟨h.chained.congr rfl rfl rfl rfl, h.guarded, h.knows, h.emptied, h.settled, h.clearing,
      h.exclusive, h.held, h.claims⟩

theorem lawful_of_reachable (h : (machine (ι := ι) (κ := κ)).Reachable s) : Lawful s := by
  apply h.invariant
  · rintro _ rfl
    refine ⟨⟨rfl, by simp [newEmitter], by simp [newEmitter], by simp [newEmitter], rfl,
      by simp [newEmitter], fun k later => ?_⟩, guarded_outside rfl, fun _ => trivial, fun _ => rfl,
      fun _ => rfl, fun i clears => by simp [newEmitter, Caller.clearing] at clears, Exclusive.none,
      fun k => ?_, ?_⟩
    · have := Nat.ne_of_gt later
      simpa [newEmitter] using this
    · simp [Reserved, newEmitter, Caller.hand]
    · have none_claims : census Caller.claiming (newEmitter : State ι κ).callers = 0 :=
        census_const_zero rfl
      rw [none_claims]
      exact le_rfl
  · exact fun a s t hs moves => hs.step moves

end step

/-- Each callback is in the vector, or in a task of the chain that a thread has been given. -/
def Placed (s : State ι κ) : Prop :=
  ∀ callback ∈ s.emitter.registered, callback ∈ s.emitter.lifecycle.callbacks ∨
    ∃ t ∈ s.emitter.tasks, callback ∈ t.callbacks ∧ t.runner ≠ .reserved

/-- Each callback is in the vector, or in a task of the chain that a thread has been given
or that the call that reserved it has yet to hand to one. -/
def PlacedOrInHand (s : State ι κ) : Prop :=
  ∀ callback ∈ s.emitter.registered, callback ∈ s.emitter.lifecycle.callbacks ∨
    ∃ k t, s.emitter.tasks[k]? = some t ∧ callback ∈ t.callbacks ∧
      (t.runner = .reserved → ∃ i, (s.callers i).hand = some k)

/-- What an emitter owes to the callbacks registered with it. -/
structure Delivers (s : State ι κ) : Prop where
  placed : PlacedOrInHand s
  ordered : s.emitter.started <+: s.emitter.registered
  oneByOne : ∀ (j k : ℕ) (a b : Task κ), s.emitter.tasks[j]? = some a → s.emitter.tasks[k]? = some b →
    a.inCallback = true → b.inCallback = true → j = k
  unsuppressed : ∀ t ∈ s.emitter.tasks, t.ended = true → t.callbacks.Sublist s.emitter.started
  closes : s.emitter.closes ≤ 1

theorem Lawful.registered [Fintype ι] {s : State ι κ} (h : Lawful s) :
    ∃ clearing, Accounted s.emitter clearing := by
  by_cases none_clears : ∀ i, (s.callers i).clearing = false
  · exact ⟨false, h.settled none_clears⟩
  · obtain ⟨i, clears⟩ := not_forall.mp none_clears
    exact ⟨true, h.clearing i (by simpa using clears)⟩

/-- Callbacks are run once each and in the order of their registration, one after another
and whatever the earlier ones did, and `close` returns `true` once. -/
theorem callbacks_delivered [Fintype ι] [DecidableEq ι] {s : State ι κ}
    (h : (machine (ι := ι) (κ := κ)).Reachable s) : Delivers s := by
  have lawful := lawful_of_reachable h
  obtain ⟨clearing, accounted⟩ := lawful.registered
  refine ⟨fun callback known => ?_, ?_, fun j k a b => lawful.chained.one_inCallback, fun t known ended => ?_,
    ?_⟩
  · rw [accounted, List.mem_append] at known
    rcases known with chained | waiting
    · obtain ⟨t, member, own⟩ := List.mem_flatMap.mp chained
      obtain ⟨k, here⟩ := List.getElem?_of_mem member
      exact .inr ⟨k, t, here, own, fun reserved => (lawful.held k).mp ⟨t, here, reserved⟩⟩
    · split at waiting
      · contradiction
      · exact .inl waiting
  · rw [accounted]
    exact lawful.chained.started_prefix.trans (List.prefix_append _ _)
  · rw [lawful.chained.started, ← Task.ran_of_ended (lawful.chained.sound t known) ended]
    rw [List.flatMap_def]
    exact List.sublist_flatten_of_mem (List.mem_map_of_mem known)
  · have claims := lawful.claims
    split at claims <;> omega

/-- A callback is registered by thread `true`, and thread `false` closes the emitter, up
to the end of its use of the lock. -/
def closing : List (Label Bool ℕ) :=
  .caller true (.onClose 7) :: List.replicate 4 (.caller true .tick) ++
    .caller false (.close true) :: List.replicate 12 (.caller false .tick)

def undispatched : State Bool ℕ := machine.runFrom closing newEmitter

theorem undispatched_not_placed : (machine (ι := Bool) (κ := ℕ)).Reachable undispatched ∧
    ¬Placed undispatched := by
  refine ⟨.runFrom _ (.init rfl), fun placed => ?_⟩
  have lost := placed 7 (by decide +kernel)
  have empty : undispatched.emitter.lifecycle.callbacks = [] := by decide +kernel
  have task : undispatched.emitter.tasks = [⟨[7], 0, 1, .reserved, []⟩] := by decide +kernel
  simp [empty, task] at lost

/-- Two callbacks are registered before the emitter is closed and a third after it. The
dispatcher throws for the task of the first two, which runs on a thread of its own; the
first callback throws. The third has the next task of the chain. -/
def dispatched : State Bool ℕ :=
  machine.runFrom ((.caller true (.onClose 6) :: List.replicate 4 (.caller true .tick)) ++ closing ++
    (.caller true (.onClose 8) :: List.replicate 6 (.caller true .tick)) ++
    [.caller false .throws, .caller false .tick] ++
    [.callback 0 false, .callback 0 false, .callback 0 true] ++ List.replicate 4 (.callback 0 false) ++
    List.replicate 5 (.callback 1 false)) newEmitter

theorem dispatched_delivers : dispatched.emitter.started = [6, 7, 8] ∧ dispatched.emitter.failed = [6] ∧
    dispatched.emitter.tasks.map (·.callbacks) = [[6, 7], [8]] ∧ dispatched.emitter.closes = 1 ∧
    Delivers dispatched :=
  ⟨by decide +kernel, by decide +kernel, by decide +kernel, by decide +kernel,
    callbacks_delivered (.runFrom _ (.init rfl))⟩

end Busker.CloseCallbacks
