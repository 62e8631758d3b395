import Busker.CloseCallbacks.Lifecycle
import Mathlib.Data.List.Infix

/-! The chain of promises puts the reserved tasks in order: a task begins when the one
before it has delivered its promise, which is when all its callbacks have been run. -/

namespace Busker.CloseCallbacks

variable {ι κ : Type*}

namespace Task

variable (t : Task κ)

/-- Has seen the promise it waits for. -/
def begun : Bool :=
  match t.runner with
  | .reserved | .dispatched => false
  | .running _ | .inside _ _ | .delivered | .finished => true

/-- Has delivered its own promise. -/
def ended : Bool :=
  match t.runner with
  | .delivered | .finished => true
  | .reserved | .dispatched | .running _ | .inside _ _ => false

/-- The callbacks it has begun are the first ones, and all of them once it has ended. -/
def Sound : Prop :=
  match t.runner with
  | .reserved | .dispatched => t.ran = []
  | .running rest | .inside _ rest => t.callbacks = t.ran ++ rest
  | .delivered | .finished => t.ran = t.callbacks

variable {t}

theorem begun_of_ended (h : t.ended = true) : t.begun = true := by
  unfold ended at h
  unfold begun
  cases hr : t.runner <;> simp_all

theorem ran_of_not_begun (sound : t.Sound) (h : t.begun = false) : t.ran = [] := by
  unfold begun at h
  unfold Sound at sound
  cases hr : t.runner <;> simp_all

theorem ran_of_ended (sound : t.Sound) (h : t.ended = true) : t.ran = t.callbacks := by
  unfold ended at h
  unfold Sound at sound
  cases hr : t.runner <;> simp_all

theorem ran_prefix (sound : t.Sound) : t.ran <+: t.callbacks := by
  unfold Sound at sound
  split at sound
  · rw [sound]
    exact List.nil_prefix
  · rw [sound]
    exact List.nil_prefix
  · rw [sound]
    exact List.prefix_append _ _
  · rw [sound]
    exact List.prefix_append _ _
  all_goals exact sound ▸ List.prefix_refl _

end Task

structure Chained (e : Emitter ι κ) : Prop where
  tail : e.tail = e.tasks.length
  linked : ∀ k t, e.tasks[k]? = some t → t.previous = k ∧ t.complete = k + 1
  sound : ∀ t ∈ e.tasks, t.Sound
  ordered : ∀ (j k : ℕ) (a b : Task κ), j < k → e.tasks[j]? = some a → e.tasks[k]? = some b →
    b.begun = true → a.ended = true
  started : e.started = e.tasks.flatMap Task.ran
  delivered : ∀ k t, e.tasks[k]? = some t → e.delivered (k + 1) = t.ended
  fresh : ∀ k, e.tasks.length < k → e.delivered k = false

theorem flatMap_set {α β : Type*} (f : α → List β) {l : List α} {k : ℕ} {a b : α} (here : l[k]? = some a) :
    l.flatMap f = (l.take k).flatMap f ++ (f a ++ (l.drop (k + 1)).flatMap f) ∧
      (l.set k b).flatMap f = (l.take k).flatMap f ++ (f b ++ (l.drop (k + 1)).flatMap f) := by
  obtain ⟨inside, rfl⟩ := List.getElem?_eq_some_iff.mp here
  constructor
  · conv_lhs => rw [← List.take_append_drop k l, List.drop_eq_getElem_cons inside]
    rw [List.flatMap_append, List.flatMap_cons]
  · rw [List.set_eq_take_append_cons_drop, if_pos inside, List.flatMap_append, List.flatMap_cons]

section change

variable {e e' : Emitter ι κ} {k : ℕ} {t t' : Task κ}

/-- If a promise of the chain is delivered, every task up to it has ended. -/
theorem Chained.ended_before (h : Chained e) (seen : e.delivered k = true) {j : ℕ} (before : j < k)
    {a : Task κ} (there : e.tasks[j]? = some a) : a.ended = true := by
  obtain ⟨m, rfl⟩ : ∃ m, k = m + 1 := ⟨k - 1, by omega⟩
  have inside : m < e.tasks.length := by
    by_contra outside
    have unseen := h.fresh (m + 1) (by omega)
    simp [seen] at unseen
  have last := h.delivered m _ (List.getElem?_eq_getElem inside)
  rw [seen] at last
  rcases Nat.lt_succ_iff_lt_or_eq.mp before with earlier | rfl
  · exact h.ordered j m a _ earlier there (List.getElem?_eq_getElem inside) (Task.begun_of_ended last.symm)
  · rw [List.getElem?_eq_getElem inside] at there
    exact Option.some.inj there ▸ last.symm

/-- A task moves on: it begins only behind the ended ones, and runs callbacks only before
it has ended. -/
theorem Chained.change (h : Chained e) (here : e.tasks[k]? = some t) (tasks : e'.tasks = e.tasks.set k t')
    (tail : e'.tail = e.tail) (linked : t'.previous = t.previous ∧ t'.complete = t.complete)
    (sound : t'.Sound) (begins : t'.begun = true → t.begun = true ∨ e.delivered k = true)
    (lasts : t.ended = true → t'.ended = true)
    (delivered : e'.delivered = if t'.ended then Function.update e.delivered (k + 1) true else e.delivered)
    {more : List κ} (started : e'.started = e.started ++ more) (ran : t'.ran = t.ran ++ more)
    (active : more ≠ [] → t.ended = false) : Chained e' := by
  have inside : k < e.tasks.length := (List.getElem?_eq_some_iff.mp here).1
  have at_k : ∀ {j a}, e'.tasks[j]? = some a → j = k ∧ a = t' ∨ j ≠ k ∧ e.tasks[j]? = some a := by
    intro j a there
    rw [tasks] at there
    by_cases hj : j = k
    · subst hj
      rw [List.getElem?_set_self inside] at there
      exact .inl ⟨rfl, (Option.some.inj there).symm⟩
    · rw [List.getElem?_set_ne (Ne.symm hj)] at there
      exact .inr ⟨hj, there⟩
  refine ⟨?_, fun j a there => ?_, fun a known => ?_, fun j l a b before ha hb begun => ?_, ?_,
    fun j a there => ?_, fun j later => ?_⟩
  · rw [tail, tasks, List.length_set]
    exact h.tail
  · rcases at_k there with ⟨rfl, rfl⟩ | ⟨-, there⟩
    · rw [linked.1, linked.2]
      exact h.linked j t here
    · exact h.linked j a there
  · rw [tasks] at known
    rcases List.mem_or_eq_of_mem_set known with old | rfl
    · exact h.sound a old
    · exact sound
  · rcases at_k hb with ⟨rfl, rfl⟩ | ⟨hl, hb⟩
    · rcases at_k ha with ⟨rfl, rfl⟩ | ⟨-, ha⟩
      · omega
      · rcases begins begun with already | seen
        · exact h.ordered j l a t before ha here already
        · exact h.ended_before seen before ha
    · rcases at_k ha with ⟨rfl, rfl⟩ | ⟨-, ha⟩
      · exact lasts (h.ordered j l t b before here hb begun)
      · exact h.ordered j l a b before ha hb begun
  · obtain ⟨whole, changed⟩ := flatMap_set Task.ran (b := t') here
    rw [started, tasks, changed, h.started, whole, ran]
    by_cases new : more = []
    · rw [new, List.append_nil, List.append_nil]
    · have later : (e.tasks.drop (k + 1)).flatMap Task.ran = [] := by
        refine List.flatMap_eq_nil_iff.mpr fun b hb => ?_
        obtain ⟨l, there⟩ := List.getElem?_of_mem hb
        rw [List.getElem?_drop] at there
        refine Task.ran_of_not_begun (h.sound b (List.mem_of_getElem? there)) ?_
        by_contra begun
        have ended := h.ordered k _ t b (by omega) here there (by simpa using begun)
        simp [active new] at ended
      rw [later, List.append_nil, List.append_nil, List.append_assoc]
  · rw [delivered]
    rcases at_k there with ⟨rfl, rfl⟩ | ⟨hj, there⟩
    · split
      · rename_i ended
        rw [Function.update_self, ended]
      · rename_i active
        rw [h.delivered j t here]
        cases ht : t.ended
        · simpa using active
        · exact absurd (lasts ht) active
    · have other : j + 1 ≠ k + 1 := by omega
      split
      · rw [Function.update_of_ne other]
        exact h.delivered j a there
      · exact h.delivered j a there
  · rw [tasks, List.length_set] at later
    rw [delivered]
    split
    · rw [Function.update_of_ne (by omega)]
      exact h.fresh j later
    · exact h.fresh j later

theorem Chained.runnerStep {throws : Bool} (h : Chained e) (moves : runnerStep e k throws = some e') :
    Chained e' := by
  unfold CloseCallbacks.runnerStep at moves
  split at moves
  · contradiction
  rename_i t here
  have known := h.sound t (List.mem_of_getElem? here)
  have linked := h.linked k t here
  have inert : ∀ (e : Emitter ι κ), e.started = e.started ++ [] := fun e => (List.append_nil _).symm
  unfold Task.Sound at known
  split at moves <;> rename_i runner <;> rw [runner] at known
  · contradiction
  · split at moves
    · rename_i seen
      obtain rfl := Option.some.inj moves
      refine h.change here rfl rfl ⟨rfl, rfl⟩ ?_ (fun _ => .inr (linked.1 ▸ seen)) (fun ended => ?_) rfl
        (inert e) (List.append_nil _).symm (fun new => absurd rfl new)
      · change t.callbacks = t.ran ++ t.callbacks
        rw [known, List.nil_append]
      · simp [Task.ended, runner] at ended
    · contradiction
  · rename_i callback rest
    obtain rfl := Option.some.inj moves
    refine h.change here rfl rfl ⟨rfl, rfl⟩ ?_ (fun _ => .inl ?_) (fun ended => ?_) rfl rfl rfl (fun _ => ?_)
    · change t.callbacks = t.ran ++ [callback] ++ rest
      rw [known, List.append_assoc, List.singleton_append]
    · simp [Task.begun, runner]
    · simp [Task.ended, runner] at ended
    · simp [Task.ended, runner]
  · obtain rfl := Option.some.inj moves
    refine h.change here rfl rfl ⟨rfl, rfl⟩ ?_ (fun _ => .inl ?_) (fun _ => rfl) ?_
      (inert e) (List.append_nil _).symm (fun new => absurd rfl new)
    · change t.ran = t.callbacks
      rw [known, List.append_nil]
    · simp [Task.begun, runner]
    · rw [← linked.2]
      rfl
  · rename_i callback rest
    obtain rfl := Option.some.inj moves
    refine h.change here rfl rfl ⟨rfl, rfl⟩ ?_ (fun _ => .inl ?_) (fun ended => ?_) rfl
      (inert e) (List.append_nil _).symm (fun new => absurd rfl new)
    · exact known
    · simp [Task.begun, runner]
    · simp [Task.ended, runner] at ended
  · obtain rfl := Option.some.inj moves
    refine h.change here rfl rfl ⟨rfl, rfl⟩ ?_ (fun _ => .inl ?_) (fun _ => rfl) ?_
      (inert e) (List.append_nil _).symm (fun new => absurd rfl new)
    · exact known
    · simp [Task.begun, runner]
    · rw [← linked.2]
      rfl
  · contradiction

/-- A task that was not handed to a thread before is. -/
theorem Chained.handOver (h : Chained e) (here : e.tasks[k]? = some t) (reserved : t.runner = .reserved) :
    Chained (e.handOver k) := by
  have known := h.sound t (List.mem_of_getElem? here)
  rw [Task.Sound, reserved] at known
  have made : e.handOver k = e.setTask k { t with runner := .dispatched } := by
    rw [Emitter.handOver, here]
  rw [made]
  refine h.change here rfl rfl ⟨rfl, rfl⟩ ?_ (fun begun => ?_) (fun ended => ?_) rfl
    (List.append_nil _).symm (List.append_nil _).symm (fun new => absurd rfl new)
  · exact known
  · simp [Task.begun] at begun
  · simp [Task.ended, reserved] at ended

theorem Chained.reserve (h : Chained e) (callbacks : List κ) : Chained (e.reserve callbacks e.tail) := by
  have there : ∀ {j : ℕ} {a : Task κ}, (e.reserve callbacks e.tail).tasks[j]? = some a →
      e.tasks[j]? = some a ∨
        j = e.tasks.length ∧ a = ⟨callbacks, e.tail, e.tasks.length + 1, .reserved, []⟩ := by
    intro j a ha
    rcases Nat.lt_trichotomy j e.tasks.length with inside | rfl | outside
    · exact .inl ((List.getElem?_append_left inside).symm.trans ha)
    · exact .inr ⟨rfl, by simpa [Emitter.reserve, eq_comm] using ha⟩
    · have none_there : (e.reserve callbacks e.tail).tasks[j]? = none := by
        rw [List.getElem?_eq_none_iff, Emitter.reserve, List.length_append, List.length_singleton]
        exact outside
      rw [none_there] at ha
      contradiction
  have bound : ∀ {j : ℕ} {a : Task κ}, e.tasks[j]? = some a → j < e.tasks.length :=
    fun ha => (List.getElem?_eq_some_iff.mp ha).1
  refine ⟨?_, fun j a ha => ?_, fun a known => ?_, fun j l a b before ha hb begun => ?_, ?_,
    fun j a ha => ?_, fun j later => ?_⟩
  · simp [Emitter.reserve]
  · rcases there ha with ha | ⟨rfl, rfl⟩
    · exact h.linked j a ha
    · exact ⟨h.tail, rfl⟩
  · rcases List.mem_append.mp known with old | new
    · exact h.sound a old
    · rw [List.mem_singleton.mp new]
      rfl
  · rcases there hb with hb | ⟨rfl, rfl⟩
    · rcases there ha with ha | ⟨rfl, rfl⟩
      · exact h.ordered j l a b before ha hb begun
      · exact absurd before (bound hb).le.not_gt
    · simp [Task.begun] at begun
  · change e.started = (e.tasks ++ [_]).flatMap Task.ran
    rw [List.flatMap_append, List.flatMap_singleton, List.append_nil]
    exact h.started
  · rcases there ha with ha | ⟨rfl, rfl⟩
    · exact h.delivered j a ha
    · exact h.fresh _ (Nat.lt_succ_self _)
  · refine h.fresh j ?_
    simp only [Emitter.reserve, List.length_append, List.length_singleton] at later
    omega

end change

section order

variable {e : Emitter ι κ}

/-- The callbacks that were run are the first ones of the chain. -/
theorem Chained.started_prefix (h : Chained e) : e.started <+: e.tasks.flatMap Task.callbacks := by
  have ordered : e.tasks.Pairwise fun a b => b.begun = true → a.ended = true := by
    refine List.pairwise_iff_getElem.mpr fun j k hj hk before => ?_
    exact h.ordered j k _ _ before (List.getElem?_eq_getElem hj) (List.getElem?_eq_getElem hk)
  have sound := h.sound
  rw [h.started]
  generalize e.tasks = tasks at ordered sound
  clear h
  induction tasks with
  | nil => exact List.nil_prefix
  | cons t rest ih =>
    obtain ⟨first, later⟩ := List.pairwise_cons.mp ordered
    have own := sound t List.mem_cons_self
    have tail := fun a ha => sound a (List.mem_cons_of_mem t ha)
    rw [List.flatMap_cons, List.flatMap_cons]
    cases ended : t.ended
    · have none_begun : rest.flatMap Task.ran = [] := by
        refine List.flatMap_eq_nil_iff.mpr fun b hb => Task.ran_of_not_begun (tail b hb) ?_
        by_contra begun
        simp [first b hb (by simpa using begun)] at ended
      rw [none_begun, List.append_nil]
      exact (Task.ran_prefix own).trans (List.prefix_append _ _)
    · rw [Task.ran_of_ended own ended]
      exact List.prefix_append_right_inj _ |>.mpr (ih later tail)

/-- Is in a callback. -/
def Task.inCallback (t : Task κ) : Bool :=
  match t.runner with
  | .inside _ _ => true
  | _ => false

theorem Task.active_of_inCallback {t : Task κ} (h : t.inCallback = true) :
    t.begun = true ∧ t.ended = false := by
  unfold Task.inCallback at h
  unfold Task.begun Task.ended
  cases hr : t.runner <;> simp_all

/-- Callbacks run one after another. -/
theorem Chained.one_inCallback (h : Chained e) {j k : ℕ} {a b : Task κ} (ha : e.tasks[j]? = some a)
    (hb : e.tasks[k]? = some b) (ina : a.inCallback = true) (inb : b.inCallback = true) : j = k := by
  have activa := Task.active_of_inCallback ina
  have activb := Task.active_of_inCallback inb
  rcases Nat.lt_trichotomy j k with before | same | before
  · simp [h.ordered j k a b before ha hb activb.1] at activa
  · exact same
  · simp [h.ordered k j b a before hb ha activa.1] at activb

end order

end Busker.CloseCallbacks
