import Busker.Interleaving.Machine
import Busker.Interleaving.Threads
import Busker.Tickets.Keys
import Mathlib.Data.Fintype.Basic
import Mathlib.Logic.Function.Basic

/-! How the keys of a service reach the native ticket managers: threads that attach and
detach managers, and the rotation thread that replaces the snapshot. -/

namespace Busker.Tickets

open Interleaving

variable {μ ι : Type*}

/-- `native-mgrs-atom` and `snapshot-atom`. -/
structure Service (μ : Type*) where
  nativeMgrs : List μ
  snapshot : Snapshot

/-- Where a thread stands in `attach-native-manager!` or `detach-native-manager!`. -/
inductive Thread (μ : Type*)
  | idle
  | attachSwap (m : μ)
  | attachRead (m : μ)
  | attachPush (m : μ) (keys : List Key)
  | detachSwap (m : μ)
  deriving DecidableEq

/-- Where the rotation thread stands in `replace-current-snapshot!`. -/
inductive Rotation (μ : Type*)
  | idle
  | reset (snapshot : Snapshot)
  | readKeys
  | readMgrs (keys : List Key)
  | push (keys : List Key) (mgrs : List μ)
  deriving DecidableEq

/-- `native` are the keys in the native ticket managers. -/
structure State (ι μ : Type*) where
  service : Service μ
  native : μ → List Key
  thread : ι → Thread μ
  rotation : Rotation μ

inductive Action (ι μ : Type*)
  | attach (i : ι) (m : μ)
  | detach (i : ι) (m : μ)
  | thread (i : ι)
  | replace (snapshot : Snapshot)
  | rotation

variable [DecidableEq μ]

def threadStep (s : Service μ) (native : μ → List Key) :
    Thread μ → Option (Service μ × (μ → List Key) × Thread μ)
  | .idle => none
  | .attachSwap m =>
    some ({ s with nativeMgrs := if m ∈ s.nativeMgrs then s.nativeMgrs else s.nativeMgrs ++ [m] }, native,
      .attachRead m)
  | .attachRead m => some (s, native, .attachPush m s.snapshot.keys)
  | .attachPush m keys => some (s, Function.update native m keys, .idle)
  | .detachSwap m => some ({ s with nativeMgrs := s.nativeMgrs.filter (· ≠ m) }, native, .idle)

def rotationStep (s : Service μ) (native : μ → List Key) :
    Rotation μ → Option (Service μ × (μ → List Key) × Rotation μ)
  | .idle => none
  | .reset snapshot => some ({ s with snapshot := snapshot }, native, .readKeys)
  | .readKeys => some (s, native, .readMgrs s.snapshot.keys)
  | .readMgrs keys => some (s, native, .push keys s.nativeMgrs)
  | .push _ [] => some (s, native, .idle)
  | .push keys (m :: mgrs) => some (s, Function.update native m keys, .push keys mgrs)

def step [DecidableEq ι] : Action ι μ → State ι μ → Option (State ι μ)
  | .attach i m, s =>
    if s.thread i = .idle then some { s with thread := Function.update s.thread i (.attachSwap m) } else none
  | .detach i m, s =>
    if s.thread i = .idle then some { s with thread := Function.update s.thread i (.detachSwap m) } else none
  | .thread i, s =>
    (threadStep s.service s.native (s.thread i)).map fun (service, native, p) =>
      ⟨service, native, Function.update s.thread i p, s.rotation⟩
  | .replace snapshot, s => if s.rotation = .idle then some { s with rotation := .reset snapshot } else none
  | .rotation, s =>
    (rotationStep s.service s.native s.rotation).map fun (service, native, r) => ⟨service, native, s.thread, r⟩

def machine (ι μ : Type*) [DecidableEq ι] [DecidableEq μ] : Machine (State ι μ) (Action ι μ) where
  init s := s.service.nativeMgrs = [] ∧ (∀ i, s.thread i = .idle) ∧ s.rotation = .idle
  step := step

/-- The manager whose keys a step replaces. -/
def writes : Action ι μ → State ι μ → Option μ
  | .thread i, s => match s.thread i with
    | .attachPush m _ => some m
    | _ => none
  | .rotation, s => match s.rotation with
    | .push _ (m :: _) => some m
    | _ => none
  | _, _ => none

/-- The managers that the rotation thread has read and not written yet. -/
def Rotation.rest : Rotation μ → List μ
  | .push _ mgrs => mgrs
  | _ => []

/-- A replaced snapshot is on its way to `m`. -/
def Rotation.owes (m : μ) : Rotation μ → Bool
  | .readKeys | .readMgrs _ => true
  | .push _ mgrs => m ∈ mgrs
  | _ => false

/-- A thread that is attaching `m` and writes it later. -/
def Thread.attaching (m : μ) : Thread μ → Bool
  | .attachRead n | .attachPush n _ => n = m
  | _ => false

/-- A thread that writes `keys` to `m` later, if it reads them now or has read them. -/
def Thread.owes (m : μ) (keys : List Key) : Thread μ → Bool
  | .attachRead n => n = m
  | .attachPush n read => n = m && read = keys
  | _ => false

/-- An attaching thread pushes the current keys, or ones that are pushed again; no one is
about to write a manager that is detached. -/
def State.timely (s : State ι μ) (i : ι) : Thread μ → Prop
  | .attachPush m keys => keys = s.service.snapshot.keys ∨ s.rotation.owes m = true ∨
      ∃ j, j ≠ i ∧ (s.thread j).owes m s.service.snapshot.keys = true
  | .detachSwap m => m ∉ s.rotation.rest ∧ ∀ j, (s.thread j).attaching m = false
  | .idle | .attachSwap _ | .attachRead _ => True

def timely : Action ι μ → State ι μ → Prop
  | .thread i, s => s.timely i (s.thread i)
  | _, _ => True

/-- Every attached manager has the current keys or gets them, and only attached managers
are still written. -/
structure Propagating (s : State ι μ) : Prop where
  current : ∀ m ∈ s.service.nativeMgrs, s.native m = s.service.snapshot.keys ∨ s.rotation.owes m = true ∨
    ∃ i, (s.thread i).owes m s.service.snapshot.keys = true
  rotating : ∀ keys mgrs, s.rotation = .readMgrs keys ∨ s.rotation = .push keys mgrs →
    keys = s.service.snapshot.keys
  rest : ∀ m ∈ s.rotation.rest, m ∈ s.service.nativeMgrs
  attaching : ∀ i m, (s.thread i).attaching m = true → m ∈ s.service.nativeMgrs

variable [DecidableEq ι] {s t : State ι μ} {a : Action ι μ}

/-- A thread moves, and the manager lists it touches keep what is owed. -/
theorem Propagating.move {i : ι} {service : Service μ} {native : μ → List Key} {p : Thread μ}
    (h : Propagating s) (snapshot : service.snapshot = s.service.snapshot)
    (current : ∀ m ∈ service.nativeMgrs, native m = s.service.snapshot.keys ∨ s.rotation.owes m = true ∨
      ∃ j, (Function.update s.thread i p j).owes m s.service.snapshot.keys = true)
    (rest : ∀ m ∈ s.rotation.rest, m ∈ s.service.nativeMgrs → m ∈ service.nativeMgrs)
    (others : ∀ j m, j ≠ i → (s.thread j).attaching m = true → m ∈ s.service.nativeMgrs →
      m ∈ service.nativeMgrs)
    (attaching : ∀ m, p.attaching m = true → m ∈ service.nativeMgrs) :
    Propagating ⟨service, native, Function.update s.thread i p, s.rotation⟩ where
  current := by rwa [snapshot]
  rotating := by rw [snapshot]; exact h.rotating
  rest m mem := rest m mem (h.rest m mem)
  attaching j m on := by
    dsimp only at on
    by_cases hj : j = i
    · subst hj
      rw [Function.update_self] at on
      exact attaching m on
    · rw [Function.update_of_ne hj] at on
      exact others j m hj on (h.attaching j m on)

/-- A manager still has the current keys or gets them, where the thread that moves owes it
what it owed before. -/
theorem Propagating.kept {i : ι} {p : Thread μ} (h : Propagating s) (m : μ) (mem : m ∈ s.service.nativeMgrs)
    (pays : (s.thread i).owes m s.service.snapshot.keys = true → p.owes m s.service.snapshot.keys = true) :
    s.native m = s.service.snapshot.keys ∨ s.rotation.owes m = true ∨
      ∃ j, (Function.update s.thread i p j).owes m s.service.snapshot.keys = true := by
  refine (h.current m mem).imp_right (Or.imp_right fun on => ?_)
  have next := exists_update (R := False) (Thread.owes m s.service.snapshot.keys) on
    fun owes => .inl (pays owes)
  exact next.elim id False.elim

theorem Propagating.thread {i : ι} (h : Propagating s) (fair : timely (.thread i) s)
    (moves : step (.thread i) s = some t) : Propagating t := by
  obtain ⟨⟨service, native, p⟩, moved, rfl⟩ := Option.map_eq_some_iff.mp moves
  have kept (p : Thread μ) := h.kept (i := i) (p := p)
  cases at_ : s.thread i with
  | idle => simp [at_, threadStep] at moved
  | attachSwap m =>
    rw [at_] at moved kept
    simp only [threadStep, Option.some.injEq, Prod.mk.injEq] at moved
    obtain ⟨rfl, rfl, rfl⟩ := moved
    have grown (n : μ) (mem : n ∈ s.service.nativeMgrs) :
        n ∈ if m ∈ s.service.nativeMgrs then s.service.nativeMgrs else s.service.nativeMgrs ++ [m] := by
      split <;> simp [mem]
    have self : m ∈ if m ∈ s.service.nativeMgrs then s.service.nativeMgrs else s.service.nativeMgrs ++ [m] := by
      split <;> simp_all
    refine h.move rfl (fun n mem => ?_) (fun n _ => grown n) (fun _ n _ _ => grown n) fun n on => ?_
    · by_cases same : n = m
      · exact .inr (.inr (exists_update_self _ (by simp [Thread.owes, same])))
      · refine kept _ n ?_ (by simp [Thread.owes])
        dsimp only at mem
        split at mem
        · exact mem
        · simpa [same] using mem
    · obtain rfl : m = n := by simpa [Thread.attaching] using on
      exact self
  | attachRead m =>
    rw [at_] at moved kept
    simp only [threadStep, Option.some.injEq, Prod.mk.injEq] at moved
    obtain ⟨rfl, rfl, rfl⟩ := moved
    refine h.move rfl (fun n mem => kept _ n mem ?_) (fun _ _ => id) (fun _ _ _ _ => id) fun n on => ?_
    · simp [Thread.owes]
    · exact h.attaching i n (by rw [at_]; exact on)
  | attachPush m keys =>
    rw [at_] at moved kept
    simp only [threadStep, Option.some.injEq, Prod.mk.injEq] at moved
    obtain ⟨rfl, rfl, rfl⟩ := moved
    simp only [timely, State.timely, at_] at fair
    refine h.move rfl (fun n mem => ?_) (fun _ _ => id) (fun _ _ _ _ => id) (by simp [Thread.attaching])
    by_cases same : n = m
    · subst same
      rw [Function.update_self]
      refine fair.imp_right (Or.imp_right fun ⟨j, other, owes⟩ => ⟨j, ?_⟩)
      rwa [Function.update_of_ne other]
    · rw [Function.update_of_ne same]
      exact kept _ n mem (by simp [Thread.owes, Ne.symm same])
  | detachSwap m =>
    rw [at_] at moved kept
    simp only [threadStep, Option.some.injEq, Prod.mk.injEq] at moved
    obtain ⟨rfl, rfl, rfl⟩ := moved
    simp only [timely, State.timely, at_] at fair
    have left (n : μ) (other : n ≠ m) (mem : n ∈ s.service.nativeMgrs) :
        n ∈ s.service.nativeMgrs.filter (· ≠ m) := by simp [mem, other]
    refine h.move rfl (fun n mem => ?_) (fun n mem => left n ?_) (fun j n _ on => left n ?_)
      (by simp [Thread.attaching])
    · exact kept _ n (List.mem_filter.mp mem).1 (by simp [Thread.owes])
    · rintro rfl
      exact fair.1 mem
    · rintro rfl
      simp [fair.2 j] at on

theorem Propagating.rotation (h : Propagating s) (moves : step .rotation s = some t) : Propagating t := by
  obtain ⟨⟨service, native, r⟩, moved, rfl⟩ := Option.map_eq_some_iff.mp moves
  cases at_ : s.rotation with
  | idle => simp [at_, rotationStep] at moved
  | reset snapshot =>
    simp only [at_, rotationStep, Option.some.injEq, Prod.mk.injEq] at moved
    obtain ⟨rfl, rfl, rfl⟩ := moved
    exact ⟨fun _ _ => .inr (.inl rfl), by simp, by simp [Rotation.rest], h.attaching⟩
  | readKeys =>
    simp only [at_, rotationStep, Option.some.injEq, Prod.mk.injEq] at moved
    obtain ⟨rfl, rfl, rfl⟩ := moved
    exact ⟨fun _ _ => .inr (.inl rfl), by simp, by simp [Rotation.rest], h.attaching⟩
  | readMgrs keys =>
    have same := h.rotating keys [] (.inl at_)
    simp only [at_, rotationStep, Option.some.injEq, Prod.mk.injEq] at moved
    obtain ⟨rfl, rfl, rfl⟩ := moved
    refine ⟨fun m mem => .inr (.inl (by simpa [Rotation.owes] using mem)), ?_, fun _ => id, h.attaching⟩
    simp [same]
  | push keys mgrs =>
    have same := h.rotating keys mgrs (.inr at_)
    have current := h.current
    have rest := h.rest
    simp only [at_, Rotation.owes, Rotation.rest, decide_eq_true_eq] at current rest
    cases mgrs with
    | nil =>
      simp only [at_, rotationStep, Option.some.injEq, Prod.mk.injEq] at moved
      obtain ⟨rfl, rfl, rfl⟩ := moved
      refine ⟨fun m mem => (current m mem).imp_right (Or.imp_left fun on => ?_), by simp, by simp [Rotation.rest],
        h.attaching⟩
      simp at on
    | cons n mgrs =>
      simp only [at_, rotationStep, Option.some.injEq, Prod.mk.injEq] at moved
      obtain ⟨rfl, rfl, rfl⟩ := moved
      refine ⟨fun m mem => ?_, by simp [same], fun m mem => rest m (List.mem_cons_of_mem _ mem), h.attaching⟩
      dsimp only
      by_cases written : m = n
      · subst written
        rw [Function.update_self]
        exact .inl same
      · rw [Function.update_of_ne written]
        refine (current m mem).imp_right (Or.imp_left fun on => ?_)
        simpa [written, Rotation.owes] using on

theorem Propagating.step (h : Propagating s) (fair : timely a s) (moves : step a s = some t) :
    Propagating t := by
  cases a with
  | thread i => exact h.thread fair moves
  | rotation => exact h.rotation moves
  | attach i m | detach i m =>
    simp only [Tickets.step, Option.ite_none_right_eq_some, Option.some.injEq] at moves
    obtain ⟨idle, rfl⟩ := moves
    refine h.move rfl (fun n mem => h.kept n mem ?_) (fun _ _ => id) (fun _ _ _ _ => id)
      (by simp [Thread.attaching])
    simp [idle, Thread.owes]
  | replace snapshot =>
    simp only [Tickets.step, Option.ite_none_right_eq_some, Option.some.injEq] at moves
    obtain ⟨idle, rfl⟩ := moves
    refine ⟨fun n mem => (h.current n mem).imp_right (Or.imp_left fun on => ?_), by simp, by simp [Rotation.rest],
      h.attaching⟩
    simp [idle, Rotation.owes] at on

theorem propagating_of_timely (h : (machine ι μ).ReachableVia timely s) : Propagating s := by
  refine h.invariant ?_ fun a s t hs fair moves => hs.step fair moves
  rintro s ⟨none, idle, rotation⟩
  constructor <;> simp [none, idle, rotation, Rotation.rest, Thread.attaching]

/-- What a quiet service has done, and whom any service may still write. -/
structure Propagated (s : State ι μ) : Prop where
  current : (∀ i, s.thread i = .idle) → s.rotation = .idle →
    ∀ m ∈ s.service.nativeMgrs, s.native m = s.service.snapshot.keys
  confined : ∀ a m, writes a s = some m → m ∈ s.service.nativeMgrs

theorem propagated_of_timely (h : (machine ι μ).ReachableVia timely s) : Propagated s := by
  have propagating := propagating_of_timely h
  constructor
  case current =>
    intro idle rotation m mem
    rcases propagating.current m mem with same | owes | ⟨i, owes⟩
    · exact same
    · simp [rotation, Rotation.owes] at owes
    · simp [idle, Thread.owes] at owes
  case confined =>
    intro a m target
    cases a with
    | thread i =>
      simp only [writes] at target
      split at target
      · rename_i n keys at_
        obtain rfl := Option.some.inj target
        exact propagating.attaching i n (by simp [at_, Thread.attaching])
      · contradiction
    | rotation =>
      simp only [writes] at target
      split at target
      · rename_i keys n mgrs at_
        obtain rfl := Option.some.inj target
        exact propagating.rest n (by simp [at_, Rotation.rest])
      · contradiction
    | attach | detach | replace => simp [writes] at target

instance [Fintype ι] (s : State ι μ) (i : ι) (p : Thread μ) : Decidable (s.timely i p) :=
  match p with
  | .attachPush m keys => inferInstanceAs (Decidable (keys = s.service.snapshot.keys ∨
      s.rotation.owes m = true ∨ ∃ j, j ≠ i ∧ (s.thread j).owes m s.service.snapshot.keys = true))
  | .detachSwap m => inferInstanceAs (Decidable (m ∉ s.rotation.rest ∧ ∀ j, (s.thread j).attaching m = false))
  | .idle | .attachSwap _ | .attachRead _ => .isTrue trivial

instance [Fintype ι] (a : Action ι μ) (s : State ι μ) : Decidable (timely a s) :=
  match a with
  | .thread i => inferInstanceAs (Decidable (s.timely i (s.thread i)))
  | .attach _ _ | .detach _ _ | .replace _ | .rotation => .isTrue trivial

def someKey (name : UInt8) : Key := ⟨[name], [], [], 0, 100⟩

def oneKey (name : UInt8) : Snapshot := ⟨[someKey name], none, none⟩

def unattached : State Bool ℕ := ⟨⟨[], oneKey 1⟩, fun _ => [], fun _ => .idle, .idle⟩

theorem unattached_init : (machine Bool ℕ).init unattached := ⟨rfl, fun _ => rfl, rfl⟩

/-- Manager 7 is attached, the keys rotate, and manager 8 comes and goes. -/
def attachThenRotate : List (Action Bool ℕ) := List.flatten [
  .attach true 7 :: List.replicate 3 (.thread true), .attach false 8 :: List.replicate 3 (.thread false),
  .replace (oneKey 2) :: List.replicate 6 .rotation, [.detach false 8, .thread false]]

def rotated : State Bool ℕ := (machine Bool ℕ).runFromVia timely attachThenRotate unattached

theorem propagated_rotated : Propagated rotated ∧ rotated.service.nativeMgrs = [7] ∧
    rotated.native 7 = [someKey 2] :=
  ⟨propagated_of_timely ((Machine.ReachableVia.init unattached_init).runFromVia _), by decide +kernel⟩

/-- The snapshot is replaced and pushed between the read and the push of an attach. -/
def rotateInside : List (Action Bool ℕ) := List.flatten [
  .attach true 7 :: List.replicate 2 (.thread true), .replace (oneKey 2) :: List.replicate 5 .rotation,
  [.thread true]]

def stale : State Bool ℕ := (machine Bool ℕ).runFrom rotateInside unattached

/-- The manager is detached after the rotation thread has read the list. -/
def detachInside : List (Action Bool ℕ) := List.flatten [
  .attach true 7 :: List.replicate 3 (.thread true), .replace (oneKey 2) :: List.replicate 3 .rotation,
  [.detach true 7, .thread true]]

def detached : State Bool ℕ := (machine Bool ℕ).runFrom detachInside unattached

theorem staleAndStray :
    ((machine Bool ℕ).Reachable stale ∧ (∀ i, stale.thread i = .idle) ∧ stale.rotation = .idle ∧
      stale.service.nativeMgrs = [7] ∧ stale.native 7 = [someKey 1] ∧ stale.service.snapshot = oneKey 2) ∧
    ((machine Bool ℕ).Reachable detached ∧ (∀ i, detached.thread i = .idle) ∧
      detached.service.nativeMgrs = [] ∧ writes .rotation detached = some 7) ∧
    ¬Propagated stale ∧ ¬Propagated detached := by
  have quiet : (∀ i, stale.thread i = .idle) ∧ stale.rotation = .idle ∧ stale.service.nativeMgrs = [7] ∧
      stale.native 7 = [someKey 1] ∧ stale.service.snapshot = oneKey 2 := by decide +kernel
  have gone : (∀ i, detached.thread i = .idle) ∧ detached.service.nativeMgrs = [] ∧
      writes .rotation detached = some 7 := by decide +kernel
  refine ⟨⟨(Machine.Reachable.init unattached_init).runFrom _, quiet⟩,
    ⟨(Machine.Reachable.init unattached_init).runFrom _, gone⟩, fun propagated => ?_, fun propagated => ?_⟩
  · obtain ⟨idle, rotation, mgrs, native, snapshot⟩ := quiet
    have same := propagated.current idle rotation 7 (by simp [mgrs])
    rw [native, snapshot] at same
    exact absurd same (by decide)
  · obtain ⟨-, none, target⟩ := gone
    have mem := propagated.confined _ _ target
    simp [none] at mem

end Busker.Tickets
