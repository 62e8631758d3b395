import Mathlib.Data.List.Basic
import Mathlib.Tactic.Basic

/-! Machines with labelled atomic steps, and what holds across their runs.
A label names the thread that moves and every choice its step leaves open, so a
step is a partial function and a finite schedule can be evaluated. Guards
restrict runs to the steps a condition on the state before them allows. -/

namespace Interleaving

structure Machine (σ α : Type*) where
  init : σ → Prop
  step : α → σ → Option σ

namespace Machine

variable {σ α τ β : Type*} {m : Machine σ α} {ok ok' : α → σ → Prop}

/-- States reached by runs all of whose steps the guard `ok` allows. -/
inductive ReachableVia (m : Machine σ α) (ok : α → σ → Prop) : σ → Prop
  | init {s : σ} (h : m.init s) : ReachableVia m ok s
  | step {s t : σ} {a : α} (reached : ReachableVia m ok s) (allowed : ok a s)
      (moves : m.step a s = some t) : ReachableVia m ok t

/-- States reached by arbitrary runs. -/
def Reachable (m : Machine σ α) : σ → Prop := m.ReachableVia fun _ _ => True

theorem Reachable.init {s : σ} (h : m.init s) : m.Reachable s := ReachableVia.init h

theorem Reachable.step {s t : σ} {a : α} (h : m.Reachable s)
    (moves : m.step a s = some t) : m.Reachable t := ReachableVia.step h trivial moves

theorem ReachableVia.mono (weaker : ∀ a s, ok a s → ok' a s) {s : σ}
    (h : m.ReachableVia ok s) : m.ReachableVia ok' s := by
  induction h with
  | init h => exact .init h
  | step _ allowed moves ih => exact .step ih (weaker _ _ allowed) moves

theorem ReachableVia.reachable {s : σ} (h : m.ReachableVia ok s) : m.Reachable s :=
  h.mono fun _ _ _ => trivial

/-- The invariant rule: what holds initially and survives every allowed step
holds of every state the guarded runs reach. -/
theorem ReachableVia.invariant {I : σ → Prop} {s : σ} (h : m.ReachableVia ok s)
    (base : ∀ s, m.init s → I s)
    (preserved : ∀ a s t, I s → ok a s → m.step a s = some t → I t) : I s := by
  induction h with
  | init h => exact base _ h
  | step _ allowed moves ih => exact preserved _ _ _ ih allowed moves

theorem Reachable.invariant {I : σ → Prop} {s : σ} (h : m.Reachable s)
    (base : ∀ s, m.init s → I s)
    (preserved : ∀ a s t, I s → m.step a s = some t → I t) : I s :=
  ReachableVia.invariant h base fun a s t hi _ => preserved a s t hi

/-- The invariant rule relative to facts already known of reachable states. -/
theorem ReachableVia.invariant_of {I J : σ → Prop} {s : σ} (h : m.ReachableVia ok s)
    (known : ∀ s, m.ReachableVia ok s → J s) (base : ∀ s, m.init s → I s)
    (preserved : ∀ a s t, J s → I s → ok a s → m.step a s = some t → I t) : I s := by
  induction h with
  | init h => exact base _ h
  | step reached allowed moves ih =>
    exact preserved _ _ _ (known _ reached) ih allowed moves

theorem Reachable.invariant_of {I J : σ → Prop} {s : σ} (h : m.Reachable s)
    (known : ∀ s, m.Reachable s → J s) (base : ∀ s, m.init s → I s)
    (preserved : ∀ a s t, J s → I s → m.step a s = some t → I t) : I s :=
  ReachableVia.invariant_of h known base fun a s t hj hi _ => preserved a s t hj hi

/-- Execute a schedule, failing where one of its steps is not enabled. -/
def run (m : Machine σ α) : List α → σ → Option σ
  | [], s => some s
  | a :: rest, s => (m.step a s).bind (m.run rest)

@[simp] theorem run_nil (s : σ) : m.run [] s = some s := rfl

@[simp] theorem run_cons (a : α) (rest : List α) (s : σ) :
    m.run (a :: rest) s = (m.step a s).bind (m.run rest) := rfl

theorem run_append (first rest : List α) (s : σ) :
    m.run (first ++ rest) s = (m.run first s).bind (m.run rest) := by
  induction first generalizing s with
  | nil => rfl
  | cons a first ih =>
    simp only [List.cons_append, run_cons, Option.bind_assoc]
    exact congrArg _ (funext ih)

theorem Reachable.run {s t : σ} {schedule : List α} (h : m.Reachable s)
    (moves : m.run schedule s = some t) : m.Reachable t := by
  induction schedule generalizing s with
  | nil => exact Option.some.inj moves ▸ h
  | cons a rest ih =>
    obtain ⟨next, first, moves⟩ := Option.bind_eq_some_iff.mp moves
    exact ih (h.step first) moves

/-- What every step preserves is preserved by a run from any state. -/
theorem run_invariant {I : σ → Prop} (preserved : ∀ a s t, I s → m.step a s = some t → I t) {s t : σ}
    {schedule : List α} (h : I s) (moves : m.run schedule s = some t) : I t := by
  induction schedule generalizing s with
  | nil => exact Option.some.inj moves ▸ h
  | cons a rest ih =>
    obtain ⟨next, first, moves⟩ := Option.bind_eq_some_iff.mp moves
    exact ih (preserved a s next h first) moves

/-- The state a schedule ends in; the state it starts from if it cannot run. -/
def runFrom (m : Machine σ α) (schedule : List α) (s : σ) : σ := (m.run schedule s).getD s

theorem Reachable.runFrom {s : σ} (schedule : List α) (h : m.Reachable s) :
    m.Reachable (m.runFrom schedule s) := by
  unfold Machine.runFrom
  cases moves : m.run schedule s with
  | none => exact h
  | some t => exact h.run moves

/-- Execute a schedule under a decidable guard. -/
def runVia (m : Machine σ α) (ok : α → σ → Prop) [∀ a s, Decidable (ok a s)] :
    List α → σ → Option σ
  | [], s => some s
  | a :: rest, s => if ok a s then (m.step a s).bind (m.runVia ok rest) else none

theorem ReachableVia.run [∀ a s, Decidable (ok a s)] {s t : σ} {schedule : List α}
    (h : m.ReachableVia ok s) (moves : m.runVia ok schedule s = some t) :
    m.ReachableVia ok t := by
  induction schedule generalizing s with
  | nil => exact Option.some.inj moves ▸ h
  | cons a rest ih =>
    unfold runVia at moves
    split at moves
    · rename_i allowed
      obtain ⟨next, first, moves⟩ := Option.bind_eq_some_iff.mp moves
      exact ih (h.step allowed first) moves
    · contradiction

/-- What every allowed step preserves is preserved by a guarded run from any state. -/
theorem runVia_invariant [∀ a s, Decidable (ok a s)] {I : σ → Prop}
    (preserved : ∀ a s t, I s → ok a s → m.step a s = some t → I t) {s t : σ} {schedule : List α} (h : I s)
    (moves : m.runVia ok schedule s = some t) : I t := by
  induction schedule generalizing s with
  | nil => exact Option.some.inj moves ▸ h
  | cons a rest ih =>
    unfold runVia at moves
    split at moves
    · rename_i allowed
      obtain ⟨next, first, moves⟩ := Option.bind_eq_some_iff.mp moves
      exact ih (preserved a s next h allowed first) moves
    · contradiction

/-- The state a schedule ends in; the state it starts from if some step is not
enabled or not allowed. -/
def runFromVia (m : Machine σ α) (ok : α → σ → Prop) [∀ a s, Decidable (ok a s)]
    (schedule : List α) (s : σ) : σ := (m.runVia ok schedule s).getD s

theorem runVia_of_isSome [∀ a s, Decidable (ok a s)] {s : σ} {schedule : List α}
    (enabled : (m.runVia ok schedule s).isSome = true) :
    m.runVia ok schedule s = some (m.runFromVia ok schedule s) := by
  obtain ⟨t, moves⟩ := Option.isSome_iff_exists.mp enabled
  rw [Machine.runFromVia, moves, Option.getD_some]

theorem ReachableVia.runFromVia [∀ a s, Decidable (ok a s)] {s : σ} (schedule : List α)
    (h : m.ReachableVia ok s) : m.ReachableVia ok (m.runFromVia ok schedule s) := by
  unfold Machine.runFromVia
  cases moves : m.runVia ok schedule s with
  | none => exact h
  | some t => exact h.run moves

/-- The machine with a history variable, which follows the run and does not guide it. -/
def recording {η : Type*} (m : Machine σ α) (start : η) (note : α → σ → η → η) :
    Machine (σ × η) α where
  init s := m.init s.1 ∧ s.2 = start
  step a s := (m.step a s.1).map fun t => (t, note a s.1 s.2)

theorem ReachableVia.unrecorded {η : Type*} {start : η} {note : α → σ → η → η} {s : σ × η}
    (h : (m.recording start note).ReachableVia (fun a s => ok a s.1) s) : m.ReachableVia ok s.1 := by
  induction h with
  | init h => exact .init h.1
  | step _ allowed moves ih =>
    obtain ⟨t, moved, rfl⟩ := Option.map_eq_some_iff.mp moves
    exact .step ih allowed moved

end Machine

/-- A stuttering simulation: every step of `m` from a reachable state is, seen
through `view`, one step of `n` or none. -/
structure Simulation {σ α τ β : Type*} (m : Machine σ α) (n : Machine τ β) where
  view : σ → τ
  init : ∀ s, m.init s → n.init (view s)
  step : ∀ a s t, m.Reachable s → m.step a s = some t →
    view t = view s ∨ ∃ b, n.step b (view s) = some (view t)

namespace Simulation

variable {σ α τ β : Type*} {m : Machine σ α} {n : Machine τ β}

theorem reachable (sim : Simulation m n) {s : σ} (h : m.Reachable s) :
    n.Reachable (sim.view s) := by
  refine Machine.Reachable.invariant_of (I := fun s => n.Reachable (sim.view s))
    (J := m.Reachable) h (fun _ hs => hs) (fun s hs => Machine.Reachable.init (sim.init s hs)) ?_
  intro a s t hs hv moves
  rcases sim.step a s t hs moves with same | ⟨b, moves⟩
  · exact same ▸ hv
  · exact hv.step moves

end Simulation

end Interleaving
