import Mathlib.Logic.Function.Basic

/-! Resources held by at most one thread. `held i` is what thread `i` holds. -/

namespace Interleaving

variable {ι κ π : Type*}

def Exclusive (held : ι → Option κ) : Prop :=
  ∀ ⦃i j k⦄, held i = some k → held j = some k → i = j

theorem Exclusive.none : Exclusive (fun _ : ι => (Option.none : Option κ)) := by
  intro i j k hi
  contradiction

/-- What a thread holds after one thread moved to another program point. -/
theorem held_update [DecidableEq ι] (held : π → Option κ) (pc : ι → π) (i : ι) (p : π) :
    (fun j => held (Function.update pc i p j)) =
      Function.update (fun j => held (pc j)) i (held p) := by
  funext j
  by_cases h : j = i
  · subst h
    simp
  · simp [h]

theorem Exclusive.acquire [DecidableEq ι] {held : ι → Option κ} (h : Exclusive held) {i : ι}
    {k : κ} (free : ∀ j, held j ≠ some k) : Exclusive (Function.update held i (some k)) := by
  intro a b l ha hb
  by_cases hai : a = i <;> by_cases hbi : b = i
  · rw [hai, hbi]
  · subst hai
    rw [Function.update_self] at ha
    rw [Function.update_of_ne hbi, ← ha] at hb
    exact absurd hb (free b)
  · subst hbi
    rw [Function.update_self] at hb
    rw [Function.update_of_ne hai, ← hb] at ha
    exact absurd ha (free a)
  · rw [Function.update_of_ne hai] at ha
    rw [Function.update_of_ne hbi] at hb
    exact h ha hb

theorem Exclusive.release [DecidableEq ι] {held : ι → Option κ} (h : Exclusive held) (i : ι) :
    Exclusive (Function.update held i Option.none) := by
  intro a b l ha hb
  have hai : a ≠ i := fun e => by simp [e] at ha
  have hbi : b ≠ i := fun e => by simp [e] at hb
  rw [Function.update_of_ne hai] at ha
  rw [Function.update_of_ne hbi] at hb
  exact h ha hb

/-- After a release nobody holds what the thread gave up. -/
theorem Exclusive.released [DecidableEq ι] {held : ι → Option κ} (h : Exclusive held) {i : ι}
    {k : κ} (hi : held i = some k) (j : ι) : Function.update held i Option.none j ≠ some k := by
  intro hj
  by_cases hji : j = i
  · simp [hji] at hj
  · rw [Function.update_of_ne hji] at hj
    exact hji (h hj hi)

/-- A thread that keeps what it holds leaves every holding as it is. -/
theorem held_update_same [DecidableEq ι] {held : π → Option κ} {pc : ι → π} {i : ι} {p : π}
    (same : held p = held (pc i)) :
    (fun j => held (Function.update pc i p j)) = fun j => held (pc j) := by
  rw [held_update, same, Function.update_eq_self]

theorem held_acquire [DecidableEq ι] (held : ι → Option κ) {i : ι} {k l : κ}
    (before : held i = Option.none) :
    (∃ j, Function.update held i (some k) j = some l) ↔ l = k ∨ ∃ j, held j = some l := by
  constructor
  · rintro ⟨j, hj⟩
    by_cases hji : j = i
    · subst hji
      rw [Function.update_self] at hj
      exact .inl (Option.some.inj hj).symm
    · rw [Function.update_of_ne hji] at hj
      exact .inr ⟨j, hj⟩
  · rintro (rfl | ⟨j, hj⟩)
    · exact ⟨i, Function.update_self ..⟩
    · have hji : j ≠ i := fun e => by simp [e, before] at hj
      exact ⟨j, by rw [Function.update_of_ne hji, hj]⟩

theorem Exclusive.held_release [DecidableEq ι] {held : ι → Option κ} (h : Exclusive held) {i : ι}
    {k l : κ} (hi : held i = some k) :
    (∃ j, Function.update held i Option.none j = some l) ↔ l ≠ k ∧ ∃ j, held j = some l := by
  constructor
  · rintro ⟨j, hj⟩
    have other : l ≠ k := by
      rintro rfl
      exact h.released hi j hj
    by_cases hji : j = i
    · simp [hji] at hj
    · rw [Function.update_of_ne hji] at hj
      exact ⟨other, j, hj⟩
  · rintro ⟨other, j, hj⟩
    have hji : j ≠ i := by
      rintro rfl
      exact other (Option.some.inj (hj.symm.trans hi))
    exact ⟨j, by rw [Function.update_of_ne hji, hj]⟩

end Interleaving
