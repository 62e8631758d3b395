import Mathlib.Logic.Function.Basic

/-! Facts about the program points of all threads when one thread moves. -/

namespace Interleaving

variable {ι π : Type*} [DecidableEq ι] {pc : ι → π} {i : ι} {q : π}

/-- A fact about every thread survives one of them moving, if it holds of where that
thread moved to. -/
theorem forall_update {P : ι → π → Prop} (h : ∀ j, P j (pc j)) (moved : P i q) (j : ι) :
    P j (Function.update pc i q j) := by
  by_cases hj : j = i
  · subst hj
    rwa [Function.update_self]
  · rw [Function.update_of_ne hj]
    exact h j

/-- A thread with some duty still has it after a step, or the step discharged it. -/
theorem exists_update (duty : π → Bool) {R : Prop} (h : ∃ j, duty (pc j) = true)
    (moved : duty (pc i) = true → duty q = true ∨ R) :
    (∃ j, duty (Function.update pc i q j) = true) ∨ R := by
  obtain ⟨j, hj⟩ := h
  by_cases hji : j = i
  · subst hji
    refine (moved hj).imp_left fun hq => ⟨j, ?_⟩
    rwa [Function.update_self]
  · exact .inl ⟨j, by rwa [Function.update_of_ne hji]⟩

theorem exists_update_self (duty : π → Bool) (hq : duty q = true) :
    ∃ j, duty (Function.update pc i q j) = true :=
  ⟨i, by rwa [Function.update_self]⟩

end Interleaving
