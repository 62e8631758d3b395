import Mathlib.Algebra.BigOperators.Fin
import Mathlib.Algebra.Order.BigOperators.Group.Finset

/-! Counting what the threads of a machine contribute to a shared counter.
`census w pc` adds the weight `w` of every thread's program point; an atomic
counter that each thread moves in step with its own weight equals it. -/

namespace Interleaving

open scoped BigOperators

variable {ι π : Type*} [Fintype ι]

def census (w : π → ℕ) (pc : ι → π) : ℕ := ∑ i, w (pc i)

/-- One thread moving changes the census by its own change of weight, also when
the weight is taken in another context that the other threads do not notice. -/
theorem census_move [DecidableEq ι] (w w' : π → ℕ) (pc pc' : ι → π) (i : ι)
    (others : ∀ j, j ≠ i → w' (pc' j) = w (pc j)) :
    census w' pc' + w (pc i) = census w pc + w' (pc' i) := by
  have rest : ∑ j ∈ Finset.univ.erase i, w' (pc' j) = ∑ j ∈ Finset.univ.erase i, w (pc j) :=
    Finset.sum_congr rfl fun j hj => others j (Finset.ne_of_mem_erase hj)
  have before := Finset.add_sum_erase Finset.univ (fun j => w (pc j)) (Finset.mem_univ i)
  have after := Finset.add_sum_erase Finset.univ (fun j => w' (pc' j)) (Finset.mem_univ i)
  unfold census
  omega

theorem census_update [DecidableEq ι] (w : π → ℕ) (pc : ι → π) (i : ι) (p : π) :
    census w (Function.update pc i p) + w (pc i) = census w pc + w p := by
  have moved := census_move w w pc (Function.update pc i p) i
    fun j hj => by rw [Function.update_of_ne hj]
  rwa [Function.update_self] at moved

/-- A thread that keeps its weight leaves the census as it is. -/
theorem census_update_same [DecidableEq ι] {w : π → ℕ} {pc : ι → π} {i : ι} {p : π}
    (same : w p = w (pc i)) : census w (Function.update pc i p) = census w pc := by
  have := census_update w pc i p
  omega

theorem census_congr {w w' : π → ℕ} {pc pc' : ι → π} (same : ∀ i, w' (pc' i) = w (pc i)) :
    census w' pc' = census w pc := Finset.sum_congr rfl fun i _ => same i

theorem le_census (w : π → ℕ) (pc : ι → π) (i : ι) : w (pc i) ≤ census w pc :=
  Finset.single_le_sum (f := fun j => w (pc j)) (fun _ _ => Nat.zero_le _) (Finset.mem_univ i)

theorem census_eq_zero {w : π → ℕ} {pc : ι → π} : census w pc = 0 ↔ ∀ i, w (pc i) = 0 := by
  simp [census, Finset.sum_eq_zero_iff]

theorem census_const_zero {w : π → ℕ} {p : π} (h : w p = 0) :
    census w (fun _ : ι => p) = 0 := census_eq_zero.mpr fun _ => h

end Interleaving
