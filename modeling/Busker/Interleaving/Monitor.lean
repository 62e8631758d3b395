import Busker.Interleaving.Threads

/-! A lock that a thread holds while it stands at the program points `inside`. -/

namespace Interleaving

variable {ι π : Type*} {lock lock' : Option ι} {inside : π → Bool} {pc : ι → π}
  {i j : ι} {q : π}

/-- Only the holder of the lock is inside. -/
def Guarded (lock : Option ι) (inside : π → Bool) (pc : ι → π) : Prop :=
  ∀ i, inside (pc i) = true → lock = some i

/-- What a step of thread `i` may do to the lock, and where it stands before and after. -/
inductive LockMove (i : ι) : Option ι → Bool → Option ι → Bool → Prop
  | stay (lock : Option ι) (within : Bool) : LockMove i lock within lock within
  | enter : LockMove i none false (some i) true
  | leave (lock : Option ι) : LockMove i lock true none false

theorem guarded_outside {p : π} (outside : inside p = false) :
    Guarded lock inside (fun _ : ι => p) := by
  intro i within
  rw [outside] at within
  contradiction

theorem Guarded.exclusive (h : Guarded lock inside pc) (hi : inside (pc i) = true)
    (hj : inside (pc j) = true) : i = j :=
  Option.some.inj ((h i hi).symm.trans (h j hj))

/-- While one thread is inside, the others are not. -/
theorem Guarded.others (h : Guarded lock inside pc) (hi : inside (pc i) = true) (other : j ≠ i) :
    inside (pc j) = false := by
  by_contra within
  exact other (h.exclusive (by simpa using within) hi)

theorem Guarded.step [DecidableEq ι] (h : Guarded lock inside pc)
    (moved : LockMove i lock (inside (pc i)) lock' (inside q)) :
    Guarded lock' inside (Function.update pc i q) := by
  intro j within
  generalize hb : inside (pc i) = before at moved
  generalize hq : inside q = after at moved
  by_cases hj : j = i
  · subst hj
    rw [Function.update_self, hq] at within
    cases moved with
    | stay => exact h j (hb.trans within)
    | enter => rfl
    | leave => contradiction
  · rw [Function.update_of_ne hj] at within
    have held := h j within
    cases moved with
    | stay => exact held
    | enter => contradiction
    | leave => exact absurd (h.exclusive within hb) hj

end Interleaving
