import Mathlib.Data.List.Basic
import Mathlib.Tactic.Basic

/-! Growable arrays as C programs keep them: raw slots of which the first `length` are
in use, searched from the front, overwritten in place and closed up by moving the rest
down. What is in use reads as a list, and each operation is one on that list. -/

namespace SlotArray

structure Slots (α : Type*) where
  slot : ℕ → α
  length : ℕ
  capacity : ℕ
  fits : length ≤ capacity

namespace Slots

variable {α β : Type*}

def contents (a : Slots α) : List α := (List.range a.length).map a.slot

@[simp] theorem length_contents (a : Slots α) : a.contents.length = a.length := by
  simp [contents]

theorem getElem?_contents (a : Slots α) (j : ℕ) :
    a.contents[j]? = if j < a.length then some (a.slot j) else none := by
  unfold contents
  split
  · rw [List.getElem?_map, List.getElem?_range ‹_›]
    rfl
  · rw [List.getElem?_eq_none]
    simpa using Nat.le_of_not_lt ‹_›

theorem slot_mem (a : Slots α) {j : ℕ} (used : j < a.length) : a.slot j ∈ a.contents :=
  List.mem_of_getElem? (i := j) (by rw [getElem?_contents, if_pos used])

/-- The loop `for (idx = first; idx < first + left; ++idx)` that leaves at the first hit. -/
def scan (hit : α → Bool) (slot : ℕ → α) : (left first : ℕ) → Option ℕ
  | 0, _ => none
  | left + 1, first => if hit (slot first) then some first else scan hit slot left (first + 1)

def firstIndex (hit : α → Bool) (a : Slots α) : Option ℕ := scan hit a.slot a.length 0

theorem scan_eq_some {hit : α → Bool} {slot : ℕ → α} {left first idx : ℕ}
    (found : scan hit slot left first = some idx) :
    first ≤ idx ∧ idx < first + left ∧ hit (slot idx) = true := by
  induction left generalizing first with
  | zero => cases found
  | succ left ih =>
    unfold scan at found
    split at found
    · obtain rfl := Option.some.inj found
      exact ⟨Nat.le_refl _, by omega, ‹_›⟩
    · have ⟨lower, upper, here⟩ := ih found
      exact ⟨by omega, by omega, here⟩

theorem scan_eq_none {hit : α → Bool} {slot : ℕ → α} {left first : ℕ}
    (missed : scan hit slot left first = none) {idx : ℕ} (lower : first ≤ idx)
    (upper : idx < first + left) : hit (slot idx) = false := by
  induction left generalizing first with
  | zero => omega
  | succ left ih =>
    unfold scan at missed
    split at missed
    · cases missed
    · rename_i other
      rcases Nat.eq_or_lt_of_le lower with rfl | later
      · exact Bool.eq_false_iff.mpr other
      · exact ih missed later (by omega)

theorem firstIndex_eq_some {hit : α → Bool} {a : Slots α} {idx : ℕ}
    (found : firstIndex hit a = some idx) : idx < a.length ∧ hit (a.slot idx) = true := by
  have ⟨_, upper, here⟩ := scan_eq_some found
  exact ⟨by omega, here⟩

theorem firstIndex_eq_none {hit : α → Bool} {a : Slots α} (missed : firstIndex hit a = none) :
    ∀ x ∈ a.contents, hit x = false := by
  intro x member
  obtain ⟨j, inRange, rfl⟩ := List.mem_map.mp member
  exact scan_eq_none missed (Nat.zero_le j) (by simpa using inRange)

/-- Overwrite a slot. -/
def store (a : Slots α) (idx : ℕ) (x : α) : Slots α :=
  { a with slot := fun j => if j = idx then x else a.slot j }

theorem contents_store (a : Slots α) (idx : ℕ) (x : α) :
    (a.store idx x).contents = a.contents.set idx x := by
  apply List.ext_getElem?
  intro j
  rw [List.getElem?_set, getElem?_contents, getElem?_contents, length_contents]
  by_cases here : idx = j
  · subst here
    simp [store]
  · simp [store, here, Ne.symm here]

/-- Take one more slot into use. -/
def extend (a : Slots α) (room : a.length < a.capacity) : Slots α :=
  { a with length := a.length + 1, fits := room }

theorem contents_extend_store (a : Slots α) (room : a.length < a.capacity) (x : α) :
    ((a.extend room).store a.length x).contents = a.contents ++ [x] := by
  apply List.ext_getElem?
  intro j
  rw [List.getElem?_append, getElem?_contents, getElem?_contents, length_contents]
  by_cases inside : j < a.length
  · simp [store, extend, inside, Nat.lt_succ_of_lt inside, Nat.ne_of_lt inside]
  · rcases Nat.eq_or_lt_of_le (Nat.le_of_not_lt inside) with rfl | beyond
    · simp [store, extend]
    · rw [if_neg (by simp only [store, extend]; omega), if_neg inside,
        List.getElem?_eq_none (by simp only [List.length_singleton]; omega)]

/-- Give the array more slots; those in use stay. -/
def grow (a : Slots α) (capacity : ℕ) (larger : a.length ≤ capacity) : Slots α :=
  { a with capacity := capacity, fits := larger }

@[simp] theorem contents_grow (a : Slots α) (capacity : ℕ) (larger : a.length ≤ capacity) :
    (a.grow capacity larger).contents = a.contents := rfl

/-- `memmove` of `count` slots to `idx` from the slot after it. -/
def moveDown (slot : ℕ → α) (idx count : ℕ) : ℕ → α :=
  fun j => if idx ≤ j ∧ j < idx + count then slot (j + 1) else slot j

/-- Take a slot out of use and close the gap. -/
def remove (a : Slots α) (idx : ℕ) : Slots α where
  slot := if idx + 1 < a.length then moveDown a.slot idx (a.length - idx - 1) else a.slot
  length := a.length - 1
  capacity := a.capacity
  fits := Nat.le_trans (Nat.sub_le ..) a.fits

theorem slot_remove (a : Slots α) {idx j : ℕ} (used : j < a.length - 1) :
    (a.remove idx).slot j = if idx ≤ j then a.slot (j + 1) else a.slot j := by
  simp only [remove]
  by_cases after : idx ≤ j
  · rw [if_pos (by omega), if_pos after]
    exact if_pos ⟨after, by omega⟩
  · rw [if_neg after]
    split
    · exact if_neg fun inside => after inside.1
    · rfl

theorem contents_remove (a : Slots α) {idx : ℕ} (used : idx < a.length) :
    (a.remove idx).contents = a.contents.eraseIdx idx := by
  apply List.ext_getElem?
  intro j
  have shorter : (a.remove idx).length = a.length - 1 := rfl
  rw [List.getElem?_eraseIdx, getElem?_contents, getElem?_contents, getElem?_contents, shorter]
  by_cases inside : j < a.length - 1
  · rw [if_pos inside, slot_remove a inside, if_pos (by omega : j < a.length),
      if_pos (by omega : j + 1 < a.length)]
    by_cases after : idx ≤ j
    · rw [if_pos after, if_neg (Nat.not_lt.mpr after)]
    · rw [if_neg after, if_pos (Nat.lt_of_not_le after)]
  · rw [if_neg inside, if_neg (by omega : ¬ j < idx), if_neg (by omega : ¬ j + 1 < a.length)]

/-- A loop over the slots in use, which its body may leave. -/
def forEach (body : α → β → ForInStep β) (slot : ℕ → α) : (left first : ℕ) → β → β
  | 0, _, b => b
  | left + 1, first, b =>
    match body (slot first) b with
    | .done b => b
    | .yield b => forEach body slot left (first + 1) b

/-- The same loop over a list. -/
def walk (body : α → β → ForInStep β) : List α → β → β
  | [], b => b
  | x :: rest, b =>
    match body x b with
    | .done b => b
    | .yield b => walk body rest b

theorem walk_yield {body : α → β → ForInStep β} {x : α} {b next : β}
    (goesOn : body x b = .yield next) (rest : List α) :
    walk body (x :: rest) b = walk body rest next := by
  rw [walk, goesOn]

theorem walk_done {body : α → β → ForInStep β} {x : α} {b last : β}
    (leaves : body x b = .done last) (rest : List α) : walk body (x :: rest) b = last := by
  rw [walk, leaves]

theorem forEach_eq_walk (body : α → β → ForInStep β) (slot : ℕ → α) (left first : ℕ) (b : β) :
    forEach body slot left first b = walk body ((List.range' first left).map slot) b := by
  induction left generalizing first b with
  | zero => rfl
  | succ left ih =>
    rw [List.range'_succ, List.map_cons, walk, forEach]
    cases body (slot first) b with
    | done b => rfl
    | yield b => exact ih (first + 1) b

theorem forEach_contents (body : α → β → ForInStep β) (a : Slots α) (b : β) :
    forEach body a.slot a.length 0 b = walk body a.contents b := by
  rw [forEach_eq_walk, contents, List.range_eq_range']

end Slots

end SlotArray
