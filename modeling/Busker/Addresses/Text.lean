import Mathlib.Data.List.TakeWhile
import Mathlib.Data.Nat.Notation
import Busker.FixedFinal.Response

/-! Searching a string for a separator, and the decimal numbers in one. -/
namespace Busker.Addresses
open Busker.FixedFinal (JavaString ascii)

/-- The part before an index, `(subs s 0 i)`. -/
theorem take_append_cons {α : Type} {c : α} {before after : List α} :
    (before ++ c :: after).take before.length = before :=
  List.take_left

/-- The part after an index, `(subs s (inc i))`. -/
theorem drop_append_cons {α : Type} {c : α} {before after : List α} :
    (before ++ c :: after).drop (before.length + 1) = after := by
  rw [List.drop_append, List.drop_eq_nil_of_le (by omega)]
  simp

theorem takeWhile_append_cons {α : Type} {p : α → Bool} {c : α} {before after : List α}
    (all : ∀ b ∈ before, p b = true) (stop : p c = false) :
    (before ++ c :: after).takeWhile p = before := by
  rw [List.takeWhile_append_of_pos all, List.takeWhile_cons_of_neg (by simp [stop])]
  exact List.append_nil before

theorem dropWhile_append_cons {α : Type} {p : α → Bool} {c : α} {before after : List α}
    (all : ∀ b ∈ before, p b = true) (stop : p c = false) :
    (before ++ c :: after).dropWhile p = c :: after := by
  rw [List.dropWhile_append_of_pos all, List.dropWhile_cons_of_neg (by simp [stop])]

/-- What stops a `dropWhile` fails its test. -/
theorem stops {α : Type} {p : α → Bool} {c : α} {s after : List α}
    (tail : s.dropWhile p = c :: after) : p c = false := by
  have head := List.head?_dropWhile_not p s
  rwa [tail] at head

section
variable {α : Type} [DecidableEq α]

/-- `String.indexOf`, `none` being -1. -/
def indexOf (c : α) (s : List α) : Option ℕ := s.idxOf? c

/-- `String.lastIndexOf`, `none` being -1. -/
def lastIndexOf (c : α) (s : List α) : Option ℕ :=
  (s.reverse.idxOf? c).map fun i => s.length - 1 - i

variable {c : α} {s before after : List α} {i : ℕ}

theorem indexOf_eq_none : indexOf c s = none ↔ c ∉ s := List.idxOf?_eq_none_iff

theorem indexOf_append_cons (absent : c ∉ before) :
    indexOf c (before ++ c :: after) = some before.length := by
  induction before with
  | nil => simp [indexOf, List.idxOf?_cons]
  | cons first rest ih =>
      rw [List.mem_cons, not_or] at absent
      unfold indexOf at ih
      simp [indexOf, List.idxOf?_cons, ih absent.2, Ne.symm absent.1]

theorem lastIndexOf_eq_none : lastIndexOf c s = none ↔ c ∉ s := by
  unfold lastIndexOf
  rw [Option.map_eq_none_iff, List.idxOf?_eq_none_iff, List.mem_reverse]

theorem lastIndexOf_append_cons (absent : c ∉ after) :
    lastIndexOf c (before ++ c :: after) = some before.length := by
  have found : (before ++ c :: after).reverse.idxOf? c = some after.length := by
    rw [List.reverse_append, List.reverse_cons, List.append_assoc, List.singleton_append,
      ← List.length_reverse]
    exact indexOf_append_cons (List.mem_reverse.not.mpr absent)
  unfold lastIndexOf
  rw [found, Option.map_some, List.length_append, List.length_cons]
  congr 1
  omega

/-- An element of a list is somewhere for the last time. -/
theorem exists_last (mem : c ∈ s) : ∃ before after, s = before ++ c :: after ∧ c ∉ after := by
  induction s with
  | nil => cases mem
  | cons first rest ih =>
      by_cases later : c ∈ rest
      · obtain ⟨before, after, rfl, absent⟩ := ih later
        exact ⟨first :: before, after, rfl, absent⟩
      · obtain rfl := (List.mem_cons.mp mem).resolve_right later
        exact ⟨[], rest, rfl, later⟩

/-- A list has one split at its first separator. -/
theorem append_cons_inj {before' after' : List α} (absent : c ∉ before) (absent' : c ∉ before')
    (same : before ++ c :: after = before' ++ c :: after') : before = before' ∧ after = after' := by
  have length : before.length = before'.length := by
    have first : indexOf c (before ++ c :: after) = some before.length := indexOf_append_cons absent
    rw [same, indexOf_append_cons absent'] at first
    exact (Option.some.inj first).symm
  obtain ⟨front, back⟩ := List.append_inj same length
  exact ⟨front, (List.cons.inj back).2⟩

/-- The first and the last index agree exactly on strings with the separator at most once. -/
theorem indexOf_eq_lastIndexOf (absent : c ∉ after) :
    indexOf c (before ++ c :: after) = lastIndexOf c (before ++ c :: after) ↔ c ∉ before := by
  rw [lastIndexOf_append_cons absent]
  constructor
  · intro same mem
    obtain ⟨first, rest, rfl, early⟩ := List.eq_append_cons_of_mem mem
    rw [List.append_assoc, List.cons_append, indexOf_append_cons early, List.length_append] at same
    have := Option.some.inj same
    rw [List.length_cons] at this
    omega
  · exact indexOf_append_cons

end

/-- A character as a UTF-16 code unit. -/
def unit (c : Char) : UInt16 := UInt16.ofNat c.toNat

/-- `\d` -/
def isDigit (c : UInt16) : Bool := 48 ≤ c.toNat && c.toNat ≤ 57

/-- `\d+` -/
def matchesDigits (s : JavaString) : Bool := s ≠ [] && s.all isDigit

def decimalValue (digits : JavaString) : ℕ :=
  digits.foldl (fun n c => n * 10 + (c.toNat - 48)) 0

/-- What fits a Java `long`. -/
def longMax : ℕ := 9223372036854775807

/-- `Character.isWhitespace` -/
def isWhitespace (c : UInt16) : Bool :=
  let n := c.toNat
  (9 ≤ n && n ≤ 13) || (28 ≤ n && n ≤ 32) || n == 0x1680 || (0x2000 ≤ n && n ≤ 0x2006) ||
    (0x2008 ≤ n && n ≤ 0x200A) || n == 0x2028 || n == 0x2029 || n == 0x205F || n == 0x3000

/-- `str/blank?` -/
def isBlank (s : JavaString) : Bool := s.all isWhitespace

/-- The exceptions a port too large for a `long` leads to. -/
inductive Thrown
  | nullPointer
  | numberFormat
  deriving DecidableEq, Repr

theorem matchesDigits_iff {s : JavaString} :
    matchesDigits s = true ↔ s ≠ [] ∧ ∀ c ∈ s, isDigit c = true := by
  unfold matchesDigits
  rw [Bool.and_eq_true, decide_eq_true_iff, List.all_eq_true]

theorem not_isBlank {c : UInt16} {s : JavaString} (mem : c ∈ s) (ink : isWhitespace c = false) :
    isBlank s = false := by
  unfold isBlank
  rw [List.all_eq_false]
  exact ⟨c, mem, by rw [ink]; decide⟩

end Busker.Addresses
