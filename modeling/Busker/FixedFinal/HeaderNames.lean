import Mathlib.Data.Nat.Digits.Lemmas
import Busker.FixedFinal.Response

/-! Two ways to recognise the content length header, the decimal it is printed as, and the
two spellings of the content type. -/
namespace Busker.FixedFinal

def contentLengthName : JavaString := ascii "content-length"

section
variable {java : JavaText}

theorem sameIgnoringCase_comm (a b : UInt16) :
    sameIgnoringCase java a b = sameIgnoringCase java b a := by
  unfold sameIgnoringCase
  rw [Bool.eq_iff_iff]
  simp only [Bool.or_eq_true, beq_iff_eq]
  grind

theorem equalsIgnoreCase_comm (a b : JavaString) :
    equalsIgnoreCase java a b = equalsIgnoreCase java b a := by
  induction a generalizing b with
  | nil => cases b <;> rfl
  | cons first rest ih =>
      cases b with
      | nil => rfl
      | cons other others =>
          rw [equalsIgnoreCase, equalsIgnoreCase, sameIgnoringCase_comm, ih]

theorem equalsIgnoreCase_length {a b : JavaString} (same : equalsIgnoreCase java a b = true) :
    a.length = b.length := by
  induction a generalizing b with
  | nil =>
      cases b with
      | nil => rfl
      | cons _ _ => cases same
  | cons first rest ih =>
      cases b with
      | nil => cases same
      | cons other others =>
          rw [equalsIgnoreCase, Bool.and_eq_true] at same
          rw [List.length_cons, List.length_cons, ih same.2]

theorem asciiUpper_toNat (c : UInt16) : (asciiUpper c).toNat =
    if 97 ≤ c.toNat ∧ c.toNat ≤ 122 then c.toNat - 32 else c.toNat := by
  unfold asciiUpper
  split
  · rw [UInt16.toNat_sub_of_le]
    · rfl
    · rw [UInt16.le_iff_toNat_le]
      have bound : (32 : UInt16).toNat = 32 := rfl
      omega
  · rfl

theorem asciiLower_toNat (c : UInt16) : (asciiLower c).toNat =
    if 65 ≤ c.toNat ∧ c.toNat ≤ 90 then c.toNat + 32 else c.toNat := by
  unfold asciiLower
  split
  · have bound : (32 : UInt16).toNat = 32 := rfl
    rw [UInt16.toNat_add, bound]
    omega
  · rfl

theorem asciiUpper_lt {c : UInt16} (narrow : c.toNat < 128) : (asciiUpper c).toNat < 128 := by
  rw [asciiUpper_toNat]
  split <;> omega

theorem asciiLower_asciiUpper (c : UInt16) : asciiLower (asciiUpper c) = asciiLower c := by
  rw [← UInt16.toNat_inj, asciiLower_toNat, asciiLower_toNat, asciiUpper_toNat]
  split_ifs <;> omega

/-- Within ASCII, folding through upper case is the same as lower case. -/
theorem sameFold_iff {letter c : UInt16} (lower : asciiLower letter = letter) :
    (letter = c ∨ asciiUpper letter = asciiUpper c ∨
      asciiLower (asciiUpper letter) = asciiLower (asciiUpper c)) ↔ asciiLower c = letter := by
  rw [asciiLower_asciiUpper, asciiLower_asciiUpper, lower]
  constructor
  · rintro (equal | upper | folded)
    · rw [← equal, lower]
    · rw [← asciiLower_asciiUpper c, ← upper, asciiLower_asciiUpper, lower]
    · exact folded.symm
  · intro folded
    exact Or.inr (Or.inr folded.symm)

/-- The letters of the header's name are lower case, and no i, k or s, the letters that
characters outside ASCII fold to. -/
theorem contentLengthName_letters : ∀ c ∈ contentLengthName,
    c.toNat < 128 ∧ c ≠ 105 ∧ c ≠ 107 ∧ asciiUpper c ≠ 73 ∧ asciiUpper c ≠ 83 ∧
      asciiLower c = c := by
  have all : (contentLengthName.all fun c => decide (c.toNat < 128 ∧ c ≠ 105 ∧ c ≠ 107 ∧
      asciiUpper c ≠ 73 ∧ asciiUpper c ≠ 83 ∧ asciiLower c = c)) = true := by
    decide +kernel
  intro c mem
  exact of_decide_eq_true (List.all_eq_true.mp all c mem)

theorem contentLengthName_lower (java : JavaText) :
    java.lowerString contentLengthName = contentLengthName := by
  rw [java.lowerString_ascii _ fun c mem => (contentLengthName_letters c mem).1]
  decide +kernel

/-- A character matches a letter of the name exactly when it is ASCII and its lower case
is that letter. -/
theorem sameIgnoringCase_letter {letter c : UInt16} (mem : letter ∈ contentLengthName) :
    sameIgnoringCase java letter c = true ↔ c.toNat < 128 ∧ asciiLower c = letter := by
  obtain ⟨narrow, notI, notK, upperI, upperS, lowered⟩ := contentLengthName_letters letter mem
  have upperNarrow := asciiUpper_lt narrow
  unfold sameIgnoringCase
  simp only [Bool.or_eq_true, beq_iff_eq]
  rw [java.upper_ascii letter narrow, java.lower_ascii _ upperNarrow]
  by_cases wide : c.toNat < 128
  · rw [java.upper_ascii c wide, java.lower_ascii _ (asciiUpper_lt wide), or_assoc,
      sameFold_iff lowered]
    exact (and_iff_right wide).symm
  · -- Outside ASCII a character folds outside ASCII, or to an i, a k or an s.
    constructor
    · rintro ((equal | upper) | lower)
      · rw [equal] at narrow
        exact absurd narrow wide
      · rcases java.upper_other c (by omega) with high | dotless | long
        · rw [← upper] at high
          omega
        · exact absurd (upper.trans dotless) upperI
        · exact absurd (upper.trans long) upperS
      · rw [asciiLower_asciiUpper, lowered] at lower
        rcases java.upper_other c (by omega) with high | dotless | long
        · rcases java.lower_other _ high with higher | kelvin | dotted
          · rw [← lower] at higher
            omega
          · exact absurd (lower.trans kelvin) notK
          · exact absurd (lower.trans dotted) notI
        · rw [dotless, java.lower_ascii 73 (by decide)] at lower
          exact absurd lower notI
        · rw [long, java.lower_ascii 83 (by decide)] at lower
          rw [lower] at upperS
          exact absurd rfl upperS
    · rintro ⟨narrowC, _⟩
      exact absurd narrowC wide

theorem equalsIgnoreCase_letters {letters name : JavaString}
    (sub : ∀ c ∈ letters, c ∈ contentLengthName) :
    equalsIgnoreCase java letters name = true ↔
      (∀ c ∈ name, c.toNat < 128) ∧ name.map asciiLower = letters := by
  induction letters generalizing name with
  | nil =>
      cases name with
      | nil => simp [equalsIgnoreCase]
      | cons _ _ => simp [equalsIgnoreCase]
  | cons letter letters ih =>
      cases name with
      | nil => simp [equalsIgnoreCase]
      | cons c name =>
          rw [equalsIgnoreCase, Bool.and_eq_true,
            sameIgnoringCase_letter (sub letter List.mem_cons_self),
            ih fun d mem => sub d (List.mem_cons_of_mem letter mem)]
          simp only [List.forall_mem_cons, List.map_cons, List.cons.injEq]
          tauto

/-- The two tests for the content length header agree: equality ignoring case, and
equality of the lower case. -/
theorem isContentLength_iff (name : JavaString) :
    equalsIgnoreCase java contentLengthName name = true ↔
      java.lowerString name = contentLengthName := by
  rw [equalsIgnoreCase_letters fun _ mem => mem]
  constructor
  · rintro ⟨narrow, lower⟩
    rw [java.lowerString_ascii name narrow, lower]
  · intro lower
    have narrow : ∀ c ∈ name, c.toNat < 128 := by
      by_contra wide
      push Not at wide
      obtain ⟨c, mem, folds⟩ := java.lowerString_other name wide
      rw [lower] at mem
      obtain ⟨low, notI, notK, _⟩ := contentLengthName_letters c mem
      rcases folds with high | kelvin | dotted
      · omega
      · exact notK kelvin
      · exact notI dotted
    exact ⟨narrow, by rw [← java.lowerString_ascii name narrow, lower]⟩

end

/-- The lower-case content type is one, ignoring case. -/
theorem contentTypeName_lower (java : JavaText) :
    equalsIgnoreCase java (ascii "Content-Type") (ascii "content-type") = true := by
  have letters : ∀ c ∈ ascii "Content-Type", c.toNat < 128 := by
    rw [← List.forall_iff_forall_mem]
    decide
  have same : ∀ c ∈ ascii "Content-Type", asciiUpper (asciiLower c) = asciiUpper c ∧
      (asciiLower c).toNat < 128 := by
    rw [← List.forall_iff_forall_mem]
    decide
  have lower : ascii "content-type" = (ascii "Content-Type").map asciiLower := by decide
  rw [lower]
  generalize ascii "Content-Type" = name at letters same
  induction name with
  | nil => rfl
  | cons c rest ih =>
      obtain ⟨upper, narrow⟩ := same c List.mem_cons_self
      rw [List.map_cons, equalsIgnoreCase, ih (fun d mem => letters d (List.mem_cons_of_mem c mem))
        fun d mem => same d (List.mem_cons_of_mem c mem), Bool.and_true]
      simp [sameIgnoringCase, java.upper_ascii c (letters c List.mem_cons_self),
        java.upper_ascii _ narrow, upper]

/-! Decimals. -/

theorem digit_decimal (java : JavaText) {d : ℕ} (small : d < 10) :
    digit java (UInt16.ofNat (48 + d)) = some d := by
  have value : (UInt16.ofNat (48 + d)).toNat = 48 + d := by
    rw [UInt16.toNat_ofNat']
    omega
  rw [digit, value, if_pos (by omega), Nat.add_sub_cancel_left]

theorem parseDigits_append (java : JavaText) (digits : List ℕ) (small : ∀ d ∈ digits, d < 10)
    (n : ℕ) :
    parseDigits java (digits.map fun d => UInt16.ofNat (48 + d)) n =
      some (digits.foldl (fun n d => n * 10 + d) n) := by
  induction digits generalizing n with
  | nil => rfl
  | cons d rest ih =>
      rw [List.map_cons, parseDigits, digit_decimal java (small d List.mem_cons_self)]
      exact ih (fun other mem => small other (List.mem_cons_of_mem d mem)) _

theorem foldl_digits (digits : List ℕ) :
    digits.reverse.foldl (fun n d => n * 10 + d) 0 = Nat.ofDigits 10 digits := by
  induction digits with
  | nil => rfl
  | cons d rest ih =>
      rw [List.reverse_cons, List.foldl_append, ih, Nat.ofDigits_cons]
      simp only [List.foldl_cons, List.foldl_nil]
      omega

theorem parseDigits_decimal (java : JavaText) (n : ℕ) :
    parseDigits java (decimal n) 0 = some n := by
  unfold decimal
  split
  · rename_i zero
    rw [zero]
    exact parseDigits_append java [0] (by simp) 0
  · rw [parseDigits_append java _ _ 0, foldl_digits, Nat.ofDigits_digits]
    intro d mem
    exact Nat.digits_lt_base (by norm_num) (List.mem_reverse.mp mem)

/-- The first character of a decimal is a digit, not a sign. -/
theorem decimal_first (n : ℕ) :
    ∃ d rest, d < 10 ∧ decimal n = UInt16.ofNat (48 + d) :: rest := by
  unfold decimal
  split
  · exact ⟨0, [], by norm_num, rfl⟩
  · rename_i positive
    cases digits : (Nat.digits 10 n).reverse with
    | nil =>
        have none : Nat.digits 10 n = [] := List.reverse_eq_nil_iff.mp digits
        exact absurd (Nat.digits_eq_nil_iff_eq_zero.mp none) positive
    | cons d rest =>
        have mem : d ∈ Nat.digits 10 n := by
          rw [← List.mem_reverse, digits]
          exact List.mem_cons_self
        exact ⟨d, _, Nat.digits_lt_base (by norm_num) mem, rfl⟩

theorem parseLong_decimal_eq (java : JavaText) (n : ℕ) :
    parseLong java (decimal n) = asLong n := by
  obtain ⟨d, rest, small, printed⟩ := decimal_first n
  have value : (UInt16.ofNat (48 + d)).toNat = 48 + d := by
    rw [UInt16.toNat_ofNat']
    omega
  have noMinus : UInt16.ofNat (48 + d) ≠ 45 := by
    intro minus
    rw [minus] at value
    have ascii : (45 : UInt16).toNat = 45 := rfl
    omega
  have noPlus : UInt16.ofNat (48 + d) ≠ 43 := by
    intro plus
    rw [plus] at value
    have ascii : (43 : UInt16).toNat = 43 := rfl
    omega
  have digits := parseDigits_decimal java n
  rw [printed] at digits ⊢
  rw [parseLong, if_neg noMinus, if_neg noPlus, digits, Option.bind_some]

/-- `Long/parseLong` reads back what `str` prints. -/
theorem parseLong_decimal (java : JavaText) {n : ℕ} (long : IsLong n) :
    parseLong java (decimal n) = some (n : ℤ) := by
  rw [parseLong_decimal_eq, asLong, if_pos long]

end Busker.FixedFinal
