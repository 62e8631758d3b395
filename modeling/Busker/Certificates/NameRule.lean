import Busker.Certificates.Lookup
import Mathlib.Data.List.Basic

/-! When `subject-name-matches-hostname?` follows the DNS rule: equal names, or `*.` and a
suffix against one label and that suffix, without regard to ASCII case. -/

namespace Busker.Certificates

open Busker.FixedFinal (JavaString ascii asciiLower)

/-- Equal without regard to ASCII case. -/
def SameName (a b : JavaString) : Prop := a.map asciiLower = b.map asciiLower

/-- One label of a name: not empty and without a dot. -/
def Label (label : JavaString) : Prop := label ≠ [] ∧ fullStop ∉ label

def dots (n : ℕ) : JavaString := List.replicate n fullStop

/-- The wildcard pattern of the names that end in a dot and the suffix. -/
def wildcard (suffix : JavaString) : JavaString := asterisk :: fullStop :: suffix

/-- The DNS rule. -/
def DnsRule (subjectName hostname : JavaString) : Prop :=
  SameName subjectName hostname ∨
    ∃ label suffix, Label label ∧ subjectName = wildcard suffix ∧
      SameName hostname (label ++ fullStop :: suffix)

/-- The rule with regard to case. -/
def ExactRule (subjectName hostname : JavaString) : Prop :=
  subjectName = hostname ∨
    ∃ label suffix, Label label ∧ subjectName = wildcard suffix ∧
      hostname = label ++ fullStop :: suffix

/-- Where counting the parts of the split is not counting labels: the host name begins with the
dot of the suffix, or the suffix has no label of its own. -/
inductive Miscounted : JavaString → JavaString → Prop
  | noLabel {suffix : JavaString} (named : ∃ c ∈ suffix, c ≠ fullStop) :
      Miscounted (wildcard suffix) (fullStop :: suffix)
  | oneLabel {label : JavaString} (valid : Label label) (other : label ≠ [asterisk]) :
      Miscounted (wildcard []) (label ++ [fullStop])
  | twoLabels {first second : JavaString} {n : ℕ} (plain : fullStop ∉ first) (valid : Label second) :
      Miscounted (wildcard []) (first ++ fullStop :: (second ++ dots (n + 1)))
  | spareDots {label : JavaString} {m n : ℕ} (valid : Label label) :
      Miscounted (wildcard (dots (m + 1))) (label ++ dots (m + n + 3))

/-- The names agree as the code compares them: case decides nothing, and the parts of the
split are labels. -/
structure ComparedExactly (subjectName hostname : JavaString) : Prop where
  cased : DnsRule subjectName hostname → ExactRule subjectName hostname
  counted : ¬ Miscounted subjectName hostname

/-! The parts of a split, of which the empty ones at the end are dropped. -/

def trimmed (parts : List JavaString) : List JavaString :=
  (parts.reverse.dropWhile List.isEmpty).reverse

theorem trimmed_replicate (parts : List JavaString) (n : ℕ) :
    trimmed (parts ++ List.replicate n []) = trimmed parts := by
  unfold trimmed
  rw [List.reverse_append, List.reverse_replicate, List.dropWhile_append_of_pos]
  intro part mem
  rw [List.eq_of_mem_replicate mem]
  rfl

theorem trimmed_concat (parts : List JavaString) {last : JavaString} (filled : last ≠ []) :
    trimmed (parts ++ [last]) = parts ++ [last] := by
  unfold trimmed
  rw [List.reverse_append, List.reverse_singleton, List.singleton_append,
    List.dropWhile_cons_of_neg (by simpa using filled), List.reverse_cons, List.reverse_reverse]

theorem pieces_ne_nil (s : JavaString) : pieces s ≠ [] := by
  cases s with
  | nil => exact List.cons_ne_nil _ _
  | cons c rest =>
      rw [pieces]
      split
      · exact List.cons_ne_nil _ _
      · split <;> exact List.cons_ne_nil _ _

theorem pieces_append (front back : JavaString) :
    pieces (front ++ fullStop :: back) = pieces front ++ pieces back := by
  induction front with
  | nil => rfl
  | cons c rest ih =>
      rw [List.cons_append, pieces, pieces]
      split
      · rw [ih, List.cons_append]
      · rw [ih]
        cases parts : pieces rest with
        | nil => exact absurd parts (pieces_ne_nil rest)
        | cons piece more => rfl

theorem pieces_dots (n : ℕ) : pieces (dots n) = List.replicate (n + 1) [] := by
  induction n with
  | zero => rfl
  | succ n ih => exact congrArg ([] :: ·) ih

theorem pieces_length (s : JavaString) : (pieces s).length = s.count fullStop + 1 := by
  induction s with
  | nil => rfl
  | cons c rest ih =>
      rw [pieces]
      by_cases dot : c = fullStop
      · rw [if_pos dot, dot, List.count_cons_self, List.length_cons, ih]
      · rw [if_neg dot, List.count_cons_of_ne dot]
        cases parts : pieces rest with
        | nil => exact absurd parts (pieces_ne_nil rest)
        | cons piece more =>
            rw [parts] at ih
            exact ih

/-- The last part of a string that does not end in a dot is not empty. -/
theorem pieces_last (front : JavaString) {c : UInt16} (plain : c ≠ fullStop) :
    ∃ parts last, last ≠ [] ∧ pieces (front ++ [c]) = parts ++ [last] := by
  induction front with
  | nil => exact ⟨[], [c], List.cons_ne_nil _ _, by rw [List.nil_append, pieces, if_neg plain]; rfl⟩
  | cons d rest ih =>
      obtain ⟨parts, last, filled, split⟩ := ih
      rw [List.cons_append, pieces, split]
      by_cases dot : d = fullStop
      · rw [if_pos dot]
        exact ⟨[] :: parts, last, filled, rfl⟩
      · rw [if_neg dot]
        cases parts with
        | nil => exact ⟨[], d :: last, List.cons_ne_nil _ _, rfl⟩
        | cons part more => exact ⟨(d :: part) :: more, last, filled, rfl⟩

/-- A string is dots only, or ends in dots after another character. -/
theorem dots_or_ends (s : JavaString) :
    (∃ n, s = dots n) ∨ ∃ front c n, c ≠ fullStop ∧ s = front ++ c :: dots n := by
  induction s with
  | nil => exact .inl ⟨0, rfl⟩
  | cons c rest ih =>
      rcases ih with ⟨n, rfl⟩ | ⟨front, d, n, plain, rfl⟩
      · by_cases dot : c = fullStop
        · exact .inl ⟨n + 1, by rw [dot]; rfl⟩
        · exact .inr ⟨[], c, n, dot, rfl⟩
      · exact .inr ⟨c :: front, d, n, plain, rfl⟩

theorem splitDots_dots (n : ℕ) : (splitDots (dots n)).length = if n = 0 then 1 else 0 := by
  cases n with
  | zero => rfl
  | succ n =>
      have dotted : fullStop ∈ dots (n + 1) := List.mem_cons_self
      have none : trimmed (pieces (dots (n + 1))) = [] := by
        rw [pieces_dots, ← List.nil_append (List.replicate _ _), trimmed_replicate]
        rfl
      rw [splitDots, if_pos dotted]
      exact congrArg List.length none

/-- The parts that are counted, where a string does not consist of dots. -/
theorem splitDots_length (front : JavaString) {c : UInt16} (plain : c ≠ fullStop) (n : ℕ) :
    (splitDots (front ++ c :: dots n)).length = front.count fullStop + 1 := by
  have kept : trimmed (pieces (front ++ c :: dots n)) = pieces (front ++ [c]) := by
    obtain ⟨parts, last, filled, split⟩ := pieces_last front plain
    cases n with
    | zero => rw [dots, List.replicate_zero, split, trimmed_concat parts filled]
    | succ n =>
        have text : front ++ c :: dots (n + 1) = front ++ [c] ++ fullStop :: dots n := by
          simp [dots, List.replicate_succ]
        rw [text, pieces_append, pieces_dots, trimmed_replicate, split, trimmed_concat parts filled]
  have length : (pieces (front ++ [c])).length = front.count fullStop + 1 := by
    rw [pieces_length, List.count_append, List.count_singleton, if_neg (by simpa using plain)]
  rw [splitDots]
  split
  · rw [← length, ← kept]
    rfl
  · rename_i dotless
    simp only [List.mem_append, not_or] at dotless
    rw [List.count_eq_zero.mpr dotless.1]
    rfl

/-- Counting the parts finds that there is one part before the suffix. -/
def OnePart (front suffix : JavaString) : Prop :=
  (splitDots (front ++ fullStop :: suffix)).length = (splitDots suffix).length + 1

theorem matches_iff (subjectName hostname : JavaString) :
    subjectNameMatchesHostname subjectName hostname = true ↔
      subjectName = hostname ∨
        ∃ front suffix, subjectName = wildcard suffix ∧
          hostname = front ++ fullStop :: suffix ∧ OnePart front suffix := by
  unfold subjectNameMatchesHostname wildcardSubjectName
  by_cases same : subjectName = hostname
  · simp [same]
  rw [if_neg same, or_iff_right same]
  by_cases starred : [asterisk, fullStop].isPrefixOf subjectName = true
  · obtain ⟨suffix, text⟩ := List.isPrefixOf_iff_prefix.mp starred
    rw [if_pos starred, Bool.and_eq_true, List.isSuffixOf_iff_suffix, beq_iff_eq, ← text]
    constructor
    · rintro ⟨⟨front, ends⟩, counted⟩
      rw [← ends] at counted
      exact ⟨front, suffix, rfl, ends.symm, counted⟩
    · rintro ⟨front, other, named, ends, one⟩
      obtain rfl : suffix = other := by simpa [wildcard] using named
      refine ⟨⟨front, ends.symm⟩, ?_⟩
      rw [ends]
      exact one
  · rw [if_neg starred]
    constructor
    · exact fun impossible => absurd impossible Bool.false_ne_true
    · rintro ⟨front, suffix, named, -⟩
      apply absurd _ starred
      rw [named]
      rfl

theorem onePart_filled (front init : JavaString) {c : UInt16} (plain : c ≠ fullStop) (n : ℕ) :
    OnePart front (init ++ c :: dots n) ↔ fullStop ∉ front := by
  have text : front ++ fullStop :: (init ++ c :: dots n) = (front ++ fullStop :: init) ++ c :: dots n := by
    simp
  unfold OnePart
  rw [text, splitDots_length _ plain, splitDots_length _ plain, List.count_append,
    List.count_cons_self, ← List.count_eq_zero]
  omega

theorem dots_append (k n : ℕ) : dots k ++ fullStop :: dots n = dots (k + n + 1) := by
  rw [dots, dots, ← List.replicate_succ, List.replicate_append_replicate]
  rfl

theorem onePart_dots (front : JavaString) (n : ℕ) :
    OnePart front (dots n) ↔ ∃ init c k, c ≠ fullStop ∧ front = init ++ c :: dots k ∧
      init.count fullStop = if n = 0 then 1 else 0 := by
  unfold OnePart
  rw [splitDots_dots]
  rcases dots_or_ends front with ⟨k, rfl⟩ | ⟨init, c, k, plain, rfl⟩
  · rw [dots_append, splitDots_dots, if_neg (Nat.succ_ne_zero _)]
    constructor
    · intro impossible
      split at impossible <;> contradiction
    · rintro ⟨init, c, j, plain, same, -⟩
      have mem : c ∈ dots k := by simp [same]
      exact absurd (List.eq_of_mem_replicate mem) plain
  · have length := splitDots_length init plain
    rw [List.append_assoc, List.cons_append, dots_append, length]
    constructor
    · exact fun counted => ⟨init, c, k, plain, rfl, Nat.succ.inj counted⟩
    · rintro ⟨other, d, j, plain', same, counted⟩
      have both := length k
      rw [same, splitDots_length other plain'] at both
      omega

theorem Label.ends {label : JavaString} (valid : Label label) :
    ∃ init c, c ≠ fullStop ∧ init.count fullStop = 0 ∧ label = init ++ [c] := by
  obtain ⟨filled, plain⟩ := valid
  rcases List.eq_nil_or_concat label with none | ⟨init, c, rfl⟩
  · exact absurd none filled
  · rw [List.concat_eq_append, List.mem_append, not_or, List.mem_singleton] at plain
    exact ⟨init, c, Ne.symm plain.2, List.count_eq_zero.mpr plain.1, List.concat_eq_append⟩

theorem label_of_ends {init : JavaString} {c : UInt16} (plain : c ≠ fullStop) (none : init.count fullStop = 0) :
    Label (init ++ [c]) := by
  refine ⟨by simp, ?_⟩
  rw [List.mem_append, not_or, List.mem_singleton]
  exact ⟨List.count_eq_zero.mp none, Ne.symm plain⟩

theorem asciiLower_dot (c : UInt16) : asciiLower c = fullStop ↔ c = fullStop := by
  unfold asciiLower
  split
  · rename_i upper
    constructor
    · intro same
      have code := congrArg UInt16.toNat same
      rw [UInt16.toNat_add, Nat.mod_eq_of_lt (by change c.toNat + 32 < 65536; omega)] at code
      have : c.toNat + 32 = 46 := code
      omega
    · rintro rfl
      exact absurd upper (by decide)
  · exact Iff.rfl

/-- Case does not hide a dot. -/
theorem SameName.count {a b : JavaString} (same : SameName a b) : a.count fullStop = b.count fullStop := by
  have kept : ∀ s : JavaString, (s.map asciiLower).count fullStop = s.count fullStop := by
    intro s
    induction s with
    | nil => rfl
    | cons c rest ih =>
        rw [List.map_cons, List.count_cons, List.count_cons, ih]
        simp only [beq_iff_eq, asciiLower_dot]
  rw [← kept a, ← kept b, same]

theorem SameName.length {a b : JavaString} (same : SameName a b) : a.length = b.length := by
  simpa using congrArg List.length same

theorem ExactRule.dnsRule {subjectName hostname : JavaString}
    (rule : ExactRule subjectName hostname) : DnsRule subjectName hostname := by
  rcases rule with rfl | ⟨label, suffix, valid, named, rfl⟩
  · exact .inl rfl
  · exact .inr ⟨label, suffix, valid, named, rfl⟩

theorem wildcard_inj {a b : JavaString} (same : wildcard a = wildcard b) : a = b :=
  (List.cons.inj (List.cons.inj same).2).2

/-- What the comparison of the code comes to. -/
def Compared (subjectName hostname : JavaString) : Prop :=
  subjectName = hostname ∨ ∃ front suffix, subjectName = wildcard suffix ∧
    hostname = front ++ fullStop :: suffix ∧ OnePart front suffix

theorem ExactRule.compared {subjectName hostname : JavaString}
    (counted : ¬ Miscounted subjectName hostname) (rule : ExactRule subjectName hostname) :
    Compared subjectName hostname := by
  rcases rule with same | ⟨label, suffix, valid, rfl, rfl⟩
  · exact .inl same
  rcases dots_or_ends suffix with ⟨n, rfl⟩ | ⟨init, c, n, plain, rfl⟩
  · cases n with
    | zero =>
        by_cases star : label = [asterisk]
        · rw [star]
          exact .inl rfl
        · exact absurd (Miscounted.oneLabel valid star) counted
    | succ n =>
        obtain ⟨init, c, plain, none, rfl⟩ := valid.ends
        refine .inr ⟨_, _, rfl, rfl, (onePart_dots _ _).mpr ⟨init, c, 0, plain, rfl, none⟩⟩
  · exact .inr ⟨_, _, rfl, rfl, (onePart_filled label init plain n).mpr valid.2⟩

theorem Compared.exactRule {subjectName hostname : JavaString}
    (counted : ¬ Miscounted subjectName hostname) (compared : Compared subjectName hostname) :
    ExactRule subjectName hostname := by
  rcases compared with same | ⟨front, suffix, rfl, rfl, one⟩
  · exact .inl same
  rcases dots_or_ends suffix with ⟨n, rfl⟩ | ⟨init, c, n, plain, rfl⟩
  · obtain ⟨init, c, k, plain, rfl, none⟩ := (onePart_dots front n).mp one
    cases n with
    | zero =>
        rw [if_pos rfl] at none
        obtain ⟨first, second, rfl, early⟩ :=
          List.eq_append_cons_of_mem (List.count_pos_iff.mp (by omega : 0 < init.count fullStop))
        rw [List.count_append, List.count_cons_self] at none
        have valid : Label (second ++ [c]) := label_of_ends plain (by omega)
        have text : first ++ fullStop :: second ++ c :: dots k ++ fullStop :: dots 0 =
            first ++ fullStop :: (second ++ [c] ++ dots (k + 1)) := by
          simp [dots, List.replicate_succ']
        rw [text] at counted
        exact absurd (Miscounted.twoLabels early valid) counted
    | succ n =>
        have valid : Label (init ++ [c]) := label_of_ends plain (by simpa using none)
        cases k with
        | zero => exact .inr ⟨_, _, valid, rfl, rfl⟩
        | succ k =>
            have text : init ++ c :: dots (k + 1) ++ fullStop :: dots (n + 1) =
                init ++ [c] ++ dots (n + k + 3) := by
              rw [List.append_assoc, List.cons_append, dots_append, List.append_assoc,
                List.singleton_append, show k + 1 + (n + 1) + 1 = n + k + 3 by omega]
            rw [text] at counted
            exact absurd (Miscounted.spareDots valid) counted
  · have plain' := (onePart_filled front init plain n).mp one
    by_cases filled : front = []
    · rw [filled] at counted
      exact absurd (Miscounted.noLabel ⟨c, by simp, plain⟩) counted
    · exact .inr ⟨front, _, ⟨filled, plain'⟩, rfl, rfl⟩

/-- A host name that a wildcard covers has one dot more than its suffix. -/
theorem DnsRule.count {suffix hostname : JavaString} (rule : DnsRule (wildcard suffix) hostname) :
    hostname.count fullStop = suffix.count fullStop + 1 := by
  rcases rule with same | ⟨label, other, valid, named, same⟩
  · rw [← same.count, wildcard, List.count_cons_of_ne (by decide), List.count_cons_self]
  · rw [same.count, List.count_append, List.count_eq_zero.mpr valid.2, List.count_cons_self,
      wildcard_inj named, Nat.zero_add]

/-- A name that is miscounted is compared one way and ruled the other. -/
theorem Miscounted.disagrees {subjectName hostname : JavaString}
    (miscounted : Miscounted subjectName hostname) :
    ¬ (Compared subjectName hostname ↔ DnsRule subjectName hostname) := by
  intro agree
  cases miscounted with
  | @noLabel suffix named =>
      have compared : Compared (wildcard suffix) (fullStop :: suffix) := by
        refine .inr ⟨[], suffix, rfl, rfl, ?_⟩
        rcases dots_or_ends suffix with ⟨n, rfl⟩ | ⟨init, c, n, plain, rfl⟩
        · obtain ⟨c, mem, other⟩ := named
          exact absurd (List.eq_of_mem_replicate mem) other
        · exact (onePart_filled [] init plain n).mpr List.not_mem_nil
      rcases agree.mp compared with same | ⟨label, other, valid, named, same⟩
      · have length := same.length
        simp [wildcard] at length
      · rw [← wildcard_inj named] at same
        have length := same.length
        rw [List.length_append] at length
        exact valid.1 (List.length_eq_zero_iff.mp (by omega))
  | @oneLabel label valid other =>
      rcases agree.mpr (.inr ⟨label, [], valid, rfl, rfl⟩) with
      same | ⟨front, suffix, named, ends, one⟩
      · apply other
        simpa [wildcard] using (List.append_inj' same.symm rfl).1
      · rw [← wildcard_inj named] at ends one
        rw [List.append_cancel_right ends] at valid
        obtain ⟨init, c, k, plain, rfl, count⟩ := (onePart_dots front 0).mp one
        have none := List.count_eq_zero.mpr valid.2
        rw [List.count_append, count] at none
        simp at none
  | @twoLabels first second n plain valid =>
      obtain ⟨init, c, other, none, rfl⟩ := valid.ends
      have text : first ++ fullStop :: (init ++ [c] ++ dots (n + 1)) =
          (first ++ fullStop :: init ++ c :: dots n) ++ fullStop :: [] := by
        simp [dots, List.replicate_succ']
      have compared : Compared (wildcard []) (first ++ fullStop :: (init ++ [c] ++ dots (n + 1))) := by
        refine .inr ⟨_, [], rfl, text, (onePart_dots _ 0).mpr ⟨_, c, n, other, rfl, ?_⟩⟩
        rw [List.count_append, List.count_eq_zero.mpr plain, List.count_cons_self, none]
        rfl
      have ruled := (agree.mp compared).count
      simp only [List.count_append, List.count_cons_self, List.count_nil, dots,
        List.count_replicate_self] at ruled
      omega
  | @spareDots label m n valid =>
      obtain ⟨init, c, other, none, rfl⟩ := valid.ends
      have text : init ++ [c] ++ dots (m + n + 3) =
          (init ++ c :: dots (n + 1)) ++ fullStop :: dots (m + 1) := by
        rw [List.append_assoc, List.singleton_append, List.append_assoc, List.cons_append,
          dots_append, show n + 1 + (m + 1) + 1 = m + n + 3 by omega]
      have compared : Compared (wildcard (dots (m + 1))) (init ++ [c] ++ dots (m + n + 3)) :=
        .inr ⟨_, _, rfl, text, (onePart_dots _ _).mpr ⟨init, c, n + 1, other, rfl, none⟩⟩
      have ruled := (agree.mp compared).count
      simp only [List.count_append, dots, List.count_replicate_self] at ruled
      omega

/-- Exactly when a certificate name is matched as the DNS rule asks, for every name of a
certificate and every host name. -/
theorem matches_iff_dnsRule (subjectName hostname : JavaString) :
    (subjectNameMatchesHostname subjectName hostname = true ↔
        DnsRule subjectName hostname) ↔
      ComparedExactly subjectName hostname := by
  rw [matches_iff]
  constructor
  · intro agree
    have counted : ¬ Miscounted subjectName hostname :=
      fun miscounted => miscounted.disagrees agree
    exact ⟨fun rule => Compared.exactRule counted (agree.mpr rule), counted⟩
  · rintro ⟨cased, counted⟩
    exact ⟨fun compared => (Compared.exactRule counted compared).dnsRule,
      fun rule => (cased rule).compared counted⟩

/-- A host name in capitals, and one that begins with a dot. -/
theorem capitals_and_noLabel :
    ¬ (subjectNameMatchesHostname (ascii "a.example") (ascii "A.EXAMPLE") = true ↔
        DnsRule (ascii "a.example") (ascii "A.EXAMPLE")) ∧
      ¬ (subjectNameMatchesHostname (ascii "*.example") (ascii ".example") = true ↔
        DnsRule (ascii "*.example") (ascii ".example")) := by
  constructor
  · intro agree
    have same : SameName (ascii "a.example") (ascii "A.EXAMPLE") := by
      unfold SameName
      decide
    have compared := agree.mpr (.inl same)
    revert compared
    decide
  · rw [matches_iff]
    apply Miscounted.disagrees
    have named : ∃ c ∈ ascii "example", c ≠ fullStop := ⟨101, by decide, by decide⟩
    exact Miscounted.noLabel named

end Busker.Certificates
