import Busker.Addresses.AuthorityGrammar

/-! What `parse-authority` returns for every string, and when it throws. -/
namespace Busker.Addresses
open Busker.FixedFinal (JavaString ascii)

/-- The text of a port that was split off. -/
def suffix : Option JavaString → JavaString
  | none => []
  | some portStr => unit ':' :: portStr

/-- How a string looks to `parse-authority`, and the host and port it goes on with. -/
inductive Shape : JavaString → Prop
  | blank {s} (blank : isBlank s = true) : Shape s
  | userinfo {s} (ink : isBlank s = false) (mem : unit '@' ∈ s) : Shape s
  | bracketed (host portStr) (some_host : host ≠ []) (free : ∀ c ∈ host, isBracket c = false)
      (decimal : ∀ digits, portStr = some digits → matchesDigits digits = true)
      (absent : unit '@' ∉ host) : Shape (unit '[' :: (host ++ unit ']' :: suffix portStr))
  | unclosed {s} (ink : isBlank s = false) (absent : unit '@' ∉ s)
      (first : s.head? = some (unit '[')) (unmatched : matchBracketed s = none) : Shape s
  | named (host portStr) (ink : isBlank (host ++ suffix portStr) = false)
      (absent : unit '@' ∉ host ++ suffix portStr)
      (first : (host ++ suffix portStr).head? ≠ some (unit '['))
      (single : unit ':' ∉ host) (last : ∀ text, portStr = some text → unit ':' ∉ text) :
      Shape (host ++ suffix portStr)
  | several {s} (ink : isBlank s = false) (absent : unit '@' ∉ s)
      (first : s.head? ≠ some (unit '[')) (more : indexOf (unit ':') s ≠ lastIndexOf (unit ':') s) :
      Shape s

theorem isDigit_foreign {digits : JavaString} {c : UInt16} (decimal : matchesDigits digits = true)
    (foreign : isDigit c = false) : c ∉ digits := by
  intro mem
  rw [(matchesDigits_iff.mp decimal).2 c mem] at foreign
  contradiction

theorem suffix_absent {portStr : Option JavaString} {c : UInt16} (other : c ≠ unit ':')
    (foreign : isDigit c = false)
    (decimal : ∀ digits, portStr = some digits → matchesDigits digits = true) :
    c ∉ suffix portStr := by
  cases portStr with
  | none => exact List.not_mem_nil
  | some digits =>
      rw [suffix, List.mem_cons, not_or]
      exact ⟨other, isDigit_foreign (decimal digits rfl) foreign⟩

theorem shape (s : JavaString) : Shape s := by
  cases ink : isBlank s with
  | true => exact .blank ink
  | false =>
      by_cases absent : unit '@' ∈ s
      · exact .userinfo ink absent
      by_cases first : s.head? = some (unit '[')
      · cases matched : matchBracketed s with
        | none => exact .unclosed ink absent first matched
        | some parts =>
            obtain ⟨host, portStr⟩ := parts
            obtain ⟨some_host, free, ⟨rfl, rfl⟩ | ⟨digits, rfl, decimal, rfl⟩⟩ :=
              matchBracketed_eq_some.mp matched
            · refine .bracketed host none some_host free (by simp) ?_
              exact fun mem => absent (by simp [mem])
            · refine .bracketed host (some digits) some_host free ?_ ?_
              · rintro other ⟨⟩
                exact decimal
              · exact fun mem => absent (by simp [mem])
      by_cases some_colon : unit ':' ∈ s
      · obtain ⟨host, text, rfl, last⟩ := exists_last some_colon
        by_cases single : unit ':' ∈ host
        · exact .several ink absent first ((indexOf_eq_lastIndexOf last).not.mpr (not_not.mpr single))
        · refine .named host (some text) ink absent first single ?_
          rintro other ⟨⟩
          exact last
      · have named := Shape.named s none
        rw [suffix, List.append_nil] at named
        exact named ink absent first some_colon (by simp)

theorem PortText.unique {text : JavaString} {port other : Option ℕ} (first : PortText text port)
    (second : PortText text other) : port = other := by
  cases first with
  | absent =>
      cases second
      rfl
  | numeric _ _ =>
      cases second
      rfl

/-- The host with its port, the whole string, or an exception. -/
theorem hostAndPort_cases (valid : Bool) (host : JavaString) (portStr : Option JavaString)
    (s : JavaString) (defaultPort : ℕ) :
    (∃ port, PortText (suffix portStr) port ∧ valid = true ∧
        hostAndPort valid host portStr s defaultPort = .ok ⟨host, port.getD defaultPort⟩) ∨
      (valid = false ∨ ¬ ∃ port, PortText (suffix portStr) port) ∧
        hostAndPort valid host portStr s defaultPort = .ok ⟨s, defaultPort⟩ ∨
      (∃ digits, portStr = some digits ∧ matchesDigits digits = true ∧
        longMax < decimalValue digits) ∧
        hostAndPort valid host portStr s defaultPort = .error .nullPointer := by
  cases portStr with
  | none =>
      cases valid with
      | true => exact .inl ⟨none, .absent, rfl, rfl⟩
      | false => exact .inr (.inl ⟨.inl rfl, rfl⟩)
  | some digits =>
      unfold hostAndPort parsePort parseLong
      by_cases decimal : matchesDigits digits = true
      · by_cases fits : decimalValue digits ≤ longMax
        · by_cases small : decimalValue digits ≤ 65535
          · cases valid with
            | true =>
                left
                refine ⟨some (decimalValue digits), .numeric decimal small, rfl, ?_⟩
                simp only [decimal, fits, small, if_true]
                rfl
            | false =>
                right; left
                refine ⟨.inl rfl, ?_⟩
                simp only [decimal, fits, small, if_true]
                rfl
          · right; left
            constructor
            · right
              rintro ⟨port, text⟩
              cases text with
              | numeric _ within => exact small within
            · simp only [decimal, fits, small, if_true, if_false]
              cases valid <;> rfl
        · right; right
          refine ⟨⟨digits, rfl, decimal, Nat.lt_of_not_le fits⟩, ?_⟩
          simp only [decimal, fits, if_true, if_false]
          rfl
      · right; left
        constructor
        · right
          rintro ⟨port, text⟩
          cases text with
          | numeric other _ => exact decimal other
        · simp only [decimal]
          cases valid <;> rfl

theorem denoted_hostAndPort {valid : Bool} {host s : JavaString} {portStr : Option JavaString}
    {P : Prop} (defaultPort : ℕ) (ink : isBlank s = false) (decides : valid = true ↔ P)
    (authority : ∀ h port, Authority s h port ↔ P ∧ h = host ∧ PortText (suffix portStr) port) :
    (∃ result, hostAndPort valid host portStr s defaultPort = .ok result ∧
        Denoted s defaultPort result) ∨
      (∃ digits, portStr = some digits ∧ matchesDigits digits = true ∧
        longMax < decimalValue digits) ∧
        hostAndPort valid host portStr s defaultPort = .error .nullPointer := by
  rcases hostAndPort_cases valid host portStr s defaultPort with
    ⟨port, text, holds, result⟩ | ⟨fails, result⟩ | thrown
  · left
    refine ⟨_, result, ?_, ?_, ?_⟩
    · intro blank
      rw [ink] at blank
      contradiction
    · intro h other split
      obtain ⟨_, rfl, second⟩ := (authority h other).mp split
      rw [text.unique second]
    · intro _ unsplit
      exact (unsplit ⟨host, port, (authority host port).mpr ⟨decides.mp holds, rfl, text⟩⟩).elim
  · left
    refine ⟨_, result, ?_, ?_, fun _ _ => rfl⟩
    · intro blank
      rw [ink] at blank
      contradiction
    · intro h port split
      obtain ⟨holds, -, text⟩ := (authority h port).mp split
      rcases fails with invalid | missing
      · rw [decides.mpr holds] at invalid
        contradiction
      · exact (missing ⟨port, text⟩).elim
  · exact .inr thrown

theorem denoted_unsplit {s : JavaString} {defaultPort : ℕ} (ink : isBlank s = false)
    (none : ¬ ∃ host port, Authority s host port) : Denoted s defaultPort ⟨s, defaultPort⟩ where
  blank blank := by
    rw [ink] at blank
    contradiction
  split host port split := (none ⟨host, port, split⟩).elim
  unsplit _ _ := rfl

theorem RegName.first {host : JavaString} (valid : RegName host) (text : JavaString) :
    (host ++ text).head? ≠ some (unit '[') := by
  intro first
  cases host with
  | nil => exact valid.1 rfl
  | cons c rest =>
      have absent : unit '[' ∉ c :: rest :=
        valid.2.absent (isNameUnit_separator (by decide)) (by decide)
      apply absent
      rw [Option.some.inj first]
      exact List.mem_cons_self

theorem PortText.not_mem {text : JavaString} {port : Option ℕ} {c : UInt16}
    (valid : PortText text port) (other : c ≠ unit ':') (foreign : isDigit c = false) : c ∉ text := by
  cases valid with
  | absent => exact List.not_mem_nil
  | numeric decimal _ =>
      rw [List.mem_cons, not_or]
      exact ⟨other, isDigit_foreign decimal foreign⟩

theorem Authority.userinfo {s host : JavaString} {port : Option ℕ} (valid : Authority s host port) :
    unit '@' ∉ s := by
  obtain ⟨text, suffixed, ⟨name, rfl⟩ | ⟨literal, rfl⟩⟩ := valid
  · rw [List.mem_append, not_or]
    exact ⟨name.2.absent (isNameUnit_separator (by decide)) (by decide),
      suffixed.not_mem (by decide) (by decide)⟩
  · simp only [List.mem_cons, List.mem_append, not_or]
    exact ⟨by decide, literal.absent (isNameUnit_separator (by decide)) (by decide), by decide,
      suffixed.not_mem (by decide) (by decide)⟩

theorem isNameUnit_ink {c : UInt16} (plain : isNameUnit c = true) : isWhitespace c = false := by
  have punctuation : ((ascii "._~!$&'()*+,;=-").all fun c => !isWhitespace c) = true := by
    decide +kernel
  unfold isNameUnit at plain
  rw [Bool.or_eq_true] at plain
  rcases plain with alphanumeric | mark
  · simp only [isDigit, Bool.or_eq_true, Bool.and_eq_true, decide_eq_true_eq] at alphanumeric
    simp only [isWhitespace, Bool.or_eq_false_iff, Bool.and_eq_false_iff, decide_eq_false_iff_not,
      beq_eq_false_iff_ne]
    omega
  · rw [List.contains_iff_mem] at mark
    simpa using List.all_eq_true.mp punctuation c mark

theorem RegName.ink {host : JavaString} (valid : RegName host) (text : JavaString) :
    isBlank (host ++ text) = false := by
  obtain ⟨some_host, units⟩ := valid
  cases units with
  | nil => exact (some_host rfl).elim
  | plain valid _ => exact not_isBlank List.mem_cons_self (isNameUnit_ink valid)
  | octet _ _ _ => exact not_isBlank List.mem_cons_self (by decide)

theorem Authority.ink {s host : JavaString} {port : Option ℕ} (valid : Authority s host port) :
    isBlank s = false := by
  obtain ⟨text, suffixed, ⟨name, rfl⟩ | ⟨literal, rfl⟩⟩ := valid
  · exact name.ink text
  · exact not_isBlank List.mem_cons_self (by decide)

theorem authority_bracketed {host : JavaString} {portStr : Option JavaString}
    (free : ∀ c ∈ host, isBracket c = false) (h : JavaString) (port : Option ℕ) :
    Authority (unit '[' :: (host ++ unit ']' :: suffix portStr)) h port ↔
      IpLiteral host ∧ h = host ∧ PortText (suffix portStr) port := by
  constructor
  · rintro ⟨text, suffixed, ⟨name, same⟩ | ⟨literal, same⟩⟩
    · exact (name.first text (same ▸ rfl)).elim
    · have closed : unit ']' ∉ host := by
        intro mem
        have := free _ mem
        contradiction
      have closed' : unit ']' ∉ h := literal.absent (isNameUnit_separator (by decide)) (by decide)
      obtain ⟨rfl, rfl⟩ := append_cons_inj closed closed' (List.cons.inj same).2
      exact ⟨literal, rfl, suffixed⟩
  · rintro ⟨literal, rfl, suffixed⟩
    exact ⟨_, suffixed, .inr ⟨literal, rfl⟩⟩

theorem authority_named {host : JavaString} {portStr : Option JavaString}
    (first : (host ++ suffix portStr).head? ≠ some (unit '[')) (single : unit ':' ∉ host)
    (h : JavaString) (port : Option ℕ) :
    Authority (host ++ suffix portStr) h port ↔
      RegName host ∧ h = host ∧ PortText (suffix portStr) port := by
  constructor
  · rintro ⟨text, suffixed, ⟨name, same⟩ | ⟨literal, same⟩⟩
    · have single' : unit ':' ∉ h := name.2.absent (isNameUnit_separator (by decide)) (by decide)
      have parts : host = h ∧ suffix portStr = text := by
        cases portStr with
        | none =>
            cases suffixed with
            | absent => simpa [suffix] using same
            | numeric _ _ =>
                rw [suffix, List.append_nil] at same
                exact (single (same ▸ List.mem_append_right _ List.mem_cons_self)).elim
        | some digits =>
            cases suffixed with
            | absent =>
                rw [suffix, List.append_nil] at same
                exact (single' (same ▸ List.mem_append_right _ List.mem_cons_self)).elim
            | numeric _ _ =>
                obtain ⟨rfl, rfl⟩ := append_cons_inj single single' same
                exact ⟨rfl, rfl⟩
      obtain ⟨rfl, rfl⟩ := parts
      exact ⟨name, rfl, suffixed⟩
    · exact (first (same ▸ rfl)).elim
  · rintro ⟨name, rfl, suffixed⟩
    exact ⟨_, suffixed, .inl ⟨name, rfl⟩⟩

theorem authority_several {s h : JavaString} {port : Option ℕ} (valid : Authority s h port)
    (first : s.head? ≠ some (unit '[')) : indexOf (unit ':') s = lastIndexOf (unit ':') s := by
  obtain ⟨text, suffixed, ⟨name, rfl⟩ | ⟨literal, rfl⟩⟩ := valid
  · have single : unit ':' ∉ h := name.2.absent (isNameUnit_separator (by decide)) (by decide)
    cases suffixed with
    | absent =>
        rw [List.append_nil, indexOf_eq_none.mpr single, lastIndexOf_eq_none.mpr single]
    | numeric decimal _ =>
        exact (indexOf_eq_lastIndexOf (isDigit_foreign decimal (by decide))).mpr single
  · exact (first rfl).elim

theorem authority_unclosed {s h : JavaString} {port : Option ℕ} (valid : Authority s h port)
    (first : s.head? = some (unit '[')) : matchBracketed s ≠ none := by
  obtain ⟨text, suffixed, ⟨name, rfl⟩ | ⟨literal, rfl⟩⟩ := valid
  · exact (name.first text first).elim
  · have some_host : h ≠ [] := by
      rintro rfl
      rcases literal with ipv6 | ⟨_, _, _, _, _, _, _, _, same⟩
      · cases ipv6.colon
      · cases same
    have free : ∀ c ∈ h, isBracket c = false := by
      intro c mem
      have opening : unit '[' ∉ h := literal.absent (isNameUnit_separator (by decide)) (by decide)
      have closing : unit ']' ∉ h := literal.absent (isNameUnit_separator (by decide)) (by decide)
      unfold isBracket
      rw [Bool.or_eq_false_iff, decide_eq_false_iff_not, decide_eq_false_iff_not]
      exact ⟨fun same => opening (same ▸ mem), fun same => closing (same ▸ mem)⟩
    cases suffixed with
    | absent => rw [matchBracketed_eq_some.mpr ⟨some_host, free, .inl ⟨rfl, rfl⟩⟩]; simp
    | numeric decimal _ =>
        rw [matchBracketed_eq_some.mpr ⟨some_host, free, .inr ⟨_, rfl, decimal, rfl⟩⟩]
        simp

section
variable {ipStringToBytes : ParseIp} {authorityStr : Option JavaString} {s : JavaString}

theorem parseAuthority_bracketed {host : JavaString} {portStr : Option JavaString}
    (some_host : host ≠ []) (free : ∀ c ∈ host, isBracket c = false)
    (decimal : ∀ digits, portStr = some digits → matchesDigits digits = true)
    (absent : unit '@' ∉ host) (defaultPort : ℕ)
    (same : authorityStr.getD [] = unit '[' :: (host ++ unit ']' :: suffix portStr)) :
    parseAuthority ipStringToBytes authorityStr defaultPort =
      hostAndPort (validIpLiteral ipStringToBytes host) host portStr (authorityStr.getD [])
        defaultPort := by
  have ink : isBlank (authorityStr.getD []) = false := by
    rw [same]
    exact not_isBlank List.mem_cons_self (by decide)
  have plain : (authorityStr.getD []).contains (unit '@') = false := by
    rw [same, List.contains_eq_mem, decide_eq_false_iff_not]
    simp only [List.mem_cons, List.mem_append, not_or]
    exact ⟨by decide, absent, by decide, suffix_absent (by decide) (by decide) decimal⟩
  have first : (authorityStr.getD []).head? = some (unit '[') := by rw [same]; rfl
  have matched : matchBracketed (authorityStr.getD []) = some (host, portStr) := by
    apply matchBracketed_eq_some.mpr
    refine ⟨some_host, free, ?_⟩
    cases portStr with
    | none => exact .inl ⟨rfl, same⟩
    | some digits => exact .inr ⟨digits, rfl, decimal digits rfl, same⟩
  unfold parseAuthority
  simp only [ink, plain, first, matched, if_true]
  rfl

theorem parseAuthority_named {host : JavaString} {portStr : Option JavaString}
    (ink : isBlank (host ++ suffix portStr) = false) (absent : unit '@' ∉ host ++ suffix portStr)
    (first : (host ++ suffix portStr).head? ≠ some (unit '[')) (single : unit ':' ∉ host)
    (last : ∀ text, portStr = some text → unit ':' ∉ text) (defaultPort : ℕ)
    (same : authorityStr.getD [] = host ++ suffix portStr) :
    parseAuthority ipStringToBytes authorityStr defaultPort =
      hostAndPort (matchesRegName host) host portStr (authorityStr.getD []) defaultPort := by
  have plain : (host ++ suffix portStr).contains (unit '@') = false := by
    rw [List.contains_eq_mem, decide_eq_false_iff_not]
    exact absent
  unfold parseAuthority
  simp only [same, ink, plain, first, if_false]
  cases portStr with
  | none =>
      rw [suffix, List.append_nil, indexOf_eq_none.mpr single, lastIndexOf_eq_none.mpr single]
      rfl
  | some text =>
      rw [suffix, indexOf_append_cons single, lastIndexOf_append_cons (last text rfl), if_pos rfl]
      simp only [Option.map_some, take_append_cons, drop_append_cons]
      rfl

theorem beyond_bracketed {host : JavaString} {digits : JavaString} (some_host : host ≠ [])
    (free : ∀ c ∈ host, isBracket c = false) (decimal : matchesDigits digits = true)
    (absent : unit '@' ∉ host) (large : longMax < decimalValue digits) :
    PortBeyondLong (unit '[' :: (host ++ unit ']' :: suffix (some digits))) := by
  refine ⟨?_, unit '[' :: (host ++ [unit ']']), digits, by simp [suffix], decimal, large,
    .inr ⟨host, some_host, free, rfl⟩⟩
  simp only [suffix, List.mem_cons, List.mem_append, not_or]
  exact ⟨by decide, absent, by decide, by decide, isDigit_foreign decimal (by decide)⟩

/-- Every string gets the result the grammar asks for, unless its port is beyond a `long`. -/
theorem parseAuthority_cases
    (ipv6 : ∀ s, unit ':' ∈ s → unit '%' ∉ s → ((ipStringToBytes s).isSome ↔ Ipv6Text s))
    (authorityStr : Option JavaString) (defaultPort : ℕ) :
    (∃ result, parseAuthority ipStringToBytes authorityStr defaultPort = .ok result ∧
        Denoted (authorityStr.getD []) defaultPort result) ∨
      parseAuthority ipStringToBytes authorityStr defaultPort = .error .nullPointer ∧
        PortBeyondLong (authorityStr.getD []) := by
  generalize same : authorityStr.getD [] = s
  have viewed := shape s
  cases viewed with
  | blank blank =>
      left
      refine ⟨⟨ascii "localhost", defaultPort⟩, ?_, fun _ => rfl, ?_, ?_⟩
      · unfold parseAuthority
        simp only [same, blank, if_true]
      · intro host port split
        rw [split.ink] at blank
        contradiction
      · intro ink
        rw [ink] at blank
        contradiction
  | userinfo ink mem =>
      left
      refine ⟨⟨s, defaultPort⟩, ?_, denoted_unsplit ink ?_⟩
      · unfold parseAuthority
        simp only [same, ink, List.contains_eq_mem, mem, decide_true, if_true]
        rfl
      · rintro ⟨host, port, split⟩
        exact split.userinfo mem
  | bracketed host portStr some_host free decimal absent =>
      rw [parseAuthority_bracketed some_host free decimal absent defaultPort same, same]
      apply (denoted_hostAndPort defaultPort (not_isBlank List.mem_cons_self (by decide))
        (ipLiteral_iff ipv6) (authority_bracketed free)).imp_right
      rintro ⟨⟨digits, rfl, _, large⟩, thrown⟩
      exact ⟨thrown, beyond_bracketed some_host free (decimal digits rfl) absent large⟩
  | unclosed ink absent first unmatched =>
      left
      refine ⟨⟨s, defaultPort⟩, ?_, denoted_unsplit ink ?_⟩
      · unfold parseAuthority
        simp only [same, ink, List.contains_eq_mem, absent, decide_false, first, unmatched, if_true]
        rfl
      · rintro ⟨host, port, split⟩
        exact authority_unclosed split first unmatched
  | named host portStr ink absent first single last =>
      rw [parseAuthority_named ink absent first single last defaultPort same, same]
      apply (denoted_hostAndPort defaultPort ink regName_iff (authority_named first single)).imp_right
      rintro ⟨⟨digits, rfl, decimal, large⟩, thrown⟩
      refine ⟨thrown, absent, host, digits, rfl, decimal, large, .inl ⟨single, ?_⟩⟩
      cases host with
      | nil => simp
      | cons _ _ => exact first
  | several ink absent first more =>
      left
      refine ⟨⟨s, defaultPort⟩, ?_, denoted_unsplit ink ?_⟩
      · unfold parseAuthority
        simp only [same, ink, List.contains_eq_mem, absent, decide_false, first, more, if_false]
        rfl
      · rintro ⟨host, port, split⟩
        exact more (authority_several split first)

theorem parseAuthority_beyond (beyond : PortBeyondLong (authorityStr.getD [])) (defaultPort : ℕ) :
    parseAuthority ipStringToBytes authorityStr defaultPort = .error .nullPointer := by
  obtain ⟨absent, front, digits, same, decimal, large, kind⟩ := beyond
  have thrown : ∀ valid host, hostAndPort valid host (some digits) (authorityStr.getD [])
      defaultPort = .error .nullPointer := by
    intro valid host
    unfold hostAndPort parsePort parseLong
    simp only [decimal, Nat.not_le.mpr large, if_true, if_false]
    rfl
  rcases kind with ⟨single, first⟩ | ⟨host, some_host, free, rfl⟩
  · have ink : isBlank (front ++ suffix (some digits)) = false :=
      not_isBlank (List.mem_append_right _ List.mem_cons_self) (by decide)
    have first' : (front ++ suffix (some digits)).head? ≠ some (unit '[') := by
      cases front with
      | nil => simp [suffix]; decide
      | cons _ _ => exact first
    rw [same] at absent
    rw [parseAuthority_named ink absent first' single ?_ defaultPort same, thrown]
    rintro text ⟨⟩
    exact isDigit_foreign decimal (by decide)
  · have shaped : authorityStr.getD [] = unit '[' :: (host ++ unit ']' :: suffix (some digits)) := by
      rw [same]
      simp [suffix]
    rw [parseAuthority_bracketed some_host free ?_ ?_ defaultPort shaped, thrown]
    · rintro other ⟨⟩
      exact decimal
    · rw [shaped] at absent
      intro mem
      exact absent (by simp [mem])

/-- Every authority is parsed as the grammar has it, a blank one as `localhost`. -/
theorem parseAuthority_denoted
    (ipv6 : ∀ s, unit ':' ∈ s → unit '%' ∉ s → ((ipStringToBytes s).isSome ↔ Ipv6Text s))
    (authorityStr : Option JavaString) (defaultPort : ℕ)
    (within : ¬ PortBeyondLong (authorityStr.getD [])) :
    ∃ result, parseAuthority ipStringToBytes authorityStr defaultPort = .ok result ∧
      Denoted (authorityStr.getD []) defaultPort result :=
  (parseAuthority_cases ipv6 authorityStr defaultPort).resolve_right fun thrown => within thrown.2

end

open Classical in
/-- A `parse-ip` that knows IPv6 text, with the bytes of the loopback address. -/
noncomputable def ipv6Only : ParseIp := fun s =>
  if Ipv6Text s then some (List.replicate 15 0 ++ [1]) else none

theorem ipv6Only_isSome (s : JavaString) : (ipv6Only s).isSome ↔ Ipv6Text s := by
  unfold ipv6Only
  split <;> simp_all

theorem loopback_denoted :
    ∃ result, parseAuthority ipv6Only (some (ascii "[::1]:9443")) 80 = .ok result ∧
      Denoted (ascii "[::1]:9443") 80 result := by
  apply parseAuthority_denoted (fun s _ _ => ipv6Only_isSome s) (some (ascii "[::1]:9443")) 80
  intro beyond
  have parsed : parseAuthority (fun _ => none) (some (ascii "[::1]:9443")) 80 =
      .ok ⟨ascii "[::1]:9443", 80⟩ := by decide +kernel
  rw [parseAuthority_beyond beyond] at parsed
  contradiction

/-- A port beyond a `long` throws, and a blank authority is not kept. -/
theorem authority_departs :
    parseAuthority ipv6Only (some (ascii "a:9223372036854775808")) 80 = .error .nullPointer ∧
      parseAuthority ipv6Only (some []) 80 = .ok ⟨ascii "localhost", 80⟩ ∧
      ¬ ∃ host port, Authority [] host port := by
  refine ⟨by decide +kernel, by decide +kernel, ?_⟩
  rintro ⟨host, port, valid⟩
  have ink := valid.ink
  contradiction

end Busker.Addresses
