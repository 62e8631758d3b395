import Busker.FixedFinal.Utf8

/-! The lengths against UTF-8 itself: a string read as code points, a pair of surrogates
being one and a lone surrogate none, and each code point encoded on its own. -/
namespace Busker.FixedFinal

/-- The code points of a string; `none` is an unpaired surrogate. -/
def codePoints : JavaString → List (Option Char)
  | [] => []
  | character :: rest =>
    if isHighSurrogate character then
      match rest with
      | [] => [none]
      | next :: after =>
        if isLowSurrogate next then
          some (Char.ofNat (surrogatePair character next)) :: codePoints after
        else none :: codePoints (next :: after)
    else if isLowSurrogate character then none :: codePoints rest
    else some (Char.ofNat character.toNat) :: codePoints rest

/-- UTF-8 with the replacement rule of Java. -/
def javaUtf8 (value : JavaString) : List UInt8 :=
  (codePoints value).flatMap fun point => point.elim [replacement] String.utf8EncodeChar

theorem toNat_ofNat {code : ℕ} (valid : code.isValidChar) : (Char.ofNat code).val.toNat = code := by
  unfold Char.ofNat
  rw [dif_pos valid]
  rfl

theorem utf8EncodeChar_ofNat {code : ℕ} (valid : code.isValidChar) :
    String.utf8EncodeChar (Char.ofNat code) =
      if code < 0x80 then [UInt8.ofNat code]
      else if code < 0x800 then twoBytes code
      else if code < 0x10000 then threeBytes code
      else fourBytes code := by
  have bound : code < 0x110000 := by
    rcases valid with low | high <;> omega
  unfold String.utf8EncodeChar twoBytes threeBytes fourBytes
  simp only [toNat_ofNat valid]
  have lead_two : code < 0x800 → code / 64 % 32 + 192 = 192 + code / 64 := by omega
  have lead_three : code < 0x10000 → code / 4096 % 16 + 224 = 224 + code / 4096 := by omega
  have lead_four : code / 262144 % 8 + 240 = 240 + code / 262144 := by omega
  by_cases one : code < 0x80
  · rw [if_pos one, if_pos (by omega)]
  rw [if_neg one, if_neg (by omega)]
  by_cases two : code < 0x800
  · rw [if_pos two, if_pos (by omega), lead_two two, Nat.add_comm (code % 64)]
  rw [if_neg two, if_neg (by omega)]
  by_cases three : code < 0x10000
  · rw [if_pos three, if_pos (by omega), lead_three three, Nat.add_comm (code / 64 % 64),
      Nat.add_comm (code % 64)]
  · rw [if_neg three, if_neg (by omega), lead_four, Nat.add_comm (code / 4096 % 64),
      Nat.add_comm (code / 64 % 64), Nat.add_comm (code % 64)]

theorem highSurrogate_range {character : UInt16} (high : isHighSurrogate character = true) :
    0xD800 ≤ character.toNat ∧ character.toNat ≤ 0xDBFF := by
  simpa [isHighSurrogate] using high

theorem lowSurrogate_range {character : UInt16} (low : isLowSurrogate character = true) :
    0xDC00 ≤ character.toNat ∧ character.toNat ≤ 0xDFFF := by
  simpa [isLowSurrogate] using low

theorem encode_pair {high low : UInt16} (first : isHighSurrogate high = true)
    (second : isLowSurrogate low = true) :
    String.utf8EncodeChar (Char.ofNat (surrogatePair high low)) =
      fourBytes (surrogatePair high low) := by
  have := highSurrogate_range first
  have := lowSurrogate_range second
  have code : 0x10000 ≤ surrogatePair high low ∧ surrogatePair high low < 0x110000 := by
    unfold surrogatePair
    omega
  rw [utf8EncodeChar_ofNat (.inr ⟨by omega, code.2⟩), if_neg (by omega), if_neg (by omega),
    if_neg (by omega)]

theorem encode_plain {character : UInt16} (high : ¬ isHighSurrogate character = true)
    (low : ¬ isLowSurrogate character = true) :
    String.utf8EncodeChar (Char.ofNat character.toNat) =
      if character.toNat < 0x80 then [UInt8.ofNat character.toNat]
      else if character.toNat < 0x800 then twoBytes character.toNat
      else threeBytes character.toNat := by
  have bound : character.toNat < 0x10000 := character.toNat_lt
  simp only [isHighSurrogate, isLowSurrogate, Bool.and_eq_true, decide_eq_true_eq] at high low
  have valid : character.toNat.isValidChar := by
    unfold Nat.isValidChar
    omega
  rw [utf8EncodeChar_ofNat valid, if_pos bound]

/-- The bytes that are written are UTF-8 with the replacement rule. -/
theorem utf8Bytes_eq (value : JavaString) : utf8Bytes value = javaUtf8 value := by
  unfold javaUtf8
  induction value using codePoints.induct with
  | case1 => rfl
  | case2 character high =>
      have range := highSurrogate_range high
      rw [utf8Bytes, codePoints, if_neg (by omega), if_neg (by omega), if_pos high, if_pos high]
      rfl
  | case3 character high next after low ih =>
      have range := highSurrogate_range high
      rw [utf8Bytes, codePoints, if_neg (by omega), if_neg (by omega), if_pos high, if_pos high,
        if_pos low, if_pos low, List.flatMap_cons, Option.elim_some, encode_pair high low, ih]
  | case4 character high next after lone ih =>
      have range := highSurrogate_range high
      rw [utf8Bytes, codePoints, if_neg (by omega), if_neg (by omega), if_pos high, if_pos high,
        if_neg lone, if_neg lone, List.flatMap_cons, Option.elim_none, ih, List.singleton_append]
  | case5 character rest other low ih =>
      have range := lowSurrogate_range low
      rw [utf8Bytes.eq_def, codePoints.eq_def]
      dsimp only
      rw [if_neg (by omega), if_neg (by omega), if_neg other, if_neg other, if_pos low, if_pos low,
        List.flatMap_cons, Option.elim_none, ih, List.singleton_append]
  | case6 character rest other lone ih =>
      rw [utf8Bytes.eq_def, codePoints.eq_def]
      dsimp only
      rw [if_neg other, if_neg other, if_neg lone, if_neg lone, List.flatMap_cons,
        Option.elim_some, encode_plain other lone, ih]
      split
      · rw [List.singleton_append]
      · split <;> rfl

/-- The bytes of the headers one after the other, each name before its value. -/
def headerUtf8 (headers : List HeaderPair) : List UInt8 :=
  headers.flatMap fun header => javaUtf8 header.name ++ javaUtf8 header.value

theorem headerUtf8_length (headers : List HeaderPair) :
    (headerUtf8 headers).length = headerBytes headers := by
  induction headers with
  | nil => rfl
  | cons header rest ih =>
      rw [headerBytes_cons, utf8Length_eq, utf8Length_eq, utf8Bytes_eq, utf8Bytes_eq, ← ih]
      simp [headerUtf8, Nat.add_assoc]

/-- The ranges of a response, headers first: what `utf8-length` says of each string is where
its bytes are. -/
structure ExactRanges (headers : List HeaderPair) (body : JavaString) : Prop where
  header : ∀ before header after, headers = before ++ header :: after →
    let bytes := (headerUtf8 headers).drop (headerBytes before)
    bytes.take (utf8Length header.name) = javaUtf8 header.name ∧
      (bytes.drop (utf8Length header.name)).take (utf8Length header.value) = javaUtf8 header.value
  content :
    ((headerUtf8 headers ++ javaUtf8 body).drop (headerBytes headers)).take (utf8Length body) =
      javaUtf8 body
  whole : (headerUtf8 headers ++ javaUtf8 body).length = headerBytes headers + utf8Length body

/-- `utf8-length` is the number of bytes of UTF-8 with the replacement rule of Java, for every
sequence of code units, so every range computed from it is exact. -/
theorem utf8Length_exact (value : JavaString) :
    utf8Length value = (javaUtf8 value).length ∧ ∀ headers, ExactRanges headers value := by
  have exact : ∀ text, utf8Length text = (javaUtf8 text).length := fun text => by
    rw [utf8Length_eq, utf8Bytes_eq]
  refine ⟨exact value, fun headers => ⟨?_, ?_, ?_⟩⟩
  · rintro before header after rfl
    have split : headerUtf8 (before ++ header :: after) =
        headerUtf8 before ++
          (javaUtf8 header.name ++ (javaUtf8 header.value ++ headerUtf8 after)) := by
      simp [headerUtf8]
    rw [split, ← headerUtf8_length, List.drop_left, exact, exact]
    exact ⟨List.take_left, by rw [List.drop_left, List.take_left]⟩
  · rw [← headerUtf8_length, List.drop_left, exact, List.take_length]
  · rw [List.length_append, headerUtf8_length, exact]

end Busker.FixedFinal
