import Busker.Addresses.Authority

/-! The authorities that are split into host and port: registered names, IPv4 addresses among
them, and bracketed literals, each with or without a port. -/
namespace Busker.Addresses
open Busker.FixedFinal (JavaString ascii)

/-- Characters of a registered name, or octets written with a percent sign. -/
inductive NameUnits : JavaString → Prop
  | nil : NameUnits []
  | plain {c rest} (valid : isNameUnit c = true) (more : NameUnits rest) : NameUnits (c :: rest)
  | octet {a b rest} (high : isHexDigit a = true) (low : isHexDigit b = true)
      (more : NameUnits rest) : NameUnits (unit '%' :: a :: b :: rest)

def RegName (host : JavaString) : Prop := host ≠ [] ∧ NameUnits host

/-- One to four hexadecimal digits. -/
def Hextet (s : JavaString) : Prop := s ≠ [] ∧ s.length ≤ 4 ∧ ∀ c ∈ s, isHexDigit c = true

/-- A number from 0 to 255 without leading zeros. -/
def Octet (s : JavaString) : Prop :=
  matchesDigits s = true ∧ decimalValue s ≤ 255 ∧ (s.head? = some (unit '0') → s.length = 1)

def Ipv4Text (s : JavaString) : Prop :=
  ∃ a b c d, Octet a ∧ Octet b ∧ Octet c ∧ Octet d ∧
    s = a ++ unit '.' :: (b ++ unit '.' :: (c ++ unit '.' :: d))

/-- Hexadecimal groups between colons, and how many 16-bit parts they stand for. The last
may be an IPv4 address, which stands for two, if it ends the text. -/
inductive Groups (ends : Bool) : JavaString → ℕ → Prop
  | hextet {s} (valid : Hextet s) : Groups ends s 1
  | ipv4 {s} (valid : Ipv4Text s) (last : ends = true) : Groups ends s 2
  | cons {s rest n} (valid : Hextet s) (more : Groups ends rest n) :
      Groups ends (s ++ unit ':' :: rest) (n + 1)

/-- Groups or nothing, on one side of a double colon. -/
def Side (ends : Bool) (s : JavaString) (n : ℕ) : Prop := s = [] ∧ n = 0 ∨ Groups ends s n

/-- An IPv6 address: eight parts, or fewer around a double colon. -/
def Ipv6Text (s : JavaString) : Prop :=
  Groups true s 8 ∨ ∃ left right m n, Side false left m ∧ Side true right n ∧ m + n ≤ 7 ∧
    s = left ++ unit ':' :: unit ':' :: right

/-- `v`, a hexadecimal version, a dot and an address. -/
def IpvFuture (s : JavaString) : Prop :=
  ∃ v version address, (v = unit 'v' ∨ v = unit 'V') ∧ version ≠ [] ∧
    (∀ c ∈ version, isHexDigit c = true) ∧ address ≠ [] ∧
    (∀ c ∈ address, isNameUnit c = true ∨ c = unit ':') ∧
    s = v :: (version ++ unit '.' :: address)

def IpLiteral (host : JavaString) : Prop := Ipv6Text host ∨ IpvFuture host

/-- What may follow the host. -/
inductive PortText : JavaString → Option ℕ → Prop
  | absent : PortText [] none
  | numeric {digits} (decimal : matchesDigits digits = true) (small : decimalValue digits ≤ 65535) :
      PortText (unit ':' :: digits) (some (decimalValue digits))

/-- An authority with its host and port. -/
def Authority (s host : JavaString) (port : Option ℕ) : Prop :=
  ∃ text, PortText text port ∧
    (RegName host ∧ s = host ++ text ∨
      IpLiteral host ∧ s = unit '[' :: (host ++ unit ']' :: text))

/-- The port of a string of either form is beyond the range of a `long`. -/
def PortBeyondLong (s : JavaString) : Prop :=
  unit '@' ∉ s ∧ ∃ front digits, s = front ++ unit ':' :: digits ∧ matchesDigits digits = true ∧
    longMax < decimalValue digits ∧
    (unit ':' ∉ front ∧ front.head? ≠ some (unit '[') ∨
      ∃ host, host ≠ [] ∧ (∀ c ∈ host, isBracket c = false) ∧
        front = unit '[' :: (host ++ [unit ']']))

/-- The result the grammar asks for. -/
structure Denoted (s : JavaString) (defaultPort : ℕ) (result : AuthorityResult) : Prop where
  blank : isBlank s = true → result = ⟨ascii "localhost", defaultPort⟩
  split : ∀ host port, Authority s host port → result = ⟨host, port.getD defaultPort⟩
  unsplit : isBlank s = false → (¬ ∃ host port, Authority s host port) → result = ⟨s, defaultPort⟩

theorem matchesNameUnits_unit {c : UInt16} (rest : JavaString) (plain : isNameUnit c = true) :
    matchesNameUnits (c :: rest) = matchesNameUnits rest := by
  rw [matchesNameUnits.eq_def]
  simp only [plain, if_true]

theorem matchesNameUnits_octet {c : UInt16} (a b : UInt16) (more : JavaString)
    (special : ¬ isNameUnit c = true) :
    matchesNameUnits (c :: a :: b :: more) =
      (decide (c = unit '%') && isHexDigit a && isHexDigit b && matchesNameUnits more) := by
  rw [matchesNameUnits.eq_def]
  simp only [special]
  rfl

/-- What separates the parts of an authority is no unit of a name. -/
theorem separators_foreign :
    [unit '%', unit '@', unit ':', unit '[', unit ']'].all (fun c => !isNameUnit c) = true := by
  decide +kernel

theorem isNameUnit_separator {c : UInt16}
    (separator : c ∈ [unit '%', unit '@', unit ':', unit '[', unit ']']) : isNameUnit c = false := by
  simpa using List.all_eq_true.mp separators_foreign c separator

theorem nameUnits_iff {s : JavaString} : matchesNameUnits s = true ↔ NameUnits s := by
  constructor
  · intro matched
    induction s using matchesNameUnits.induct with
    | case1 => exact .nil
    | case2 c rest plain ih =>
        rw [matchesNameUnits_unit rest plain] at matched
        exact .plain plain (ih matched)
    | case3 c special a b more ih =>
        rw [matchesNameUnits_octet a b more special] at matched
        simp only [Bool.and_eq_true, decide_eq_true_eq] at matched
        obtain ⟨⟨⟨rfl, high⟩, low⟩, others⟩ := matched
        exact .octet high low (ih others)
    | case4 c rest special short =>
        rw [matchesNameUnits.eq_def] at matched
        simp only [special] at matched
        match rest, short, matched with
        | [], _, matched => cases matched
        | [_], _, matched => cases matched
        | _ :: _ :: _, short, _ => exact (short _ _ _ rfl).elim
  · intro units
    induction units with
    | nil => rfl
    | plain valid more ih => rw [matchesNameUnits_unit _ valid, ih]
    | octet high low more ih =>
        have special := isNameUnit_separator (c := unit '%') (by decide)
        rw [matchesNameUnits_octet _ _ _ (by simp [special]), high, low, ih]
        rfl

theorem regName_iff {host : JavaString} : matchesRegName host = true ↔ RegName host := by
  unfold matchesRegName RegName
  rw [Bool.and_eq_true, decide_eq_true_iff, nameUnits_iff]

theorem ipvFuture_iff {host : JavaString} : matchesIpvfuture host = true ↔ IpvFuture host := by
  cases host with
  | nil =>
      constructor
      · intro matched
        cases matched
      · rintro ⟨v, version, address, _, _, _, _, _, same⟩
        cases same
  | cons v rest =>
      unfold matchesIpvfuture IpvFuture
      simp only [Bool.and_eq_true, Bool.or_eq_true, decide_eq_true_eq]
      have parts : rest.takeWhile isHexDigit ++ rest.dropWhile isHexDigit = rest :=
        List.takeWhile_append_dropWhile
      constructor
      · rintro ⟨⟨letter, version⟩, matched⟩
        split at matched
        · contradiction
        · rename_i dot address tail
          simp only [Bool.and_eq_true, decide_eq_true_eq, List.all_eq_true, Bool.or_eq_true]
            at matched
          obtain ⟨⟨rfl, some_address⟩, valid⟩ := matched
          refine ⟨v, rest.takeWhile isHexDigit, address, letter, version, ?_, some_address, valid, ?_⟩
          · exact fun c mem => List.mem_takeWhile_imp mem
          · rw [← tail, parts]
      · rintro ⟨_, version, address, letter, some_version, hex, some_address, valid, same⟩
        obtain ⟨rfl, rfl⟩ := List.cons.inj same
        rw [takeWhile_append_cons hex (by decide), dropWhile_append_cons hex (by decide)]
        refine ⟨⟨letter, some_version⟩, ?_⟩
        simpa [some_address] using valid

/-- A regular expression's loop over what is not a bracket. -/
theorem matchBracketed_eq_some {s host : JavaString} {portStr : Option JavaString} :
    matchBracketed s = some (host, portStr) ↔
      host ≠ [] ∧ (∀ c ∈ host, isBracket c = false) ∧
        (portStr = none ∧ s = unit '[' :: (host ++ [unit ']']) ∨
          ∃ digits, portStr = some digits ∧ matchesDigits digits = true ∧
            s = unit '[' :: (host ++ unit ']' :: unit ':' :: digits)) := by
  have stop : (!isBracket (unit ']')) = false := by decide
  constructor
  · intro matched
    cases s with
    | nil => cases matched
    | cons first rest =>
        have parts : (rest.takeWhile fun c => !isBracket c) ++
            (rest.dropWhile fun c => !isBracket c) = rest := List.takeWhile_append_dropWhile
        have free : ∀ c ∈ rest.takeWhile fun c => !isBracket c, isBracket c = false := by
          intro c mem
          simpa using List.mem_takeWhile_imp mem
        unfold matchBracketed at matched
        dsimp only at matched
        split at matched
        · rename_i opens
          obtain ⟨rfl, some_host⟩ := opens
          split at matched
          · cases matched
          · rename_i close tail
            split at matched
            · rename_i closes
              cases matched
              rw [tail, closes] at parts
              exact ⟨some_host, free, .inl ⟨rfl, by rw [parts]⟩⟩
            · cases matched
          · rename_i close colon digits tail
            split at matched
            · rename_i shape
              obtain ⟨rfl, rfl, decimal⟩ := shape
              cases matched
              rw [tail] at parts
              exact ⟨some_host, free, .inr ⟨digits, rfl, decimal, by rw [parts]⟩⟩
            · cases matched
        · cases matched
  · rintro ⟨some_host, free, ⟨rfl, rfl⟩ | ⟨digits, rfl, decimal, rfl⟩⟩
    · unfold matchBracketed
      have all : ∀ c ∈ host, (!isBracket c) = true := fun c mem => by rw [free c mem]; rfl
      dsimp only
      rw [takeWhile_append_cons all stop, dropWhile_append_cons all stop, if_pos ⟨rfl, some_host⟩]
      exact if_pos rfl
    · unfold matchBracketed
      have all : ∀ c ∈ host, (!isBracket c) = true := fun c mem => by rw [free c mem]; rfl
      dsimp only
      rw [takeWhile_append_cons all stop, dropWhile_append_cons all stop, if_pos ⟨rfl, some_host⟩]
      exact if_pos ⟨rfl, rfl, decimal⟩

/-- The characters of IPv6 text. -/
def isAddressUnit (c : UInt16) : Bool := isHexDigit c || c = unit ':' || c = unit '.'

theorem isAddressUnit_digit {c : UInt16} (digit : isDigit c = true) : isAddressUnit c = true := by
  simp [isAddressUnit, isHexDigit, digit]

theorem Hextet.units {s : JavaString} (valid : Hextet s) : ∀ c ∈ s, isAddressUnit c = true := by
  intro c mem
  simp [isAddressUnit, valid.2.2 c mem]

theorem Octet.units {s : JavaString} (valid : Octet s) : ∀ c ∈ s, isAddressUnit c = true :=
  fun c mem => isAddressUnit_digit ((matchesDigits_iff.mp valid.1).2 c mem)

theorem Ipv4Text.units {s : JavaString} (valid : Ipv4Text s) : ∀ c ∈ s, isAddressUnit c = true := by
  obtain ⟨a, b, c, d, ha, hb, hc, hd, rfl⟩ := valid
  have dot : isAddressUnit (unit '.') = true := by decide
  simp only [List.mem_append, List.mem_cons]
  rintro u (mem | rfl | mem | rfl | mem | rfl | mem)
  · exact ha.units u mem
  · exact dot
  · exact hb.units u mem
  · exact dot
  · exact hc.units u mem
  · exact dot
  · exact hd.units u mem

theorem Groups.units {ends : Bool} {s : JavaString} {n : ℕ} (groups : Groups ends s n) :
    ∀ c ∈ s, isAddressUnit c = true := by
  induction groups with
  | hextet valid => exact valid.units
  | ipv4 valid _ => exact valid.units
  | cons valid more ih =>
      simp only [List.mem_append, List.mem_cons]
      rintro c (mem | rfl | mem)
      · exact valid.units c mem
      · decide
      · exact ih c mem

theorem Side.units {ends : Bool} {s : JavaString} {n : ℕ} (side : Side ends s n) :
    ∀ c ∈ s, isAddressUnit c = true := by
  cases side with
  | inl empty => simp [empty.1]
  | inr groups => exact groups.units

theorem Ipv6Text.units {s : JavaString} (valid : Ipv6Text s) : ∀ c ∈ s, isAddressUnit c = true := by
  rcases valid with groups | ⟨left, right, m, n, before, after, _, rfl⟩
  · exact groups.units
  · simp only [List.mem_append, List.mem_cons]
    rintro c (mem | rfl | rfl | mem)
    · exact before.units c mem
    · decide
    · decide
    · exact after.units c mem

theorem Ipv6Text.colon {s : JavaString} (valid : Ipv6Text s) : unit ':' ∈ s := by
  rcases valid with groups | ⟨left, right, _, _, _, _, _, rfl⟩
  · cases groups with
    | cons _ _ => exact List.mem_append_right _ List.mem_cons_self
  · exact List.mem_append_right _ List.mem_cons_self

theorem Ipv6Text.absent {s : JavaString} {c : UInt16} (valid : Ipv6Text s)
    (foreign : isAddressUnit c = false) : c ∉ s := by
  intro mem
  rw [valid.units c mem] at foreign
  contradiction

theorem isNameUnit_hexDigit {c : UInt16} (hexadecimal : isHexDigit c = true) :
    isNameUnit c = true := by
  simp only [isHexDigit, isDigit, Bool.or_eq_true, Bool.and_eq_true, decide_eq_true_eq]
    at hexadecimal
  simp only [isNameUnit, isDigit, Bool.or_eq_true, Bool.and_eq_true, decide_eq_true_eq]
  omega

theorem isNameUnit_dot : isNameUnit (unit '.') = true := by decide +kernel

theorem IpvFuture.absent {s : JavaString} {c : UInt16} (valid : IpvFuture s)
    (foreign : isNameUnit c = false) (other : c ≠ unit ':') : c ∉ s := by
  obtain ⟨v, version, address, letter, _, hex, _, inner, rfl⟩ := valid
  intro mem
  simp only [List.mem_cons, List.mem_append] at mem
  have plain : isNameUnit c = true := by
    rcases mem with rfl | mem | rfl | mem
    · rcases letter with rfl | rfl
      · decide
      · decide
    · exact isNameUnit_hexDigit (hex c mem)
    · exact isNameUnit_dot
    · exact (inner c mem).resolve_right other
  rw [plain] at foreign
  contradiction

theorem NameUnits.absent {s : JavaString} {c : UInt16} (valid : NameUnits s)
    (foreign : isNameUnit c = false) (other : c ≠ unit '%') : c ∉ s := by
  have name : ∀ b, isHexDigit b = true → c ≠ b := by
    rintro b hexadecimal rfl
    rw [isNameUnit_hexDigit hexadecimal] at foreign
    contradiction
  induction valid with
  | nil => exact List.not_mem_nil
  | plain valid more ih =>
      rw [List.mem_cons, not_or]
      refine ⟨?_, ih⟩
      rintro rfl
      rw [valid] at foreign
      contradiction
  | octet high low more ih =>
      simp only [List.mem_cons, not_or]
      exact ⟨other, name _ high, name _ low, ih⟩

theorem IpLiteral.absent {s : JavaString} {c : UInt16} (valid : IpLiteral s)
    (foreign : isNameUnit c = false) (strange : isAddressUnit c = false) : c ∉ s := by
  rcases valid with address | future
  · exact address.absent strange
  · apply future.absent foreign
    rintro rfl
    contradiction

section
variable {ipStringToBytes : ParseIp}
  (ipv6 : ∀ s, unit ':' ∈ s → unit '%' ∉ s → ((ipStringToBytes s).isSome ↔ Ipv6Text s))
include ipv6

theorem ipLiteral_iff {host : JavaString} :
    validIpLiteral ipStringToBytes host = true ↔ IpLiteral host := by
  unfold validIpLiteral IpLiteral validIpv6Literal
  rw [Bool.or_eq_true, ipvFuture_iff]
  apply or_congr_left
  simp only [Bool.and_eq_true, Bool.not_eq_true', List.contains_eq_mem, decide_eq_true_eq,
    decide_eq_false_iff_not]
  constructor
  · rintro ⟨⟨zoneless, colon⟩, parsed⟩
    exact (ipv6 host colon zoneless).mp parsed
  · intro valid
    have zoneless : unit '%' ∉ host := valid.absent (by decide)
    exact ⟨⟨zoneless, valid.colon⟩, (ipv6 host valid.colon zoneless).mpr valid⟩

end

end Busker.Addresses
