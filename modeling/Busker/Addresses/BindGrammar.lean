import Busker.Addresses.Binds

/-! The bind addresses the configuration accepts, and the strings on which parsing one throws. -/
namespace Busker.Addresses
open Busker.FixedFinal (JavaString ascii)

/-- A TCP address with the digits of its port. -/
inductive TcpForm : JavaString → Option JavaString → JavaString → Prop
  | port {digits} (decimal : matchesDigits digits = true) :
      TcpForm (unit ':' :: digits) none digits
  | host {host digits} (ink : isBlank host = false) (single : unit ':' ∉ host)
      (first : host.head? ≠ some (unit '[')) (decimal : matchesDigits digits = true) :
      TcpForm (host ++ unit ':' :: digits) (some host) digits
  | bracketed {host digits} (some_host : host ≠ []) (closed : unit ']' ∉ host)
      (decimal : matchesDigits digits = true) :
      TcpForm (unit '[' :: (host ++ unit ']' :: unit ':' :: digits)) (some host) digits

/-- The bind a string denotes. -/
inductive DenotesBind : JavaString → Bind → Prop
  | tcp {s address digits} (form : TcpForm s address digits) (positive : 1 ≤ decimalValue digits)
      (small : decimalValue digits ≤ 65535) : DenotesBind s (.tcp address (decimalValue digits))
  | path {rest} (some_rest : rest ≠ []) (oneLine : ∀ c ∈ rest, isLineBreak c = false) :
      DenotesBind (ascii "unix:/" ++ rest) (.unix (unit '/' :: rest))
  | name {rest} (some_rest : rest ≠ []) (oneLine : ∀ c ∈ rest, isLineBreak c = false) :
      DenotesBind (ascii "unix:@" ++ rest) (.unix (unit '@' :: rest))

/-- A TCP address whose port is beyond the range of a `long`. -/
def BindBeyondLong (s : JavaString) : Prop :=
  ∃ address digits, TcpForm s address digits ∧ longMax < decimalValue digits

theorem matchesDigits_of_mem {c : UInt16} {s : JavaString} (mem : c ∈ s)
    (foreign : isDigit c = false) : matchesDigits s = false := by
  rw [Bool.eq_false_iff]
  intro decimal
  rw [(matchesDigits_iff.mp decimal).2 c mem] at foreign
  contradiction

theorem TcpForm.decimal {s digits : JavaString} {address : Option JavaString}
    (form : TcpForm s address digits) : matchesDigits digits = true := by
  cases form <;> assumption

/-- A port in range, none, or the exception of `Long/parseLong`. -/
theorem parseBindPort_cases (s : JavaString) :
    matchesDigits s = true ∧ 1 ≤ decimalValue s ∧ decimalValue s ≤ 65535 ∧
        parseBindPort s = .ok (some (decimalValue s)) ∨
      (matchesDigits s = true → decimalValue s ≤ longMax ∧
          ¬ (1 ≤ decimalValue s ∧ decimalValue s ≤ 65535)) ∧ parseBindPort s = .ok none ∨
      matchesDigits s = true ∧ longMax < decimalValue s ∧ parseBindPort s = .error .numberFormat := by
  unfold parseBindPort isPortString longParseLong
  by_cases decimal : matchesDigits s = true
  · by_cases fits : decimalValue s ≤ longMax
    · by_cases range : 1 ≤ decimalValue s ∧ decimalValue s ≤ 65535
      · left
        refine ⟨decimal, range.1, range.2, ?_⟩
        simp [decimal, fits, range.1, range.2, bind, Except.bind, pure, Except.pure]
      · right; left
        refine ⟨fun _ => ⟨fits, range⟩, ?_⟩
        have outside : (decide (1 ≤ decimalValue s) && decide (decimalValue s ≤ 65535)) = false := by
          rw [← Bool.decide_and, decide_eq_false_iff_not]
          exact range
        simp [decimal, fits, outside, bind, Except.bind, pure, Except.pure]
    · right; right
      refine ⟨decimal, Nat.lt_of_not_le fits, ?_⟩
      simp [decimal, fits, bind, Except.bind]
  · right; left
    refine ⟨fun other => (decimal other).elim, ?_⟩
    simp [decimal, bind, Except.bind, pure, Except.pure]

theorem matchBracketBind_eq_some {s host port : JavaString} :
    matchBracketBind s = some (host, port) ↔ host ≠ [] ∧ unit ']' ∉ host ∧
      matchesDigits port = true ∧ s = unit '[' :: (host ++ unit ']' :: unit ':' :: port) := by
  constructor
  · intro matched
    cases s with
    | nil => cases matched
    | cons first rest =>
        have parts : (rest.takeWhile fun c => c != unit ']') ++
            (rest.dropWhile fun c => c != unit ']') = rest := List.takeWhile_append_dropWhile
        have closed : unit ']' ∉ rest.takeWhile fun c => c != unit ']' := by
          intro mem
          simpa using List.mem_takeWhile_imp mem
        unfold matchBracketBind at matched
        dsimp only at matched
        split at matched
        · rename_i opens
          obtain ⟨rfl, some_host⟩ := opens
          split at matched
          · rename_i close colon digits tail
            split at matched
            · rename_i shape
              obtain ⟨rfl, decimal⟩ := shape
              cases matched
              have stop : close = unit ']' := by simpa using stops tail
              rw [tail, stop] at parts
              exact ⟨some_host, closed, decimal, by rw [parts]⟩
            · cases matched
          · cases matched
        · cases matched
  · rintro ⟨some_host, closed, decimal, rfl⟩
    have all : ∀ c ∈ host, (c != unit ']') = true := by
      intro c mem
      rw [bne_iff_ne]
      exact fun same => closed (same ▸ mem)
    have stop : (unit ']' != unit ']') = false := by decide
    unfold matchBracketBind
    dsimp only
    rw [takeWhile_append_cons all stop, dropWhile_append_cons all stop, if_pos ⟨rfl, some_host⟩]
    exact if_pos ⟨rfl, decimal⟩

theorem parseTcpBindAddress_host {host text : JavaString} (first : host.head? ≠ some (unit '['))
    (colonless : host.head? ≠ some (unit ':')) (some_host : host ≠ []) (last : unit ':' ∉ text) :
    parseTcpBindAddress (host ++ unit ':' :: text) =
      if isBlank host = false ∧ unit ':' ∉ host then do
        let port ← parseBindPort text
        return port.map (Bind.tcp (some host))
      else .ok none := by
  have head : (host ++ unit ':' :: text).head? = host.head? := by
    cases host with
    | nil => exact (some_host rfl).elim
    | cons _ _ => rfl
  unfold parseTcpBindAddress
  simp only [head, first, colonless, if_false, lastIndexOf_append_cons last, take_append_cons,
    drop_append_cons, List.contains_eq_mem, decide_eq_true_eq, List.length_pos_iff.mpr some_host,
    true_and]

theorem TcpForm.parse {s digits : JavaString} {address : Option JavaString}
    (form : TcpForm s address digits) : parseTcpBindAddress s = (do
      let port ← parseBindPort digits
      return port.map (Bind.tcp address)) := by
  cases form with
  | port decimal => rfl
  | @host host digits ink single first decimal =>
      have some_host : host ≠ [] := by
        rintro rfl
        contradiction
      have colonless : host.head? ≠ some (unit ':') := fun same =>
        single (List.mem_of_mem_head? (Option.mem_def.mpr same))
      rw [parseTcpBindAddress_host first colonless some_host ?_, if_pos ⟨ink, single⟩]
      exact fun mem => by simp [matchesDigits_of_mem mem (by decide)] at decimal
  | @bracketed host digits some_host closed decimal =>
      have matched : matchBracketBind (unit '[' :: (host ++ unit ']' :: unit ':' :: digits)) =
          some (host, digits) := matchBracketBind_eq_some.mpr ⟨some_host, closed, decimal, rfl⟩
      unfold parseTcpBindAddress
      rw [matched]
      rfl

/-- A string has a TCP form, or parses to no TCP address. -/
theorem parseTcpBindAddress_cases (s : JavaString) :
    (∃ address digits, TcpForm s address digits) ∨ parseTcpBindAddress s = .ok none := by
  have no_port : ∀ {text : JavaString} {f : ℕ → Bind}, matchesDigits text = false →
      (do let port ← parseBindPort text; return port.map f) = (.ok none : Except Thrown _) := by
    intro text f digitless
    rcases parseBindPort_cases text with ⟨decimal, _⟩ | ⟨_, none⟩ | ⟨decimal, _⟩
    · simp [digitless] at decimal
    · rw [none]
      rfl
    · simp [digitless] at decimal
  by_cases colon : s.head? = some (unit ':')
  · cases s with
    | nil => cases colon
    | cons c text =>
        obtain rfl := Option.some.inj colon
        cases decimal : matchesDigits text with
        | true => exact .inl ⟨none, text, .port decimal⟩
        | false =>
            right
            unfold parseTcpBindAddress
            rw [if_pos colon]
            exact no_port decimal
  by_cases bracket : s.head? = some (unit '[')
  · cases matched : matchBracketBind s with
    | none =>
        right
        unfold parseTcpBindAddress
        rw [if_neg colon, if_pos bracket, matched]
    | some parts =>
        obtain ⟨host, port⟩ := parts
        obtain ⟨some_host, closed, decimal, rfl⟩ := matchBracketBind_eq_some.mp matched
        exact .inl ⟨_, _, .bracketed some_host closed decimal⟩
  by_cases some_colon : unit ':' ∈ s
  · obtain ⟨host, text, rfl, last⟩ := exists_last some_colon
    have some_host : host ≠ [] := by
      rintro rfl
      exact colon rfl
    have head : (host ++ unit ':' :: text).head? = host.head? := by
      cases host with
      | nil => exact (some_host rfl).elim
      | cons _ _ => rfl
    rw [head] at colon bracket
    rw [parseTcpBindAddress_host bracket colon some_host last]
    split
    · rename_i valid
      cases decimal : matchesDigits text with
      | true => exact .inl ⟨_, _, .host valid.1 valid.2 bracket decimal⟩
      | false => exact .inr (no_port decimal)
    · exact .inr rfl
  · right
    unfold parseTcpBindAddress
    rw [if_neg colon, if_neg bracket, lastIndexOf_eq_none.mpr some_colon]

theorem parseUnixBindAddress_eq_some {s : JavaString} {bind : Bind} :
    parseUnixBindAddress s = some bind ↔ ∃ rest, rest ≠ [] ∧ (∀ c ∈ rest, isLineBreak c = false) ∧
      (s = ascii "unix:/" ++ rest ∧ bind = .unix (unit '/' :: rest) ∨
        s = ascii "unix:@" ++ rest ∧ bind = .unix (unit '@' :: rest)) := by
  unfold parseUnixBindAddress matchesUnix
  have slash : ∀ rest, (ascii "unix:/" ++ rest).drop 5 = unit '/' :: rest := fun _ => rfl
  have sign : ∀ rest, (ascii "unix:@" ++ rest).drop 5 = unit '@' :: rest := fun _ => rfl
  constructor
  · intro parsed
    rw [Option.ite_none_right_eq_some] at parsed
    obtain ⟨matched, same⟩ := parsed
    simp only [Bool.and_eq_true, Bool.or_eq_true, decide_eq_true_eq, List.all_eq_true,
      Bool.not_eq_true'] at matched
    obtain ⟨⟨front, some_rest⟩, oneLine⟩ := matched
    have parts := List.take_append_drop 6 s
    refine ⟨s.drop 6, some_rest, oneLine, front.imp ?_ ?_⟩
    · intro front
      rw [front] at parts
      rw [← slash, parts]
      exact ⟨rfl, (Option.some.inj same).symm⟩
    · intro front
      rw [front] at parts
      rw [← sign, parts]
      exact ⟨rfl, (Option.some.inj same).symm⟩
  · rintro ⟨rest, some_rest, oneLine, ⟨rfl, rfl⟩ | ⟨rfl, rfl⟩⟩
    · have front : (ascii "unix:/" ++ rest).take 6 = ascii "unix:/" := rfl
      have back : (ascii "unix:/" ++ rest).drop 6 = rest := rfl
      have inside : (rest.all fun c => !isLineBreak c) = true := by simpa using oneLine
      simp [slash, front, back, some_rest, inside]
    · have front : (ascii "unix:@" ++ rest).take 6 = ascii "unix:@" := rfl
      have back : (ascii "unix:@" ++ rest).drop 6 = rest := rfl
      have inside : (rest.all fun c => !isLineBreak c) = true := by simpa using oneLine
      simp [sign, front, back, some_rest, inside]

/-- Unix addresses have no TCP form: what follows their colon is no number. -/
theorem unix_not_tcpForm {rest : JavaString} {c : UInt16} (foreign : isDigit c = false)
    (address : Option JavaString) (digits : JavaString) :
    ¬ TcpForm (ascii "unix" ++ unit ':' :: c :: rest) address digits := by
  intro form
  generalize same : ascii "unix" ++ unit ':' :: c :: rest = s at form
  cases form with
  | port _ =>
      have first := (List.cons.inj same).1
      revert first
      decide
  | host _ single _ decimal =>
      obtain ⟨-, rfl⟩ := append_cons_inj (show unit ':' ∉ ascii "unix" by decide) single same
      rw [matchesDigits_of_mem List.mem_cons_self foreign] at decimal
      contradiction
  | bracketed _ _ _ =>
      have first := (List.cons.inj same).1
      revert first
      decide

theorem parseBindAddress_of_tcp {s : JavaString} {bind : Bind}
    (parsed : parseTcpBindAddress s = .ok (some bind)) : parseBindAddress s = .ok (some bind) := by
  unfold parseBindAddress
  rw [parsed]
  rfl

theorem parseBindAddress_of_none {s : JavaString} (parsed : parseTcpBindAddress s = .ok none) :
    parseBindAddress s = .ok (parseUnixBindAddress s) := by
  unfold parseBindAddress
  rw [parsed]
  rfl

theorem parseTcpBindAddress_in_range {s digits : JavaString} {address : Option JavaString}
    (form : TcpForm s address digits) (positive : 1 ≤ decimalValue digits)
    (small : decimalValue digits ≤ 65535) :
    parseTcpBindAddress s = .ok (some (.tcp address (decimalValue digits))) := by
  rw [form.parse]
  rcases parseBindPort_cases digits with ⟨_, _, _, port⟩ | ⟨range, _⟩ | ⟨_, large, _⟩
  · rw [port]
    rfl
  · exact ((range form.decimal).2 ⟨positive, small⟩).elim
  · unfold longMax at large
    omega

theorem parseTcpBindAddress_beyond {s : JavaString} (beyond : BindBeyondLong s) :
    parseTcpBindAddress s = .error .numberFormat := by
  obtain ⟨address, digits, form, large⟩ := beyond
  rw [form.parse]
  rcases parseBindPort_cases digits with ⟨_, _, small, _⟩ | ⟨range, _⟩ | ⟨_, _, port⟩
  · unfold longMax at large
    omega
  · have := (range form.decimal).1
    omega
  · rw [port]
    rfl

theorem DenotesBind.parse {s : JavaString} {bind : Bind} (denotes : DenotesBind s bind) :
    parseBindAddress s = .ok (some bind) := by
  cases denotes with
  | tcp form positive small =>
      exact parseBindAddress_of_tcp (parseTcpBindAddress_in_range form positive small)
  | @path rest some_rest oneLine =>
      have none : parseTcpBindAddress (ascii "unix:/" ++ rest) = .ok none := by
        apply (parseTcpBindAddress_cases _).resolve_left
        rintro ⟨address, digits, form⟩
        exact unix_not_tcpForm (by decide) address digits form
      rw [parseBindAddress_of_none none,
        parseUnixBindAddress_eq_some.mpr ⟨rest, some_rest, oneLine, .inl ⟨rfl, rfl⟩⟩]
  | @name rest some_rest oneLine =>
      have none : parseTcpBindAddress (ascii "unix:@" ++ rest) = .ok none := by
        apply (parseTcpBindAddress_cases _).resolve_left
        rintro ⟨address, digits, form⟩
        exact unix_not_tcpForm (by decide) address digits form
      rw [parseBindAddress_of_none none,
        parseUnixBindAddress_eq_some.mpr ⟨rest, some_rest, oneLine, .inr ⟨rfl, rfl⟩⟩]

/-- What parses as a Unix address or not at all, once it is no TCP address. -/
theorem parseBindAddress_unix {s : JavaString} (none : parseTcpBindAddress s = .ok none) :
    (∃ bind, DenotesBind s bind ∧ parseBindAddress s = .ok (some bind)) ∨
      (¬ ∃ bind, DenotesBind s bind) ∧ ¬ BindBeyondLong s ∧ parseBindAddress s = .ok .none := by
  cases unix : parseUnixBindAddress s with
  | some bind =>
      left
      obtain ⟨rest, some_rest, oneLine, ⟨rfl, rfl⟩ | ⟨rfl, rfl⟩⟩ := parseUnixBindAddress_eq_some.mp unix
      · exact ⟨_, .path some_rest oneLine, DenotesBind.parse (.path some_rest oneLine)⟩
      · exact ⟨_, .name some_rest oneLine, DenotesBind.parse (.name some_rest oneLine)⟩
  | none =>
      right
      have parsed := parseBindAddress_of_none none
      rw [unix] at parsed
      refine ⟨?_, ?_, parsed⟩
      · rintro ⟨bind, denotes⟩
        rw [denotes.parse] at parsed
        cases parsed
      · intro beyond
        rw [parseTcpBindAddress_beyond beyond] at none
        cases none

/-- A string parses to what it denotes, to nil, or throws for a port beyond a `long`. -/
theorem parseBindAddress_cases (s : JavaString) :
    (∃ bind, DenotesBind s bind ∧ parseBindAddress s = .ok (some bind)) ∨
      (¬ ∃ bind, DenotesBind s bind) ∧ ¬ BindBeyondLong s ∧ parseBindAddress s = .ok none ∨
      BindBeyondLong s ∧ parseBindAddress s = .error .numberFormat := by
  rcases parseTcpBindAddress_cases s with ⟨address, digits, form⟩ | none
  · rcases parseBindPort_cases digits with ⟨_, positive, small, _⟩ | ⟨_, port⟩ | ⟨_, large, _⟩
    · exact .inl ⟨_, .tcp form positive small, DenotesBind.parse (.tcp form positive small)⟩
    · have none : parseTcpBindAddress s = .ok none := by
        rw [form.parse, port]
        rfl
      exact (parseBindAddress_unix none).imp_right .inl
    · right; right
      have beyond : BindBeyondLong s := ⟨address, digits, form, large⟩
      refine ⟨beyond, ?_⟩
      unfold parseBindAddress
      rw [parseTcpBindAddress_beyond beyond]
      rfl
  · exact (parseBindAddress_unix none).imp_right .inl

/-- Parsing returns, with the bind the string denotes, exactly where no port is too large. -/
theorem parseBindAddress_returns (s : JavaString) :
    (∃ parsed, parseBindAddress s = .ok parsed) ↔ ¬ BindBeyondLong s := by
  constructor
  · rintro ⟨parsed, same⟩ beyond
    unfold parseBindAddress at same
    rw [parseTcpBindAddress_beyond beyond] at same
    cases same
  · intro within
    rcases parseBindAddress_cases s with ⟨_, _, same⟩ | ⟨_, _, same⟩ | ⟨beyond, _⟩
    · exact ⟨_, same⟩
    · exact ⟨_, same⟩
    · exact (within beyond).elim

theorem parseBindAddress_eq_some {s : JavaString} {bind : Bind} :
    parseBindAddress s = .ok (some bind) ↔ DenotesBind s bind := by
  constructor
  · intro parsed
    rcases parseBindAddress_cases s with ⟨other, denotes, same⟩ | ⟨_, _, same⟩ | ⟨_, same⟩
    · rw [parsed] at same
      cases same
      exact denotes
    · rw [parsed] at same
      cases same
    · rw [parsed] at same
      cases same
  · exact DenotesBind.parse

theorem isBindAddress_returns (s : JavaString) :
    (∃ accepted, isBindAddress s = .ok accepted) ↔ ¬ BindBeyondLong s := by
  rw [← parseBindAddress_returns]
  unfold isBindAddress
  cases parseBindAddress s with
  | error exception => simp [bind, Except.bind]
  | ok parsed => simp [bind, Except.bind, pure, Except.pure]

theorem BindBeyondLong.ink {s : JavaString} (beyond : BindBeyondLong s) : isBlank s = false := by
  obtain ⟨address, digits, form, _⟩ := beyond
  have colon : unit ':' ∈ s := by
    cases form <;> simp
  exact not_isBlank colon (by decide)

/-- An element whose check returns: a string without a port beyond a `long`, or a value with a
class. -/
def Checkable : Element → Prop
  | .text s => ¬ BindBeyondLong s
  | .other className => className ≠ none

section
variable {ε : Type}

theorem validateBindAddress_returns (errors : List (EntrypointError ε)) (entrypointId : ε) (idx : ℕ)
    (addr : Element) :
    (∃ after, validateBindAddress errors entrypointId idx addr = .ok after) ↔ Checkable addr := by
  cases addr with
  | other className => cases className <;> simp [validateBindAddress, Checkable]
  | text s =>
      unfold validateBindAddress Checkable
      dsimp only
      by_cases blank : isBlank s = true
      · rw [if_pos blank]
        refine ⟨fun _ beyond => ?_, fun _ => ⟨_, rfl⟩⟩
        rw [beyond.ink] at blank
        contradiction
      · rw [if_neg blank, ← isBindAddress_returns]
        cases isBindAddress s with
        | error exception => simp [bind, Except.bind]
        | ok accepted => cases accepted <;> simp [bind, Except.bind, pure, Except.pure]

theorem validateBindAddresses_returns (entrypointId : ε) (addresses : List Element) (idx : ℕ)
    (errors : List (EntrypointError ε)) :
    (∃ after, validateBindAddresses entrypointId addresses idx errors = .ok after) ↔
      ∀ addr ∈ addresses, Checkable addr := by
  induction addresses generalizing idx errors with
  | nil => simp [validateBindAddresses]
  | cons addr rest ih =>
      rw [List.forall_mem_cons, ← validateBindAddress_returns errors entrypointId idx addr]
      unfold validateBindAddresses
      cases validateBindAddress errors entrypointId idx addr with
      | error exception => simp [bind, Except.bind]
      | ok after => simp [bind, Except.bind, ih]

/-- Validating a `:bind` returns exactly where the check of each element does. -/
theorem validateBind_returns (errors : List (EntrypointError ε)) (entrypointId : ε)
    (bind : BindValue) :
    (∃ after, validateBind errors entrypointId bind = .ok after) ↔
      ∀ addr ∈ (bindValues bind).getD [], Checkable addr := by
  unfold validateBind
  cases bindValues bind with
  | none => simp
  | some binds =>
      cases binds with
      | nil => simp
      | cons addr rest => exact validateBindAddresses_returns entrypointId (addr :: rest) 0 errors

end

/-- Of a string `parse-bind` gives the bind, or one of two errors. -/
theorem parseBind_text (s : JavaString) : parseBind (.text s) =
    match parseBindAddress s with
    | .error exception => .error (.thrown exception)
    | .ok none => .error (.exInfo "Invalid bind address." (.inl (.text s)))
    | .ok (some bind) => .ok [bind] := by
  unfold parseBind bindValues parseBindElement
  simp only [List.mapM_cons, List.mapM_nil]
  rcases parseBindAddress s with exception | _ | bind <;> rfl

/-- What the configuration promises about a bind string: the checks return, `parse-bind` fails
with its own error only, and a string is accepted as the bind it denotes. -/
structure BindTotal (s : JavaString) : Prop where
  predicate : ∃ accepted, isBindAddress s = .ok accepted
  validated : ∀ (ε : Type) (errors : List (EntrypointError ε)) (entrypointId : ε),
    ∃ after, validateBind errors entrypointId (.text s) = .ok after
  parsed : ∀ exception, parseBind (.text s) ≠ .error (.thrown exception)
  accepts : ∀ bind, parseBindAddress s = .ok (some bind) ↔ DenotesBind s bind

/-- Bind addresses are total and exact on the strings without a port beyond a `long`. -/
theorem bindTotal_iff (s : JavaString) : BindTotal s ↔ ¬ BindBeyondLong s := by
  constructor
  · exact fun total => (isBindAddress_returns s).mp total.predicate
  · intro within
    refine ⟨(isBindAddress_returns s).mpr within, ?_, ?_, fun bind => parseBindAddress_eq_some⟩
    · intro ε errors entrypointId
      rw [validateBind_returns]
      intro addr mem
      rw [List.mem_singleton.mp mem]
      exact within
    · intro exception
      obtain ⟨parsed, same⟩ := (parseBindAddress_returns s).mpr within
      rw [parseBind_text, same]
      cases parsed with
      | none => simp
      | some bind => simp

theorem overlongPort_throws : ¬ ∀ s, BindTotal s := by
  intro total
  obtain ⟨accepted, same⟩ := (total (ascii ":9223372036854775808")).predicate
  have thrown : isBindAddress (ascii ":9223372036854775808") = .error .numberFormat := by
    decide +kernel
  rw [thrown] at same
  contradiction

end Busker.Addresses
