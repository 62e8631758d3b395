import Busker.Addresses.BindGrammar
import Busker.Unwinding.Results

/-! Conflicts between the binds of a configuration: what the check compares, what the
addresses denote, and the spellings on which the two differ. -/
namespace Busker.Addresses
open Busker.FixedFinal (JavaString ascii)

/-- The bytes of an IP address. -/
abbrev IpBytes := { bytes : List UInt8 // bytes.length = 4 ∨ bytes.length = 16 }

inductive Family
  | ipv4
  | ipv6
  deriving DecidableEq, Repr

def IpBytes.family (bytes : IpBytes) : Family := if bytes.val.length = 4 then .ipv4 else .ipv6

/-- `parse-ip/ip-string->bytes`, of which the bytes are used. -/
abbrev IpStringToBytes := JavaString → Option IpBytes

/-- `wildcard-host?` -/
def isWildcardHost (host : Option JavaString) : Bool :=
  host = none || host = some (ascii "0.0.0.0") || host = some (ascii "::")

def ipFamilies (ipStringToBytes : IpStringToBytes) : Option JavaString → Option (List Family)
  | none => some [.ipv4, .ipv6]
  | some host => (ipStringToBytes host).map fun bytes => [bytes.family]

/-- The last test of `bind-conflict?`; a host that is no IP address may be one of any family. -/
def familiesMeet : Option (List Family) → Option (List Family) → Bool
  | some familiesA, some familiesB => familiesB.any familiesA.contains
  | _, _ => true

def unixOf : Option Bind → Option JavaString
  | some (.unix path) => some path
  | _ => none

def portOf : Option Bind → Option ℕ
  | some (.tcp _ port) => some port
  | _ => none

def addressOf : Option Bind → Option JavaString
  | some (.tcp address _) => address
  | _ => none

/-- `bind-conflict?` -/
def bindConflict (ipStringToBytes : IpStringToBytes) (a b : Option Bind) : Bool :=
  if (unixOf a).isSome && (unixOf b).isSome then unixOf a = unixOf b
  else if (unixOf a).isSome || (unixOf b).isSome then false
  else portOf a = portOf b &&
    (addressOf a = addressOf b ||
      ((isWildcardHost (addressOf a) || isWildcardHost (addressOf b)) &&
        familiesMeet (ipFamilies ipStringToBytes (addressOf a))
          (ipFamilies ipStringToBytes (addressOf b))))

/-- An entry of `parsed` in `validate-entrypoint-conflicts`. -/
structure ParsedBind (ε : Type) where
  entrypoint : ε
  bind : Element
  parsed : Option Bind

/-- An `::entrypoint-bind-conflict` error: its message and data. -/
structure ConflictError (ε : Type) where
  msg : String
  entrypoint : ε
  bind : Element
  conflictEntrypoint : ε
  conflictBind : Element
  deriving DecidableEq

def conflictMsg : String := "Entrypoints must not bind conflicting addresses."

section
variable {ε : Type}

def ParsedBind.conflictError (current conflict : ParsedBind ε) : ConflictError ε :=
  ⟨conflictMsg, current.entrypoint, current.bind, conflict.entrypoint, conflict.bind⟩

def parseElement : Element → Except Thrown (Option Bind)
  | .text s => parseBindAddress s
  | .other _ => .ok none

/-- The addresses of all entrypoints, each with its entrypoint. -/
def entrypointBinds (entrypoints : List (ε × BindValue)) : List (ε × Element) :=
  entrypoints.flatMap fun entrypoint =>
    ((bindValues entrypoint.2).getD []).map fun bind => (entrypoint.1, bind)

def parsedBind (address : ε × Element) : Except Thrown (ParsedBind ε) := do
  let parsed ← parseElement address.2
  return ⟨address.1, address.2, parsed⟩

/-- The loop of `validate-entrypoint-conflicts`. -/
def conflictErrors (ipStringToBytes : IpStringToBytes) :
    List (ConflictError ε) → List (ParsedBind ε) → List (ConflictError ε)
  | errors, [] => errors
  | errors, current :: remaining =>
    let conflicts := remaining.filter fun conflict =>
      bindConflict ipStringToBytes current.parsed conflict.parsed
    conflictErrors ipStringToBytes (errors ++ conflicts.map current.conflictError) remaining

def validateEntrypointConflicts (ipStringToBytes : IpStringToBytes)
    (entrypoints : List (ε × BindValue)) : Except Thrown (List (ConflictError ε)) := do
  let parsed ← (entrypointBinds entrypoints).mapM parsedBind
  return conflictErrors ipStringToBytes [] parsed

/-- The error of every conflicting pair, in the order of the binds. -/
theorem mem_conflictErrors {ipStringToBytes : IpStringToBytes} {error : ConflictError ε}
    {errors : List (ConflictError ε)} {binds : List (ParsedBind ε)} :
    error ∈ conflictErrors ipStringToBytes errors binds ↔
      error ∈ errors ∨ ∃ x y, [x, y].Sublist binds ∧
        bindConflict ipStringToBytes x.parsed y.parsed = true ∧ error = x.conflictError y := by
  induction binds generalizing errors with
  | nil => simp [conflictErrors]
  | cons current remaining ih =>
      unfold conflictErrors
      rw [ih, List.mem_append, or_assoc]
      apply or_congr_right
      constructor
      · rintro (mem | ⟨x, y, later, rest⟩)
        · obtain ⟨conflict, found, rfl⟩ := List.mem_map.mp mem
          obtain ⟨later, clash⟩ := List.mem_filter.mp found
          exact ⟨current, conflict, (List.singleton_sublist.mpr later).cons_cons current, clash, rfl⟩
        · exact ⟨x, y, later.cons current, rest⟩
      · rintro ⟨x, y, pair, clash, rfl⟩
        cases pair with
        | cons _ later => exact .inr ⟨x, y, later, clash, rfl⟩
        | cons_cons _ later =>
            left
            have mem := List.singleton_sublist.mp later
            exact List.mem_map_of_mem (List.mem_filter.mpr ⟨mem, clash⟩)

end

/-- The hosts a bind without Unix path is expanded to by `entrypoint->listeners`. -/
def listenerHosts : Option JavaString → List JavaString
  | none => [ascii "0.0.0.0", ascii "::"]
  | some host => [host]

/-- The address of all interfaces of its family. -/
def IpBytes.Unspecified (bytes : IpBytes) : Prop := ∀ byte ∈ bytes.val, byte = 0

/-- The same address, or all interfaces of the other's family. -/
def Covers (a b : IpBytes) : Prop :=
  a.family = b.family ∧ (a = b ∨ a.Unspecified ∨ b.Unspecified)

/-- Two binds denote the same Unix path, or addresses of which one covers the other, with the
same port. -/
def Clash (ipStringToBytes : IpStringToBytes) : Bind → Bind → Prop
  | .tcp x p, .tcp y q => p = q ∧ ∃ h ∈ listenerHosts x, ∃ k ∈ listenerHosts y, ∃ a b,
      ipStringToBytes h = some a ∧ ipStringToBytes k = some b ∧ Covers a b
  | .unix s, .unix t => s = t
  | _, _ => False

/-- Two binds denote different ports, addresses of one interface each that are not the same, or
different Unix paths. -/
def Apart (ipStringToBytes : IpStringToBytes) : Bind → Bind → Prop
  | .tcp x p, .tcp y q => p ≠ q ∨ ∃ h k a b, x = some h ∧ y = some k ∧
      ipStringToBytes h = some a ∧ ipStringToBytes k = some b ∧ ¬ a.Unspecified ∧
      ¬ b.Unspecified ∧ a ≠ b
  | .unix s, .unix t => s ≠ t
  | _, _ => True

/-- Two binds with the same port, on IP addresses spelled differently and neither as `0.0.0.0`
nor `::`, of which one covers the other. -/
def Respelled (ipStringToBytes : IpStringToBytes) : Bind → Bind → Prop
  | .tcp (some h) p, .tcp (some k) q => p = q ∧ h ≠ k ∧ isWildcardHost (some h) = false ∧
      isWildcardHost (some k) = false ∧ ∃ a b, ipStringToBytes h = some a ∧
        ipStringToBytes k = some b ∧ Covers a b
  | _, _ => False

theorem Covers.symm {a b : IpBytes} (covers : Covers a b) : Covers b a :=
  ⟨covers.1.symm, covers.2.elim (fun same => .inl same.symm) fun either => .inr either.symm⟩

section
variable {ipStringToBytes : IpStringToBytes} {a b : Bind}

theorem familiesMeet_eq_true {f g : Option (List Family)} :
    familiesMeet f g = true ↔ ∀ a b, f = some a → g = some b → ∃ family ∈ a, family ∈ b := by
  unfold familiesMeet
  split
  · rw [List.any_eq_true]
    constructor
    · rintro ⟨family, mem, other⟩ _ _ ⟨⟩ ⟨⟩
      exact ⟨family, List.contains_iff_mem.mp other, mem⟩
    · intro meet
      obtain ⟨family, other, mem⟩ := meet _ _ rfl rfl
      exact ⟨family, mem, List.contains_iff_mem.mpr other⟩
  · rename_i missing
    refine ⟨fun _ a b first second => (missing a b first second).elim, fun _ => rfl⟩

theorem familiesMeet_comm (f g : Option (List Family)) : familiesMeet f g = familiesMeet g f := by
  rw [Bool.eq_iff_iff, familiesMeet_eq_true, familiesMeet_eq_true]
  constructor
  · intro meet a b first second
    obtain ⟨family, mem, other⟩ := meet b a second first
    exact ⟨family, other, mem⟩
  · intro meet a b first second
    obtain ⟨family, mem, other⟩ := meet b a second first
    exact ⟨family, other, mem⟩

theorem bindConflict_comm (a b : Option Bind) :
    bindConflict ipStringToBytes a b = bindConflict ipStringToBytes b a := by
  unfold bindConflict
  rw [Bool.and_comm (unixOf a).isSome, Bool.or_comm (unixOf a).isSome,
    Bool.or_comm (isWildcardHost (addressOf a)), familiesMeet_comm]
  simp only [@eq_comm _ (unixOf a), @eq_comm _ (portOf a), @eq_comm _ (addressOf a)]

theorem bindConflict_tcp (x y : Option JavaString) (p q : ℕ) :
    bindConflict ipStringToBytes (some (.tcp x p)) (some (.tcp y q)) = true ↔
      p = q ∧ (x = y ∨ (isWildcardHost x = true ∨ isWildcardHost y = true) ∧
        familiesMeet (ipFamilies ipStringToBytes x) (ipFamilies ipStringToBytes y) = true) := by
  have unfolded : bindConflict ipStringToBytes (some (.tcp x p)) (some (.tcp y q)) =
      (some p = some q && (x = y || ((isWildcardHost x || isWildcardHost y) &&
        familiesMeet (ipFamilies ipStringToBytes x) (ipFamilies ipStringToBytes y)))) := rfl
  rw [unfolded, Bool.and_eq_true, decide_eq_true_iff, Option.some_inj, Bool.or_eq_true,
    decide_eq_true_iff, Bool.and_eq_true, Bool.or_eq_true]

theorem ipFamilies_some (host : JavaString) : ipFamilies ipStringToBytes (some host) =
    (ipStringToBytes host).map fun bytes => [bytes.family] := rfl

/-- No address stands for both families. -/
theorem familiesMeet_none (y : Option JavaString) :
    familiesMeet (ipFamilies ipStringToBytes none) (ipFamilies ipStringToBytes y) = true := by
  cases y with
  | none => rfl
  | some host =>
      rw [ipFamilies_some]
      cases ipStringToBytes host with
      | none => rfl
      | some bytes =>
          rw [Option.map_some]
          cases bytes.family <;> rfl

theorem respelled_some {h k : JavaString} {p q : ℕ} :
    Respelled ipStringToBytes (.tcp (some h) p) (.tcp (some k) q) ↔
      p = q ∧ h ≠ k ∧ isWildcardHost (some h) = false ∧ isWildcardHost (some k) = false ∧
        ∃ a b, ipStringToBytes h = some a ∧ ipStringToBytes k = some b ∧ Covers a b := Iff.rfl

/-- Of addresses that clash, the check misses those that are respelled. -/
theorem Clash.bindConflict (clash : Clash ipStringToBytes a b) :
    bindConflict ipStringToBytes (some a) (some b) = true ↔ ¬ Respelled ipStringToBytes a b := by
  cases a with
  | unix s =>
      cases b with
      | tcp y q => exact clash.elim
      | unix t =>
          obtain rfl : s = t := clash
          simp [Addresses.bindConflict, unixOf, Respelled]
  | tcp x p =>
      cases b with
      | unix t => exact clash.elim
      | tcp y q =>
          obtain ⟨rfl, h, mem, k, mem', a, b, bytes, bytes', covers⟩ := clash
          rw [bindConflict_tcp]
          cases x with
          | none =>
              have spelled : ¬ Respelled ipStringToBytes (.tcp none p) (.tcp y p) := id
              simp only [spelled, not_false_eq_true, iff_true, true_and]
              exact .inr ⟨.inl rfl, familiesMeet_none y⟩
          | some x =>
              obtain rfl := List.mem_singleton.mp mem
              cases y with
              | none =>
                  have spelled : ¬ Respelled ipStringToBytes (.tcp (some h) p) (.tcp none p) := id
                  simp only [spelled, not_false_eq_true, iff_true, true_and]
                  refine .inr ⟨.inr rfl, ?_⟩
                  rw [familiesMeet_comm]
                  exact familiesMeet_none _
              | some y =>
                  obtain rfl := List.mem_singleton.mp mem'
                  have meet : familiesMeet (ipFamilies ipStringToBytes (some h))
                      (ipFamilies ipStringToBytes (some k)) = true := by
                    rw [ipFamilies_some, ipFamilies_some, bytes, bytes', Option.map_some, Option.map_some, covers.1]
                    cases b.family <;> rfl
                  rw [respelled_some, Option.some_inj]
                  simp only [meet, and_true, true_and, not_and, not_exists]
                  constructor
                  · rintro (rfl | wild) other plain plain'
                    · exact (other rfl).elim
                    · simp [plain, plain'] at wild
                  · intro spelled
                    by_cases same : h = k
                    · exact .inl same
                    · right
                      by_contra neither
                      rw [not_or, Bool.not_eq_true, Bool.not_eq_true] at neither
                      exact spelled same neither.1 neither.2 a b bytes bytes' covers

theorem Respelled.clash (respelled : Respelled ipStringToBytes a b) : Clash ipStringToBytes a b := by
  cases a with
  | unix s => cases b <;> exact respelled.elim
  | tcp x p =>
      cases x with
      | none => cases b <;> exact respelled.elim
      | some h =>
          cases b with
          | unix t => exact respelled.elim
          | tcp y q =>
              cases y with
              | none => exact respelled.elim
              | some k =>
                  obtain ⟨same, _, _, _, a, b, bytes, bytes', covers⟩ := respelled
                  exact ⟨same, h, List.mem_singleton_self h, k, List.mem_singleton_self k, a, b,
                    bytes, bytes', covers⟩

/-- Binds apart are not reported, given that the two literals are the unspecified addresses. -/
theorem Apart.bindConflict
    (anyIpv4 : ∀ bytes, ipStringToBytes (ascii "0.0.0.0") = some bytes → bytes.Unspecified)
    (anyIpv6 : ∀ bytes, ipStringToBytes (ascii "::") = some bytes → bytes.Unspecified)
    (apart : Apart ipStringToBytes a b) :
    bindConflict ipStringToBytes (some a) (some b) = false := by
  cases a with
  | unix s =>
      cases b with
      | unix t =>
          have different : s ≠ t := apart
          simpa [Addresses.bindConflict, unixOf] using different
      | tcp y q => rfl
  | tcp x p =>
      cases b with
      | unix t => rfl
      | tcp y q =>
          rw [Bool.eq_false_iff]
          intro clash
          obtain ⟨rfl, same⟩ := (bindConflict_tcp x y p q).mp clash
          obtain ⟨h, k, a, b, rfl, rfl, bytes, bytes', specified, specified', other⟩ :=
            apart.resolve_left (not_not.mpr rfl)
          have plain : ∀ host bytes, ipStringToBytes host = some bytes → ¬ bytes.Unspecified →
              ¬ isWildcardHost (some host) = true := by
            intro host bytes found specified wild
            unfold isWildcardHost at wild
            simp only [reduceCtorEq, decide_false, Bool.false_or, Option.some.injEq,
              Bool.or_eq_true, decide_eq_true_eq] at wild
            rcases wild with rfl | rfl
            · exact specified (anyIpv4 bytes found)
            · exact specified (anyIpv6 bytes found)
          rcases same with same | ⟨wild, _⟩
          · rw [Option.some_inj.mp same, bytes'] at bytes
            exact other (Option.some.inj bytes).symm
          · exact wild.elim (plain h a bytes specified) (plain k b bytes' specified')

end

section
variable {ε : Type}

/-- An address with what it parses to. -/
def reading (address : ε × Element) : ParsedBind ε :=
  ⟨address.1, address.2, (parseElement address.2).toOption.join⟩

/-- All binds of the configuration parse. -/
def AllParse (entrypoints : List (ε × BindValue)) : Prop :=
  ∀ address ∈ entrypointBinds entrypoints, ∃ bind, parseElement address.2 = .ok (some bind)

theorem reading_parsed {address : ε × Element} {bind : Bind}
    (parsed : parseElement address.2 = .ok (some bind)) : (reading address).parsed = some bind := by
  rw [reading, parsed]
  rfl

theorem validateEntrypointConflicts_eq (ipStringToBytes : IpStringToBytes)
    {entrypoints : List (ε × BindValue)} (allParse : AllParse entrypoints) :
    validateEntrypointConflicts ipStringToBytes entrypoints =
      .ok (conflictErrors ipStringToBytes [] ((entrypointBinds entrypoints).map reading)) := by
  unfold validateEntrypointConflicts
  rw [Unwinding.mapM_eq_map]
  · rfl
  · intro address mem
    obtain ⟨bind, parsed⟩ := allParse address mem
    unfold parsedBind reading
    rw [parsed]
    rfl

/-- The errors the check returns name two binds of the configuration in conflict. -/
theorem mem_validateEntrypointConflicts {ipStringToBytes : IpStringToBytes}
    {binds : List (ε × Element)} {error : ConflictError ε} :
    error ∈ conflictErrors ipStringToBytes [] (binds.map reading) ↔ ∃ x y, [x, y].Sublist binds ∧
      bindConflict ipStringToBytes (reading x).parsed (reading y).parsed = true ∧
        error = ⟨conflictMsg, x.1, x.2, y.1, y.2⟩ := by
  rw [mem_conflictErrors]
  simp only [List.not_mem_nil, false_or]
  constructor
  · rintro ⟨x, y, pair, clash, rfl⟩
    obtain ⟨addresses, sub, same⟩ := List.sublist_map_iff.mp pair
    match addresses with
    | [first, second] =>
        obtain ⟨rfl, rest⟩ := List.cons.inj same
        obtain rfl := (List.cons.inj rest).1
        exact ⟨first, second, sub, clash, rfl⟩
  · rintro ⟨x, y, pair, clash, rfl⟩
    exact ⟨reading x, reading y, pair.map reading, clash, rfl⟩

/-- Every pair of binds that clash is reported and none that are apart, and the order of a pair
does not matter. -/
structure ConflictsDetected (ipStringToBytes : IpStringToBytes) (entrypoints : List (ε × BindValue))
    (errors : List (ConflictError ε)) : Prop where
  complete : ∀ x y a b, [x, y].Sublist (entrypointBinds entrypoints) →
    parseElement x.2 = .ok (some a) → parseElement y.2 = .ok (some b) →
      Clash ipStringToBytes a b → ⟨conflictMsg, x.1, x.2, y.1, y.2⟩ ∈ errors
  sound : ∀ error ∈ errors, ∀ a b, parseElement error.bind = .ok (some a) →
    parseElement error.conflictBind = .ok (some b) → ¬ Apart ipStringToBytes a b
  symmetric : ∀ a b, bindConflict ipStringToBytes a b = bindConflict ipStringToBytes b a

/-- No two binds are respelled. -/
def SpelledAlike (ipStringToBytes : IpStringToBytes) (entrypoints : List (ε × BindValue)) : Prop :=
  ∀ x y a b, [x, y].Sublist (entrypointBinds entrypoints) → parseElement x.2 = .ok (some a) →
    parseElement y.2 = .ok (some b) → ¬ Respelled ipStringToBytes a b

/-- The check finds the conflicts of a configuration exactly where it has no address in two
spellings. -/
theorem conflictsDetected_iff (ipStringToBytes : IpStringToBytes)
    (anyIpv4 : ∀ bytes, ipStringToBytes (ascii "0.0.0.0") = some bytes → bytes.Unspecified)
    (anyIpv6 : ∀ bytes, ipStringToBytes (ascii "::") = some bytes → bytes.Unspecified)
    (entrypoints : List (ε × BindValue)) (allParse : AllParse entrypoints) :
    (∃ errors, validateEntrypointConflicts ipStringToBytes entrypoints = .ok errors ∧
        ConflictsDetected ipStringToBytes entrypoints errors) ↔
      SpelledAlike ipStringToBytes entrypoints := by
  rw [validateEntrypointConflicts_eq ipStringToBytes allParse]
  constructor
  · rintro ⟨errors, ⟨⟩, detected⟩ x y a b pair first second respelled
    have reported := detected.complete x y a b pair first second respelled.clash
    obtain ⟨x', y', _, conflict, same⟩ := mem_validateEntrypointConflicts.mp reported
    obtain ⟨-, -, bind, -, bind'⟩ := ConflictError.mk.inj same
    rw [reading_parsed (bind ▸ first), reading_parsed (bind' ▸ second)] at conflict
    exact respelled.clash.bindConflict.mp conflict respelled
  · intro alike
    refine ⟨_, rfl, ?_, ?_, fun a b => bindConflict_comm a b⟩
    · intro x y a b pair first second clash
      apply mem_validateEntrypointConflicts.mpr
      refine ⟨x, y, pair, ?_, rfl⟩
      rw [reading_parsed first, reading_parsed second]
      exact clash.bindConflict.mpr (alike x y a b pair first second)
    · intro error reported a b first second apart
      obtain ⟨x, y, _, conflict, rfl⟩ := mem_validateEntrypointConflicts.mp reported
      rw [reading_parsed first, reading_parsed second, apart.bindConflict anyIpv4 anyIpv6] at conflict
      contradiction

end

/-- The loopback and the unspecified addresses. -/
def fewAddresses : IpStringToBytes := fun s =>
  if s = ascii "0.0.0.0" then some ⟨List.replicate 4 0, .inl rfl⟩
  else if s = ascii "::" then some ⟨List.replicate 16 0, .inr rfl⟩
  else if s = ascii "::1" ∨ s = ascii "0:0:0:0:0:0:0:1" then
    some ⟨List.replicate 15 0 ++ [1], .inr rfl⟩
  else none

theorem fewAddresses_ipv4 (bytes : IpBytes)
    (found : fewAddresses (ascii "0.0.0.0") = some bytes) : bytes.Unspecified := by
  obtain rfl := Option.some.inj ((if_pos rfl).symm.trans found)
  exact fun byte mem => List.eq_of_mem_replicate mem

theorem fewAddresses_ipv6 (bytes : IpBytes)
    (found : fewAddresses (ascii "::") = some bytes) : bytes.Unspecified := by
  have known : fewAddresses (ascii "::") = some ⟨List.replicate 16 0, .inr rfl⟩ := by
    decide +kernel
  obtain rfl := Option.some.inj (known.symm.trans found)
  exact fun byte mem => List.eq_of_mem_replicate mem

/-- A port on all addresses, and on the loopback address. -/
def sharedPort : List (ℕ × BindValue) := [(0, .text (ascii ":80")), (1, .text (ascii "[::1]:80"))]

theorem sharedPort_detected : ∃ errors,
    validateEntrypointConflicts fewAddresses sharedPort = .ok errors ∧
      ConflictsDetected fewAddresses sharedPort errors := by
  have all : parseElement (.text (ascii ":80")) = .ok (some (.tcp none 80)) := by decide +kernel
  have loopback : parseElement (.text (ascii "[::1]:80")) = .ok (some (.tcp (some (ascii "::1")) 80)) := by
    decide +kernel
  have binds : entrypointBinds sharedPort =
      [(0, .text (ascii ":80")), (1, .text (ascii "[::1]:80"))] := rfl
  apply (conflictsDetected_iff fewAddresses fewAddresses_ipv4 fewAddresses_ipv6 sharedPort ?_).mpr
  · intro x y a b pair first second
    rw [binds] at pair
    have both := List.Sublist.eq_of_length pair rfl
    obtain ⟨rfl, rest⟩ := List.cons.inj both
    rw [all] at first
    obtain rfl := Option.some.inj (Except.ok.inj first)
    exact id
  · intro address mem
    rw [binds] at mem
    rcases List.mem_cons.mp mem with rfl | mem
    · exact ⟨_, all⟩
    · obtain rfl := List.mem_singleton.mp mem
      exact ⟨_, loopback⟩

/-- The loopback address in two spellings, on one port. -/
def twoSpellings : List (ℕ × BindValue) :=
  [(0, .text (ascii "[::1]:80")), (1, .text (ascii "[0:0:0:0:0:0:0:1]:80"))]

theorem twoSpellings_missed : AllParse twoSpellings ∧ ¬ ∃ errors,
    validateEntrypointConflicts fewAddresses twoSpellings = .ok errors ∧
      ConflictsDetected fewAddresses twoSpellings errors := by
  have short : parseElement (.text (ascii "[::1]:80")) =
      .ok (some (.tcp (some (ascii "::1")) 80)) := by decide +kernel
  have long : parseElement (.text (ascii "[0:0:0:0:0:0:0:1]:80")) =
      .ok (some (.tcp (some (ascii "0:0:0:0:0:0:0:1")) 80)) := by decide +kernel
  have binds : entrypointBinds twoSpellings =
      [(0, .text (ascii "[::1]:80")), (1, .text (ascii "[0:0:0:0:0:0:0:1]:80"))] := rfl
  constructor
  · intro address mem
    rw [binds] at mem
    rcases List.mem_cons.mp mem with rfl | mem
    · exact ⟨_, short⟩
    · obtain rfl := List.mem_singleton.mp mem
      exact ⟨_, long⟩
  · rintro ⟨errors, returned, detected⟩
    have none : validateEntrypointConflicts fewAddresses twoSpellings = .ok [] := by decide +kernel
    obtain rfl := Except.ok.inj (none.symm.trans returned)
    have clash : Clash fewAddresses (.tcp (some (ascii "::1")) 80)
        (.tcp (some (ascii "0:0:0:0:0:0:0:1")) 80) :=
      ⟨rfl, _, List.mem_singleton_self _, _, List.mem_singleton_self _,
        ⟨List.replicate 15 0 ++ [1], .inr rfl⟩, ⟨List.replicate 15 0 ++ [1], .inr rfl⟩,
        by decide +kernel, by decide +kernel, rfl, .inl rfl⟩
    have reported := detected.complete (0, .text (ascii "[::1]:80"))
      (1, .text (ascii "[0:0:0:0:0:0:0:1]:80")) _ _ (binds ▸ List.Sublist.refl _) short long clash
    cases reported

end Busker.Addresses
