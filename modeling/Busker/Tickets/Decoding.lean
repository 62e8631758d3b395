import Mathlib.Tactic.IntervalCases
import Busker.FixedFinal.Response
import Busker.Tickets.StoredSnapshot
import Busker.Unwinding.Results

/-! Which stored snapshots decode to well-formed keys that can be used, and that printed
snapshots decode to what they were. -/
namespace Busker.Tickets
open Busker.FixedFinal (JavaString ascii IsLong)
open Unwinding (bind_eq_ok mapM_eq_ok exists_forall₂ forall₂_right forall₂_left)

/-- A key of the right lengths, with integer bounds. -/
structure StoredKey.WellFormed (key : StoredKey) : Prop where
  name : key.name.length = 16
  aesKey : key.aesKey.length = 32
  hmacKey : key.hmacKey.length = 64
  notBefore : ∃ n, key.notBefore = .integer n
  notAfter : ∃ n, key.notAfter = .integer n

section
variable {text : EdnText}

/-- Two characters `Integer/parseInt` takes: a digit or sign, and a digit. -/
def EdnText.IsPair (text : EdnText) (a b : UInt16) : Prop :=
  (a.toNat = 45 ∨ a.toNat = 43 ∨ (text.digit a).isSome) ∧ (text.digit b).isSome

/-- Pairs of such characters, and at most one character more. -/
inductive EdnText.IsHex (text : EdnText) : JavaString → Prop
  | nil : text.IsHex []
  | odd (c) : text.IsHex [c]
  | pair {a b rest} (valid : text.IsPair a b) (more : text.IsHex rest) : text.IsHex (a :: b :: rest)

/-- A value `hex->bytes` takes. -/
def EdnText.Countable (text : EdnText) : Edn → Prop
  | .nil => True
  | .string s => text.IsHex s
  | .vector items => items.length < 2
  | .list items => items.length < 2
  | .set items => items.length < 2
  | .map entries => entries.length < 2
  | _ => False

/-- A string of so many pairs. -/
def Edn.Bytes (v : Edn) (n : ℕ) : Prop := ∃ s, v = .string s ∧ s.length / 2 = n

/-- An integer that native memory takes as a `long`. -/
def EdnText.Writable (text : EdnText) (v : Edn) : Prop :=
  ∃ n, v = .integer n ∧ ∃ long, text.writeLong (.integer n) = .ok long

/-- The fields of an entry are hexadecimal strings of the right lengths, and integers. -/
structure EdnText.Sized (text : EdnText) (fields : Edn) : Prop where
  name : (fields.get "name").Bytes 16
  aesKey : (fields.get "aes-key").Bytes 32
  hmacKey : (fields.get "hmac-key").Bytes 64
  notBefore : text.Writable (fields.get "not-before")
  notAfter : text.Writable (fields.get "not-after")

/-- An entry of `:keys` on which decoding does not throw. -/
def EdnText.Decodable (text : EdnText) (item : Edn) : Prop :=
  ∃ fields, item.destructured = .ok fields ∧ text.Countable (fields.get "name") ∧
    text.Countable (fields.get "aes-key") ∧ text.Countable (fields.get "hmac-key")

def Edn.IsTime (v : Edn) : Prop := ∃ time, v = timeToEdn time

/-- Content on which decoding does not throw, with its entries. -/
def EdnText.Accepts (text : EdnText) (content : JavaString) (items : List Edn) : Prop :=
  ∃ entries, text.readString content = .ok (.map entries) ∧
    (Edn.map entries).get "keys" = .vector items ∧
    ((Edn.map entries).get "last-rotation-ms").IsTime ∧
    ((Edn.map entries).get "next-rotation-ms").IsTime ∧ ∀ item ∈ items, text.Decodable item

theorem parseByte_returns (a b : UInt16) : (∃ byte, text.parseByte a b = .ok byte) ↔ text.IsPair a b := by
  unfold EdnText.parseByte EdnText.IsPair
  by_cases minus : a.toNat = 45
  · rw [if_pos minus]
    cases text.digit b <;> simp [minus]
  · rw [if_neg minus]
    by_cases plus : a.toNat = 43
    · rw [if_pos plus]
      cases text.digit b <;> simp [plus]
    · rw [if_neg plus]
      cases text.digit a <;> cases text.digit b <;> simp [minus, plus]

theorem parseBytes_cons (a b : UInt16) (rest : JavaString) (bytes : List UInt8) :
    text.parseBytes (a :: b :: rest) = .ok bytes ↔ ∃ byte more, text.parseByte a b = .ok byte ∧
      text.parseBytes rest = .ok more ∧ bytes = byte :: more := by
  rw [EdnText.parseBytes, bind_eq_ok]
  constructor
  · rintro ⟨byte, first, others⟩
    obtain ⟨more, later, same⟩ := bind_eq_ok.mp others
    exact ⟨byte, more, first, later, (Except.ok.inj same).symm⟩
  · rintro ⟨byte, more, first, later, rfl⟩
    exact ⟨byte, first, bind_eq_ok.mpr ⟨more, later, rfl⟩⟩

theorem parseBytes_returns :
    ∀ s : JavaString, (∃ bytes, text.parseBytes s = .ok bytes) ↔ text.IsHex s
  | [] => ⟨fun _ => .nil, fun _ => ⟨[], rfl⟩⟩
  | [c] => ⟨fun _ => .odd c, fun _ => ⟨[], rfl⟩⟩
  | a :: b :: rest => by
      constructor
      · rintro ⟨bytes, parsed⟩
        obtain ⟨byte, more, first, later, -⟩ := (parseBytes_cons a b rest bytes).mp parsed
        exact .pair ((parseByte_returns a b).mp ⟨byte, first⟩) ((parseBytes_returns rest).mp ⟨more, later⟩)
      · intro hex
        cases hex with
        | pair valid more =>
            obtain ⟨byte, first⟩ := (parseByte_returns a b).mpr valid
            obtain ⟨bytes, later⟩ := (parseBytes_returns rest).mpr more
            exact ⟨_, (parseBytes_cons a b rest _).mpr ⟨byte, bytes, first, later, rfl⟩⟩

theorem parseBytes_length :
    ∀ {s : JavaString} {bytes : List UInt8}, text.parseBytes s = .ok bytes → bytes.length = s.length / 2
  | [], _, parsed => by
      obtain rfl := Except.ok.inj parsed
      rfl
  | [c], _, parsed => by
      obtain rfl := Except.ok.inj parsed
      simp
  | a :: b :: rest, bytes, parsed => by
      obtain ⟨byte, more, _, later, rfl⟩ := (parseBytes_cons a b rest bytes).mp parsed
      rw [List.length_cons, parseBytes_length later, List.length_cons, List.length_cons]
      omega

theorem hexToBytes_returns (v : Edn) : (∃ bytes, text.hexToBytes v = .ok bytes) ↔ text.Countable v := by
  have small : ∀ n, (∃ bytes, (if n < 2 then .ok [] else .error .classCast :
      Except DecodeError (List UInt8)) = .ok bytes) ↔ n < 2 := by
    intro n
    by_cases short : n < 2 <;> simp [short]
  cases v with
  | nil => exact ⟨fun _ => trivial, fun _ => ⟨[], rfl⟩⟩
  | string s => exact parseBytes_returns s
  | vector items => exact small items.length
  | list items => exact small items.length
  | set items => exact small items.length
  | map entries => exact small entries.length
  | integer n => simp [EdnText.hexToBytes, EdnText.Countable]
  | keyword name => simp [EdnText.hexToBytes, EdnText.Countable]
  | other value => simp [EdnText.hexToBytes, EdnText.Countable]

/-- Bytes come from a string with a pair for each. -/
theorem hexToBytes_length {v : Edn} {bytes : List UInt8} {n : ℕ} (some_bytes : 0 < n)
    (parsed : text.hexToBytes v = .ok bytes) : bytes.length = n ↔ v.Bytes n := by
  have empty : ∀ items : ℕ, (if items < 2 then .ok [] else .error .classCast :
      Except DecodeError (List UInt8)) = .ok bytes → bytes = [] := by
    intro items same
    split at same
    · exact (Except.ok.inj same).symm
    · cases same
  have none : bytes = [] → (∀ s, v ≠ .string s) → (bytes.length = n ↔ v.Bytes n) := by
    rintro rfl textless
    constructor
    · intro same
      rw [List.length_nil] at same
      omega
    · rintro ⟨s, same, _⟩
      exact (textless s same).elim
  cases v with
  | string s =>
      rw [parseBytes_length parsed]
      constructor
      · exact fun same => ⟨s, rfl, same⟩
      · rintro ⟨_, ⟨⟩, same⟩
        exact same
  | nil => exact none (Except.ok.inj parsed).symm (by simp)
  | vector items => exact none (empty _ parsed) (by simp)
  | list items => exact none (empty _ parsed) (by simp)
  | set items => exact none (empty _ parsed) (by simp)
  | map entries => exact none (empty _ parsed) (by simp)
  | integer n => cases parsed
  | keyword name => cases parsed
  | other value => cases parsed

theorem ednToKey_eq_ok {item : Edn} {key : StoredKey} :
    text.ednToKey item = .ok key ↔ ∃ fields name aesKey hmacKey, item.destructured = .ok fields ∧
      text.hexToBytes (fields.get "name") = .ok name ∧
      text.hexToBytes (fields.get "aes-key") = .ok aesKey ∧
      text.hexToBytes (fields.get "hmac-key") = .ok hmacKey ∧
      key = ⟨name, aesKey, hmacKey, fields.get "not-before", fields.get "not-after"⟩ := by
  unfold EdnText.ednToKey
  simp only [bind_eq_ok]
  constructor
  · rintro ⟨fields, destructured, name, first, aesKey, second, hmacKey, third, same⟩
    exact ⟨fields, name, aesKey, hmacKey, destructured, first, second, third,
      (Except.ok.inj same).symm⟩
  · rintro ⟨fields, name, aesKey, hmacKey, destructured, first, second, third, rfl⟩
    exact ⟨fields, destructured, name, first, aesKey, second, hmacKey, third, rfl⟩

theorem ednToKey_returns (item : Edn) : (∃ key, text.ednToKey item = .ok key) ↔ text.Decodable item := by
  simp only [ednToKey_eq_ok]
  constructor
  · rintro ⟨_, fields, name, aesKey, hmacKey, destructured, first, second, third, _⟩
    exact ⟨fields, destructured, (hexToBytes_returns _).mp ⟨name, first⟩,
      (hexToBytes_returns _).mp ⟨aesKey, second⟩, (hexToBytes_returns _).mp ⟨hmacKey, third⟩⟩
  · rintro ⟨fields, destructured, first, second, third⟩
    obtain ⟨name, first⟩ := (hexToBytes_returns _).mpr first
    obtain ⟨aesKey, second⟩ := (hexToBytes_returns _).mpr second
    obtain ⟨hmacKey, third⟩ := (hexToBytes_returns _).mpr third
    exact ⟨_, fields, name, aesKey, hmacKey, destructured, first, second, third, rfl⟩

/-- `aget` of the first bytes returns if there are so many. -/
theorem aget_returns {bytes : List UInt8} {n : ℕ} :
    (∃ first, (List.range n).mapM (aget bytes) = .ok first) ↔ n ≤ bytes.length := by
  have within {j : ℕ} : (∃ byte, aget bytes j = .ok byte) ↔ j < bytes.length := by
    unfold aget
    by_cases inside : j < bytes.length
    · simp [inside]
    · simp [inside]
  simp only [mapM_eq_ok]
  constructor
  · rintro ⟨first, read⟩
    cases n with
    | zero => exact Nat.zero_le _
    | succ n =>
        obtain ⟨byte, -, same⟩ := forall₂_right read List.self_mem_range_succ
        exact within.mp ⟨byte, same⟩
  · intro enough
    exact exists_forall₂ fun j mem => within.mpr (lt_of_lt_of_le (List.mem_range.mp mem) enough)

/-- A native key can be made of any key with enough bytes and bounds that can be written. -/
theorem nativeKey_returns (key : StoredKey) : (∃ native, text.nativeKey key = .ok native) ↔
    (16 ≤ key.name.length ∧ 32 ≤ key.aesKey.length ∧ 64 ≤ key.hmacKey.length) ∧
      (∃ n, text.writeLong key.notBefore = .ok n) ∧ ∃ n, text.writeLong key.notAfter = .ok n := by
  simp only [← aget_returns, EdnText.nativeKey, bind_eq_ok]
  constructor
  · rintro ⟨native, name, a, aesKey, b, hmacKey, c, notBefore, d, notAfter, e, -⟩
    exact ⟨⟨⟨name, a⟩, ⟨aesKey, b⟩, ⟨hmacKey, c⟩⟩, ⟨notBefore, d⟩, ⟨notAfter, e⟩⟩
  · rintro ⟨⟨⟨name, a⟩, ⟨aesKey, b⟩, ⟨hmacKey, c⟩⟩, ⟨notBefore, d⟩, ⟨notAfter, e⟩⟩
    exact ⟨_, name, a, aesKey, b, hmacKey, c, notBefore, d, notAfter, e, rfl⟩

theorem nativeArray_returns (keys : List StoredKey) :
    (∃ array, text.sessionTicketKeysToNativeArray keys = .ok array) ↔
      ∀ key ∈ keys, ∃ native, text.nativeKey key = .ok native := by
  simp only [EdnText.sessionTicketKeysToNativeArray, mapM_eq_ok]
  constructor
  · rintro ⟨array, built⟩ key mem
    obtain ⟨native, -, same⟩ := forall₂_right built mem
    exact ⟨native, same⟩
  · exact exists_forall₂

/-- Pruning does not throw on keys whose ends are integers. -/
theorem pruneExpiredKeys_returns {keys : List StoredKey} (nowMs : ℤ)
    (integers : ∀ key ∈ keys, ∃ n, key.notAfter = .integer n) :
    ∃ kept, text.pruneExpiredKeys nowMs keys = .ok kept := by
  induction keys with
  | nil => exact ⟨[], rfl⟩
  | cons key rest ih =>
      obtain ⟨⟨n, first⟩, others⟩ := List.forall_mem_cons.mp integers
      obtain ⟨kept, later⟩ := ih others
      refine ⟨_, bind_eq_ok.mpr ⟨nowMs ≤ n, ?_, bind_eq_ok.mpr ⟨kept, later, rfl⟩⟩⟩
      rw [first]
      rfl

/-- A decoded key is well formed and can be written exactly if the fields of its entry are
sized. -/
theorem wellFormed_iff {item fields : Edn} {key : StoredKey} (decoded : text.ednToKey item = .ok key)
    (destructured : item.destructured = .ok fields) :
    (key.WellFormed ∧ ∃ native, text.nativeKey key = .ok native) ↔ text.Sized fields := by
  obtain ⟨other, name, aesKey, hmacKey, same, first, second, third, rfl⟩ := ednToKey_eq_ok.mp decoded
  obtain rfl := Except.ok.inj (destructured.symm.trans same)
  have sixteen := hexToBytes_length (n := 16) (by decide) first
  have thirtyTwo := hexToBytes_length (n := 32) (by decide) second
  have sixtyFour := hexToBytes_length (n := 64) (by decide) third
  rw [nativeKey_returns]
  constructor
  · rintro ⟨⟨a, b, c, ⟨n, d⟩, ⟨m, e⟩⟩, -, f, g⟩
    dsimp only at d e f g
    rw [d] at f
    rw [e] at g
    exact ⟨sixteen.mp a, thirtyTwo.mp b, sixtyFour.mp c, ⟨n, d, f⟩, ⟨m, e, g⟩⟩
  · rintro ⟨a, b, c, ⟨n, d, f⟩, ⟨m, e, g⟩⟩
    have lengths := And.intro (sixteen.mpr a) (And.intro (thirtyTwo.mpr b) (sixtyFour.mpr c))
    rw [← d] at f
    rw [← e] at g
    exact ⟨⟨lengths.1, lengths.2.1, lengths.2.2, ⟨n, d⟩, ⟨m, e⟩⟩,
      ⟨lengths.1.ge, lengths.2.1.ge, lengths.2.2.ge⟩, f, g⟩

theorem rotationTime_eq_ok {message : String} {v : Edn} {time : Option ℤ} :
    rotationTime message v = .ok time ↔ v = timeToEdn time := by
  cases time <;> cases v <;> simp [rotationTime, timeToEdn]

/-- Decoding returns the keys of the entries, and the times. -/
theorem parseStoredSnapshot_eq_ok {content : JavaString} {snapshot : StoredSnapshot} :
    text.parseStoredSnapshot content = .ok snapshot ↔ ∃ entries items,
      text.readString content = .ok (.map entries) ∧ (Edn.map entries).get "keys" = .vector items ∧
        (Edn.map entries).get "last-rotation-ms" = timeToEdn snapshot.lastRotationMs ∧
        (Edn.map entries).get "next-rotation-ms" = timeToEdn snapshot.nextRotationMs ∧
        List.Forall₂ (fun item key => text.ednToKey item = .ok key) items snapshot.keys := by
  unfold EdnText.parseStoredSnapshot
  rw [bind_eq_ok]
  constructor
  · rintro ⟨data, read, parsed⟩
    split at parsed
    · rename_i entries
      split at parsed
      · rename_i items vector
        simp only [bind_eq_ok, rotationTime_eq_ok, mapM_eq_ok] at parsed
        obtain ⟨last, lastTime, next, nextTime, keys, decoded, same⟩ := parsed
        obtain rfl := Except.ok.inj same
        exact ⟨entries, items, read, vector, lastTime, nextTime, decoded⟩
      · cases parsed
    · cases parsed
  · rintro ⟨entries, items, read, vector, last, next, decoded⟩
    refine ⟨_, read, ?_⟩
    simp only [vector, bind_eq_ok, rotationTime_eq_ok, mapM_eq_ok]
    exact ⟨_, last, _, next, _, decoded, rfl⟩

/-- What is wanted of decoding stored content: if it decodes, the keys are well formed, the
native array can be built of them, and they can be pruned at any time. If it does not, the load
is corrupt. -/
structure EdnText.Decodes (text : EdnText) (content : JavaString) : Prop where
  wellFormed : ∀ snapshot, text.parseStoredSnapshot content = .ok snapshot →
    ∀ key ∈ snapshot.keys, key.WellFormed
  built : ∀ snapshot, text.parseStoredSnapshot content = .ok snapshot →
    ∃ array, text.sessionTicketKeysToNativeArray snapshot.keys = .ok array
  pruned : ∀ snapshot, text.parseStoredSnapshot content = .ok snapshot →
    ∀ nowMs, ∃ kept, text.pruneExpiredKeys nowMs snapshot.keys = .ok kept
  reported : ∀ error, text.parseStoredSnapshot content = .error error →
    text.loadKeysResult (.ok content) = .error .corrupt

/-- The entries of content that decodes are sized. -/
def EdnText.WellSized (text : EdnText) (content : JavaString) : Prop :=
  ∀ items, text.Accepts content items → ∀ item ∈ items, ∀ fields, item.destructured = .ok fields →
    text.Sized fields

theorem decodes_iff (text : EdnText) (content : JavaString) :
    text.Decodes content ↔ text.WellSized content := by
  constructor
  · rintro decodes items ⟨entries, read, vector, ⟨last, lastTime⟩, ⟨next, nextTime⟩, decodable⟩
      item mem fields destructured
    obtain ⟨keys, decoded⟩ := exists_forall₂ fun item mem =>
      (ednToKey_returns item).mpr (decodable item mem)
    have parsed : text.parseStoredSnapshot content = .ok ⟨keys, last, next⟩ :=
      parseStoredSnapshot_eq_ok.mpr ⟨entries, items, read, vector, lastTime, nextTime, decoded⟩
    obtain ⟨key, mem', same⟩ := forall₂_right decoded mem
    exact (wellFormed_iff same destructured).mp
      ⟨decodes.wellFormed _ parsed key mem', (nativeArray_returns keys).mp (decodes.built _ parsed) key mem'⟩
  · intro sized
    have usable : ∀ snapshot, text.parseStoredSnapshot content = .ok snapshot →
        ∀ key ∈ snapshot.keys, key.WellFormed ∧ ∃ native, text.nativeKey key = .ok native := by
      intro snapshot parsed key mem
      obtain ⟨entries, items, read, vector, lastTime, nextTime, decoded⟩ :=
        parseStoredSnapshot_eq_ok.mp parsed
      obtain ⟨item, mem', same⟩ := forall₂_left decoded mem
      have accepts : text.Accepts content items := by
        refine ⟨entries, read, vector, ⟨_, lastTime⟩, ⟨_, nextTime⟩, ?_⟩
        intro other others
        obtain ⟨key, _, same⟩ := forall₂_right decoded others
        exact (ednToKey_returns other).mp ⟨key, same⟩
      obtain ⟨fields, _, _, _, destructured, _⟩ := ednToKey_eq_ok.mp same
      exact (wellFormed_iff same destructured).mpr (sized items accepts item mem' fields destructured)
    constructor
    · exact fun snapshot parsed key mem => (usable snapshot parsed key mem).1
    · intro snapshot parsed
      exact (nativeArray_returns _).mpr fun key mem => (usable snapshot parsed key mem).2
    · intro snapshot parsed nowMs
      exact pruneExpiredKeys_returns nowMs fun key mem => (usable snapshot parsed key mem).1.notAfter
    · intro error failed
      have load : text.loadStorageSnapshot (.ok content) = .error (.exInfo (some .corrupt)) := by
        rw [EdnText.loadStorageSnapshot, failed]
      rw [EdnText.loadKeysResult, load]
      rfl

theorem digit_hexDigit {n : ℕ} (small : n < 16) : text.digit (hexDigit n) = some n := by
  interval_cases n <;> rfl

theorem hexDigit_unsigned {n : ℕ} (small : n < 16) :
    (hexDigit n).toNat ≠ 45 ∧ (hexDigit n).toNat ≠ 43 := by
  interval_cases n <;> decide

theorem parseByte_hexDigits (byte : UInt8) :
    text.parseByte (hexDigit (byte.toNat / 16)) (hexDigit (byte.toNat % 16)) = .ok byte := by
  have bound := byte.toNat_lt
  have high : byte.toNat / 16 < 16 := by omega
  have low : byte.toNat % 16 < 16 := by omega
  obtain ⟨minus, plus⟩ := hexDigit_unsigned high
  unfold EdnText.parseByte
  rw [if_neg minus, if_neg plus, digit_hexDigit high, digit_hexDigit low]
  simp only [Nat.div_add_mod, UInt8.ofNat_toNat]

theorem parseBytes_bytesToHex (bytes : List UInt8) :
    text.parseBytes (bytesToHex bytes) = .ok bytes := by
  induction bytes with
  | nil => rfl
  | cons byte rest ih =>
      exact (parseBytes_cons _ _ _ _).mpr ⟨byte, rest, parseByte_hexDigits byte, ih, rfl⟩

/-- A key as it is decoded. -/
def Key.stored (key : Key) : StoredKey :=
  ⟨key.name, key.aesKey, key.hmacKey, .integer key.notBefore, .integer key.notAfter⟩

def Snapshot.stored (snapshot : Snapshot) : StoredSnapshot :=
  ⟨snapshot.keys.map Key.stored, snapshot.lastRotationMs, snapshot.nextRotationMs⟩

theorem ednToKey_toEdn (key : Key) : text.ednToKey key.toEdn = .ok key.stored :=
  ednToKey_eq_ok.mpr ⟨key.toEdn, key.name, key.aesKey, key.hmacKey, rfl,
    parseBytes_bytesToHex key.name, parseBytes_bytesToHex key.aesKey,
    parseBytes_bytesToHex key.hmacKey, rfl⟩

/-- Printed snapshots are read back, if the reader reads what was printed. -/
theorem parseStoredSnapshot_prStr (snapshot : Snapshot)
    (reads : text.readString (text.prStr snapshot.toEdn) = .ok snapshot.toEdn) :
    text.parseStoredSnapshot (text.prStr snapshot.toEdn) = .ok snapshot.stored := by
  apply parseStoredSnapshot_eq_ok.mpr
  refine ⟨_, snapshot.keys.map Key.toEdn, reads, rfl, rfl, rfl, ?_⟩
  unfold Snapshot.stored
  rw [List.forall₂_map_left_iff, List.forall₂_map_right_iff, List.forall₂_same]
  exact fun key _ => ednToKey_toEdn key

/-- Pruning stored keys is pruning the keys. -/
theorem pruneExpiredKeys_stored (keys : List Key) (nowMs : ℤ) :
    text.pruneExpiredKeys nowMs (keys.map Key.stored) =
      .ok ((pruneExpiredKeys keys nowMs).map Key.stored) := by
  induction keys with
  | nil => rfl
  | cons key rest ih =>
      refine bind_eq_ok.mpr ⟨nowMs ≤ key.notAfter, rfl, bind_eq_ok.mpr ⟨_, ih, ?_⟩⟩
      by_cases live : nowMs ≤ key.notAfter <;> simp [pruneExpiredKeys, live] <;> rfl

theorem aget_eq_ok {bytes : List UInt8} {n : ℕ} (length : bytes.length = n) :
    (List.range n).mapM (aget bytes) = .ok bytes := by
  rw [mapM_eq_ok, ← length, List.forall₂_iff_get]
  refine ⟨List.length_range, fun j first second => ?_⟩
  simp [aget, List.getElem?_eq_getElem second]

/-- A key of the right lengths whose bounds longs hold. -/
structure Key.Fits (key : Key) : Prop where
  name : key.name.length = 16
  aesKey : key.aesKey.length = 32
  hmacKey : key.hmacKey.length = 64
  notBefore : IsLong key.notBefore
  notAfter : IsLong key.notAfter

/-- The native array of stored keys has the keys. -/
theorem nativeArray_stored {keys : List Key} (fits : ∀ key ∈ keys, key.Fits) :
    text.sessionTicketKeysToNativeArray (keys.map Key.stored) = .ok keys := by
  rw [EdnText.sessionTicketKeysToNativeArray, mapM_eq_ok, List.forall₂_map_left_iff, List.forall₂_same]
  intro key mem
  have each := fits key mem
  refine bind_eq_ok.mpr ⟨_, aget_eq_ok each.name, bind_eq_ok.mpr ⟨_, aget_eq_ok each.aesKey, ?_⟩⟩
  refine bind_eq_ok.mpr ⟨_, aget_eq_ok each.hmacKey, ?_⟩
  refine bind_eq_ok.mpr ⟨_, text.writeLong_long _ each.notBefore, ?_⟩
  exact bind_eq_ok.mpr ⟨_, text.writeLong_long _ each.notAfter, rfl⟩

end

/-- Content is decoded to keys that are well formed and can be used, or not at all, exactly if
its entries are sized, and what was printed is decoded to the snapshot it was printed from. -/
theorem storedSnapshot_decodes (text : EdnText) (content : JavaString) :
    (text.Decodes content ↔ text.WellSized content) ∧
      ∀ snapshot : Snapshot,
        text.readString (text.prStr snapshot.toEdn) = .ok snapshot.toEdn →
          text.parseStoredSnapshot (text.prStr snapshot.toEdn) = .ok snapshot.stored ∧
          (∀ nowMs, text.pruneExpiredKeys nowMs snapshot.stored.keys =
            .ok ((pruneExpiredKeys snapshot.keys nowMs).map Key.stored)) ∧
          ((∀ key ∈ snapshot.keys, key.Fits) →
            text.sessionTicketKeysToNativeArray snapshot.stored.keys = .ok snapshot.keys) :=
  ⟨decodes_iff text content, fun snapshot reads => ⟨parseStoredSnapshot_prStr snapshot reads,
    pruneExpiredKeys_stored snapshot.keys, nativeArray_stored⟩⟩

/-- A reader of one snapshot, with an empty map for a key. -/
def emptyKeyText : EdnText where
  readString content :=
    if content = ascii "\x7b:keys [\x7b\x7d]\x7d" then
      .ok (.map [(.keyword "keys", .vector [.map []])])
    else .error .unreadable
  prStr _ := []
  unicodeDigit _ := none
  otherAtLeast _ _ := .error .classCast
  writeLong
    | .integer n => if IsLong n then .ok n else .error .illegalArgument
    | _ => .error .classCast
  writeLong_long _ long := if_pos long

theorem emptyKey_decoded : ¬ ∀ (text : EdnText) (content : JavaString), text.Decodes content := by
  intro decodes
  have parsed : emptyKeyText.parseStoredSnapshot (ascii "\x7b:keys [\x7b\x7d]\x7d") =
      .ok ⟨[⟨[], [], [], .nil, .nil⟩], none, none⟩ := rfl
  have formed := (decodes emptyKeyText _).wellFormed _ parsed _ List.mem_cons_self
  exact absurd formed.name (by decide)

end Busker.Tickets
