import Mathlib.Data.List.Basic
import Busker.FixedFinal.Response
import Busker.FixedFinal.Utf8
import Busker.Tickets.Keys

/-! The snapshot of session-ticket keys as stored text, and what is done with the keys it
decodes to. The EDN reader and printer, the hexadecimal digits outside ASCII, and how numbers
that are no integers compare and are written to native memory, are parameters. -/
namespace Busker.Tickets
open Busker.FixedFinal (JavaString IsLong)

/-- A value the EDN reader returns; `other` are characters, symbols, numbers that are no
integers, and tagged values. -/
inductive Edn
  | nil
  | integer (n : ℤ)
  | string (s : JavaString)
  | keyword (name : String)
  | vector (items : List Edn)
  | list (items : List Edn)
  | set (items : List Edn)
  | map (entries : List (Edn × Edn))
  | other (value : ℕ)

/-- The exceptions of decoding: the `ex-info` of `parse-stored-snapshot`, and those of the
functions it calls. The last two are of what is done with decoded keys. -/
inductive DecodeError
  | exInfo (message : String)
  | unreadable
  | unsupported
  | classCast
  | numberFormat
  | illegalArgument
  | indexOutOfBounds
  | nullPointer
  deriving DecidableEq, Repr

/-- The EDN reader and printer, and `Character.digit` in base 16 outside ASCII. -/
structure EdnText where
  readString : JavaString → Except DecodeError Edn
  prStr : Edn → JavaString
  unicodeDigit : UInt16 → Option (Fin 16)
  /-- `>=` of a value that is no integer and a time. -/
  otherAtLeast : ℕ → ℤ → Except DecodeError Bool
  /-- `ffi/write` of a `:long`. -/
  writeLong : Edn → Except DecodeError ℤ
  writeLong_long : ∀ n, IsLong n → writeLong (.integer n) = .ok n

def Edn.isKeyword (name : String) : Edn → Bool
  | .keyword its => its = name
  | _ => false

/-- `get` with a keyword. -/
def Edn.get (name : String) : Edn → Edn
  | .map entries =>
    ((entries.find? fun entry => entry.1.isKeyword name).map Prod.snd).getD .nil
  | .set items => if items.any (Edn.isKeyword name) then .keyword name else .nil
  | _ => .nil

/-- The entries `conj` adds to a map for a value. -/
def Edn.conjEntries : Edn → Except DecodeError (List (Edn × Edn))
  | .nil => .ok []
  | .map entries => .ok entries
  | .vector [key, value] => .ok [(key, value)]
  | .vector _ => .error .illegalArgument
  | .list [] => .ok []
  | .set [] => .ok []
  | .string [] => .ok []
  | .list _ => .error .classCast
  | .set _ => .error .classCast
  | .string _ => .error .classCast
  | _ => .error .illegalArgument

/-- `createAsIfByAssoc`: alternating keys and values, and entries of a last one that is alone.
Later entries are put in front of earlier ones. -/
def asIfByAssoc : List Edn → List (Edn × Edn) → Except DecodeError (List (Edn × Edn))
  | [], entries => .ok entries
  | [trailing], entries => do
    let more ← trailing.conjEntries
    return more ++ entries
  | key :: value :: rest, entries => asIfByAssoc rest ((key, value) :: entries)

/-- What `{:keys [...]}` looks its names up in. -/
def Edn.destructured : Edn → Except DecodeError Edn
  | .list [] => .ok (.map [])
  | .list [only] => .ok only
  | .list items => do
    let entries ← asIfByAssoc items []
    return .map entries
  | value => .ok value

/-- `Character.digit` in base 16. -/
def EdnText.digit (text : EdnText) (c : UInt16) : Option ℕ :=
  if 48 ≤ c.toNat ∧ c.toNat ≤ 57 then some (c.toNat - 48)
  else if 65 ≤ c.toNat ∧ c.toNat ≤ 70 then some (c.toNat - 55)
  else if 97 ≤ c.toNat ∧ c.toNat ≤ 102 then some (c.toNat - 87)
  else if c.toNat < 128 then none
  else (text.unicodeDigit c).map Fin.val

/-- `(unchecked-byte (Integer/parseInt s 16))` for two characters, the first of which may be a
sign. -/
def EdnText.parseByte (text : EdnText) (a b : UInt16) : Except DecodeError UInt8 :=
  if a.toNat = 45 then
    match text.digit b with
    | some low => .ok (UInt8.ofNat (256 - low))
    | none => .error .numberFormat
  else if a.toNat = 43 then
    match text.digit b with
    | some low => .ok (UInt8.ofNat low)
    | none => .error .numberFormat
  else match text.digit a, text.digit b with
    | some high, some low => .ok (UInt8.ofNat (16 * high + low))
    | _, _ => .error .numberFormat

/-- The loop of `hex->bytes`; half a length rounds down, so an odd character is left over. -/
def EdnText.parseBytes (text : EdnText) : JavaString → Except DecodeError (List UInt8)
  | a :: b :: rest => do
    let byte ← text.parseByte a b
    let bytes ← text.parseBytes rest
    return byte :: bytes
  | _ => .ok []

/-- `hex->bytes` of any value: `count` takes nil and collections, `subs` strings only. -/
def EdnText.hexToBytes (text : EdnText) : Edn → Except DecodeError (List UInt8)
  | .nil => .ok []
  | .string s => text.parseBytes s
  | .vector items => if items.length < 2 then .ok [] else .error .classCast
  | .list items => if items.length < 2 then .ok [] else .error .classCast
  | .set items => if items.length < 2 then .ok [] else .error .classCast
  | .map entries => if entries.length < 2 then .ok [] else .error .classCast
  | _ => .error .unsupported

/-- A key as decoded; its bounds are what the text has. -/
structure StoredKey where
  name : List UInt8
  aesKey : List UInt8
  hmacKey : List UInt8
  notBefore : Edn
  notAfter : Edn

structure StoredSnapshot where
  keys : List StoredKey
  lastRotationMs : Option ℤ
  nextRotationMs : Option ℤ

/-- `edn->key` -/
def EdnText.ednToKey (text : EdnText) (item : Edn) : Except DecodeError StoredKey := do
  let fields ← item.destructured
  let name ← text.hexToBytes (fields.get "name")
  let aesKey ← text.hexToBytes (fields.get "aes-key")
  let hmacKey ← text.hexToBytes (fields.get "hmac-key")
  return ⟨name, aesKey, hmacKey, fields.get "not-before", fields.get "not-after"⟩

/-- `>=` of any value and a time. -/
def EdnText.atLeast (text : EdnText) (value : Edn) (nowMs : ℤ) : Except DecodeError Bool :=
  match value with
  | .integer n => .ok (nowMs ≤ n)
  | .other value => text.otherAtLeast value nowMs
  | .nil => .error .nullPointer
  | _ => .error .classCast

/-- `prune-expired-keys` of keys as decoded. -/
def EdnText.pruneExpiredKeys (text : EdnText) (nowMs : ℤ) : List StoredKey → Except DecodeError (List StoredKey)
  | [] => .ok []
  | key :: rest => do
    let live ← text.atLeast key.notAfter nowMs
    let kept ← text.pruneExpiredKeys nowMs rest
    return if live then key :: kept else kept

def aget (bytes : List UInt8) (j : ℕ) : Except DecodeError UInt8 :=
  match bytes[j]? with
  | some byte => .ok byte
  | none => .error .indexOutOfBounds

/-- A `clj_session_ticket_t`: the first bytes of each field, and the bounds. -/
def EdnText.nativeKey (text : EdnText) (key : StoredKey) : Except DecodeError Key := do
  let name ← (List.range 16).mapM (aget key.name)
  let aesKey ← (List.range 32).mapM (aget key.aesKey)
  let hmacKey ← (List.range 64).mapM (aget key.hmacKey)
  let notBefore ← text.writeLong key.notBefore
  let notAfter ← text.writeLong key.notAfter
  return ⟨name, aesKey, hmacKey, notBefore, notAfter⟩

/-- `session-ticket-keys->native-array`: the structs in the order of the keys. -/
def EdnText.sessionTicketKeysToNativeArray (text : EdnText) (keys : List StoredKey) :
    Except DecodeError (List Key) :=
  keys.mapM text.nativeKey

/-- A rotation time, which must be nil or an integer. -/
def rotationTime (message : String) : Edn → Except DecodeError (Option ℤ)
  | .nil => .ok none
  | .integer n => .ok (some n)
  | _ => .error (.exInfo message)

def EdnText.parseStoredSnapshot (text : EdnText) (content : JavaString) :
    Except DecodeError StoredSnapshot := do
  match ← text.readString content with
  | .map entries =>
    match (Edn.map entries).get "keys" with
    | .vector items =>
      let lastRotationMs ← rotationTime "Stored session ticket snapshot has invalid :last-rotation-ms."
        ((Edn.map entries).get "last-rotation-ms")
      let nextRotationMs ← rotationTime "Stored session ticket snapshot has invalid :next-rotation-ms."
        ((Edn.map entries).get "next-rotation-ms")
      let keys ← items.mapM text.ednToKey
      return ⟨keys, lastRotationMs, nextRotationMs⟩
    | _ => .error (.exInfo "Stored session ticket snapshot must contain :keys.")
  | _ => .error (.exInfo "Stored session ticket snapshot must be a map.")

/-- The statuses of `load-keys-result` that come with an exception. -/
inductive LoadStatus
  | corrupt
  | storageError
  deriving DecidableEq, Repr

/-- How reading the storage, or `load-storage-snapshot`, throws; an `ex-info` may carry a
status. -/
inductive LoadFailure
  | noSuchFile
  | exInfo (status : Option LoadStatus)
  | other
  deriving DecidableEq, Repr

def EdnText.loadStorageSnapshot (text : EdnText) :
    Except LoadFailure JavaString → Except LoadFailure (Option StoredSnapshot)
  | .ok content =>
    match text.parseStoredSnapshot content with
    | .ok snapshot => .ok (some snapshot)
    | .error _ => .error (.exInfo (some .corrupt))
  | .error .noSuchFile => .ok none
  | .error (.exInfo status) => .error (.exInfo status)
  | .error .other => .error (.exInfo (some .storageError))

/-- `load-keys-result`: a snapshot or none, or a status. -/
def EdnText.loadKeysResult (text : EdnText) (loaded : Except LoadFailure JavaString) :
    Except LoadStatus (Option StoredSnapshot) :=
  match text.loadStorageSnapshot loaded with
  | .ok snapshot => .ok snapshot
  | .error (.exInfo status) => .error (status.getD .storageError)
  | .error _ => .error .storageError

def hexDigit (n : ℕ) : UInt16 := if n < 10 then UInt16.ofNat (48 + n) else UInt16.ofNat (87 + n)

def bytesToHex (bytes : List UInt8) : JavaString :=
  bytes.flatMap fun byte => [hexDigit (byte.toNat / 16), hexDigit (byte.toNat % 16)]

/-- `key->edn` -/
def Key.toEdn (key : Key) : Edn := .map [
  (.keyword "name", .string (bytesToHex key.name)),
  (.keyword "aes-key", .string (bytesToHex key.aesKey)),
  (.keyword "hmac-key", .string (bytesToHex key.hmacKey)),
  (.keyword "not-before", .integer key.notBefore),
  (.keyword "not-after", .integer key.notAfter)]

def timeToEdn : Option ℤ → Edn
  | none => .nil
  | some n => .integer n

/-- `snapshot->edn` -/
def Snapshot.toEdn (snapshot : Snapshot) : Edn := .map [
  (.keyword "keys", .vector (snapshot.keys.map Key.toEdn)),
  (.keyword "last-rotation-ms", timeToEdn snapshot.lastRotationMs),
  (.keyword "next-rotation-ms", timeToEdn snapshot.nextRotationMs)]

end Busker.Tickets
