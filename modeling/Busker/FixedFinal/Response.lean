import Mathlib.Data.Nat.Digits.Defs
import Busker.FixedFinal.Utf8

/-! Responses as a handler returns them, with the header lookups both delivery
paths use. What Java knows about characters and charsets is a parameter. -/
namespace Busker.FixedFinal

/-- An ASCII text as a Java string. -/
def ascii (text : String) : JavaString :=
  text.toList.map fun character => UInt16.ofNat character.toNat

def asciiUpper (character : UInt16) : UInt16 :=
  if 97 ≤ character.toNat ∧ character.toNat ≤ 122 then character - 32 else character

def asciiLower (character : UInt16) : UInt16 :=
  if 65 ≤ character.toNat ∧ character.toNat ≤ 90 then character + 32 else character

/-- A charset `Charset/forName` may return; only UTF-8 is told apart. -/
inductive Charset where
  | utf8
  | other (index : ℕ)
  deriving DecidableEq, Repr

/-- The Unicode tables and the charsets of the Java runtime. -/
structure JavaText where
  /-- `Character.toUpperCase` -/
  toUpperCase : UInt16 → UInt16
  /-- `Character.toLowerCase` -/
  toLowerCase : UInt16 → UInt16
  /-- `String.toLowerCase` in the root locale. -/
  lowerString : JavaString → JavaString
  /-- `Character.digit` in base 10, outside ASCII. -/
  unicodeDigit : UInt16 → Option (Fin 10)
  /-- `Charset/forName`; an unknown or illegal name throws. -/
  forName : JavaString → Option Charset
  /-- `String.getBytes` for a charset other than UTF-8. -/
  encode : ℕ → JavaString → List UInt8
  /-- `find-content-type-charset`, a regular expression over the content type. -/
  contentTypeCharset : JavaString → Option JavaString
  upper_ascii : ∀ c, c.toNat < 128 → toUpperCase c = asciiUpper c
  lower_ascii : ∀ c, c.toNat < 128 → toLowerCase c = asciiLower c
  /-- Outside ASCII only dotless i and long s have an ASCII upper case. -/
  upper_other : ∀ c, 128 ≤ c.toNat →
    128 ≤ (toUpperCase c).toNat ∨ toUpperCase c = 73 ∨ toUpperCase c = 83
  /-- Outside ASCII only the Kelvin sign and dotted I have an ASCII lower case. -/
  lower_other : ∀ c, 128 ≤ c.toNat →
    128 ≤ (toLowerCase c).toNat ∨ toLowerCase c = 107 ∨ toLowerCase c = 105
  lowerString_ascii : ∀ s, (∀ c ∈ s, c.toNat < 128) → lowerString s = s.map asciiLower
  lowerString_other : ∀ s, (∃ c ∈ s, 128 ≤ c.toNat) →
    ∃ c ∈ lowerString s, 128 ≤ c.toNat ∨ c = 107 ∨ c = 105
  forName_utf8 : forName (ascii "utf-8") = some .utf8

/-- A runtime that knows ASCII and UTF-8 only. -/
def asciiText : JavaText where
  toUpperCase := asciiUpper
  toLowerCase := asciiLower
  lowerString := List.map asciiLower
  unicodeDigit _ := none
  forName name := if name = ascii "utf-8" then some .utf8 else none
  encode _ value := utf8Bytes value
  contentTypeCharset _ := none
  upper_ascii _ _ := rfl
  lower_ascii _ _ := rfl
  upper_other c wide := by
    left
    rw [asciiUpper, if_neg (by omega)]
    exact wide
  lower_other c wide := by
    left
    rw [asciiLower, if_neg (by omega)]
    exact wide
  lowerString_ascii _ _ := rfl
  lowerString_other s := by
    rintro ⟨c, mem, wide⟩
    have kept : asciiLower c = c := by rw [asciiLower, if_neg (by omega)]
    exact ⟨c, List.mem_map.mpr ⟨c, mem, kept⟩, Or.inl wide⟩
  forName_utf8 := if_pos rfl

def getBytes (java : JavaText) (charset : Charset) (value : JavaString) : List UInt8 :=
  match charset with
  | .utf8 => utf8Bytes value
  | .other index => java.encode index value

/-- How a call ends other than by returning. -/
inductive Failure where
  | exInfo (message : String) (data : List (String × ℕ))
  | classCast
  | numberFormat
  | indexOutOfBounds
  | intOutOfRange
  | unsupportedEncoding
  | outOfMemory
  deriving DecidableEq, Repr

/-- `String.equalsIgnoreCase`, character by character. -/
def sameIgnoringCase (java : JavaText) (a b : UInt16) : Bool :=
  a == b || java.toUpperCase a == java.toUpperCase b ||
    java.toLowerCase (java.toUpperCase a) == java.toLowerCase (java.toUpperCase b)

def equalsIgnoreCase (java : JavaText) : JavaString → JavaString → Bool
  | [], [] => true
  | a :: as, b :: bs => sameIgnoringCase java a b && equalsIgnoreCase java as bs
  | _, _ => false

/-- `Character.digit` in base 10. -/
def digit (java : JavaText) (character : UInt16) : Option ℕ :=
  if 48 ≤ character.toNat ∧ character.toNat ≤ 57 then some (character.toNat - 48)
  else if character.toNat < 128 then none
  else (java.unicodeDigit character).map Fin.val

def parseDigits (java : JavaText) : JavaString → ℕ → Option ℕ
  | [], n => some n
  | character :: rest, n =>
    match digit java character with
    | none => none
    | some d => parseDigits java rest (n * 10 + d)

/-- A value that fits a Java `long`. -/
def IsLong (n : ℤ) : Prop := -9223372036854775808 ≤ n ∧ n ≤ 9223372036854775807

instance (n : ℤ) : Decidable (IsLong n) :=
  inferInstanceAs (Decidable (-9223372036854775808 ≤ n ∧ n ≤ 9223372036854775807))

def asLong (n : ℤ) : Option ℤ := if IsLong n then some n else none

/-- `Long/parseLong`: an optional sign, then at least one digit. -/
def parseLong (java : JavaText) : JavaString → Option ℤ
  | [] => none
  | first :: rest =>
    if first = 45 then
      if rest = [] then none
      else (parseDigits java rest 0).bind fun n => asLong (-(n : ℤ))
    else if first = 43 then
      if rest = [] then none
      else (parseDigits java rest 0).bind fun n => asLong (n : ℤ)
    else (parseDigits java (first :: rest) 0).bind fun n => asLong (n : ℤ)

/-- What `str` prints for a natural number. -/
def decimal (n : ℕ) : JavaString :=
  if n = 0 then [48] else (Nat.digits 10 n).reverse.map fun d => UInt16.ofNat (48 + d)

/-- A header value. Numbers come with `long`'s result, the others with what `str` prints. -/
inductive HeaderValue where
  | nil
  | bool (value : Bool)
  | number (long : Option ℤ) (printed : JavaString)
  | text (value : JavaString)
  | sequence (items : List JavaString)
  | other (printed : JavaString)
  deriving DecidableEq, Repr

/-- `str` of a value that is not sequential. -/
def HeaderValue.str : HeaderValue → JavaString
  | .nil => []
  | .bool true => ascii "true"
  | .bool false => ascii "false"
  | .number _ printed => printed
  | .text value => value
  | .sequence items => items.flatten
  | .other printed => printed

/-- Nil and false are the values a Clojure `if` does not take. -/
def HeaderValue.truthy : HeaderValue → Bool
  | .nil => false
  | .bool value => value
  | _ => true

/-- The entries of a header map in iteration order. -/
abbrev Headers := List (JavaString × HeaderValue)

inductive FixedBody where
  | text (value : JavaString)
  | bytes (value : List UInt8)
  deriving DecidableEq, Repr

inductive CompressHint where
  | auto | disable | enable | enableGzip | enableBr | enableZstd
  deriving DecidableEq, Repr

def CompressHint.value : CompressHint → ℤ
  | .auto => 0
  | .disable => 1
  | .enable => 2
  | .enableGzip => 3
  | .enableBr => 4
  | .enableZstd => 5

/-- A response map, whose header map has each name once. `body` is none for a body that
is neither a string nor a byte array, `compressHint` for a missing or unknown hint. -/
structure Response where
  status : Option ℤ
  headers : Headers
  body : Option FixedBody
  compressHint : Option CompressHint
  distinct : (headers.map Prod.fst).Nodup

def getCompressHint (response : Response) : CompressHint :=
  response.compressHint.getD .enable

/-- `find-header`: the first entry whose name matches ignoring case. -/
def findHeader (java : JavaText) (headers : Headers) (name : JavaString) :
    Option (JavaString × HeaderValue) :=
  headers.find? fun entry => equalsIgnoreCase java name entry.1

def getHeader (java : JavaText) (headers : Headers) (name : JavaString) :
    Option HeaderValue :=
  (findHeader java headers name).map Prod.snd

/-- The header value `get-charset` looks at. -/
def contentType (java : JavaText) (headers : Headers) : Option HeaderValue :=
  match headers.find? fun entry => entry.1 == ascii "content-type" with
  | some entry => some entry.2
  | none => getHeader java headers (ascii "Content-Type")

/-- The charset a content type names; the regular expression only takes strings. -/
def namedCharset (java : JavaText) : Option HeaderValue → Except Failure (Option JavaString)
  | none | some .nil => .ok none
  | some (.text value) => .ok (java.contentTypeCharset value)
  | some _ => .error .classCast

/-- `get-charset` -/
def getCharset (java : JavaText) (headers : Headers) :
    Except Failure (Option JavaString) :=
  namedCharset java (contentType java headers)

/-- The live request a response belongs to, with its generation's configuration. -/
structure Request where
  dispatchModuleId : ℕ
  dispatchRequestSeq : ℕ
  outputBufferSize : ℤ
  compressMinSize : Option ℤ
  deriving DecidableEq, Repr

/-- A dispatched request: the native registration refuses zero identifiers. -/
structure Request.Dispatched (req : Request) : Prop where
  moduleId_pos : 0 < req.dispatchModuleId
  moduleId_word : req.dispatchModuleId < 2 ^ 64
  requestSeq_pos : 0 < req.dispatchRequestSeq
  requestSeq_word : req.dispatchRequestSeq < 2 ^ 64

end Busker.FixedFinal
