import Busker.Addresses.Text

/-! Bind addresses of the configuration: parsing one, and validating the `:bind` of an
entrypoint. -/
namespace Busker.Addresses
open Busker.FixedFinal (JavaString ascii)

/-- A parsed bind address. A nil address stands for all of them. -/
inductive Bind
  | tcp (address : Option JavaString) (port : ℕ)
  | unix (path : JavaString)
  deriving DecidableEq, Repr

/-- `Long/parseLong` on digits. -/
def longParseLong (digits : JavaString) : Except Thrown ℕ :=
  if decimalValue digits ≤ longMax then .ok (decimalValue digits) else .error .numberFormat

/-- `port-string?` -/
def isPortString (s : JavaString) : Except Thrown Bool :=
  if matchesDigits s then do
    let port ← longParseLong s
    return 1 ≤ port && port ≤ 65535
  else .ok false

/-- `parse-port` of the configuration. -/
def parseBindPort (s : JavaString) : Except Thrown (Option ℕ) := do
  if ← isPortString s then
    let port ← longParseLong s
    return some port
  else return none

/-- `\[([^\]]+)\]:(\d+)` with its two groups. -/
def matchBracketBind : JavaString → Option (JavaString × JavaString)
  | [] => none
  | first :: rest =>
    let host := rest.takeWhile fun c => c != unit ']'
    if first = unit '[' ∧ host ≠ [] then
      match rest.dropWhile fun c => c != unit ']' with
      | _ :: colon :: port =>
        if colon = unit ':' ∧ matchesDigits port then some (host, port) else none
      | _ => none
    else none

def parseTcpBindAddress (s : JavaString) : Except Thrown (Option Bind) :=
  if s.head? = some (unit ':') then do
    let port ← parseBindPort (s.drop 1)
    return port.map (Bind.tcp none)
  else if s.head? = some (unit '[') then
    match matchBracketBind s with
    | some (host, port) => do
      let port ← parseBindPort port
      return port.map (Bind.tcp (some host))
    | none => .ok none
  else match lastIndexOf (unit ':') s with
    | none => .ok none
    | some idx =>
      let host := s.take idx
      if 0 < idx ∧ isBlank host = false ∧ ¬ host.contains (unit ':') then do
        let port ← parseBindPort (s.drop (idx + 1))
        return port.map (Bind.tcp (some host))
      else .ok none

/-- What `.` does not match. -/
def isLineBreak (c : UInt16) : Bool :=
  c.toNat == 10 || c.toNat == 13 || c.toNat == 0x85 || c.toNat == 0x2028 || c.toNat == 0x2029

/-- `unix:/.+` or `unix:@.+` -/
def matchesUnix (s : JavaString) : Bool :=
  let rest := s.drop 6
  (s.take 6 = ascii "unix:/" || s.take 6 = ascii "unix:@") && rest ≠ [] &&
    rest.all fun c => !isLineBreak c

def parseUnixBindAddress (s : JavaString) : Option Bind :=
  if matchesUnix s then some (.unix (s.drop 5)) else none

def parseBindAddress (s : JavaString) : Except Thrown (Option Bind) := do
  match ← parseTcpBindAddress s with
  | some bind => return some bind
  | none => return parseUnixBindAddress s

/-- `bind-address?` -/
def isBindAddress (s : JavaString) : Except Thrown Bool := do
  let parsed ← parseBindAddress s
  return parsed.isSome

/-- An element of a `:bind` vector; a value that is no string is told by its class, which nil
has none. -/
inductive Element
  | text (s : JavaString)
  | other (className : Option String)
  deriving DecidableEq, Repr

/-- The value of `:bind`. -/
inductive BindValue
  | text (s : JavaString)
  | vector (elements : List Element)
  | other
  deriving DecidableEq, Repr

def bindValues : BindValue → Option (List Element)
  | .text s => some [.text s]
  | .vector elements => some elements
  | .other => none

inductive BindErrorKind
  | bindAddressType (className : String)
  | bindAddressBlank
  | bindAddressInvalid
  | bindType
  | bindEmpty
  deriving DecidableEq, Repr

/-- The message of an error of `validate-bind`. -/
def BindErrorKind.msg : BindErrorKind → String
  | .bindAddressType _ => "Bind address must be a string."
  | .bindAddressBlank => "Bind address must not be blank."
  | .bindAddressInvalid => "Bind address must be a valid address string."
  | .bindType => "Bind must be a string or vector of strings."
  | .bindEmpty => "Bind must include at least one address."

/-- An error with its data: the entrypoint, the offending address with its index, or the
value of `:bind`. -/
structure EntrypointError (ε : Type) where
  error : BindErrorKind
  entrypoint : ε
  bind : Element ⊕ BindValue
  index : Option ℕ

section
variable {ε : Type}

def validateBindAddress (errors : List (EntrypointError ε)) (entrypointId : ε) (idx : ℕ) :
    Element → Except Thrown (List (EntrypointError ε))
  | .other none => .error .nullPointer
  | .other (some className) =>
    .ok (errors ++
      [⟨.bindAddressType className, entrypointId, .inl (.other className), some idx⟩])
  | .text addr =>
    if isBlank addr then
      .ok (errors ++ [⟨.bindAddressBlank, entrypointId, .inl (.text addr), some idx⟩])
    else do
      if ← isBindAddress addr then return errors
      else return errors ++ [⟨.bindAddressInvalid, entrypointId, .inl (.text addr), some idx⟩]

/-- The `reduce-kv` over the addresses, from an index on. -/
def validateBindAddresses (entrypointId : ε) :
    List Element → ℕ → List (EntrypointError ε) → Except Thrown (List (EntrypointError ε))
  | [], _, errors => .ok errors
  | addr :: rest, idx, errors => do
    let errors ← validateBindAddress errors entrypointId idx addr
    validateBindAddresses entrypointId rest (idx + 1) errors

def validateBind (errors : List (EntrypointError ε)) (entrypointId : ε) (bind : BindValue) :
    Except Thrown (List (EntrypointError ε)) :=
  match bindValues bind with
  | none => .ok (errors ++ [⟨.bindType, entrypointId, .inr bind, none⟩])
  | some [] => .ok (errors ++ [⟨.bindEmpty, entrypointId, .inr bind, none⟩])
  | some binds => validateBindAddresses entrypointId binds 0 errors

end

/-- How `parse-bind` ends without binds: its own error, with a message and the value it is
about, or an exception of a callee. -/
inductive ParseBindError
  | exInfo (message : String) (bind : Element ⊕ BindValue)
  | thrown (exception : Thrown)
  deriving DecidableEq, Repr

/-- An address of `parse-bind`; a value that is no string parses to nil. -/
def parseBindElement (addr : Element) : Except ParseBindError Bind :=
  let parsed := match addr with
    | .text s => parseBindAddress s
    | .other _ => .ok none
  match parsed with
  | .error exception => .error (.thrown exception)
  | .ok none => .error (.exInfo "Invalid bind address." (.inl addr))
  | .ok (some bind) => .ok bind

def parseBind (bind : BindValue) : Except ParseBindError (List Bind) :=
  match bindValues bind with
  | none => .error (.exInfo "Invalid :bind value." (.inr bind))
  | some [] => .error (.exInfo "Bind must include at least one address." (.inr bind))
  | some binds => binds.mapM parseBindElement

end Busker.Addresses
