import Busker.Addresses.Text

/-! The server name and port a request is given, from its `:authority` or `Host` value. -/
namespace Busker.Addresses
open Busker.FixedFinal (JavaString ascii)

/-- `parse-ip/ip-string->bytes` -/
abbrev ParseIp := JavaString → Option (List UInt8)

structure AuthorityResult where
  serverName : JavaString
  serverPort : ℕ
  deriving DecidableEq, Repr

/-- `parse-long` on digits; nil beyond the range of a `long`. -/
def parseLong (digits : JavaString) : Option ℕ :=
  if decimalValue digits ≤ longMax then some (decimalValue digits) else none

/-- `parse-port`. Comparing nil with a number throws. -/
def parsePort (portStr : JavaString) : Except Thrown (Option ℕ) :=
  if matchesDigits portStr then
    match parseLong portStr with
    | none => .error .nullPointer
    | some port => .ok (if port ≤ 65535 then some port else none)
  else .ok none

def isHexDigit (c : UInt16) : Bool :=
  isDigit c || (65 ≤ c.toNat && c.toNat ≤ 70) || (97 ≤ c.toNat && c.toNat ≤ 102)

/-- `[A-Za-z0-9._~!$&'()*+,;=-]` -/
def isNameUnit (c : UInt16) : Bool :=
  isDigit c || (65 ≤ c.toNat && c.toNat ≤ 90) || (97 ≤ c.toNat && c.toNat ≤ 122) ||
    (ascii "._~!$&'()*+,;=-").contains c

/-- `(?:[A-Za-z0-9._~!$&'()*+,;=-]|%[0-9A-Fa-f]{2})*` -/
def matchesNameUnits : JavaString → Bool
  | [] => true
  | c :: rest =>
    if isNameUnit c then matchesNameUnits rest
    else match rest with
      | a :: b :: more => c = unit '%' && isHexDigit a && isHexDigit b && matchesNameUnits more
      | _ => false

/-- `re-reg-name` -/
def matchesRegName (host : JavaString) : Bool := host ≠ [] && matchesNameUnits host

/-- `re-ipvfuture` -/
def matchesIpvfuture : JavaString → Bool
  | [] => false
  | v :: rest =>
    let version := rest.takeWhile isHexDigit
    (v = unit 'v' || v = unit 'V') && version ≠ [] &&
      match rest.dropWhile isHexDigit with
      | [] => false
      | dot :: address =>
        dot = unit '.' && address ≠ [] && address.all fun c => isNameUnit c || c = unit ':'

def validIpv6Literal (ipStringToBytes : ParseIp) (host : JavaString) : Bool :=
  !host.contains (unit '%') && host.contains (unit ':') && (ipStringToBytes host).isSome

def validIpLiteral (ipStringToBytes : ParseIp) (host : JavaString) : Bool :=
  validIpv6Literal ipStringToBytes host || matchesIpvfuture host

def isBracket (c : UInt16) : Bool := c = unit '[' || c = unit ']'

/-- `^\[([^\[\]]+)\](?::(\d+))?$` with its two groups. -/
def matchBracketed : JavaString → Option (JavaString × Option JavaString)
  | [] => none
  | first :: rest =>
    let host := rest.takeWhile fun c => !isBracket c
    if first = unit '[' ∧ host ≠ [] then
      match rest.dropWhile fun c => !isBracket c with
      | [] => none
      | [close] => if close = unit ']' then some (host, none) else none
      | close :: colon :: digits =>
        if close = unit ']' ∧ colon = unit ':' ∧ matchesDigits digits then some (host, some digits)
        else none
    else none

/-- The end of both branches of `parse-authority`: the port, then the host if it is valid and
a port that was given is one. -/
def hostAndPort (valid : Bool) (host : JavaString) (portStr : Option JavaString)
    (authorityStr : JavaString) (defaultPort : ℕ) : Except Thrown AuthorityResult := do
  let port ← match portStr with
    | none => .ok none
    | some portStr => parsePort portStr
  if valid ∧ (portStr = none ∨ port ≠ none) then return ⟨host, port.getD defaultPort⟩
  else return ⟨authorityStr, defaultPort⟩

def parseAuthority (ipStringToBytes : ParseIp) (authorityStr : Option JavaString)
    (defaultPort : ℕ) : Except Thrown AuthorityResult :=
  let authorityStr := authorityStr.getD []
  if isBlank authorityStr then .ok ⟨ascii "localhost", defaultPort⟩
  else if authorityStr.contains (unit '@') then .ok ⟨authorityStr, defaultPort⟩
  else if authorityStr.head? = some (unit '[') then
    match matchBracketed authorityStr with
    | some (host, portStr) =>
      hostAndPort (validIpLiteral ipStringToBytes host) host portStr authorityStr defaultPort
    | none => .ok ⟨authorityStr, defaultPort⟩
  else
    let colon := indexOf (unit ':') authorityStr
    if colon = lastIndexOf (unit ':') authorityStr then
      let host := match colon with
        | none => authorityStr
        | some colon => authorityStr.take colon
      let portStr := colon.map fun colon => authorityStr.drop (colon + 1)
      hostAndPort (matchesRegName host) host portStr authorityStr defaultPort
    else .ok ⟨authorityStr, defaultPort⟩

end Busker.Addresses
