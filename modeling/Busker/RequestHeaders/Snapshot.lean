import Busker.FixedFinal.Response

/-! The headers of a request on their way from libh2o to the Ring map. One decoder reads each
native string where it lies; the other copies all of them into one array first and slices it
when the request is looked at. -/

namespace Busker.RequestHeaders

open Busker.FixedFinal (JavaString ascii)

/-- What a pointer leads to, from there on. -/
abbrev Memory := ℕ → UInt8

/-- A pointer, null or not, and the length that goes with it. -/
structure NativeText where
  base : Option Memory
  len : ℤ

/-- The eight bytes of a field of a struct. -/
inductive Word
  | pointer (target : Option Memory)
  | long (value : ℤ)

abbrev Segment := List Word

def Segment.readPointer (segment : Segment) (offset : ℕ) : Option Memory :=
  match segment[offset / 8]? with
  | some (.pointer target) => target
  | _ => none

def Segment.readLong (segment : Segment) (offset : ℕ) : ℤ :=
  match segment[offset / 8]? with
  | some (.long value) => value
  | _ => 0

/-- A `clj_header_t`. -/
structure NativeHeader where
  name : NativeText
  value : NativeText

def NativeHeader.words (header : NativeHeader) : Segment :=
  [.pointer header.name.base, .long header.name.len,
    .pointer header.value.base, .long header.value.len]

/-- A `clj_req_meta_t`. -/
structure RequestMeta where
  authority : NativeText
  method : NativeText
  path : NativeText
  remoteAddr : NativeText
  scheme : NativeText
  headers : Option Segment
  headersLen : ℤ
  httpVersion : ℤ
  hasBody : ℤ
  isEarlyData : ℤ

/-- The words of the struct up to `http_version`. The pointer to the headers is read as
`RequestMeta.headers`. -/
def RequestMeta.words (reqMeta : RequestMeta) : Segment :=
  [.pointer reqMeta.authority.base, .pointer reqMeta.method.base, .pointer reqMeta.path.base,
    .pointer reqMeta.remoteAddr.base, .pointer reqMeta.scheme.base, .pointer none,
    .long reqMeta.authority.len, .long reqMeta.method.len, .long reqMeta.path.len,
    .long reqMeta.remoteAddr.len, .long reqMeta.scheme.len, .long reqMeta.headersLen]

/-- `clj_h2o_extract_req_meta` puts the headers of the request into `reqMeta`. -/
def extractReqMeta (reqMeta : RequestMeta) (headers : List NativeHeader) : RequestMeta :=
  match headers with
  | [] => { reqMeta with headers := none, headersLen := 0 }
  | _ => { reqMeta with
      headers := some (headers.flatMap NativeHeader.words), headersLen := headers.length }

inductive Thrown
  | nullPointer
  deriving DecidableEq, Repr

/-- A header map. A key that is there may have `nil` for its value. -/
abbrev HeaderMap := JavaString → Option (Option JavaString)

/-- `str` of a string or `nil`. -/
def str (value : Option JavaString) : JavaString := value.getD []

def readArray (memory : Memory) (n : ℕ) : List UInt8 := (List.range n).map memory

def delimiter (name : JavaString) : JavaString :=
  if name = ascii "cookie" then ascii ";" else ascii ","

/-- The body of both reductions. -/
def addHeader (result : HeaderMap) (name : JavaString) (value : Option JavaString) : HeaderMap :=
  match result name with
  | some existing =>
      Function.update result name (some (some (str existing ++ delimiter name ++ str value)))
  | none => Function.update result name (some value)

section
/- `String(bytes, "UTF-8")` and `toLowerCase`. -/
variable (decode : List UInt8 → JavaString) (lower : JavaString → JavaString)

/-- `str/lower-case` -/
def lowerCase : Option JavaString → Except Thrown JavaString
  | some s => .ok (lower s)
  | none => .error .nullPointer

/-- `->string` -/
def string (ptr : Option Memory) (len : ℤ) : Option JavaString :=
  match ptr with
  | some memory => if 0 < len then some (decode (readArray memory len.toNat)) else none
  | none => none

/-- One turn of the reduction over the header array. -/
def readHeader (result : HeaderMap) (headerSeg : Segment) : Except Thrown HeaderMap := do
  let name ← lowerCase lower (string decode (headerSeg.readPointer 0) (headerSeg.readLong 8))
  let value := string decode (headerSeg.readPointer 16) (headerSeg.readLong 24)
  return addHeader result name value

def buildRingHeadersMap (headers : Option Segment) (headersLen : ℤ) :
    Except Thrown (Option HeaderMap) :=
  match headers with
  | none => .ok none
  | some sizedHeaders =>
      if 0 < headersLen then do
        let headerMap ← (List.range headersLen.toNat).foldlM (fun result i =>
          readHeader decode lower result ((sizedHeaders.drop (i * 4)).take 4)) fun _ => none
        return some headerMap
      else .ok none

/-- The bytes and the ends of the texts, as they are handed to the delay. -/
structure Snapshot where
  bytes : List UInt8
  ends : List ℕ
  httpVersion : ℤ
  hasBody : ℤ
  earlyData : ℤ

/-- The pointers and the ends of the texts, the first of which begins at `offset`. -/
def measure (offset : ℕ) : List NativeText → List (Option Memory × ℕ)
  | [] => []
  | text :: texts =>
      let len := if text.base.isNone then 0 else (max 0 text.len).toNat
      (text.base, offset + len) :: measure (offset + len) texts

/-- `MemorySegment/copy` -/
def copy (bytes : List UInt8) (start : ℕ) (source : List UInt8) : List UInt8 :=
  bytes.take start ++ source ++ bytes.drop (start + source.length)

/-- One turn of the loop that copies. -/
def copyText (pointers : List (Option Memory)) (ends : List ℕ) (bytes : List UInt8) (i : ℕ) :
    List UInt8 :=
  let start := if i = 0 then 0 else ends.getD (i - 1) 0
  let len := ends.getD i 0 - start
  match pointers.getD i none with
  | some memory => if 0 < len then copy bytes start (readArray memory len) else bytes
  | none => bytes

def copyRequestContext (reqMeta : RequestMeta) : Snapshot :=
  let metaSeg := reqMeta.words
  let headerCount := if reqMeta.headers.isNone then 0 else (metaSeg.readLong 88).toNat
  let headerSeg := reqMeta.headers.getD []
  let n := 5 + 2 * headerCount
  let fields := (List.range n).map fun i =>
    let seg := if i < 5 then metaSeg else headerSeg
    let ptrOffset := if i < 5 then i * 8 else (i - 5) * 16
    let lenOffset := if i < 5 then 48 + i * 8 else ptrOffset + 8
    NativeText.mk (Segment.readPointer seg ptrOffset) (Segment.readLong seg lenOffset)
  let measured := measure 0 fields
  let pointers := measured.map Prod.fst
  let ends := measured.map Prod.snd
  let total := ends.getLastD 0
  let bytes := (List.range n).foldl (copyText pointers ends) (List.replicate total 0)
  ⟨bytes, ends, reqMeta.httpVersion, reqMeta.hasBody, reqMeta.isEarlyData⟩

/-- What `decode-request-snapshot` returns. -/
structure RingData where
  authority : Option JavaString
  method : Option JavaString
  path : Option JavaString
  remoteAddr : Option JavaString
  scheme : Option JavaString
  headers : Option HeaderMap
  httpVersion : ℤ
  hasBody : ℤ
  earlyData : ℤ

def Snapshot.text (snapshot : Snapshot) (i : ℕ) : Option JavaString :=
  let start := if i = 0 then 0 else snapshot.ends.getD (i - 1) 0
  let length := snapshot.ends.getD i 0 - start
  if 0 < length then some (decode ((snapshot.bytes.drop start).take length)) else none

def decodeRequestSnapshot (snapshot : Snapshot) : Except Thrown RingData := do
  let text := snapshot.text decode
  let headers ←
    if 5 < snapshot.ends.length then do
      let headerMap ← (List.range' 5 ((snapshot.ends.length - 5 + 1) / 2) 2).foldlM
        (fun result i => do
          let name ← lowerCase lower (text i)
          return addHeader result name (text (i + 1)))
        fun _ => none
      pure (some headerMap)
    else pure none
  return ⟨text 0, text 1, text 2, text 3, text 4, headers, snapshot.httpVersion,
    snapshot.hasBody, snapshot.earlyData⟩

end

end Busker.RequestHeaders
