import Mathlib.Data.List.Perm.Basic
import Busker.FixedFinal.HeaderNames
import Busker.FixedFinal.Slot

/-! The path taken when the ring is overloaded: a start command with the head, and
the body streamed behind it. -/
namespace Busker.FixedFinal

/-- What Clojure leaves open about maps: the order in which entries come back after a
fresh key is added, or after entries are collected into a new map. -/
structure MapOrder where
  assoc : Headers → JavaString → HeaderValue → Headers
  into : Headers → Headers
  assoc_perm : ∀ headers name value, (∀ entry ∈ headers, entry.1 ≠ name) →
    (assoc headers name value).Perm ((name, value) :: headers)
  into_perm : ∀ headers : Headers, (headers.map Prod.fst).Nodup → (into headers).Perm headers

/-- `dissoc-header` -/
def dissocHeader (java : JavaText) (order : MapOrder) (headers : Headers) (name : JavaString) :
    Headers :=
  order.into (headers.filter fun entry => java.lowerString entry.1 != java.lowerString name)

def expandHeaderValue (name : JavaString) : HeaderValue → List HeaderPair
  | .sequence items => items.map fun item => ⟨name, item⟩
  | value => [⟨name, value.str⟩]

/-- `expand-header-values`, each pair printed with `str`. -/
def expandHeaderValues (headers : Headers) : List HeaderPair :=
  headers.flatMap fun entry => expandHeaderValue entry.1 entry.2

/-- The value of a header, unless it is nil or false. -/
def truthyHeader (java : JavaText) (headers : Headers) (name : JavaString) :
    Option HeaderValue :=
  (getHeader java headers name).filter HeaderValue.truthy

/-- `build-headers`: the pairs without the content length, and the content length or -1. -/
def buildHeaders (java : JavaText) (order : MapOrder) (headers : Headers) :
    Except Failure (List HeaderPair × ℤ) :=
  match truthyHeader java headers contentLengthName with
  | some value => do
    let contentLength ← coerceContentLength java value
    .ok (expandHeaderValues (dissocHeader java order headers contentLengthName), contentLength)
  | none => .ok (expandHeaderValues headers, -1)

/-- What `str` prints for a `long`. -/
def strLong (n : ℤ) : JavaString := if n < 0 then 45 :: decimal n.natAbs else decimal n.natAbs

/-- The headers of the head `commit-final!` settles on for a fast-path plan. -/
def committedHeaders (java : JavaText) (order : MapOrder) (headers : Headers)
    (plan : DirectResponsePlan) : Headers :=
  match truthyHeader java headers contentLengthName with
  | some _ => headers
  | none => order.assoc headers contentLengthName (.text (strLong plan.contentLength))

/-- `string-body-bytes`: an unknown charset falls back to UTF-8. -/
def stringBodyBytes (java : JavaText) (value : JavaString) (headers : Headers) :
    Except Failure (List UInt8) := do
  let charset ← getCharset java headers
  match java.forName (charset.getD (ascii "utf-8")) with
  | some charset => .ok (getBytes java charset value)
  | none => .ok (utf8Bytes value)

/-- The charset Ring streams a string in: that of the first content type in the order of the
map, whatever its spelling. -/
def ringCharset (java : JavaText) (headers : Headers) : Except Failure (Option JavaString) :=
  namedCharset java (getHeader java headers (ascii "Content-Type"))

/-- Ring's `write-body-to-stream`, when Ring is on the classpath: byte arrays as they are,
strings in the charset Ring finds, UTF-8 without one. -/
structure RingStreaming (java : JavaText) where
  write : FixedBody → Headers → Except Failure (List UInt8)
  write_bytes : ∀ value headers, write (.bytes value) headers = .ok value
  write_text : ∀ value headers, ringCharset java headers = .ok none →
    write (.text value) headers = .ok (utf8Bytes value)
  write_charset : ∀ value headers name charset, ringCharset java headers = .ok (some name) →
    java.forName name = some charset →
    write (.text value) headers = .ok (getBytes java charset value)

/-- Ring's own writer of strings and byte arrays. -/
def ringWrite (java : JavaText) (headers : Headers) : FixedBody → Except Failure (List UInt8)
  | .bytes value => .ok value
  | .text value => do
    match ← ringCharset java headers with
    | none => .ok (utf8Bytes value)
    | some name =>
      match java.forName name with
      | some charset => .ok (getBytes java charset value)
      | none => .error .unsupportedEncoding

def ringStreaming (java : JavaText) : RingStreaming java where
  write body headers := ringWrite java headers body
  write_bytes _ _ := rfl
  write_text value headers found := by rw [ringWrite, found]; rfl
  write_charset value headers name charset found known := by
    rw [ringWrite, found]
    simp only [bind, Except.bind, known]

/-- `write-body-to-stream!` as `compile-if` compiled it. -/
def writeBodyToStream (java : JavaText) (ring : Option (RingStreaming java)) (body : FixedBody)
    (headers : Headers) : Except Failure (List UInt8) :=
  match ring with
  | some ring => ring.write body headers
  | none =>
    match body with
    | .bytes value => .ok value
    | .text value => stringBodyBytes java value headers

/-- A response as native code commits it, with `res.content_length` as a `size_t`. -/
structure Committed where
  status : ℤ
  headers : List HeaderPair
  contentLength : ℕ
  body : List UInt8
  deriving DecidableEq, Repr

def sizeMax : ℕ := 18446744073709551615

/-- The content length `clj_h2o_start_response` sets. -/
def startedContentLength (contentLength : ℕ) : ℕ :=
  if contentLength ≠ sizeMax then contentLength else sizeMax

/-- The fast path: `clj_h2o_send_fixed_final` with the plan. -/
def fastCommitted (plan : DirectResponsePlan) : Committed :=
  { status := plan.status
    headers := plan.headers
    contentLength := longWord plan.contentLength
    body := plan.body.encoded }

/-- The generic path for a response the fast path planned but the ring had no room for. -/
def genericCommitted (java : JavaText) (order : MapOrder) (ring : Option (RingStreaming java))
    (response : Response) (plan : DirectResponsePlan) : Except Failure Committed := do
  let head := committedHeaders java order response.headers plan
  let (headers, contentLength) ← buildHeaders java order head
  match response.status, response.body with
  | some status, some body => do
    let streamed ← writeBodyToStream java ring body head
    .ok
      { status := status
        headers := headers
        contentLength := startedContentLength (longWord contentLength)
        body := streamed }
  | _, _ => .error .classCast

/-- The values of one header name, in order. -/
def valuesOf (headers : List HeaderPair) (name : JavaString) : List JavaString :=
  (headers.filter fun header => header.name == name).map HeaderPair.value

/-- Two commits of one response: header names may come in another order. -/
structure SameResponse (a b : Committed) : Prop where
  status : a.status = b.status
  headers : a.headers.Perm b.headers
  values : ∀ name, valuesOf a.headers name = valuesOf b.headers name
  contentLength : a.contentLength = b.contentLength
  body : a.body = b.body

theorem startedContentLength_eq (contentLength : ℕ) :
    startedContentLength contentLength = contentLength := by
  unfold startedContentLength
  split
  · rfl
  · rename_i equal
    exact (not_not.mp equal).symm

end Busker.FixedFinal
