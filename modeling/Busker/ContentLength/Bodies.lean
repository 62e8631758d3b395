import Busker.FixedFinal.PathAgreement

/-! Response bodies of every kind: the size `body-size-in-bytes` gives before the commit,
and the bytes `write-body-chunk!` writes after it. The first looks at the headers of the
response, the second at those of the head. -/
namespace Busker.ContentLength

open FixedFinal

/-- A body, or one part of it. A file comes with what `.length` answers and with what
reading it gives, none where it cannot be opened; a number with its integer part. -/
inductive Body where
  | nil
  | bool (value : Bool)
  | fixed (value : FixedBody)
  | number (value : ℤ)
  | byteBuffer (remaining : List UInt8)
  | inputStream (contents : List UInt8)
  | file (length : ℕ) (contents : Option (List UInt8))
  | sequence (parts : List Body)
  | other

namespace Body

/-- Nil and false are the bodies `(when body …)` leaves out. -/
def truthy : Body → Bool
  | .nil => false
  | .bool value => value
  | _ => true

/-- Strings and byte arrays, the bodies of the fast path. -/
def fixed? : Body → Option FixedBody
  | .fixed value => some value
  | _ => none

end Body

/-- How a call throws. -/
inductive Thrown where
  | failure (inner : Failure)
  | notFinal (status : ℤ)
  | unsupportedEncoding
  deriving DecidableEq, Repr

/-- What one body wrote, and whether it threw after that. -/
structure Written where
  bytes : List UInt8
  thrown : Bool
  deriving DecidableEq, Repr

/-- The charset `get-charset` names, or UTF-8 without one. -/
def charsetNamed (java : JavaText) (headers : Headers) : Except Failure (Option Charset) := do
  let name ← getCharset java headers
  .ok (java.forName (name.getD (ascii "utf-8")))

/-- `body-size-in-bytes` -/
def bodySizeInBytes (java : JavaText) (headers : Headers) : Body → Except Thrown (Option ℕ)
  | .nil => .ok (some 0)
  | .fixed (.bytes value) => .ok (some value.length)
  | .fixed (.text value) =>
    match charsetNamed java headers with
    | .ok (some charset) => .ok (some (getBytes java charset value).length)
    | .ok none => .error .unsupportedEncoding
    | .error failure => .error (.failure failure)
  | .file length _ => .ok (some length)
  | _ => .ok none

mutual

/-- `write-fallback-body-to-stream!`, and the chunks of `write-body-chunk!`, which differ
in the text of an exception. -/
def writeFallback (java : JavaText) (headers : Headers) : Body → Written
  | .nil => ⟨[], false⟩
  | .fixed (.bytes value) => ⟨value, false⟩
  | .fixed (.text value) =>
    match stringBodyBytes java value headers with
    | .ok bytes => ⟨bytes, false⟩
    | .error _ => ⟨[], true⟩
  | .number value =>
    if -2147483648 ≤ value ∧ value ≤ 2147483647 then ⟨[UInt8.ofInt value], false⟩ else ⟨[], true⟩
  | .byteBuffer remaining => ⟨remaining, false⟩
  | .inputStream contents => ⟨contents, false⟩
  | .sequence parts => writeParts java headers parts
  | .bool _ | .file _ _ | .other => ⟨[], true⟩

def writeParts (java : JavaText) (headers : Headers) : List Body → Written
  | [] => ⟨[], false⟩
  | part :: rest =>
    let first := writeFallback java headers part
    if first.thrown then first
    else
      let next := writeParts java headers rest
      ⟨first.bytes ++ next.bytes, next.thrown⟩

end

/-- The charset one content type asks for. -/
def charsetOf (java : JavaText) : HeaderValue → Option Charset
  | .nil => some .utf8
  | .text value =>
    match java.contentTypeCharset value with
    | none => some .utf8
    | some name => java.forName name
  | _ => none

def isContentType (java : JavaText) (name : JavaString) : Bool :=
  equalsIgnoreCase java (ascii "Content-Type") name

/-- Every spelling of the content type asks for this charset; without one it is UTF-8. -/
structure Asks (java : JavaText) (headers : Headers) (charset : Charset) : Prop where
  each : ∀ entry ∈ headers, isContentType java entry.1 = true →
    charsetOf java entry.2 = some charset
  default : (∀ entry ∈ headers, isContentType java entry.1 = false) → charset = .utf8

/-- Ring's `write-body-to-stream`, when Ring is on the classpath: byte arrays as they are,
strings in the charset of the response, files as they are read. -/
structure Streaming (java : JavaText) where
  write : Body → Headers → Written
  write_bytes : ∀ value headers, write (.fixed (.bytes value)) headers = ⟨value, false⟩
  write_text : ∀ value headers charset, Asks java headers charset →
    write (.fixed (.text value)) headers = ⟨getBytes java charset value, false⟩
  write_file : ∀ length contents headers,
    write (.file length (some contents)) headers = ⟨contents, false⟩

/-- A result of Ring's writer: what it throws, it throws before it writes. -/
def Written.ofExcept : Except Failure (List UInt8) → Written
  | .ok bytes => ⟨bytes, false⟩
  | .error _ => ⟨[], true⟩

/-- Ring's own writers. The parts of a sequence are printed with `str`; Ring has no writer for
the bodies in the last line. -/
def ringWrite (java : JavaText) (str : Body → JavaString) (headers : Headers) : Body → Written
  | .nil => ⟨[], false⟩
  | .fixed value => .ofExcept (FixedFinal.ringWrite java headers value)
  | .sequence parts => .ofExcept (FixedFinal.ringWrite java headers (.text (parts.flatMap str)))
  | .inputStream contents | .file _ (some contents) => ⟨contents, false⟩
  | .file _ none | .bool _ | .number _ | .byteBuffer _ | .other => ⟨[], true⟩

theorem Asks.ringWrite {java : JavaText} {headers : Headers} {charset : Charset}
    (asks : Asks java headers charset) (value : JavaString) :
    FixedFinal.ringWrite java headers (.text value) = .ok (getBytes java charset value) := by
  rw [FixedFinal.ringWrite, ringCharset]
  cases content : getHeader java headers (ascii "Content-Type") with
  | none =>
      rw [getHeader, Option.map_eq_none_iff, findHeader, List.find?_eq_none] at content
      rw [asks.default fun entry mem => Bool.eq_false_iff.mpr (content entry mem)]
      rfl
  | some found =>
      obtain ⟨entry, mem, matching, rfl⟩ := getHeader_mem content
      have asked := asks.each entry mem matching
      cases type : entry.2 with
      | nil =>
          rw [type, charsetOf, Option.some.injEq] at asked
          rw [← asked]
          rfl
      | text text =>
          rw [type, charsetOf] at asked
          cases named : java.contentTypeCharset text with
          | none =>
              rw [named, Option.some.injEq] at asked
              simp only [namedCharset, named, bind, Except.bind, ← asked, getBytes]
          | some name =>
              rw [named] at asked
              dsimp only at asked
              simp only [namedCharset, named, bind, Except.bind, asked]
      | _ =>
          rw [type] at asked
          cases asked

def ringStreaming (java : JavaText) (str : Body → JavaString) : Streaming java where
  write body headers := ringWrite java str headers body
  write_bytes _ _ := rfl
  write_text value headers charset asks := by rw [ringWrite, asks.ringWrite, Written.ofExcept]
  write_file _ _ _ := rfl

/-- What a response meets: the Java runtime, Clojure's maps, Ring if it is there, and the
live request. -/
structure Setting where
  java : JavaText
  order : MapOrder
  streaming : Option (Streaming java)
  request : Request

variable (cfg : Setting)

/-- `write-body-to-stream!` as `compile-if` compiled it. -/
def writeBodyToStream (body : Body) (headers : Headers) : Written :=
  match cfg.streaming with
  | some ring => ring.write body headers
  | none => writeFallback cfg.java headers body

def writeBodyChunk (body : Body) (headers : Headers) (closeAfter : Bool) : Written :=
  if closeAfter then writeBodyToStream cfg body headers else writeFallback cfg.java headers body

/-- The size of the body holds for its bytes too: a string whose content types agree on a
charset, a file as long as it says, with Ring to stream it. -/
def Body.Measured (headers : Headers) : Body → Prop
  | .fixed (.text _) => ∃ charset, Asks cfg.java headers charset
  | .file length contents =>
    cfg.streaming.isSome = true ∧ ∃ bytes, contents = some bytes ∧ bytes.length = length
  | _ => True

section
variable {java : JavaText} {headers : Headers} {charset : Charset}

/-- Without a value there is no content type. -/
theorem no_contentType (absent : contentType java headers = none) :
    ∀ entry ∈ headers, isContentType java entry.1 = false := by
  unfold contentType at absent
  cases lower : headers.find? fun entry => entry.1 == ascii "content-type" with
  | some entry =>
      rw [lower] at absent
      contradiction
  | none =>
      rw [lower, getHeader, Option.map_eq_none_iff, findHeader, List.find?_eq_none] at absent
      intro entry mem
      exact Bool.eq_false_iff.mpr (absent entry mem)

theorem Asks.charsetNamed (asks : Asks java headers charset) :
    charsetNamed java headers = .ok (some charset) := by
  cases content : contentType java headers with
  | none =>
      rw [asks.default (no_contentType content)]
      simp [ContentLength.charsetNamed, getCharset, namedCharset, content, bind, Except.bind, java.forName_utf8]
  | some value =>
      obtain ⟨entry, mem, matching, rfl⟩ := contentType_mem content
      have found := asks.each entry mem matching
      cases type : entry.2 with
      | nil =>
          rw [type] at found content
          simpa [ContentLength.charsetNamed, getCharset, namedCharset, content, bind, Except.bind,
            java.forName_utf8, charsetOf] using found
      | text value =>
          rw [type, charsetOf] at found
          rw [type] at content
          cases named : java.contentTypeCharset value with
          | none => simpa [ContentLength.charsetNamed, getCharset, namedCharset, content, named, bind, Except.bind,
              java.forName_utf8] using found
          | some name => simpa [ContentLength.charsetNamed, getCharset, namedCharset, content, named, bind,
              Except.bind] using found
      | _ =>
          rw [type] at found
          contradiction

instance (java : JavaText) (headers : Headers) (charset : Charset) :
    Decidable (Asks java headers charset) :=
  decidable_of_iff
    ((∀ entry ∈ headers, isContentType java entry.1 = true →
        charsetOf java entry.2 = some charset) ∧
      ((∀ entry ∈ headers, isContentType java entry.1 = false) → charset = .utf8))
    ⟨fun h => ⟨h.1, h.2⟩, fun h => ⟨h.each, h.default⟩⟩

/-- The charset to look for is the one `get-charset` names. -/
theorem asks_iff : (∃ charset, Asks java headers charset) ↔
    ∃ charset ∈ (ContentLength.charsetNamed java headers).toOption.join, Asks java headers charset := by
  constructor
  · rintro ⟨charset, asks⟩
    exact ⟨charset, by simp [asks.charsetNamed, Except.toOption], asks⟩
  · rintro ⟨charset, -, asks⟩
    exact ⟨charset, asks⟩

instance (java : JavaText) (headers : Headers) : Decidable (∃ charset, Asks java headers charset) :=
  decidable_of_iff _ asks_iff.symm

instance (cfg : Setting) (headers : Headers) : (body : Body) → Decidable (body.Measured cfg headers)
  | .fixed (.text _) => inferInstanceAs (Decidable (∃ charset, Asks cfg.java headers charset))
  | .file length contents =>
    decidable_of_iff (cfg.streaming.isSome = true ∧ contents.map List.length = some length)
      (by cases contents <;> simp [Body.Measured])
  | .fixed (.bytes _) | .nil | .bool _ | .number _ | .byteBuffer _ | .inputStream _ | .sequence _
  | .other => inferInstanceAs (Decidable True)

theorem Asks.stringBodyBytes (asks : Asks java headers charset) (value : JavaString) :
    stringBodyBytes java value headers = .ok (getBytes java charset value) := by
  have named := asks.charsetNamed
  unfold ContentLength.charsetNamed at named
  unfold FixedFinal.stringBodyBytes
  cases found : getCharset java headers with
  | error failure =>
      rw [found] at named
      contradiction
  | ok name =>
      simp only [found, bind, Except.bind, Except.ok.injEq] at named ⊢
      rw [named]

theorem Asks.write (asks : Asks cfg.java headers charset) (value : JavaString) :
    writeBodyToStream cfg (.fixed (.text value)) headers =
      ⟨getBytes cfg.java charset value, false⟩ := by
  unfold writeBodyToStream
  cases cfg.streaming with
  | some ring => exact ring.write_text value headers charset asks
  | none =>
      dsimp only
      rw [writeFallback, asks.stringBodyBytes]

end

end Busker.ContentLength
