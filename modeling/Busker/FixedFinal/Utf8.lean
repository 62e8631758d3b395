import Mathlib.Data.List.Basic
import Mathlib.Data.Nat.Notation

/-! Java strings, the UTF-8 length the response path computes for them, and the
bytes Java writes for them. -/
namespace Busker.FixedFinal

/-- A Java string, as its UTF-16 code units. -/
abbrev JavaString := List UInt16

def isHighSurrogate (character : UInt16) : Bool :=
  0xD800 ≤ character.toNat && character.toNat ≤ 0xDBFF

def isLowSurrogate (character : UInt16) : Bool :=
  0xDC00 ≤ character.toNat && character.toNat ≤ 0xDFFF

/-- The loop of `utf8-length` over the characters that are left. -/
def utf8LengthLoop : JavaString → ℕ → ℕ
  | [], length => length
  | character :: rest, length =>
    if character.toNat < 0x80 then utf8LengthLoop rest (length + 1)
    else if character.toNat < 0x800 then utf8LengthLoop rest (length + 2)
    else if isHighSurrogate character then
      match rest with
      | [] => length + 1
      | next :: after =>
        if isLowSurrogate next then utf8LengthLoop after (length + 4)
        else utf8LengthLoop (next :: after) (length + 1)
    else if isLowSurrogate character then utf8LengthLoop rest (length + 1)
    else utf8LengthLoop rest (length + 3)

def utf8Length (value : JavaString) : ℕ := utf8LengthLoop value 0

/-- What Java's UTF-8 encoder writes for an unpaired surrogate. -/
def replacement : UInt8 := 0x3F

def twoBytes (code : ℕ) : List UInt8 :=
  [UInt8.ofNat (0xC0 + code / 64), UInt8.ofNat (0x80 + code % 64)]

def threeBytes (code : ℕ) : List UInt8 :=
  [UInt8.ofNat (0xE0 + code / 4096), UInt8.ofNat (0x80 + code / 64 % 64),
    UInt8.ofNat (0x80 + code % 64)]

def fourBytes (code : ℕ) : List UInt8 :=
  [UInt8.ofNat (0xF0 + code / 262144), UInt8.ofNat (0x80 + code / 4096 % 64),
    UInt8.ofNat (0x80 + code / 64 % 64), UInt8.ofNat (0x80 + code % 64)]

def surrogatePair (high low : UInt16) : ℕ :=
  0x10000 + (high.toNat - 0xD800) * 1024 + (low.toNat - 0xDC00)

/-- The bytes of `String.getBytes` and `MemorySegment.setString` under UTF-8. -/
def utf8Bytes : JavaString → List UInt8
  | [] => []
  | character :: rest =>
    if character.toNat < 0x80 then UInt8.ofNat character.toNat :: utf8Bytes rest
    else if character.toNat < 0x800 then twoBytes character.toNat ++ utf8Bytes rest
    else if isHighSurrogate character then
      match rest with
      | [] => [replacement]
      | next :: after =>
        if isLowSurrogate next then
          fourBytes (surrogatePair character next) ++ utf8Bytes after
        else replacement :: utf8Bytes (next :: after)
    else if isLowSurrogate character then replacement :: utf8Bytes rest
    else threeBytes character.toNat ++ utf8Bytes rest

theorem utf8LengthLoop_eq (value : JavaString) (length : ℕ) :
    utf8LengthLoop value length = length + (utf8Bytes value).length := by
  induction value using utf8Bytes.induct generalizing length with
  | case1 => simp [utf8LengthLoop, utf8Bytes]
  | case2 character rest ascii ih =>
      rw [utf8LengthLoop.eq_def, utf8Bytes.eq_def]
      simp only [ascii, if_true, ih, List.length_cons]
      omega
  | case3 character rest wide two ih =>
      rw [utf8LengthLoop.eq_def, utf8Bytes.eq_def]
      simp only [wide, two, if_true, if_false, ih, twoBytes, List.length_append,
        List.length_cons, List.length_nil]
      omega
  | case4 character wide wider high =>
      simp [utf8LengthLoop, utf8Bytes, wide, wider, high]
  | case5 character wide wider high next after paired ih =>
      rw [utf8LengthLoop, utf8Bytes]
      simp only [wide, wider, high, paired, if_true, if_false, ih, fourBytes,
        List.length_append, List.length_cons, List.length_nil]
      omega
  | case6 character wide wider high next after unpaired ih =>
      rw [utf8LengthLoop, utf8Bytes]
      simp only [wide, wider, high, unpaired, if_true, if_false, Bool.false_eq_true, ih,
        List.length_cons]
      omega
  | case7 character rest wide wider lone low ih =>
      rw [utf8LengthLoop.eq_def, utf8Bytes.eq_def]
      simp only [wide, wider, lone, low, if_true, if_false, Bool.false_eq_true, ih,
        List.length_cons]
      omega
  | case8 character rest wide wider lone plain ih =>
      rw [utf8LengthLoop.eq_def, utf8Bytes.eq_def]
      simp only [wide, wider, lone, plain, if_false, Bool.false_eq_true, ih, threeBytes,
        List.length_append, List.length_cons, List.length_nil]
      omega

/-- `utf8-length` is the number of bytes Java writes, unpaired surrogates included. -/
theorem utf8Length_eq (value : JavaString) : utf8Length value = (utf8Bytes value).length := by
  rw [utf8Length, utf8LengthLoop_eq, Nat.zero_add]

/-- A high surrogate before a plain character costs one byte, a pair four. -/
example : utf8Bytes [0xD83D, 0x41, 0xD83D, 0xDE00] = [0x3F, 0x41, 0xF0, 0x9F, 0x98, 0x80] := by
  decide

/-- A header pair whose name and value are strings. -/
structure HeaderPair where
  name : JavaString
  value : JavaString
  deriving DecidableEq, Repr

def headerBytes (headers : List HeaderPair) : ℕ :=
  headers.foldl (fun total header => total + utf8Length header.name + utf8Length header.value) 0

def cljHeaderSize : ℕ := 32

def descriptorBytes (headers : List HeaderPair) : ℕ := headers.length * cljHeaderSize

def headerStagingBytes (headers : List HeaderPair) : ℕ :=
  headers.length * cljHeaderSize + headerBytes headers + 2 * headers.length

theorem headerBytes_from (headers : List HeaderPair) (total : ℕ) :
    headers.foldl (fun total header => total + utf8Length header.name + utf8Length header.value)
      total = total + headerBytes headers := by
  induction headers generalizing total with
  | nil => rfl
  | cons header rest ih =>
      simp only [headerBytes, List.foldl_cons]
      rw [ih, ih (0 + _ + _)]
      omega

@[simp] theorem headerBytes_nil : headerBytes [] = 0 := rfl

@[simp] theorem headerBytes_cons (header : HeaderPair) (rest : List HeaderPair) :
    headerBytes (header :: rest) =
      utf8Length header.name + utf8Length header.value + headerBytes rest := by
  rw [headerBytes, List.foldl_cons, headerBytes_from, Nat.zero_add]

end Busker.FixedFinal
