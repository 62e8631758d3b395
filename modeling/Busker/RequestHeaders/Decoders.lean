import Busker.RequestHeaders.Snapshot
import Mathlib.Tactic.Common

/-! The text at every index of a snapshot is the native string it was copied from, so both
decoders reduce the same names and values. -/

namespace Busker.RequestHeaders

open Busker.FixedFinal (JavaString ascii)

/-- The bytes of a native string; a null pointer or a length of zero leads to none. -/
def NativeText.bytes (text : NativeText) : List UInt8 :=
  match text.base with
  | some memory => readArray memory text.len.toNat
  | none => []

@[simp] theorem readArray_length (memory : Memory) (n : ℕ) : (readArray memory n).length = n := by
  simp [readArray]

theorem NativeText.bytes_length (text : NativeText) :
    text.bytes.length = if text.base.isNone then 0 else (max 0 text.len).toNat := by
  obtain ⟨base, len⟩ := text
  cases base with
  | none => rfl
  | some memory =>
      show (readArray memory len.toNat).length = (max 0 len).toNat
      rw [readArray_length]
      omega

/-- The texts one after the other. -/
def laidOut (texts : List NativeText) : List UInt8 := texts.flatMap NativeText.bytes

theorem laidOut_take_succ {texts : List NativeText} {i : ℕ} {text : NativeText}
    (there : texts[i]? = some text) :
    laidOut (texts.take (i + 1)) = laidOut (texts.take i) ++ text.bytes := by
  unfold laidOut
  rw [List.take_add_one, there, List.flatMap_append]
  simp

theorem laidOut_split {texts : List NativeText} {i : ℕ} {text : NativeText}
    (there : texts[i]? = some text) :
    laidOut texts = laidOut (texts.take i) ++ (text.bytes ++ laidOut (texts.drop (i + 1))) := by
  rw [← List.append_assoc, ← laidOut_take_succ there]
  unfold laidOut
  rw [← List.flatMap_append, List.take_append_drop]

theorem measure_fst (offset : ℕ) (texts : List NativeText) :
    (measure offset texts).map Prod.fst = texts.map NativeText.base := by
  induction texts generalizing offset with
  | nil => rfl
  | cons text texts ih =>
      unfold measure
      simp [ih]

/-- Each end is where the texts up to it end. -/
theorem measure_snd (offset : ℕ) (texts : List NativeText) {i : ℕ} (inside : i < texts.length) :
    ((measure offset texts).map Prod.snd).getD i 0 =
      offset + (laidOut (texts.take (i + 1))).length := by
  induction texts generalizing offset i with
  | nil => cases inside
  | cons text texts ih =>
      unfold measure
      rw [← text.bytes_length]
      cases i with
      | zero => simp [laidOut]
      | succ i =>
          simp only [List.map_cons, List.getD_cons_succ]
          rw [ih _ (by simpa using inside)]
          simp [laidOut, Nat.add_assoc]

theorem measure_length (offset : ℕ) (texts : List NativeText) :
    (measure offset texts).length = texts.length := by
  simpa using congrArg List.length (measure_fst offset texts)

section
variable (texts : List NativeText)

/-- The ends that are recorded for `texts`. -/
def ends : List ℕ := (measure 0 texts).map Prod.snd

theorem ends_length : (ends texts).length = texts.length := by
  simp [ends, measure_length]

variable {texts}

theorem ends_start {i : ℕ} (inside : i < texts.length) :
    (if i = 0 then 0 else (ends texts).getD (i - 1) 0) = (laidOut (texts.take i)).length := by
  cases i with
  | zero => rfl
  | succ i =>
      rw [if_neg (Nat.succ_ne_zero i), Nat.add_sub_cancel]
      have last := measure_snd 0 texts (show i < texts.length by omega)
      rwa [Nat.zero_add] at last

theorem ends_length_of {i : ℕ} {text : NativeText} (there : texts[i]? = some text) :
    (ends texts).getD i 0 - (laidOut (texts.take i)).length = text.bytes.length := by
  have inside := (List.getElem?_eq_some_iff.mp there).1
  have := measure_snd 0 texts inside
  unfold ends
  rw [this, laidOut_take_succ there, List.length_append]
  omega

theorem ends_last (some' : texts ≠ []) : (ends texts).getLastD 0 = (laidOut texts).length := by
  have length := ends_length texts
  have positive := List.length_pos_iff.mpr some'
  have last := measure_snd 0 texts (show texts.length - 1 < texts.length by omega)
  rw [Nat.zero_add, show texts.length - 1 + 1 = texts.length by omega, List.take_length] at last
  rw [← last, List.getLastD_eq_getLast?, List.getLast?_eq_getElem?, length,
    List.getD_eq_getElem?_getD]
  rfl

/-- One string is copied behind the strings before it. -/
theorem copy_behind (front source : List UInt8) (rest : ℕ) :
    copy (front ++ List.replicate (source.length + rest) 0) front.length source =
      front ++ source ++ List.replicate rest 0 := by
  unfold copy
  rw [List.take_left, ← List.drop_drop, List.drop_left, List.drop_replicate,
    Nat.add_sub_cancel_left]

/-- The copies fill the array from its front. -/
theorem copies_front (texts : List NativeText) {k : ℕ} (some' : k ≤ texts.length) :
    (List.range k).foldl (copyText (texts.map NativeText.base) (ends texts))
        (List.replicate (laidOut texts).length 0) =
      laidOut (texts.take k) ++ List.replicate (laidOut (texts.drop k)).length 0 := by
  induction k with
  | zero => simp [laidOut]
  | succ k ih =>
      have inside : k < texts.length := some'
      have there : texts[k]? = some texts[k] := List.getElem?_eq_getElem inside
      rw [List.range_succ, List.foldl_append, ih (by omega)]
      simp only [List.foldl_cons, List.foldl_nil, copyText]
      rw [ends_start inside, ends_length_of there, laidOut_take_succ there,
        List.drop_eq_getElem_cons inside, List.getD_eq_getElem?_getD, List.getElem?_map, there]
      generalize texts[k] = text
      have following : (laidOut (text :: texts.drop (k + 1))).length =
          text.bytes.length + (laidOut (texts.drop (k + 1))).length := by
        simp [laidOut]
      rw [following]
      obtain ⟨base, len⟩ := text
      cases base with
      | none => simp [NativeText.bytes]
      | some memory =>
          have source : NativeText.bytes ⟨some memory, len⟩ = readArray memory len.toNat := rfl
          rw [source]
          simp only [Option.map_some, Option.getD_some, readArray_length]
          by_cases positive : 0 < len.toNat
          · rw [if_pos positive]
            simpa using copy_behind (laidOut (texts.take k)) (readArray memory len.toNat)
              (laidOut (texts.drop (k + 1))).length
          · rw [if_neg positive]
            simp [show len.toNat = 0 by omega, readArray]

end

section
variable (decode : List UInt8 → JavaString) (lower : JavaString → JavaString)

/-- A string of these bytes, `nil` if there are none. -/
def ofBytes (bytes : List UInt8) : Option JavaString :=
  if bytes = [] then none else some (decode bytes)

theorem string_eq (text : NativeText) :
    string decode text.base text.len = ofBytes decode text.bytes := by
  obtain ⟨base, len⟩ := text
  cases base with
  | none => rfl
  | some memory =>
      have empty : readArray memory len.toNat = [] ↔ ¬0 < len := by
        rw [← List.length_eq_zero_iff, readArray_length]
        omega
      by_cases positive : 0 < len
      · simp [string, ofBytes, NativeText.bytes, positive, empty]
      · simp [string, ofBytes, NativeText.bytes, positive, empty]

/-- The texts of a request: the five of the request line and then the headers. -/
def RequestMeta.texts (reqMeta : RequestMeta) (headers : List NativeHeader) : List NativeText :=
  [reqMeta.authority, reqMeta.method, reqMeta.path, reqMeta.remoteAddr, reqMeta.scheme] ++
    headers.flatMap fun header => [header.name, header.value]

theorem readPointer_behind (header : NativeHeader) (seg : Segment) (offset : ℕ) :
    Segment.readPointer (header.words ++ seg) (offset + 32) = Segment.readPointer seg offset := by
  unfold Segment.readPointer NativeHeader.words
  rw [show (offset + 32) / 8 = offset / 8 + 4 by omega, List.getElem?_append_right (by simp)]
  simp

theorem readLong_behind (header : NativeHeader) (seg : Segment) (offset : ℕ) :
    Segment.readLong (header.words ++ seg) (offset + 32) = Segment.readLong seg offset := by
  unfold Segment.readLong NativeHeader.words
  rw [show (offset + 32) / 8 = offset / 8 + 4 by omega, List.getElem?_append_right (by simp)]
  simp

/-- Pointers and lengths are read in the order of the strings. -/
theorem headerFields (headers : List NativeHeader) :
    ((List.range (2 * headers.length)).map fun i =>
      NativeText.mk (Segment.readPointer (headers.flatMap NativeHeader.words) (i * 16))
        (Segment.readLong (headers.flatMap NativeHeader.words) (i * 16 + 8))) =
      headers.flatMap fun header => [header.name, header.value] := by
  induction headers with
  | nil => rfl
  | cons header headers ih =>
      rw [List.length_cons, show 2 * (headers.length + 1) = 2 + 2 * headers.length by omega,
        List.range_add, List.map_append, List.map_map, List.flatMap_cons, List.flatMap_cons, ← ih]
      congr 1
      apply List.map_congr_left
      intro i _
      simp only [Function.comp]
      rw [show (2 + i) * 16 = i * 16 + 32 by omega, readPointer_behind,
        show i * 16 + 32 + 8 = i * 16 + 8 + 32 by omega, readLong_behind]

theorem fields_eq (reqMeta : RequestMeta) (headers : List NativeHeader) :
    ((List.range (5 + 2 * headers.length)).map fun i =>
      let seg := if i < 5 then (extractReqMeta reqMeta headers).words
        else headers.flatMap NativeHeader.words
      let ptrOffset := if i < 5 then i * 8 else (i - 5) * 16
      let lenOffset := if i < 5 then 48 + i * 8 else ptrOffset + 8
      NativeText.mk (Segment.readPointer seg ptrOffset) (Segment.readLong seg lenOffset)) =
      reqMeta.texts headers := by
  rw [List.range_add, List.map_append, List.map_map]
  unfold RequestMeta.texts
  congr 1
  · cases headers with
    | nil => rfl
    | cons header headers => rfl
  · rw [← headerFields]
    apply List.map_congr_left
    intro i _
    simp [show ¬5 + i < 5 by omega]

/-- The snapshot holds all the texts, one behind the other. -/
theorem copyRequestContext_eq (reqMeta : RequestMeta) (headers : List NativeHeader) :
    copyRequestContext (extractReqMeta reqMeta headers) =
      ⟨laidOut (reqMeta.texts headers), ends (reqMeta.texts headers), reqMeta.httpVersion,
        reqMeta.hasBody, reqMeta.isEarlyData⟩ := by
  have count : (if (extractReqMeta reqMeta headers).headers.isNone then 0
      else (Segment.readLong (extractReqMeta reqMeta headers).words 88).toNat) =
      headers.length := by
    cases headers with
    | nil => rfl
    | cons header headers => rfl
  have seg : (extractReqMeta reqMeta headers).headers.getD [] =
      headers.flatMap NativeHeader.words := by
    cases headers with
    | nil => rfl
    | cons header headers => rfl
  have line : (extractReqMeta reqMeta headers).httpVersion = reqMeta.httpVersion ∧
      (extractReqMeta reqMeta headers).hasBody = reqMeta.hasBody ∧
      (extractReqMeta reqMeta headers).isEarlyData = reqMeta.isEarlyData := by
    cases headers with
    | nil => exact ⟨rfl, rfl, rfl⟩
    | cons header headers => exact ⟨rfl, rfl, rfl⟩
  have length : (reqMeta.texts headers).length = 5 + 2 * headers.length := by
    rw [← fields_eq]
    simp
  have some' : reqMeta.texts headers ≠ [] := by simp [RequestMeta.texts]
  have copied := copies_front (reqMeta.texts headers) le_rfl
  rw [List.take_length, List.drop_length, length] at copied
  unfold copyRequestContext
  dsimp only
  rw [count, seg, fields_eq, measure_fst, line.1, line.2.1, line.2.2]
  have last := ends_last some'
  unfold ends at last copied ⊢
  rw [last, copied]
  simp [laidOut]

/-- The text at an index is the string there. -/
theorem text_eq {texts : List NativeText} {i : ℕ} {text : NativeText}
    (there : texts[i]? = some text) (httpVersion hasBody earlyData : ℤ) :
    Snapshot.text decode ⟨laidOut texts, ends texts, httpVersion, hasBody, earlyData⟩ i =
      ofBytes decode text.bytes := by
  have inside := (List.getElem?_eq_some_iff.mp there).1
  unfold Snapshot.text ofBytes
  dsimp only
  rw [ends_start inside, ends_length_of there, laidOut_split there, List.drop_left, List.take_left]
  by_cases empty : text.bytes = []
  · simp [empty]
  · rw [if_pos (List.length_pos_iff.mpr empty), if_neg empty]

/-- A name and a value as either decoder puts them into its map. -/
def step (result : HeaderMap) (header : NativeHeader) : Except Thrown HeaderMap := do
  let name ← lowerCase lower (ofBytes decode header.name.bytes)
  return addHeader result name (ofBytes decode header.value.bytes)

theorem headerSeg {headers : List NativeHeader} {i : ℕ} {header : NativeHeader}
    (there : headers[i]? = some header) :
    ((headers.flatMap NativeHeader.words).drop (i * 4)).take 4 = header.words := by
  induction headers generalizing i with
  | nil => cases there
  | cons first headers ih =>
      have four (header : NativeHeader) : header.words.length = 4 := rfl
      cases i with
      | zero =>
          obtain rfl := Option.some.inj there
          rw [List.flatMap_cons, Nat.zero_mul, List.drop_zero, ← four first, List.take_left]
      | succ i =>
          rw [List.flatMap_cons, show (i + 1) * 4 = first.words.length + i * 4 by rw [four]; omega,
            ← List.drop_drop, List.drop_left]
          exact ih there

/-- A loop over the indices is a loop over the elements. -/
theorem foldlM_range {α β ε : Type*} {f : β → ℕ → Except ε β} {g : β → α → Except ε β}
    {xs : List α} (turn : ∀ i x, xs[i]? = some x → ∀ result, f result i = g result x)
    (result : β) : (List.range xs.length).foldlM f result = xs.foldlM g result := by
  induction xs generalizing f result with
  | nil => rfl
  | cons x xs ih =>
      rw [List.length_cons, List.range_succ_eq_map, List.foldlM_cons, List.foldlM_cons,
        turn 0 x rfl]
      congr 1
      funext result'
      rw [List.foldlM_map]
      exact ih (fun i y there => turn (i + 1) y there) result'

theorem buildRingHeadersMap_eq (reqMeta : RequestMeta) {headers : List NativeHeader}
    (some' : headers ≠ []) :
    buildRingHeadersMap decode lower (extractReqMeta reqMeta headers).headers
        (extractReqMeta reqMeta headers).headersLen =
      (headers.foldlM (step decode lower) fun _ => none).map some := by
  obtain ⟨first, rest, rfl⟩ := List.exists_cons_of_ne_nil some'
  generalize same : first :: rest = headers
  have array : (extractReqMeta reqMeta headers).headers =
      some (headers.flatMap NativeHeader.words) := by
    subst same
    rfl
  have count : (extractReqMeta reqMeta headers).headersLen = headers.length := by
    subst same
    rfl
  have positive : (0 : ℤ) < headers.length := by
    subst same
    simp
  unfold buildRingHeadersMap
  rw [array, count]
  dsimp only
  rw [if_pos positive, Int.toNat_natCast]
  have turn (i : ℕ) (header : NativeHeader) (there : headers[i]? = some header)
      (result : HeaderMap) :
      readHeader decode lower result
          (((headers.flatMap NativeHeader.words).drop (i * 4)).take 4) =
        step decode lower result header := by
    rw [headerSeg there]
    show (do
      let name ← lowerCase lower (string decode header.name.base header.name.len)
      return addHeader result name (string decode header.value.base header.value.len)) = _
    rw [string_eq, string_eq]
    rfl
  rw [foldlM_range turn]
  cases headers.foldlM (step decode lower) fun _ => none with
  | ok headerMap => rfl
  | error thrown => rfl

/-- The names and the values alternate. -/
theorem headerTexts {headers : List NativeHeader} {i : ℕ} {header : NativeHeader}
    (there : headers[i]? = some header) :
    (headers.flatMap fun header => [header.name, header.value])[2 * i]? = some header.name ∧
      (headers.flatMap fun header => [header.name, header.value])[2 * i + 1]? =
        some header.value := by
  induction headers generalizing i with
  | nil => cases there
  | cons first headers ih =>
      cases i with
      | zero =>
          obtain rfl := Option.some.inj there
          exact ⟨rfl, rfl⟩
      | succ i =>
          rw [List.flatMap_cons, show 2 * (i + 1) = 2 * i + 1 + 1 by omega]
          exact ih there

/-- They stand behind the five texts of the request line. -/
theorem texts_behind (reqMeta : RequestMeta) (headers : List NativeHeader) (k : ℕ) :
    (reqMeta.texts headers)[5 + k]? =
      (headers.flatMap fun header => [header.name, header.value])[k]? := by
  unfold RequestMeta.texts
  rw [List.getElem?_append_right (by simp)]
  simp

theorem decodeRequestSnapshot_eq (reqMeta : RequestMeta) {headers : List NativeHeader}
    (some' : headers ≠ []) :
    (decodeRequestSnapshot decode lower
        (copyRequestContext (extractReqMeta reqMeta headers))).map RingData.headers =
      (headers.foldlM (step decode lower) fun _ => none).map some := by
  have positive := List.length_pos_iff.mpr some'
  have length : (ends (reqMeta.texts headers)).length = 5 + 2 * headers.length := by
    rw [ends_length, ← fields_eq]
    simp
  have everySecond : List.range' 5 ((5 + 2 * headers.length - 5 + 1) / 2) 2 =
      (List.range headers.length).map (5 + 2 * ·) := by
    rw [show (5 + 2 * headers.length - 5 + 1) / 2 = headers.length by omega]
    apply List.ext_getElem
    · simp
    · intro i _ _
      simp
  rw [copyRequestContext_eq]
  unfold decodeRequestSnapshot
  dsimp only
  rw [length, if_pos (by omega), everySecond, List.foldlM_map]
  have turn (i : ℕ) (header : NativeHeader) (there : headers[i]? = some header)
      (result : HeaderMap) :
      (do
        let name ← lowerCase lower (Snapshot.text decode ⟨laidOut (reqMeta.texts headers),
          ends (reqMeta.texts headers), reqMeta.httpVersion, reqMeta.hasBody,
          reqMeta.isEarlyData⟩ (5 + 2 * i))
        return addHeader result name (Snapshot.text decode ⟨laidOut (reqMeta.texts headers),
          ends (reqMeta.texts headers), reqMeta.httpVersion, reqMeta.hasBody,
          reqMeta.isEarlyData⟩ (5 + 2 * i + 1))) = step decode lower result header := by
    obtain ⟨name, value⟩ := headerTexts there
    rw [text_eq decode (texts_behind reqMeta headers (2 * i) ▸ name),
      text_eq decode (texts_behind reqMeta headers (2 * i + 1) ▸ value)]
    rfl
  rw [foldlM_range turn]
  cases headers.foldlM (step decode lower) fun _ => none with
  | ok headerMap => rfl
  | error thrown => rfl

end

end Busker.RequestHeaders
