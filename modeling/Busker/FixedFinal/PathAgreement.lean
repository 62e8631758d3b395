import Mathlib.Data.List.Nodup
import Busker.FixedFinal.ClojureMap
import Busker.FixedFinal.SlotRoundTrip

/-! When the generic path commits what the fast path would have committed. -/
namespace Busker.FixedFinal

section
variable {java : JavaText}

theorem appendFixedHeader_eq (headers : List HeaderPair) (name : JavaString)
    (value : HeaderValue) :
    appendFixedHeader headers name value = headers ++ expandHeaderValue name value := by
  cases value with
  | sequence items =>
      rw [appendFixedHeader, expandHeaderValue]
      induction items generalizing headers with
      | nil => simp
      | cons item rest ih => simp [ih]
  | _ => rfl

/-- The entries that are no content length header. -/
def others (java : JavaText) (headers : Headers) : Headers :=
  headers.filter fun entry => !equalsIgnoreCase java contentLengthName entry.1

theorem fixedFinalHeader_foldl (headers : Headers) (pairs : List HeaderPair)
    (found : Option HeaderValue) :
    headers.foldl (fixedFinalHeader java) (pairs, found) =
      (pairs ++ expandHeaderValues (others java headers),
        found.or (getHeader java headers contentLengthName)) := by
  induction headers generalizing pairs found with
  | nil => simp [expandHeaderValues, others, getHeader, findHeader]
  | cons entry rest ih =>
      rw [List.foldl_cons, fixedFinalHeader, equalsIgnoreCase_comm]
      by_cases same : equalsIgnoreCase java contentLengthName entry.1 = true
      · have skipped : others java (entry :: rest) = others java rest := by
          simp [others, same]
        have first : getHeader java (entry :: rest) contentLengthName = some entry.2 := by
          simp [getHeader, findHeader, same]
        rw [← contentLengthName, if_pos same, ih, skipped, first]
        cases found <;> rfl
      · have kept : others java (entry :: rest) = entry :: others java rest := by
          simp [others, same]
        have later : getHeader java (entry :: rest) contentLengthName =
            getHeader java rest contentLengthName := by
          simp [getHeader, findHeader, same]
        rw [← contentLengthName, if_neg same, ih, kept, later, appendFixedHeader_eq]
        simp [expandHeaderValues]

/-- The fast path expands the same entries, and takes the content length `find-header`
finds. -/
theorem fixedFinalHeaderData_eq (headers : Headers) :
    fixedFinalHeaderData java headers =
      (expandHeaderValues (others java headers), getHeader java headers contentLengthName) := by
  rw [fixedFinalHeaderData, fixedFinalHeader_foldl]
  simp

/-- `dissoc-header` keeps the same entries as the fast path. -/
theorem dissocHeader_eq (order : MapOrder) (headers : Headers) :
    dissocHeader java order headers contentLengthName = order.into (others java headers) := by
  unfold dissocHeader others
  congr 1
  apply List.filter_congr
  intro entry _
  rw [contentLengthName_lower]
  have same := @isContentLength_iff java entry.1
  by_cases lower : java.lowerString entry.1 = contentLengthName
  · simp [lower, same.mpr lower]
  · have differs : equalsIgnoreCase java contentLengthName entry.1 = false := by
      rw [Bool.eq_false_iff]
      exact fun equal => lower (same.mp equal)
    simp [lower, differs]

theorem valuesOf_cons (entry : JavaString × HeaderValue) (rest : Headers) (name : JavaString) :
    valuesOf (expandHeaderValues (entry :: rest)) name =
      valuesOf (expandHeaderValue entry.1 entry.2) name ++
        valuesOf (expandHeaderValues rest) name := by
  simp [valuesOf, expandHeaderValues]

theorem expandHeaderValue_name {name : JavaString} {value : HeaderValue} {header : HeaderPair}
    (mem : header ∈ expandHeaderValue name value) : header.name = name := by
  cases value with
  | sequence items =>
      obtain ⟨item, _, rfl⟩ := List.mem_map.mp mem
      rfl
  | _ =>
      rw [List.mem_singleton.mp mem]

theorem valuesOf_other {name other : JavaString} (differs : other ≠ name) (value : HeaderValue) :
    valuesOf (expandHeaderValue other value) name = [] := by
  have none : (expandHeaderValue other value).filter (fun header => header.name == name) = [] := by
    rw [List.filter_eq_nil_iff]
    intro header mem
    rw [expandHeaderValue_name mem]
    simpa using differs
  rw [valuesOf, none]
  rfl

/-- Each name of a map belongs to one entry, so reordering the entries keeps the order of
its values. -/
theorem valuesOf_perm {a b : Headers} (perm : a.Perm b) (distinct : (a.map Prod.fst).Nodup)
    (name : JavaString) :
    valuesOf (expandHeaderValues a) name = valuesOf (expandHeaderValues b) name := by
  induction perm with
  | nil => rfl
  | cons entry perm ih =>
      rw [List.map_cons, List.nodup_cons] at distinct
      rw [valuesOf_cons, valuesOf_cons, ih distinct.2]
  | swap first second rest =>
      have differs : second.1 ≠ first.1 := by
        rw [List.map_cons, List.map_cons, List.nodup_cons] at distinct
        intro same
        exact distinct.1 (by simp [same])
      simp only [valuesOf_cons, ← List.append_assoc]
      congr 1
      by_cases mine : first.1 = name
      · rw [valuesOf_other (mine ▸ differs)]
        simp
      · rw [valuesOf_other mine]
        simp
  | trans left right ihLeft ihRight =>
      rw [ihLeft distinct]
      exact ihRight ((left.map Prod.fst).nodup_iff.mp distinct)

theorem expandHeaderValues_perm {a b : Headers} (perm : a.Perm b) :
    (expandHeaderValues a).Perm (expandHeaderValues b) :=
  perm.flatMap_right _

theorem others_distinct {headers : Headers} (distinct : (headers.map Prod.fst).Nodup) :
    ((others java headers).map Prod.fst).Nodup :=
  distinct.sublist (List.filter_sublist.map Prod.fst)

/-! The head of an overloaded response. -/

theorem getHeader_isSome_of_coerced {value : HeaderValue} {long : ℤ}
    (coerced : coerceContentLength java value = .ok long) : value.truthy = true := by
  cases value with
  | number asLong printed => rfl
  | text value => rfl
  | _ => cases coerced

theorem truthyHeader_eq {headers : Headers} {name : JavaString} {value : HeaderValue}
    (found : getHeader java headers name = some value) (truthy : value.truthy = true) :
    truthyHeader java headers name = some value := by
  rw [truthyHeader, found, Option.filter_some, if_pos truthy]

/-- With a content length the head is the response's own. -/
theorem committedHeaders_given (order : MapOrder) {headers : Headers}
    {plan : DirectResponsePlan} {value : HeaderValue}
    (given : getHeader java headers contentLengthName = some value)
    (truthy : value.truthy = true) : committedHeaders java order headers plan = headers := by
  rw [committedHeaders, truthyHeader_eq given truthy]

theorem committedHeaders_absent (order : MapOrder) {headers : Headers}
    {plan : DirectResponsePlan} (absent : getHeader java headers contentLengthName = none) :
    committedHeaders java order headers plan =
      order.assoc headers contentLengthName (.text (strLong plan.contentLength)) := by
  rw [committedHeaders, truthyHeader, absent, Option.filter_none]

theorem others_of_absent {headers : Headers}
    (absent : getHeader java headers contentLengthName = none) :
    others java headers = headers := by
  rw [getHeader, Option.map_eq_none_iff, findHeader, List.find?_eq_none] at absent
  unfold others
  rw [List.filter_eq_self]
  intro entry mem
  simpa using absent entry mem

theorem contentLengthName_self :
    equalsIgnoreCase java contentLengthName contentLengthName = true := by
  rw [isContentLength_iff, contentLengthName_lower]

theorem others_contentLength (value : HeaderValue) (rest : Headers) :
    others java ((contentLengthName, value) :: rest) = others java rest := by
  simp [others, contentLengthName_self]

/-- Without one the head is the response's entries and the new content length, in some
order. -/
theorem assoc_perm_of_absent (order : MapOrder) {headers : Headers} (value : HeaderValue)
    (absent : getHeader java headers contentLengthName = none) :
    (order.assoc headers contentLengthName value).Perm ((contentLengthName, value) :: headers) := by
  apply order.assoc_perm
  intro entry mem same
  rw [getHeader, Option.map_eq_none_iff, findHeader, List.find?_eq_none] at absent
  apply absent entry mem
  rw [same]
  exact contentLengthName_self

theorem others_perm {a b : Headers} (perm : a.Perm b) :
    (others java a).Perm (others java b) :=
  perm.filter _

/-- The only content length in a map is found whatever the order of its entries. -/
theorem getHeader_of_perm {headers rest : Headers} {value : HeaderValue}
    (perm : headers.Perm ((contentLengthName, value) :: rest))
    (absent : getHeader java rest contentLengthName = none) :
    getHeader java headers contentLengthName = some value := by
  rw [getHeader, Option.map_eq_none_iff, findHeader, List.find?_eq_none] at absent
  unfold getHeader findHeader
  cases found : headers.find? (fun entry => equalsIgnoreCase java contentLengthName entry.1) with
  | none =>
      rw [List.find?_eq_none] at found
      have mem : (contentLengthName, value) ∈ headers := perm.mem_iff.mpr List.mem_cons_self
      exact absurd contentLengthName_self (found _ mem)
  | some entry =>
      have matching := List.find?_some found
      rcases List.mem_cons.mp (perm.mem_iff.mp (List.mem_of_find?_eq_some found)) with own | later
      · rw [own]
        rfl
      · exact absurd matching (absent entry later)

theorem strLong_natCast (n : ℕ) : strLong n = decimal n := by
  rw [strLong, if_neg (by omega), Int.natAbs_natCast]

/-- The generic path expands the same entries and finds the plan's content length. -/
theorem buildHeaders_committed (order : MapOrder) {req : Request} {response : Response}
    {plan : DirectResponsePlan} (eligible : Eligible java req response plan) :
    ∃ entries, entries.Perm (others java response.headers) ∧
      buildHeaders java order (committedHeaders java order response.headers plan) =
        .ok (expandHeaderValues entries, plan.contentLength) := by
  have coerced := eligible.contentLength
  rw [fixedFinalHeaderData_eq] at coerced
  cases given : getHeader java response.headers contentLengthName with
  | some value =>
      simp only [given, contentLengthOr] at coerced
      have truthy := getHeader_isSome_of_coerced coerced
      refine ⟨_, order.into_perm _ (others_distinct response.distinct), ?_⟩
      rw [committedHeaders_given order given truthy, buildHeaders, truthyHeader_eq given truthy,
        dissocHeader_eq]
      simp only [coerced, bind, Except.bind]
  | none =>
      simp only [given, contentLengthOr, Except.ok.injEq] at coerced
      have perm := assoc_perm_of_absent order (.text (strLong plan.contentLength)) given
      have found := getHeader_of_perm perm given
      have same : (others java (order.assoc response.headers contentLengthName
          (.text (strLong plan.contentLength)))).Perm response.headers := by
        have kept := @others_perm java _ _ perm
        rwa [others_contentLength, others_of_absent given] at kept
      have small := eligible.body_le.2
      have parsed : coerceContentLength java (.text (strLong plan.contentLength)) =
          .ok plan.contentLength := by
        rw [← coerced, strLong_natCast, coerceContentLength,
          parseLong_decimal java ⟨by omega, by omega⟩]
      refine ⟨_, (order.into_perm _ ?_).trans (same.trans ?_), ?_⟩
      · exact ((same.map Prod.fst).nodup_iff).mpr response.distinct
      · rw [others_of_absent given]
      · rw [committedHeaders_absent order given, buildHeaders, truthyHeader_eq found rfl,
          dissocHeader_eq]
        simp only [parsed, bind, Except.bind]

/-! The body. -/

/-- A content type that asks for UTF-8, or for no charset. -/
def namesUtf8 (java : JavaText) : HeaderValue → Prop
  | .nil => True
  | .text value => ∀ name, java.contentTypeCharset value = some name → utf8Charset java name = true
  | _ => False

instance (java : JavaText) : (value : HeaderValue) → Decidable (namesUtf8 java value)
  | .nil => .isTrue trivial
  | .text value =>
    decidable_of_iff ((java.contentTypeCharset value).all (utf8Charset java) = true)
      (by cases named : java.contentTypeCharset value <;> simp [namesUtf8, named])
  | .bool _ | .number _ _ | .sequence _ | .other _ => .isFalse not_false

/-- The content types ask for no other charset than UTF-8. -/
def AllNameUtf8 (java : JavaText) (headers : Headers) : Prop :=
  ∀ entry ∈ headers, equalsIgnoreCase java (ascii "Content-Type") entry.1 = true →
    namesUtf8 java entry.2

instance (java : JavaText) (headers : Headers) : Decidable (AllNameUtf8 java headers) :=
  inferInstanceAs (Decidable (∀ entry ∈ headers,
    equalsIgnoreCase java (ascii "Content-Type") entry.1 = true → namesUtf8 java entry.2))

/-- The charset the generic path streams in: Ring's or the one of `get-charset`. -/
def streamCharset (java : JavaText) (ring : Option (RingStreaming java)) (headers : Headers) :
    Except Failure (Option JavaString) :=
  match ring with
  | some _ => ringCharset java headers
  | none => getCharset java headers

/-- The charset of the response depends neither on the order of its header map nor on who
looks it up. The body needs no charset, or every spelling of the header asks for UTF-8. Or the
map is kept, and the spelling Ring finds asks for UTF-8, or there is no Ring. Or there is no
Ring and the lower-case name decides. -/
def CharsetSettled (java : JavaText) (ring : Option (RingStreaming java)) (response : Response) :
    Prop :=
  (∃ bytes, response.body = some (.bytes bytes)) ∨
    AllNameUtf8 java response.headers ∨
    ((∃ value, getHeader java response.headers contentLengthName = some value) ∧
      (ring.isSome = true → ∀ found,
        getHeader java response.headers (ascii "Content-Type") = some found → namesUtf8 java found)) ∨
    (ring.isSome = false ∧ ∃ entry ∈ response.headers, entry.1 = ascii "content-type")

theorem find_key_perm {a b : Headers} (perm : a.Perm b) (distinct : (a.map Prod.fst).Nodup)
    (name : JavaString) :
    a.find? (fun entry => entry.1 == name) = b.find? (fun entry => entry.1 == name) := by
  induction perm with
  | nil => rfl
  | cons entry perm ih =>
      rw [List.map_cons, List.nodup_cons] at distinct
      rw [List.find?_cons, List.find?_cons, ih distinct.2]
  | swap first second rest =>
      have differs : second.1 ≠ first.1 := by
        rw [List.map_cons, List.map_cons, List.nodup_cons] at distinct
        intro same
        exact distinct.1 (by simp [same])
      rw [List.find?_cons, List.find?_cons, List.find?_cons, List.find?_cons]
      by_cases mine : first.1 = name
      · have notOther : (second.1 == name) = false := by
          rw [beq_eq_false_iff_ne]
          exact fun same => differs (same.trans mine.symm)
        rw [notOther, beq_iff_eq.mpr mine]
      · rw [beq_eq_false_iff_ne.mpr mine]
  | trans left right ihLeft ihRight =>
      rw [ihLeft distinct]
      exact ihRight ((left.map Prod.fst).nodup_iff.mp distinct)

/-- A charset that is UTF-8 or absent streams a string as UTF-8, with or without Ring. -/
theorem writeBodyToStream_utf8 (ring : Option (RingStreaming java)) {value : JavaString}
    {headers : Headers} {charset : Option JavaString}
    (found : streamCharset java ring headers = .ok charset)
    (allowed : charsetAllows java (.text value) charset = true) :
    writeBodyToStream java ring (.text value) headers = .ok (utf8Bytes value) := by
  cases charset with
  | none =>
      cases ring with
      | some ring => exact ring.write_text value headers found
      | none =>
          rw [streamCharset] at found
          simp only [writeBodyToStream, stringBodyBytes, found, bind, Except.bind,
            Option.getD_none, java.forName_utf8, getBytes]
  | some name =>
      simp only [charsetAllows, utf8Charset, beq_iff_eq] at allowed
      cases ring with
      | some ring => exact ring.write_charset value headers name .utf8 found allowed
      | none =>
          rw [streamCharset] at found
          simp only [writeBodyToStream, stringBodyBytes, found, bind, Except.bind,
            Option.getD_some, allowed, getBytes]

theorem namedCharset_of_namesUtf8 {content : Option HeaderValue} (value : JavaString)
    (names : ∀ found, content = some found → namesUtf8 java found) :
    ∃ charset, namedCharset java content = .ok charset ∧
      charsetAllows java (.text value) charset = true := by
  cases content with
  | none => exact ⟨none, rfl, rfl⟩
  | some found =>
      have utf8 := names found rfl
      cases found with
      | nil => exact ⟨none, rfl, rfl⟩
      | text text =>
          refine ⟨_, rfl, ?_⟩
          cases named : java.contentTypeCharset text with
          | none => rfl
          | some name => exact utf8 name named
      | _ => exact utf8.elim

/-- The value `find-header` gives for the content type is that of such an entry. -/
theorem getHeader_mem {headers : Headers} {found : HeaderValue}
    (content : getHeader java headers (ascii "Content-Type") = some found) :
    ∃ entry ∈ headers, equalsIgnoreCase java (ascii "Content-Type") entry.1 = true ∧ entry.2 = found := by
  rw [getHeader, findHeader, Option.map_eq_some_iff] at content
  obtain ⟨entry, first, rfl⟩ := content
  have matching := List.find?_some first
  exact ⟨entry, List.mem_of_find?_eq_some first, matching, rfl⟩

/-- So is the value `get-charset` looks at. -/
theorem contentType_mem {headers : Headers} {found : HeaderValue}
    (content : contentType java headers = some found) :
    ∃ entry ∈ headers, equalsIgnoreCase java (ascii "Content-Type") entry.1 = true ∧ entry.2 = found := by
  unfold contentType at content
  cases lower : headers.find? fun entry => entry.1 == ascii "content-type" with
  | some entry =>
      rw [lower] at content
      have named := List.find?_some lower
      refine ⟨entry, List.mem_of_find?_eq_some lower, ?_, Option.some.inj content⟩
      rw [beq_iff_eq.mp named]
      exact contentTypeName_lower java
  | none =>
      rw [lower] at content
      exact getHeader_mem content

/-- If every spelling of the content type asks for UTF-8, so does the one that is found. -/
theorem streamCharset_of_all (ring : Option (RingStreaming java)) {headers : Headers}
    (value : JavaString) (all : AllNameUtf8 java headers) :
    ∃ charset, streamCharset java ring headers = .ok charset ∧
      charsetAllows java (.text value) charset = true := by
  cases ring with
  | some ring =>
      refine namedCharset_of_namesUtf8 value fun found content => ?_
      obtain ⟨entry, mem, matching, rfl⟩ := getHeader_mem content
      exact all entry mem matching
  | none =>
      refine namedCharset_of_namesUtf8 value fun found content => ?_
      obtain ⟨entry, mem, matching, rfl⟩ := contentType_mem content
      exact all entry mem matching

theorem contentTypeName_ne : (contentLengthName == ascii "content-type") = false := by decide

/-- Adding the content length does not change which lower-case content type there is. -/
theorem find_contentType_absent (order : MapOrder) {response : Response} (value : HeaderValue)
    (absent : getHeader java response.headers contentLengthName = none) :
    (order.assoc response.headers contentLengthName value).find?
        (fun entry => entry.1 == ascii "content-type") =
      response.headers.find? (fun entry => entry.1 == ascii "content-type") := by
  have perm := assoc_perm_of_absent order value absent
  have distinct : (((contentLengthName, value) :: response.headers).map Prod.fst).Nodup := by
    rw [List.map_cons, List.nodup_cons]
    refine ⟨?_, response.distinct⟩
    intro mem
    obtain ⟨entry, entryMem, same⟩ := List.mem_map.mp mem
    rw [getHeader, Option.map_eq_none_iff, findHeader, List.find?_eq_none] at absent
    apply absent entry entryMem
    rw [same]
    exact contentLengthName_self
  rw [← find_key_perm perm.symm distinct, List.find?_cons, contentTypeName_ne]

/-- The head of the generic path has the content types of the response. -/
theorem committedHeaders_contentTypes (order : MapOrder) {req : Request} {response : Response}
    {plan : DirectResponsePlan} (eligible : Eligible java req response plan)
    (all : AllNameUtf8 java response.headers) :
    AllNameUtf8 java (committedHeaders java order response.headers plan) := by
  have coerced := eligible.contentLength
  rw [fixedFinalHeaderData_eq] at coerced
  cases given : getHeader java response.headers contentLengthName with
  | some long =>
      simp only [given, contentLengthOr] at coerced
      rwa [committedHeaders_given order given (getHeader_isSome_of_coerced coerced)]
  | none =>
      rw [committedHeaders_absent order given]
      have perm := assoc_perm_of_absent order (.text (strLong plan.contentLength)) given
      intro entry mem matching
      rcases List.mem_cons.mp (perm.mem_iff.mp mem) with own | mem
      · rw [own] at matching
        have length : (ascii "Content-Type").length = contentLengthName.length :=
          equalsIgnoreCase_length matching
        exact absurd length (by decide)
      · exact all entry mem matching

/-- A lower-case content type is found again in the head of the generic path. -/
theorem committedHeaders_lower (order : MapOrder) {req : Request} {response : Response}
    {plan : DirectResponsePlan} (eligible : Eligible java req response plan)
    (lower : ∃ entry ∈ response.headers, entry.1 = ascii "content-type") :
    getCharset java (committedHeaders java order response.headers plan) =
      getCharset java response.headers := by
  have coerced := eligible.contentLength
  rw [fixedFinalHeaderData_eq] at coerced
  cases given : getHeader java response.headers contentLengthName with
  | some long =>
      simp only [given, contentLengthOr] at coerced
      rw [committedHeaders_given order given (getHeader_isSome_of_coerced coerced)]
  | none =>
      have same := find_contentType_absent order (.text (strLong plan.contentLength)) given
      rw [committedHeaders_absent order given, getCharset, getCharset, contentType, contentType, same]
      cases found : response.headers.find? fun entry => entry.1 == ascii "content-type" with
      | some entry => rfl
      | none =>
          obtain ⟨entry, mem, name⟩ := lower
          rw [List.find?_eq_none] at found
          exact absurd (by simpa using name) (found entry mem)

/-- The charset of a settled response survives in the head of the generic path. -/
theorem settled_charset (order : MapOrder) (ring : Option (RingStreaming java)) {req : Request}
    {response : Response} {plan : DirectResponsePlan} (eligible : Eligible java req response plan)
    (settled : CharsetSettled java ring response) {value : JavaString}
    (body : plan.body = .text value) :
    ∃ charset, streamCharset java ring (committedHeaders java order response.headers plan) =
        .ok charset ∧ charsetAllows java (.text value) charset = true := by
  obtain ⟨charset, found, allowed⟩ := eligible.charset
  rw [body] at allowed
  have coerced := eligible.contentLength
  rw [fixedFinalHeaderData_eq] at coerced
  rcases settled with ⟨bytes, isBytes⟩ | all | ⟨⟨long, given⟩, first⟩ | ⟨ringless, entry, mem, name⟩
  · rw [eligible.body, body] at isBytes
    cases isBytes
  · exact streamCharset_of_all ring value (committedHeaders_contentTypes order eligible all)
  · simp only [given, contentLengthOr] at coerced
    rw [committedHeaders_given order given (getHeader_isSome_of_coerced coerced)]
    cases ring with
    | some ring => exact namedCharset_of_namesUtf8 value (first rfl)
    | none => exact ⟨charset, found, allowed⟩
  · cases ring with
    | some ring => cases ringless
    | none =>
        refine ⟨charset, ?_, allowed⟩
        rw [streamCharset, committedHeaders_lower order eligible ⟨entry, mem, name⟩, found]

end

/-- A runtime that also knows Latin-1, with a table for the content types below. -/
def latinText : JavaText :=
  { asciiText with
    forName := fun name =>
      if name = ascii "utf-8" then some .utf8
      else if name = ascii "iso-8859-1" then some (.other 1)
      else none
    encode := fun _ value => value.map fun c => if c.toNat < 256 then c.toUInt8 else replacement
    contentTypeCharset := fun type =>
      if type = ascii "text/plain; charset=utf-8" then some (ascii "utf-8")
      else if type = ascii "text/plain; charset=iso-8859-1" then some (ascii "iso-8859-1")
      else none
    forName_utf8 := if_pos rfl }

/-- Eight headers, two of them spellings of Content-Type, and no content length: adding
one turns the array map into a hash map, which has the Latin-1 spelling first. -/
def spellings : Response where
  status := some 200
  headers :=
    [(ascii "Content-Type", .text (ascii "text/plain; charset=utf-8")),
      (ascii "CONTENT-TYPE", .text (ascii "text/plain; charset=iso-8859-1")),
      (ascii "a", .nil), (ascii "b", .nil), (ascii "c", .nil), (ascii "d", .nil),
      (ascii "e", .nil), (ascii "f", .nil)]
  body := some (.text [0xE9])
  compressHint := none
  distinct := by decide

/-- A Latin-1 spelling before the lower-case one, which names UTF-8. -/
def latinFirst : Response where
  status := some 200
  headers :=
    [(ascii "Content-Type", .text (ascii "text/plain; charset=iso-8859-1")),
      (ascii "content-type", .text (ascii "text/plain; charset=utf-8"))]
  body := some (.text [0xE9])
  compressHint := none
  distinct := by decide

/-- A generic path that streams one byte for the two of the fast path. -/
theorem not_sameResponse {java : JavaText} {order : MapOrder} {ring : Option (RingStreaming java)}
    {response : Response} {plan : DirectResponsePlan} (two : plan.body.encoded.length = 2)
    (streamed : (genericCommitted java order ring response plan).map Committed.body = .ok [0xE9]) :
    ¬ ∃ committed, genericCommitted java order ring response plan = .ok committed ∧
      SameResponse (fastCommitted plan) committed := by
  rintro ⟨committed, generic, same⟩
  rw [generic] at streamed
  simp only [Except.map, Except.ok.injEq] at streamed
  have body := same.body
  rw [streamed] at body
  have length := congrArg List.length body
  rw [fastCommitted, two] at length
  exact absurd length (by decide)

end Busker.FixedFinal
