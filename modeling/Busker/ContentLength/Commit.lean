import Busker.ContentLength.Bodies

/-! What `commit-final!` settles before it swaps the head in: whether it adds a content
length, and which. -/
namespace Busker.ContentLength

open FixedFinal

/-- A response map that has a final status, or none. -/
structure ResponseMap where
  status : Option ℤ
  headers : Headers
  body : Body
  compressHint : Option CompressHint
  distinct : (headers.map Prod.fst).Nodup

/-- The map `emit!` commits for bare body data. -/
def ResponseMap.bare : ResponseMap := ⟨some 200, [], .nil, none, List.nodup_nil⟩

/-- The response as `fixed-final-data` looks at it. -/
def ResponseMap.toResponse (response : ResponseMap) (status : ℤ) : Response :=
  ⟨some status, response.headers, response.body.fixed?, response.compressHint, response.distinct⟩

/-- The head in `committed_`. It also remembers the headers the application gave, and the
content length that was added to them. -/
structure Head where
  status : ℤ
  headers : Headers
  compressHint : CompressHint
  given : Headers
  added : Option ℤ
  deriving DecidableEq, Repr

structure Settled where
  head : Head
  plan : Option DirectResponsePlan

/-- `header`: the value replaces the one under the same key. -/
def setHeader (order : MapOrder) (headers : Headers) (name value : JavaString) : Headers :=
  if headers.any fun entry => entry.1 == name then
    headers.map fun entry => if entry.1 == name then (name, .text value) else entry
  else order.assoc headers name (.text value)

variable (cfg : Setting)

def addContentLength (headers : Headers) (size : ℤ) : Headers × Option ℤ :=
  (setHeader cfg.order headers contentLengthName (strLong size), some size)

def withContentLength (headers : Headers) (body : Body) : Except Thrown (Headers × Option ℤ) :=
  match truthyHeader cfg.java headers contentLengthName with
  | some _ => .ok (headers, none)
  | none =>
    match bodySizeInBytes cfg.java headers body with
    | .ok (some size) => .ok (addContentLength cfg headers size)
    | .ok none => .ok (headers, none)
    | .error thrown => .error thrown

/-- The headers of the head for a direct response. -/
def withPlannedLength (headers : Headers) (plan : DirectResponsePlan) : Headers × Option ℤ :=
  match truthyHeader cfg.java headers contentLengthName with
  | some _ => (headers, none)
  | none => addContentLength cfg headers plan.contentLength

/-- `commit-final!` before it reads `committed_`. -/
def commitFinal (response : ResponseMap) (final : Bool) : Except Thrown Settled :=
  let status := response.status.getD 200
  let head := fun (headers : Headers × Option ℤ) =>
    (⟨status, headers.1, response.compressHint.getD .enable, response.headers, headers.2⟩ : Head)
  if status < 200 then .error (.notFinal status)
  else
    match fixedFinalData cfg.java cfg.request (response.toResponse status) final with
    | .error failure => .error (.failure failure)
    | .ok (some plan) => .ok ⟨head (withPlannedLength cfg response.headers plan), some plan⟩
    | .ok none =>
      if final then
        match withContentLength cfg response.headers response.body with
        | .ok headers => .ok ⟨head headers, none⟩
        | .error thrown => .error thrown
      else .ok ⟨head (response.headers, none), none⟩

/-- The head of a response as the native layer is given it. -/
structure Answer where
  status : ℤ
  headers : List HeaderPair
  contentLength : ℤ
  compressHint : ℤ
  deriving DecidableEq, Repr

def Answer.ofPlan (plan : DirectResponsePlan) : Answer :=
  ⟨plan.status, plan.headers, plan.contentLength, plan.compressHint⟩

/-- The start command of a streamed response. -/
def startResponse (head : Head) : Except Failure Answer := do
  let (headers, contentLength) ← buildHeaders cfg.java cfg.order head.headers
  .ok ⟨head.status, headers, contentLength, head.compressHint.value⟩

/-- The application supplies no content length, under whatever spelling. -/
def Unsupplied (java : JavaText) (headers : Headers) : Prop :=
  ∀ entry ∈ headers, equalsIgnoreCase java contentLengthName entry.1 = true →
    entry.2.truthy = false

/-- Every content length of the answer that the application has not given is `n`. -/
structure Answer.Adds (java : JavaText) (given : Headers) (n : ℤ) (answer : Answer) : Prop where
  field : answer.contentLength ≠ -1 → answer.contentLength = n
  header : ∀ header ∈ answer.headers, equalsIgnoreCase java contentLengthName header.name = true →
    header ∈ expandHeaderValues given ∨ header.value = strLong n

section
variable {java : JavaText} {order : MapOrder} {headers : Headers} {name value : JavaString}

theorem parseLong_strLong (java : JavaText) (n : ℤ) : parseLong java (strLong n) = asLong n := by
  unfold strLong
  split
  · rename_i negative
    obtain ⟨d, rest, -, printed⟩ := decimal_first n.natAbs
    have digits := parseDigits_decimal java n.natAbs
    rw [parseLong, if_pos rfl, if_neg (by simp [printed]), digits, Option.bind_some]
    congr 1
    omega
  · rename_i positive
    rw [parseLong_decimal_eq]
    congr 1
    omega

theorem coerce_strLong {n m : ℤ}
    (coerced : coerceContentLength java (.text (strLong n)) = .ok m) : m = n := by
  rw [coerceContentLength, parseLong_strLong, asLong] at coerced
  split at coerced
  · rename_i long parsed
    split at parsed
    · cases parsed
      exact (Except.ok.inj coerced).symm
    · contradiction
  · contradiction

theorem setHeader_mem {entry : JavaString × HeaderValue}
    (mem : entry ∈ setHeader order headers name value) :
    entry = (name, .text value) ∨ entry ∈ headers := by
  unfold setHeader at mem
  split at mem
  · obtain ⟨old, known, rfl⟩ := List.mem_map.mp mem
    split
    · exact .inl rfl
    · exact .inr known
  · rename_i fresh
    have perm := order.assoc_perm headers name (.text value) fun entry known same =>
      fresh (List.any_eq_true.mpr ⟨entry, known, beq_iff_eq.mpr same⟩)
    exact List.mem_cons.mp (perm.mem_iff.mp mem)

theorem mem_setHeader {entry : JavaString × HeaderValue} (mem : entry ∈ headers)
    (other : entry.1 ≠ name) : entry ∈ setHeader order headers name value := by
  unfold setHeader
  split
  · refine List.mem_map.mpr ⟨entry, mem, ?_⟩
    rw [if_neg]
    simpa using other
  · rename_i fresh
    have perm := order.assoc_perm headers name (.text value) fun entry known same =>
      fresh (List.any_eq_true.mpr ⟨entry, known, beq_iff_eq.mpr same⟩)
    exact perm.mem_iff.mpr (List.mem_cons_of_mem _ mem)

theorem setHeader_distinct (distinct : (headers.map Prod.fst).Nodup) :
    ((setHeader order headers name value).map Prod.fst).Nodup := by
  unfold setHeader
  split
  · have same : (headers.map fun entry =>
        if entry.1 == name then (name, HeaderValue.text value) else entry).map Prod.fst =
        headers.map Prod.fst := by
      rw [List.map_map]
      apply List.map_congr_left
      intro entry _
      simp only [Function.comp_apply]
      split
      · rename_i here
        exact (beq_iff_eq.mp here).symm
      · rfl
    rwa [same]
  · rename_i fresh
    have absent : ∀ entry ∈ headers, entry.1 ≠ name := fun entry known same =>
      fresh (List.any_eq_true.mpr ⟨entry, known, beq_iff_eq.mpr same⟩)
    have perm := order.assoc_perm headers name (.text value) absent
    rw [(perm.map Prod.fst).nodup_iff, List.map_cons, List.nodup_cons]
    refine ⟨?_, distinct⟩
    intro known
    obtain ⟨entry, mem, same⟩ := List.mem_map.mp known
    exact absent entry mem same

theorem contentLength_not_contentType (java : JavaText) :
    isContentType java contentLengthName = false := by
  rw [Bool.eq_false_iff]
  intro same
  have lengths := equalsIgnoreCase_length same
  exact absurd lengths (by decide)

/-- The content length says nothing about the charset. -/
theorem Asks.setHeader {charset : Charset} (asks : Asks java headers charset) :
    Asks java (setHeader order headers contentLengthName value) charset where
  each entry mem matching := by
    rcases setHeader_mem mem with rfl | known
    · rw [contentLength_not_contentType] at matching
      contradiction
    · exact asks.each entry known matching
  default none := by
    apply asks.default
    intro entry mem
    by_cases same : entry.1 = contentLengthName
    · rw [same]
      exact contentLength_not_contentType java
    · exact none entry (mem_setHeader mem same)

theorem truthyHeader_mem {found : HeaderValue}
    (h : truthyHeader java headers contentLengthName = some found) :
    ∃ entry ∈ headers, equalsIgnoreCase java contentLengthName entry.1 = true ∧
      entry.2 = found ∧ found.truthy = true := by
  rw [truthyHeader, Option.filter_eq_some_iff, getHeader, Option.map_eq_some_iff] at h
  obtain ⟨⟨entry, first, rfl⟩, truthy⟩ := h
  have matching := List.find?_some first
  exact ⟨entry, List.mem_of_find?_eq_some first, matching, rfl, truthy⟩

theorem Unsupplied.truthyHeader (unsupplied : Unsupplied java headers) :
    truthyHeader java headers contentLengthName = none := by
  cases h : FixedFinal.truthyHeader java headers contentLengthName with
  | none => rfl
  | some found =>
      obtain ⟨entry, mem, matching, rfl, truthy⟩ := truthyHeader_mem h
      rw [unsupplied entry mem matching] at truthy
      contradiction

theorem expandHeaderValues_others {header : HeaderPair}
    (mem : header ∈ expandHeaderValues (others java headers)) :
    equalsIgnoreCase java contentLengthName header.name = false := by
  obtain ⟨entry, kept, expanded⟩ := List.mem_flatMap.mp mem
  have other := (List.mem_filter.mp kept).2
  rw [expandHeaderValue_name expanded]
  simpa using other

end

end Busker.ContentLength
