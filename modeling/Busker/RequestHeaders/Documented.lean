import Busker.RequestHeaders.Decoders
import Mathlib.Data.List.Induction

/-! The documented header map: a string for every lowercased name, the values of which are
joined in the order of their arrival. The code differs from it where a name has one value and
that value is empty. -/

namespace Busker.RequestHeaders

open Busker.FixedFinal (JavaString ascii)

section
variable (decode : List UInt8 → JavaString) (lower : JavaString → JavaString)

def lowerName (header : NativeHeader) : JavaString := lower (decode header.name.bytes)

/-- The value of a header; an empty value is the empty string. -/
def valueText (header : NativeHeader) : JavaString :=
  if header.value.bytes = [] then [] else decode header.value.bytes

/-- What the Ring reference promises of `:headers`. -/
def documented (headers : List NativeHeader) : HeaderMap := fun name =>
  let values := (headers.filter (lowerName decode lower · = name)).map (valueText decode)
  if values = [] then none else some (some ((delimiter name).intercalate values))

/-- Both decoders return the documented map for the headers of a request. -/
structure DecodedAsDocumented (reqMeta : RequestMeta) (headers : List NativeHeader) : Prop where
  snapshot : (decodeRequestSnapshot decode lower
    (copyRequestContext (extractReqMeta reqMeta headers))).map RingData.headers =
      .ok (some (documented decode lower headers))
  native : buildRingHeadersMap decode lower (extractReqMeta reqMeta headers).headers
    (extractReqMeta reqMeta headers).headersLen = .ok (some (documented decode lower headers))

/-- A header has an empty value and no other header has its name. -/
def EmptyAlone (headers : List NativeHeader) : Prop :=
  ∃ front header rest, headers = front ++ header :: rest ∧ header.value.bytes = [] ∧
    ∀ other ∈ front ++ rest, lowerName decode lower other ≠ lowerName decode lower header

end

/-! The reduction, name by name. -/

/-- What the reduction makes of the values of one name. -/
def joined (separator : JavaString) : List (Option JavaString) → Option (Option JavaString)
  | [] => none
  | [value] => some value
  | values => some (some (separator.intercalate (values.map str)))

theorem intercalate_concat {α : Type*} (separator : List α) {values : List (List α)}
    (some' : values ≠ []) (last : List α) :
    separator.intercalate (values ++ [last]) =
      separator.intercalate values ++ separator ++ last := by
  induction values with
  | nil => contradiction
  | cons value values ih =>
      cases values with
      | nil => simp [List.intercalate]
      | cons value' values =>
          have shorter := ih (by simp)
          simp only [List.intercalate, List.cons_append, List.intersperse_cons_cons,
            List.flatten_cons, List.append_assoc] at shorter ⊢
          rw [shorter]

theorem joined_concat (separator : JavaString) (values : List (Option JavaString))
    (value : Option JavaString) :
    joined separator (values ++ [value]) =
      some ((joined separator values).elim value fun existing =>
        some (str existing ++ separator ++ str value)) := by
  cases values with
  | nil => rfl
  | cons first values =>
      cases values with
      | nil => simp [joined, List.intercalate]
      | cons second values =>
          have texts : (first :: second :: (values ++ [value])).map str =
              (first :: second :: values).map str ++ [str value] := by simp
          simp only [List.cons_append, joined, Option.elim]
          rw [texts, intercalate_concat separator (by simp)]
          rfl

theorem addHeader_apply (result : HeaderMap) (name other : JavaString)
    (value : Option JavaString) :
    addHeader result name value other =
      if other = name then some ((result name).elim value fun existing =>
        some (str existing ++ delimiter name ++ str value))
      else result other := by
  unfold addHeader
  cases result name with
  | none => simp [Function.update_apply]
  | some existing => simp [Function.update_apply]

section
variable (decode : List UInt8 → JavaString) (lower : JavaString → JavaString)

/-- The map that the reduction returns. -/
def reduced (headers : List NativeHeader) : HeaderMap :=
  headers.foldl (fun result header =>
    addHeader result (lowerName decode lower header) (ofBytes decode header.value.bytes))
    fun _ => none

theorem reduced_eq (headers : List NativeHeader) (name : JavaString) :
    reduced decode lower headers name = joined (delimiter name)
      ((headers.filter (lowerName decode lower · = name)).map
        fun header => ofBytes decode header.value.bytes) := by
  induction headers using List.reverseRecOn with
  | nil => rfl
  | append_singleton headers header ih =>
      unfold reduced at ih ⊢
      rw [List.foldl_append, List.foldl_cons, List.foldl_nil, addHeader_apply, List.filter_append]
      by_cases own : name = lowerName decode lower header
      · subst own
        simp [ih, joined_concat]
      · simp [own, Ne.symm own, ih]

theorem foldlM_step {headers : List NativeHeader}
    (named : ∀ header ∈ headers, header.name.bytes ≠ []) :
    headers.foldlM (step decode lower) (fun _ => none) = .ok (reduced decode lower headers) := by
  unfold reduced
  generalize (fun _ => none : HeaderMap) = result
  induction headers generalizing result with
  | nil => rfl
  | cons header headers ih =>
      have some' := named header List.mem_cons_self
      rw [List.foldlM_cons, List.foldl_cons,
        ← ih fun other inside => named other (List.mem_cons_of_mem header inside)]
      unfold step
      simp only [ofBytes, if_neg some', lowerCase]
      rfl

theorem str_ofBytes (header : NativeHeader) :
    str (ofBytes decode header.value.bytes) = valueText decode header := by
  unfold ofBytes valueText
  split_ifs <;> rfl

/-- The reduction makes what is documented of the values of a name, but for a single empty one. -/
theorem reduced_documented (headers : List NativeHeader) (name : JavaString) :
    reduced decode lower headers name = documented decode lower headers name ↔
      (headers.filter (lowerName decode lower · = name)).map
        (fun header => ofBytes decode header.value.bytes) ≠ [none] := by
  have texts : (headers.filter (lowerName decode lower · = name)).map (valueText decode) =
      ((headers.filter (lowerName decode lower · = name)).map
        fun header => ofBytes decode header.value.bytes).map str := by
    rw [List.map_map]
    apply List.map_congr_left
    intro header _
    exact (str_ofBytes decode header).symm
  rw [reduced_eq]
  unfold documented
  dsimp only
  rw [texts]
  generalize (headers.filter (lowerName decode lower · = name)).map
    (fun header => ofBytes decode header.value.bytes) = values
  cases values with
  | nil => simp [joined]
  | cons value values =>
      cases values with
      | nil =>
          cases value with
          | none => simp [joined]
          | some text => simp [joined, List.intercalate, str]
      | cons value' values => simp [joined]

theorem emptyAlone_iff (headers : List NativeHeader) :
    EmptyAlone decode lower headers ↔
      ∃ name, (headers.filter (lowerName decode lower · = name)).map
        (fun header => ofBytes decode header.value.bytes) = [none] := by
  constructor
  · rintro ⟨front, header, rest, rfl, empty, alone⟩
    refine ⟨lowerName decode lower header, ?_⟩
    have others (part : List NativeHeader) (inside : ∀ other ∈ part, other ∈ front ++ rest) :
        part.filter (lowerName decode lower · = lowerName decode lower header) = [] := by
      rw [List.filter_eq_nil_iff]
      intro other member
      simpa using alone other (inside other member)
    rw [List.filter_append, List.filter_cons, others front (by simp +contextual),
      others rest (by simp +contextual)]
    simp [ofBytes, empty]
  · rintro ⟨name, single⟩
    obtain ⟨header, only, absent⟩ := List.map_eq_singleton_iff.mp single
    obtain ⟨front, rest, rfl, before, own, after⟩ := List.filter_eq_cons_iff.mp only
    have same : lowerName decode lower header = name := by simpa using own
    refine ⟨front, header, rest, rfl, ?_, ?_⟩
    · by_contra some'
      rw [ofBytes, if_neg some'] at absent
      cases absent
    · intro other inside
      rw [same]
      rcases List.mem_append.mp inside with early | late
      · simpa using before other early
      · simpa using List.filter_eq_nil_iff.mp after other late

/-- Both decoders return the map of the reduction. -/
theorem decodedAsDocumented_reduced (reqMeta : RequestMeta) {headers : List NativeHeader}
    (some' : headers ≠ []) (named : ∀ header ∈ headers, header.name.bytes ≠ []) :
    DecodedAsDocumented decode lower reqMeta headers ↔
      reduced decode lower headers = documented decode lower headers := by
  constructor
  · intro decoded
    have native := decoded.native
    rw [buildRingHeadersMap_eq decode lower reqMeta some', foldlM_step decode lower named] at native
    exact Option.some.inj (Except.ok.inj native)
  · intro same
    refine ⟨?_, ?_⟩
    · rw [decodeRequestSnapshot_eq decode lower reqMeta some', foldlM_step decode lower named, same]
      rfl
    · rw [buildRingHeadersMap_eq decode lower reqMeta some', foldlM_step decode lower named, same]
      rfl

/-- The headers of a request are decoded as documented exactly when no header with an empty
value is the only one of its name. -/
theorem decodedAsDocumented_iff (reqMeta : RequestMeta) {headers : List NativeHeader}
    (some' : headers ≠ []) (named : ∀ header ∈ headers, header.name.bytes ≠ []) :
    DecodedAsDocumented decode lower reqMeta headers ↔ ¬EmptyAlone decode lower headers := by
  rw [decodedAsDocumented_reduced decode lower reqMeta some' named, emptyAlone_iff, not_exists]
  constructor
  · intro same name
    exact (reduced_documented decode lower headers name).mp (congrFun same name)
  · intro full
    funext name
    exact (reduced_documented decode lower headers name).mpr (full name)

end

/-- A string of ASCII characters in memory. -/
def inMemory (text : String) : NativeText :=
  ⟨some fun i => (text.toList.getD i 'x').toNat.toUInt8, text.length⟩

def requestLine : RequestMeta where
  authority := inMemory "localhost"
  method := inMemory "GET"
  path := inMemory "/"
  remoteAddr := inMemory "127.0.0.1"
  scheme := inMemory "http"
  headers := none
  headersLen := 0
  httpVersion := 0x101
  hasBody := 0
  isEarlyData := 0

/-- `Cookie: a`, `X-Test: b`, `cookie:` without a value and `x-test: c`. -/
theorem repeatedNames_decoded :
    DecodedAsDocumented (List.map UInt8.toUInt16) (List.map FixedFinal.asciiLower) requestLine
      [⟨inMemory "Cookie", inMemory "a"⟩, ⟨inMemory "X-Test", inMemory "b"⟩,
        ⟨inMemory "cookie", inMemory ""⟩, ⟨inMemory "x-test", inMemory "c"⟩] := by
  apply (decodedAsDocumented_iff _ _ requestLine (by simp) (by decide)).mpr
  rintro ⟨front, header, rest, split, empty, alone⟩
  have inside : header ∈ front ++ header :: rest := by simp
  rw [← split] at inside
  simp only [List.mem_cons, List.not_mem_nil, or_false] at inside
  rcases inside with rfl | rfl | rfl | rfl
  · exact absurd empty (by decide)
  · exact absurd empty (by decide)
  · let cookie := fun header => decide (lowerName (List.map UInt8.toUInt16)
      (List.map FixedFinal.asciiLower) header = FixedFinal.ascii "cookie")
    have own : cookie ⟨inMemory "cookie", inMemory ""⟩ = true := by decide
    have others : (front ++ rest).countP cookie = 0 := by
      rw [List.countP_eq_zero]
      intro other member same
      exact alone other member ((of_decide_eq_true same).trans (of_decide_eq_true own).symm)
    have counted := congrArg (List.countP cookie) split
    rw [List.countP_append, List.countP_cons_of_pos own] at counted
    rw [List.countP_append] at others
    have two : List.countP cookie [⟨inMemory "Cookie", inMemory "a"⟩,
      ⟨inMemory "X-Test", inMemory "b"⟩, ⟨inMemory "cookie", inMemory ""⟩,
      ⟨inMemory "x-test", inMemory "c"⟩] = 2 := by decide
    omega
  · exact absurd empty (by decide)

/-- `X-Empty:` without a value is `nil`. -/
theorem emptyValue_nil :
    ¬DecodedAsDocumented (List.map UInt8.toUInt16) (List.map FixedFinal.asciiLower) requestLine
      [⟨inMemory "X-Empty", inMemory ""⟩] := by
  rw [decodedAsDocumented_reduced _ _ requestLine (by simp) (by decide)]
  intro same
  have value := (reduced_documented _ _ _ (FixedFinal.ascii "x-empty")).mp (congrFun same _)
  exact value (by decide)

end Busker.RequestHeaders
