import Busker.FixedFinal.Response

/-! Which final responses take the fast path, and the plan built for them. -/
namespace Busker.FixedFinal

def maxHeaderPairs : ℕ := 64
def maxHeaderStagingBytes : ℕ := 16384
def responseRingMaxBodyBytes : ℤ := 32768

/-- `append-fixed-header`: a sequential value gives one pair for each item. -/
def appendFixedHeader (headers : List HeaderPair) (name : JavaString) :
    HeaderValue → List HeaderPair
  | .sequence items => items.foldl (fun result item => result ++ [⟨name, item⟩]) headers
  | value => headers ++ [⟨name, value.str⟩]

/-- One entry of `fixed-final-header-data`. The first content length wins. -/
def fixedFinalHeader (java : JavaText) (result : List HeaderPair × Option HeaderValue)
    (entry : JavaString × HeaderValue) : List HeaderPair × Option HeaderValue :=
  if equalsIgnoreCase java entry.1 (ascii "content-length") then
    (result.1, some (result.2.getD entry.2))
  else (appendFixedHeader result.1 entry.1 entry.2, result.2)

/-- The header pairs, and the content length the response gives, if any. -/
def fixedFinalHeaderData (java : JavaText) (headers : Headers) :
    List HeaderPair × Option HeaderValue :=
  headers.foldl (fixedFinalHeader java) ([], none)

def coerceContentLength (java : JavaText) : HeaderValue → Except Failure ℤ
  | .number (some long) _ => .ok long
  | .number none _ => .error .intOutOfRange
  | .text value =>
    match parseLong java value with
    | some long => .ok long
    | none => .error .numberFormat
  | .nil => .error .numberFormat
  | _ => .error .classCast

/-- `utf8-charset?`; an unknown name throws inside and is not UTF-8. -/
def utf8Charset (java : JavaText) (charset : JavaString) : Bool :=
  java.forName charset == some .utf8

structure DirectResponsePlan where
  moduleId : ℕ
  requestSeq : ℕ
  status : ℤ
  headers : List HeaderPair
  headerBytes : ℕ
  body : FixedBody
  bodyLength : ℕ
  contentLength : ℤ
  compressHint : ℤ
  deriving DecidableEq, Repr

def FixedBody.length : FixedBody → ℕ
  | .text value => utf8Length value
  | .bytes value => value.length

/-- The bytes a fixed body stands for. -/
def FixedBody.encoded : FixedBody → List UInt8
  | .text value => utf8Bytes value
  | .bytes value => value

theorem FixedBody.length_eq (body : FixedBody) : body.length = body.encoded.length := by
  cases body with
  | text value => exact utf8Length_eq value
  | bytes value => rfl

/-- A string body needs no charset or UTF-8. -/
def charsetAllows (java : JavaText) (body : FixedBody) (charset : Option JavaString) : Bool :=
  match body with
  | .bytes _ => true
  | .text _ =>
    match charset with
    | none => true
    | some name => utf8Charset java name

/-- Statuses the fast path takes. -/
def fixedStatus (status : ℤ) : Bool := 200 ≤ status && status != 204 && status != 304

/-- A small body is not compressed by default. -/
def loweredHint (req : Request) (hint : CompressHint) (bodyLength : ℕ) : CompressHint :=
  if hint = .enable ∧ (bodyLength : ℤ) < req.compressMinSize.getD 0 then .disable else hint

def contentLengthOr (java : JavaText) (bodyLength : ℕ) : Option HeaderValue → Except Failure ℤ
  | none => .ok bodyLength
  | some value => coerceContentLength java value

/-- The budgets of `fixed-final-data`: header pairs, staging bytes and body bytes. -/
def withinBudgets (req : Request) (headers : List HeaderPair) (body : FixedBody) : Prop :=
  headers.length ≤ maxHeaderPairs ∧
    descriptorBytes headers + headerBytes headers + 2 * headers.length ≤ maxHeaderStagingBytes ∧
    (body.length : ℤ) ≤ min req.outputBufferSize responseRingMaxBodyBytes

instance (req : Request) (headers : List HeaderPair) (body : FixedBody) :
    Decidable (withinBudgets req headers body) :=
  inferInstanceAs (Decidable (_ ∧ _ ∧ _))

def fixedFinalData (java : JavaText) (req : Request) (response : Response) (final : Bool) :
    Except Failure (Option DirectResponsePlan) := do
  let headerData := fixedFinalHeaderData java response.headers
  let charset ← getCharset java response.headers
  match response.status, response.body with
  | some status, some body =>
    if final && fixedStatus status && decide (0 ≤ req.outputBufferSize) &&
        charsetAllows java body charset then
      if withinBudgets req headerData.1 body then do
        let contentLength ← contentLengthOr java body.length headerData.2
        .ok (some
          { moduleId := req.dispatchModuleId
            requestSeq := req.dispatchRequestSeq
            status := status
            headers := headerData.1
            headerBytes := headerBytes headerData.1
            body := body
            bodyLength := body.length
            contentLength := contentLength
            compressHint := (loweredHint req (getCompressHint response) body.length).value })
      else .ok none
    else .ok none
  | _, _ => .ok none

/-- What `fixed-final-data` promises of the plans it builds. -/
structure Eligible (java : JavaText) (req : Request) (response : Response)
    (plan : DirectResponsePlan) : Prop where
  status : response.status = some plan.status
  status_final : fixedStatus plan.status = true
  buffer : 0 ≤ req.outputBufferSize
  headers : plan.headers = (fixedFinalHeaderData java response.headers).1
  body : response.body = some plan.body
  charset : ∃ charset, getCharset java response.headers = .ok charset ∧
    charsetAllows java plan.body charset = true
  budgets : withinBudgets req plan.headers plan.body
  contentLength : contentLengthOr java plan.bodyLength
    (fixedFinalHeaderData java response.headers).2 = .ok plan.contentLength
  headerBytes : plan.headerBytes = headerBytes plan.headers
  bodyLength : plan.bodyLength = plan.body.length
  moduleId : plan.moduleId = req.dispatchModuleId
  requestSeq : plan.requestSeq = req.dispatchRequestSeq
  compressHint : ∃ hint : CompressHint, plan.compressHint = hint.value

theorem fixedFinalData_eligible {java : JavaText} {req : Request} {response : Response}
    {final : Bool} {plan : DirectResponsePlan}
    (built : fixedFinalData java req response final = .ok (some plan)) :
    Eligible java req response plan := by
  unfold fixedFinalData at built
  cases charset : getCharset java response.headers with
  | error failure =>
      rw [charset] at built
      cases built
  | ok name =>
      rw [charset] at built
      simp only [bind, Except.bind] at built
      split at built
      · rename_i status body hasStatus hasBody
        split at built
        · rename_i allowed
          simp only [Bool.and_eq_true, decide_eq_true_eq] at allowed
          split at built
          · rename_i budgets
            cases length : contentLengthOr java body.length
                (fixedFinalHeaderData java response.headers).2 with
            | error failure =>
                rw [length] at built
                cases built
            | ok contentLength =>
                rw [length] at built
                cases built
                exact {
                  status := hasStatus
                  status_final := allowed.1.1.2
                  buffer := allowed.1.2
                  headers := rfl
                  body := hasBody
                  charset := ⟨name, charset, allowed.2⟩
                  budgets := budgets
                  contentLength := length
                  headerBytes := rfl
                  bodyLength := rfl
                  moduleId := rfl
                  requestSeq := rfl
                  compressHint := ⟨_, rfl⟩ }
          · cases built
        · cases built
      · cases built

namespace Eligible
variable {java : JavaText} {req : Request} {response : Response} {plan : DirectResponsePlan}

theorem status_ge (eligible : Eligible java req response plan) : 200 ≤ plan.status := by
  have final := eligible.status_final
  simp only [fixedStatus, Bool.and_eq_true, decide_eq_true_eq] at final
  exact final.1.1

theorem headers_le (eligible : Eligible java req response plan) :
    plan.headers.length ≤ 64 :=
  eligible.budgets.1

/-- The header bytes, with a NUL and a descriptor for each name and value, fit the budget. -/
theorem staging_le (eligible : Eligible java req response plan) :
    plan.headers.length * 32 + plan.headerBytes + 2 * plan.headers.length ≤ 16384 := by
  have staged := eligible.budgets.2.1
  simp only [descriptorBytes, cljHeaderSize, maxHeaderStagingBytes] at staged
  rw [eligible.headerBytes]
  exact staged

theorem body_le (eligible : Eligible java req response plan) :
    (plan.bodyLength : ℤ) ≤ req.outputBufferSize ∧ plan.bodyLength ≤ 32768 := by
  have fits := eligible.budgets.2.2
  rw [← eligible.bodyLength, responseRingMaxBodyBytes] at fits
  constructor <;> omega

theorem encoded_length (eligible : Eligible java req response plan) :
    plan.body.encoded.length = plan.bodyLength := by
  rw [eligible.bodyLength, FixedBody.length_eq]

end Eligible

end Busker.FixedFinal
