import Busker.ContentLength.Commit

/-! The content length of a committed head: it is the one the answer carries, and the
length of the bytes the body will write. -/
namespace Busker.ContentLength

open FixedFinal

variable {cfg : Setting}

/-- How the headers of a head come from those the application gave. -/
inductive Head.Grown (cfg : Setting) (head : Head) : Prop
  | kept (added : head.added = none) (headers : head.headers = head.given)
  | grown (n : ℤ) (added : head.added = some n)
      (headers : head.headers = setHeader cfg.order head.given contentLengthName (strLong n))
      (absent : truthyHeader cfg.java head.given contentLengthName = none)

/-- What `commit-final!` settles on, as far as the content length goes. -/
structure SettledSpec (cfg : Setting) (response : ResponseMap) (final : Bool) (settled : Settled) :
    Prop where
  given : settled.head.given = response.headers
  grown : settled.head.Grown cfg
  sized : ∀ n, settled.head.added = some n → final = true ∧
    ((∃ plan status, settled.plan = some plan ∧ n = plan.contentLength ∧
        Eligible cfg.java cfg.request (response.toResponse status) plan) ∨
      settled.plan = none ∧ ∃ size : ℕ, n = size ∧
        bodySizeInBytes cfg.java response.headers response.body = .ok (some size))
  planned : ∀ plan, settled.plan = some plan →
    (∃ status, Eligible cfg.java cfg.request (response.toResponse status) plan) ∧
      (truthyHeader cfg.java response.headers contentLengthName = none →
        settled.head.added = some plan.contentLength)

theorem fixedFinalData_final {java : JavaText} {req : Request} {response : Response} {final : Bool}
    {plan : DirectResponsePlan} (built : fixedFinalData java req response final = .ok (some plan)) :
    final = true := by
  cases final with
  | true => rfl
  | false =>
      unfold fixedFinalData at built
      cases charset : getCharset java response.headers with
      | error failure =>
          rw [charset] at built
          cases built
      | ok name =>
          rw [charset] at built
          simp only [bind, Except.bind, Bool.false_and, Bool.false_eq_true, if_false] at built
          split at built <;> cases built

theorem commitFinal_spec {response : ResponseMap} {final : Bool} {settled : Settled}
    (h : commitFinal cfg response final = .ok settled) : SettledSpec cfg response final settled := by
  unfold commitFinal at h
  dsimp only at h
  split at h
  · contradiction
  · split at h
    · contradiction
    · rename_i plan built
      obtain rfl := Except.ok.inj h
      have eligible := fixedFinalData_eligible built
      unfold withPlannedLength
      split
      · rename_i supplied
        refine ⟨rfl, .kept rfl rfl, by simp, fun other same => ?_⟩
        obtain rfl := Option.some.inj same
        exact ⟨⟨_, eligible⟩, fun absent => by simp [absent] at supplied⟩
      · rename_i absent
        refine ⟨rfl, .grown plan.contentLength rfl rfl absent, fun n added => ?_, fun other same => ?_⟩
        rotate_left
        · obtain rfl := Option.some.inj same
          exact ⟨⟨_, eligible⟩, fun _ => rfl⟩
        have same : plan.contentLength = n := Option.some.inj added
        exact ⟨fixedFinalData_final built, .inl ⟨plan, _, rfl, same.symm, eligible⟩⟩
    · split at h
      · rename_i final
        split at h
        · rename_i headers length
          obtain rfl := Except.ok.inj h
          unfold withContentLength at length
          split at length
          · obtain rfl := Except.ok.inj length
            exact ⟨rfl, .kept rfl rfl, by simp, by simp⟩
          · rename_i absent
            split at length
            · rename_i size measured
              obtain rfl := Except.ok.inj length
              refine ⟨rfl, .grown size rfl rfl absent, fun n added => ⟨final, .inr ⟨rfl, size, ?_, measured⟩⟩,
                by simp⟩
              exact (Option.some.inj added).symm
            · obtain rfl := Except.ok.inj length
              exact ⟨rfl, .kept rfl rfl, by simp, by simp⟩
            · contradiction
        · contradiction
      · obtain rfl := Except.ok.inj h
        exact ⟨rfl, .kept rfl rfl, by simp, by simp⟩

/-- The streamed answer carries the content length that was added and no other. -/
theorem startResponse_adds {head : Head} {answer : Answer} {n : ℤ} (grown : head.Grown cfg)
    (distinct : (head.given.map Prod.fst).Nodup) (unsupplied : Unsupplied cfg.java head.given)
    (added : ∀ m, head.added = some m → m = n) (h : startResponse cfg head = .ok answer) :
    answer.Adds cfg.java head.given n := by
  unfold startResponse buildHeaders at h
  cases grown with
  | kept _ headers =>
      rw [headers, unsupplied.truthyHeader] at h
      obtain rfl := Except.ok.inj h
      exact ⟨fun given => absurd rfl given, fun header mem _ => .inl mem⟩
  | grown m own headers _ =>
      obtain rfl := added m own
      rw [headers] at h
      cases found : truthyHeader cfg.java
          (setHeader cfg.order head.given contentLengthName (strLong m)) contentLengthName with
      | none =>
          rw [found] at h
          obtain rfl := Except.ok.inj h
          refine ⟨fun given => absurd rfl given, fun header mem matching => ?_⟩
          obtain ⟨entry, known, expanded⟩ := List.mem_flatMap.mp mem
          rcases setHeader_mem known with rfl | known
          · right
            rw [expandHeaderValue, List.mem_singleton] at expanded
            · rw [expanded]
              rfl
            · simp
          · exact .inl (List.mem_flatMap.mpr ⟨entry, known, expanded⟩)
      | some value =>
          rw [found] at h
          simp only [bind, Except.bind] at h
          cases coerced : coerceContentLength cfg.java value with
          | error failure =>
              rw [coerced] at h
              contradiction
          | ok length =>
              rw [coerced] at h
              obtain rfl := Except.ok.inj h
              constructor
              · obtain ⟨entry, mem, matching, rfl, truthy⟩ := truthyHeader_mem found
                rcases setHeader_mem mem with rfl | known
                · exact fun _ => coerce_strLong coerced
                · rw [unsupplied entry known matching] at truthy
                  contradiction
              · intro header mem matching
                rw [dissocHeader_eq] at mem
                have perm := cfg.order.into_perm _ (@others_distinct cfg.java _
                  (@setHeader_distinct cfg.order _ contentLengthName (strLong m) distinct))
                rw [expandHeaderValues_others ((expandHeaderValues_perm perm).mem_iff.mp mem)] at matching
                contradiction

/-- A direct answer carries the length of its body. -/
theorem Eligible.length {req : Request} {response : Response} {plan : DirectResponsePlan}
    (eligible : Eligible cfg.java req response plan)
    (absent : truthyHeader cfg.java response.headers contentLengthName = none) :
    plan.contentLength = plan.body.encoded.length := by
  have coerced := eligible.contentLength
  rw [fixedFinalHeaderData_eq] at coerced
  cases given : getHeader cfg.java response.headers contentLengthName with
  | none =>
      simp only [given, contentLengthOr, Except.ok.injEq] at coerced
      rw [← coerced, eligible.encoded_length]
  | some value =>
      simp only [given, contentLengthOr] at coerced
      rw [truthyHeader_eq given (getHeader_isSome_of_coerced coerced)] at absent
      contradiction

theorem ofPlan_adds {req : Request} {response : Response} {plan : DirectResponsePlan} {n : ℤ}
    (eligible : Eligible cfg.java req response plan) (same : plan.contentLength = n) :
    (Answer.ofPlan plan).Adds cfg.java response.headers n where
  field _ := same
  header header mem matching := by
    rw [Answer.ofPlan, eligible.headers, fixedFinalHeaderData_eq] at mem
    rw [expandHeaderValues_others mem] at matching
    contradiction

/-- What `emit!` writes of the body of a map: nil and false are left out. -/
def writtenOfMap (cfg : Setting) (body : Body) (headers : Headers) : Written :=
  if body.truthy then writeBodyChunk cfg body headers true else ⟨[], false⟩

theorem writtenOfMap_truthy {body : Body} (truthy : body.truthy = true) (headers : Headers) :
    writtenOfMap cfg body headers = writeBodyToStream cfg body headers := by
  rw [writtenOfMap, if_pos truthy, writeBodyChunk, if_pos rfl]

/-- A measured body writes as many bytes as its size says, under any head that keeps its
content types. -/
theorem writtenOfMap_length {headers head : Headers} {body : Body} {size : ℕ}
    (measured : body.Measured cfg headers)
    (keeps : ∀ charset, Asks cfg.java headers charset → Asks cfg.java head charset)
    (sized : bodySizeInBytes cfg.java headers body = .ok (some size)) :
    (writtenOfMap cfg body head).bytes.length = size := by
  cases body with
  | nil =>
      cases sized
      rfl
  | fixed value =>
      cases value with
      | bytes value =>
          cases sized
          rw [writtenOfMap_truthy rfl, writeBodyToStream]
          cases cfg.streaming with
          | some ring => simp [ring.write_bytes]
          | none => simp [writeFallback]
      | text value =>
          obtain ⟨charset, asks⟩ := measured
          rw [bodySizeInBytes, asks.charsetNamed] at sized
          cases sized
          rw [writtenOfMap_truthy rfl, (keeps charset asks).write]
  | file length contents =>
      obtain ⟨present, bytes, rfl, long⟩ := measured
      cases sized
      obtain ⟨ring, streaming⟩ := Option.isSome_iff_exists.mp present
      rw [writtenOfMap_truthy rfl, writeBodyToStream, streaming]
      simp [ring.write_file, long]
  | _ => cases sized

/-- The body of a plan is written as the plan has it, if it is written after all. -/
theorem writtenOfMap_planned {response : ResponseMap} {status : ℤ} {plan : DirectResponsePlan}
    {head : Headers} (measured : response.body.Measured cfg response.headers)
    (keeps : ∀ charset, Asks cfg.java response.headers charset → Asks cfg.java head charset)
    (eligible : Eligible cfg.java cfg.request (response.toResponse status) plan) :
    (writtenOfMap cfg response.body head).bytes.length = plan.body.encoded.length := by
  have planned : response.body.fixed? = some plan.body := eligible.body
  apply writtenOfMap_length measured keeps
  cases body : response.body with
  | fixed value =>
      rw [body] at planned
      obtain rfl := Option.some.inj planned
      cases text : plan.body with
      | bytes value => rfl
      | text value =>
          rw [body, text] at measured
          obtain ⟨charset, asks⟩ := measured
          have named := asks.charsetNamed
          obtain ⟨name, found, allowed⟩ := eligible.charset
          have found : getCharset cfg.java response.headers = .ok name := found
          rw [charsetNamed, found] at named
          simp only [bind, Except.bind, Except.ok.injEq] at named
          have utf8 : charset = .utf8 := by
            rw [text] at allowed
            cases name with
            | none => simpa [cfg.java.forName_utf8, eq_comm] using named
            | some name =>
                simp only [charsetAllows, utf8Charset, beq_iff_eq] at allowed
                simpa [allowed, eq_comm] using named
          rw [bodySizeInBytes, asks.charsetNamed, utf8]
          rfl
  | _ =>
      rw [body] at planned
      contradiction

theorem SettledSpec.keeps {response : ResponseMap} {final : Bool} {settled : Settled}
    (spec : SettledSpec cfg response final settled) {charset : Charset}
    (asks : Asks cfg.java response.headers charset) :
    Asks cfg.java settled.head.headers charset := by
  rw [← spec.given] at asks
  cases spec.grown with
  | kept _ headers => rwa [headers]
  | grown n _ headers _ =>
      rw [headers]
      exact asks.setHeader

/-- The length added to a measured map is the length of its body. -/
theorem SettledSpec.length {response : ResponseMap} {final : Bool} {settled : Settled} {n : ℤ}
    (spec : SettledSpec cfg response final settled)
    (measured : response.body.Measured cfg response.headers) (added : settled.head.added = some n) :
    (writtenOfMap cfg response.body settled.head.headers).bytes.length = n ∧
      ∀ plan, settled.plan = some plan → (plan.body.encoded.length : ℤ) = n := by
  have keeps := fun charset => @SettledSpec.keeps _ _ _ _ spec charset
  obtain ⟨-, ⟨plan, status, planned, rfl, eligible⟩ | ⟨none_planned, size, rfl, sized⟩⟩ := spec.sized n added
  · have absent : truthyHeader cfg.java response.headers contentLengthName = none := by
      cases spec.grown with
      | kept none_added _ =>
          rw [none_added] at added
          contradiction
      | grown _ _ _ absent => rwa [← spec.given]
    have length := Eligible.length eligible absent
    rw [writtenOfMap_planned measured keeps eligible, length]
    refine ⟨rfl, fun other same => ?_⟩
    rw [planned] at same
    rw [Option.some.inj same]
  · rw [writtenOfMap_length measured keeps sized]
    exact ⟨rfl, fun plan planned => by simp [none_planned] at planned⟩

theorem SettledSpec.answers {response : ResponseMap} {final : Bool} {settled : Settled} {n : ℤ}
    {plan : DirectResponsePlan} (spec : SettledSpec cfg response final settled)
    (planned : settled.plan = some plan) (unsupplied : Unsupplied cfg.java settled.head.given)
    (added : ∀ m, settled.head.added = some m → m = n) :
    (Answer.ofPlan plan).Adds cfg.java settled.head.given n := by
  obtain ⟨⟨status, eligible⟩, own⟩ := spec.planned plan planned
  rw [spec.given] at unsupplied ⊢
  exact ofPlan_adds eligible (added _ (own unsupplied.truthyHeader))

/-- Bare body data commits a response without a body. -/
theorem commitFinal_bare {final : Bool} {settled : Settled} {n : ℤ}
    (spec : SettledSpec cfg .bare final settled) (added : settled.head.added = some n) :
    n = 0 ∧ settled.plan = none := by
  obtain ⟨-, ⟨plan, status, -, -, eligible⟩ | ⟨none_planned, size, rfl, sized⟩⟩ := spec.sized n added
  · have none_body := eligible.body
    contradiction
  · cases sized
    exact ⟨rfl, none_planned⟩

end Busker.ContentLength
