import Busker.RequestTable.Registered

/-! The request table over whole histories of calls: it is the finite map of what was
registered and not cleaned up since. -/

namespace Busker.RequestTable

open Chains

section
variable {κ : Type*}

/-- What is registered after a history. -/
def registered [DecidableEq κ] : List (Call κ × Answer κ) → Registered κ
  | [] => fun _ => none
  | (next, answer) :: history => Registered.after (registered history) next answer

/-- The table in memory is well formed and holds exactly the map. -/
structure Sound (table : Registered κ) (receiver : Receiver κ) : Prop where
  number (requestSeq : UInt64) (ctx : κ) (moduleId : UInt64) :
    table requestSeq = some (ctx, moduleId) →
      (receiver.ctx ctx).dispatchRequestSeq = requestSeq
  inRange (ctx : κ) : receiver.bucketOf receiver.requestCapacity ctx < receiver.requestCapacity
  chains (i : ℕ) : i < receiver.requestCapacity →
    ∃ xs, Chain receiver.requestBuckets.next (receiver.requestBuckets.read (.bucket i)) xs ∧
      xs.Nodup ∧ ∀ ctx, ctx ∈ xs ↔
        (∃ requestSeq moduleId, table requestSeq = some (ctx, moduleId)) ∧
          receiver.bucketOf receiver.requestCapacity ctx = i
  size : ∃ entries : Finset κ, receiver.requestSize = entries.card ∧ ∀ ctx, ctx ∈ entries ↔
    ∃ requestSeq moduleId, table requestSeq = some (ctx, moduleId)
  load : 4 * receiver.requestSize ≤ 3 * receiver.requestCapacity
  capacity : ∃ k, receiver.requestCapacity = 2 ^ k

theorem Kept.sound {table : Registered κ} {receiver : Receiver κ} {entries : Finset κ}
    (kept : Kept table receiver entries) : Sound table receiver := by
  have members (ctx : κ) : ctx ∈ entries ↔
      ∃ requestSeq moduleId, table requestSeq = some (ctx, moduleId) := by
    constructor
    · exact fun inside => ⟨_, _, (kept.table _ ctx _).mpr ⟨inside, rfl, rfl⟩⟩
    · exact fun ⟨n, m, found⟩ => ((kept.table n ctx m).mp found).1
  refine ⟨fun n ctx m found => ((kept.table n ctx m).mp found).2.1, fun ctx => kept.inRange _,
    fun i inRange => ?_, ⟨entries, kept.size, members⟩, kept.size ▸ kept.load, ?_⟩
  · obtain ⟨xs, chain, own⟩ := kept.holds.chain (inRange.trans_eq kept.length.symm)
    refine ⟨xs, chain, chain.nodup, fun ctx => ?_⟩
    rw [own, members]
  · obtain ⟨k, -, -, power⟩ := kept.capacity
    exact ⟨k, power⟩

variable [DecidableEq κ]

theorem Run.kept {fuel : ℕ} {history : List (Call κ × Answer κ)} {receiver : Receiver κ}
    (run : Run fuel history receiver) (enough : history.length ≤ fuel) :
    ∃ entries, Kept (registered history) receiver entries ∧ entries.card ≤ history.length := by
  induction run with
  | create => exact ⟨∅, kept_create, le_rfl⟩
  | @call history receiver receiver' answer next _ promised done ih =>
      simp only [List.length_cons] at enough
      obtain ⟨entries, kept, few⟩ := ih (by omega)
      obtain ⟨answer', receiver'', done', -, entries', kept', few'⟩ :=
        kept.call (show entries.card < fuel by omega) promised
      obtain ⟨rfl, rfl⟩ := Prod.mk.inj (Option.some.inj (done.symm.trans done'))
      exact ⟨entries', kept', by simp only [List.length_cons]; omega⟩

/-- After any history the table is sound, and the next call ends and answers as the finite map
does; `fuel` links are enough for a walk when there have been fewer calls. -/
theorem requestTable_correct {fuel : ℕ} {history : List (Call κ × Answer κ)}
    {receiver : Receiver κ} (run : Run fuel history receiver) (enough : history.length < fuel) :
    Sound (registered history) receiver ∧
      ∀ next, Promised receiver next → ∃ answer receiver',
        call fuel receiver next = some (answer, receiver') ∧
        Right (registered history) receiver next answer receiver' := by
  obtain ⟨entries, kept, few⟩ := run.kept enough.le
  refine ⟨kept.sound, fun next promised => ?_⟩
  obtain ⟨answer, receiver', done, right, -⟩ :=
    kept.call (show entries.card < fuel by omega) promised
  exact ⟨answer, receiver', done, right⟩

end

/-- Two requests whose numbers share a bucket, a third under a number that is taken, and the
cleanup of the first; the latest call first. -/
def sharedBucket : List (Call ℕ × Answer ℕ) :=
  [(.cleanup 0, .done), (.install 2 true 1 5 true, .installed false), (.allocate 2, .done),
    (.install 1 true 1 5 true, .installed true), (.allocate 1, .done),
    (.install 0 true 1 4 true, .installed true), (.allocate 0, .done)]

theorem sharedBucket_run : ∃ receiver, Run 8 sharedBucket receiver :=
  ⟨_, .call _ (.call _ (.call _ (.call _ (.call _ (.call _ (.call _ .create rfl rfl)
    ⟨rfl, by decide⟩ rfl) rfl rfl) ⟨rfl, by decide⟩ rfl) rfl rfl) ⟨rfl, by decide⟩ rfl) trivial rfl⟩

theorem Right.find_found {table : Registered ℕ} {receiver receiver' : Receiver ℕ} {requestSeq : UInt64}
    {answer : Answer ℕ} (right : Right table receiver (.find requestSeq) answer receiver') :
    answer = .found ((table requestSeq).map Prod.fst) ∧ receiver' = receiver := by
  cases answer with
  | found ctx =>
      obtain ⟨rfl, rfl⟩ := right
      exact ⟨rfl, rfl⟩
  | done | installed => exact right.elim

theorem requestTable_sharedBucket : responseRequestBucket 256 4 = responseRequestBucket 256 5 ∧
    ∃ receiver, Run 8 sharedBucket receiver ∧ Sound (registered sharedBucket) receiver ∧
      call 8 receiver (.find 5) = some (.found (some 1), receiver) ∧
      call 8 receiver (.find 4) = some (.found none, receiver) := by
  obtain ⟨receiver, run⟩ := sharedBucket_run
  obtain ⟨sound, correct⟩ := requestTable_correct run (by decide)
  refine ⟨by decide +kernel, receiver, run, sound, ?_, ?_⟩
  · obtain ⟨answer, receiver', done, right⟩ := correct (.find 5) trivial
    obtain ⟨rfl, rfl⟩ := right.find_found
    exact done
  · obtain ⟨answer, receiver', done, right⟩ := correct (.find 4) trivial
    obtain ⟨rfl, rfl⟩ := right.find_found
    exact done

end Busker.RequestTable
