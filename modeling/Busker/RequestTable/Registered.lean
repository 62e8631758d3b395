import Busker.RequestTable.Table
import Mathlib.Tactic.Common

/-! The finite map the request table stands for: which context is registered under a number,
with its module. Every call on the table is the call on the map, and keeps each entry in the
bucket of its own hash. -/

namespace Busker.RequestTable

open Chains

section
variable {κ : Type*}

/-- The context registered under a number, and the module it was registered for. -/
abbrev Registered (κ : Type*) := UInt64 → Option (κ × UInt64)

def Registered.after [DecidableEq κ] (table : Registered κ) : Call κ → Answer κ → Registered κ
  | .install ctx _ moduleId requestSeq _, .installed true =>
      Function.update table requestSeq (some (ctx, moduleId))
  | .cleanup ctx, _ => fun requestSeq => (table requestSeq).filter (·.1 ≠ ctx)
  | _, _ => table

/-- There is room for one more entry, or the table can grow. -/
def Roomy (receiver : Receiver κ) (allocated : Bool) : Prop :=
  4 * (receiver.requestSize + 1) ≤ 3 * receiver.requestCapacity ∨
    receiver.requestCapacity < 2 ^ 60 ∧ allocated = true

/-- The answer is the map's, and a registration that fails changes nothing. -/
def Right (table : Registered κ) (receiver : Receiver κ) :
    Call κ → Answer κ → Receiver κ → Prop
  | .find requestSeq, .found ctx, receiver' =>
      ctx = (table requestSeq).map Prod.fst ∧ receiver' = receiver
  | .response moduleId requestSeq, .found ctx, receiver' =>
      ctx = ((table requestSeq).filter (·.2 = moduleId)).map Prod.fst ∧ receiver' = receiver
  | .install _ accepts moduleId requestSeq allocated, .installed registered, receiver' =>
      (registered = true ↔ accepts = true ∧ moduleId ≠ 0 ∧ requestSeq ≠ 0 ∧
        table requestSeq = none ∧ Roomy receiver allocated) ∧
        (registered = false → receiver' = receiver)
  | .allocate _, .done, _ => True
  | .cleanup _, .done, _ => True
  | _, _, _ => False

/-- `entries` are the contexts in the table. -/
structure Kept (table : Registered κ) (receiver : Receiver κ) (entries : Finset κ) : Prop where
  holds : receiver.requestBuckets.Holds (receiver.bucketOf receiver.requestCapacity) entries
  length : receiver.requestBuckets.heads.length = receiver.requestCapacity
  capacity : ∃ k, 8 ≤ k ∧ k ≤ 60 ∧ receiver.requestCapacity = 2 ^ k
  size : receiver.requestSize = entries.card
  load : 4 * entries.card ≤ 3 * receiver.requestCapacity
  members (ctx : κ) : ctx ∈ entries ↔ (receiver.ctx ctx).responseReceiver = true
  live (ctx : κ) : ctx ∈ entries →
    (receiver.ctx ctx).cleanup = false ∧ (receiver.ctx ctx).dispatchRequestSeq ≠ 0
  table (requestSeq : UInt64) (ctx : κ) (moduleId : UInt64) :
    table requestSeq = some (ctx, moduleId) ↔
      ctx ∈ entries ∧ (receiver.ctx ctx).dispatchRequestSeq = requestSeq ∧
        (receiver.ctx ctx).dispatchModuleId = moduleId

theorem responseRequestBucket_lt {capacity k : ℕ} (power : capacity = 2 ^ k)
    (requestSeq : UInt64) : responseRequestBucket capacity requestSeq < capacity := by
  subst power
  unfold responseRequestBucket
  dsimp only
  rw [Nat.and_two_pow_sub_one_eq_mod]
  exact Nat.mod_lt _ (Nat.two_pow_pos k)

variable {table : Registered κ} {receiver : Receiver κ} {entries : Finset κ} {fuel : ℕ}

theorem kept_create : Kept (fun _ => none) (Receiver.create κ) ∅ where
  holds := Links.holds_empty _ _ _
  length := List.length_replicate
  capacity := ⟨8, by omega, by omega, rfl⟩
  size := rfl
  load := by simp
  members _ := ⟨fun inside => by simp at inside, fun set => by cases set⟩
  live _ inside := by simp at inside
  table := by simp

theorem Kept.inRange (kept : Kept table receiver entries) (requestSeq : UInt64) :
    responseRequestBucket receiver.requestCapacity requestSeq < receiver.requestCapacity := by
  obtain ⟨k, -, -, power⟩ := kept.capacity
  exact responseRequestBucket_lt power requestSeq

theorem Kept.zero (kept : Kept table receiver entries) : table 0 = none := by
  apply Option.eq_none_iff_forall_ne_some.mpr
  intro ⟨ctx, moduleId⟩ found
  obtain ⟨inside, number, -⟩ := (kept.table 0 ctx moduleId).mp found
  exact (kept.live ctx inside).2 number

theorem Kept.small (kept : Kept table receiver entries) :
    receiver.requestCapacity ≤ 2 ^ 60 ∧
      ∃ quarter, 0 < quarter ∧ receiver.requestCapacity = 4 * quarter := by
  obtain ⟨k, big, small, power⟩ := kept.capacity
  refine ⟨power ▸ Nat.pow_le_pow_right (by omega) small, 2 ^ (k - 2),
    Nat.two_pow_pos _, ?_⟩
  rw [power, show 4 = 2 ^ 2 from rfl, ← pow_add]
  congr 1
  omega

variable [DecidableEq κ]

theorem Kept.find (kept : Kept table receiver entries) (enough : entries.card < fuel)
    (requestSeq : UInt64) :
    findResponseRequest fuel receiver requestSeq = some ((table requestSeq).map Prod.fst) := by
  unfold findResponseRequest
  by_cases zero : requestSeq = 0
  · rw [if_pos zero, zero, kept.zero]
    rfl
  rw [if_neg zero]
  have inRange := (kept.inRange requestSeq).trans_eq kept.length.symm
  obtain ⟨found, walked, hit, miss⟩ := kept.holds.walk inRange
    (fun ctx => (receiver.ctx ctx).dispatchRequestSeq == requestSeq) enough
  dsimp only
  rw [walked]
  congr 1
  cases found with
  | some ctx =>
      obtain ⟨inside, number⟩ := hit ctx rfl
      have registered := (kept.table requestSeq ctx _).mpr ⟨inside, eq_of_beq number, rfl⟩
      rw [registered]
      rfl
  | none =>
      cases entry : table requestSeq with
      | none => rfl
      | some entry' =>
          obtain ⟨ctx, moduleId⟩ := entry'
          obtain ⟨inside, number, -⟩ := (kept.table requestSeq ctx moduleId).mp entry
          have absent := miss rfl ctx inside
            (congrArg (responseRequestBucket receiver.requestCapacity) number)
          simp [number] at absent

/-- A resize puts every entry into its bucket of the new capacity. -/
theorem Kept.resize (kept : Kept table receiver entries) (enough : entries.card < fuel)
    (below : receiver.requestCapacity < 2 ^ 60) :
    ∃ receiver', resizeResponseRequests fuel receiver (receiver.requestCapacity * 2) true =
        some (true, receiver') ∧
      Kept table receiver' entries ∧ receiver'.ctx = receiver.ctx ∧
      receiver'.requestCapacity = receiver.requestCapacity * 2 := by
  obtain ⟨k, big, small, power⟩ := kept.capacity
  have power' : receiver.requestCapacity * 2 = 2 ^ (k + 1) := by rw [power, pow_succ]
  have inRange (ctx : κ) : receiver.bucketOf receiver.requestCapacity ctx <
      receiver.requestBuckets.heads.length := by
    rw [kept.length]
    exact kept.inRange _
  have newRange (ctx : κ) : receiver.bucketOf (receiver.requestCapacity * 2) ctx <
      receiver.requestCapacity * 2 := responseRequestBucket_lt power' _
  obtain ⟨buckets, relinked, holds, length⟩ := kept.holds.relink inRange newRange enough
  have allowed : ¬(receiver.requestCapacity * 2 = 0 ∨
      sizeMax / 8 < receiver.requestCapacity * 2) := by
    have := newRange
    have positive : 0 < 2 ^ k := Nat.two_pow_pos k
    unfold sizeMax
    omega
  unfold resizeResponseRequests
  rw [if_neg allowed, relinked]
  refine ⟨_, rfl, ?_, rfl, rfl⟩
  have notLast : k < 60 := by
    by_contra last
    have : k = 60 := by omega
    subst this
    omega
  exact { kept with
    holds := holds
    length := length
    capacity := ⟨k + 1, by omega, by omega, power'⟩
    load := by
      have := kept.load
      dsimp only
      omega }

/-- The growth fails only when there is no room and no larger table, and then changes nothing. -/
theorem Kept.grow (kept : Kept table receiver entries) (enough : entries.card < fuel)
    (allocated : Bool) :
    (¬Roomy receiver allocated ∧
        growResponseRequests fuel receiver allocated = some (false, receiver)) ∨
      Roomy receiver allocated ∧
        ∃ receiver', growResponseRequests fuel receiver allocated = some (true, receiver') ∧
          Kept table receiver' entries ∧ receiver'.ctx = receiver.ctx ∧
          4 * (entries.card + 1) ≤ 3 * receiver'.requestCapacity := by
  obtain ⟨large, quarter, positive, parts⟩ := kept.small
  have size := kept.size
  have load := kept.load
  have plain : sizeT (receiver.requestSize + 1) = receiver.requestSize + 1 := by
    unfold sizeT
    omega
  have twice : sizeT (receiver.requestCapacity * 2) = receiver.requestCapacity * 2 := by
    unfold sizeT
    omega
  unfold growResponseRequests Roomy
  rw [plain, twice]
  by_cases full : receiver.requestCapacity - receiver.requestCapacity / 4 <
      receiver.requestSize + 1
  · have noRoom : ¬4 * (receiver.requestSize + 1) ≤ 3 * receiver.requestCapacity := by omega
    have notOverflowing : ¬sizeMax / 2 < receiver.requestCapacity := by
      unfold sizeMax
      omega
    rw [if_pos full, if_neg notOverflowing]
    by_cases below : receiver.requestCapacity < 2 ^ 60
    · cases allocated with
      | false =>
          refine .inl ⟨by simp [noRoom], ?_⟩
          unfold resizeResponseRequests
          split_ifs
          · rfl
          · rfl
          · contradiction
      | true =>
          obtain ⟨receiver', resized, kept', same, capacity⟩ := kept.resize enough below
          exact .inr ⟨.inr ⟨below, rfl⟩, receiver', resized, kept', same, by omega⟩
    · have tooLarge : sizeMax / 8 < receiver.requestCapacity * 2 := by
        unfold sizeMax
        omega
      refine .inl ⟨fun roomy => roomy.elim noRoom fun smaller => below smaller.1, ?_⟩
      unfold resizeResponseRequests
      rw [if_pos (.inr tooLarge)]
  · have room : 4 * (receiver.requestSize + 1) ≤ 3 * receiver.requestCapacity := by omega
    rw [if_neg full]
    exact .inr ⟨.inl room, receiver, rfl, kept, rfl, by omega⟩

/-- The context of a request that is not in the table may be written. -/
theorem Kept.setCtx (kept : Kept table receiver entries) {ctx : κ} (absent : ctx ∉ entries)
    {context : Context} (away : context.responseReceiver = false) :
    Kept table (receiver.setCtx ctx context) entries := by
  have other {c : κ} (inside : c ∈ entries) :
      (receiver.setCtx ctx context).ctx c = receiver.ctx c := by
    have apart : c ≠ ctx := fun same => absent (same ▸ inside)
    exact Function.update_of_ne apart _ _
  exact { kept with
    holds := kept.holds.congr fun c inside => by
      unfold Receiver.bucketOf
      rw [other inside]
      rfl
    members := fun c => by
      by_cases same : c = ctx
      · subst same
        simp [Receiver.setCtx, absent, away]
      · simpa [Receiver.setCtx, Function.update_of_ne same] using kept.members c
    live := fun c inside => by
      rw [other inside]
      exact kept.live c inside
    table := fun requestSeq c moduleId => by
      rw [kept.table]
      apply and_congr_right
      intro inside
      rw [other inside] }

/-- A new entry is the first of its bucket. -/
theorem Kept.added (kept : Kept table receiver entries) {ctx : κ} (absent : ctx ∉ entries)
    {moduleId requestSeq : UInt64} (vacant : table requestSeq = none) (number : requestSeq ≠ 0)
    (alive : (receiver.ctx ctx).cleanup = false)
    (room : 4 * (entries.card + 1) ≤ 3 * receiver.requestCapacity) :
    Kept (Function.update table requestSeq (some (ctx, moduleId)))
      (Receiver.setCtx { receiver with
        requestBuckets := receiver.requestBuckets.push
          (responseRequestBucket receiver.requestCapacity requestSeq) ctx
        requestSize := sizeT (receiver.requestSize + 1) } ctx { receiver.ctx ctx with
          responseReceiver := true
          dispatchModuleId := moduleId
          dispatchRequestSeq := requestSeq })
      (insert ctx entries) := by
  have other {c : κ} (inside : c ∈ entries) : c ≠ ctx := fun same => absent (same ▸ inside)
  obtain ⟨large, -⟩ := kept.small
  have size := kept.size
  have card := Finset.card_insert_of_notMem absent
  generalize context : { receiver.ctx ctx with
    responseReceiver := true
    dispatchModuleId := moduleId
    dispatchRequestSeq := requestSeq } = installed
  have own : installed.dispatchRequestSeq = requestSeq := by rw [← context]
  have bucketOwn : responseRequestBucket receiver.requestCapacity requestSeq =
      (receiver.setCtx ctx installed).bucketOf receiver.requestCapacity ctx := by
    simp [Receiver.bucketOf, Receiver.setCtx, own]
  have holds : receiver.requestBuckets.Holds
      ((receiver.setCtx ctx installed).bucketOf receiver.requestCapacity) entries := by
    apply kept.holds.congr
    intro c inside
    simp [Receiver.bucketOf, Receiver.setCtx, Function.update_of_ne (other inside)]
  have inRange := (kept.inRange requestSeq).trans_eq kept.length.symm
  rw [bucketOwn] at inRange
  have pushed := holds.push absent inRange
  rw [← bucketOwn] at pushed
  refine ⟨pushed, ?_, kept.capacity, ?_, by rw [card]; exact room, fun c => ?_, fun c inside => ?_,
    fun n c m => ?_⟩
  · exact List.length_set.trans kept.length
  · show sizeT (receiver.requestSize + 1) = _
    unfold sizeT
    omega
  · by_cases same : c = ctx
    · subst same
      simp [Receiver.setCtx, ← context]
    · simpa [Receiver.setCtx, Function.update_of_ne same, same] using kept.members c
  · by_cases same : c = ctx
    · subst same
      simp [Receiver.setCtx, ← context, alive, number]
    · have old := (Finset.mem_insert.mp inside).resolve_left same
      simpa [Receiver.setCtx, Function.update_of_ne same] using kept.live c old
  · have fields : (receiver.setCtx ctx installed).ctx ctx = installed := by
      simp [Receiver.setCtx]
    show _ ↔ _ ∧ ((receiver.setCtx ctx installed).ctx c).dispatchRequestSeq = n ∧
      ((receiver.setCtx ctx installed).ctx c).dispatchModuleId = m
    by_cases same : c = ctx
    · subst same
      rw [fields, ← context]
      by_cases here : n = requestSeq
      · subst here
        simp
      · rw [Function.update_of_ne here]
        constructor
        · exact fun registered => (absent ((kept.table n c m).mp registered).1).elim
        · exact fun ⟨_, eq, _⟩ => (here eq.symm).elim
    · have old : (receiver.setCtx ctx installed).ctx c = receiver.ctx c :=
        Function.update_of_ne same _ _
      rw [old, Finset.mem_insert, or_iff_right same, ← kept.table n c m]
      by_cases here : n = requestSeq
      · subst here
        simp [vacant, Ne.symm same]
      · rw [Function.update_of_ne here]

/-- An entry is taken out of its bucket. -/
theorem Kept.removed (kept : Kept table receiver entries) (enough : entries.card < fuel)
    {ctx : κ} (inside : ctx ∈ entries) :
    ∃ receiver', unregisterResponseRequest fuel receiver ctx
        (receiver.ctx ctx).dispatchRequestSeq = some receiver' ∧
      Kept (fun requestSeq => (table requestSeq).filter (·.1 ≠ ctx))
        (receiver'.setCtx ctx ⟨0, 0, false, true⟩) (entries.erase ctx) := by
  have registered := (kept.members ctx).mp inside
  obtain ⟨-, number⟩ := kept.live ctx inside
  obtain ⟨large, -⟩ := kept.small
  have size := kept.size
  have load := kept.load
  have card := Finset.card_erase_of_mem inside
  have positive := Finset.card_pos.mpr ⟨ctx, inside⟩
  have inRange := (kept.inRange (receiver.ctx ctx).dispatchRequestSeq).trans_eq kept.length.symm
  obtain ⟨buckets, unlinked, holds, length⟩ := kept.holds.unlink inside inRange enough
  have less : sizeT (receiver.requestSize + sizeMax) = (entries.erase ctx).card := by
    unfold sizeT sizeMax
    omega
  have removed : unregisterResponseRequest fuel receiver ctx
      (receiver.ctx ctx).dispatchRequestSeq = some { receiver with
        requestBuckets := buckets
        requestSize := (entries.erase ctx).card } := by
    unfold Receiver.bucketOf at unlinked
    unfold unregisterResponseRequest
    rw [if_neg (by simp [registered, number])]
    simp only [unlinked, Option.bind_eq_bind, Option.bind_some, if_true, less]
    rfl
  refine ⟨_, removed, ?_, length.trans kept.length, kept.capacity, rfl, ?_, fun c => ?_,
    fun c inside' => ?_, fun n c m => ?_⟩
  · apply holds.congr
    intro c inside'
    have other := Finset.ne_of_mem_erase inside'
    simp [Receiver.bucketOf, Receiver.setCtx, Function.update_of_ne other]
  · show 4 * (entries.erase ctx).card ≤ 3 * receiver.requestCapacity
    omega
  · by_cases same : c = ctx
    · subst same
      simp [Receiver.setCtx]
    · simpa [Receiver.setCtx, same] using kept.members c
  · have other := Finset.ne_of_mem_erase inside'
    simpa [Receiver.setCtx, Function.update_of_ne other] using
      kept.live c (Finset.mem_of_mem_erase inside')
  · rw [Option.filter_eq_some_iff, kept.table]
    by_cases same : c = ctx
    · subst same
      simp
    · simp [Receiver.setCtx, same]

theorem Kept.install (kept : Kept table receiver entries) (enough : entries.card < fuel)
    {ctx : κ} {accepts : Bool} {moduleId requestSeq : UInt64} {allocated : Bool}
    (promised : Promised receiver (.install ctx accepts moduleId requestSeq allocated)) :
    ∃ registered receiver',
      installRequestDispatch fuel receiver ctx accepts moduleId requestSeq allocated =
        some (registered, receiver') ∧
      Right table receiver (.install ctx accepts moduleId requestSeq allocated)
        (.installed registered) receiver' ∧
      ∃ entries', Kept (Registered.after table
          (.install ctx accepts moduleId requestSeq allocated) (.installed registered))
          receiver' entries' ∧ entries'.card ≤ entries.card + 1 := by
  unfold installRequestDispatch
  by_cases refused : !accepts ∨ moduleId = 0 ∨ requestSeq = 0
  · rw [if_pos refused]
    refine ⟨false, receiver, rfl, ⟨?_, fun _ => rfl⟩, entries, kept, Nat.le_succ _⟩
    simp only [Bool.false_eq_true, false_iff]
    rintro ⟨rfl, module, number, -⟩
    simp [module, number] at refused
  rw [if_neg refused]
  simp only [not_or, Bool.not_eq_true', Bool.not_eq_false] at refused
  obtain ⟨rfl, module, number⟩ := refused
  unfold registerResponseRequest
  rw [kept.find enough]
  cases entry : table requestSeq with
  | some registered =>
      refine ⟨false, receiver, rfl, ⟨?_, fun _ => rfl⟩, entries, kept, Nat.le_succ _⟩
      simp [entry]
  | none =>
      have absent : ctx ∉ entries := by
        intro inside
        have same := promised.2 ((kept.members ctx).mp inside)
        have registered := (kept.table requestSeq ctx _).mpr ⟨inside, same, rfl⟩
        rw [entry] at registered
        cases registered
      rcases kept.grow enough allocated with
        ⟨full, failed⟩ | ⟨roomy, receiver', grown, kept', same, room⟩
      · refine ⟨false, receiver, ?_, ⟨?_, fun _ => rfl⟩, entries, kept, Nat.le_succ _⟩
        · simp [failed]
        · simp [full]
      · refine ⟨true, _, by simp [grown], ⟨?_, by simp⟩, insert ctx entries,
          kept'.added absent entry number (by rw [same]; exact promised.1) room,
          Finset.card_insert_le ctx entries⟩
        simp [module, number, entry, roomy]

theorem Kept.cleanup (kept : Kept table receiver entries) (enough : entries.card < fuel)
    (ctx : κ) :
    ∃ receiver' entries', cleanupRequest fuel receiver ctx = some receiver' ∧
      Kept (fun requestSeq => (table requestSeq).filter (·.1 ≠ ctx)) receiver' entries' ∧
      entries'.card ≤ entries.card := by
  unfold cleanupRequest
  by_cases inside : ctx ∈ entries
  · obtain ⟨receiver', removed, kept'⟩ := kept.removed enough inside
    refine ⟨_, _, ?_, kept', Finset.card_erase_le⟩
    simp [removed]
  · have away : (receiver.ctx ctx).responseReceiver = false := by
      simpa [kept.members ctx] using inside
    have same : (fun requestSeq => (table requestSeq).filter (·.1 ≠ ctx)) = table := by
      funext requestSeq
      cases entry : table requestSeq with
      | none => rfl
      | some registered =>
          have old := ((kept.table requestSeq registered.1 registered.2).mp entry).1
          have other : registered.1 ≠ ctx := fun eq => inside (eq ▸ old)
          simp [Option.filter, other]
    rw [same]
    refine ⟨receiver.setCtx ctx ⟨0, 0, false, true⟩, _, ?_, kept.setCtx inside rfl, le_rfl⟩
    simp [unregisterResponseRequest, away]

theorem Kept.response (kept : Kept table receiver entries) (enough : entries.card < fuel)
    (moduleId requestSeq : UInt64) :
    responseRequest fuel receiver moduleId requestSeq =
      some (((table requestSeq).filter (·.2 = moduleId)).map Prod.fst) := by
  unfold responseRequest
  rw [kept.find enough]
  cases entry : table requestSeq with
  | none => rfl
  | some entry' =>
      obtain ⟨ctx, owner⟩ := entry'
      obtain ⟨inside, number, module⟩ := (kept.table requestSeq ctx owner).mp entry
      have registered := (kept.members ctx).mp inside
      have alive := (kept.live ctx inside).1
      by_cases same : owner = moduleId
      · simp [Option.filter, registered, alive, number, module, same]
      · simp [Option.filter, registered, alive, number, module, same]

/-- Every call ends, answers as the map does and keeps the table. -/
theorem Kept.call (kept : Kept table receiver entries) (enough : entries.card < fuel)
    {next : Call κ} (promised : Promised receiver next) :
    ∃ answer receiver', RequestTable.call fuel receiver next = some (answer, receiver') ∧
      Right table receiver next answer receiver' ∧
      ∃ entries', Kept (Registered.after table next answer) receiver' entries' ∧
        entries'.card ≤ entries.card + 1 := by
  cases next with
  | allocate ctx =>
      have outside : ctx ∉ entries := by
        rw [kept.members ctx, promised]
        exact Bool.false_ne_true
      exact ⟨_, _, rfl, trivial, entries, kept.setCtx outside rfl, Nat.le_succ _⟩
  | install ctx accepts moduleId requestSeq allocated =>
      obtain ⟨registered, receiver', done, right, more⟩ := kept.install enough promised
      exact ⟨.installed registered, receiver', by simp [RequestTable.call, done], right, more⟩
  | cleanup ctx =>
      obtain ⟨receiver', entries', done, kept', fewer⟩ := kept.cleanup enough ctx
      exact ⟨.done, receiver', by simp [RequestTable.call, done], trivial, entries', kept',
        by omega⟩
  | find requestSeq =>
      exact ⟨.found _, receiver, by simp [RequestTable.call, kept.find enough], ⟨rfl, rfl⟩,
        entries, kept, Nat.le_succ _⟩
  | response moduleId requestSeq =>
      exact ⟨.found _, receiver, by simp [RequestTable.call, kept.response enough], ⟨rfl, rfl⟩,
        entries, kept, Nat.le_succ _⟩

end

end Busker.RequestTable
