import Busker.BufferPool.Sizes
import Busker.Interleaving.Census

/-! The byte totals and the limits of the pool over every interleaving of `borrow`,
`return` and `dispose`. A total follows its bucket with a delay, for which the calls
between the two updates account; limits are checked before a push and not again by it. -/

namespace Busker.BufferPool

open Interleaving

def bytes : List ByteBuffer → ℕ
  | [] => 0
  | b :: rest => b.capacity + bytes rest

/-- What the call has pushed and not yet added to the kind's total. -/
def adding (kind : Kind) : Caller → ℕ
  | .returnAdd b => if b.kind = kind then b.capacity else 0
  | _ => 0

/-- What the call has to subtract from the kind's total for the buffer it popped. -/
def subtracting (kind : Kind) : Caller → ℕ
  | .borrowTotals _ other cap _ => if other = kind then cap else 0
  | _ => 0

/-- Between the update of a bucket and that of a total. -/
def owing : Caller → Bool
  | .borrowTotals .. | .returnAdd _ => true
  | _ => false

def disposing : Caller → Bool
  | .disposeBuckets _ => true
  | _ => false

variable {ι : Type*} {cfg : Config}

/-- A pop gets a buffer of the capacity that the request is rounded to, a push finds
what was checked before it still true of the pool, and `dispose` zeroes the totals
while no call is between its two updates. -/
def orderly [Fintype ι] (cfg : Config) (a : ι × Move) (s : State ι) : Bool :=
  match s.callers a.1, a.2 with
  | .borrowPop size kind, .tick =>
    (s.pool.buckets (atomOf kind)).head?.all fun b => decide (b.capacity = cfg.aligned size.toNat)
  | .returnPush b, .tick =>
    !s.pool.disposed && cfg.underBucketCap (s.pool.buckets (atomOf b.kind)).length &&
      cfg.underMemoryCap b.kind (bytes (s.pool.buckets (atomOf b.kind)) + b.capacity)
  | .disposeBuckets [], .tick => decide (∀ i, owing (s.callers i) = false)
  | _, _ => true

def Orderly [Fintype ι] (cfg : Config) (a : ι × Move) (s : State ι) : Prop := orderly cfg a s = true

instance [Fintype ι] (cfg : Config) (a : ι × Move) (s : State ι) : Decidable (Orderly cfg a s) :=
  inferInstanceAs (Decidable (_ = true))

variable [Fintype ι] {s : State ι}

/-- The totals, but for the updates under way and for what a `dispose` that is not done
has thrown away. -/
def Balanced (s : State ι) : Prop :=
  ∃ lost : Kind → ℕ,
    (∀ kind, s.pool.totals kind + census (adding kind) s.callers =
      bytes (s.pool.buckets (atomOf kind)) + census (subtracting kind) s.callers + lost kind) ∧
    ((∃ i, disposing (s.callers i) = true) ∨ ∀ kind, lost kind = 0)

/-- The limits of the pool on its buckets. -/
structure Limited (cfg : Config) (p : Pool) : Prop where
  bucket : ∀ kind m, cfg.maxBucketSize = some m →
    ((p.buckets (atomOf kind)).length : ℤ) ≤ max m 0
  memory : ∀ kind m, cfg.memoryCap kind = some m → bytes (p.buckets (atomOf kind)) ≤ m

/-- What a `dispose` under way, or over, has emptied stays empty. -/
structure Emptied (s : State ι) : Prop where
  disposing : ∀ i rest, s.callers i = .disposeBuckets rest →
    s.pool.disposed = true ∧ ∀ kind, atomOf kind ∉ rest → s.pool.buckets (atomOf kind) = []
  finished : s.pool.finished = true →
    s.pool.disposed = true ∧ ∀ kind, s.pool.buckets (atomOf kind) = []

section step

variable [DecidableEq ι] {i : ι} {p : Pool} {q : Caller}

theorem limited_step {c : Caller} {t : Pool} (h : Limited cfg p) (moved : Effect cfg p c t q)
    (allowed : ∀ b, c = .returnPush b →
      cfg.underBucketCap (p.buckets (atomOf b.kind)).length = true ∧
      cfg.underMemoryCap b.kind (bytes (p.buckets (atomOf b.kind)) + b.capacity) = true) :
    Limited cfg t := by
  cases moved with
  | pop size kind b rest top =>
    constructor
    · intro other m hm
      by_cases same : atomOf other = atomOf kind
      · have before := h.bucket other m hm
        rw [same, top, List.length_cons] at before
        rw [same, Pool.setBucket_buckets_self]
        omega
      · rw [Pool.setBucket_buckets_of_ne _ same]
        exact h.bucket other m hm
    · intro other m hm
      by_cases same : atomOf other = atomOf kind
      · have before := h.memory other m hm
        rw [same, top, bytes] at before
        rw [same, Pool.setBucket_buckets_self]
        omega
      · rw [Pool.setBucket_buckets_of_ne _ same]
        exact h.memory other m hm
  | push b =>
    obtain ⟨underBucket, underMemory⟩ := allowed b rfl
    constructor
    · intro other m hm
      by_cases same : atomOf other = atomOf b.kind
      · rw [Config.underBucketCap, hm] at underBucket
        have room : ((p.buckets (atomOf b.kind)).length : ℤ) < m := of_decide_eq_true underBucket
        rw [same, Pool.setBucket_buckets_self, List.length_cons]
        omega
      · rw [Pool.setBucket_buckets_of_ne _ same]
        exact h.bucket other m hm
    · intro other m hm
      by_cases same : atomOf other = atomOf b.kind
      · obtain rfl := atomOf_inj same
        rw [Config.underMemoryCap, hm] at underMemory
        have room : ((bytes (p.buckets (atomOf b.kind)) : ℤ) + b.capacity) ≤ m :=
          of_decide_eq_true underMemory
        rw [Pool.setBucket_buckets_self, bytes]
        omega
      · rw [Pool.setBucket_buckets_of_ne _ same]
        exact h.memory other m hm
  | empty atom rest =>
    constructor
    · intro other m hm
      by_cases same : atomOf other = atom
      · rw [same, Pool.setBucket_buckets_self, List.length_nil]
        omega
      · rw [Pool.setBucket_buckets_of_ne _ same]
        exact h.bucket other m hm
    · intro other m hm
      by_cases same : atomOf other = atom
      · rw [same, Pool.setBucket_buckets_self]
        exact Nat.zero_le m
      · rw [Pool.setBucket_buckets_of_ne _ same]
        exact h.memory other m hm
  | _ => exact ⟨h.bucket, h.memory⟩

/-- An empty bucket stays empty once nothing is pushed any more. -/
theorem stays_empty {c : Caller} {t : Pool} (moved : Effect cfg p c t q) (no_push : ∀ b, c ≠ .returnPush b)
    {kind : Kind} (empty : p.buckets (atomOf kind) = []) : t.buckets (atomOf kind) = [] := by
  cases moved with
  | pop size other b rest top =>
    have different : atomOf kind ≠ atomOf other := by
      intro same
      rw [← same, empty] at top
      contradiction
    rwa [Pool.setBucket_buckets_of_ne _ different]
  | push b => exact absurd rfl (no_push b)
  | empty atom rest =>
    by_cases same : atomOf kind = atom
    · rw [same, Pool.setBucket_buckets_self]
    · rwa [Pool.setBucket_buckets_of_ne _ same]
  | _ => exact empty

theorem disposed_step {c : Caller} {t : Pool} (moved : Effect cfg p c t q) (h : p.disposed = true) :
    t.disposed = true := by
  cases moved with
  | flag => rfl
  | _ => exact h

theorem atomOf_mem_buckets (built : Built cfg p) (kind : Kind) :
    atomOf kind ∈ p.heapBuckets ++ p.directBuckets := by
  have some_bucket : cfg.nBuckets ≠ 0 := Nat.succ_ne_zero _
  rw [built.1, built.2, List.mem_append, newBuckets, newBuckets, List.mem_replicate, List.mem_replicate]
  cases kind
  · exact .inl ⟨some_bucket, rfl⟩
  · exact .inr ⟨some_bucket, rfl⟩

omit [Fintype ι] in
theorem emptied_step (built : Built cfg s.pool) (h : Emptied s)
    (moved : Effect cfg s.pool (s.callers i) p q)
    (allowed : ∀ b, s.callers i = .returnPush b → s.pool.disposed = false) :
    Emptied ⟨p, Function.update s.callers i q⟩ := by
  have no_push : s.pool.disposed = true → ∀ b, s.callers i ≠ .returnPush b := by
    intro disposed b hc
    rw [allowed b hc] at disposed
    contradiction
  constructor
  · intro j rest hj
    by_cases same : j = i
    · subst same
      have here : q = .disposeBuckets rest := by simpa using hj
      generalize hc : s.callers j = c at moved
      cases moved with
      | flag =>
        obtain rfl := Caller.disposeBuckets.inj here
        exact ⟨rfl, fun kind out => absurd (atomOf_mem_buckets built kind) out⟩
      | empty atom rest' =>
        obtain rfl := Caller.disposeBuckets.inj here
        obtain ⟨disposed, before⟩ := h.disposing j _ hc
        refine ⟨disposed, fun kind out => ?_⟩
        by_cases now : atomOf kind = atom
        · exact now ▸ Pool.setBucket_buckets_self ..
        · exact (Pool.setBucket_buckets_of_ne _ now _).trans (before kind (by simp [now, out]))
      | borrow size kind =>
        unfold borrow at here
        split at here
        · split at here <;> contradiction
        · contradiction
      | _ => contradiction
    · obtain ⟨disposed, before⟩ := h.disposing j rest (by simpa [same] using hj)
      exact ⟨disposed_step moved disposed,
        fun kind out => stays_empty moved (no_push disposed) (before kind out)⟩
  · intro finished
    by_cases before : s.pool.finished = true
    · obtain ⟨disposed, empty⟩ := h.finished before
      exact ⟨disposed_step moved disposed, fun kind => stays_empty moved (no_push disposed) (empty kind)⟩
    · generalize hc : s.callers i = c at moved
      cases moved with
      | reset =>
        obtain ⟨disposed, empty⟩ := h.disposing i [] hc
        exact ⟨disposed, fun kind => empty kind (by simp)⟩
      | _ => exact absurd finished before

/-- A step that neither changes a bucket or a total nor starts or ends an update. -/
theorem Balanced.keep (h : Balanced s) (buckets : p.buckets = s.pool.buckets)
    (totals : p.totals = s.pool.totals) (adds : ∀ kind, adding kind q = adding kind (s.callers i))
    (subtracts : ∀ kind, subtracting kind q = subtracting kind (s.callers i))
    (still : disposing (s.callers i) = true → disposing q = true) :
    Balanced ⟨p, Function.update s.callers i q⟩ := by
  obtain ⟨lost, equal, dropped⟩ := h
  refine ⟨lost, fun kind => ?_, ?_⟩
  · rw [census_update_same (adds kind), census_update_same (subtracts kind)]
    change p.totals kind + _ = bytes (p.buckets (atomOf kind)) + _ + _
    rw [buckets, totals]
    exact equal kind
  · rcases dropped with some_one | none_lost
    · exact exists_update disposing some_one fun own => .inl (still own)
    · exact .inr none_lost

/-- A step that changes one bucket or one total, for which it starts or ends an update. -/
theorem Balanced.move (h : Balanced s) (still : disposing (s.callers i) = true → disposing q = true)
    (moved : ∀ kind, (p.totals kind - s.pool.totals kind : ℤ) + adding kind q - adding kind (s.callers i) =
      bytes (p.buckets (atomOf kind)) - bytes (s.pool.buckets (atomOf kind)) +
        subtracting kind q - subtracting kind (s.callers i)) :
    Balanced ⟨p, Function.update s.callers i q⟩ := by
  obtain ⟨lost, equal, dropped⟩ := h
  refine ⟨lost, fun kind => ?_, ?_⟩
  · have adds := census_update (adding kind) s.callers i q
    have subtracts := census_update (subtracting kind) s.callers i q
    have before := equal kind
    have change_ := moved kind
    change p.totals kind + (census (adding kind) (Function.update s.callers i q) : ℤ) =
      bytes (p.buckets (atomOf kind)) +
        (census (subtracting kind) (Function.update s.callers i q) : ℤ) + lost kind
    omega
  · rcases dropped with some_one | none_lost
    · exact exists_update disposing some_one fun own => .inl (still own)
    · exact .inr none_lost

theorem balanced_step (emptied : Emptied s) (h : Balanced s) (moved : Effect cfg s.pool (s.callers i) p q)
    (fits : ∀ size kind b rest, s.callers i = .borrowPop size kind →
      s.pool.buckets (atomOf kind) = b :: rest → b.capacity = cfg.aligned size.toNat)
    (settled : s.callers i = .disposeBuckets [] → ∀ j, owing (s.callers j) = false) :
    Balanced ⟨p, Function.update s.callers i q⟩ := by
  generalize hc : s.callers i = c at moved
  cases moved with
  | pop size kind b rest top =>
    refine h.move (by simp [hc, disposing]) fun other => ?_
    have capacity := fits size kind b rest hc top
    simp only [hc, adding, subtracting]
    by_cases same : kind = other
    · subst same
      rw [Pool.setBucket_buckets_self, top, bytes, capacity, if_pos rfl]
      simp only [Pool.setBucket]
      omega
    · rw [Pool.setBucket_buckets_of_ne _ fun h => same (atomOf_inj h).symm, if_neg same]
      simp only [Pool.setBucket]
      omega
  | subtract size kind cap b =>
    refine h.move (by simp [hc, disposing]) fun other => ?_
    simp only [hc, adding, subtracting]
    by_cases same : kind = other
    · subst same
      rw [Pool.addTotal_totals_self, if_pos rfl]
      simp only [Pool.addTotal]
      omega
    · rw [Pool.addTotal_totals_of_ne _ (Ne.symm same), if_neg same]
      simp only [Pool.addTotal]
      omega
  | push b =>
    refine h.move (by simp [hc, disposing]) fun other => ?_
    simp only [hc, adding, subtracting]
    by_cases same : b.kind = other
    · subst same
      rw [Pool.setBucket_buckets_self, bytes, if_pos rfl]
      simp only [Pool.setBucket]
      omega
    · rw [Pool.setBucket_buckets_of_ne _ fun h => same (atomOf_inj h).symm, if_neg same]
      simp only [Pool.setBucket]
      omega
  | add b =>
    refine h.move (by simp [hc, disposing]) fun other => ?_
    simp only [hc, adding, subtracting]
    by_cases same : b.kind = other
    · subst same
      rw [Pool.addTotal_totals_self, if_pos rfl]
      simp only [Pool.addTotal]
      omega
    · rw [Pool.addTotal_totals_of_ne _ (Ne.symm same), if_neg same]
      simp only [Pool.addTotal]
      omega
  | empty atom rest =>
    obtain ⟨lost, equal, -⟩ := h
    refine ⟨fun kind => lost kind + if atomOf kind = atom then bytes (s.pool.buckets atom) else 0,
      fun kind => ?_, .inl (exists_update_self disposing rfl)⟩
    have before := equal kind
    rw [census_update_same (by rw [hc]; rfl), census_update_same (by rw [hc]; rfl)]
    by_cases same : atomOf kind = atom
    · simp only [same, Pool.setBucket_buckets_self, if_true, bytes] at before ⊢
      simp only [Pool.setBucket]
      omega
    · simp only [same, Pool.setBucket_buckets_of_ne _ same, if_false]
      simp only [Pool.setBucket]
      omega
  | reset =>
    refine ⟨fun _ => 0, fun kind => ?_, .inr fun _ => rfl⟩
    have none_owes := settled hc
    have none_adds : census (adding kind) s.callers = 0 := by
      refine census_eq_zero.mpr fun j => ?_
      have quiet := none_owes j
      cases hj : s.callers j <;> simp_all [adding, owing]
    have none_subtracts : census (subtracting kind) s.callers = 0 := by
      refine census_eq_zero.mpr fun j => ?_
      have quiet := none_owes j
      cases hj : s.callers j <;> simp_all [subtracting, owing]
    rw [census_update_same (by rw [hc]; rfl), census_update_same (by rw [hc]; rfl), none_adds,
      none_subtracts]
    change (0 : ℤ) + _ = bytes (s.pool.buckets (atomOf kind)) + _ + _
    rw [(emptied.disposing i [] hc).2 kind (by simp)]
    rfl
  | borrow size kind =>
    have weights : ∀ k, adding k (borrow cfg size kind) = 0 ∧ subtracting k (borrow cfg size kind) = 0 := by
      intro k
      unfold borrow
      split
      · split <;> exact ⟨rfl, rfl⟩
      · exact ⟨rfl, rfl⟩
    exact h.keep rfl rfl (fun k => by rw [hc]; exact (weights k).1)
      (fun k => by rw [hc]; exact (weights k).2) (by simp [hc, disposing])
  | finish c result =>
    have weights : ∀ k, adding k c = 0 ∧ subtracting k c = 0 ∧ disposing c = false := by
      intro k
      cases c <;> first | exact ⟨rfl, rfl, rfl⟩ | contradiction
    exact h.keep rfl rfl (fun k => by rw [hc]; exact (weights k).1.symm)
      (fun k => by rw [hc]; exact (weights k).2.1.symm) (by simp [hc, (weights .heap).2.2])
  | _ => exact h.keep rfl rfl (fun k => by rw [hc]; rfl) (fun k => by rw [hc]; rfl) (by simp [hc, disposing])

end step

/-- No call is under way. -/
def Quiet (s : State ι) : Prop := ∀ i, s.callers i = .idle ∨ isResult (s.callers i) = true

/-- The law of the pool. -/
structure Accounts (cfg : Config) (s : State ι) : Prop where
  totals : Quiet s → ∀ kind, s.pool.totals kind = bytes (s.pool.buckets (atomOf kind))
  limited : Limited cfg s.pool
  disposed : s.pool.finished = true → ∀ kind, s.pool.buckets (atomOf kind) = []

variable [DecidableEq ι]

structure Accounting (cfg : Config) (s : State ι) : Prop where
  built : Built cfg s.pool
  balanced : Balanced s
  limited : Limited cfg s.pool
  emptied : Emptied s

omit [DecidableEq ι] in
theorem accounting_start (cfg : Config) : Accounting cfg (start cfg : State ι) where
  built := built_makeBytebufferPool cfg
  balanced := by
    refine ⟨fun _ => 0, fun kind => ?_, .inr fun _ => rfl⟩
    have none_adds : census (adding kind) (start cfg : State ι).callers = 0 := census_const_zero rfl
    have none_subtracts : census (subtracting kind) (start cfg : State ι).callers = 0 :=
      census_const_zero rfl
    rw [none_adds, none_subtracts]
    rfl
  limited := ⟨fun _ m _ => by simp [start, makeBytebufferPool],
    fun _ m _ => by simp [start, makeBytebufferPool, bytes]⟩
  emptied := ⟨fun _ _ h => by simp [start] at h, fun h => by simp [start, makeBytebufferPool] at h⟩

theorem accounting_step {a : ι × Move} {t : State ι} (h : Accounting cfg s) (allowed : Orderly cfg a s)
    (moves : stepFn cfg a s = some t) : Accounting cfg t := by
  obtain ⟨p, q, moved, rfl⟩ := stepFn_eq moves
  have effect := effect_of_step h.built moved
  have ticks : s.callers a.1 ≠ .idle → a.2 = .tick := by
    intro busy
    cases hc : s.callers a.1 <;> cases hm : a.2 <;> simp_all [callerStep]
  unfold Orderly orderly at allowed
  have pushes : ∀ b, s.callers a.1 = .returnPush b → s.pool.disposed = false ∧
      cfg.underBucketCap (s.pool.buckets (atomOf b.kind)).length = true ∧
      cfg.underMemoryCap b.kind (bytes (s.pool.buckets (atomOf b.kind)) + b.capacity) = true := by
    intro b hc
    rw [hc, ticks (by simp [hc])] at allowed
    simpa [and_assoc] using allowed
  refine ⟨built_step h.built effect, balanced_step h.emptied h.balanced effect ?_ ?_,
    limited_step h.limited effect fun b hc => (pushes b hc).2,
    emptied_step h.built h.emptied effect fun b hc => (pushes b hc).1⟩
  · intro size kind b rest hc top
    rw [hc, ticks (by simp [hc])] at allowed
    simpa [top] using allowed
  · intro hc
    rw [hc, ticks (by simp [hc])] at allowed
    simpa using allowed

theorem accounting_of_reachable (h : (machine cfg).ReachableVia (Orderly cfg) s) : Accounting cfg s := by
  apply h.invariant
  · rintro _ rfl
    exact accounting_start cfg
  · exact fun a s t hs allowed moves => accounting_step hs allowed moves

theorem accounts_of_orderly (h : (machine cfg).ReachableVia (Orderly cfg) s) : Accounts cfg s := by
  have known := accounting_of_reachable h
  refine ⟨fun quiet kind => ?_, known.limited, fun finished => (known.emptied.finished finished).2⟩
  obtain ⟨lost, equal, dropped⟩ := known.balanced
  have none_adds : census (adding kind) s.callers = 0 := by
    refine census_eq_zero.mpr fun j => ?_
    have quiet_there := quiet j
    cases hj : s.callers j <;> simp_all [adding, isResult]
  have none_subtracts : census (subtracting kind) s.callers = 0 := by
    refine census_eq_zero.mpr fun j => ?_
    have quiet_there := quiet j
    cases hj : s.callers j <;> simp_all [subtracting, isResult]
  have none_lost : lost kind = 0 := by
    rcases dropped with ⟨j, still⟩ | none_lost
    · have quiet_there := quiet j
      cases hj : s.callers j <;> simp_all [disposing, isResult]
    · exact none_lost kind
  have balance := equal kind
  omega

/-- A buffer is returned, lent again and returned once more, and the pool is disposed of. -/
def lentTwice : State Unit :=
  let turn : List (Unit × Move) := ((), .giveBack (some (allocate .heap 2048))) :: List.replicate 6 ((), .tick)
  (machine defaultConfig).runFromVia (Orderly defaultConfig)
    (turn ++ ((), .borrow 100 .heap) :: List.replicate 3 ((), .tick) ++ turn ++
      ((), .dispose) :: List.replicate 68 ((), .tick)) (start defaultConfig)

example : lentTwice.pool.finished = true := by decide +kernel

theorem lentTwice_accounts : Accounts defaultConfig lentTwice :=
  accounts_of_orderly (.runFromVia _ (.init rfl))

/-- The pool counts 6144 bytes less for a loan of 2048. -/
theorem smallForLarge_not_accounts :
    (machine defaultConfig).Reachable smallForLarge ∧ ¬Accounts defaultConfig smallForLarge := by
  refine ⟨.runFrom _ (.init rfl), fun accounts => ?_⟩
  have quiet : Quiet smallForLarge := fun () => .inr (by decide +kernel)
  have counted : smallForLarge.pool.totals .heap = -4096 := by decide +kernel
  have total := accounts.totals quiet .heap
  rw [counted] at total
  omega

end Busker.BufferPool
