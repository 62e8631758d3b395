import Busker.BufferPool.Effects
import Busker.Interleaving.Threads

/-! Whether `borrow` honours the requested size. A size is rounded up to a pooled
capacity, but the buckets of a kind are one stack, so a request takes whatever buffer
of that kind was returned last. -/

namespace Busker.BufferPool

open Interleaving

/-- What `borrow` promises of the buffer it returns. -/
structure Honours (size : ℤ) (kind : Kind) (b : ByteBuffer) : Prop where
  kind_eq : b.kind = kind
  position_eq : b.position = 0
  limit_eq : b.limit = b.capacity
  size_le : size ≤ b.capacity

/-- Every call of `borrow` that is over has returned what it promises. -/
def Honoured {ι : Type*} (s : State ι) : Prop :=
  ∀ i size kind b, s.callers i = .borrowed size kind b → Honours size kind b

theorem honours_allocate {size : ℤ} {capacity : ℕ} (kind : Kind) (h : size.toNat ≤ capacity) :
    Honours size kind (allocate kind capacity) :=
  ⟨rfl, rfl, rfl, by simp only [allocate]; omega⟩

/-- A request is refused only if no buffer can be that large. -/
theorem borrow_threw_iff (cfg : Config) (size : ℤ) (kind : Kind) :
    borrow cfg size kind = .threw ↔ intLimit ≤ size.toNat := by
  have bound := cfg.maxCapacity_lt
  unfold borrow
  split
  · split
    · simp
      omega
    · simp
      omega
  · simp
    omega

variable {ι : Type*} {cfg : Config} {s : State ι}

/-- A request that takes a pooled buffer takes one that is large enough. -/
def PopFits (a : ι × Move) (s : State ι) : Prop :=
  match s.callers a.1, a.2 with
  | .borrowPop size kind, .tick =>
    (s.pool.buckets (atomOf kind)).head?.all (fun b => decide (size.toNat ≤ b.capacity)) = true
  | _, _ => True

/-- What is known of the buffer a call has to return to the pool. -/
def Returning (cfg : Config) : Caller → Prop
  | .returnCount b | .returnTotals b _ | .returnPush b | .returnAdd b => Poolable cfg b
  | _ => True

/-- What is known of the size or the buffer that a request has in hand. -/
def Requesting (cfg : Config) : Caller → Prop
  | .borrowPop size _ => size.toNat ≤ cfg.maxCapacity
  | .borrowTotals size kind _ b => b.kind = kind ∧ size.toNat ≤ b.capacity
  | .borrowed size kind b => Honours size kind b
  | _ => True

/-- The pool holds only buffers of its own capacities, each among those of its kind. -/
structure Sorted (cfg : Config) (s : State ι) : Prop where
  built : Built cfg s.pool
  pooled : ∀ kind, ∀ b ∈ s.pool.buckets (atomOf kind), b.kind = kind ∧ Poolable cfg b
  returning : ∀ i, Returning cfg (s.callers i)

section step

variable {p t : Pool} {c q : Caller}

theorem returning_step (moved : Effect cfg p c t q) (h : Returning cfg c) : Returning cfg q := by
  cases moved with
  | borrow size kind =>
    unfold borrow
    split
    · split <;> trivial
    · trivial
  | accept b _ poolable => exact poolable
  | count => exact h
  | under => exact h
  | push => exact h
  | _ => trivial

theorem requesting_borrow (size : ℤ) (kind : Kind) : Requesting cfg (borrow cfg size kind) := by
  unfold borrow
  split
  · split
    · exact honours_allocate kind le_rfl
    · trivial
  · exact Nat.le_of_not_lt ‹_›

theorem requesting_step (moved : Effect cfg p c t q) (h : Requesting cfg c)
    (kinds : ∀ kind, ∀ b ∈ p.buckets (atomOf kind), b.kind = kind)
    (fits : ∀ size kind b, c = .borrowPop size kind → (p.buckets (atomOf kind)).head? = some b →
      size.toNat ≤ b.capacity) : Requesting cfg q := by
  cases moved with
  | borrow size kind => exact requesting_borrow size kind
  | pop size kind b rest top =>
    exact ⟨kinds kind b (top ▸ List.mem_cons_self), fits size kind b rfl (by rw [top]; rfl)⟩
  | fresh size kind => exact honours_allocate kind (le_aligned cfg h)
  | subtract size kind cap b =>
    refine ⟨h.1, rfl, rfl, ?_⟩
    have fits := h.2
    simp only [ByteBuffer.clear]
    omega
  | _ => trivial

end step

variable [DecidableEq ι] {a : ι × Move} {t : State ι}

theorem sorted_of_reachable (h : (machine cfg).Reachable s) : Sorted cfg s := by
  apply h.invariant
  · rintro _ rfl
    exact ⟨built_makeBytebufferPool cfg, fun kind b mem => by simp [start, makeBytebufferPool] at mem,
      fun _ => trivial⟩
  · intro a s t hs moves
    obtain ⟨p, q, moved, rfl⟩ := stepFn_eq moves
    have moved := effect_of_step hs.built moved
    refine ⟨built_step hs.built moved, ?_, ?_⟩
    · refine pooled_step moved hs.pooled fun b hc => ⟨rfl, ?_⟩
      have ready := hs.returning a.1
      rwa [hc] at ready
    · exact forall_update (P := fun _ c => Returning cfg c) hs.returning
        (returning_step moved (hs.returning a.1))

/-- In runs whose pops fit, every request is honoured. -/
theorem requesting_of_reachable (h : (machine cfg).ReachableVia PopFits s) (i : ι) :
    Requesting cfg (s.callers i) := by
  revert i
  apply h.invariant_of (fun s hs => sorted_of_reachable hs.reachable)
  · rintro _ rfl i
    trivial
  · intro a s t sorted hs fits moves
    obtain ⟨p, q, moved, rfl⟩ := stepFn_eq moves
    have effect := effect_of_step sorted.built moved
    refine forall_update (P := fun _ c => Requesting cfg c) hs ?_
    refine requesting_step effect (hs a.1) (fun kind b mem => (sorted.pooled kind b mem).1) ?_
    intro size kind b hc top
    have ticks : a.2 = .tick := by
      rw [hc] at moved
      cases hm : a.2 <;> rw [hm] at moved <;> simp [callerStep] at moved ⊢
    simpa [PopFits, hc, ticks, top] using fits

theorem honoured_of_popFits (h : (machine cfg).ReachableVia PopFits s) : Honoured s := by
  intro i size kind b here
  have known := requesting_of_reachable h i
  rwa [here] at known

/-- Some buffer of the kind can get into the pool. -/
def Pools (cfg : Config) (kind : Kind) : Prop :=
  cfg.underBucketCap 0 = true ∧ cfg.underMemoryCap kind (cfg.aligned 1) = true

/-- Every pooled buffer is as large as the pool's largest request: the smallest request
is rounded up to `max-capacity`. -/
def SingleCapacity (cfg : Config) : Prop :=
  ∀ kind, Pools cfg kind → cfg.aligned 1 = cfg.maxCapacity

section single

variable {kind : Kind}

/-- A call that is not about to change the buckets or the total of the kind. -/
def Abstains (cfg : Config) (kind : Kind) : Caller → Prop
  | .returnTotals b true => b.kind = kind → cfg.underBucketCap 0 = true
  | .returnPush b | .returnAdd b => b.kind ≠ kind
  | .borrowTotals _ other _ _ => other ≠ kind
  | _ => True

/-- Nothing of the kind is in the pool. -/
structure Unpooled (cfg : Config) (kind : Kind) (s : State ι) : Prop where
  empty : s.pool.buckets (atomOf kind) = []
  total : s.pool.totals kind = 0
  abstains : ∀ i, Abstains cfg kind (s.callers i)

theorem underMemoryCap_mono {m n : ℤ} (h : m ≤ n) (under : cfg.underMemoryCap kind n = true) :
    cfg.underMemoryCap kind m = true := by
  unfold Config.underMemoryCap at under ⊢
  cases hm : cfg.memoryCap kind with
  | none => rfl
  | some cap =>
    rw [hm] at under
    exact decide_eq_true (h.trans (of_decide_eq_true under))

theorem abstains_borrow (size : ℤ) (other : Kind) : Abstains cfg kind (borrow cfg size other) := by
  unfold borrow
  split
  · split <;> trivial
  · trivial

theorem unpooled_step {p : Pool} {q : Caller} {i : ι} (never : ¬Pools cfg kind) (sorted : Sorted cfg s)
    (h : Unpooled cfg kind s) (moved : Effect cfg s.pool (s.callers i) p q) :
    Unpooled cfg kind ⟨p, Function.update s.callers i q⟩ := by
  have empty := h.empty
  have total := h.total
  have abstains := h.abstains i
  have returning := sorted.returning i
  suffices p.buckets (atomOf kind) = [] ∧ p.totals kind = 0 ∧ Abstains cfg kind q from
    ⟨this.1, this.2.1, forall_update (P := fun _ c => Abstains cfg kind c) h.abstains this.2.2⟩
  generalize s.callers i = c at moved abstains returning
  cases moved with
  | borrow size other => exact ⟨empty, total, abstains_borrow size other⟩
  | pop size other b rest top =>
    have different : kind ≠ other := by
      rintro rfl
      simp [empty] at top
    refine ⟨?_, total, Ne.symm different⟩
    rwa [Pool.setBucket_buckets_of_ne _ fun same => different (atomOf_inj same)]
  | subtract size other cap b =>
    refine ⟨empty, ?_, trivial⟩
    rwa [Pool.addTotal_totals_of_ne _ (Ne.symm abstains)]
  | count b =>
    refine ⟨empty, total, ?_⟩
    cases under : cfg.underBucketCap (s.pool.buckets (atomOf b.kind)).length with
    | false => trivial
    | true =>
      rintro rfl
      rwa [empty] at under
  | under b underCap =>
    refine ⟨empty, total, ?_⟩
    rintro rfl
    rw [total, Int.zero_add] at underCap
    have smallest := aligned_mono cfg (show 1 ≤ b.capacity from returning.pos)
    rw [returning.aligned] at smallest
    exact never ⟨abstains rfl, underMemoryCap_mono (by omega) underCap⟩
  | push b =>
    refine ⟨?_, total, abstains⟩
    rwa [Pool.setBucket_buckets_of_ne _ fun same => abstains (atomOf_inj same).symm]
  | add b =>
    refine ⟨empty, ?_, trivial⟩
    rwa [Pool.addTotal_totals_of_ne _ (Ne.symm abstains)]
  | empty atom rest =>
    refine ⟨?_, total, trivial⟩
    by_cases same : atomOf kind = atom
    · rw [same, Pool.setBucket_buckets_self]
    · rwa [Pool.setBucket_buckets_of_ne _ same]
  | reset => exact ⟨empty, rfl, trivial⟩
  | _ => exact ⟨empty, total, trivial⟩

theorem unpooled_of_reachable (never : ¬Pools cfg kind) (h : (machine cfg).Reachable s) :
    Unpooled cfg kind s := by
  apply h.invariant_of (fun s hs => sorted_of_reachable hs)
  · rintro _ rfl
    exact ⟨rfl, rfl, fun _ => trivial⟩
  · intro a s t sorted hs moves
    obtain ⟨p, q, moved, rfl⟩ := stepFn_eq moves
    exact unpooled_step never sorted hs (effect_of_step sorted.built moved)

/-- With a single capacity every run is one whose pops fit. -/
theorem popFits_of_single (single : SingleCapacity cfg) (h : (machine cfg).Reachable s) :
    (machine cfg).ReachableVia PopFits s := by
  induction h with
  | init h => exact .init h
  | @step s t a reached _ moves ih =>
    refine .step ih ?_ moves
    unfold PopFits
    split
    · rename_i size kind hc hm
      have small : size.toNat ≤ cfg.maxCapacity := by
        have known := requesting_of_reachable ih a.1
        rwa [hc] at known
      by_cases pools : Pools cfg kind
      · cases top : s.pool.buckets (atomOf kind) with
        | nil => rfl
        | cons b rest =>
          have poolable := ((sorted_of_reachable reached).pooled kind b (by simp [top])).2
          have large := aligned_mono cfg poolable.pos
          rw [poolable.aligned, single kind pools] at large
          simpa using small.trans large
      · rw [(unpooled_of_reachable pools reached).empty]
        rfl
    · trivial

theorem reachable_move {p t : Pool} {callers : ι → Caller} {i : ι} {c q : Caller} {m : Move}
    (h : (machine cfg).Reachable ⟨p, Function.update callers i c⟩)
    (moves : callerStep cfg p c m = some (t, q)) :
    (machine cfg).Reachable ⟨t, Function.update callers i q⟩ := by
  refine h.step (a := (i, m)) ?_
  simp only [machine, stepFn, Function.update_self, moves, Option.map_some, Function.update_idem]

/-- Where two capacities are pooled, a request for the larger one after a return of the
smaller one is not honoured. -/
theorem not_honoured_of_two (i : ι) (pools : Pools cfg kind) (two : cfg.aligned 1 ≠ cfg.maxCapacity) :
    ∃ s : State ι, (machine cfg).Reachable s ∧ ¬Honoured s := by
  let b := allocate kind (cfg.aligned 1)
  let p := (makeBytebufferPool cfg).setBucket (atomOf kind) [b]
  have pos : 0 < cfg.aligned 1 := le_aligned cfg cfg.maxCapacity_pos
  have most : cfg.aligned 1 ≤ cfg.maxCapacity := aligned_le cfg 1
  have built : Built cfg (makeBytebufferPool cfg) := built_makeBytebufferPool cfg
  have top : p.buckets (atomOf kind) = [b] := Pool.setBucket_buckets_self ..
  have returned : (machine cfg).Reachable
      ⟨p.addTotal kind (cfg.aligned 1), Function.update (fun _ : ι => .idle) i .idle⟩ := by
    have idle : (machine cfg).Reachable
        ⟨makeBytebufferPool cfg, Function.update (fun _ : ι => .idle) i .idle⟩ := by
      rw [Function.update_eq_self]
      exact .init rfl
    have given := reachable_move (m := .giveBack (some b)) idle rfl
    have admitted := reachable_move (t := makeBytebufferPool cfg) (q := .returnCount b) (m := .tick) given
      (by simp [callerStep, returnDisposed, makeBytebufferPool, b, allocate, aligned_aligned_one,
        pos.ne', most])
    have counted := reachable_move (t := makeBytebufferPool cfg) (q := .returnTotals b true)
      (m := .tick) admitted (by
        rw [callerStep, bucketFor_of_built built]
        exact congrArg (fun under => some (makeBytebufferPool cfg, Caller.returnTotals b under)) pools.1)
    have under := reachable_move (t := makeBytebufferPool cfg) (q := .returnPush b) (m := .tick)
      counted (by simp [callerStep, returnTotals, b, allocate, makeBytebufferPool, pools.2])
    have pushed := reachable_move (t := p) (q := .returnAdd b) (m := .tick) under (by
      rw [callerStep, bucketFor_of_built built]
      rfl)
    have added := reachable_move (m := .tick) pushed rfl
    exact reachable_move (m := .tick) added rfl
  have built_returned : Built cfg (p.addTotal kind (cfg.aligned 1)) := built
  have requested := reachable_move (t := p.addTotal kind (cfg.aligned 1))
    (q := .borrowPop cfg.maxCapacity kind) (m := .borrow cfg.maxCapacity kind) returned
    (by simp [callerStep, borrow])
  have popped := reachable_move (m := .tick) requested (borrowPop_of_top built_returned top)
  have subtracted := reachable_move (m := .tick) popped rfl
  refine ⟨_, subtracted, fun honoured => two ?_⟩
  have large := (honoured i cfg.maxCapacity kind b.clear (by simp)).size_le
  have capacity : b.clear.capacity = cfg.aligned 1 := rfl
  omega

end single

/-- `borrow` honours every request, whatever the calls before it and beside it, exactly
if the pool has a single capacity; in any pool it does as long as pops fit. -/
theorem honoured_iff (cfg : Config) (i : ι) :
    ((∀ s : State ι, (machine cfg).Reachable s → Honoured s) ↔ SingleCapacity cfg) ∧
      ∀ s : State ι, (machine cfg).ReachableVia PopFits s → Honoured s := by
  refine ⟨⟨fun always kind pools => ?_, fun single s h => ?_⟩, fun s h => honoured_of_popFits h⟩
  · by_contra two
    obtain ⟨s, reached, not⟩ := not_honoured_of_two i pools two
    exact not (always s reached)
  · exact honoured_of_popFits (popFits_of_single single h)

/-- `(make-bytebuffer-pool {})` on one processor. -/
def defaultConfig : Config := normalizeOpts ⟨none, none, none, none, none, none⟩ 1

/-- A returned buffer of 2048 bytes is lent to a request for 5000. -/
def smallForLarge : State Unit :=
  (machine defaultConfig).runFrom
    (((), .giveBack (some (allocate .heap 2048))) :: List.replicate 6 ((), .tick) ++
      [((), .borrow 5000 .heap), ((), .tick), ((), .tick)]) (start defaultConfig)

theorem smallForLarge_not_honoured :
    (machine defaultConfig).Reachable smallForLarge ∧ ¬Honoured smallForLarge := by
  refine ⟨.runFrom _ (.init rfl), fun honoured => ?_⟩
  have lent : smallForLarge.callers () = .borrowed 5000 .heap (allocate .heap 2048) := by
    decide +kernel
  have large := (honoured () _ _ _ lent).size_le
  exact absurd large (by decide)

end Busker.BufferPool
