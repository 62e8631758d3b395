import Busker.BufferPool.Pool
import Mathlib.Algebra.Order.Group.Nat
import Mathlib.Order.Basic

/-! How sizes are rounded to capacities, and what each step of a call does to a pool
whose buckets are built as the source builds them: one atom for each kind. -/

namespace Busker.BufferPool

open Interleaving

section aligned

variable (cfg : Config)

theorem le_ceilDiv_mul {a b : ℕ} (h : 0 < b) : a ≤ ceilDiv a b * b := by
  have key := Nat.div_add_mod (a + b - 1) b
  have rest := Nat.mod_lt (a + b - 1) h
  unfold ceilDiv
  rw [Nat.mul_comm]
  omega

theorem ceilDiv_mul_self {a b : ℕ} (h : 0 < b) : ceilDiv (a * b) b = a := by
  unfold ceilDiv
  rw [Nat.add_sub_assoc h, Nat.add_comm, Nat.add_mul_div_right _ _ h,
    Nat.div_eq_of_lt (Nat.sub_lt h Nat.one_pos), Nat.zero_add]

theorem aligned_le (size : ℕ) : cfg.aligned size ≤ cfg.maxCapacity := Nat.min_le_right ..

theorem le_aligned {size : ℕ} (h : size ≤ cfg.maxCapacity) : size ≤ cfg.aligned size := by
  refine Nat.le_min.mpr ⟨?_, h⟩
  exact (Nat.le_max_left ..).trans (le_ceilDiv_mul cfg.factor_pos)

theorem aligned_mono {a b : ℕ} (h : a ≤ b) : cfg.aligned a ≤ cfg.aligned b := by
  have sizes : max a cfg.minCapacity ≤ max b cfg.minCapacity := max_le_max_right _ h
  have quotients : ceilDiv (max a cfg.minCapacity) cfg.factor ≤
      ceilDiv (max b cfg.minCapacity) cfg.factor := Nat.div_le_div_right (by omega)
  exact min_le_min_right _ (Nat.mul_le_mul_right _ quotients)

/-- The capacity that the smallest request is rounded to is pooled. -/
theorem aligned_aligned_one : cfg.aligned (cfg.aligned 1) = cfg.aligned 1 := by
  have pos := cfg.maxCapacity_pos
  refine le_antisymm ?_ (le_aligned cfg (aligned_le cfg 1))
  by_cases h : ceilDiv (max 1 cfg.minCapacity) cfg.factor * cfg.factor ≤ cfg.maxCapacity
  · have small : cfg.aligned 1 = ceilDiv (max 1 cfg.minCapacity) cfg.factor * cfg.factor :=
      min_eq_left h
    have above : cfg.minCapacity ≤ cfg.aligned 1 := by
      rw [small]
      exact (Nat.le_max_right ..).trans (le_ceilDiv_mul cfg.factor_pos)
    refine (Nat.min_le_left ..).trans ?_
    rw [max_eq_left above, small, ceilDiv_mul_self cfg.factor_pos]
  · have large : cfg.aligned 1 = cfg.maxCapacity := min_eq_right (by omega)
    rw [large]
    exact aligned_le cfg _

end aligned

/-- The atom that every bucket of a kind shares. -/
def atomOf : Kind → ℕ
  | .heap => 0
  | .direct => 1

/-- A buffer that `return` takes as one of the pool's own. -/
structure Poolable (cfg : Config) (b : ByteBuffer) : Prop where
  pos : 0 < b.capacity
  le_max : b.capacity ≤ cfg.maxCapacity
  aligned : cfg.aligned b.capacity = b.capacity

def Built (cfg : Config) (p : Pool) : Prop :=
  p.heapBuckets = newBuckets cfg 0 ∧ p.directBuckets = newBuckets cfg 1

variable {cfg : Config}

theorem bucketFor_of_built {p : Pool} (built : Built cfg p) (kind : Kind) (size : ℕ) :
    bucketFor cfg p kind size = some (atomOf kind) := by
  have index : cfg.aligned size / cfg.factor < cfg.nBuckets :=
    Nat.lt_succ_of_le (Nat.div_le_div_right (aligned_le cfg size))
  have vec : p.bucketVec kind = newBuckets cfg (atomOf kind) := by
    cases kind
    · exact built.1
    · exact built.2
  rw [bucketFor, vec, newBuckets, List.getElem?_replicate]
  exact if_pos index

theorem borrowPop_of_top {p : Pool} (built : Built cfg p) {size : ℤ} {kind : Kind} {b : ByteBuffer}
    {rest : List ByteBuffer} (top : p.buckets (atomOf kind) = b :: rest) :
    borrowPop cfg p size kind =
      some (p.setBucket (atomOf kind) rest, .borrowTotals size kind (cfg.aligned size.toNat) b) := by
  rw [borrowPop, bucketFor_of_built built, Option.map_some, top]
  rfl

/-- The call is over and this is its result. -/
def isResult : Caller → Bool
  | .borrowed .. | .returned _ | .disposed | .threw => true
  | _ => false

/-- What one step of a call does. -/
inductive Effect (cfg : Config) (p : Pool) : Caller → Pool → Caller → Prop
  | borrow (size : ℤ) (kind : Kind) : Effect cfg p .idle p (borrow cfg size kind)
  | giveBack (b : ByteBuffer) : Effect cfg p .idle p (.returnDisposed b)
  | ignore : Effect cfg p .idle p (.returned false)
  | dispose : Effect cfg p .idle p .disposeFlag
  | pop (size : ℤ) (kind : Kind) (b : ByteBuffer) (rest : List ByteBuffer)
      (top : p.buckets (atomOf kind) = b :: rest) :
      Effect cfg p (.borrowPop size kind) (p.setBucket (atomOf kind) rest)
        (.borrowTotals size kind (cfg.aligned size.toNat) b)
  | fresh (size : ℤ) (kind : Kind) (empty : p.buckets (atomOf kind) = []) :
      Effect cfg p (.borrowPop size kind) p
        (.borrowed size kind (allocate kind (cfg.aligned size.toNat)))
  | subtract (size : ℤ) (kind : Kind) (cap : ℕ) (b : ByteBuffer) :
      Effect cfg p (.borrowTotals size kind cap b) (p.addTotal kind (-cap))
        (.borrowed size kind b.clear)
  | accept (b : ByteBuffer) (unlocked : p.disposed = false) (poolable : Poolable cfg b) :
      Effect cfg p (.returnDisposed b) p (.returnCount b)
  | refuse (b : ByteBuffer) : Effect cfg p (.returnDisposed b) p (.returned false)
  | reject (b : ByteBuffer) : Effect cfg p (.returnDisposed b) p .threw
  | count (b : ByteBuffer) :
      Effect cfg p (.returnCount b) p
        (.returnTotals b (cfg.underBucketCap (p.buckets (atomOf b.kind)).length))
  | exceeds (b : ByteBuffer) (underBucketCap : Bool) :
      Effect cfg p (.returnTotals b underBucketCap) p (.returned false)
  | under (b : ByteBuffer)
      (underCap : cfg.underMemoryCap b.kind (p.totals b.kind + b.capacity) = true) :
      Effect cfg p (.returnTotals b true) p (.returnPush b)
  | push (b : ByteBuffer) :
      Effect cfg p (.returnPush b) (p.setBucket (atomOf b.kind) (b :: p.buckets (atomOf b.kind)))
        (.returnAdd b)
  | add (b : ByteBuffer) :
      Effect cfg p (.returnAdd b) (p.addTotal b.kind b.capacity) (.returned true)
  | flag :
      Effect cfg p .disposeFlag { p with disposed := true }
        (.disposeBuckets (p.heapBuckets ++ p.directBuckets))
  | empty (atom : ℕ) (rest : List ℕ) :
      Effect cfg p (.disposeBuckets (atom :: rest)) (p.setBucket atom []) (.disposeBuckets rest)
  | reset :
      Effect cfg p (.disposeBuckets []) { p with totals := fun _ => 0, finished := true } .disposed
  | finish (q : Caller) (result : isResult q = true) : Effect cfg p q p .idle

theorem effect_of_step {p t : Pool} {c q : Caller} {move : Move} (built : Built cfg p)
    (moves : callerStep cfg p c move = some (t, q)) : Effect cfg p c t q := by
  cases c <;> cases move <;>
    simp only [callerStep, reduceCtorEq, Option.some.injEq, bucketFor_of_built built,
      Option.map_some] at moves
  case idle.giveBack b =>
    cases b <;> obtain ⟨rfl, rfl⟩ := Prod.mk.inj (Option.some.inj moves)
    · exact .ignore
    · exact .giveBack _
  case borrowPop.tick size kind =>
    simp only [borrowPop, bucketFor_of_built built, Option.map_some, Option.some.injEq] at moves
    split at moves <;> obtain ⟨rfl, rfl⟩ := Prod.mk.inj moves
    · exact .pop size kind _ _ ‹_›
    · exact .fresh size kind ‹_›
  case returnDisposed.tick b =>
    obtain ⟨rfl, rfl⟩ := Prod.mk.inj moves
    unfold returnDisposed
    split
    · exact .refuse b
    split
    · exact .reject b
    split
    · exact .refuse b
    split
    · exact .accept b (by simpa using ‹¬_ = true›) ⟨by omega, by omega, ‹_›⟩
    · exact .refuse b
  case returnTotals.tick b underBucketCap =>
    obtain ⟨rfl, rfl⟩ := Prod.mk.inj moves
    unfold returnTotals
    split
    · rename_i both
      obtain ⟨rfl, underCap⟩ := Bool.and_eq_true_iff.mp both
      exact .under b underCap
    · exact .exceeds b underBucketCap
  case disposeBuckets.tick rest =>
    cases rest <;> obtain ⟨rfl, rfl⟩ := Prod.mk.inj moves
    · exact .reset
    · exact .empty _ _
  all_goals obtain ⟨rfl, rfl⟩ := Prod.mk.inj moves
  case idle.borrow size kind => exact .borrow size kind
  case idle.dispose => exact .dispose
  case borrowTotals.tick size kind cap b => exact .subtract size kind cap b
  case returnCount.tick b => exact .count b
  case returnPush.tick b => exact .push b
  case returnAdd.tick b => exact .add b
  case disposeFlag.tick => exact .flag
  all_goals exact .finish _ rfl

theorem built_makeBytebufferPool (cfg : Config) : Built cfg (makeBytebufferPool cfg) := ⟨rfl, rfl⟩

theorem built_step {p t : Pool} {c q : Caller} (built : Built cfg p) (moved : Effect cfg p c t q) :
    Built cfg t := by
  cases moved <;> exact built

theorem atomOf_inj {kind other : Kind} (h : atomOf kind = atomOf other) : kind = other := by
  cases kind <;> cases other <;> simp_all [atomOf]

/-- What holds of every pooled buffer and of those about to be pushed still holds of
every pooled buffer after a step. -/
theorem pooled_step {P : Kind → ByteBuffer → Prop} {p t : Pool} {c q : Caller}
    (moved : Effect cfg p c t q) (pooled : ∀ kind, ∀ b ∈ p.buckets (atomOf kind), P kind b)
    (pushed : ∀ b, c = .returnPush b → P b.kind b) (kind : Kind) (b : ByteBuffer)
    (mem : b ∈ t.buckets (atomOf kind)) : P kind b := by
  cases moved with
  | pop size k top rest here =>
    by_cases same : atomOf kind = atomOf k
    · obtain rfl := atomOf_inj same
      rw [Pool.setBucket_buckets_self] at mem
      exact pooled kind b (here ▸ List.mem_cons_of_mem _ mem)
    · rw [Pool.setBucket_buckets_of_ne _ same] at mem
      exact pooled kind b mem
  | push top =>
    by_cases same : atomOf kind = atomOf top.kind
    · obtain rfl := atomOf_inj same
      rw [Pool.setBucket_buckets_self] at mem
      rcases List.mem_cons.mp mem with rfl | mem
      · exact pushed b rfl
      · exact pooled top.kind b mem
    · rw [Pool.setBucket_buckets_of_ne _ same] at mem
      exact pooled kind b mem
  | empty atom rest =>
    by_cases same : atomOf kind = atom
    · rw [same, Pool.setBucket_buckets_self] at mem
      contradiction
    · rw [Pool.setBucket_buckets_of_ne _ same] at mem
      exact pooled kind b mem
  | _ => exact pooled kind b mem

end Busker.BufferPool
