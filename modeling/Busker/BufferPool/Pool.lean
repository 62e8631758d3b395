import Busker.Interleaving.Machine
import Mathlib.Data.Int.Basic
import Mathlib.Logic.Function.Basic

/-! The pool of byte buffers (`ol.busker.buffer-pool`): its configuration, the mapping of
sizes to buckets, and `borrow`, `return` and `dispose` as the accesses they make to the
atoms of the pool, in any interleaving of calls. The loops that pop and push a bucket are
one step each: a turn that loses its compare-and-set has no effect. -/

namespace Busker.BufferPool

open Interleaving

inductive Kind
  | heap | direct
  deriving DecidableEq, Repr

/-- A `java.nio.ByteBuffer`, whose capacity and kind never change. -/
structure ByteBuffer where
  kind : Kind
  capacity : ℕ
  position : ℕ
  limit : ℕ
  deriving DecidableEq, Repr

def allocate (kind : Kind) (capacity : ℕ) : ByteBuffer := ⟨kind, capacity, 0, capacity⟩

def ByteBuffer.clear (b : ByteBuffer) : ByteBuffer := { b with position := 0, limit := b.capacity }

/-- One more than the largest Java `int`, the sizes a buffer can have. -/
def intLimit : ℕ := 0x80000000

structure Options where
  minCapacity : Option Int32
  factor : Option Int32
  maxCapacity : Option Int32
  maxBucketSize : Option Int32
  maxHeapMemory : Option Int64
  maxDirectMemory : Option Int64

/-- A normalised configuration. `none` is unbounded. -/
structure Config where
  minCapacity : ℕ
  factor : ℕ
  maxCapacity : ℕ
  maxBucketSize : Option ℤ
  maxHeapMemory : Option ℕ
  maxDirectMemory : Option ℕ
  minCapacity_lt : minCapacity < intLimit
  factor_pos : 0 < factor
  factor_lt : factor < intLimit
  maxCapacity_pos : 0 < maxCapacity
  maxCapacity_lt : maxCapacity < intLimit

def defaultFactor : ℕ := 2048

def defaultMaxCapacity : ℕ := 65536

def positiveOr (given default : ℕ) : ℕ := if 0 < given then given else default

theorem positiveOr_pos {given default : ℕ} (h : 0 < default) : 0 < positiveOr given default := by
  unfold positiveOr
  split <;> assumption

theorem positiveOr_lt {given default bound : ℕ} (hg : given < bound) (hd : default < bound) :
    positiveOr given default < bound := by
  unfold positiveOr
  split <;> assumption

theorem toNat_int32_lt (n : Int32) : n.toInt.toNat < intLimit := by
  have := n.toInt_lt
  unfold intLimit
  omega

def positiveMemory (given : Option Int64) : Option ℕ :=
  given.bind fun n => if 0 < n.toInt then some n.toInt.toNat else none

def normalizeOpts (opts : Options) (nCpu : ℕ) : Config where
  minCapacity := (opts.minCapacity.getD 0).toInt.toNat
  factor := positiveOr (opts.factor.getD 2048).toInt.toNat defaultFactor
  maxCapacity := positiveOr (opts.maxCapacity.getD 65536).toInt.toNat defaultMaxCapacity
  maxBucketSize :=
    let m := (opts.maxBucketSize.map Int32.toInt).getD (2 * nCpu)
    if m = -1 then none else some m
  maxHeapMemory := positiveMemory opts.maxHeapMemory
  maxDirectMemory := positiveMemory opts.maxDirectMemory
  minCapacity_lt := toNat_int32_lt _
  factor_pos := positiveOr_pos (by decide)
  factor_lt := positiveOr_lt (toNat_int32_lt _) (by decide)
  maxCapacity_pos := positiveOr_pos (by decide)
  maxCapacity_lt := positiveOr_lt (toNat_int32_lt _) (by decide)

/-- The source divides in double precision, which is exact for `int` arguments. -/
def ceilDiv (a b : ℕ) : ℕ := (a + b - 1) / b

namespace Config

variable (cfg : Config)

/-- The second component of `bucket-index-for`: the capacity a size is rounded to. -/
def aligned (size : ℕ) : ℕ :=
  min (ceilDiv (max size cfg.minCapacity) cfg.factor * cfg.factor) cfg.maxCapacity

def bucketIndexFor (size : ℕ) : ℕ × ℕ := (cfg.aligned size / cfg.factor, cfg.aligned size)

def nBuckets : ℕ := cfg.maxCapacity / cfg.factor + 1

def memoryCap : Kind → Option ℕ
  | .heap => cfg.maxHeapMemory
  | .direct => cfg.maxDirectMemory

def underBucketCap (count : ℕ) : Bool := cfg.maxBucketSize.all fun m => decide ((count : ℤ) < m)

def underMemoryCap (kind : Kind) (total : ℤ) : Bool :=
  (cfg.memoryCap kind).all fun m => decide (total ≤ m)

end Config

/-- `new-buckets`: a vector of references to atoms. `repeat` evaluates its argument once,
so every place of the vector has the one atom `atom`. -/
def newBuckets (cfg : Config) (atom : ℕ) : List ℕ := List.replicate cfg.nBuckets atom

/-- The pool's atoms. A bucket's vector is a stack with its top first; `finished` records
that a call of `dispose` has returned. -/
structure Pool where
  heapBuckets : List ℕ
  directBuckets : List ℕ
  buckets : ℕ → List ByteBuffer
  totals : Kind → ℤ
  disposed : Bool
  finished : Bool

def makeBytebufferPool (cfg : Config) : Pool where
  heapBuckets := newBuckets cfg 0
  directBuckets := newBuckets cfg 1
  buckets _ := []
  totals _ := 0
  disposed := false
  finished := false

namespace Pool

def bucketVec (p : Pool) : Kind → List ℕ
  | .heap => p.heapBuckets
  | .direct => p.directBuckets

def setBucket (p : Pool) (atom : ℕ) (buffers : List ByteBuffer) : Pool :=
  { p with buckets := Function.update p.buckets atom buffers }

@[simp] theorem setBucket_buckets_self (p : Pool) (atom : ℕ) (buffers : List ByteBuffer) :
    (p.setBucket atom buffers).buckets atom = buffers := Function.update_self ..

theorem setBucket_buckets_of_ne (p : Pool) {atom other : ℕ} (h : other ≠ atom)
    (buffers : List ByteBuffer) : (p.setBucket atom buffers).buckets other = p.buckets other :=
  Function.update_of_ne h ..

def addTotal (p : Pool) (kind : Kind) (n : ℤ) : Pool :=
  { p with totals := Function.update p.totals kind (p.totals kind + n) }

@[simp] theorem addTotal_totals_self (p : Pool) (kind : Kind) (n : ℤ) :
    (p.addTotal kind n).totals kind = p.totals kind + n := Function.update_self ..

theorem addTotal_totals_of_ne (p : Pool) {kind other : Kind} (h : other ≠ kind) (n : ℤ) :
    (p.addTotal kind n).totals other = p.totals other := Function.update_of_ne h ..

end Pool

/-- Where a call stands. `borrowed` and `returned` are its results. -/
inductive Caller
  | idle
  | borrowPop (size : ℤ) (kind : Kind)
  | borrowTotals (size : ℤ) (kind : Kind) (cap : ℕ) (buffer : ByteBuffer)
  | borrowed (size : ℤ) (kind : Kind) (buffer : ByteBuffer)
  | returnDisposed (buffer : ByteBuffer)
  | returnCount (buffer : ByteBuffer)
  | returnTotals (buffer : ByteBuffer) (underBucketCap : Bool)
  | returnPush (buffer : ByteBuffer)
  | returnAdd (buffer : ByteBuffer)
  | returned (accepted : Bool)
  | disposeFlag
  | disposeBuckets (rest : List ℕ)
  | disposed
  | threw
  deriving DecidableEq, Repr

inductive Move
  | borrow (size : ℤ) (kind : Kind)
  | giveBack (buffer : Option ByteBuffer)
  | dispose
  | tick
  deriving DecidableEq, Repr

variable (cfg : Config)

/-- A size above the pool's largest is allocated as it is, if a buffer can be that big. -/
def borrow (size : ℤ) (kind : Kind) : Caller :=
  if cfg.maxCapacity < size.toNat then
    if size.toNat < intLimit then .borrowed size kind (allocate kind size.toNat) else .threw
  else .borrowPop size kind

/-- The atom of the bucket that a size maps to. -/
def bucketFor (p : Pool) (kind : Kind) (size : ℕ) : Option ℕ :=
  (p.bucketVec kind)[(cfg.bucketIndexFor size).1]?

def borrowPop (p : Pool) (size : ℤ) (kind : Kind) : Option (Pool × Caller) :=
  let cap := (cfg.bucketIndexFor size.toNat).2
  (bucketFor cfg p kind size.toNat).map fun atom =>
    match p.buckets atom with
    | buffer :: rest => (p.setBucket atom rest, .borrowTotals size kind cap buffer)
    | [] => (p, .borrowed size kind (allocate kind cap))

/-- What `return` decides before it looks at the bucket. -/
def returnDisposed (p : Pool) (buffer : ByteBuffer) : Caller :=
  if p.disposed then .returned false
  else if buffer.capacity = 0 then .threw
  else if cfg.maxCapacity < buffer.capacity then .returned false
  else if cfg.aligned buffer.capacity = buffer.capacity then .returnCount buffer
  else .returned false

def returnTotals (p : Pool) (buffer : ByteBuffer) (underBucketCap : Bool) : Caller :=
  if underBucketCap && cfg.underMemoryCap buffer.kind (p.totals buffer.kind + buffer.capacity) then
    .returnPush buffer
  else .returned false

def disposeBuckets (p : Pool) : List ℕ → Pool × Caller
  | atom :: rest => (p.setBucket atom [], .disposeBuckets rest)
  | [] => ({ p with totals := fun _ => 0, finished := true }, .disposed)

/-- One access of a call to the pool. -/
def callerStep (p : Pool) : Caller → Move → Option (Pool × Caller)
  | .idle, .borrow size kind => some (p, borrow cfg size kind)
  | .idle, .giveBack (some buffer) => some (p, .returnDisposed buffer)
  | .idle, .giveBack none => some (p, .returned false)
  | .idle, .dispose => some (p, .disposeFlag)
  | .borrowPop size kind, .tick => borrowPop cfg p size kind
  | .borrowTotals size kind cap buffer, .tick =>
    some (p.addTotal kind (-cap), .borrowed size kind buffer.clear)
  | .returnDisposed buffer, .tick => some (p, returnDisposed cfg p buffer)
  | .returnCount buffer, .tick =>
    (bucketFor cfg p buffer.kind buffer.capacity).map fun atom =>
      (p, .returnTotals buffer (cfg.underBucketCap (p.buckets atom).length))
  | .returnTotals buffer underBucketCap, .tick => some (p, returnTotals cfg p buffer underBucketCap)
  | .returnPush buffer, .tick =>
    (bucketFor cfg p buffer.kind buffer.capacity).map fun atom =>
      (p.setBucket atom (buffer :: p.buckets atom), .returnAdd buffer)
  | .returnAdd buffer, .tick => some (p.addTotal buffer.kind buffer.capacity, .returned true)
  | .disposeFlag, .tick =>
    some ({ p with disposed := true }, .disposeBuckets (p.heapBuckets ++ p.directBuckets))
  | .disposeBuckets rest, .tick => some (disposeBuckets p rest)
  | .borrowed .., .tick | .returned _, .tick | .disposed, .tick | .threw, .tick => some (p, .idle)
  | _, _ => none

structure State (ι : Type*) where
  pool : Pool
  callers : ι → Caller

variable {ι : Type*} [DecidableEq ι]

def stepFn (a : ι × Move) (s : State ι) : Option (State ι) :=
  (callerStep cfg s.pool (s.callers a.1) a.2).map fun next =>
    ⟨next.1, Function.update s.callers a.1 next.2⟩

def start : State ι := ⟨makeBytebufferPool cfg, fun _ => .idle⟩

def machine : Machine (State ι) (ι × Move) where
  init s := s = start cfg
  step := stepFn cfg

variable {cfg} {a : ι × Move} {s t : State ι}

theorem stepFn_eq (moves : stepFn cfg a s = some t) :
    ∃ u q, callerStep cfg s.pool (s.callers a.1) a.2 = some (u, q) ∧
      t = ⟨u, Function.update s.callers a.1 q⟩ := by
  obtain ⟨⟨u, q⟩, moved, rfl⟩ := Option.map_eq_some_iff.mp moves
  exact ⟨u, q, moved, rfl⟩

end Busker.BufferPool
