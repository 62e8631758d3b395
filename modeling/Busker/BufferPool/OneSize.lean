import Busker.BufferPool.Sizes

/-! A pool of one user: all requests are for one size of heap buffers, and only what was
lent is returned. Such a pool lends buffers of one capacity, although its buckets are one. -/
namespace Busker.BufferPool

open Interleaving

/-- The capacity of a buffer allocated for a size. -/
def lentCapacity (cfg : Config) (size : ℕ) : ℕ :=
  if cfg.maxCapacity < size then size else cfg.aligned size

variable {ι : Type*} {cfg : Config} {size : ℕ} {s : State ι}

/-- Requests are for heap buffers of the one size; returned are buffers lent for it. -/
def oneSize (cfg : Config) (size : ℕ) (a : ι × Move) (_ : State ι) : Prop :=
  match a.2 with
  | .borrow asked kind => asked = size ∧ kind = .heap
  | .giveBack (some buffer) => buffer.kind = .heap ∧ buffer.capacity = lentCapacity cfg size
  | _ => True

/-- What a call has in hand in such a pool. -/
def OneCapacity (cfg : Config) (size : ℕ) : Caller → Prop
  | .borrowPop asked kind => asked = size ∧ kind = .heap ∧ size ≤ cfg.maxCapacity
  | .borrowTotals _ _ _ b | .borrowed _ _ b | .returnDisposed b | .returnCount b
  | .returnTotals b _ | .returnPush b | .returnAdd b => b.capacity = lentCapacity cfg size
  | _ => True

theorem oneCapacity_borrow : OneCapacity cfg size (borrow cfg size .heap) := by
  unfold borrow
  rw [Int.toNat_natCast]
  split
  · rename_i large
    split
    · change size = lentCapacity cfg size
      rw [lentCapacity, if_pos large]
    · trivial
  · rename_i small
    exact ⟨rfl, rfl, not_lt.mp small⟩

/-- A call that begins asks for the one size or returns what was lent for it. -/
theorem oneCapacity_begins {a : ι × Move} {p t : Pool} {q : Caller} (allowed : oneSize cfg size a s)
    (moves : callerStep cfg p .idle a.2 = some (t, q)) : t = p ∧ OneCapacity cfg size q := by
  obtain ⟨i, move⟩ := a
  cases move with
  | borrow asked kind =>
      obtain ⟨rfl, rfl⟩ := allowed
      obtain ⟨rfl, rfl⟩ := Prod.mk.inj (Option.some.inj moves)
      exact ⟨rfl, oneCapacity_borrow⟩
  | giveBack buffer =>
      cases buffer with
      | none =>
          obtain ⟨rfl, rfl⟩ := Prod.mk.inj (Option.some.inj moves)
          exact ⟨rfl, trivial⟩
      | some b =>
          obtain ⟨rfl, rfl⟩ := Prod.mk.inj (Option.some.inj moves)
          exact ⟨rfl, allowed.2⟩
  | dispose =>
      obtain ⟨rfl, rfl⟩ := Prod.mk.inj (Option.some.inj moves)
      exact ⟨rfl, trivial⟩
  | tick => cases moves

theorem oneCapacity_step {p t : Pool} {c q : Caller} (moved : Effect cfg p c t q) (busy : c ≠ .idle)
    (h : OneCapacity cfg size c)
    (pooled : ∀ kind, ∀ b ∈ p.buckets (atomOf kind), b.capacity = lentCapacity cfg size) :
    OneCapacity cfg size q := by
  cases moved with
  | borrow n kind => exact (busy rfl).elim
  | giveBack b => exact (busy rfl).elim
  | pop n kind b rest top => exact pooled kind b (top ▸ List.mem_cons_self)
  | fresh n kind =>
      obtain ⟨rfl, -, small⟩ := h
      change cfg.aligned _ = lentCapacity cfg size
      rw [lentCapacity, if_neg (not_lt.mpr small), Int.toNat_natCast]
  | subtract n kind cap b => exact h
  | accept b => exact h
  | count b => exact h
  | under b => exact h
  | push b => exact h
  | _ => trivial

variable [DecidableEq ι]

/-- A pool of one size lends buffers of one capacity. -/
theorem lends_lentCapacity (h : (machine cfg).ReachableVia (oneSize cfg size) s) {i : ι} {asked : ℤ}
    {kind : Kind} {b : ByteBuffer} (lent : s.callers i = .borrowed asked kind b) :
    b.capacity = lentCapacity cfg size := by
  have kept : Built cfg s.pool ∧ (∀ i, OneCapacity cfg size (s.callers i)) ∧
      ∀ kind, ∀ b ∈ s.pool.buckets (atomOf kind), b.capacity = lentCapacity cfg size := by
    apply h.invariant (I := fun s => Built cfg s.pool ∧ (∀ i, OneCapacity cfg size (s.callers i)) ∧
      ∀ kind, ∀ b ∈ s.pool.buckets (atomOf kind), b.capacity = lentCapacity cfg size)
    · rintro _ rfl
      exact ⟨built_makeBytebufferPool cfg, fun _ => trivial,
        fun kind b mem => by simp [start, makeBytebufferPool] at mem⟩
    · rintro a s t ⟨built, callers, pooled⟩ allowed moves
      obtain ⟨p, q, moved, rfl⟩ := stepFn_eq moves
      by_cases idle : s.callers a.1 = .idle
      · rw [idle] at moved
        obtain ⟨rfl, begins⟩ := oneCapacity_begins allowed moved
        exact ⟨built, forall_update (P := fun _ c => OneCapacity cfg size c) callers begins, pooled⟩
      · have effect := effect_of_step built moved
        refine ⟨built_step built effect, ?_, ?_⟩
        · exact forall_update (P := fun _ c => OneCapacity cfg size c) callers
            (oneCapacity_step effect idle (callers a.1) pooled)
        · refine pooled_step (P := fun _ b => b.capacity = lentCapacity cfg size) effect pooled ?_
          intro b at_
          have known := callers a.1
          rwa [at_] at known
  have known := kept.2.1 i
  rwa [lent] at known

end Busker.BufferPool
