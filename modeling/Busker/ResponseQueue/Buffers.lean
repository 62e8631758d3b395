import Mathlib.Data.List.Basic
import Mathlib.Algebra.Order.Ring.Nat
import Mathlib.Logic.Function.Basic

/-! Byte buffers, sealed chunks and the buffer pool. A buffer is known by the number
it was allocated under; the heap maps these numbers to the buffers. -/

namespace Busker.ResponseQueue

/-- A `java.nio.ByteBuffer`. -/
structure ByteBuffer where
  array : List UInt8
  position : ℕ
  limit : ℕ
  position_le : position ≤ limit
  limit_le : limit ≤ array.length

namespace ByteBuffer

variable (b : ByteBuffer)

def capacity : ℕ := b.array.length

def remaining : ℕ := b.limit - b.position

def allocate (capacity : ℕ) : ByteBuffer where
  array := List.replicate capacity 0
  position := 0
  limit := capacity
  position_le := Nat.zero_le _
  limit_le := by simp

def clear : ByteBuffer where
  array := b.array
  position := 0
  limit := b.capacity
  position_le := Nat.zero_le _
  limit_le := le_rfl

def flip : ByteBuffer where
  array := b.array
  position := 0
  limit := b.position
  position_le := Nat.zero_le _
  limit_le := b.position_le.trans b.limit_le

def put (bytes : List UInt8) (room : bytes.length ≤ b.remaining) : ByteBuffer where
  array := b.array.take b.position ++ bytes ++ b.array.drop (b.position + bytes.length)
  position := b.position + bytes.length
  limit := b.limit
  position_le := by
    have := b.position_le
    unfold remaining at room
    omega
  limit_le := by
    have := b.position_le
    have := b.limit_le
    unfold remaining at room
    simp only [List.length_append, List.length_take, List.length_drop]
    omega

/-- The buffer once all its remaining bytes have been read. -/
def get : ByteBuffer where
  array := b.array
  position := b.limit
  limit := b.limit
  position_le := le_rfl
  limit_le := b.limit_le

/-- The bytes a read of the whole buffer returns. -/
def content : List UInt8 := (b.array.drop b.position).take b.remaining

/-- The bytes put since the buffer was cleared. -/
def filled : List UInt8 := b.array.take b.position

variable {b}

@[simp] theorem filled_clear : b.clear.filled = [] := rfl

@[simp] theorem content_flip : b.flip.content = b.filled := by
  simp [content, flip, remaining, filled]

@[simp] theorem remaining_flip : b.flip.remaining = b.filled.length := by
  have := b.position_le.trans b.limit_le
  simp [remaining, flip, filled, this]

@[simp] theorem capacity_flip : b.flip.capacity = b.capacity := rfl

@[simp] theorem capacity_clear : b.clear.capacity = b.capacity := rfl

@[simp] theorem capacity_get : b.get.capacity = b.capacity := rfl

@[simp] theorem filled_put {bytes : List UInt8} (room : bytes.length ≤ b.remaining) :
    (b.put bytes room).filled = b.filled ++ bytes := by
  have := b.position_le.trans b.limit_le
  simp only [filled, put]
  rw [List.take_append_of_le_length (by simp [this])]
  exact List.take_of_length_le (by simp [this])

@[simp] theorem capacity_put {bytes : List UInt8} (room : bytes.length ≤ b.remaining) :
    (b.put bytes room).capacity = b.capacity := by
  have := b.position_le
  have := b.limit_le
  unfold remaining at room
  simp only [capacity, put, List.length_append, List.length_take, List.length_drop]
  omega

theorem length_filled : b.filled.length = b.position := by
  simp [filled, b.position_le.trans b.limit_le]

theorem filled_le_capacity : b.filled.length ≤ b.capacity :=
  length_filled.trans_le (b.position_le.trans b.limit_le)

theorem filled_of_position (h : b.position = 0) : b.filled = [] := by
  simp [filled, h]

end ByteBuffer

abbrev Heap := ℕ → ByteBuffer

/-- A sealed unit of output. -/
structure Chunk where
  bufs : List ℕ
  bytes : ℕ
  final : Bool
  deriving DecidableEq

def sealChunk (heap : Heap) (bufs : List ℕ) (final : Bool) : Chunk where
  bufs := bufs
  bytes := (bufs.map fun b => (heap b).remaining).sum
  final := final

/-- The buffers of all requests: `next` have been allocated, `free` are in the
pool, `others` are out with other requests, `discarded` the pool has rejected. -/
structure Pool where
  heap : Heap
  next : ℕ
  free : List ℕ
  others : List ℕ
  discarded : List ℕ

/-- What `borrow` finds: a pooled buffer, or none and allocates one. -/
inductive Source
  | pooled (b : ℕ)
  | fresh (capacity : ℕ)

def Source.capacity (heap : Heap) : Source → ℕ
  | .pooled b => (heap b).capacity
  | .fresh capacity => capacity

namespace Pool

def update (p : Pool) (b : ℕ) (f : ByteBuffer → ByteBuffer) : Pool :=
  { p with heap := Function.update p.heap b (f (p.heap b)) }

/-- `borrow`. Which pooled buffer is on top depends on the other requests. -/
def borrow (p : Pool) (size : ℕ) : Source → Option (ℕ × Pool)
  | .pooled b =>
    if b ∈ p.free then some (b, ({ p with free := p.free.erase b }).update b .clear) else none
  | .fresh capacity =>
    if size ≤ capacity then
      some (p.next, { p with
        heap := Function.update p.heap p.next (.allocate capacity)
        next := p.next + 1 })
    else none

/-- `return`. Whether a limit rejects the buffer depends on the other requests. -/
def giveBack (p : Pool) (b : ℕ) (keep : Bool) : Pool :=
  if keep then { p with free := b :: p.free } else { p with discarded := b :: p.discarded }

end Pool

namespace Pool

variable {p q : Pool} {b x y : ℕ}

/-- In how many places of the pool the buffer is. -/
def tally (p : Pool) (b : ℕ) : ℕ := p.free.count b + p.others.count b + p.discarded.count b

def made (p : Pool) (b : ℕ) : ℕ := if b < p.next then 1 else 0

/-- Every buffer allocated so far is in one place. -/
def Sound (p : Pool) : Prop := ∀ b, p.tally b = p.made b

@[simp] theorem tally_update (f : ByteBuffer → ByteBuffer) : (p.update x f).tally b = p.tally b := rfl

@[simp] theorem made_update (f : ByteBuffer → ByteBuffer) : (p.update x f).made b = p.made b := rfl

theorem tally_giveBack (keep : Bool) : (p.giveBack x keep).tally b = p.tally b + [x].count b := by
  cases keep <;> simp only [giveBack, tally, List.count_cons, List.count_nil, if_true, if_false,
    Bool.false_eq_true] <;> omega

@[simp] theorem made_giveBack (keep : Bool) : (p.giveBack x keep).made b = p.made b := by
  cases keep <;> rfl

@[simp] theorem heap_giveBack (keep : Bool) : (p.giveBack x keep).heap = p.heap := by
  cases keep <;> rfl

theorem count_erase_add {l : List ℕ} (h : x ∈ l) : (l.erase x).count b + [x].count b = l.count b := by
  rw [(List.perm_cons_erase h).count_eq b]
  simp only [List.count_cons, List.count_nil, Nat.zero_add]

theorem made_succ : (if b < p.next + 1 then 1 else 0) = p.made b + [p.next].count b := by
  simp only [made, List.count_singleton, beq_iff_eq]
  split_ifs <;> omega

/-- A borrowed buffer leaves the pool or is new. -/
theorem borrow_tally {size : ℕ} {source : Source} (h : p.borrow size source = some (x, q)) :
    q.tally b + [x].count b + p.made b = p.tally b + q.made b := by
  cases source with
  | pooled c =>
    simp only [borrow] at h
    split at h
    · rename_i found
      obtain ⟨rfl, rfl⟩ := Prod.mk.inj (Option.some.inj h)
      have := count_erase_add (b := b) found
      show (p.free.erase c).count b + p.others.count b + p.discarded.count b + [c].count b + p.made b =
        p.tally b + p.made b
      unfold tally
      omega
    · contradiction
  | fresh capacity =>
    simp only [borrow] at h
    split at h
    · obtain ⟨rfl, rfl⟩ := Prod.mk.inj (Option.some.inj h)
      have := made_succ (p := p) (b := b)
      simp only [tally, made] at *
      omega
    · contradiction

/-- Borrowing changes no buffer but the one it finds. -/
theorem borrow_heap {size : ℕ} {source : Source} (h : p.borrow size source = some (x, q)) :
    (0 < p.tally x ∨ p.next ≤ x) ∧ (∀ y, y ≠ x → q.heap y = p.heap y) ∧
      (q.heap x).capacity = source.capacity p.heap := by
  cases source with
  | pooled c =>
    simp only [borrow] at h
    split at h
    · rename_i found
      obtain ⟨rfl, rfl⟩ := Prod.mk.inj (Option.some.inj h)
      have := List.count_pos_iff.mpr found
      refine ⟨.inl (by unfold tally; omega), fun y ne => Function.update_of_ne ne .., ?_⟩
      simp [update, Source.capacity]
    · contradiction
  | fresh capacity =>
    simp only [borrow] at h
    split at h
    · obtain ⟨rfl, rfl⟩ := Prod.mk.inj (Option.some.inj h)
      refine ⟨.inr le_rfl, fun y ne => Function.update_of_ne ne .., ?_⟩
      simp [Source.capacity, ByteBuffer.capacity, ByteBuffer.allocate]
    · contradiction

end Pool

/-- What other requests do with the pool and with the buffers they hold. -/
inductive OtherMove
  | borrow (size : ℕ) (source : Source)
  | giveBack (b : ℕ) (keep : Bool)
  | touch (b : ℕ) (content : ByteBuffer)

def otherStep (p : Pool) : OtherMove → Option Pool
  | .borrow size source =>
    (p.borrow size source).map fun (b, q) => { q with others := b :: q.others }
  | .giveBack b keep =>
    if b ∈ p.others then some (({ p with others := p.others.erase b }).giveBack b keep) else none
  | .touch b content =>
    if b ∈ p.others ∧ content.capacity = (p.heap b).capacity then some (p.update b fun _ => content)
    else none

theorem otherStep_tally {p q : Pool} {move : OtherMove} {b : ℕ} (h : otherStep p move = some q) :
    q.tally b + p.made b = p.tally b + q.made b := by
  cases move with
  | borrow size source =>
    obtain ⟨⟨x, r⟩, borrowed, rfl⟩ := Option.map_eq_some_iff.mp h
    have := Pool.borrow_tally (b := b) borrowed
    simp only [Pool.tally, Pool.made, List.count_cons, List.count_nil] at *
    omega
  | giveBack x keep =>
    simp only [otherStep] at h
    split at h
    · rename_i found
      obtain rfl := Option.some.inj h
      have := Pool.count_erase_add (b := b) found
      rw [Pool.tally_giveBack, Pool.made_giveBack]
      simp only [Pool.tally, Pool.made]
      omega
    · contradiction
  | touch x content =>
    simp only [otherStep] at h
    split at h
    · obtain rfl := Option.some.inj h
      rfl
    · contradiction

/-- Other requests change no buffer that is out with this one. -/
theorem otherStep_heap {p q : Pool} {move : OtherMove} (h : otherStep p move = some q) (b : ℕ)
    (out : p.tally b = 0) (allocated : b < p.next) : q.heap b = p.heap b := by
  cases move with
  | borrow size source =>
    obtain ⟨⟨x, r⟩, borrowed, rfl⟩ := Option.map_eq_some_iff.mp h
    obtain ⟨pooled, same, -⟩ := Pool.borrow_heap borrowed
    refine same b ?_
    rintro rfl
    omega
  | giveBack x keep =>
    simp only [otherStep] at h
    split at h
    · obtain rfl := Option.some.inj h
      rw [Pool.heap_giveBack]
    · contradiction
  | touch x content =>
    simp only [otherStep] at h
    split at h
    · rename_i held
      obtain rfl := Option.some.inj h
      refine Function.update_of_ne ?_ ..
      rintro rfl
      have := List.count_pos_iff.mpr held.1
      unfold Pool.tally at out
      omega
    · contradiction

end Busker.ResponseQueue
