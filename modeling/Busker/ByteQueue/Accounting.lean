import Busker.ByteQueue.Queue
import Busker.Interleaving.Order
import Busker.ResponseQueue.OutStream

/-! What the byte-bounded queue promises. Permits, the producer's bytes, the queued bytes
and those the consumer has polled balance in every state, before and after `close`; the
rest of the accounting and the order of the items follow from it. -/

namespace Busker.ByteQueue

open Interleaving

variable {α : Type*} {cfg : Config α}

def Config.bytes (cfg : Config α) (items : List α) : ℤ := (items.map cfg.byteSize).sum

@[simp] theorem bytes_nil : cfg.bytes [] = 0 := rfl

@[simp] theorem bytes_cons (x : α) (items : List α) :
    cfg.bytes (x :: items) = cfg.byteSize x + cfg.bytes items := by
  simp [Config.bytes]

@[simp] theorem bytes_append (xs ys : List α) : cfg.bytes (xs ++ ys) = cfg.bytes xs + cfg.bytes ys := by
  simp [Config.bytes]

theorem bytes_nonneg {items : List α} (h : ∀ x ∈ items, 0 ≤ cfg.byteSize x) : 0 ≤ cfg.bytes items := by
  induction items with
  | nil => simp
  | cons x rest ih =>
    have head := h x (by simp)
    have tail := ih fun y mem => h y (List.mem_cons_of_mem _ mem)
    simp only [bytes_cons]
    omega

namespace Put

/-- Past its second check of `closed?_`. -/
@[simp] def passed : Put → Bool
  | .account | .enqueue | .rollback => true
  | _ => false

/-- Bytes the producer holds permits for. -/
@[simp] def held (cfg : Config α) (x : α) : Put → ℤ
  | .ensureOpen | .acquire => 0
  | _ => cfg.byteSize x

/-- Of these, the bytes that go into the queue even if it is closed now. -/
@[simp] def committed (cfg : Config α) (x : α) : Put → ℤ
  | .account | .enqueue | .rollback => cfg.byteSize x
  | _ => 0

/-- Bytes counted in `queued-bytes_` and not in the queue. -/
@[simp] def counted (cfg : Config α) (x : α) : Put → ℤ
  | .enqueue | .rollback => cfg.byteSize x
  | _ => 0

/-- What the points of `put` know of the item. -/
@[simp] def Sound (cfg : Config α) (x : α) : Put → Prop
  | .ensureOpen => True
  | .recheck | .enqueue => 0 ≤ cfg.byteSize x ∧ cfg.byteSize x ≤ cfg.capacity
  | _ => 0 < cfg.byteSize x ∧ cfg.byteSize x ≤ cfg.capacity

end Put

namespace PutResult

@[simp] def point : PutResult → Option Put
  | .next point => some point
  | _ => none

@[simp] def added (x : α) : PutResult → List α
  | .queued => [x]
  | _ => []

end PutResult

namespace Drain

@[simp] def acc : Drain α → List α
  | .peek _ acc | .poll _ acc _ | .account _ acc _ | .release _ acc _ => acc

@[simp] def rem : Drain α → ℤ
  | .peek rem _ | .poll rem _ _ | .account rem _ _ | .release rem _ _ => rem

/-- The item polled and not added to the result yet. -/
@[simp] def polled : Drain α → List α
  | .account _ _ head | .release _ _ head => [head]
  | _ => []

/-- The same while it is counted in `queued-bytes_`. -/
@[simp] def uncounted : Drain α → List α
  | .account _ _ head => [head]
  | _ => []

@[simp] def Fits (cfg : Config α) (items : List α) : Drain α → Prop
  | .peek _ _ => True
  | .poll rem _ head => items.head? = some head ∧ cfg.byteSize head ≤ rem
  | .account rem _ head | .release rem _ head => 0 < cfg.byteSize head ∧ cfg.byteSize head ≤ rem

/-- What `drain` knows of its limit, its result and the head of the queue. -/
structure Sound (cfg : Config α) (items : List α) (limit : ℤ) (d : Drain α) : Prop where
  limit : d.rem + cfg.bytes d.acc = limit
  acc : d.acc ≠ [] → 0 ≤ d.rem
  fits : d.Fits cfg items

end Drain

namespace DrainResult

@[simp] def point : DrainResult α → Option (Drain α)
  | .next point => some point
  | _ => none

@[simp] def taken : DrainResult α → List α
  | .next point => point.acc ++ point.polled
  | .returned acc => acc
  | .thrown => []

end DrainResult

namespace State

def held (cfg : Config α) (s : State α) : ℤ := s.put.elim 0 fun p => p.2.held cfg p.1

def committed (cfg : Config α) (s : State α) : ℤ := s.put.elim 0 fun p => p.2.committed cfg p.1

def counted (cfg : Config α) (s : State α) : ℤ := s.put.elim 0 fun p => p.2.counted cfg p.1

/-- Bytes of a polled item whose permits are not released yet. -/
def unreleased (cfg : Config α) (s : State α) : ℤ := s.drain.elim 0 fun d => cfg.bytes d.2.polled

def uncounted (cfg : Config α) (s : State α) : ℤ := s.drain.elim 0 fun d => cfg.bytes d.2.uncounted

/-- What the drain under way has taken. -/
def taken (s : State α) : List α := s.drain.elim [] fun d => d.2.acc ++ d.2.polled

/-- What the drains that returned have returned. -/
def drained (s : State α) : List α := s.returns.flatMap (·.items)

/-- The permits `close` has added. -/
def flood (cfg : Config α) (s : State α) : ℤ := if s.queue.closed && !s.flooding then cfg.capacity else 0

end State

/-- A drain stops where its limit is used up, the queue is empty or the next item does
not fit. -/
structure Return.Maximal (cfg : Config α) (r : Return α) : Prop where
  fits : r.items ≠ [] → cfg.bytes r.items ≤ r.limit
  stops : r.limit ≤ cfg.bytes r.items ∨ r.rest = [] ∨
    ∃ x later, r.rest = x :: later ∧ r.limit < cfg.bytes r.items + cfg.byteSize x

/-- What a step of `put` does to the queue. -/
structure PutSpec (cfg : Config α) (q r : Queue α) (x : α) (p : Put) (result : PutResult) : Prop where
  closed : r.closed = q.closed
  items : r.items = q.items ++ result.added x
  sized : result = .queued → p = .enqueue
  sound : ∀ next, result = .next next → next.Sound cfg x
  permits : 0 ≤ q.permits → 0 ≤ r.permits
  total : q.permits + p.held cfg x < 2 ^ 31 →
    r.permits + result.point.elim 0 (·.held cfg x) + cfg.bytes (result.added x) = q.permits + p.held cfg x
  committed : result.point.elim 0 (·.committed cfg x) + cfg.bytes (result.added x) ≤ p.committed cfg x ∨
    q.closed = false ∧
      result.point.elim 0 (·.committed cfg x) + cfg.bytes (result.added x) ≤ p.held cfg x
  counted : r.queuedBytes - cfg.bytes (result.added x) - result.point.elim 0 (·.counted cfg x) =
    q.queuedBytes - p.counted cfg x
  /-- Short of the second check in a closed queue, nothing is queued or counted. -/
  refused : q.closed = true → p.passed = false → r.items = q.items ∧ r.queuedBytes = q.queuedBytes ∧
    result ≠ .queued ∧ ∀ next, result = .next next → next.passed = false

theorem putStep_spec {q r : Queue α} {x : α} {p : Put} {move : PutMove} {result : PutResult}
    (sound : p.Sound cfg x) (h : putStep cfg q x p move = some (r, result)) : PutSpec cfg q r x p result := by
  cases p <;> cases move <;> simp only [putStep, reduceCtorEq, Option.some.injEq, Prod.mk.injEq] at h
  case ensureOpen.tick =>
    obtain ⟨rfl, rfl⟩ := h
    split_ifs with bad pos
    · constructor <;> simp
    all_goals
      simp only [Bool.or_eq_true, decide_eq_true_eq, not_or, not_lt] at bad
      constructor <;> simp
      all_goals omega
  case acquire.tick =>
    split at h
    · obtain ⟨rfl, rfl⟩ := Prod.mk.inj (Option.some.inj h)
      simp only [Put.Sound] at sound
      constructor <;> simp
      all_goals omega
    · contradiction
  case acquire.fail =>
    obtain ⟨rfl, rfl⟩ := h
    constructor <;> simp
  case recheck.tick =>
    obtain ⟨rfl, rfl⟩ := h
    simp only [Put.Sound] at sound
    split_ifs with shut pos <;> constructor <;> simp [shut]
    all_goals omega
  case account.tick =>
    obtain ⟨rfl, rfl⟩ := h
    simp only [Put.Sound] at sound
    constructor <;> simp
    all_goals omega
  case enqueue.tick =>
    obtain ⟨rfl, rfl⟩ := h
    constructor <;> simp
  case enqueue.fail =>
    obtain ⟨rfl, rfl⟩ := h
    simp only [Put.Sound] at sound
    split_ifs with pos <;> constructor <;> simp
    all_goals omega
  case rollback.tick =>
    obtain ⟨rfl, rfl⟩ := h
    simp only [Put.Sound] at sound
    constructor <;> simp
    all_goals omega
  case release.tick =>
    obtain ⟨rfl, rfl⟩ := h
    simp only [Put.Sound] at sound
    unfold Queue.release
    split_ifs with room <;> constructor <;> simp
    all_goals omega

/-- What a step of `drain` does to the queue. -/
structure DrainSpec (cfg : Config α) (q r : Queue α) (limit : ℤ) (d : Drain α) (result : DrainResult α) :
    Prop where
  closed : r.closed = q.closed
  items : d.acc ++ d.polled ++ q.items = result.taken ++ r.items
  kept : ∀ x ∈ r.items, x ∈ q.items
  sound : ∀ next, result = .next next → next.Sound cfg r.items limit
  permits : 0 ≤ r.permits
  total : r.permits + cfg.bytes r.items + result.point.elim 0 (cfg.bytes ·.polled) =
    q.permits + cfg.bytes q.items + cfg.bytes d.polled
  committed : cfg.bytes r.items + result.point.elim 0 (cfg.bytes ·.polled) ≤
    cfg.bytes q.items + cfg.bytes d.polled
  counted : r.queuedBytes - cfg.bytes r.items - result.point.elim 0 (cfg.bytes ·.uncounted) =
    q.queuedBytes - cfg.bytes q.items - cfg.bytes d.uncounted
  unfailed : result ≠ .thrown
  maximal : ∀ acc, result = .returned acc → Return.Maximal cfg ⟨limit, acc, r.items⟩

theorem drainStep_spec [DecidableEq α] {q r : Queue α} {limit : ℤ} {d : Drain α} {result : DrainResult α}
    (sized : ∀ x ∈ q.items, 0 ≤ cfg.byteSize x) (permits : 0 ≤ q.permits)
    (room : q.permits + cfg.bytes d.polled < 2 ^ 31) (sound : d.Sound cfg q.items limit)
    (h : drainStep cfg q d = (r, result)) : DrainSpec cfg q r limit d result := by
  obtain ⟨within, nonneg, fits⟩ := sound
  cases d <;> simp only [drainStep, Prod.mk.injEq] at h
  case peek rem acc =>
    obtain ⟨rfl, rfl⟩ := h
    split
    · rename_i done
      refine ⟨rfl, ?_, ?_, ?_, permits, ?_, ?_, ?_, ?_, ?_⟩ <;> try simp
      · simp only [Drain.rem, Drain.acc] at within nonneg
        exact ⟨fun some => by have := nonneg some; dsimp only; omega, .inl (by dsimp only; omega)⟩
    · rename_i more
      simp only [Drain.rem, Drain.acc] at within
      have whole : acc ≠ [] → cfg.bytes acc ≤ limit := fun _ => by omega
      split
      · rename_i head queued
        obtain ⟨rest, items⟩ := List.head?_eq_some_iff.mp queued
        split_ifs with large
        · refine ⟨rfl, ?_, ?_, ?_, permits, ?_, ?_, ?_, ?_, ?_⟩ <;> try simp
          · exact ⟨whole, .inr (.inr ⟨head, rest, items, by dsimp only; omega⟩)⟩
        · refine ⟨rfl, ?_, ?_, ?_, permits, ?_, ?_, ?_, ?_, ?_⟩ <;> try simp
          · exact ⟨within, fun _ => by simp only [Drain.rem]; omega, queued, by omega⟩
      · rename_i empty
        refine ⟨rfl, ?_, ?_, ?_, permits, ?_, ?_, ?_, ?_, ?_⟩ <;> try simp
        · exact ⟨whole, .inr (.inl (List.head?_eq_none_iff.mp empty))⟩
  case poll rem acc head =>
    obtain ⟨queued, fits⟩ := fits
    obtain ⟨rest, items⟩ := List.head?_eq_some_iff.mp queued
    have size := sized head (by simp [items])
    simp only [Drain.rem, Drain.acc] at within
    obtain ⟨rfl, rfl⟩ := h
    rw [if_pos queued]
    split_ifs with pos
    · constructor <;> simp [items]
      · exact fun x mem => .inr mem
      · exact ⟨within, nonneg, pos, fits⟩
      · exact permits
      all_goals omega
    · have zero : cfg.byteSize head = 0 := by omega
      constructor <;> simp [items, zero]
      · exact fun x mem => .inr mem
      · exact ⟨by simp [zero, within], fun _ => by simp only [Drain.rem]; omega, trivial⟩
      · exact permits
  case account rem acc head =>
    obtain ⟨rfl, rfl⟩ := h
    obtain ⟨pos, fits⟩ := fits
    constructor <;> simp
    · exact ⟨within, nonneg, pos, fits⟩
    · exact permits
    all_goals omega
  case release rem acc head =>
    obtain ⟨pos, fits⟩ := fits
    unfold Queue.release at h
    simp only [Drain.polled, bytes_cons, bytes_nil, add_zero] at room
    rw [if_pos room] at h
    obtain ⟨rfl, rfl⟩ := h
    simp only [Drain.rem, Drain.acc] at within
    constructor <;> simp
    · refine ⟨?_, fun _ => ?_, trivial⟩
      · simp only [Drain.rem, Drain.acc, bytes_append, bytes_cons, bytes_nil]
        omega
      · simp only [Drain.rem]
        omega
    all_goals omega

/-- The accounting, in every state. -/
structure Balanced (cfg : Config α) (s : State α) : Prop where
  sized : ∀ x ∈ s.queue.items, 0 ≤ cfg.byteSize x
  permits : 0 ≤ s.queue.permits
  put : ∀ x p, s.put = some (x, p) → p.Sound cfg x
  drain : ∀ limit d, s.drain = some (limit, d) → d.Sound cfg s.queue.items limit
  flooding : s.flooding = true → s.queue.closed = true
  total : s.queue.permits + s.held cfg + cfg.bytes s.queue.items + s.unreleased cfg =
    cfg.capacity + s.flood cfg
  committed : s.committed cfg + cfg.bytes s.queue.items + s.unreleased cfg ≤ cfg.capacity
  counted : s.queue.queuedBytes = cfg.bytes s.queue.items + s.counted cfg + s.uncounted cfg
  unfailed : s.crashed = false

/-- The order of the items, and of each drain. -/
structure Ordered (cfg : Config α) (s : State α) : Prop where
  order : s.puts = s.drained ++ s.taken ++ s.queue.items
  returned : ∀ before r after, s.returns = before ++ r :: after →
    r.Maximal cfg ∧ before.flatMap (·.items) ++ r.items ++ r.rest <+: s.puts

variable {s : State α}

theorem Put.held_nonneg {x : α} {p : Put} (h : p.Sound cfg x) : 0 ≤ p.held cfg x := by
  cases p <;> simp only [Put.Sound, Put.held] at * <;> omega

theorem Balanced.held_nonneg (h : Balanced cfg s) : 0 ≤ s.held cfg := by
  unfold State.held
  rcases put : s.put with _ | ⟨x, p⟩
  · rfl
  · exact Put.held_nonneg (h.put x p put)

theorem Put.committed_le {x : α} {p : Put} (h : p.Sound cfg x) :
    0 ≤ p.counted cfg x ∧ p.counted cfg x ≤ p.committed cfg x ∧ p.committed cfg x ≤ p.held cfg x := by
  cases p <;> simp only [Put.Sound, Put.counted, Put.committed, Put.held] at * <;> omega

theorem Balanced.counted_le (h : Balanced cfg s) :
    0 ≤ s.counted cfg ∧ s.counted cfg ≤ s.committed cfg ∧ s.committed cfg ≤ s.held cfg := by
  unfold State.counted State.committed State.held
  rcases put : s.put with _ | ⟨x, p⟩
  · simp
  · exact Put.committed_le (h.put x p put)

theorem Drain.polled_nonneg {items : List α} {limit : ℤ} {d : Drain α} (h : d.Sound cfg items limit) :
    0 ≤ cfg.bytes d.uncounted ∧ cfg.bytes d.uncounted ≤ cfg.bytes d.polled := by
  have fits := h.fits
  cases d <;> simp_all
  all_goals omega

theorem Balanced.polled_nonneg (h : Balanced cfg s) :
    0 ≤ s.uncounted cfg ∧ s.uncounted cfg ≤ s.unreleased cfg := by
  unfold State.uncounted State.unreleased
  rcases drain : s.drain with _ | ⟨limit, d⟩
  · simp
  · exact Drain.polled_nonneg (h.drain limit d drain)

theorem State.flood_le (cfg : Config α) (s : State α) : 0 ≤ s.flood cfg ∧ s.flood cfg ≤ cfg.capacity := by
  have := cfg.positive
  unfold State.flood
  split <;> omega

/-- The permits and what is in hand stay below `2 ^ 31`, so no release throws. -/
theorem Balanced.room (h : Balanced cfg s) (small : cfg.capacity < 2 ^ 30) :
    s.queue.permits + s.held cfg + s.unreleased cfg < 2 ^ 31 := by
  have := h.total
  have := bytes_nonneg h.sized
  have := s.flood_le cfg
  omega

section afterPut

variable (q : Queue α) (x : α) (result : PutResult)

@[simp] theorem afterPut_queue : (afterPut s q x result).queue = q := by cases result <;> rfl

@[simp] theorem afterPut_put : (afterPut s q x result).put = result.point.map (x, ·) := by
  cases result <;> rfl

@[simp] theorem afterPut_drain : (afterPut s q x result).drain = s.drain := by cases result <;> rfl

@[simp] theorem afterPut_flooding : (afterPut s q x result).flooding = s.flooding := by
  cases result <;> rfl

@[simp] theorem afterPut_puts : (afterPut s q x result).puts = s.puts ++ result.added x := by
  cases result <;> simp [afterPut]

@[simp] theorem afterPut_returns : (afterPut s q x result).returns = s.returns := by cases result <;> rfl

@[simp] theorem afterPut_crashed : (afterPut s q x result).crashed = s.crashed := by cases result <;> rfl

theorem afterPut_held : (afterPut s q x result).held cfg = result.point.elim 0 (·.held cfg x) := by
  cases result <;> rfl

theorem afterPut_committed :
    (afterPut s q x result).committed cfg = result.point.elim 0 (·.committed cfg x) := by
  cases result <;> rfl

theorem afterPut_counted :
    (afterPut s q x result).counted cfg = result.point.elim 0 (·.counted cfg x) := by
  cases result <;> rfl

theorem afterPut_unreleased : (afterPut s q x result).unreleased cfg = s.unreleased cfg := by
  simp [State.unreleased]

theorem afterPut_uncounted : (afterPut s q x result).uncounted cfg = s.uncounted cfg := by
  simp [State.uncounted]

end afterPut

theorem Drain.Sound.append {items : List α} {limit : ℤ} {d : Drain α} (h : d.Sound cfg items limit)
    (later : List α) : d.Sound cfg (items ++ later) limit := by
  refine ⟨h.limit, h.acc, ?_⟩
  have fits := h.fits
  cases d <;> simp only [Drain.Fits] at *
  case poll rem acc head => simp [fits]
  all_goals exact fits

theorem Balanced.producer {x : α} {p : Put} {q : Queue α} {result : PutResult} (h : Balanced cfg s)
    (small : cfg.capacity < 2 ^ 30) (put : s.put = some (x, p))
    (spec : PutSpec cfg s.queue q x p result) : Balanced cfg (afterPut s q x result) := by
  have held : s.held cfg = p.held cfg x := by simp [State.held, put]
  have committed : s.committed cfg = p.committed cfg x := by simp [State.committed, put]
  have counted : s.counted cfg = p.counted cfg x := by simp [State.counted, put]
  have room := h.room small
  have polled := h.polled_nonneg
  have total := spec.total (by omega)
  have balance := h.total
  have bytes : cfg.bytes q.items = cfg.bytes s.queue.items + cfg.bytes (result.added x) := by
    rw [spec.items, bytes_append]
  have flood : (afterPut s q x result).flood cfg = s.flood cfg := by simp [State.flood, spec.closed]
  constructor
  case sized =>
    simp only [afterPut_queue, spec.items]
    intro y mem
    rcases List.mem_append.mp mem with old | new
    · exact h.sized y old
    · cases result with
      | queued =>
        obtain rfl := List.mem_singleton.mp new
        have sound := h.put _ _ put
        rw [spec.sized rfl] at sound
        exact sound.1
      | next | thrown => simp at new
  case permits => simpa using spec.permits h.permits
  case put =>
    intro y next at_
    cases result <;> simp [afterPut] at at_
    obtain ⟨rfl, rfl⟩ := at_
    exact spec.sound _ rfl
  case drain =>
    intro limit d at_
    simp only [afterPut_queue, afterPut_drain, spec.items] at *
    exact (h.drain limit d at_).append _
  case flooding => simpa [spec.closed] using h.flooding
  case total =>
    rw [flood, afterPut_queue, afterPut_held, afterPut_unreleased, bytes]
    omega
  case committed =>
    rw [afterPut_committed, afterPut_queue, afterPut_unreleased, bytes]
    rcases spec.committed with less | ⟨isOpen, less⟩
    · have := h.committed
      omega
    · have none : s.flood cfg = 0 := by simp [State.flood, isOpen]
      have := h.permits
      omega
  case counted =>
    have := spec.counted
    have := h.counted
    rw [afterPut_counted, afterPut_queue, afterPut_uncounted, bytes]
    omega
  case unfailed => simpa using h.unfailed

section afterDrain

variable (q : Queue α) (limit : ℤ) (result : DrainResult α)

@[simp] theorem afterDrain_queue : (afterDrain s q limit result).queue = q := by cases result <;> rfl

@[simp] theorem afterDrain_put : (afterDrain s q limit result).put = s.put := by cases result <;> rfl

@[simp] theorem afterDrain_flooding : (afterDrain s q limit result).flooding = s.flooding := by
  cases result <;> rfl

@[simp] theorem afterDrain_puts : (afterDrain s q limit result).puts = s.puts := by cases result <;> rfl

theorem afterDrain_unreleased :
    (afterDrain s q limit result).unreleased cfg = result.point.elim 0 (cfg.bytes ·.polled) := by
  cases result <;> rfl

theorem afterDrain_uncounted :
    (afterDrain s q limit result).uncounted cfg = result.point.elim 0 (cfg.bytes ·.uncounted) := by
  cases result <;> rfl

end afterDrain

theorem Balanced.consumer {limit : ℤ} {d : Drain α} {q : Queue α} {result : DrainResult α}
    (h : Balanced cfg s) (drain : s.drain = some (limit, d))
    (spec : DrainSpec cfg s.queue q limit d result) : Balanced cfg (afterDrain s q limit result) := by
  have unreleased : s.unreleased cfg = cfg.bytes d.polled := by simp [State.unreleased, drain]
  have uncounted : s.uncounted cfg = cfg.bytes d.uncounted := by simp [State.uncounted, drain]
  have flood : (afterDrain s q limit result).flood cfg = s.flood cfg := by simp [State.flood, spec.closed]
  constructor
  case sized => simpa using fun x mem => h.sized x (spec.kept x mem)
  case permits => simpa using spec.permits
  case put => simpa using h.put
  case drain =>
    intro limit' next at_
    cases result <;> simp [afterDrain] at at_
    obtain ⟨rfl, rfl⟩ := at_
    exact spec.sound _ rfl
  case flooding => simpa [spec.closed] using h.flooding
  case total =>
    have := spec.total
    have := h.total
    rw [flood, afterDrain_queue, afterDrain_unreleased]
    simp only [State.held, afterDrain_put] at *
    omega
  case committed =>
    have := spec.committed
    have := h.committed
    rw [afterDrain_queue, afterDrain_unreleased]
    simp only [State.committed, afterDrain_put] at *
    omega
  case counted =>
    have := spec.counted
    have := h.counted
    rw [afterDrain_queue, afterDrain_uncounted]
    simp only [State.counted, afterDrain_put] at *
    omega
  case unfailed =>
    cases result with
    | thrown => exact absurd rfl spec.unfailed
    | next | returned => exact h.unfailed

theorem Balanced.flood_room (h : Balanced cfg s) (small : cfg.capacity < 2 ^ 30)
    (due : s.flooding = true) : s.queue.permits + cfg.capacity < 2 ^ 31 := by
  have none : s.flood cfg = 0 := by simp [State.flood, due]
  have := h.total
  have := h.held_nonneg
  have := h.polled_nonneg
  have := bytes_nonneg h.sized
  omega

theorem Balanced.flood (h : Balanced cfg s) (due : s.flooding = true) :
    Balanced cfg
      { s with queue := { s.queue with permits := s.queue.permits + cfg.capacity }, flooding := false } where
  sized := h.sized
  permits := by
    have := cfg.positive
    have := h.permits
    dsimp only
    omega
  put := h.put
  drain := h.drain
  flooding := by simp
  total := by
    have shut := h.flooding due
    have := h.total
    simp only [State.flood, State.held, State.unreleased, shut, due, Bool.not_true,
      Bool.not_false, Bool.and_true, Bool.and_false, Bool.false_eq_true, if_true, if_false] at *
    omega
  committed := h.committed
  counted := h.counted
  unfailed := h.unfailed

/-- What a step of the machine is. -/
inductive Moves (cfg : Config α) (s : State α) : Action α → State α → Prop
  | put (x : α) (none : s.put = none) : Moves cfg s (.put x) { s with put := some (x, .ensureOpen) }
  | producer (move : PutMove) (x : α) (p : Put) (q : Queue α) (result : PutResult)
      (put : s.put = some (x, p)) (spec : PutSpec cfg s.queue q x p result) :
      Moves cfg s (.producer move) (afterPut s q x result)
  | drain (limit : ℤ) (none : s.drain = none) :
      Moves cfg s (.drain limit) { s with drain := some (limit, .peek limit []) }
  | consumer (limit : ℤ) (d : Drain α) (q : Queue α) (result : DrainResult α)
      (drain : s.drain = some (limit, d)) (spec : DrainSpec cfg s.queue q limit d result) :
      Moves cfg s .consumer (afterDrain s q limit result)
  | closed (shut : s.queue.closed = true) : Moves cfg s .close s
  | close (isOpen : s.queue.closed = false) :
      Moves cfg s .close { s with queue := { s.queue with closed := true }, flooding := true }
  | flood (due : s.flooding = true) (room : s.queue.permits + cfg.capacity < 2 ^ 31) :
      Moves cfg s .flood
        { s with queue := { s.queue with permits := s.queue.permits + cfg.capacity }, flooding := false }

theorem Balanced.moves [DecidableEq α] {t : State α} {a : Action α} (h : Balanced cfg s)
    (small : cfg.capacity < 2 ^ 30) (moves : step cfg a s = some t) : Moves cfg s a t := by
  cases a with
  | put x =>
    simp only [ByteQueue.step, Option.ite_none_right_eq_some, Option.some.injEq] at moves
    obtain ⟨none, rfl⟩ := moves
    exact .put x (Option.isNone_iff_eq_none.mp none)
  | producer move =>
    obtain ⟨⟨x, p⟩, put, moves⟩ := Option.bind_eq_some_iff.mp moves
    obtain ⟨⟨q, result⟩, moved, rfl⟩ := Option.map_eq_some_iff.mp moves
    exact .producer move x p q result put (putStep_spec (h.put x p put) moved)
  | drain limit =>
    simp only [ByteQueue.step, Option.ite_none_right_eq_some, Option.some.injEq] at moves
    obtain ⟨none, rfl⟩ := moves
    exact .drain limit (Option.isNone_iff_eq_none.mp none)
  | consumer =>
    obtain ⟨⟨limit, d⟩, drain, rfl⟩ := Option.map_eq_some_iff.mp moves
    have room := h.room small
    have held := h.held_nonneg
    simp only [State.unreleased, drain, Option.elim_some] at room
    exact .consumer limit d _ _ drain
      (drainStep_spec h.sized h.permits (by omega) (h.drain limit d drain) rfl)
  | close =>
    simp only [ByteQueue.step, Option.some.injEq] at moves
    split at moves <;> subst moves
    · exact .closed (by assumption)
    · exact .close (Bool.eq_false_iff.mpr (by assumption))
  | flood =>
    simp only [ByteQueue.step, Option.ite_none_right_eq_some, Option.some.injEq] at moves
    obtain ⟨due, rfl⟩ := moves
    have room := h.flood_room small due
    unfold Queue.release
    rw [if_pos room]
    exact .flood due room

theorem Balanced.step {t : State α} {a : Action α} (h : Balanced cfg s) (small : cfg.capacity < 2 ^ 30)
    (moves : Moves cfg s a t) : Balanced cfg t := by
  cases moves with
  | put x none =>
    have total := h.total
    have committed := h.committed
    have counted := h.counted
    simp only [State.held, State.committed, State.counted, none] at total committed counted
    refine { h with put := ?_, total := total, committed := committed, counted := counted }
    intro y p at_
    obtain ⟨rfl, rfl⟩ := Prod.mk.inj (Option.some.inj at_)
    trivial
  | producer move x p q result put spec => exact h.producer small put spec
  | drain limit none =>
    have total := h.total
    have committed := h.committed
    have counted := h.counted
    simp only [State.unreleased, State.uncounted, none] at total committed counted
    refine { h with drain := ?_, total := total, committed := committed, counted := counted }
    intro limit' d at_
    obtain ⟨rfl, rfl⟩ := Prod.mk.inj (Option.some.inj at_)
    exact ⟨by simp, by simp, trivial⟩
  | consumer limit d q result drain spec => exact h.consumer drain spec
  | closed => exact h
  | close isOpen =>
    have total := h.total
    simp only [State.flood, isOpen] at total
    exact { h with flooding := fun _ => rfl, total := total }
  | flood due room => exact h.flood due

theorem balanced_of_reachable [DecidableEq α] (small : cfg.capacity < 2 ^ 30)
    (h : (machine cfg).Reachable s) : Balanced cfg s := by
  refine h.invariant ?_ fun a s t hs moves => hs.step small (hs.moves small moves)
  rintro _ rfl
  have := cfg.positive
  constructor <;> simp [freshState, Queue.fresh, State.held, State.unreleased, State.flood, State.committed,
    State.counted, State.uncounted]
  all_goals omega

theorem Ordered.producer {x : α} {p : Put} {q : Queue α} {result : PutResult} (h : Ordered cfg s)
    (spec : PutSpec cfg s.queue q x p result) : Ordered cfg (afterPut s q x result) where
  order := by
    have order := h.order
    simp only [State.drained, State.taken, afterPut_puts, afterPut_returns, afterPut_drain, afterPut_queue,
      spec.items] at *
    rw [order, List.append_assoc _ s.queue.items]
  returned before r after split := by
    rw [afterPut_returns] at split
    obtain ⟨maximal, before⟩ := h.returned before r after split
    rw [afterPut_puts]
    exact ⟨maximal, before.trans (List.prefix_append _ _)⟩

theorem Ordered.consumer {limit : ℤ} {d : Drain α} {q : Queue α} {result : DrainResult α}
    (h : Ordered cfg s) (drain : s.drain = some (limit, d))
    (spec : DrainSpec cfg s.queue q limit d result) : Ordered cfg (afterDrain s q limit result) := by
  have order : s.puts = s.drained ++ (result.taken ++ q.items) := by
    rw [h.order, ← spec.items, List.append_assoc]
    simp [State.taken, drain]
  cases result with
  | thrown => exact absurd rfl spec.unfailed
  | next point => exact ⟨by simpa [afterDrain, State.drained, State.taken] using order, h.returned⟩
  | returned acc =>
    refine ⟨by simpa [afterDrain, State.drained, State.taken] using order, ?_⟩
    intro before r after split
    rcases split_concat split with ⟨rfl, rfl, -⟩ | ⟨rest, -, split⟩
    · refine ⟨spec.maximal acc rfl, ?_⟩
      simp [afterDrain, order, State.drained]
    · exact h.returned before r rest split

theorem Ordered.step {t : State α} {a : Action α} (h : Ordered cfg s) (moves : Moves cfg s a t) :
    Ordered cfg t := by
  cases moves with
  | producer move x p q result put spec => exact h.producer spec
  | consumer limit d q result drain spec => exact h.consumer drain spec
  | drain limit none =>
    have order := h.order
    simp only [State.taken, none] at order
    exact { h with order := order }
  | closed => exact h
  | put | close | flood => exact { h with }

theorem ordered_of_reachable [DecidableEq α] (small : cfg.capacity < 2 ^ 30)
    (h : (machine cfg).Reachable s) : Ordered cfg s := by
  refine h.invariant_of (fun _ reached => balanced_of_reachable small reached) ?_
    fun a s t balanced hs moves => hs.step (balanced.moves small moves)
  rintro _ rfl
  constructor <;> simp [freshState, Queue.fresh, State.drained, State.taken]

def State.passed (s : State α) : Bool := s.put.elim false (·.2.passed)

/-- In a closed queue a put that is not past its second check gets nothing in. -/
theorem Moves.refused {t : State α} {a : Action α} (moves : Moves cfg s a t)
    (shut : s.queue.closed = true) (early : s.passed = false) :
    t.queue.closed = true ∧ t.passed = false ∧ t.puts = s.puts := by
  cases moves with
  | producer move x p q result put spec =>
    obtain ⟨-, -, unqueued, next⟩ := spec.refused shut (by simpa [State.passed, put] using early)
    refine ⟨by simpa [spec.closed] using shut, ?_, ?_⟩
    · cases result with
      | next point => exact next point rfl
      | queued | thrown => rfl
    · cases result with
      | queued => exact absurd rfl unqueued
      | next | thrown => rfl
  | consumer limit d q result drain spec =>
    exact ⟨by simpa [spec.closed] using shut, by simpa [State.passed] using early, by simp⟩
  | close isOpen => simp [isOpen] at shut
  | put | drain | closed | flood => exact ⟨shut, by first | exact early | rfl, rfl⟩

theorem refused_run [DecidableEq α] {t : State α} {schedule : List (Action α)} (h : Balanced cfg s)
    (small : cfg.capacity < 2 ^ 30) (shut : s.queue.closed = true) (early : s.passed = false)
    (run : (machine cfg).run schedule s = some t) : t.puts = s.puts := by
  induction schedule generalizing s with
  | nil => exact Option.some.inj run ▸ rfl
  | cons a rest ih =>
    obtain ⟨next, first, run⟩ := Option.bind_eq_some_iff.mp run
    have moves := h.moves small first
    obtain ⟨shut, early, puts⟩ := moves.refused shut early
    exact (ih (h.step small moves) shut early run).trans puts

/-- `t` is `s` with the put of `x` thrown. -/
structure Thrown (x : α) (s t : State α) : Prop where
  put : t.put = none
  refused : t.refused = s.refused ++ [x]
  items : t.queue.items = s.queue.items
  queuedBytes : t.queue.queuedBytes = s.queue.queuedBytes

theorem producer_tick [DecidableEq α] {x : α} {p : Put} {rest : List (Action α)} (put : s.put = some (x, p)) :
    (machine cfg).run (.producer .tick :: rest) s =
      (putStep cfg s.queue x p .tick).bind fun r => (machine cfg).run rest (afterPut s r.1 x r.2) := by
  simp only [Machine.run_cons, machine, step, put, Option.bind_some]
  cases putStep cfg s.queue x p .tick <;> rfl

theorem thrown_release [DecidableEq α] (cfg : Config α) (s : State α) {x : α} (put : s.put = some (x, .release)) :
    ∃ t, (machine cfg).run [.producer .tick] s = some t ∧ Thrown x s t := by
  refine ⟨_, by rw [producer_tick put]; rfl, rfl, rfl, ?_, ?_⟩ <;>
    simp only [afterPut, Queue.release] <;> split <;> rfl

theorem thrown_recheck [DecidableEq α] (cfg : Config α) (s : State α) {x : α} (shut : s.queue.closed = true)
    (put : s.put = some (x, .recheck)) :
    ∃ n ≤ 2, ∃ t, (machine cfg).run (List.replicate n (.producer .tick)) s = some t ∧ Thrown x s t := by
  by_cases pos : 0 < cfg.byteSize x
  · obtain ⟨t, run, thrown⟩ := thrown_release cfg { s with put := some (x, .release) } rfl
    refine ⟨2, le_rfl, t, ?_, ⟨thrown.put, thrown.refused, thrown.items, thrown.queuedBytes⟩⟩
    rw [List.replicate_succ, producer_tick put]
    simpa [putStep, shut, pos, afterPut] using run
  · refine ⟨1, by omega, afterPut s s.queue x .thrown, ?_, rfl, rfl, rfl, rfl⟩
    rw [List.replicate_succ, producer_tick put]
    simp [putStep, shut, pos]

/-- A put that `close` has caught throws within three steps of its thread. -/
theorem refused_soon [DecidableEq α] {x : α} {p : Put} (h : Balanced cfg s)
    (shut : s.queue.closed = true) (released : s.flooding = false) (put : s.put = some (x, p))
    (early : p.passed = false) :
    ∃ n ≤ 3, ∃ t, (machine cfg).run (List.replicate n (.producer .tick)) s = some t ∧ Thrown x s t := by
  cases p with
  | ensureOpen =>
    refine ⟨1, by omega, afterPut s s.queue x .thrown, ?_, rfl, rfl, rfl, rfl⟩
    rw [List.replicate_succ, producer_tick put]
    simp [putStep, shut]
  | acquire =>
    have room : cfg.byteSize x ≤ s.queue.permits := by
      have size := (h.put x .acquire put).2
      have total := h.total
      have committed := h.committed
      simp only [State.held, State.committed, State.flood, put, shut, released, Option.elim_some,
        Put.held, Put.committed, Bool.not_false, Bool.and_true, if_true] at total committed
      omega
    obtain ⟨n, few, t, run, thrown⟩ := thrown_recheck cfg
      { s with queue := { s.queue with permits := s.queue.permits - cfg.byteSize x }
               put := some (x, .recheck) } shut rfl
    refine ⟨n + 1, by omega, t, ?_, ⟨thrown.put, thrown.refused, thrown.items, thrown.queuedBytes⟩⟩
    rw [List.replicate_succ, producer_tick put]
    simpa [putStep, room, afterPut] using run
  | recheck =>
    obtain ⟨n, few, t, run, thrown⟩ := thrown_recheck cfg s shut put
    exact ⟨n, by omega, t, run, thrown⟩
  | release =>
    obtain ⟨t, run, thrown⟩ := thrown_release cfg s put
    exact ⟨1, by omega, t, run, thrown⟩
  | account | enqueue | rollback => contradiction

/-- The accounting and the order of the items, before `close` and after it. -/
structure Accounted [DecidableEq α] (cfg : Config α) (s : State α) : Prop where
  total : s.queue.closed = false →
    s.queue.permits + s.held cfg + cfg.bytes s.queue.items + s.unreleased cfg = cfg.capacity
  nonneg : 0 ≤ s.queue.queuedBytes
  bounded : s.queue.queuedBytes ≤ cfg.capacity
  covers : cfg.bytes s.queue.items ≤ s.queue.queuedBytes
  maximal : ∀ before r after, s.returns = before ++ r :: after →
    r.Maximal cfg ∧ before.flatMap (·.items) ++ r.items ++ r.rest <+: s.puts
  fifo : s.drained <+: s.puts
  unfailed : s.crashed = false
  unchanged : s.queue.closed = true → s.passed = false → ∀ move t, step cfg (.producer move) s = some t →
    t.queue.items = s.queue.items ∧ t.queue.queuedBytes = s.queue.queuedBytes
  refused : s.queue.closed = true → s.passed = false → ∀ schedule t,
    (machine cfg).run schedule s = some t → t.puts = s.puts
  thrown : s.queue.closed = true → s.passed = false → s.flooding = false →
    ∀ x p, s.put = some (x, p) →
      ∃ n ≤ 3, ∃ t, (machine cfg).run (List.replicate n (.producer .tick)) s = some t ∧ Thrown x s t

theorem accounted_of_reachable [DecidableEq α] (small : cfg.capacity < 2 ^ 30)
    (h : (machine cfg).Reachable s) : Accounted cfg s := by
  have balanced := balanced_of_reachable small h
  have ordered := ordered_of_reachable small h
  have counted := balanced.counted
  have put := balanced.counted_le
  have polled := balanced.polled_nonneg
  have items := bytes_nonneg balanced.sized
  have committed := balanced.committed
  constructor
  case total =>
    intro isOpen
    have none : s.flood cfg = 0 := by simp [State.flood, isOpen]
    have := balanced.total
    omega
  case nonneg | bounded | covers => omega
  case maximal => exact ordered.returned
  case fifo =>
    rw [ordered.order, List.append_assoc]
    exact List.prefix_append _ _
  case unfailed => exact balanced.unfailed
  case unchanged =>
    intro shut early move t moves
    cases balanced.moves small moves with
    | producer move x p q result at_ spec =>
      obtain ⟨items, queuedBytes, -⟩ := spec.refused shut (by simpa [State.passed, at_] using early)
      simpa using ⟨items, queuedBytes⟩
  case refused => exact fun shut early schedule t run => refused_run balanced small shut early run
  case thrown =>
    intro shut early released x p at_
    exact refused_soon balanced shut released at_ (by simpa [State.passed, at_] using early)

/-- A queue of ten bytes; a number is an item of its size. -/
def smallBytes : Config ℕ := ⟨10, fun n => n, by decide, by decide⟩

def putTwo : List (Action ℕ) := List.flatten [
  .put 5 :: List.replicate 5 (.producer .tick), .put 0 :: List.replicate 3 (.producer .tick)]

def closedAndRefused : State ℕ :=
  (machine smallBytes).runFrom (List.flatten [putTwo, .drain 5 :: List.replicate 5 .consumer,
    [.close, .flood, .put 3, .producer .tick]]) (freshState smallBytes)

theorem accounted_closedAndRefused : Accounted smallBytes closedAndRefused ∧
    closedAndRefused.queue.closed = true ∧ closedAndRefused.puts = [5, 0] ∧
    closedAndRefused.drained = [5] ∧ closedAndRefused.refused = [3] :=
  ⟨accounted_of_reachable (by decide) ((Machine.Reachable.init rfl).runFrom _), by decide +kernel⟩

/-- The drain has polled an item and not released its permits. -/
def midDrain : State ℕ :=
  (machine smallBytes).runFrom (putTwo ++ .drain 5 :: List.replicate 2 .consumer) (freshState smallBytes)

def limitUsedUp : State ℕ :=
  (machine smallBytes).runFrom (putTwo ++ .drain 5 :: List.replicate 5 .consumer) (freshState smallBytes)

/-- Inside `drain` the polled item is missing from the balance, and a drain whose limit
is used up leaves an item of no bytes that fits. -/
theorem unreleasedAndUnfilled :
    ((machine smallBytes).Reachable midDrain ∧ midDrain.queue.closed = false ∧
      midDrain.queue.permits + midDrain.held smallBytes + smallBytes.bytes midDrain.queue.items = 5) ∧
    ((machine smallBytes).Reachable limitUsedUp ∧
      ∃ r ∈ limitUsedUp.returns, r.items = [5] ∧ r.rest = [0] ∧ smallBytes.bytes (r.items ++ r.rest) ≤ r.limit) := by
  have returned : ⟨5, [5], [0]⟩ ∈ limitUsedUp.returns := by decide +kernel
  exact ⟨⟨(Machine.Reachable.init rfl).runFrom _, by decide +kernel, by decide +kernel⟩,
    (Machine.Reachable.init rfl).runFrom _, _, returned, rfl, rfl, by decide⟩

section ResponseQueue

open ResponseQueue (Chunk)

def ofConfig (cfg : ResponseQueue.Config) : Config Chunk :=
  ⟨cfg.capacity, fun c => c.bytes, by exact_mod_cast cfg.positive, by exact_mod_cast cfg.isInt⟩

def ofQueue (q : ResponseQueue.Queue) : Queue Chunk := ⟨q.items, q.queuedBytes, q.permits, q.closed⟩

def ofPut : ResponseQueue.Put → Put
  | .ensureOpen => .ensureOpen
  | .acquire => .acquire
  | .recheck => .recheck
  | .account => .account
  | .enqueue => .enqueue
  | .release => .release

def ofResult : ResponseQueue.PutResult → PutResult
  | .next point => .next (ofPut point)
  | .queued => .queued
  | .thrown => .thrown

/-- The `put` of a response's chunks is a `put` of this queue. -/
theorem putStep_ofQueue {cfg : ResponseQueue.Config} {q r : ResponseQueue.Queue} {c : Chunk}
    {p : ResponseQueue.Put} {result : ResponseQueue.PutResult}
    (h : ResponseQueue.putStep cfg q c p = some (r, result)) :
    putStep (ofConfig cfg) (ofQueue q) c (ofPut p) .tick = some (ofQueue r, ofResult result) := by
  have size : (ofConfig cfg).byteSize c = (c.bytes : ℤ) := rfl
  have capacity : (ofConfig cfg).capacity = (cfg.capacity : ℤ) := rfl
  have pos : (0 : ℤ) < c.bytes ↔ 0 < c.bytes := by omega
  cases p <;> simp only [ResponseQueue.putStep, Option.some.injEq, Prod.mk.injEq] at h
  case acquire =>
    split at h
    · obtain ⟨rfl, rfl⟩ := Prod.mk.inj (Option.some.inj h)
      rename_i fits
      simp [putStep, ofPut, ofQueue, ofResult, size, fits]
    · contradiction
  case release =>
    obtain ⟨rfl, rfl⟩ := h
    simp only [putStep, ofPut, ofQueue, ofResult, size, Queue.release, ResponseQueue.Queue.release]
    by_cases room : q.permits + c.bytes < 2 ^ 31
    · rw [if_pos room, if_pos (by exact_mod_cast room)]
      simp
    · rw [if_neg room, if_neg (by exact_mod_cast room)]
      rfl
  all_goals
    obtain ⟨rfl, rfl⟩ := h
    simp only [putStep, ofPut, ofQueue, ofResult, size, capacity]
  case ensureOpen =>
    have nonneg : ¬(c.bytes : ℤ) < 0 := by omega
    simp only [nonneg, decide_false, Bool.or_false, Nat.cast_lt, pos]
    split_ifs <;> rfl
  case recheck =>
    simp only [pos]
    split_ifs <;> rfl

/-- An interrupt included. -/
theorem putMove_ofQueue {cfg : ResponseQueue.Config} {q r : ResponseQueue.Queue} {c : Chunk}
    {p : ResponseQueue.Put} {move : ResponseQueue.ProducerMove} {result : ResponseQueue.PutResult}
    (h : ResponseQueue.putMove cfg q c p move = some (r, result)) :
    ∃ m, putStep (ofConfig cfg) (ofQueue q) c (ofPut p) m = some (ofQueue r, ofResult result) := by
  obtain ⟨-, put⟩ | ⟨-, rfl, rfl, rfl⟩ := ResponseQueue.putMove_cases h
  · exact ⟨.tick, putStep_ofQueue put⟩
  · exact ⟨.fail, rfl⟩

end ResponseQueue

end Busker.ByteQueue
