import Busker.Interleaving.Machine
import Mathlib.Algebra.BigOperators.Group.List.Basic
import Mathlib.Algebra.Order.Ring.Int

/-! The byte-bounded queue for any items: one producer's `put`, one consumer's `drain` and
the `close` of any thread, one atomic operation a step. -/

namespace Busker.ByteQueue

open Interleaving

/-- `bytes-capacity` of a queue the constructor accepts, and `byte-size` of its items. -/
structure Config (α : Type*) where
  capacity : ℤ
  byteSize : α → ℤ
  positive : 0 < capacity
  isInt : capacity < 2 ^ 31

structure Queue (α : Type*) where
  items : List α
  queuedBytes : ℤ
  permits : ℤ
  closed : Bool

variable {α : Type*}

def Queue.fresh (cfg : Config α) : Queue α := ⟨[], 0, cfg.capacity, false⟩

/-- `Semaphore.release`, which throws when the permits exceed an `int`. -/
def Queue.release (q : Queue α) (n : ℤ) : Option (Queue α) :=
  if q.permits + n < 2 ^ 31 then some { q with permits := q.permits + n } else none

/-- Where the producer stands in `put`. -/
inductive Put
  | ensureOpen
  | acquire
  | recheck
  | account
  | enqueue
  | rollback
  | release
  deriving DecidableEq

/-- `fail` is an interrupt in `acquire` or an exception of the linked queue's `put`. -/
inductive PutMove
  | tick
  | fail

inductive PutResult
  | next (point : Put)
  | queued
  | thrown
  deriving DecidableEq

def putStep (cfg : Config α) (q : Queue α) (x : α) : Put → PutMove → Option (Queue α × PutResult)
  | .ensureOpen, .tick =>
    some (q, if q.closed || cfg.byteSize x < 0 || cfg.capacity < cfg.byteSize x then .thrown
      else if 0 < cfg.byteSize x then .next .acquire else .next .recheck)
  | .acquire, .tick =>
    if cfg.byteSize x ≤ q.permits then
      some ({ q with permits := q.permits - cfg.byteSize x }, .next .recheck)
    else none
  | .acquire, .fail => some (q, .thrown)
  | .recheck, .tick =>
    some (q, if q.closed then (if 0 < cfg.byteSize x then .next .release else .thrown)
      else if 0 < cfg.byteSize x then .next .account else .next .enqueue)
  | .account, .tick => some ({ q with queuedBytes := q.queuedBytes + cfg.byteSize x }, .next .enqueue)
  | .enqueue, .tick => some ({ q with items := q.items ++ [x] }, .queued)
  | .enqueue, .fail => some (q, if 0 < cfg.byteSize x then .next .rollback else .thrown)
  | .rollback, .tick => some ({ q with queuedBytes := q.queuedBytes - cfg.byteSize x }, .next .release)
  | .release, .tick => some ((q.release (cfg.byteSize x)).getD q, .thrown)
  | _, _ => none

/-- Where the consumer stands in `drain`, with `rem` and `acc` of its loop. -/
inductive Drain (α : Type*)
  | peek (rem : ℤ) (acc : List α)
  | poll (rem : ℤ) (acc : List α) (head : α)
  | account (rem : ℤ) (acc : List α) (head : α)
  | release (rem : ℤ) (acc : List α) (head : α)
  deriving DecidableEq

inductive DrainResult (α : Type*)
  | next (point : Drain α)
  | returned (acc : List α)
  | thrown
  deriving DecidableEq

/-- The assertion in `poll` compares identities; items that differ are different here. -/
def drainStep [DecidableEq α] (cfg : Config α) (q : Queue α) : Drain α → Queue α × DrainResult α
  | .peek rem acc =>
    (q, if rem ≤ 0 then .returned acc
      else match q.items.head? with
        | some head => if rem < cfg.byteSize head then .returned acc else .next (.poll rem acc head)
        | none => .returned acc)
  | .poll rem acc head =>
    ({ q with items := q.items.tail },
      if q.items.head? = some head then
        (if 0 < cfg.byteSize head then .next (.account rem acc head)
          else .next (.peek (rem - cfg.byteSize head) (acc ++ [head])))
      else .thrown)
  | .account rem acc head =>
    ({ q with queuedBytes := q.queuedBytes - cfg.byteSize head }, .next (.release rem acc head))
  | .release rem acc head =>
    match q.release (cfg.byteSize head) with
    | some r => (r, .next (.peek (rem - cfg.byteSize head) (acc ++ [head])))
    | none => (q, .thrown)

/-- A drain that has returned: its limit, its items and what it left in the queue. -/
structure Return (α : Type*) where
  limit : ℤ
  items : List α
  rest : List α
  deriving DecidableEq

/-- `flooding` is a `close` that has set `closed?_` and not released its permits yet.
The last four fields are history: the puts that returned and those that threw, the
drains that returned, and whether one threw. -/
structure State (α : Type*) where
  queue : Queue α
  put : Option (α × Put)
  drain : Option (ℤ × Drain α)
  flooding : Bool
  puts : List α
  refused : List α
  returns : List (Return α)
  crashed : Bool

inductive Action (α : Type*)
  | put (x : α)
  | producer (move : PutMove)
  | drain (limit : ℤ)
  | consumer
  | close
  | flood

def afterPut (s : State α) (q : Queue α) (x : α) : PutResult → State α
  | .next point => { s with queue := q, put := some (x, point) }
  | .queued => { s with queue := q, put := none, puts := s.puts ++ [x] }
  | .thrown => { s with queue := q, put := none, refused := s.refused ++ [x] }

def afterDrain (s : State α) (q : Queue α) (limit : ℤ) : DrainResult α → State α
  | .next point => { s with queue := q, drain := some (limit, point) }
  | .returned acc => { s with queue := q, drain := none, returns := s.returns ++ [⟨limit, acc, q.items⟩] }
  | .thrown => { s with queue := q, drain := none, crashed := true }

def step [DecidableEq α] (cfg : Config α) : Action α → State α → Option (State α)
  | .put x, s => if s.put.isNone then some { s with put := some (x, .ensureOpen) } else none
  | .producer move, s =>
    s.put.bind fun (x, point) => (putStep cfg s.queue x point move).map fun (q, result) => afterPut s q x result
  | .drain limit, s => if s.drain.isNone then some { s with drain := some (limit, .peek limit []) } else none
  | .consumer, s =>
    s.drain.map fun (limit, point) =>
      let (q, result) := drainStep cfg s.queue point
      afterDrain s q limit result
  -- The compare-and-set that loses does nothing.
  | .close, s =>
    some (if s.queue.closed then s else { s with queue := { s.queue with closed := true }, flooding := true })
  | .flood, s =>
    if s.flooding then some { s with queue := (s.queue.release cfg.capacity).getD s.queue, flooding := false }
    else none

def freshState (cfg : Config α) : State α := ⟨Queue.fresh cfg, none, none, false, [], [], [], false⟩

def machine [DecidableEq α] (cfg : Config α) : Machine (State α) (Action α) where
  init s := s = freshState cfg
  step := step cfg

end Busker.ByteQueue
