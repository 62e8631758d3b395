import Busker.ResponseQueue.Buffers

/-! The byte-bounded queue: one producer's `put` and one consumer's `drain`, one
atomic operation a step. -/

namespace Busker.ResponseQueue

/-- `bytes-capacity` of a queue the constructor accepts. -/
structure Config where
  capacity : ℕ
  positive : 0 < capacity
  isInt : capacity < 2 ^ 31

structure Queue where
  items : List Chunk
  queuedBytes : ℤ
  permits : ℕ
  closed : Bool

namespace Queue

def fresh (cfg : Config) : Queue := ⟨[], 0, cfg.capacity, false⟩

/-- `Semaphore.release`, which throws when the permits exceed an `int`. -/
def release (q : Queue) (n : ℕ) : Option Queue :=
  if q.permits + n < 2 ^ 31 then some { q with permits := q.permits + n } else none

end Queue

/-- Where a producer stands in `put`. -/
inductive Put
  | ensureOpen
  | acquire
  | recheck
  | account
  | enqueue
  | release
  deriving DecidableEq

inductive PutResult
  | next (point : Put)
  | queued
  | thrown

def putStep (cfg : Config) (q : Queue) (c : Chunk) : Put → Option (Queue × PutResult)
  | .ensureOpen =>
    some (q, if q.closed || cfg.capacity < c.bytes then .thrown
      else if 0 < c.bytes then .next .acquire else .next .recheck)
  | .acquire =>
    if c.bytes ≤ q.permits then some ({ q with permits := q.permits - c.bytes }, .next .recheck)
    else none
  | .recheck =>
    some (q, if q.closed then (if 0 < c.bytes then .next .release else .thrown)
      else if 0 < c.bytes then .next .account else .next .enqueue)
  | .account => some ({ q with queuedBytes := q.queuedBytes + c.bytes }, .next .enqueue)
  | .enqueue => some ({ q with items := q.items ++ [c] }, .queued)
  | .release => some ((q.release c.bytes).getD q, .thrown)

end Busker.ResponseQueue
