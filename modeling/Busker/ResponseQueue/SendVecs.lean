import Busker.ResponseQueue.OutStream
import Busker.Interleaving.Machine

/-! The worker side of the response writer, `send-vecs`, `on-proceed` and `on-stop`,
and the whole writer machine. Left out are allocations and native calls that fail. -/

namespace Busker.ResponseQueue

open Interleaving

/-- `retire-work!` -/
inductive Retire
  | untrack
  | readState
  | readInFlight
  | readBytes
  | track (point : Track)

/-- Where the worker thread stands. `acc` are the chunks `drain` has polled, `rem`
the bytes it may still take. -/
inductive Worker
  | idle
  | readStopped
  | readInFlight
  | drain (rem : ℕ) (acc : List Chunk)
  | account (rem : ℕ) (acc : List Chunk) (c : Chunk)
  | release (rem : ℕ) (acc : List Chunk) (c : Chunk)
  | send (acc : List Chunk)
  | setInFlight (acc : List Chunk)
  | demote (final : Bool)
  | finish
  | readState
  | retireSwap
  | consume
  | retire (point : Retire)
  | releaseChunks (todo : List ℕ)
  | clearInFlight
  | proceedStopped
  | proceedUntrack
  | stopSet
  | stopUntrack
  | stopClose
  | stopRelease
  | stopTake
  | stopReturn (b : ℕ)

/-- `command` runs a posted `:h2o/sendvec`, `proceed` and `stop` are h2o's callbacks. -/
inductive WorkerMove
  | tick
  | command
  | proceed
  | stop
  | giveBack (keep : Bool)

/-- `:preferred-chunk-size` of a writer without configuration: `Long/MAX_VALUE`. -/
def preferredChunkSize : ℕ := 2 ^ 63 - 1

/-- What `package-chunks` copies out of the buffers, and the buffers read empty. -/
def readBufs : Heap → List ℕ → List UInt8 × Heap
  | heap, [] => ([], heap)
  | heap, b :: rest =>
    let (bytes, last) := readBufs (Function.update heap b (heap b).get) rest
    ((heap b).content ++ bytes, last)

def chunkBufs (chunks : List Chunk) : List ℕ := chunks.flatMap (·.bufs)

def lastFinal (chunks : List Chunk) : Bool := chunks.getLast?.elim false (·.final)

/-- `drain-chunks` on the chunks `bbq/drain` returns. -/
def package (acc : List Chunk) : Worker := if acc.isEmpty then .readState else .send acc

def retireStep (w : Writer) : Retire → Writer × Worker
  | .untrack => ({ w with tracked := false }, .retire .readState)
  | .readState => (w, .retire (if w.drainState = .idle then .readInFlight else .track .put))
  | .readInFlight => (w, .retire (if w.inFlight.isNone then .readBytes else .track .put))
  | .readBytes => (w, if 0 < w.queue.queuedBytes then .retire (.track .put) else .idle)
  | .track point =>
    let (v, next) := trackStep w point
    (v, next.elim .idle fun next => .retire (.track next))

/-- `retire-work!` only moves the registration. -/
theorem retireStep_frame {w v : Writer} {point : Retire} {l : Worker} (h : retireStep w point = (v, l)) :
    (∃ tracked, v = { w with tracked := tracked }) ∧ (l = .idle ∨ ∃ next, l = .retire next) := by
  cases point <;> simp only [retireStep] at h
  case track point =>
    rcases step : trackStep w point with ⟨u, next⟩
    rw [step] at h
    obtain ⟨rfl, rfl⟩ := Prod.mk.inj h
    refine ⟨trackStep_frame step, ?_⟩
    cases next with
    | none => exact .inl rfl
    | some next => exact .inr ⟨_, rfl⟩
  all_goals obtain ⟨rfl, rfl⟩ := Prod.mk.inj h
  case untrack => exact ⟨⟨false, rfl⟩, .inr ⟨_, rfl⟩⟩
  case readState | readInFlight => exact ⟨⟨w.tracked, rfl⟩, .inr ⟨_, rfl⟩⟩
  case readBytes =>
    refine ⟨⟨w.tracked, rfl⟩, ?_⟩
    split
    · exact .inr ⟨_, rfl⟩
    · exact .inl rfl

/-- One atomic step of the worker thread. -/
def workerStep (cfg : Config) (w : Writer) : Worker → WorkerMove → Option (Writer × Worker)
  | .idle, .command =>
    if 0 < w.commands then some ({ w with commands := w.commands - 1 }, .readStopped) else none
  | .idle, .proceed =>
    if 0 < w.owed then
      some ({ w with owed := w.owed - 1 }, .releaseChunks (chunkBufs (w.inFlight.getD [])))
    else none
  | .idle, .stop => some (w, .stopSet)
  | .readStopped, .tick => some (w, if w.stopped then .idle else .readInFlight)
  | .readInFlight, .tick =>
    some (w, if w.inFlight.isNone then .drain preferredChunkSize [] else .idle)
  | .drain rem acc, .tick =>
    match w.queue.items with
    | c :: items =>
      if 0 < rem ∧ c.bytes ≤ rem then
        some ({ w with queue := { w.queue with items := items } },
          if 0 < c.bytes then .account rem acc c else .drain rem (acc ++ [c]))
      else some (w, package acc)
    | [] => some (w, package acc)
  | .account rem acc c, .tick =>
    some ({ w with queue := { w.queue with queuedBytes := w.queue.queuedBytes - c.bytes } },
      .release rem acc c)
  | .release rem acc c, .tick =>
    match w.queue.release c.bytes with
    | some queue => some ({ w with queue := queue }, .drain (rem - c.bytes) (acc ++ [c]))
    -- The error leaves `send-vecs` and with it the chunks already polled.
    | none => some ({ w with spilled := w.spilled ++ chunkBufs (acc ++ [c]) }, .idle)
  | .send acc, .tick =>
    let (bytes, heap) := readBufs w.pool.heap (chunkBufs acc)
    some ({ w with
      pool := { w.pool with heap := heap }
      sent := w.sent ++ [⟨bytes, lastFinal acc⟩]
      overlap := w.overlap || 0 < w.owed
      owed := w.owed + 1 }, .setInFlight acc)
  | .setInFlight acc, .tick => some ({ w with inFlight := some acc }, .demote (lastFinal acc))
  | .demote final, .tick =>
    some ({ w with drainState := if w.drainState = .signalled then .active else w.drainState },
      if final then .finish else .idle)
  | .finish, .tick => some ({ w with stopped := true }, .idle)
  | .readState, .tick =>
    some (w, match w.drainState with
      | .idle => .idle
      | .active => .retireSwap
      | .signalled => .consume)
  | .retireSwap, .tick =>
    if w.drainState = .active then some ({ w with drainState := .idle }, .retire .untrack)
    else some (w, .drain preferredChunkSize [])
  | .consume, .tick =>
    some ({ w with drainState := if w.drainState = .signalled then .active else w.drainState },
      .drain preferredChunkSize [])
  | .retire point, .tick => some (retireStep w point)
  | .releaseChunks todo, .giveBack keep =>
    match todo with
    | b :: rest => some ({ w with pool := w.pool.giveBack b keep }, .releaseChunks rest)
    | [] => none
  | .releaseChunks todo, .tick => if todo.isEmpty then some (w, .clearInFlight) else none
  | .clearInFlight, .tick => some ({ w with inFlight := none }, .proceedStopped)
  | .proceedStopped, .tick => some (w, if w.stopped then .proceedUntrack else .readStopped)
  | .proceedUntrack, .tick => some ({ w with tracked := false }, .idle)
  | .stopSet, .tick => some ({ w with stopped := true }, .stopUntrack)
  | .stopUntrack, .tick => some ({ w with tracked := false }, .stopClose)
  | .stopClose, .tick =>
    if w.queue.closed then some (w, .stopTake)
    else some ({ w with queue := { w.queue with closed := true } }, .stopRelease)
  -- An error here is not an `Exception` and leaves `on-stop`.
  | .stopRelease, .tick =>
    some ((w.queue.release cfg.capacity).elim (w, .idle) fun queue => ({ w with queue := queue }, .stopTake))
  | .stopTake, .tick =>
    some ({ w with current := none }, w.current.elim .idle .stopReturn)
  | .stopReturn b, .giveBack keep => some ({ w with pool := w.pool.giveBack b keep }, .idle)
  | _, _ => none

structure State where
  writer : Writer
  producer : Producer
  worker : Worker

inductive Action
  | producer (move : ProducerMove)
  | worker (move : WorkerMove)
  | other (move : OtherMove)

/-- The calls a request thread makes on the out-stream. -/
def outStream : Call → Bool
  | .chunk _ => false
  | _ => true

/-- A call outside the interface `api` is not made. -/
def offered (api : Call → Bool) : ProducerMove → Bool
  | .call c => api c
  | _ => true

def step (cfg : Config) (api : Call → Bool) : Action → State → Option State
  | .producer move, s =>
    if offered api move then
      (producerStep cfg s.writer s.producer move).map fun (w, p) => { s with writer := w, producer := p }
    else none
  | .worker move, s =>
    (workerStep cfg s.writer s.worker move).map fun (w, k) => { s with writer := w, worker := k }
  | .other move, s =>
    (otherStep s.writer.pool move).map fun pool => { s with writer := { s.writer with pool := pool } }

/-- What a step of the machine is. -/
theorem step_cases {cfg : Config} {api : Call → Bool} {s t : State} {a : Action}
    (h : step cfg api a s = some t) :
    (∃ move w p, a = .producer move ∧ offered api move = true ∧
      producerStep cfg s.writer s.producer move = some (w, p) ∧
      t = { s with writer := w, producer := p }) ∨
    (∃ move w k, a = .worker move ∧ workerStep cfg s.writer s.worker move = some (w, k) ∧
      t = { s with writer := w, worker := k }) ∨
    ∃ move pool, a = .other move ∧ otherStep s.writer.pool move = some pool ∧
      t = { s with writer := { s.writer with pool := pool } } := by
  cases a with
  | producer move =>
    simp only [step] at h
    split at h
    · rename_i allowed
      obtain ⟨⟨w, p⟩, moves, rfl⟩ := Option.map_eq_some_iff.mp h
      exact .inl ⟨move, w, p, rfl, allowed, moves, rfl⟩
    · contradiction
  | worker move =>
    obtain ⟨⟨w, k⟩, moves, rfl⟩ := Option.map_eq_some_iff.mp h
    exact .inr (.inl ⟨move, w, k, rfl, moves, rfl⟩)
  | other move =>
    obtain ⟨pool, moves, rfl⟩ := Option.map_eq_some_iff.mp h
    exact .inr (.inr ⟨move, pool, rfl, moves, rfl⟩)

/-- `new-response-state` over a pool in use. -/
def freshState (cfg : Config) (pool : Pool) : State where
  writer := {
    pool := pool
    queue := Queue.fresh cfg
    drainState := .idle
    inFlight := none
    closing := false
    stopped := false
    finalEnqueued := false
    current := none
    tracked := false
    commands := 0
    owed := 0
    sent := []
    overlap := false
    written := []
    lost := []
    spilled := [] }
  producer := .idle
  worker := .idle

def machine (cfg : Config) (api : Call → Bool) : Machine State Action where
  init s := ∃ pool : Pool, pool.Sound ∧ s = freshState cfg pool
  step := step cfg api

end Busker.ResponseQueue
