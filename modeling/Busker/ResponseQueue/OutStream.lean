import Busker.ResponseQueue.Queue

/-! The response writer and its producer side: the out-stream's `write`, `flush` and
`close`, and `schedule-drain!`. An interrupt of the producer thread is seen where
`bbq/put` acquires permits. The worker answers every command it is sent: the wait for
space in a full mailbox, which an interrupt also ends, is no step here. -/

namespace Busker.ResponseQueue

inductive DrainState
  | idle
  | active
  | signalled
  deriving DecidableEq

/-- One call of `h2o_sendvec`. -/
structure Send where
  bytes : List UInt8
  final : Bool
  deriving DecidableEq

/-- `H2OResponseWriter`, the buffer pool it draws from and its traffic with the
worker. `commands` are the `:h2o/sendvec` messages not yet run, `owed` the proceed
callbacks h2o still has to make, `tracked` the entry in `streaming-work`. Of what
follows `sent` the code keeps nothing: a send that overlapped an earlier one, the
bytes passed to admitted writes, those of writes that threw on the way, and the
buffers of chunks whose `put` threw. -/
structure Writer where
  pool : Pool
  queue : Queue
  drainState : DrainState
  inFlight : Option (List Chunk)
  closing : Bool
  stopped : Bool
  finalEnqueued : Bool
  current : Option ℕ
  tracked : Bool
  commands : ℕ
  owed : ℕ
  sent : List Send
  overlap : Bool
  written : List UInt8
  lost : List UInt8
  spilled : List ℕ

/-- `track-work!` -/
inductive Track
  | put
  | checkStopped
  | remove
  deriving DecidableEq

def trackStep (w : Writer) : Track → Writer × Option Track
  | .put => ({ w with tracked := true }, some .checkStopped)
  | .checkStopped => (w, if w.stopped then some .remove else none)
  | .remove => ({ w with tracked := false }, none)

theorem trackStep_frame {w v : Writer} {point : Track} {next : Option Track}
    (h : trackStep w point = (v, next)) : ∃ tracked, v = { w with tracked := tracked } := by
  cases point <;> obtain ⟨rfl, -⟩ := Prod.mk.inj h
  case put => exact ⟨true, rfl⟩
  case checkStopped => exact ⟨w.tracked, rfl⟩
  case remove => exact ⟨false, rfl⟩

/-- The call a chunk is put for, with the bytes a write has still to copy. `chunk`
is a producer that puts chunks of its own. -/
inductive Sender
  | write (rest : List UInt8)
  | flush
  | close
  | chunk

/-- Where the producer stands in `schedule-drain!`. -/
inductive Schedule
  | read
  | activate
  | track (point : Track)
  | post
  | refuse
  | reset
  | untrack
  | signal
  | wake

inductive Producer
  | idle
  | writeStopped (rest : List UInt8)
  | writeClosing (rest : List UInt8)
  | writeCurrent (rest : List UInt8)
  | writeBorrow (rest : List UInt8)
  | writeSet (b : ℕ) (rest : List UInt8)
  | writePut (b : ℕ) (rest : List UInt8)
  | flushStopped
  | flushClosing
  | flushCurrent
  | closeStopped
  | closeReturn (b : ℕ)
  | closeUnset (b : ℕ)
  | closeMark
  | closeClosing
  | closeCurrent
  | seal (b : ℕ) (sender : Sender)
  | put (point : Put) (c : Chunk) (sender : Sender)
  | markFinal
  | schedule (point : Schedule) (sender : Sender)

/-- A call on the writer. A write carries the slice of the array it is given. -/
inductive Call
  | write (bytes : List UInt8)
  | flush
  | close
  | chunk (c : Chunk)

/-- `write` of a number, as `byte-array` truncates it. -/
def Call.writeByte (x : ℤ) : Call := .write [UInt8.ofInt x]

/-- `interrupt` is an interrupted thread at an operation that throws for it. -/
inductive ProducerMove
  | tick
  | interrupt
  | call (c : Call)
  | borrow (source : Source)
  | giveBack (keep : Bool)
  | reply (accepted : Bool)

def Sender.isFinal : Sender → Bool
  | .close => true
  | _ => false

/-- The bytes of the call that are in no buffer yet. -/
def Sender.rest : Sender → List UInt8
  | .write rest => rest
  | _ => []

/-- After `schedule-drain!`. -/
def Sender.resume : Sender → Producer
  | .write rest => .writeCurrent rest
  | _ => .idle

/-- After `bbq/put`. -/
def Sender.queued : Sender → Producer
  | .close => .markFinal
  | sender => .schedule .read sender

/-- An exception leaves the call. -/
def Writer.throw (w : Writer) (sender : Sender) : Writer := { w with lost := w.lost ++ sender.rest }

def scheduleStep (w : Writer) (sender : Sender) : Schedule → ProducerMove → Option (Writer × Producer)
  | .read, .tick =>
    some (w, .schedule (match w.drainState with
      | .idle => .activate
      | .active => .signal
      | .signalled => .wake) sender)
  | .activate, .tick =>
    if w.drainState = .idle then
      some ({ w with drainState := .active }, .schedule (.track .put) sender)
    else some (w, .schedule .read sender)
  | .track point, .tick =>
    let (v, next) := trackStep w point
    some (v, .schedule (next.elim .post .track) sender)
  | .post, .reply accepted =>
    if accepted then some ({ w with commands := w.commands + 1 }, sender.resume)
    else some (w, .schedule .refuse sender)
  | .refuse, .tick => some ({ w with stopped := true }, .schedule .reset sender)
  | .reset, .tick => some ({ w with drainState := .idle }, .schedule .untrack sender)
  | .untrack, .tick => some (({ w with tracked := false }).throw sender, .idle)
  | .signal, .tick =>
    if w.drainState = .active then
      some ({ w with drainState := .signalled }, .schedule .wake sender)
    else some (w, .schedule .read sender)
  | .wake, .tick => some (w, sender.resume)
  | _, _ => none

/-- A step of `put`. `acquire` stands before the `try`, so an interrupt there leaves
the queue as it was. -/
def putMove (cfg : Config) (q : Queue) (c : Chunk) : Put → ProducerMove → Option (Queue × PutResult)
  | point, .tick => putStep cfg q c point
  | .acquire, .interrupt => some (q, .thrown)
  | _, _ => none

theorem putMove_cases {cfg : Config} {q r : Queue} {c : Chunk} {point : Put} {move : ProducerMove}
    {result : PutResult} (h : putMove cfg q c point move = some (r, result)) :
    move = .tick ∧ putStep cfg q c point = some (r, result) ∨
      move = .interrupt ∧ point = .acquire ∧ r = q ∧ result = .thrown := by
  cases move with
  | tick => cases point <;> exact .inl ⟨rfl, h⟩
  | interrupt =>
    cases point <;> simp only [putMove, reduceCtorEq, Option.some.injEq, Prod.mk.injEq] at h
    exact .inr ⟨rfl, rfl, h.1.symm, h.2.symm⟩
  | _ => cases point <;> contradiction

/-- One atomic step of the producer thread. -/
def producerStep (cfg : Config) (w : Writer) : Producer → ProducerMove → Option (Writer × Producer)
  | .idle, .call (.write bytes) => some (w, .writeStopped bytes)
  | .idle, .call .flush => some (w, .flushStopped)
  | .idle, .call .close => some (w, .closeStopped)
  | .idle, .call (.chunk c) => some (w, .put .ensureOpen c .chunk)
  | .writeStopped rest, .tick => some (w, if w.stopped then .idle else .writeClosing rest)
  | .writeClosing rest, .tick =>
    if w.closing then some (w, .idle)
    else some ({ w with written := w.written ++ rest }, .writeCurrent rest)
  | .writeCurrent rest, .tick =>
    some (w, if rest.isEmpty then .idle else w.current.elim (.writeBorrow rest) (.writePut · rest))
  | .writeBorrow rest, .borrow source =>
    (w.pool.borrow cfg.capacity source).map fun (b, pool) =>
      ({ w with pool := pool }, .writeSet b rest)
  | .writeSet b rest, .tick =>
    some ({ w with pool := w.pool.update b .clear, current := some b }, .writePut b rest)
  | .writePut b rest, .tick =>
    let canCopy := min rest.length (w.pool.heap b).remaining
    let copied := (w.pool.heap b).put (rest.take canCopy)
      ((List.length_take_le ..).trans (Nat.min_le_right ..))
    some ({ w with pool := w.pool.update b fun _ => copied },
      if copied.remaining = 0 then .seal b (.write (rest.drop canCopy))
      else .writeCurrent (rest.drop canCopy))
  | .flushStopped, .tick => some (w, if w.stopped then .idle else .flushClosing)
  | .flushClosing, .tick => some (w, if w.closing then .idle else .flushCurrent)
  | .flushCurrent, .tick =>
    some (w, match w.current with
      | some b => if 0 < (w.pool.heap b).position then .seal b .flush else .idle
      | none => .idle)
  | .closeStopped, .tick =>
    some (w, if w.stopped then w.current.elim .closeMark .closeReturn else .closeClosing)
  | .closeReturn b, .giveBack keep => some ({ w with pool := w.pool.giveBack b keep }, .closeUnset b)
  | .closeUnset _, .tick => some ({ w with current := none }, .closeMark)
  | .closeMark, .tick => some ({ w with closing := true }, .idle)
  | .closeClosing, .tick =>
    if w.closing then some (w, .idle) else some ({ w with closing := true }, .closeCurrent)
  | .closeCurrent, .tick =>
    some (w, match w.current with
      | some b =>
        if 0 < (w.pool.heap b).position then .seal b .close
        else .put .ensureOpen (sealChunk w.pool.heap [] true) .close
      | none => .put .ensureOpen (sealChunk w.pool.heap [] true) .close)
  | .seal b sender, .tick =>
    let pool := w.pool.update b .flip
    some ({ w with pool := pool, current := none },
      .put .ensureOpen (sealChunk pool.heap [b] sender.isFinal) sender)
  | .put point c sender, move =>
    (putMove cfg w.queue c point move).map fun (queue, result) =>
      match result with
      | .next point => ({ w with queue := queue }, .put point c sender)
      | .queued => ({ w with queue := queue }, sender.queued)
      | .thrown =>
        (({ w with queue := queue, spilled := w.spilled ++ c.bufs }).throw sender, .idle)
  | .markFinal, .tick => some ({ w with finalEnqueued := true }, .schedule .read .close)
  | .schedule point sender, move => scheduleStep w sender point move
  | _, _ => none

end Busker.ResponseQueue
