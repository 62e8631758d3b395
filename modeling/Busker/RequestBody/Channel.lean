import Busker.Interleaving.Machine

/-! The request-body channel: `write-chunk` on the worker, `read` and `close` on the
handler's thread, and the `close` of the entry when the worker retires it. -/

namespace Busker.RequestBody

open Interleaving

/-- What the queue holds: a chunk, or the marker `::eof`. -/
inductive Entry
  | chunk (bytes : List UInt8)
  | eof
  deriving DecidableEq

/-- The capacity of the `LinkedBlockingQueue`. -/
def capacity : ℕ := 2

/-- `currentBuf` is what remains of the buffer in `current-buf`. -/
structure Channel where
  queue : List Entry
  closed : Bool
  currentBuf : Option (List UInt8)
  deriving DecidableEq

/-- Where a thread stands in `close`. -/
inductive Close
  | set
  | clear
  | offer
  | drop
  deriving DecidableEq

def closeStep (c : Channel) : Close → Channel × Option Close
  | .set => ({ c with closed := true }, some .clear)
  | .clear => ({ c with queue := [] }, some .offer)
  | .offer =>
    (if c.queue.length < capacity then { c with queue := c.queue ++ [.eof] } else c, some .drop)
  | .drop => ({ c with currentBuf := none }, none)

/-- Where the handler's thread stands. `room` is what remains of the buffer that `read`
fills. -/
inductive Handler
  | idle
  | readClosed (room : ℕ)
  | readCurrent (room : ℕ)
  | readRemaining (room : ℕ)
  | take (room : ℕ)
  | store (room : ℕ) (entry : Entry)
  | readEof (room : ℕ)
  | copy (room : ℕ)
  | proceed
  | close (point : Close)
  deriving DecidableEq

/-- Where the worker stands, with the chunk and `is-last` of the delivery. -/
inductive Worker
  | idle
  | check (chunk : Option (List UInt8)) (isLast : Bool)
  | putChunk (bytes : List UInt8) (isLast : Bool)
  | putEof
  | close (point : Close)
  deriving DecidableEq

/-- `outstanding` is a delivery that h2o has not been told to go on after, `ended` one
that was the last, `retired` an entry the worker has removed. -/
structure State where
  channel : Channel
  handler : Handler
  worker : Worker
  outstanding : Bool
  ended : Bool
  retired : Bool

/-- `accepted` is the answer of `send-required-msg` to `proceed-callback`, which throws
when the worker is closed. -/
inductive Action
  | deliver (chunk : Option (List UInt8)) (isLast : Bool)
  | worker
  | retire
  | read (room : ℕ)
  | close
  | handler (accepted : Bool)

/-- A step of `read` or `close`. An exception ends `read`. -/
def handlerStep (c : Channel) : Handler → Option (Channel × Handler)
  | .idle => none
  | .readClosed room => some (c, if c.closed then .idle else .readCurrent room)
  | .readCurrent room => some (c, if c.currentBuf.isNone then .take room else .readRemaining room)
  | .readRemaining room =>
    some (c, match c.currentBuf with
      | none => .idle
      | some [] => .take room
      | some (_ :: _) => .readEof room)
  | .take room =>
    match c.queue with
    | [] => none
    | entry :: rest => some ({ c with queue := rest }, .store room entry)
  | .store room .eof => some ({ c with closed := true }, .readEof room)
  | .store room (.chunk bytes) => some ({ c with currentBuf := some bytes }, .readEof room)
  | .readEof room => some (c, if c.closed then .idle else .copy room)
  | .copy room =>
    match c.currentBuf with
    | none => some (c, .idle)
    | some bytes =>
      some ({ c with currentBuf := some (bytes.drop room) },
        if 0 < min room bytes.length && (bytes.drop room).isEmpty then .proceed else .idle)
  | .proceed => some (c, .idle)
  | .close point =>
    let (d, next) := closeStep c point
    some (d, next.elim .idle .close)

/-- A step of `write-chunk` or of the worker's `close`. A put waits for room. -/
def workerStep (c : Channel) : Worker → Option (Channel × Worker)
  | .idle => none
  | .check chunk isLast =>
    some (c, if c.closed then .idle else
      match chunk with
      | some (b :: bytes) => .putChunk (b :: bytes) isLast
      | _ => if isLast then .putEof else .idle)
  | .putChunk bytes isLast =>
    if c.queue.length < capacity then
      some ({ c with queue := c.queue ++ [.chunk bytes] }, if isLast then .putEof else .idle)
    else none
  | .putEof => if c.queue.length < capacity then some ({ c with queue := c.queue ++ [.eof] }, .idle) else none
  | .close point =>
    let (d, next) := closeStep c point
    some (d, next.elim .idle .close)

/-- h2o delivers a chunk at a time, each after the request to proceed that answers the
one before, and none after the last. -/
def step : Action → State → Option State
  | .deliver chunk isLast, s =>
    if s.worker = .idle ∧ s.retired = false ∧ s.outstanding = false ∧ s.ended = false then
      some { s with worker := .check chunk isLast, outstanding := true, ended := isLast }
    else none
  | .worker, s => (workerStep s.channel s.worker).map fun (c, k) => { s with channel := c, worker := k }
  | .retire, s =>
    if s.worker = .idle ∧ s.retired = false then some { s with worker := .close .set, retired := true } else none
  | .read room, s => if s.handler = .idle then some { s with handler := .readClosed room } else none
  | .close, s => if s.handler = .idle then some { s with handler := .close .set } else none
  | .handler accepted, s =>
    (handlerStep s.channel s.handler).map fun (c, h) =>
      { s with
        channel := c
        handler := h
        outstanding := if s.handler = .proceed ∧ accepted then false else s.outstanding }

def freshState : State := ⟨⟨[], false, none⟩, .idle, .idle, false, false, false⟩

def machine : Machine State Action where
  init s := s = freshState
  step := step

end Busker.RequestBody
