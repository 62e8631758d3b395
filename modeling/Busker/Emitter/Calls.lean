import Busker.ResponseQueue.SendVecs

/-! The response emitter of one request: the calls `emit!`, `flush` and `close` that any
number of threads make on it, one program point for each access to shared state. -/

namespace Busker.ResponseQueue

def Producer.isIdle : Producer → Bool
  | .idle => true
  | _ => false

/-- Frames of `on-stop`. -/
def Worker.stops : Worker → Bool
  | .stopSet | .stopUntrack | .stopClose | .stopRelease | .stopTake | .stopReturn _ => true
  | _ => false

end Busker.ResponseQueue

namespace Busker.Emitter

open ResponseQueue

/-- The value of `committed_`: nil, the informational marker, or the final head. -/
inductive Committed
  | uncommitted
  | informationalSent
  | head
  deriving DecidableEq

/-- The phase in `lifecycle_`. -/
inductive Phase
  | opened
  | closing
  | closed
  deriving DecidableEq

/-- The messages a worker gets about a request. -/
inductive Command
  | startResponse
  | sendInformational
  | sendFixedFinal
  | sendvec
  deriving DecidableEq

/-- Of a response body, its class: nil, a string, a byte array or another value. -/
inductive Body
  | absent
  | text
  | bytes
  | other
  deriving DecidableEq

/-- Of the content-length among a response's headers: none, nil or false, one that
`coerce-content-length` reads, or one that it throws for. -/
inductive GivenLength
  | absent
  | falsy
  | long
  | malformed
  deriving DecidableEq

/-- A response map. `direct` says that its charset, its headers and the length of its
body pass the remaining checks of `fixed-final-data`, `charsetOk` that `get-charset`
returns (its content-type, if any, is a string), `sizeOk` that `body-size-in-bytes` does
(the charset of a string is one the JVM has). -/
structure Response where
  status : Option ℤ
  body : Body
  direct : Bool
  charsetOk : Bool
  sizeOk : Bool
  contentLength : GivenLength
  deriving DecidableEq

/-- `build-headers` returns for it. -/
def Response.lengthOk (response : Response) : Bool := response.contentLength != .malformed

/-- The map `emit!` commits for bare body data. -/
def Response.bare : Response := ⟨some 200, .absent, false, true, true, .absent⟩

/-- What `emit!` is given. What a body writes, and in which pieces, is left open. -/
inductive Data
  | map (response : Response)
  | body

def Data.response : Data → Response
  | .map response => response
  | .body => .bare

structure Emit where
  data : Data
  closeAfter : Bool

inductive Call
  | emit (e : Emit)
  | flush
  | close

def informationalStatus (status : ℤ) : Bool := 100 ≤ status && status < 200 && status != 101

def finalStatus (status : ℤ) : Bool := 200 ≤ status

/-- Whether `fixed-final-data` makes a plan. -/
def fixedFinalData (response : Response) (final : Bool) : Bool :=
  final && response.status.any (fun status => finalStatus status && status != 204 && status != 304) &&
    (response.body = .text || response.body = .bytes) && response.direct

/-- `with-content-length` returns: it asks for the size of the body only where no
content-length is given. -/
def withContentLength (response : Response) : Bool :=
  response.contentLength = .long || response.contentLength = .malformed || response.sizeOk

/-- Nothing of what `commit-final!` makes of a final response before the swap throws. A
direct response has its content-length read here, and then nil is not one. -/
def Emit.plans (e : Emit) : Bool :=
  e.data.response.charsetOk &&
    if fixedFinalData e.data.response e.closeAfter then
      e.data.response.contentLength = .absent || e.data.response.contentLength = .long
    else !e.closeAfter || withContentLength e.data.response

/-- The emitter, the `:mailbox` its commands wait in and the direct responses
published in the response ring. The delay `write-resp` has made the writer once
`created` is set; before that nobody sees `writer`. -/
structure ResponseEmitter where
  writer : Writer
  created : Bool
  committed : Committed
  phase : Phase
  mailbox : List Command
  ring : ℕ

/-- Where a thread stands. `stream` is a body being written, `stopping` an `on-stop`
that `commit-final!` runs, on the way to committing if the response was accepted. -/
inductive Point
  | idle
  | openCreated (e : Emit)
  | openPhase (created : Bool) (e : Emit)
  | openStopped (e : Emit)
  | markRead (response : Response)
  | markSwap (response : Response)
  | postInformational
  | emitCommitted (e : Emit)
  | emitState (e : Emit)
  | commitRead (e : Emit)
  | commitSwap (state : Committed) (e : Emit)
  | publish (e : Emit)
  | postFixedFinal (e : Emit)
  | fixedCreated (accepted : Bool) (e : Emit)
  | stopping (frame : Worker) (accepted : Bool) (e : Emit)
  | startWriter (e : Emit)
  | postStart (e : Emit)
  | reset (withBody : Bool) (e : Emit)
  | bodyWriter (closeAfter : Bool)
  | stream (frame : Producer) (closeAfter : Bool)
  | flushWriter
  | flushing (frame : Producer)
  | closeCreated
  | closeCommitted
  | closeWriter
  | closeStopped
  | beginClose (writer : Bool)
  | closing (frame : Producer)
  | closeFailed (writer : Bool)
  | terminal

/-- The answers to `send-required-msg`, `send-msg` and `try-publish-direct-response!`. -/
inductive Reply
  | accepted
  | closed
  | overloaded
  deriving DecidableEq

/-- `finish` ends a body, and returns from the out-stream's `flush` and `close`; `fail`
is an exception that leaves them. -/
inductive Move
  | tick
  | call (c : Call)
  | reply (r : Reply)
  | frame (move : ProducerMove)
  | stop (move : WorkerMove)
  | finish
  | fail

/-- After `open?` has answered true. A map without a status makes `emit!` throw. -/
def enter (e : Emit) : Point :=
  match e.data with
  | .map response =>
    match response.status with
    | none => .idle
    | some status => if informationalStatus status then .markRead response else .emitCommitted e
  | .body => .emitState e

/-- `commit-final!`, which throws for a status that is not final. -/
def commitFinal (e : Emit) : Point :=
  if e.data.response.status.any finalStatus && e.plans then .commitRead e else .idle

/-- `send-informational!` throws for a response with a body or a bad content-length. -/
def sendInformational (response : Response) : Point :=
  if response.body = .absent && response.lengthOk then .postInformational else .idle

/-- The start of a streamed response. `build-headers` throws for a bad content-length,
with the head already in `committed_`. -/
def startResponse (e : Emit) : Point := if e.data.response.lengthOk then .startWriter e else .idle

/-- After the swap of `committed_` from `state` to the head. -/
def afterSwap (state : Committed) (e : Emit) : Point :=
  if fixedFinalData e.data.response e.closeAfter then
    if state = .informationalSent then .postFixedFinal e else .publish e
  else startResponse e

/-- After `schedule-fixed-final!` or its mailbox variant. -/
def afterFixed (e : Emit) : Reply → Point
  | .accepted => .fixedCreated true e
  | .closed => .fixedCreated false e
  | .overloaded => startResponse e

/-- Where `emit!` goes on with the result of `commit-final!`. -/
def afterStop (accepted : Bool) (e : Emit) : Point :=
  if accepted then .reset false e else .idle

/-- After the body, if there is one. -/
def afterBody (closeAfter : Bool) : Point := if closeAfter then .closeCreated else .idle

/-- The last part of `emit!`. -/
def emitBody (withBody : Bool) (e : Emit) : Point :=
  match e.data with
  | .map response =>
    if withBody && response.body != .absent then .bodyWriter e.closeAfter else afterBody e.closeAfter
  | .body => .bodyWriter e.closeAfter

/-- The command that a step of `schedule-drain!` posts. -/
def posts : Producer → ProducerMove → List Command
  | .schedule .post _, .reply true => [.sendvec]
  | _, _ => []

def frameStep (cfg : Config) (api : ResponseQueue.Call → Bool) (e : ResponseEmitter) (p : Producer)
    (move : ProducerMove) : Option (ResponseEmitter × Producer) :=
  if offered api move then
    (producerStep cfg e.writer p move).map fun (w, q) =>
      ({ e with writer := w, mailbox := e.mailbox ++ posts p move }, q)
  else none

/-- `flush` and `close` make one call on the out-stream and no other. -/
def noCall : ResponseQueue.Call → Bool := fun _ => false

/-- One atomic step of a thread that uses the emitter. -/
def threadStep (cfg : Config) (e : ResponseEmitter) : Point → Move → Option (ResponseEmitter × Point)
  | .idle, .call (.emit emit) => some (e, .openCreated emit)
  | .idle, .call .flush => some (e, .flushWriter)
  | .idle, .call .close => some (e, .closeCreated)
  | .openCreated emit, .tick => some (e, .openPhase e.created emit)
  | .openPhase created emit, .tick =>
    some (e, if e.phase = .opened then (if created then .openStopped emit else enter emit) else .idle)
  | .openStopped emit, .tick => some (e, if e.writer.stopped then .idle else enter emit)
  | .markRead response, .tick =>
    some (e, match e.committed with
      | .head => .idle
      | .informationalSent => sendInformational response
      | .uncommitted => .markSwap response)
  | .markSwap response, .tick =>
    if e.committed = .uncommitted then
      some ({ e with committed := .informationalSent }, sendInformational response)
    else some (e, .markRead response)
  | .postInformational, .reply r =>
    some ({ e with mailbox := if r = .accepted then e.mailbox ++ [.sendInformational] else e.mailbox }, .idle)
  | .emitCommitted emit, .tick => some (e, if e.committed = .head then .idle else commitFinal emit)
  | .emitState emit, .tick =>
    some (e, if e.committed = .head then .bodyWriter emit.closeAfter else commitFinal emit)
  | .commitRead emit, .tick => some (e, .commitSwap e.committed emit)
  | .commitSwap state emit, .tick =>
    if state ≠ .head ∧ e.committed = state then some ({ e with committed := .head }, afterSwap state emit)
    else some (e, .idle)
  | .publish emit, .reply r =>
    some ({ e with ring := if r = .accepted then e.ring + 1 else e.ring }, afterFixed emit r)
  | .postFixedFinal emit, .reply r =>
    some ({ e with mailbox := if r = .accepted then e.mailbox ++ [.sendFixedFinal] else e.mailbox },
      afterFixed emit r)
  | .fixedCreated accepted emit, .tick =>
    some (e, if e.created then .stopping .stopSet accepted emit else afterStop accepted emit)
  | .stopping frame accepted emit, .stop move =>
    if frame.stops then
      (workerStep cfg e.writer frame move).map fun (w, next) =>
        ({ e with writer := w }, if next.stops then .stopping next accepted emit else afterStop accepted emit)
    else none
  | .stopping _ _ _, .fail => some (e, .idle)
  | .startWriter emit, .tick => some ({ e with created := true }, .postStart emit)
  | .postStart emit, .reply r =>
    if r = .accepted then some ({ e with mailbox := e.mailbox ++ [.startResponse] }, .reset true emit)
    else some (e, .stopping .stopSet false emit)
  | .reset withBody emit, .tick => some ({ e with committed := .head }, emitBody withBody emit)
  | .bodyWriter closeAfter, .tick => some ({ e with created := true }, .stream .idle closeAfter)
  | .stream frame closeAfter, .frame move =>
    (frameStep cfg outStream e frame move).map fun (f, next) => (f, .stream next closeAfter)
  | .stream frame closeAfter, .finish => if frame.isIdle then some (e, afterBody closeAfter) else none
  | .stream _ _, .fail => some (e, .idle)
  | .flushWriter, .tick => some ({ e with created := true }, .flushing .flushStopped)
  | .flushing frame, .frame move => (frameStep cfg noCall e frame move).map fun (f, next) => (f, .flushing next)
  | .flushing frame, .finish => if frame.isIdle then some (e, .idle) else none
  | .flushing _, .fail => some (e, .idle)
  | .closeCreated, .tick => some (e, if e.created then .closeStopped else .closeCommitted)
  | .closeCommitted, .tick => some (e, if e.committed = .head then .beginClose false else .closeWriter)
  | .closeWriter, .tick => some ({ e with created := true }, .closeStopped)
  | .closeStopped, .tick => some (e, if e.writer.stopped then .closeFailed true else .beginClose true)
  | .beginClose writer, .tick =>
    if e.phase = .opened then
      some ({ e with phase := .closing }, if writer then .closing .closeStopped else .terminal)
    else some (e, .closeFailed writer)
  | .closing frame, .frame move => (frameStep cfg noCall e frame move).map fun (f, next) => (f, .closing next)
  | .closing frame, .finish => if frame.isIdle then some (e, .terminal) else none
  -- `terminal!` runs in a `finally`.
  | .closing _, .fail => some (e, .terminal)
  | .closeFailed writer, .tick => some (e, if writer && e.writer.stopped then .terminal else .idle)
  | .terminal, .tick => some ({ e with phase := .closed }, .idle)
  | _, _ => none

end Busker.Emitter
