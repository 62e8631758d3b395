import Busker.ContentLength.Added
import Busker.Interleaving.Machine
import Busker.Interleaving.Threads

/-! The life of one response emitter, with the bytes of its bodies: the calls `emit!` and
`close` of any number of threads, and the worker that drains the writer. -/
namespace Busker.ContentLength

open FixedFinal Interleaving

inductive Data where
  | map (response : ResponseMap)
  | body (data : Body)

structure Emit where
  data : Data
  closeAfter : Bool

/-- The map `emit!` hands to `commit-final!`. -/
def Emit.response (e : Emit) : ResponseMap :=
  match e.data with
  | .map response => response
  | .body _ => .bare

/-- The value of `committed_`. -/
inductive Committed where
  | uncommitted
  | informationalSent
  | head (head : Head)
  deriving DecidableEq

inductive Phase where
  | opened | closing | closed
  deriving DecidableEq

/-- The answers to `try-publish-direct-response!`, `send-msg` and `send-required-msg`. -/
inductive Reply where
  | accepted | closed | overloaded
  deriving DecidableEq

/-- The emitter, its writer once it is `created`, and what the native layer has been given.
`queued` are the bytes the writer's stream has taken and the worker has not drained. -/
structure Emitter where
  committed : Committed
  phase : Phase
  created : Bool
  stopped : Bool
  closing : Bool
  queued : List UInt8
  answer : Option Answer
  handed : List UInt8
  deriving DecidableEq

/-- Where a thread stands in `emit!` or `close`. `settled` is before `commit-final!` reads
`committed_`, `loaded` before it swaps; `writing` has been inside a `.write` if `entered`. -/
inductive Point where
  | idle
  | entered (e : Emit)
  | opened (e : Emit)
  | settled (e : Emit) (settled : Settled)
  | loaded (e : Emit) (settled : Settled) (informational : Bool)
  | publish (e : Emit) (head : Head) (plan : DirectResponsePlan)
  | stopping (e : Emit) (head : Head) (accepted : Bool)
  | starting (e : Emit) (head : Head)
  | posting (e : Emit) (head : Head) (answer : Answer)
  | body (e : Emit) (head : Head)
  | writing (closeAfter entered : Bool) (rest : List UInt8) (thrown : Bool)
  | closing
  | beginClose (writer : Bool)
  | closeStream
  | terminal

/-- `take` is a piece of a body that the stream takes, `fail` an exception that leaves the
write; `finish` ends it, with the stream closed by Ring if `closes`. -/
inductive Move where
  | emit (e : Emit)
  | close
  | tick
  | reply (reply : Reply)
  | take (count : ℕ)
  | fail
  | finish (closes : Bool)

variable (cfg : Setting)

def informationalStatus (status : ℤ) : Bool := 100 ≤ status && status < 200 && status != 101

/-- What `emit!` writes under a head. -/
def Emit.written (e : Emit) (head : Head) : Written :=
  match e.data with
  | .map response => writtenOfMap cfg response.body head.headers
  | .body data => writeBodyChunk cfg data head.headers e.closeAfter

def afterBody (closeAfter : Bool) : Point := if closeAfter then .closing else .idle

/-- The part of `emit!` after `commit-final!`; a direct response has its body already. -/
def afterCommit (e : Emit) (head : Head) (withBody : Bool) : Point :=
  match e.data with
  | .map response => if withBody && response.body.truthy then .body e head else afterBody e.closeAfter
  | .body _ => .body e head

/-- The call of `commit-final!`. -/
def enterCommit (e : Emit) : Point :=
  match commitFinal cfg e.response e.closeAfter with
  | .ok settled => .settled e settled
  | .error _ => .idle

/-- `emit!` on an open emitter. A map without a status makes it throw. -/
def dispatch (s : Emitter) (e : Emit) : Emitter × Point :=
  match e.data with
  | .map response =>
    match response.status with
    | none => (s, .idle)
    | some status =>
      if informationalStatus status then
        match s.committed with
        | .uncommitted => ({ s with committed := .informationalSent }, .idle)
        | _ => (s, .idle)
      else
        match s.committed with
        | .head _ => (s, .idle)
        | _ => (s, enterCommit cfg e)
  | .body _ =>
    match s.committed with
    | .head head => (s, .body e head)
    | _ => (s, enterCommit cfg e)

/-- After a swap that succeeded. -/
def afterSwap (e : Emit) (settled : Settled) : Point :=
  match settled.plan with
  | some plan => .publish e settled.head plan
  | none => .starting e settled.head

/-- The compare-and-set of `committed_`. -/
def swap (s : Emitter) (e : Emit) (settled : Settled) (informational : Bool) : Emitter × Point :=
  match s.committed, informational with
  | .uncommitted, false | .informationalSent, true =>
    ({ s with committed := .head settled.head }, afterSwap e settled)
  | _, _ => (s, .idle)

/-- A piece of a body. The stream takes none for a `.write` that begins once it is stopped
or closing, and one that had begun before loses its bytes. -/
def takePiece (s : Emitter) (closeAfter entered : Bool) (rest : List UInt8) (thrown : Bool)
    (count : ℕ) : Option (Emitter × Point) :=
  let next := Point.writing closeAfter true (rest.drop count) thrown
  if s.stopped || s.closing then
    if entered then some (s, next) else none
  else some ({ s with queued := s.queued ++ rest.take count }, next)

def callerStep (s : Emitter) : Point → Move → Option (Emitter × Point)
  | .idle, .emit e => some (s, .entered e)
  | .idle, .close => some (s, .closing)
  | .entered e, .tick =>
    some (s, if s.phase = .opened ∧ ¬(s.created && s.stopped) then .opened e else .idle)
  | .opened e, .tick => some (dispatch cfg s e)
  | .settled e settled, .tick =>
    some (s, match s.committed with
      | .uncommitted => .loaded e settled false
      | .informationalSent => .loaded e settled true
      | .head _ => .idle)
  | .loaded e settled informational, .tick => some (swap s e settled informational)
  | .publish e head plan, .reply .accepted =>
    some ({ s with answer := some (.ofPlan plan), handed := s.handed ++ plan.body.encoded },
      .stopping e head true)
  | .publish e head _, .reply .closed => some (s, .stopping e head false)
  | .publish e head _, .reply .overloaded => some (s, .starting e head)
  | .stopping e head accepted, .tick =>
    some ({ s with stopped := s.stopped || s.created },
      if accepted then afterCommit e head false else .idle)
  | .starting e head, .tick =>
    match startResponse cfg head with
    | .ok answer => some ({ s with created := true }, .posting e head answer)
    | .error _ => some (s, .idle)
  | .posting e head answer, .reply .accepted =>
    some ({ s with answer := some answer }, afterCommit e head true)
  | .posting e head _, .reply _ => some (s, .stopping e head false)
  | .body e head, .tick =>
    some ({ s with created := true },
      .writing e.closeAfter false (e.written cfg head).bytes (e.written cfg head).thrown)
  | .writing closeAfter entered rest thrown, .take count => takePiece s closeAfter entered rest thrown count
  | .writing _ _ _ _, .fail => some (s, .idle)
  | .writing closeAfter _ [] thrown, .finish closes =>
    if thrown then some (s, .idle)
    else
      some ({ s with closing := s.closing || (closes && cfg.streaming.isSome) }, afterBody closeAfter)
  | .closing, .tick =>
    match s.created, s.committed with
    | false, .head _ => some (s, .beginClose false)
    | _, _ => some ({ s with created := true }, if s.created && s.stopped then .terminal else .beginClose true)
  | .beginClose writer, .tick =>
    if s.phase = .opened then
      some ({ s with phase := .closing }, if writer then .closeStream else .terminal)
    else some (s, if writer && s.stopped then .terminal else .idle)
  | .closeStream, .tick => some ({ s with closing := true }, .terminal)
  | .terminal, .tick => some ({ s with phase := .closed }, .idle)
  | _, _ => none

structure State (ι : Type*) where
  emitter : Emitter
  pc : ι → Point

/-- `drain` is a send of the worker, the last one if `final`; `stopWriter` the end of the
native request and `stopEmitter` that of the worker. -/
inductive Action (ι : Type*) where
  | caller (i : ι) (move : Move)
  | drain (count : ℕ) (final : Bool)
  | stopWriter
  | stopEmitter

/-- A drain of the queue. The final chunk comes last and stops the writer. -/
def drain (s : Emitter) (count : ℕ) (final : Bool) : Option Emitter :=
  if s.created && !s.stopped && (!final || s.closing && (s.queued.drop count).isEmpty) then
    some { s with
      handed := s.handed ++ s.queued.take count
      queued := s.queued.drop count
      stopped := s.stopped || final }
  else none

variable {ι : Type*} [DecidableEq ι]

def stepFn (a : Action ι) (s : State ι) : Option (State ι) :=
  match a with
  | .caller i move =>
    (callerStep cfg s.emitter (s.pc i) move).map fun next => ⟨next.1, Function.update s.pc i next.2⟩
  | .drain count final => (drain s.emitter count final).map fun e => { s with emitter := e }
  | .stopWriter =>
    some { s with emitter := { s.emitter with stopped := s.emitter.stopped || s.emitter.created } }
  | .stopEmitter =>
    some { s with emitter :=
      { s.emitter with stopped := s.emitter.stopped || s.emitter.created, phase := .closed } }

/-- `new-response-emitter` -/
def newEmitter : State ι where
  emitter := ⟨.uncommitted, .opened, false, false, false, [], none, []⟩
  pc _ := .idle

def machine : Machine (State ι) (Action ι) where
  init s := s = newEmitter
  step := stepFn cfg

/-- The bytes of a body that a thread has still to write. -/
def Point.owed : Point → List UInt8
  | .publish e head _ | .starting e head | .posting e head _ | .body e head => (e.written cfg head).bytes
  | .writing _ _ rest _ => rest
  | _ => []

/-- The thread may still answer the request. -/
def Point.answering : Point → Bool
  | .publish _ _ _ | .starting _ _ | .posting _ _ _ => true
  | _ => false

/-- No thread has bytes of a body left, and the worker has drained all that were written. -/
def Complete (s : State ι) : Prop := (∀ i, (s.pc i).owed cfg = []) ∧ s.emitter.queued = []

/-- The content length Busker adds to an answer is the number of body bytes the native
layer is given. -/
def Sound (s : State ι) : Prop :=
  ∀ head answer, s.emitter.committed = .head head → s.emitter.answer = some answer →
    Unsupplied cfg.java head.given → Complete cfg s →
    answer.Adds cfg.java head.given s.emitter.handed.length

/-- The size of what is emitted is the number of its bytes, as far as `commit-final!` takes
it: a body of a map is measured, and body data is nothing. -/
def Data.Measured : Data → Prop
  | .map response => truthyHeader cfg.java response.headers contentLengthName = none →
      response.body.Measured cfg response.headers
  | .body data =>
      (writeBodyChunk cfg data (setHeader cfg.order [] contentLengthName (strLong 0)) true).bytes = []

instance : (data : Data) → Decidable (data.Measured cfg)
  | .map response => inferInstanceAs (Decidable (_ = none → response.body.Measured cfg response.headers))
  | .body _ => inferInstanceAs (Decidable (Written.bytes _ = []))

def Emit.Measured (e : Emit) : Prop := e.closeAfter = true → e.data.Measured cfg

instance (e : Emit) : Decidable (e.Measured cfg) :=
  inferInstanceAs (Decidable (e.closeAfter = true → e.data.Measured cfg))

/-- Busker has added a content length to the head. -/
def Committed.lengthAdded : Committed → Bool
  | .head committed => committed.added.isSome
  | _ => false

/-- What is committed is measured. After that, as long as the content length is Busker's,
nothing else is written, and nothing of the body is lost. -/
def allowed (s : Emitter) : Point → Move → Prop
  | .loaded e _ _, .tick => e.Measured cfg
  | .opened e, .tick =>
    match e.data, s.committed with
    | .body data, .head head => head.added.isSome = true →
        (writeBodyChunk cfg data head.headers e.closeAfter).bytes = []
    | _, _ => True
  | .writing _ _ rest _, .take _ => s.committed.lengthAdded = true →
      rest = [] ∨ s.stopped = false ∧ s.closing = false
  | .writing _ _ rest _, .fail => s.committed.lengthAdded = true → rest = []
  | _, _ => True

instance (s : Emitter) (p : Point) (move : Move) : Decidable (allowed cfg s p move) := by
  unfold allowed
  split
  · infer_instance
  · split <;> infer_instance
  all_goals infer_instance

/-- The steps of the threads are allowed, and so is everything the worker does. -/
def sized : Action ι → State ι → Prop
  | .caller i move, s => allowed cfg s.emitter (s.pc i) move
  | _, _ => True

instance (a : Action ι) (s : State ι) : Decidable (sized cfg a s) := by
  cases a <;> unfold sized <;> infer_instance

end Busker.ContentLength
