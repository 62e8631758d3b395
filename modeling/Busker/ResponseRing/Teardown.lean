import Busker.ResponseRing.Protocol

/-! Publishing to a response receiver and tearing it down: the threads inside
`try-publish-direct-response!` and the worker that owns the receiver, over the
native ring. A publisher's native calls are steps of a claimant; the worker
drains, polls the pending count and calls `destroy-response-receiver!` as often as
it likes. The read-write lock is only ever tried, so it never blocks anybody. -/

namespace Busker.ResponseRing.Teardown

open Interleaving

/-- What `try-publish-direct-response!` returns, or that it threw. -/
inductive Result
  | closed | overloaded | accepted | threw
  deriving DecidableEq, Repr

/-- Where a publisher stands in `try-publish-direct-response!`. -/
inductive Publisher
  | idle
  | checkOpen
  | tryLock
  | getReceiver
  | recheckOpen (receiver : Bool)
  | claim
  | pack
  | publish
  | wake
  | abort (result : Result)
  | unlock (result : Result)
  | checkClosed (result : Result)
  | wakeClosed (result : Result)
  | done (result : Result)
  deriving DecidableEq

/-- `throw` makes the step throw where its source can. -/
inductive PublisherMove
  | tick
  | call
  | write (data : SlotData)
  | packed
  | throw

/-- Where the worker stands. `exchange` is `response-exchange-drained?`; the second
group is `destroy-response-receiver!` with the native destroy call inside it. -/
inductive Worker
  | idle
  | exchangeClaimed
  | exchangeReady
  | drain
  | closeAdmission
  | tryLock
  | getReceiver
  | pendingClaimed
  | pendingReady
  | nativeClose
  | nativeAssertClaimed
  | nativeAssertReady
  | nativeFree
  | clear
  | unlock
  deriving DecidableEq

inductive WorkerMove
  | tick
  | exchange
  | drain (move : DrainMove)
  | destroy

/-- `alive` is whether the native receiver has not been freed; `useAfterFree` and
`assertionFailed` record the two ways native code can go wrong. `late` marks calls
that began after the receiver was freed. -/
structure State (g : Geometry) (ι : Type*) where
  native : ResponseRing.State g ι
  receiverOpen : Bool
  receiver : Bool
  readHolds : ℕ
  writeHeld : Bool
  publishers : ι → Publisher
  worker : Worker
  alive : Bool
  destroyed : ℕ
  useAfterFree : Bool
  assertionFailed : Bool
  late : ι → Bool

inductive Action (ι : Type*)
  | publisher (i : ι) (move : PublisherMove)
  | worker (move : WorkerMove)

/-- Read holds a `ReentrantReadWriteLock` can count. -/
def maxReadHolds : ℕ := 65535

variable {g : Geometry} {ι : Type*} [Fintype ι] [DecidableEq ι]

def State.setPublisher (s : State g ι) (i : ι) (p : Publisher) : State g ι :=
  { s with publishers := Function.update s.publishers i p }

/-- Run one step of native code on the receiver. -/
def State.callNative (s : State g ι) (a : ResponseRing.Action ι) : Option (State g ι) :=
  (ResponseRing.step a s.native).map fun n =>
    { s with native := n, useAfterFree := s.useAfterFree || !s.alive }

/-- Where a publisher goes from `try_claim`, by what the native call came to. -/
def afterClaim : Claimant g → Publisher
  | .idle => .unlock .overloaded
  | .holding _ => .pack
  | _ => .claim

/-- Where it goes from `publish`: the call has returned 1 when the claimant is idle,
and 0 when it is about to abort. -/
def afterPublish : Claimant g → Publisher
  | .idle => .wake
  | .abort _ => .abort .overloaded
  | _ => .publish

def afterAbort (result : Result) : Claimant g → Publisher
  | .idle => .unlock result
  | _ => .abort result

/-- One native step inside the call a publisher is in. -/
def nativeStep (s : State g ι) (i : ι) (move : Move) (next : Claimant g → Publisher) :
    Option (State g ι) :=
  (s.callNative (.claimant i move)).map fun t => t.setPublisher i (next (t.native.claimants i))

def publisherStep (s : State g ι) (i : ι) : Publisher → PublisherMove → Option (State g ι)
  | .idle, .call =>
    some { s.setPublisher i .checkOpen with late := Function.update s.late i !s.alive }
  | .checkOpen, .tick =>
    some (s.setPublisher i (if s.receiverOpen then .tryLock else .done .closed))
  | .tryLock, .tick =>
    if s.writeHeld then some (s.setPublisher i (.done .closed))
    else if s.readHolds = maxReadHolds then some (s.setPublisher i (.done .threw))
    else some { s.setPublisher i .getReceiver with readHolds := s.readHolds + 1 }
  | .getReceiver, .tick => some (s.setPublisher i (.recheckOpen s.receiver))
  | .recheckOpen receiver, .tick =>
    if s.receiverOpen && receiver then nativeStep s i .claim fun _ => .claim
    else some (s.setPublisher i (.unlock .closed))
  | .claim, .tick => nativeStep s i .tick afterClaim
  | .pack, .write data => nativeStep s i (.write data) fun _ => .pack
  | .pack, .packed => nativeStep s i .publish fun _ => .publish
  | .pack, .throw => nativeStep s i .abandon fun _ => .abort .threw
  | .publish, .tick => nativeStep s i .tick afterPublish
  | .wake, .tick => some (s.setPublisher i (.unlock .accepted))
  | .wake, .throw => some (s.setPublisher i (.unlock .threw))
  | .abort result, .tick => nativeStep s i .tick (afterAbort result)
  | .unlock result, .tick =>
    some { s.setPublisher i (.checkClosed result) with readHolds := s.readHolds - 1 }
  | .checkClosed result, .tick =>
    some (s.setPublisher i (if s.receiverOpen then .done result else .wakeClosed result))
  | .wakeClosed result, .tick => some (s.setPublisher i (.done result))
  | .wakeClosed _, .throw => some (s.setPublisher i (.done .threw))
  | .done _, .tick => some (s.setPublisher i .idle)
  | _, _ => none

def workerStep (s : State g ι) : Worker → WorkerMove → Option (State g ι)
  | .idle, .exchange =>
    some { s with worker := if s.receiver then .exchangeClaimed else .idle }
  | .exchangeClaimed, .tick =>
    (s.callNative .observe).map fun t => { t with worker := .exchangeReady }
  | .exchangeReady, .tick => (s.callNative .observe).map fun t => { t with worker := .idle }
  | .idle, .drain move =>
    if s.receiver then (s.callNative (.drainer move)).map fun t => { t with worker := .drain }
    else some s
  | .drain, .drain move =>
    (s.callNative (.drainer move)).map fun t =>
      { t with worker := if t.native.drainer = .idle then .idle else .drain }
  | .idle, .destroy => some { s with worker := .closeAdmission }
  | .closeAdmission, .tick => some { s with receiverOpen := false, worker := .tryLock }
  | .tryLock, .tick =>
    if s.readHolds = 0 then some { s with writeHeld := true, worker := .getReceiver }
    else some { s with worker := .idle }
  | .getReceiver, .tick =>
    some { s with worker := if s.receiver then .pendingClaimed else .unlock }
  | .pendingClaimed, .tick =>
    (s.callNative .observe).map fun t => { t with worker := .pendingReady }
  | .pendingReady, .tick =>
    (s.callNative .observe).map fun t =>
      { t with worker := if pendingResult s.native = some 0 then .nativeClose else .unlock }
  | .nativeClose, .tick =>
    (s.callNative .closeAdmission).map fun t => { t with worker := .nativeAssertClaimed }
  | .nativeAssertClaimed, .tick =>
    some { s with
      useAfterFree := s.useAfterFree || !s.alive
      assertionFailed := s.assertionFailed || s.native.ring.ringClaimed != 0
      worker := .nativeAssertReady }
  | .nativeAssertReady, .tick =>
    some { s with
      useAfterFree := s.useAfterFree || !s.alive
      assertionFailed := s.assertionFailed || s.native.ring.ringReady != 0
      worker := .nativeFree }
  | .nativeFree, .tick =>
    some { s with
      useAfterFree := s.useAfterFree || !s.alive
      alive := false
      destroyed := s.destroyed + 1
      worker := .clear }
  | .clear, .tick => some { s with receiver := false, worker := .unlock }
  | .unlock, .tick => some { s with writeHeld := false, worker := .idle }
  | _, _ => none

def step : Action ι → State g ι → Option (State g ι)
  | .publisher i move, s => publisherStep s i (s.publishers i) move
  | .worker move, s => workerStep s s.worker move

def machine (g : Geometry) (ι : Type*) [Fintype ι] [DecidableEq ι] :
    Machine (State g ι) (Action ι) where
  init s := (ResponseRing.machine g ι).init s.native ∧ s.receiverOpen = true ∧
    s.receiver = true ∧ s.readHolds = 0 ∧ s.writeHeld = false ∧ (∀ i, s.publishers i = .idle) ∧
    s.worker = .idle ∧ s.alive = true ∧ s.destroyed = 0 ∧ s.useAfterFree = false ∧
    s.assertionFailed = false ∧ ∀ i, s.late i = false
  step := step

end Busker.ResponseRing.Teardown
