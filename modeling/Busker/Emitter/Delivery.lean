import Busker.Emitter.Calls
import Busker.Interleaving.Machine

/-! The event-loop worker's side of an emitter, and the machine of all threads that use
one: the worker runs the commands in its mailbox in order, the direct responses of the
ring and h2o's callbacks, and what it calls h2o with is logged. -/

namespace Busker.Emitter

open ResponseQueue Interleaving

/-- The calls on h2o for the request. -/
inductive Native
  | startResponse
  | sendInformational
  | sendFixedFinal
  | sendvec (final : Bool)
  deriving DecidableEq

/-- The request is `live` while the worker's dispatcher has its entry. -/
structure State (ι : Type*) where
  emitter : ResponseEmitter
  pc : ι → Point
  worker : Worker
  live : Bool
  log : List Native

/-- The choices of a step. `dispatch` runs the next message of the mailbox, `direct` a
direct response, `dispose` removes the request and stops its emitter, `other` is another
request's use of the buffer pool. The out-stream's buffers have no lock: `torn` leaves
in one what two threads inside it at once may leave there. -/
inductive Action (ι : Type*)
  | thread (i : ι) (move : Move)
  | worker (move : WorkerMove)
  | dispatch
  | direct
  | dispose
  | terminate
  | other (move : OtherMove)
  | torn (b : ℕ) (content : ByteBuffer)

variable {ι : Type*}

/-- `evloop-msg-processor` on a message about a live request. -/
def process (s : State ι) : Command → State ι
  | .startResponse => { s with log := s.log ++ [.startResponse] }
  | .sendInformational => { s with log := s.log ++ [.sendInformational] }
  | .sendFixedFinal => { s with log := s.log ++ [.sendFixedFinal] }
  | .sendvec => { s with worker := .readStopped }

/-- What a step of the worker's frame calls h2o with. -/
def natives : Worker → WorkerMove → List Native
  | .send acc, .tick => [.sendvec (lastFinal acc)]
  | _, _ => []

/-- A command is run by `dispatch`; the callbacks find the writer of a live request. -/
def callback (s : State ι) : WorkerMove → Bool
  | .command => false
  | .proceed | .stop => s.live && s.emitter.created
  | _ => true

def Worker.atRest : Worker → Bool
  | .idle => true
  | _ => false

def step [DecidableEq ι] (cfg : Config) : Action ι → State ι → Option (State ι)
  | .thread i move, s =>
    (threadStep cfg s.emitter (s.pc i) move).map fun (e, p) =>
      { s with emitter := e, pc := Function.update s.pc i p }
  | .worker move, s =>
    if callback s move then
      (workerStep cfg s.emitter.writer s.worker move).map fun (w, k) =>
        { s with
          emitter := { s.emitter with writer := w }
          worker := k
          log := s.log ++ natives s.worker move }
    else none
  | .dispatch, s =>
    if Worker.atRest s.worker then
      match s.emitter.mailbox with
      | c :: rest =>
        let next := { s with emitter := { s.emitter with mailbox := rest } }
        some (if s.live then process next c else next)
      | [] => none
    else none
  | .direct, s =>
    if Worker.atRest s.worker && 0 < s.emitter.ring then
      some { s with
        emitter := { s.emitter with ring := s.emitter.ring - 1 }
        log := if s.live then s.log ++ [.sendFixedFinal] else s.log }
    else none
  | .dispose, s =>
    if Worker.atRest s.worker then
      some { s with live := false, worker := if s.emitter.created then .stopSet else .idle }
    else none
  | .terminate, s =>
    if s.live then none else some { s with emitter := { s.emitter with phase := .closed } }
  | .other move, s =>
    (otherStep s.emitter.writer.pool move).map fun pool =>
      { s with emitter := { s.emitter with writer := { s.emitter.writer with pool := pool } } }
  | .torn b content, s =>
    some { s with emitter := { s.emitter with writer :=
      { s.emitter.writer with pool := s.emitter.writer.pool.update b fun _ => content } } }

/-- A step that runs neither a thread, nor a frame of the worker, nor a command. -/
structure Aside (a : Action ι) (s t : State ι) : Prop where
  action : ∀ i move, a ≠ .thread i move
  pc : t.pc = s.pc
  committed : t.emitter.committed = s.emitter.committed
  phase : s.live = true → t.emitter.phase = s.emitter.phase
  mailbox : t.emitter.mailbox = s.emitter.mailbox
  stopped : t.emitter.writer.stopped = s.emitter.writer.stopped
  owed : t.emitter.writer.owed = s.emitter.writer.owed
  live : t.live = s.live ∨ a = .dispose ∧ t.live = false
  worker : t.worker = s.worker ∨ a = .dispose ∧ s.worker = .idle ∧ t.worker = .stopSet
  direct : t.emitter.ring = s.emitter.ring ∧ t.log = s.log ∨ s.emitter.ring = t.emitter.ring + 1 ∧
    t.log = if s.live then s.log ++ [.sendFixedFinal] else s.log

theorem Aside.ring {a : Action ι} {s t : State ι} (h : Aside a s t) : t.emitter.ring ≤ s.emitter.ring := by
  have := h.direct
  omega

theorem Aside.log {a : Action ι} {s t : State ι} (h : Aside a s t) :
    t.log = s.log ∨ 0 < s.emitter.ring ∧ t.log = s.log ++ [.sendFixedFinal] := by
  rcases h.direct with ⟨-, same⟩ | ⟨ring, log⟩
  · exact .inl same
  · split at log
    · exact .inr ⟨by omega, log⟩
    · exact .inl log

theorem Aside.live_before {a : Action ι} {s t : State ι} (h : Aside a s t) (live : t.live = true) :
    s.live = true := by
  rcases h.live with same | ⟨-, dead⟩
  · rwa [same] at live
  · simp [live] at dead

/-- What a step of the machine is. -/
theorem step_cases [DecidableEq ι] {cfg : Config} {s t : State ι} {a : Action ι}
    (h : step cfg a s = some t) :
    (∃ i move e p, a = .thread i move ∧ threadStep cfg s.emitter (s.pc i) move = some (e, p) ∧
      t = { s with emitter := e, pc := Function.update s.pc i p }) ∨
    (∃ move w k, a = .worker move ∧ move ≠ .command ∧ workerStep cfg s.emitter.writer s.worker move = some (w, k) ∧
      t = { s with
        emitter := { s.emitter with writer := w }, worker := k, log := s.log ++ natives s.worker move }) ∨
    (∃ c rest, a = .dispatch ∧ s.worker = .idle ∧ s.emitter.mailbox = c :: rest ∧
      t = if s.live then process { s with emitter := { s.emitter with mailbox := rest } } c
        else { s with emitter := { s.emitter with mailbox := rest } }) ∨
    Aside a s t := by
  have idle_of (rest : Worker.atRest s.worker = true) : s.worker = .idle := by
    cases at_ : s.worker <;> simp [at_, Worker.atRest] at rest
    rfl
  cases a with
  | thread i move =>
    obtain ⟨⟨e, p⟩, moves, rfl⟩ := Option.map_eq_some_iff.mp h
    exact .inl ⟨i, move, e, p, rfl, moves, rfl⟩
  | worker move =>
    simp only [step] at h
    split at h
    · rename_i allowed
      obtain ⟨⟨w, k⟩, moves, rfl⟩ := Option.map_eq_some_iff.mp h
      refine .inr (.inl ⟨move, w, k, rfl, ?_, moves, rfl⟩)
      rintro rfl
      simp [callback] at allowed
    · contradiction
  | dispatch =>
    simp only [step] at h
    split at h
    · rename_i rest
      split at h
      · rename_i c rest' queued
        exact .inr (.inr (.inl ⟨c, rest', rfl, idle_of rest, queued, (Option.some.inj h).symm⟩))
      · contradiction
    · contradiction
  | direct =>
    simp only [step] at h
    split at h
    · rename_i ready
      obtain rfl := Option.some.inj h
      have pending : 0 < s.emitter.ring := by simp_all
      refine .inr (.inr (.inr ⟨by simp, rfl, rfl, fun _ => rfl, rfl, rfl, rfl, .inl rfl, .inl rfl, .inr ⟨?_, rfl⟩⟩))
      dsimp only
      omega
    · contradiction
  | dispose =>
    simp only [step] at h
    split at h
    · rename_i rest
      obtain rfl := Option.some.inj h
      refine .inr (.inr (.inr
        ⟨by simp, rfl, rfl, fun _ => rfl, rfl, rfl, rfl, .inr ⟨rfl, rfl⟩, ?_, .inl ⟨rfl, rfl⟩⟩))
      dsimp only
      split
      · exact .inr ⟨rfl, idle_of rest, rfl⟩
      · exact .inl (idle_of rest).symm
    · contradiction
  | terminate =>
    simp only [step] at h
    split at h
    · contradiction
    · rename_i dead
      obtain rfl := Option.some.inj h
      exact .inr (.inr (.inr ⟨by simp, rfl, rfl, fun live => absurd live dead, rfl, rfl, rfl, .inl rfl, .inl rfl,
        .inl ⟨rfl, rfl⟩⟩))
  | other move =>
    obtain ⟨pool, moves, rfl⟩ := Option.map_eq_some_iff.mp h
    exact .inr (.inr (.inr ⟨by simp, rfl, rfl, fun _ => rfl, rfl, rfl, rfl, .inl rfl, .inl rfl, .inl ⟨rfl, rfl⟩⟩))
  | torn b content =>
    obtain rfl := Option.some.inj h
    exact .inr (.inr (.inr ⟨by simp, rfl, rfl, fun _ => rfl, rfl, rfl, rfl, .inl rfl, .inl rfl, .inl ⟨rfl, rfl⟩⟩))

/-- `new-response-emitter` for a live request, over a pool in use. -/
def freshState (ι : Type*) (cfg : Config) (pool : Pool) : State ι where
  emitter := {
    writer := (ResponseQueue.freshState cfg pool).writer
    created := false
    committed := .uncommitted
    phase := .opened
    mailbox := []
    ring := 0 }
  pc := fun _ => .idle
  worker := .idle
  live := true
  log := []

def machine (ι : Type*) [DecidableEq ι] (cfg : Config) : Machine (State ι) (Action ι) where
  init s := ∃ pool : Pool, pool.Sound ∧ s = freshState ι cfg pool
  step := step cfg

end Busker.Emitter
