import Busker.Emitter.Commit
import Busker.ResponseQueue.Finals

/-! Sends follow the response head. The worker runs its commands in order, so a drain
posted after the start of the response was accepted finds the response started. `close`
on a fresh emitter, and a body written while another thread commits, post one before. -/

namespace Busker.ResponseQueue.Worker

/-- Past the check of `stopped?_` in `send-vecs` and before `h2o_sendvec`. -/
def maySend : Worker → Bool
  | .readInFlight | .drain _ _ | .account _ _ _ | .release _ _ _ | .send _ | .readState | .retireSwap
  | .consume => true
  | _ => false

/-- In `on-proceed`, before `send-vecs`. -/
def proceeds : Worker → Bool
  | .releaseChunks _ | .clearInFlight | .proceedStopped => true
  | _ => false

end Busker.ResponseQueue.Worker

namespace Busker.Emitter

open ResponseQueue Interleaving

/-- How a step of the worker moves through `send-vecs`. -/
structure Turn (w v : Writer) (k l : Worker) (move : WorkerMove) : Prop where
  maySend : l.maySend = true → k.maySend = true ∨ k = .readStopped ∧ w.stopped = false
  reads : l = .readStopped → k.proceeds = true ∨ move = .command
  proceeds : l.proceeds = true → k.proceeds = true ∨ 0 < w.owed
  owed : 0 < v.owed → 0 < w.owed ∨ k.maySend = true
  finishing : k.finishing = true → l.finishing = true ∨ v.stopped = true
  sends : natives k move = [] ∨
    k.maySend = true ∧ l.maySend = false ∧ natives k move = [.sendvec l.finishing]

theorem Turn.quiet {w v : Writer} {k l : Worker} {move : WorkerMove} (owed : v.owed = w.owed)
    (maySend : l.maySend = true → k.maySend = true) (reads : l ≠ .readStopped)
    (proceeds : l.proceeds = true → k.proceeds = true) (finishing : k.finishing = true → l.finishing = true)
    (sends : natives k move = []) : Turn w v k l move where
  maySend on := .inl (maySend on)
  reads at_ := absurd at_ reads
  proceeds on := .inl (proceeds on)
  owed on := .inl (owed ▸ on)
  finishing on := .inl (finishing on)
  sends := .inl sends

theorem workerStep_turn {cfg : Config} {w v : Writer} {k l : Worker} {move : WorkerMove}
    (h : workerStep cfg w k move = some (v, l)) : Turn w v k l move := by
  cases k <;> cases move <;>
    simp only [workerStep, reduceCtorEq, Option.some.injEq, Prod.mk.injEq] at h
  case idle.command =>
    split at h
    · obtain ⟨rfl, rfl⟩ := Prod.mk.inj (Option.some.inj h)
      exact ⟨by simp [Worker.maySend], fun _ => .inr rfl, by simp [Worker.proceeds], .inl,
        by simp [Worker.finishing], .inl rfl⟩
    · contradiction
  case idle.proceed =>
    split at h
    · rename_i owed
      obtain ⟨rfl, rfl⟩ := Prod.mk.inj (Option.some.inj h)
      exact ⟨by simp [Worker.maySend], by simp, fun _ => .inr owed, fun _ => .inl owed,
        by simp [Worker.finishing], .inl rfl⟩
    · contradiction
  case readStopped.tick =>
    obtain ⟨rfl, rfl⟩ := h
    refine ⟨fun on => .inr ⟨rfl, ?_⟩, ?_, ?_, .inl, by simp [Worker.finishing], .inl rfl⟩
    · by_contra stopped
      rw [if_pos (by simpa using stopped)] at on
      contradiction
    · split <;> simp
    · split <;> simp [Worker.proceeds]
  case readInFlight.tick =>
    obtain ⟨rfl, rfl⟩ := h
    refine .quiet rfl (fun _ => rfl) ?_ ?_ (by simp [Worker.finishing]) rfl <;>
      split <;> simp [Worker.proceeds]
  case drain.tick rem acc =>
    have packed : (package acc).maySend = true ∧ package acc ≠ .readStopped ∧
        (package acc).proceeds = false := by
      unfold package
      split <;> simp [Worker.maySend, Worker.proceeds]
    split at h
    · split at h <;> obtain ⟨rfl, rfl⟩ := Prod.mk.inj (Option.some.inj h)
      · refine .quiet rfl (fun _ => rfl) ?_ ?_ (by simp [Worker.finishing]) rfl <;>
          split <;> simp [Worker.proceeds]
      · exact .quiet rfl (fun _ => rfl) packed.2.1 (by simp [packed]) (by simp [Worker.finishing]) rfl
    · obtain ⟨rfl, rfl⟩ := Prod.mk.inj (Option.some.inj h)
      exact .quiet rfl (fun _ => rfl) packed.2.1 (by simp [packed]) (by simp [Worker.finishing]) rfl
  case release.tick rem acc c =>
    split at h <;> obtain ⟨rfl, rfl⟩ := Prod.mk.inj (Option.some.inj h)
    · rename_i queue released
      exact .quiet rfl (fun _ => rfl) (by simp) (by simp [Worker.proceeds]) (by simp [Worker.finishing]) rfl
    · exact .quiet rfl (by simp [Worker.maySend]) (by simp) (by simp [Worker.proceeds])
        (by simp [Worker.finishing]) rfl
  case send.tick acc =>
    obtain ⟨rfl, rfl⟩ := h
    exact ⟨by simp [Worker.maySend], by simp, by simp [Worker.proceeds], fun _ => .inr rfl,
      by simp [Worker.finishing], .inr ⟨rfl, rfl, rfl⟩⟩
  case demote.tick final =>
    obtain ⟨rfl, rfl⟩ := h
    cases final <;> exact .quiet rfl (by simp [Worker.maySend]) (by simp) (by simp [Worker.proceeds])
      (by simp [Worker.finishing]) rfl
  case finish.tick =>
    obtain ⟨rfl, rfl⟩ := h
    exact ⟨by simp [Worker.maySend], by simp, by simp [Worker.proceeds], .inl, fun _ => .inr rfl, .inl rfl⟩
  case readState.tick =>
    obtain ⟨rfl, rfl⟩ := h
    refine .quiet rfl (fun _ => rfl) ?_ ?_ (by simp [Worker.finishing]) rfl <;>
      split <;> simp [Worker.proceeds]
  case retireSwap.tick =>
    split at h <;> obtain ⟨rfl, rfl⟩ := Prod.mk.inj (Option.some.inj h) <;>
      exact .quiet rfl (fun _ => rfl) (by simp) (by simp [Worker.proceeds]) (by simp [Worker.finishing]) rfl
  case retire.tick point =>
    obtain ⟨⟨tracked, rfl⟩, rfl | ⟨next, rfl⟩⟩ := retireStep_frame h <;>
      exact .quiet rfl (by simp [Worker.maySend]) (by simp) (by simp [Worker.proceeds])
        (by simp [Worker.finishing]) rfl
  case releaseChunks.giveBack todo keep =>
    split at h
    · obtain ⟨rfl, rfl⟩ := Prod.mk.inj (Option.some.inj h)
      exact .quiet rfl (by simp [Worker.maySend]) (by simp) (fun _ => rfl) (by simp [Worker.finishing]) rfl
    · contradiction
  case releaseChunks.tick todo =>
    split at h
    · obtain ⟨rfl, rfl⟩ := Prod.mk.inj (Option.some.inj h)
      exact .quiet rfl (by simp [Worker.maySend]) (by simp) (fun _ => rfl) (by simp [Worker.finishing]) rfl
    · contradiction
  case proceedStopped.tick =>
    obtain ⟨rfl, rfl⟩ := h
    refine ⟨?_, fun _ => .inl rfl, fun _ => .inl rfl, .inl, by simp [Worker.finishing], .inl rfl⟩
    split <;> simp [Worker.maySend]
  case stopClose.tick =>
    split at h <;> obtain ⟨rfl, rfl⟩ := Prod.mk.inj (Option.some.inj h) <;>
      exact .quiet rfl (by simp [Worker.maySend]) (by simp) (by simp [Worker.proceeds])
        (by simp [Worker.finishing]) rfl
  case stopRelease.tick =>
    unfold Queue.release at h
    split_ifs at h <;> obtain ⟨rfl, rfl⟩ := h <;>
      exact .quiet rfl (by simp [Worker.maySend]) (by simp) (by simp [Worker.proceeds])
        (by simp [Worker.finishing]) rfl
  case stopTake.tick =>
    obtain ⟨rfl, rfl⟩ := h
    cases w.current <;>
      exact .quiet rfl (by simp [Worker.maySend]) (by simp) (by simp [Worker.proceeds])
        (by simp [Worker.finishing]) rfl
  all_goals
    obtain ⟨rfl, rfl⟩ := h
    exact .quiet rfl (by simp [Worker.maySend]) (by simp) (by simp [Worker.proceeds])
      (by simp [Worker.finishing]) rfl

variable {ι : Type*} {cfg : Config} {s t : State ι} {a : Action ι}

def Native.isSendvec : Native → Bool
  | .sendvec _ => true
  | _ => false

/-- The final send is the last one, whatever the threads do. -/
structure FinalLast (s : State ι) : Prop where
  done : .sendvec true ∈ s.log → s.emitter.writer.stopped = true ∨ s.worker.finishing = true
  maySend : s.worker.maySend = true → .sendvec true ∉ s.log
  last : NoneAfter (· = .sendvec true) (fun c => c.isSendvec = true) s.log

theorem FinalLast.concat {c : Native} (h : NoneAfter (· = .sendvec true) (fun c => c.isSendvec = true) s.log)
    (other : c.isSendvec = false) :
    NoneAfter (· = .sendvec true) (fun c => c.isSendvec = true) (s.log ++ [c]) :=
  h.concat (by simp [other])

theorem FinalLast.worker {w : Writer} {k : Worker} {move : WorkerMove} (h : FinalLast s)
    (stopped : s.emitter.writer.stopped = true → w.stopped = true)
    (turn : Turn s.emitter.writer w s.worker k move) :
    FinalLast { s with
      emitter := { s.emitter with writer := w }, worker := k, log := s.log ++ natives s.worker move } := by
  have finishing (sent : .sendvec true ∈ s.log) : w.stopped = true ∨ k.finishing = true :=
    (h.done sent).elim (fun before => .inl (stopped before)) fun before => (turn.finishing before).symm
  have maySend (on : k.maySend = true) : .sendvec true ∉ s.log := by
    rcases turn.maySend on with before | ⟨at_, running⟩
    · exact h.maySend before
    · intro sent
      rcases h.done sent with before | before
      · simp [running] at before
      · simp [at_, Worker.finishing] at before
  rcases turn.sends with none | ⟨before, after, sends⟩
  · rw [none, List.append_nil]
    exact ⟨finishing, maySend, h.last⟩
  · rw [sends]
    refine ⟨fun sent => ?_, fun on => by simp [on] at after, h.last.concat ?_⟩
    · rcases List.mem_append.mp sent with sent | sent
      · exact finishing sent
      · simp only [List.mem_singleton, Native.sendvec.injEq] at sent
        exact .inr sent.symm
    · rintro - c hc rfl
      exact h.maySend before hc

/-- A step that calls h2o with nothing but a head, or not at all. -/
theorem FinalLast.quiet (h : FinalLast s) (stopped : s.emitter.writer.stopped = true → t.emitter.writer.stopped = true)
    (finishing : s.worker.finishing = true → t.worker.finishing = true)
    (maySend : t.worker.maySend = true → s.worker.maySend = true)
    (log : t.log = s.log ∨ ∃ c, c.isSendvec = false ∧ t.log = s.log ++ [c]) : FinalLast t := by
  have sent : .sendvec true ∈ t.log → .sendvec true ∈ s.log := by
    rcases log with same | ⟨c, other, log⟩
    · rw [same]
      exact id
    · rw [log, List.mem_append, List.mem_singleton]
      rintro (sent | rfl)
      · exact sent
      · simp [Native.isSendvec] at other
  refine ⟨fun on => (h.done (sent on)).imp stopped finishing, fun on now => h.maySend (maySend on) (sent now), ?_⟩
  rcases log with same | ⟨c, other, log⟩
  · rw [same]
    exact h.last
  · rw [log]
    exact FinalLast.concat h.last other

theorem FinalLast.step [DecidableEq ι] (h : FinalLast s) (moves : step cfg a s = some t) : FinalLast t := by
  rcases step_cases moves with ⟨i, move, e, p, -, moved, rfl⟩ | ⟨move, w, k, -, -, moved, rfl⟩ |
    ⟨c, rest, -, idle, queued, rfl⟩ | aside
  · exact h.quiet (threadStep_spec moved).stopped id id (.inl rfl)
  · exact h.worker (workerStep_budget moved).stopped (workerStep_turn moved)
  · split
    · cases c
      case sendvec =>
        exact h.quiet id (by simp [idle, Worker.finishing]) (by simp [process, Worker.maySend]) (.inl rfl)
      all_goals exact h.quiet id id id (.inr ⟨_, rfl, rfl⟩)
    · exact h.quiet id id id (.inl rfl)
  · refine h.quiet aside.stopped.trans ?_ ?_ (aside.log.imp id fun direct => ⟨_, rfl, direct.2⟩)
    · rcases aside.worker with same | ⟨-, idle, -⟩
      · simp [same]
      · simp [idle, Worker.finishing]
    · rcases aside.worker with same | ⟨-, -, stopping⟩
      · simp [same]
      · simp [stopping, Worker.maySend]

theorem finalLast_of_reachable [DecidableEq ι] (h : (machine ι cfg).Reachable s) : FinalLast s := by
  refine h.invariant ?_ fun a s t hs moves => hs.step moves
  rintro _ ⟨pool, -, rfl⟩
  exact ⟨by simp [freshState], by simp [freshState, Worker.maySend], noneAfter_nil⟩

/-- The start of the response stands before every send, in the log and in what is
still to be run. -/
structure HeadFirst (s : State ι) : Prop where
  queued : s.live = true → s.emitter.writer.stopped = false →
    .startResponse ∈ s.log ∨ Preceded (· = .sendvec) (· = .startResponse) s.emitter.mailbox
  reads : s.worker = .readStopped → s.emitter.writer.stopped = false → .startResponse ∈ s.log
  serves : s.worker.maySend = true ∨ s.worker.proceeds = true ∨ 0 < s.emitter.writer.owed →
    .startResponse ∈ s.log
  ordered : Preceded (fun c => c.isSendvec = true) (· = .startResponse) s.log

/-- A drain is posted when the start of the response has been accepted, unless the
worker will not send for the request any more. -/
def afterHead : Action ι → State ι → Prop
  | .thread i move, s => .sendvec ∈ (s.pc i).posting move →
    s.live = true → s.emitter.writer.stopped = false → s.started
  | _, _ => True

instance (a : Action ι) (s : State ι) : Decidable (afterHead a s) := by
  unfold afterHead
  split <;> infer_instance

theorem posts_length (p : Producer) (move : ProducerMove) : posts p move = [] ∨ ∃ c, posts p move = [c] := by
  unfold posts
  split
  · exact .inr ⟨_, rfl⟩
  · exact .inl rfl

theorem posting_length (p : Point) (move : Move) : p.posting move = [] ∨ ∃ c, p.posting move = [c] := by
  unfold Point.posting
  split
  case h_1 | h_2 | h_3 => exact .inr ⟨_, rfl⟩
  case h_4 | h_5 | h_6 => exact posts_length _ _
  case h_7 => exact .inl rfl

theorem HeadFirst.thread [DecidableEq ι] {i : ι} {move : Move} {e : ResponseEmitter} {p : Point}
    (h : HeadFirst s) (allowed : afterHead (.thread i move) s)
    (spec : ThreadSpec s.emitter e (s.pc i) p move) :
    HeadFirst { s with emitter := e, pc := Function.update s.pc i p } where
  queued live running := by
    have before := running_before spec.stopped running
    rcases h.queued live before with started | preceded
    · exact .inl started
    · dsimp only
      rw [spec.mailbox]
      rcases posting_length (s.pc i) move with none | ⟨c, posting⟩
      · rw [none, List.append_nil]
        exact .inr preceded
      · rcases Classical.em (Native.startResponse ∈ s.log) with started | unstarted
        · exact .inl started
        · refine .inr ?_
          rw [posting]
          refine preceded.concat ?_
          rintro rfl
          have started := allowed (by simp [posting]) live before
          exact ⟨_, started.resolve_right unstarted, rfl⟩
  reads at_ running := h.reads at_ (running_before spec.stopped running)
  serves on := h.serves (by rwa [spec.owed] at on)
  ordered := h.ordered

theorem HeadFirst.worker {w : Writer} {k : Worker} {move : WorkerMove} (h : HeadFirst s)
    (stopped : s.emitter.writer.stopped = true → w.stopped = true) (callback : move ≠ .command)
    (turn : Turn s.emitter.writer w s.worker k move) :
    HeadFirst { s with
      emitter := { s.emitter with writer := w }, worker := k, log := s.log ++ natives s.worker move } where
  queued live running :=
    (h.queued live (running_before stopped running)).imp_left (List.mem_append_left _)
  reads at_ running :=
    List.mem_append_left _ (h.serves (.inr (.inl ((turn.reads at_).resolve_right callback))))
  serves on := by
    refine List.mem_append_left _ ?_
    rcases on with on | on | on
    · rcases turn.maySend on with before | ⟨at_, running⟩
      · exact h.serves (.inl before)
      · exact h.reads at_ running
    · exact h.serves (.inr (turn.proceeds on))
    · exact h.serves ((turn.owed on).elim (fun owed => .inr (.inr owed)) .inl)
  ordered := by
    rcases turn.sends with none | ⟨before, -, sends⟩
    · rw [none, List.append_nil]
      exact h.ordered
    · rw [sends]
      exact h.ordered.concat fun _ => ⟨_, h.serves (.inl before), rfl⟩

/-- Running a command whose place in the mailbox is known. -/
theorem HeadFirst.dispatch {c : Command} {rest : List Command} (h : HeadFirst s) (idle : s.worker = .idle)
    (mailbox : s.emitter.mailbox = c :: rest) (live : s.live = true) :
    HeadFirst (process { s with emitter := { s.emitter with mailbox := rest } } c) := by
  have queued (running : s.emitter.writer.stopped = false) := h.queued live running
  rw [mailbox] at queued
  have owed := fun on => h.serves (.inr (.inr on))
  cases c with
  | startResponse => exact {
      queued := fun _ _ => .inl (by simp [process])
      reads := fun _ _ => by simp [process]
      serves := fun _ => by simp [process]
      ordered := h.ordered.concat (by simp [Native.isSendvec]) }
  | sendInformational => exact {
      queued := fun _ running => (queued running).imp (List.mem_append_left _) fun first => first.tail (by simp)
      reads := fun at_ => by simp [process, idle] at at_
      serves := fun on => List.mem_append_left _ (h.serves on)
      ordered := h.ordered.concat (by simp [Native.isSendvec]) }
  | sendFixedFinal => exact {
      queued := fun _ running => (queued running).imp (List.mem_append_left _) fun first => first.tail (by simp)
      reads := fun at_ => by simp [process, idle] at at_
      serves := fun on => List.mem_append_left _ (h.serves on)
      ordered := h.ordered.concat (by simp [Native.isSendvec]) }
  | sendvec => exact {
      queued := fun _ running => .inl ((queued running).resolve_right fun first => first.head rfl)
      reads := fun _ running => (queued running).resolve_right fun first => first.head rfl
      serves := fun on => owed (by simpa [process, Worker.maySend, Worker.proceeds] using on)
      ordered := h.ordered }

theorem HeadFirst.drop {rest : List Command} (h : HeadFirst s) (dead : s.live = false) :
    HeadFirst { s with emitter := { s.emitter with mailbox := rest } } where
  queued live := by simp [dead] at live
  reads := h.reads
  serves := h.serves
  ordered := h.ordered

theorem HeadFirst.aside (h : HeadFirst s) (aside : Aside a s t) : HeadFirst t := by
  have kept (started : Native.startResponse ∈ s.log) : .startResponse ∈ t.log := by
    rcases aside.log with same | ⟨-, log⟩
    · rwa [same]
    · rw [log]
      exact List.mem_append_left _ started
  have frames (on : t.worker.maySend = true ∨ t.worker.proceeds = true ∨ 0 < t.emitter.writer.owed) :
      s.worker.maySend = true ∨ s.worker.proceeds = true ∨ 0 < s.emitter.writer.owed := by
    rw [aside.owed] at on
    rcases aside.worker with same | ⟨-, -, stopping⟩
    · rwa [same] at on
    · rw [stopping] at on
      exact .inr (.inr (by simpa [Worker.maySend, Worker.proceeds] using on))
  exact {
    queued := fun live running => by
      rw [aside.mailbox]
      exact (h.queued (aside.live_before live) (aside.stopped.symm.trans running)).imp_left kept
    reads := fun at_ running => by
      rcases aside.worker with same | ⟨-, -, stopping⟩
      · exact kept (h.reads (same.symm.trans at_) (aside.stopped.symm.trans running))
      · simp [stopping] at at_
    serves := fun on => kept (h.serves (frames on))
    ordered := by
      rcases aside.log with same | ⟨-, log⟩
      · rw [same]
        exact h.ordered
      · rw [log]
        exact h.ordered.concat (by simp [Native.isSendvec]) }

theorem HeadFirst.step [DecidableEq ι] (h : HeadFirst s) (allowed : afterHead a s)
    (moves : step cfg a s = some t) : HeadFirst t := by
  rcases step_cases moves with ⟨i, move, e, p, rfl, moved, rfl⟩ | ⟨move, w, k, -, callback, moved, rfl⟩ |
    ⟨c, rest, -, idle, queued, rfl⟩ | aside
  · exact h.thread allowed (threadStep_spec moved)
  · exact h.worker (workerStep_budget moved).stopped callback (workerStep_turn moved)
  · split
    · rename_i live
      exact h.dispatch idle queued live
    · rename_i dead
      exact h.drop (by simpa using dead)
  · exact h.aside aside

theorem headFirst_of_afterHead [DecidableEq ι] (h : (machine ι cfg).ReachableVia afterHead s) :
    HeadFirst s := by
  refine h.invariant ?_ fun a s t hs allowed moves => hs.step allowed moves
  rintro _ ⟨pool, -, rfl⟩
  refine ⟨fun _ _ => .inr preceded_nil, by simp [freshState], ?_, preceded_nil⟩
  simp [freshState, ResponseQueue.freshState, Worker.maySend, Worker.proceeds]

/-- The order of the calls on h2o that the generator interface asks for. -/
structure BodyOrder (log : List Native) : Prop where
  started : Preceded (fun c => c.isSendvec = true) (· = .startResponse) log
  unanswered : ∀ final, .sendvec final ∈ log → .sendFixedFinal ∉ log
  final : NoneAfter (· = .sendvec true) (fun c => c.isSendvec = true) log

theorem bodyOrder_of_afterHead [DecidableEq ι] (h : (machine ι cfg).ReachableVia afterHead s) :
    BodyOrder s.log where
  started := (headFirst_of_afterHead h).ordered
  unanswered := by
    intro final sent whole
    obtain ⟨front, back, split⟩ := List.append_of_mem sent
    obtain ⟨c, early, rfl⟩ := (headFirst_of_afterHead h).ordered front (.sendvec final) back split rfl
    have started : s.started := .inr (by simp [split, early])
    exact (oneAnswer_of_reachable h.reachable).either ⟨started, .inr (.inr whole)⟩
  final := (finalLast_of_reachable h.reachable).last

/-- `n` steps without a choice inside a call on the out-stream. -/
def ticks (n : ℕ) : List Move := List.replicate n (.frame .tick)

/-- One thread emits a response with a streamed body of one byte and closes after it;
meanwhile another emits a second byte. -/
def emitters : List (Action Bool) := List.flatten [
  List.map (.thread true) [.call (.emit ⟨.map ⟨some 200, .other, false, true, true, .absent⟩, true⟩),
    .tick, .tick, .tick, .tick, .tick, .tick, .reply .accepted],
  List.map (.thread false) [.call (.emit ⟨.body, false⟩), .tick, .tick, .tick, .tick, .tick],
  List.map (.thread false) (List.flatten [[.frame (.call (.write [1]))], ticks 3,
    [.frame (.borrow (.fresh 8))], ticks 3, [.finish]]),
  List.map (.thread true) (List.flatten [[.tick, .tick, .frame (.call (.write [2]))], ticks 5,
    [.finish], List.replicate 3 .tick, ticks 14, [.frame (.reply true), .finish, .tick]]),
  [.dispatch, .dispatch], List.replicate 7 (.worker .tick)]

def emitted : State Bool :=
  (machine Bool smallQueue).runFromVia afterHead emitters (freshState Bool smallQueue emptyPool)

theorem bodyOrder_emitted : BodyOrder emitted.log ∧ emitted.log = [.startResponse, .sendvec true] :=
  ⟨bodyOrder_of_afterHead ((Machine.ReachableVia.init (m := machine Bool smallQueue)
    ⟨emptyPool, emptyPool_sound, rfl⟩).runFromVia _), by decide +kernel⟩

/-- `close` on an emitter that nothing was emitted on. -/
def closeFresh : List (Action Bool) := List.flatten [
  List.map (.thread true) (List.flatten [[.call .close], List.replicate 5 .tick, ticks 11,
    [.frame (.reply true), .finish, .tick]]),
  [.dispatch], List.replicate 5 (.worker .tick)]

def closedFresh : State Bool :=
  (machine Bool smallQueue).runFrom closeFresh (freshState Bool smallQueue emptyPool)

/-- The final send goes to h2o for a request whose response never starts. -/
theorem sendBeforeHead : (machine Bool smallQueue).Reachable closedFresh ∧
    closedFresh.log = [.sendvec true] ∧ ¬BodyOrder closedFresh.log := by
  have log : closedFresh.log = [.sendvec true] := by decide +kernel
  refine ⟨(Machine.Reachable.init (m := machine Bool smallQueue)
    ⟨emptyPool, emptyPool_sound, rfl⟩).runFrom _, log, fun order => ?_⟩
  rw [log] at order
  exact order.started.head rfl

end Busker.Emitter
