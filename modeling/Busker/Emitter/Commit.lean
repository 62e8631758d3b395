import Busker.Emitter.Delivery
import Busker.Interleaving.Order
import Busker.Interleaving.Threads
import Busker.ResponseQueue.NoLostDrain

/-! At most one response is committed. The thread that swaps the head into `committed_`
is the only one to schedule a response, and schedules one of the two kinds. -/

namespace Busker.Emitter

open ResponseQueue Interleaving

namespace Point

/-- Past the swap of `committed_` and before a response is accepted. -/
def commits : Point → Bool
  | .publish _ | .postFixedFinal _ | .startWriter _ | .postStart _ => true
  | _ => false

/-- The commands a step puts in the mailbox. -/
def posting : Point → Move → List Command
  | .postInformational, .reply .accepted => [.sendInformational]
  | .postFixedFinal _, .reply .accepted => [.sendFixedFinal]
  | .postStart _, .reply .accepted => [.startResponse]
  | .stream frame _, .frame move | .flushing frame, .frame move | .closing frame, .frame move =>
    posts frame move
  | _, _ => []

/-- The direct responses a step publishes. -/
def publishing : Point → Move → ℕ
  | .publish _, .reply .accepted => 1
  | _, _ => 0

end Point

/-- What a thread's step does to the responses and commands. -/
structure ThreadSpec (e f : ResponseEmitter) (p q : Point) (move : Move) : Prop where
  mailbox : f.mailbox = e.mailbox ++ p.posting move
  ring : f.ring = e.ring + p.publishing move
  stopped : e.writer.stopped = true → f.writer.stopped = true
  owed : f.writer.owed = e.writer.owed
  committed : e.committed = .head → f.committed = .head
  commits : q.commits = true → p.commits = true ∧ p.posting move = [] ∧ p.publishing move = 0 ∨
    p.commits = false ∧ e.committed ≠ .head ∧ f.committed = .head
  answers : .startResponse ∈ p.posting move ∨ .sendFixedFinal ∈ p.posting move ∨ 0 < p.publishing move →
    p.commits = true
  either : .startResponse ∈ p.posting move → .sendFixedFinal ∉ p.posting move ∧ p.publishing move = 0

theorem posts_mem {p : Producer} {move : ProducerMove} {c : Command} (h : c ∈ posts p move) :
    c = .sendvec := by
  unfold posts at h
  split at h
  · exact List.mem_singleton.mp h
  · simp at h

/-- A step that posts nothing and leaves the writer alone. -/
theorem ThreadSpec.quiet {e f : ResponseEmitter} {p q : Point} {move : Move}
    (posting : p.posting move = []) (publishing : p.publishing move = 0)
    (mailbox : f.mailbox = e.mailbox) (ring : f.ring = e.ring) (writer : f.writer = e.writer)
    (committed : e.committed = .head → f.committed = .head)
    (commits : q.commits = true →
      p.commits = true ∨ p.commits = false ∧ e.committed ≠ .head ∧ f.committed = .head) :
    ThreadSpec e f p q move where
  mailbox := by rw [posting, mailbox, List.append_nil]
  ring := by rw [publishing, ring, Nat.add_zero]
  stopped := by rw [writer]; exact id
  owed := by rw [writer]
  committed := committed
  commits on := (commits on).imp_left fun before => ⟨before, posting, publishing⟩
  answers := by simp [posting, publishing]
  either := by simp [posting]

/-- A step that also leaves the response to others. -/
theorem ThreadSpec.calm {e f : ResponseEmitter} {p q : Point} {move : Move}
    (posting : p.posting move = []) (publishing : p.publishing move = 0)
    (mailbox : f.mailbox = e.mailbox) (ring : f.ring = e.ring) (writer : f.writer = e.writer)
    (committed : e.committed = .head → f.committed = .head) (commits : q.commits = false) :
    ThreadSpec e f p q move :=
  .quiet posting publishing mailbox ring writer committed (by simp [commits])

/-- A step inside a call on the out-stream. -/
theorem ThreadSpec.frame {cfg : Config} {api : ResponseQueue.Call → Bool} {e f : ResponseEmitter}
    {frame next : Producer} {p q : Point} {move : ProducerMove}
    (posting : p.posting (.frame move) = posts frame move) (publishing : p.publishing (.frame move) = 0)
    (commits : q.commits = false) (h : frameStep cfg api e frame move = some (f, next)) :
    ThreadSpec e f p q (.frame move) := by
  unfold frameStep at h
  split at h
  · obtain ⟨⟨w, r⟩, moved, same⟩ := Option.map_eq_some_iff.mp h
    obtain ⟨rfl, rfl⟩ := Prod.mk.inj same
    exact {
      mailbox := by rw [posting]
      ring := by rw [publishing]; rfl
      stopped := (producerStep_budget moved).stopped
      owed := (producerStep_post moved).owed
      committed := id
      commits := by simp [commits]
      answers := by
        rw [posting, publishing]
        rintro (mem | mem | mem)
        · exact absurd (posts_mem mem) (by simp)
        · exact absurd (posts_mem mem) (by simp)
        · simp at mem
      either := by
        rw [posting]
        intro mem
        exact absurd (posts_mem mem) (by simp) }
  · contradiction

/-- `on-stop` only sets `stopped?_` and empties the writer. -/
theorem stopStep_owed {cfg : Config} {w v : Writer} {k l : Worker} {move : WorkerMove}
    (frame : k.stops = true) (h : workerStep cfg w k move = some (v, l)) : v.owed = w.owed := by
  cases k <;> simp only [Worker.stops, Bool.false_eq_true] at frame <;> cases move <;>
    simp only [workerStep, reduceCtorEq, Option.some.injEq, Prod.mk.injEq] at h
  case stopClose.tick =>
    split at h <;> obtain ⟨rfl, rfl⟩ := Prod.mk.inj (Option.some.inj h) <;> rfl
  case stopRelease.tick =>
    unfold Queue.release at h
    split_ifs at h <;> obtain ⟨rfl, rfl⟩ := h <;> rfl
  all_goals
    obtain ⟨rfl, rfl⟩ := h
    rfl

theorem enter_commits (emit : Emit) : (enter emit).commits = false := by
  obtain ⟨data, closeAfter⟩ := emit
  cases data with
  | body => rfl
  | map response =>
    unfold enter
    dsimp only
    cases response.status with
    | none => rfl
    | some status =>
      dsimp only
      split <;> rfl

theorem commitFinal_commits (emit : Emit) : (commitFinal emit).commits = false := by
  unfold commitFinal
  split <;> rfl

theorem sendInformational_commits (response : Response) : (sendInformational response).commits = false := by
  unfold sendInformational
  split <;> rfl

theorem afterStop_commits (accepted : Bool) (emit : Emit) : (afterStop accepted emit).commits = false := by
  cases accepted <;> rfl

theorem afterBody_commits (closeAfter : Bool) : (afterBody closeAfter).commits = false := by
  cases closeAfter <;> rfl

theorem emitBody_commits (withBody : Bool) (emit : Emit) : (emitBody withBody emit).commits = false := by
  obtain ⟨data, closeAfter⟩ := emit
  cases data with
  | body => rfl
  | map response =>
    unfold emitBody
    dsimp only
    split
    · rfl
    · exact afterBody_commits _

theorem threadStep_spec {cfg : Config} {e f : ResponseEmitter} {p q : Point} {move : Move}
    (h : threadStep cfg e p move = some (f, q)) : ThreadSpec e f p q move := by
  cases p <;> cases move <;>
    simp only [threadStep, reduceCtorEq, Option.some.injEq, Prod.mk.injEq] at h
  case idle.call c =>
    cases c <;> obtain ⟨rfl, rfl⟩ := Prod.mk.inj (Option.some.inj h) <;>
      exact .calm rfl rfl rfl rfl rfl id rfl
  case openPhase.tick created emit =>
    obtain ⟨rfl, rfl⟩ := h
    refine .calm rfl rfl rfl rfl rfl id ?_
    split_ifs
    · rfl
    · exact enter_commits emit
    · rfl
  case openStopped.tick emit =>
    obtain ⟨rfl, rfl⟩ := h
    refine .calm rfl rfl rfl rfl rfl id ?_
    split
    · rfl
    · exact enter_commits emit
  case markRead.tick response =>
    obtain ⟨rfl, rfl⟩ := h
    refine .calm rfl rfl rfl rfl rfl id ?_
    cases e.committed <;> first | rfl | exact sendInformational_commits response
  case markSwap.tick response =>
    split at h <;> rename_i state <;> obtain ⟨rfl, rfl⟩ := Prod.mk.inj (Option.some.inj h)
    · exact .calm rfl rfl rfl rfl rfl (by simp [state]) (sendInformational_commits response)
    · exact .calm rfl rfl rfl rfl rfl id rfl
  case postInformational.reply r =>
    obtain ⟨rfl, rfl⟩ := h
    cases r <;> exact ⟨by simp [Point.posting], rfl, id, rfl, id, by simp [Point.commits],
      by simp [Point.posting, Point.publishing], by simp [Point.posting]⟩
  case emitCommitted.tick emit | emitState.tick emit =>
    obtain ⟨rfl, rfl⟩ := h
    refine .calm rfl rfl rfl rfl rfl id ?_
    split
    · rfl
    · exact commitFinal_commits emit
  case commitSwap.tick state emit =>
    split at h <;> obtain ⟨rfl, rfl⟩ := Prod.mk.inj (Option.some.inj h)
    · rename_i open_
      refine .quiet rfl rfl rfl rfl rfl (fun _ => rfl) fun _ => .inr ⟨rfl, ?_, rfl⟩
      rw [open_.2]
      exact open_.1
    · exact .calm rfl rfl rfl rfl rfl id rfl
  case publish.reply emit r =>
    obtain ⟨rfl, rfl⟩ := h
    cases r <;> exact ⟨by simp [Point.posting], rfl, id, rfl, id,
      by simp [Point.commits, Point.posting, Point.publishing, afterFixed], fun _ => rfl,
      by simp [Point.posting]⟩
  case postFixedFinal.reply emit r =>
    obtain ⟨rfl, rfl⟩ := h
    cases r <;> exact ⟨by simp [Point.posting], rfl, id, rfl, id,
      by simp [Point.commits, Point.posting, Point.publishing, afterFixed], fun _ => rfl, by simp [Point.posting]⟩
  case fixedCreated.tick accepted emit =>
    obtain ⟨rfl, rfl⟩ := h
    refine .calm rfl rfl rfl rfl rfl id ?_
    split
    · rfl
    · exact afterStop_commits accepted emit
  case stopping.stop frame accepted emit move =>
    split at h
    · rename_i stops
      obtain ⟨⟨w, next⟩, moved, h⟩ := Option.map_eq_some_iff.mp h
      obtain ⟨rfl, rfl⟩ := Prod.mk.inj h
      refine ⟨(List.append_nil _).symm, rfl, (workerStep_budget moved).stopped, stopStep_owed stops moved, id, ?_,
        by simp [Point.posting, Point.publishing], by simp [Point.posting]⟩
      dsimp only
      split
      · simp [Point.commits]
      · simp [afterStop_commits]
    · contradiction
  case startWriter.tick emit =>
    obtain ⟨rfl, rfl⟩ := h
    exact .quiet rfl rfl rfl rfl rfl id fun _ => .inl rfl
  case postStart.reply emit r =>
    split at h <;> rename_i answer <;> obtain ⟨rfl, rfl⟩ := Prod.mk.inj (Option.some.inj h)
    · obtain rfl := answer
      exact ⟨rfl, rfl, id, rfl, id, by simp [Point.commits], fun _ => rfl, by simp [Point.posting, Point.publishing]⟩
    · cases r <;> first | contradiction | exact .calm rfl rfl rfl rfl rfl id rfl
  case reset.tick withBody emit =>
    obtain ⟨rfl, rfl⟩ := h
    exact .calm rfl rfl rfl rfl rfl (fun _ => rfl) (emitBody_commits withBody emit)
  case stream.frame frame closeAfter move | flushing.frame frame move | closing.frame frame move =>
    obtain ⟨⟨g, next⟩, moved, h⟩ := Option.map_eq_some_iff.mp h
    obtain ⟨rfl, rfl⟩ := Prod.mk.inj h
    exact .frame rfl rfl rfl moved
  case stream.finish frame closeAfter =>
    split at h
    · obtain ⟨rfl, rfl⟩ := Prod.mk.inj (Option.some.inj h)
      exact .calm rfl rfl rfl rfl rfl id (afterBody_commits closeAfter)
    · contradiction
  case flushing.finish frame | closing.finish frame =>
    split at h
    · obtain ⟨rfl, rfl⟩ := Prod.mk.inj (Option.some.inj h)
      exact .calm rfl rfl rfl rfl rfl id rfl
    · contradiction
  case beginClose.tick writer =>
    split at h <;> obtain ⟨rfl, rfl⟩ := Prod.mk.inj (Option.some.inj h)
    · refine .calm rfl rfl rfl rfl rfl id ?_
      split <;> rfl
    · exact .calm rfl rfl rfl rfl rfl id rfl
  case closeCreated.tick | closeCommitted.tick | closeStopped.tick | closeFailed.tick =>
    obtain ⟨rfl, rfl⟩ := h
    refine .calm rfl rfl rfl rfl rfl id ?_
    split <;> rfl
  all_goals
    obtain ⟨rfl, rfl⟩ := h
    exact .calm rfl rfl rfl rfl rfl id rfl

variable {ι : Type*}

/-- The start of the response has been accepted. -/
def State.started (s : State ι) : Prop :=
  Command.startResponse ∈ s.emitter.mailbox ∨ Native.startResponse ∈ s.log

/-- A whole response has been accepted. -/
def State.answered (s : State ι) : Prop :=
  Command.sendFixedFinal ∈ s.emitter.mailbox ∨ 0 < s.emitter.ring ∨ Native.sendFixedFinal ∈ s.log

instance (s : State ι) : Decidable s.started := inferInstanceAs (Decidable (_ ∨ _))

structure OneAnswer (s : State ι) : Prop where
  committed : s.started ∨ s.answered ∨ (∃ i, (s.pc i).commits = true) → s.emitter.committed = .head
  commits : ∀ i, (s.pc i).commits = true → ¬s.started ∧ ¬s.answered
  alone : ∀ i j, (s.pc i).commits = true → (s.pc j).commits = true → i = j
  either : ¬(s.started ∧ s.answered)

variable {cfg : Config} {s t : State ι} {a : Action ι}

/-- The worker accepts no response: it only runs what it was given. -/
structure WorkerSide (s t : State ι) : Prop where
  pc : t.pc = s.pc
  committed : t.emitter.committed = s.emitter.committed
  started : t.started → s.started
  answered : t.answered → s.answered

theorem natives_mem {k : Worker} {move : WorkerMove} {c : Native} (h : c ∈ natives k move) :
    ∃ final, c = .sendvec final := by
  unfold natives at h
  split at h
  · exact ⟨_, List.mem_singleton.mp h⟩
  · simp at h

theorem process_side {c : Command} {rest : List Command} (queued : s.emitter.mailbox = c :: rest) :
    WorkerSide s (process { s with emitter := { s.emitter with mailbox := rest } } c) := by
  cases c <;> refine ⟨rfl, rfl, ?_, ?_⟩ <;>
    simp [process, State.started, State.answered, queued]

theorem Aside.side (h : Aside a s t) : WorkerSide s t := by
  refine ⟨h.pc, h.committed, ?_, ?_⟩ <;> simp only [State.started, State.answered, h.mailbox]
  · rcases h.log with same | ⟨-, log⟩
    · rw [same]
      exact id
    · simp [log]
  · have := h.ring
    rcases h.log with same | ⟨pending, -⟩
    · rw [same]
      exact Or.imp_right (Or.imp_left (lt_of_lt_of_le · this))
    · exact fun _ => .inr (.inl pending)

theorem step_side [DecidableEq ι] (h : step cfg a s = some t) :
    (∃ i move e p, a = .thread i move ∧ threadStep cfg s.emitter (s.pc i) move = some (e, p) ∧
      t = { s with emitter := e, pc := Function.update s.pc i p }) ∨ WorkerSide s t := by
  rcases step_cases h with thread | ⟨move, w, k, -, -, moved, rfl⟩ | ⟨c, rest, -, -, queued, rfl⟩ | aside
  · exact .inl thread
  · refine .inr ⟨rfl, rfl, Or.imp_right ?_, Or.imp_right (Or.imp_right ?_)⟩ <;> intro mem <;>
      refine (List.mem_append.mp mem).resolve_right fun new => ?_ <;>
      obtain ⟨final, same⟩ := natives_mem new <;> contradiction
  · split
    · exact .inr (process_side queued)
    · refine .inr ⟨rfl, rfl, ?_, ?_⟩ <;> simp only [State.started, State.answered, queued] <;>
        exact Or.imp_left (List.mem_cons_of_mem _)
  · exact .inr aside.side

theorem OneAnswer.side (h : OneAnswer s) (side : WorkerSide s t) : OneAnswer t where
  committed on := by
    rw [side.committed]
    refine h.committed (on.imp side.started (Or.imp side.answered ?_))
    rw [side.pc]
    exact id
  commits i on := by
    rw [side.pc] at on
    exact (h.commits i on).imp (mt side.started) (mt side.answered)
  alone := by
    rw [side.pc]
    exact h.alone
  either both := h.either (both.imp side.started side.answered)

variable [DecidableEq ι]

/-- What a step adds to the responses accepted. -/
def Point.posted (p : Point) (move : Move) : Prop :=
  .startResponse ∈ p.posting move ∨ .sendFixedFinal ∈ p.posting move ∨ 0 < p.publishing move

theorem ThreadSpec.posted {e f : ResponseEmitter} {p q : Point} {move : Move}
    (h : ThreadSpec e f p q move) (posted : p.posted move) : p.commits = true ∧ q.commits = false := by
  have before := h.answers posted
  refine ⟨before, Bool.eq_false_iff.mpr fun after => ?_⟩
  rcases h.commits after with ⟨-, posting, publishing⟩ | ⟨never, -, -⟩
  · simp [Point.posted, posting, publishing] at posted
  · simp [before] at never

theorem OneAnswer.thread {i : ι} {move : Move} {e : ResponseEmitter} {p : Point} (h : OneAnswer s)
    (spec : ThreadSpec s.emitter e (s.pc i) p move) :
    OneAnswer { s with emitter := e, pc := Function.update s.pc i p } := by
  set t : State ι := { s with emitter := e, pc := Function.update s.pc i p }
  have started : t.started → s.started ∨ .startResponse ∈ (s.pc i).posting move := by
    simp only [State.started, t, spec.mailbox, List.mem_append]
    tauto
  have answered : t.answered → s.answered ∨
      .sendFixedFinal ∈ (s.pc i).posting move ∨ 0 < (s.pc i).publishing move := by
    simp only [State.answered, t, spec.mailbox, spec.ring, List.mem_append]
    have : 0 < s.emitter.ring + (s.pc i).publishing move →
      0 < s.emitter.ring ∨ 0 < (s.pc i).publishing move := by omega
    tauto
  have self : t.pc i = p := Function.update_self ..
  have other : ∀ j, j ≠ i → t.pc j = s.pc j := fun j hj => Function.update_of_ne hj ..
  -- Whoever commits now did before, or has just won the swap.
  have entered : ∀ j, (t.pc j).commits = true →
      (s.pc j).commits = true ∧ ¬(s.pc i).posted move ∨
        j = i ∧ (s.pc i).commits = false ∧ s.emitter.committed ≠ .head ∧ e.committed = .head := by
    intro j on
    by_cases hj : j = i
    · subst hj
      rw [self] at on
      rcases spec.commits on with ⟨before, posting, publishing⟩ | ⟨before, free, taken⟩
      · exact .inl ⟨before, by simp [Point.posted, posting, publishing]⟩
      · exact .inr ⟨rfl, before, free, taken⟩
    · rw [other j hj] at on
      exact .inl ⟨on, fun posted => hj (h.alone j i on (spec.posted posted).1)⟩
  have free_of (free : s.emitter.committed ≠ .head) :
      ¬s.started ∧ ¬s.answered ∧ ∀ j, (s.pc j).commits = false := by
    refine ⟨fun on => free (h.committed (.inl on)), fun on => free (h.committed (.inr (.inl on))), fun j => ?_⟩
    exact Bool.eq_false_iff.mpr fun on => free (h.committed (.inr (.inr ⟨j, on⟩)))
  exact {
    committed := by
      have posted_head (posted : (s.pc i).posted move) : e.committed = .head :=
        spec.committed (h.committed (.inr (.inr ⟨i, (spec.posted posted).1⟩)))
      rintro (on | on | ⟨j, on⟩)
      · exact (started on).elim (fun on => spec.committed (h.committed (.inl on))) fun on => posted_head (.inl on)
      · exact (answered on).elim (fun on => spec.committed (h.committed (.inr (.inl on))))
          fun on => posted_head (.inr on)
      · rcases entered j on with ⟨before, -⟩ | ⟨-, -, -, taken⟩
        · exact spec.committed (h.committed (.inr (.inr ⟨j, before⟩)))
        · exact taken
    commits := by
      intro j on
      rcases entered j on with ⟨before, quiet⟩ | ⟨-, idle, free, -⟩
      · obtain ⟨unstarted, unanswered⟩ := h.commits j before
        exact ⟨fun on => (started on).elim unstarted fun on => quiet (.inl on),
          fun on => (answered on).elim unanswered fun on => quiet (.inr on)⟩
      · obtain ⟨unstarted, unanswered, -⟩ := free_of free
        have quiet : ¬(s.pc i).posted move := fun posted => by simp [(spec.posted posted).1] at idle
        exact ⟨fun on => (started on).elim unstarted fun on => quiet (.inl on),
          fun on => (answered on).elim unanswered fun on => quiet (.inr on)⟩
    alone := by
      intro j k hj hk
      rcases entered j hj with ⟨before, -⟩ | ⟨rfl, -, free, -⟩ <;>
        rcases entered k hk with ⟨also, -⟩ | ⟨rfl, -, free, -⟩
      · exact h.alone j k before also
      · simp [(free_of free).2.2 j] at before
      · simp [(free_of free).2.2 k] at also
      · rfl
    either := by
      rintro ⟨on, whole⟩
      rcases started on with before | posting
      · rcases answered whole with whole | posted
        · exact h.either ⟨before, whole⟩
        · exact (h.commits i (spec.answers (.inr posted))).1 before
      · rcases answered whole with whole | posted
        · exact (h.commits i (spec.answers (.inl posting))).2 whole
        · obtain ⟨none, unpublished⟩ := spec.either posting
          simp [none, unpublished] at posted }

theorem OneAnswer.step (h : OneAnswer s) (moves : step cfg a s = some t) : OneAnswer t := by
  rcases step_side moves with ⟨i, move, e, p, -, moved, rfl⟩ | side
  · exact h.thread (threadStep_spec moved)
  · exact h.side side

theorem oneAnswer_of_reachable (h : (machine ι cfg).Reachable s) : OneAnswer s := by
  refine h.invariant ?_ fun a s t hs moves => hs.step moves
  rintro _ ⟨pool, -, rfl⟩
  refine ⟨?_, ?_, ?_, ?_⟩ <;> simp [freshState, State.started, State.answered, Point.commits]

end Busker.Emitter
