import Busker.Emitter.Informational

/-! A final response that is emitted is scheduled. Where every swap of `committed_` that
fails has lost to a head, the emitter ends with exactly one head. A swap that loses to
an informational mark is not tried again, and its response is lost. -/

namespace Busker.Emitter

open ResponseQueue Interleaving

/-- A final response map, or body data. `commit-final!` takes a missing status for 200. -/
def Emit.isFinal (e : Emit) : Bool := e.data.response.status.all finalStatus

/-- One that `emit!` does not throw for before the swap of `committed_`. -/
def Emit.sendable (e : Emit) : Bool := e.data.response.status.any finalStatus && e.plans

namespace Point

/-- Before the swap, with a final response that gets to it. -/
def pursues : Point → Bool
  | .openCreated e | .openPhase _ e | .openStopped e | .emitCommitted e | .emitState e | .commitRead e
  | .commitSwap _ e => e.sendable
  | _ => false

/-- Past the swap, on the way to a head that can be sent. -/
def answers : Point → Bool
  | .publish e | .postFixedFinal e | .startWriter e | .postStart e => e.data.response.lengthOk
  | _ => false

/-- Not before the swap of a call of `emit!`. -/
def late : Point → Bool
  | .idle | .openCreated _ | .openPhase _ _ | .openStopped _ | .markRead _ | .markSwap _
  | .postInformational | .emitCommitted _ | .emitState _ | .commitRead _ | .commitSwap _ _ => false
  | _ => true

/-- The response was not accepted. -/
def rejected : Point → Bool
  | .fixedCreated accepted _ | .stopping _ accepted _ => !accepted
  | _ => false

/-- The heads a step schedules. -/
def heads (p : Point) (move : Move) : ℕ := (p.posting move).countP (·.isHead) + p.publishing move

end Point

/-- `emit!` is the only call, and every command is accepted; the ring may be full. -/
def Accepting (p : Point) : Move → Prop
  | .call (.emit _) => True
  | .call _ => False
  | .reply r => r = .accepted ∨ p.publishes = true ∧ r = .overloaded
  | .frame (.reply accepted) => accepted = true
  | _ => True

/-- A swap of `committed_` fails against a head only, and is not won by a response whose
content-length is bad. -/
def Undisturbed (e : ResponseEmitter) : Point → Move → Prop
  | .commitSwap state emit, .tick =>
    e.committed = .head ∨ e.committed = state ∧ emit.data.response.lengthOk = true
  | _, _ => True

/-- What a thread's step does to the final responses. -/
structure FinalSpec (e f : ResponseEmitter) (p q : Point) (move : Move) : Prop where
  answers : p.answers = true → q.answers = true ∨ p.heads move = 1
  enters : e.committed ≠ .head → f.committed = .head → q.answers = true
  late : q.late = true → p.late = true ∨ f.committed = .head
  early : p.late = false → f.phase = e.phase ∧ f.writer = e.writer ∧ .sendvec ∉ p.posting move
  rejected : q.rejected = true → p.rejected = true
  pursues : p.pursues = true → q.pursues = true ∨ f.committed = .head

/-- A step past the swap. -/
theorem FinalSpec.after {e f : ResponseEmitter} {p q : Point} {move : Move} (late : p.late = true)
    (head : e.committed = .head) (answers : p.answers = true → q.answers = true ∨ p.heads move = 1)
    (rejected : q.rejected = true → p.rejected = true) (pursues : p.pursues = false) :
    FinalSpec e f p q move where
  answers := answers
  enters before _ := absurd head before
  late _ := .inl late
  early on := by simp [late] at on
  rejected := rejected
  pursues on := by simp [pursues] at on

/-- A step before the swap that leaves `committed_` to others. -/
theorem FinalSpec.before {e f : ResponseEmitter} {p q : Point} {move : Move}
    (answers : p.answers = false) (committed : e.committed ≠ .head → f.committed ≠ .head)
    (phase : f.phase = e.phase) (writer : f.writer = e.writer) (posting : .sendvec ∉ p.posting move)
    (stays : q.late = false) (rejected : q.rejected = false)
    (pursues : p.pursues = true → q.pursues = true ∨ f.committed = .head) : FinalSpec e f p q move where
  answers on := by simp [answers] at on
  enters before head := absurd head (committed before)
  late on := by simp [stays] at on
  early _ := ⟨phase, writer, posting⟩
  rejected on := by simp [rejected] at on
  pursues := pursues

theorem enter_final (emit : Emit) : (enter emit).late = false ∧ (enter emit).rejected = false ∧
    (emit.sendable = true → (enter emit).pursues = true) := by
  obtain ⟨data, closeAfter⟩ := emit
  cases data with
  | body => exact ⟨rfl, rfl, id⟩
  | map response =>
    unfold enter
    dsimp only
    rcases status : response.status with _ | status
    · simp [Point.late, Point.rejected, Emit.sendable, Data.response, status]
    · dsimp only
      split
      · rename_i informational
        refine ⟨rfl, rfl, fun final => ?_⟩
        simp only [Emit.sendable, Data.response, status, finalStatus, Option.any_some, Bool.and_eq_true,
          decide_eq_true_eq] at final
        simp only [informationalStatus, Bool.and_eq_true, decide_eq_true_eq] at informational
        omega
      · exact ⟨rfl, rfl, id⟩

theorem sendInformational_final (response : Response) :
    (sendInformational response).late = false ∧ (sendInformational response).rejected = false := by
  unfold sendInformational
  split <;> exact ⟨rfl, rfl⟩

theorem commitFinal_final (emit : Emit) : (commitFinal emit).late = false ∧
    (commitFinal emit).rejected = false ∧ (emit.sendable = true → (commitFinal emit).pursues = true) := by
  unfold commitFinal
  split
  · exact ⟨rfl, rfl, id⟩
  · rename_i refused
    exact ⟨rfl, rfl, fun final => absurd final refused⟩

theorem startResponse_final (emit : Emit) :
    (startResponse emit).rejected = false ∧
      (emit.data.response.lengthOk = true → (startResponse emit).answers = true) := by
  unfold startResponse
  split
  · exact ⟨rfl, id⟩
  · exact ⟨rfl, fun ok => by contradiction⟩

theorem afterSwap_final (state : Committed) (emit : Emit) (ok : emit.data.response.lengthOk = true) :
    (afterSwap state emit).answers = true ∧ (afterSwap state emit).rejected = false := by
  unfold afterSwap
  split_ifs
  · exact ⟨ok, rfl⟩
  · exact ⟨ok, rfl⟩
  · exact ⟨(startResponse_final emit).2 ok, (startResponse_final emit).1⟩

theorem emitBody_rejected (withBody : Bool) (emit : Emit) : (emitBody withBody emit).rejected = false := by
  obtain ⟨data, closeAfter⟩ := emit
  cases data with
  | body => rfl
  | map response =>
    unfold emitBody afterBody
    dsimp only
    split_ifs <;> rfl

theorem afterStop_rejected (accepted : Bool) (emit : Emit) : (afterStop accepted emit).rejected = false := by
  cases accepted <;> rfl

theorem threadStep_final {cfg : Config} {e f : ResponseEmitter} {p q : Point} {move : Move}
    (accepting : Accepting p move) (undisturbed : Undisturbed e p move)
    (open_ : e.committed ≠ .head → e.phase = .opened ∧ e.writer.stopped = false)
    (past : p.late = true → e.committed = .head) (h : threadStep cfg e p move = some (f, q)) :
    FinalSpec e f p q move := by
  cases p <;> cases move <;>
    simp only [threadStep, reduceCtorEq, Option.some.injEq, Prod.mk.injEq] at h
  case idle.call c =>
    cases c <;> obtain ⟨rfl, rfl⟩ := Prod.mk.inj (Option.some.inj h)
    case emit emit =>
      exact .before rfl id rfl rfl (by simp [Point.posting]) rfl rfl (by simp [Point.pursues])
    all_goals exact accepting.elim
  case openCreated.tick emit =>
    obtain ⟨rfl, rfl⟩ := h
    exact .before rfl id rfl rfl (by simp [Point.posting]) rfl rfl .inl
  case openPhase.tick created emit =>
    obtain ⟨rfl, rfl⟩ := h
    obtain ⟨early, accepted, pursues⟩ := enter_final emit
    refine .before rfl id rfl rfl (by simp [Point.posting]) ?_ ?_ fun final => ?_
    · split_ifs <;> first | rfl | exact early
    · split_ifs <;> first | rfl | exact accepted
    · rcases Classical.em (e.committed = .head) with head | before
      · exact .inr head
      · rw [if_pos (open_ before).1]
        split
        · exact .inl final
        · exact .inl (pursues final)
  case openStopped.tick emit =>
    obtain ⟨rfl, rfl⟩ := h
    obtain ⟨early, accepted, pursues⟩ := enter_final emit
    refine .before rfl id rfl rfl (by simp [Point.posting]) ?_ ?_ fun final => ?_
    · split <;> first | rfl | exact early
    · split <;> first | rfl | exact accepted
    · rcases Classical.em (e.committed = .head) with head | before
      · exact .inr head
      · rw [if_neg (by simp [(open_ before).2])]
        exact .inl (pursues final)
  case markRead.tick response =>
    obtain ⟨rfl, rfl⟩ := h
    obtain ⟨early, accepted⟩ := sendInformational_final response
    refine .before rfl id rfl rfl (by simp [Point.posting]) ?_ ?_ (by simp [Point.pursues]) <;>
      cases e.committed <;> first | rfl | exact early | exact accepted
  case markSwap.tick response =>
    split at h <;> obtain ⟨rfl, rfl⟩ := Prod.mk.inj (Option.some.inj h)
    · obtain ⟨early, accepted⟩ := sendInformational_final response
      exact .before rfl (by simp) rfl rfl (by simp [Point.posting]) early accepted (by simp [Point.pursues])
    · exact .before rfl id rfl rfl (by simp [Point.posting]) rfl rfl (by simp [Point.pursues])
  case postInformational.reply r =>
    obtain ⟨rfl, rfl⟩ := h
    refine .before rfl id rfl rfl ?_ rfl rfl (by simp [Point.pursues])
    cases r <;> simp [Point.posting]
  case emitCommitted.tick emit =>
    obtain ⟨rfl, rfl⟩ := h
    obtain ⟨early, accepted, pursues⟩ := commitFinal_final emit
    refine .before rfl id rfl rfl (by simp [Point.posting]) ?_ ?_ fun final => ?_
    · split <;> first | rfl | exact early
    · split <;> first | rfl | exact accepted
    · split
      · rename_i head
        exact .inr head
      · exact .inl (pursues final)
  case emitState.tick emit =>
    obtain ⟨rfl, rfl⟩ := h
    obtain ⟨early, accepted, pursues⟩ := commitFinal_final emit
    refine ⟨by simp [Point.answers], fun before head => absurd head before, fun on => .inr ?_,
      fun _ => ⟨rfl, rfl, by simp [Point.posting]⟩, fun on => ?_, fun final => ?_⟩
    · by_contra before
      rw [if_neg before, early] at on
      contradiction
    · split at on
      · contradiction
      · rw [accepted] at on
        contradiction
    · split
      · rename_i head
        exact .inr head
      · exact .inl (pursues final)
  case commitRead.tick emit =>
    obtain ⟨rfl, rfl⟩ := h
    exact .before rfl id rfl rfl (by simp [Point.posting]) rfl rfl .inl
  case commitSwap.tick state emit =>
    split at h <;> rename_i swap <;> obtain ⟨rfl, rfl⟩ := Prod.mk.inj (Option.some.inj h)
    · have ok : emit.data.response.lengthOk = true := by
        rcases undisturbed with head | ⟨-, ok⟩
        · exact absurd (swap.2.symm.trans head) swap.1
        · exact ok
      obtain ⟨answers, accepted⟩ := afterSwap_final state emit ok
      exact ⟨by simp [Point.answers], fun _ _ => answers, fun _ => .inr rfl,
        fun _ => ⟨rfl, rfl, by simp [Point.posting]⟩, by simp [accepted], fun _ => .inr rfl⟩
    · refine .before rfl id rfl rfl (by simp [Point.posting]) rfl rfl fun _ => .inr ?_
      rcases undisturbed with head | ⟨same, -⟩
      · exact head
      · by_contra free
        exact swap ⟨same ▸ free, same⟩
  case publish.reply emit r =>
    obtain ⟨rfl, rfl⟩ := h
    rcases accepting with rfl | ⟨-, rfl⟩
    · exact .after rfl (past rfl) (fun _ => .inr rfl) (by simp [afterFixed, Point.rejected]) rfl
    · obtain ⟨accepted, answers⟩ := startResponse_final emit
      exact .after rfl (past rfl) (fun ok => .inl (answers ok)) (by simp [afterFixed, accepted]) rfl
  case postFixedFinal.reply emit r =>
    obtain ⟨rfl, rfl⟩ := h
    rcases accepting with rfl | ⟨never, -⟩
    · exact .after rfl (past rfl) (fun _ => .inr rfl) (by simp [afterFixed, Point.rejected]) rfl
    · simp [Point.publishes] at never
  case startWriter.tick emit =>
    obtain ⟨rfl, rfl⟩ := h
    exact .after rfl (past rfl) .inl (by simp [Point.rejected]) rfl
  case postStart.reply emit r =>
    rcases accepting with rfl | ⟨never, -⟩
    · rw [if_pos rfl] at h
      obtain ⟨rfl, rfl⟩ := Prod.mk.inj (Option.some.inj h)
      exact .after rfl (past rfl) (fun _ => .inr rfl) (by simp [Point.rejected]) rfl
    · simp [Point.publishes] at never
  case fixedCreated.tick accepted emit =>
    obtain ⟨rfl, rfl⟩ := h
    refine .after rfl (past rfl) (by simp [Point.answers]) ?_ rfl
    split
    · exact id
    · simp [afterStop_rejected]
  case stopping.stop frame accepted emit move =>
    split at h
    · obtain ⟨⟨w, next⟩, -, h⟩ := Option.map_eq_some_iff.mp h
      obtain ⟨rfl, rfl⟩ := Prod.mk.inj h
      refine .after rfl (past rfl) (by simp [Point.answers]) ?_ rfl
      dsimp only
      split
      · exact id
      · simp [afterStop_rejected]
    · contradiction
  case reset.tick withBody emit =>
    obtain ⟨rfl, rfl⟩ := h
    exact .after rfl (past rfl) (by simp [Point.answers]) (by simp [emitBody_rejected]) rfl
  case stream.frame | flushing.frame | closing.frame =>
    obtain ⟨⟨g, next⟩, -, h⟩ := Option.map_eq_some_iff.mp h
    obtain ⟨rfl, rfl⟩ := Prod.mk.inj h
    exact .after rfl (past rfl) (by simp [Point.answers]) (by simp [Point.rejected]) rfl
  case stream.finish frame closeAfter =>
    split at h
    · obtain ⟨rfl, rfl⟩ := Prod.mk.inj (Option.some.inj h)
      cases closeAfter <;> exact .after rfl (past rfl) (by simp [Point.answers]) (by simp [afterBody, Point.rejected]) rfl
    · contradiction
  case flushing.finish | closing.finish =>
    split at h
    · obtain ⟨rfl, rfl⟩ := Prod.mk.inj (Option.some.inj h)
      exact .after rfl (past rfl) (by simp [Point.answers]) (by simp [Point.rejected]) rfl
    · contradiction
  case beginClose.tick writer =>
    split at h <;> obtain ⟨rfl, rfl⟩ := Prod.mk.inj (Option.some.inj h)
    · cases writer <;> exact .after rfl (past rfl) (by simp [Point.answers]) (by simp [Point.rejected]) rfl
    · exact .after rfl (past rfl) (by simp [Point.answers]) (by simp [Point.rejected]) rfl
  case closeCreated.tick | closeCommitted.tick | closeStopped.tick | closeFailed.tick =>
    obtain ⟨rfl, rfl⟩ := h
    refine .after rfl (past rfl) (by simp [Point.answers]) ?_ rfl
    split <;> simp [Point.rejected]
  all_goals
    obtain ⟨rfl, rfl⟩ := h
    exact .after rfl (past rfl) (by simp [Point.answers]) (by simp [Point.rejected]) rfl

variable {ι : Type*} {cfg : Config} {s t : State ι} {a : Action ι} {asked : Bool}

/-- The heads accepted so far. -/
def State.heads (s : State ι) : ℕ :=
  s.emitter.mailbox.countP (·.isHead) + s.emitter.ring + s.log.countP (·.isHead)

/-- Whether some call of `emit!` has been given a response of the kind `which`. -/
def asks (which : Emit → Bool) : Action ι → Bool → Bool
  | .thread _ (.call (.emit e)), asked => asked || which e
  | _, asked => asked

/-- A step in which `emit!` returns nil for a final response. -/
def returnsNil (e : ResponseEmitter) : Point → Move → Bool
  | .emitCommitted _, .tick => e.committed = .head
  | .commitSwap state _, .tick => !(state ≠ .head ∧ e.committed = state)
  | .fixedCreated false _, .tick => !e.created
  | .stopping _ false _, .stop _ => true
  | _, _ => false

/-- What happened in a run: `asked`, a final response was emitted; `sendable`, one that `emit!`
does not throw for before the swap; `dropped`, `emit!` returned nil for one while no head was
committed. -/
structure History where
  asked : Bool
  sendable : Bool
  dropped : Bool

def note (a : Action ι) (s : State ι) (h : History) : History where
  asked := asks Emit.isFinal a h.asked
  sendable := asks Emit.sendable a h.sendable
  dropped := h.dropped || match a with
    | .thread i move => returnsNil s.emitter (s.pc i) move && s.emitter.committed ≠ .head
    | _ => false

def recorded (ι : Type*) [DecidableEq ι] (cfg : Config) : Machine (State ι × History) (Action ι) :=
  (machine ι cfg).recording ⟨false, false, false⟩ note

/-- The threads only emit, the worker accepts every command, and the request goes on. -/
def cooperative : Action ι → State ι → Prop
  | .thread i move, s => Accepting (s.pc i) move
  | .worker .stop, _ | .dispose, _ | .terminate, _ => False
  | _, _ => True

def undisturbed : Action ι → State ι → Prop
  | .thread i move, s => Undisturbed s.emitter (s.pc i) move
  | _, _ => True

structure FinalHeld (s : State ι) (asked : Bool) : Prop where
  live : s.live = true
  one : s.heads ≤ 1
  decided : s.emitter.committed = .head → s.heads = 1 ∨ ∃ i, (s.pc i).answers = true
  untouched : s.emitter.committed ≠ .head → s.emitter.phase = .opened ∧
    s.emitter.writer.stopped = false ∧ s.emitter.writer.owed = 0 ∧ s.worker = .idle ∧
    .sendvec ∉ s.emitter.mailbox
  late : ∀ i, (s.pc i).late = true → s.emitter.committed = .head
  rejected : ∀ i, (s.pc i).rejected = false
  asked : asked = true → s.emitter.committed = .head ∨ ∃ i, (s.pc i).pursues = true

theorem heads_le_one {e f : ResponseEmitter} {p q : Point} {move : Move} (h : ThreadSpec e f p q move) :
    p.heads move ≤ 1 := by
  unfold Point.heads
  rcases posting_length p move with none | ⟨c, posting⟩
  · rw [none]
    cases p <;> cases move <;> simp [Point.publishing]
    case publish.reply emit r => cases r <;> simp
  · have : p.publishing move = 0 := by
      cases p <;> cases move <;> simp [Point.publishing]
      case publish.reply emit r => simp [Point.posting] at posting
    rw [this, posting]
    simpa using List.countP_le_length (l := [c]) (p := (·.isHead))

theorem posted_of_heads {p : Point} {move : Move} (h : 0 < p.heads move) : p.posted move := by
  unfold Point.heads at h
  rcases Nat.eq_zero_or_pos ((p.posting move).countP (·.isHead)) with none | some
  · exact .inr (.inr (by omega))
  · rcases Command.head_mem.mp (List.countP_pos_iff.mp some) with mem | mem
    · exact .inl mem
    · exact .inr (.inl mem)

theorem OneAnswer.heads_of_commits (h : OneAnswer s) {i : ι} (on : (s.pc i).commits = true) : s.heads = 0 := by
  obtain ⟨unstarted, unanswered⟩ := h.commits i on
  have mailbox : s.emitter.mailbox.countP (·.isHead) = 0 := by
    refine Nat.eq_zero_of_not_pos fun some => ?_
    rcases Command.head_mem.mp (List.countP_pos_iff.mp some) with mem | mem
    · exact unstarted (.inl mem)
    · exact unanswered (.inl mem)
  have log : s.log.countP (·.isHead) = 0 := by
    refine Nat.eq_zero_of_not_pos fun some => ?_
    rcases Native.head_mem.mp (List.countP_pos_iff.mp some) with mem | mem
    · exact unstarted (.inr mem)
    · exact unanswered (.inr (.inr mem))
  have ring : s.emitter.ring = 0 := Nat.eq_zero_of_not_pos fun pending => unanswered (.inr (.inl pending))
  simp [State.heads, mailbox, log, ring]

theorem answers_commits {p : Point} (h : p.answers = true) : p.commits = true := by
  cases p <;> simp [Point.answers] at h
  all_goals rfl

theorem asks_pursues {e f : ResponseEmitter} {p q : Point} {i : ι} {move : Move}
    (h : threadStep cfg e p move = some (f, q)) (now : asks Emit.sendable (.thread i move) asked = true) :
    asked = true ∨ q.pursues = true := by
  unfold asks at now
  split at now
  · rename_i j emit same
    obtain ⟨rfl, rfl⟩ := Action.thread.inj same
    cases p <;> simp only [threadStep, reduceCtorEq] at h
    obtain ⟨-, rfl⟩ := Prod.mk.inj (Option.some.inj h)
    simpa [Point.pursues] using now
  · exact .inl now

theorem FinalHeld.thread [DecidableEq ι] {i : ι} {move : Move} {e : ResponseEmitter} {p : Point}
    (h : FinalHeld s asked) (one : OneAnswer s) (accepting : Accepting (s.pc i) move)
    (fair : Undisturbed s.emitter (s.pc i) move)
    (moved : threadStep cfg s.emitter (s.pc i) move = some (e, p)) :
    FinalHeld { s with emitter := e, pc := Function.update s.pc i p }
      (asks Emit.sendable (.thread i move) asked) := by
  have spec := threadStep_spec moved
  have final := threadStep_final accepting fair
    (fun before => ⟨(h.untouched before).1, (h.untouched before).2.1⟩) (h.late i) moved
  set t : State ι := { s with emitter := e, pc := Function.update s.pc i p }
  have self : t.pc i = p := Function.update_self ..
  have other : ∀ j, j ≠ i → t.pc j = s.pc j := fun j hj => Function.update_of_ne hj ..
  have heads : t.heads = s.heads + (s.pc i).heads move := by
    simp only [State.heads, t, spec.mailbox, spec.ring, List.countP_append, Point.heads]
    omega
  have posts (some : 0 < (s.pc i).heads move) : s.heads = 0 :=
    one.heads_of_commits (spec.posted (posted_of_heads some)).1
  have small := heads_le_one spec
  exact {
    live := h.live
    one := by
      have := h.one
      rcases Nat.eq_zero_or_pos ((s.pc i).heads move) with none | some
      · omega
      · have := posts some
        omega
    decided := fun head => by
      rcases Classical.em (s.emitter.committed = .head) with before | before
      · rcases h.decided before with done | ⟨j, on⟩
        · have : (s.pc i).heads move = 0 := Nat.eq_zero_of_not_pos fun some => by
            have := posts some
            omega
          exact .inl (by omega)
        · rcases Classical.em (j = i) with rfl | hj
          · rcases final.answers on with still | posted
            · exact .inr ⟨j, by rwa [self]⟩
            · have := posts (by omega)
              exact .inl (by omega)
          · exact .inr ⟨j, by rwa [other j hj]⟩
      · exact .inr ⟨i, by rw [self]; exact final.enters before head⟩
    untouched := fun before => by
      have free : s.emitter.committed ≠ .head := fun head => before (spec.committed head)
      have early : (s.pc i).late = false := Bool.eq_false_iff.mpr fun on => free (h.late i on)
      obtain ⟨phase, stopped, owed, idle, unposted⟩ := h.untouched free
      obtain ⟨phaseSame, writerSame, quiet⟩ := final.early early
      refine ⟨phaseSame.trans phase, ?_, ?_, idle, ?_⟩
      · simp only [t, writerSame, stopped]
      · simp only [t, writerSame, owed]
      · simp only [t, spec.mailbox, List.mem_append]
        exact fun mem => mem.elim unposted quiet
    late := fun j on => by
      rcases Classical.em (j = i) with rfl | hj
      · rw [self] at on
        exact (final.late on).elim (fun before => spec.committed (h.late j before)) id
      · rw [other j hj] at on
        exact spec.committed (h.late j on)
    rejected := fun j => by
      rcases Classical.em (j = i) with rfl | hj
      · rw [self]
        exact Bool.eq_false_iff.mpr fun on => by simpa [h.rejected j] using final.rejected on
      · rw [other j hj]
        exact h.rejected j
    asked := fun now => by
      rcases asks_pursues moved now with before | pursues
      · rcases h.asked before with head | ⟨j, on⟩
        · exact .inl (spec.committed head)
        · rcases Classical.em (j = i) with rfl | hj
          · exact (final.pursues on).symm.imp_right fun on => ⟨j, by rwa [self]⟩
          · exact .inr ⟨j, by rwa [other j hj]⟩
      · exact .inr ⟨i, by rwa [self]⟩ }

/-- A step of the worker that keeps the heads and, before the commit, does nothing. -/
theorem FinalHeld.side (h : FinalHeld s asked) (pc : t.pc = s.pc)
    (committed : t.emitter.committed = s.emitter.committed) (live : t.live = true) (heads : t.heads = s.heads)
    (untouched : s.emitter.committed ≠ .head → t.emitter.phase = s.emitter.phase ∧
      t.emitter.writer.stopped = s.emitter.writer.stopped ∧ t.emitter.writer.owed = s.emitter.writer.owed ∧
      t.worker = .idle ∧ .sendvec ∉ t.emitter.mailbox) : FinalHeld t asked where
  live := live
  one := heads ▸ h.one
  decided := by
    rw [committed, heads, pc]
    exact h.decided
  untouched := by
    rw [committed]
    intro before
    obtain ⟨phase, stopped, owed, idle, mailbox⟩ := untouched before
    rw [phase, stopped, owed]
    exact ⟨(h.untouched before).1, (h.untouched before).2.1, (h.untouched before).2.2.1, idle, mailbox⟩
  late := by
    rw [committed, pc]
    exact h.late
  rejected := by
    rw [pc]
    exact h.rejected
  asked := by
    rw [committed, pc]
    exact h.asked

theorem FinalHeld.worker {w : Writer} {k : Worker} {move : WorkerMove} (h : FinalHeld s asked)
    (callback : move ≠ .command) (going : move ≠ .stop)
    (moved : workerStep cfg s.emitter.writer s.worker move = some (w, k)) :
    FinalHeld { s with
      emitter := { s.emitter with writer := w }, worker := k, log := s.log ++ natives s.worker move } asked := by
  refine h.side rfl rfl h.live ?_ fun before => ?_
  · have : (natives s.worker move).countP (·.isHead) = 0 := by
      unfold natives
      split <;> rfl
    simp only [State.heads, List.countP_append, this, Nat.add_zero]
  · obtain ⟨-, -, owed, idle, -⟩ := h.untouched before
    rw [idle] at moved
    cases move <;> simp [workerStep, owed] at moved callback going

theorem FinalHeld.dispatch {c : Command} {rest : List Command} (h : FinalHeld s asked)
    (mailbox : s.emitter.mailbox = c :: rest) :
    FinalHeld (process { s with emitter := { s.emitter with mailbox := rest } } c) asked := by
  have untouched (before : s.emitter.committed ≠ .head) : s.worker = .idle ∧ c ≠ .sendvec ∧ .sendvec ∉ rest := by
    obtain ⟨-, -, -, idle, unposted⟩ := h.untouched before
    rw [mailbox] at unposted
    exact ⟨idle, fun same => unposted (by simp [same]), fun mem => unposted (List.mem_cons_of_mem _ mem)⟩
  cases c with
  | startResponse | sendFixedFinal | sendInformational =>
    refine h.side rfl rfl h.live ?_ fun before => ⟨rfl, rfl, rfl, (untouched before).1, (untouched before).2.2⟩
    simp only [State.heads, process, mailbox, List.countP_cons, List.countP_append, List.countP_nil,
      Command.isHead, Native.isHead]
    omega
  | sendvec =>
    refine h.side rfl rfl h.live ?_ fun before => absurd rfl (untouched before).2.1
    simp [State.heads, process, mailbox, Command.isHead]

theorem FinalHeld.aside (h : FinalHeld s asked) (aside : Aside a s t) (going : a ≠ .dispose) :
    FinalHeld t asked := by
  have live : t.live = true := by
    rcases aside.live with same | ⟨disposes, -⟩
    · exact same.trans h.live
    · exact absurd disposes going
  refine h.side aside.pc aside.committed live ?_ fun before => ?_
  · rcases aside.direct with ⟨ring, log⟩ | ⟨ring, log⟩
    · simp only [State.heads, aside.mailbox, ring, log]
    · rw [if_pos h.live] at log
      simp only [State.heads, aside.mailbox, log, List.countP_append, List.countP_singleton, Native.isHead]
      simp only [if_true]
      omega
  · obtain ⟨-, -, -, idle, unposted⟩ := h.untouched before
    refine ⟨aside.phase h.live, aside.stopped, aside.owed, ?_, by rwa [aside.mailbox]⟩
    rcases aside.worker with same | ⟨disposes, -⟩
    · exact same.trans idle
    · exact absurd disposes going

theorem returnsNil_committed {i : ι} {move : Move} (h : FinalHeld s asked)
    (fair : Undisturbed s.emitter (s.pc i) move) (nil : returnsNil s.emitter (s.pc i) move = true) :
    s.emitter.committed = .head := by
  have accepted := h.rejected i
  unfold returnsNil at nil
  split at nil
  case h_1 => simpa using nil
  case h_2 state emit at_ =>
    rw [at_] at fair
    rcases fair with head | ⟨same, -⟩
    · exact head
    · by_contra free
      simp [same ▸ free, same] at nil
  case h_3 at_ => simp [at_, Point.rejected] at accepted
  case h_4 at_ => simp [at_, Point.rejected] at accepted
  case h_5 => contradiction

theorem FinalHeld.step [DecidableEq ι] (h : FinalHeld s asked) (one : OneAnswer s)
    (coop : cooperative a s) (fair : undisturbed a s) (moves : step cfg a s = some t) :
    FinalHeld t (asks Emit.sendable a asked) := by
  rcases step_cases moves with ⟨i, move, e, p, rfl, moved, rfl⟩ | ⟨move, w, k, rfl, callback, moved, rfl⟩ |
    ⟨c, rest, rfl, -, queued, rfl⟩ | aside
  · exact h.thread one coop fair moved
  · refine h.worker callback ?_ moved
    rintro rfl
    exact coop
  · rw [if_pos h.live]
    exact h.dispatch queued
  · have quiet : asks Emit.sendable a asked = asked := by
      unfold asks
      split
      · exact absurd rfl (aside.action _ _)
      · rfl
    rw [quiet]
    refine h.aside aside ?_
    rintro rfl
    exact coop

theorem unrecorded [DecidableEq ι] {ok : Action ι → State ι → Prop} {s : State ι × History}
    (h : (recorded ι cfg).ReachableVia (fun a s => ok a s.1) s) : (machine ι cfg).ReachableVia ok s.1 :=
  Machine.ReachableVia.unrecorded h

theorem finalHeld_of_undisturbed [DecidableEq ι] {s : State ι × History}
    (h : (recorded ι cfg).ReachableVia (fun a s => cooperative a s.1 ∧ undisturbed a s.1) s) :
    FinalHeld s.1 s.2.sendable ∧ s.2.dropped = false := by
  refine h.invariant_of (I := fun s => FinalHeld s.1 s.2.sendable ∧ s.2.dropped = false)
    (J := fun s => OneAnswer s.1)
    (fun _ reached => ?_) ?_ ?_
  · have undisturbed : (machine ι cfg).ReachableVia (fun a s => cooperative a s ∧ undisturbed a s) _ :=
      unrecorded reached
    exact oneAnswer_of_reachable undisturbed.reachable
  · rintro ⟨s, history⟩ ⟨⟨pool, -, rfl⟩, rfl⟩
    refine ⟨⟨rfl, ?_, ?_, ?_, ?_, ?_, ?_⟩, rfl⟩ <;>
      simp [freshState, ResponseQueue.freshState, State.heads, Point.late, Point.rejected]
  · rintro a ⟨s, history⟩ _ one ⟨held, kept⟩ ⟨coop, fair⟩ moves
    obtain ⟨t, moved, rfl⟩ := Option.map_eq_some_iff.mp moves
    refine ⟨held.step one coop fair moved, ?_⟩
    change history.dropped = false at kept
    simp only [note, kept, Bool.false_or]
    split
    · rename_i i move
      rw [Bool.and_eq_false_iff]
      rcases nil : returnsNil s.emitter (s.pc i) move with _ | _
      · exact .inl rfl
      · have head : s.emitter.committed = .head := returnsNil_committed held fair nil
        exact .inr (by simp [head])
    · rfl

/-- Exactly one head for the final responses emitted, and none of them ignored before it. -/
structure CommitsOnce (s : State ι) (h : History) : Prop where
  once : s.heads ≤ 1
  scheduled : h.asked = true → (∀ i, (s.pc i).pursues = false ∧ (s.pc i).commits = false) → s.heads = 1
  ignored : h.dropped = false

instance (p : Point) (move : Move) : Decidable (Accepting p move) := by
  unfold Accepting
  split <;> infer_instance

instance (e : ResponseEmitter) (p : Point) (move : Move) : Decidable (Undisturbed e p move) := by
  unfold Undisturbed
  split <;> infer_instance

instance (a : Action ι) (s : State ι) : Decidable (cooperative a s) :=
  match a with
  | .thread i move => inferInstanceAs (Decidable (Accepting (s.pc i) move))
  | .worker .stop | .dispose | .terminate => .isFalse id
  | .worker .tick | .worker .command | .worker .proceed | .worker (.giveBack _) | .dispatch | .direct
  | .other _ | .torn _ _ => .isTrue trivial

instance (a : Action ι) (s : State ι) : Decidable (undisturbed a s) :=
  match a with
  | .thread i move => inferInstanceAs (Decidable (Undisturbed s.emitter (s.pc i) move))
  | .worker _ | .dispatch | .direct | .dispose | .terminate | .other _ | .torn _ _ => .isTrue trivial

def freshHistory : State Bool × History := ⟨freshState Bool smallQueue emptyPool, ⟨false, false, false⟩⟩

theorem freshHistory_reachable {ok : Action Bool → State Bool × History → Prop} :
    (recorded Bool smallQueue).ReachableVia ok freshHistory :=
  .init ⟨⟨emptyPool, emptyPool_sound, rfl⟩, rfl⟩

/-- A final response whose content-length cannot be read: `emit!` throws. -/
def malformed : Response := ⟨some 200, .text, true, true, true, .malformed⟩

/-- An informational response, one that `emit!` throws for, then a final one. -/
def hintsThenFinal : List (Action Bool) := List.flatten [
  emitUpToPost true earlyHints 4, [.thread true (.reply .accepted)],
  List.map (.thread true) (.call (.emit ⟨.map malformed, true⟩) :: List.replicate 3 .tick),
  emitUpToPost false streamed 6, [.thread false (.reply .accepted), .thread false .tick],
  [.dispatch, .dispatch]]

def answered : State Bool × History :=
  (recorded Bool smallQueue).runFromVia (fun a s => cooperative a s.1 ∧ undisturbed a s.1) hintsThenFinal
    freshHistory

/-- The final response reads `committed_` before the informational one marks it, and
swaps it after. -/
def markBeforeSwap : List (Action Bool) := List.flatten [
  emitUpToPost true earlyHints 3, emitUpToPost false streamed 4,
  [.thread true .tick, .thread false .tick, .thread true (.reply .accepted), .dispatch]]

def vanished : State Bool × History :=
  (recorded Bool smallQueue).runFromVia (fun a s => cooperative a s.1) markBeforeSwap freshHistory

end Busker.Emitter
