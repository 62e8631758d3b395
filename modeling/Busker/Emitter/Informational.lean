import Busker.Emitter.BodyOrder

/-! Informational responses and the final one. A direct response is published only where
nothing informational was marked, and one that goes through the mailbox is behind the
informational commands posted before it; a thread that has marked `committed_` but not
posted yet can still fall behind a final response. -/

namespace Busker.Emitter

open ResponseQueue Interleaving

namespace Point

/-- About to post an informational response. -/
def informs : Point → Bool
  | .postInformational => true
  | _ => false

/-- About to publish a direct response. -/
def publishes : Point → Bool
  | .publish _ => true
  | _ => false

end Point

/-- What a thread's step does to the informational responses. -/
structure InformSpec (e f : ResponseEmitter) (p q : Point) (move : Move) : Prop where
  marked : e.committed ≠ .uncommitted → f.committed ≠ .uncommitted
  informs : q.informs = true → f.committed ≠ .uncommitted ∧ e.committed ≠ .head
  posting : .sendInformational ∈ p.posting move → p.informs = true
  publishes : q.publishes = true → e.committed = .uncommitted
  publishing : 0 < p.publishing move → p.publishes = true

theorem InformSpec.quiet {e f : ResponseEmitter} {p q : Point} {move : Move}
    (committed : f.committed = e.committed ∨ f.committed = .head) (informs : q.informs = false)
    (publishes : q.publishes = false) (posting : .sendInformational ∉ p.posting move)
    (publishing : p.publishing move = 0) : InformSpec e f p q move where
  marked before := by
    rcases committed with same | head
    · rwa [same]
    · simp [head]
  informs on := by simp [informs] at on
  posting mem := absurd mem posting
  publishes on := by simp [publishes] at on
  publishing on := by omega

theorem enter_quiet (emit : Emit) : (enter emit).informs = false ∧ (enter emit).publishes = false := by
  obtain ⟨data, closeAfter⟩ := emit
  cases data with
  | body => exact ⟨rfl, rfl⟩
  | map response =>
    unfold enter
    dsimp only
    cases response.status with
    | none => exact ⟨rfl, rfl⟩
    | some status =>
      dsimp only
      split <;> exact ⟨rfl, rfl⟩

theorem sendInformational_publishes (response : Response) :
    (sendInformational response).publishes = false := by
  unfold sendInformational
  split <;> rfl

theorem commitFinal_quiet (emit : Emit) :
    (commitFinal emit).informs = false ∧ (commitFinal emit).publishes = false := by
  unfold commitFinal
  split <;> exact ⟨rfl, rfl⟩

theorem startResponse_quiet (emit : Emit) :
    (startResponse emit).informs = false ∧ (startResponse emit).publishes = false := by
  unfold startResponse
  split <;> exact ⟨rfl, rfl⟩

theorem afterFixed_quiet (emit : Emit) (r : Reply) :
    (afterFixed emit r).informs = false ∧ (afterFixed emit r).publishes = false := by
  cases r with
  | accepted | closed => exact ⟨rfl, rfl⟩
  | overloaded => exact startResponse_quiet emit

theorem emitBody_quiet (withBody : Bool) (emit : Emit) :
    (emitBody withBody emit).informs = false ∧ (emitBody withBody emit).publishes = false := by
  obtain ⟨data, closeAfter⟩ := emit
  cases data with
  | body => exact ⟨rfl, rfl⟩
  | map response =>
    unfold emitBody afterBody
    dsimp only
    split_ifs <;> exact ⟨rfl, rfl⟩

theorem frame_inform {e f : ResponseEmitter} {p q : Point} {frame : Producer} {move : ProducerMove}
    (posting : p.posting (.frame move) = posts frame move) (publishing : p.publishing (.frame move) = 0)
    (committed : f.committed = e.committed) (informs : q.informs = false) (publishes : q.publishes = false) :
    InformSpec e f p q (.frame move) := by
  refine .quiet (.inl committed) informs publishes ?_ publishing
  rw [posting]
  intro mem
  exact absurd (posts_mem mem) (by simp)

theorem frameStep_committed {cfg : Config} {api : ResponseQueue.Call → Bool} {e f : ResponseEmitter}
    {frame next : Producer} {move : ProducerMove} (h : frameStep cfg api e frame move = some (f, next)) :
    f.committed = e.committed := by
  unfold frameStep at h
  split at h
  · obtain ⟨⟨w, r⟩, -, same⟩ := Option.map_eq_some_iff.mp h
    obtain ⟨rfl, -⟩ := Prod.mk.inj same
    rfl
  · contradiction

theorem threadStep_inform {cfg : Config} {e f : ResponseEmitter} {p q : Point} {move : Move}
    (h : threadStep cfg e p move = some (f, q)) : InformSpec e f p q move := by
  cases p <;> cases move <;>
    simp only [threadStep, reduceCtorEq, Option.some.injEq, Prod.mk.injEq] at h
  case idle.call c =>
    cases c <;> obtain ⟨rfl, rfl⟩ := Prod.mk.inj (Option.some.inj h) <;>
      exact .quiet (.inl rfl) rfl rfl (by simp [Point.posting]) rfl
  case openPhase.tick created emit =>
    obtain ⟨rfl, rfl⟩ := h
    refine .quiet (.inl rfl) ?_ ?_ (by simp [Point.posting]) rfl <;> split_ifs <;>
      first | rfl | exact (enter_quiet emit).1 | exact (enter_quiet emit).2
  case openStopped.tick emit =>
    obtain ⟨rfl, rfl⟩ := h
    refine .quiet (.inl rfl) ?_ ?_ (by simp [Point.posting]) rfl <;> split <;>
      first | rfl | exact (enter_quiet emit).1 | exact (enter_quiet emit).2
  case markRead.tick response =>
    obtain ⟨rfl, rfl⟩ := h
    refine ⟨id, ?_, by simp [Point.posting], ?_, by simp [Point.publishing]⟩
    · cases e.committed <;> simp [Point.informs]
    · cases e.committed with
      | informationalSent => simp [sendInformational_publishes]
      | uncommitted | head => simp [Point.publishes]
  case markSwap.tick response =>
    split at h <;> rename_i state <;> obtain ⟨rfl, rfl⟩ := Prod.mk.inj (Option.some.inj h)
    · exact ⟨by simp, by simp [state], by simp [Point.posting], by simp [sendInformational_publishes],
        by simp [Point.publishing]⟩
    · exact .quiet (.inl rfl) rfl rfl (by simp [Point.posting]) rfl
  case postInformational.reply r =>
    obtain ⟨rfl, rfl⟩ := h
    exact ⟨id, by simp [Point.informs], fun _ => rfl, by simp [Point.publishes], by simp [Point.publishing]⟩
  case emitCommitted.tick emit | emitState.tick emit =>
    obtain ⟨rfl, rfl⟩ := h
    refine .quiet (.inl rfl) ?_ ?_ (by simp [Point.posting]) rfl <;> split <;>
      first | rfl | exact (commitFinal_quiet emit).1 | exact (commitFinal_quiet emit).2
  case commitSwap.tick state emit =>
    split at h <;> obtain ⟨rfl, rfl⟩ := Prod.mk.inj (Option.some.inj h)
    · rename_i free
      obtain ⟨ne, same⟩ := free
      refine ⟨by simp, ?_, by simp [Point.posting], ?_, by simp [Point.publishing]⟩ <;> unfold afterSwap <;>
        split_ifs with fixed informational
      · simp [Point.informs]
      · simp [Point.informs]
      · simp [startResponse_quiet]
      · simp [Point.publishes]
      · intro _
        rw [same]
        cases state <;> simp_all
      · simp [startResponse_quiet]
    · exact .quiet (.inl rfl) rfl rfl (by simp [Point.posting]) rfl
  case publish.reply emit r =>
    obtain ⟨rfl, rfl⟩ := h
    exact ⟨id, by simp [afterFixed_quiet], by simp [Point.posting], by simp [afterFixed_quiet], fun _ => rfl⟩
  case postFixedFinal.reply emit r =>
    obtain ⟨rfl, rfl⟩ := h
    refine .quiet (.inl rfl) (afterFixed_quiet emit r).1 (afterFixed_quiet emit r).2 ?_ rfl
    cases r <;> simp [Point.posting]
  case fixedCreated.tick accepted emit =>
    obtain ⟨rfl, rfl⟩ := h
    refine .quiet (.inl rfl) ?_ ?_ (by simp [Point.posting]) rfl <;> split <;>
      first | rfl | cases accepted <;> rfl
  case stopping.stop frame accepted emit move =>
    split at h
    · obtain ⟨⟨w, next⟩, -, h⟩ := Option.map_eq_some_iff.mp h
      obtain ⟨rfl, rfl⟩ := Prod.mk.inj h
      refine .quiet (.inl rfl) ?_ ?_ (by simp [Point.posting]) rfl <;> dsimp only <;> split <;>
        first | rfl | cases accepted <;> rfl
    · contradiction
  case postStart.reply emit r =>
    split at h <;> rename_i answer <;> obtain ⟨rfl, rfl⟩ := Prod.mk.inj (Option.some.inj h)
    · obtain rfl := answer
      exact .quiet (.inl rfl) rfl rfl (by simp [Point.posting]) rfl
    · cases r <;> exact .quiet (.inl rfl) rfl rfl (by simp [Point.posting]) rfl
  case reset.tick withBody emit =>
    obtain ⟨rfl, rfl⟩ := h
    exact .quiet (.inr rfl) (emitBody_quiet withBody emit).1 (emitBody_quiet withBody emit).2
      (by simp [Point.posting]) rfl
  case stream.frame frame closeAfter move | flushing.frame frame move | closing.frame frame move =>
    obtain ⟨⟨g, next⟩, moved, h⟩ := Option.map_eq_some_iff.mp h
    obtain ⟨rfl, rfl⟩ := Prod.mk.inj h
    exact frame_inform rfl rfl (frameStep_committed moved) rfl rfl
  case stream.finish frame closeAfter =>
    split at h
    · obtain ⟨rfl, rfl⟩ := Prod.mk.inj (Option.some.inj h)
      cases closeAfter <;> exact .quiet (.inl rfl) rfl rfl (by simp [Point.posting]) rfl
    · contradiction
  case flushing.finish frame | closing.finish frame =>
    split at h
    · obtain ⟨rfl, rfl⟩ := Prod.mk.inj (Option.some.inj h)
      exact .quiet (.inl rfl) rfl rfl (by simp [Point.posting]) rfl
    · contradiction
  case beginClose.tick writer =>
    split at h <;> obtain ⟨rfl, rfl⟩ := Prod.mk.inj (Option.some.inj h)
    · cases writer <;> exact .quiet (.inl rfl) rfl rfl (by simp [Point.posting]) rfl
    · exact .quiet (.inl rfl) rfl rfl (by simp [Point.posting]) rfl
  case closeCreated.tick | closeCommitted.tick | closeStopped.tick | closeFailed.tick =>
    obtain ⟨rfl, rfl⟩ := h
    refine .quiet (.inl rfl) ?_ ?_ (by simp [Point.posting]) rfl <;> split <;> rfl
  all_goals
    obtain ⟨rfl, rfl⟩ := h
    exact .quiet (.inl rfl) rfl rfl (by simp [Point.posting]) rfl

variable {ι : Type*} {cfg : Config} {s t : State ι} {a : Action ι}

def Command.isHead : Command → Bool
  | .startResponse | .sendFixedFinal => true
  | _ => false

def Native.isHead : Native → Bool
  | .startResponse | .sendFixedFinal => true
  | _ => false

/-- An informational response has been posted, or a thread is about to post one. -/
def State.informed (s : State ι) : Prop :=
  .sendInformational ∈ s.emitter.mailbox ∨ .sendInformational ∈ s.log ∨ ∃ i, (s.pc i).informs = true

structure InformFirst (s : State ι) : Prop where
  fresh : s.emitter.committed = .uncommitted → ¬s.informed
  direct : (∃ i, (s.pc i).publishes = true) ∨ 0 < s.emitter.ring → ¬s.informed
  queued : s.live = true →
    NoneAfter (fun c => c.isHead = true) (· = Command.sendInformational) s.emitter.mailbox
  sent : s.live = true → (∃ c ∈ s.log, c.isHead = true) → .sendInformational ∉ s.emitter.mailbox
  ordered : NoneAfter (fun c => c.isHead = true) (· = Native.sendInformational) s.log

/-- An informational response is posted while no final one has been accepted, unless
the request is gone. -/
def beforeHead : Action ι → State ι → Prop
  | .thread i move, s => .sendInformational ∈ (s.pc i).posting move →
    s.live = true → ¬s.started ∧ ¬s.answered
  | _, _ => True

instance (s : State ι) : Decidable s.answered := inferInstanceAs (Decidable (_ ∨ _ ∨ _))

instance (a : Action ι) (s : State ι) : Decidable (beforeHead a s) :=
  match a with
  | .thread i move => inferInstanceAs (Decidable (.sendInformational ∈ (s.pc i).posting move →
      s.live = true → ¬s.started ∧ ¬s.answered))
  | .worker _ | .dispatch | .direct | .dispose | .terminate | .other _ | .torn _ _ => .isTrue trivial

theorem Command.head_mem {mailbox : List Command} :
    (∃ c ∈ mailbox, c.isHead = true) ↔ .startResponse ∈ mailbox ∨ .sendFixedFinal ∈ mailbox := by
  constructor
  · rintro ⟨c, mem, head⟩
    cases c <;> simp [Command.isHead] at head
    · exact .inl mem
    · exact .inr mem
  · rintro (mem | mem)
    · exact ⟨_, mem, rfl⟩
    · exact ⟨_, mem, rfl⟩

theorem Native.head_mem {log : List Native} :
    (∃ c ∈ log, c.isHead = true) ↔ .startResponse ∈ log ∨ .sendFixedFinal ∈ log := by
  constructor
  · rintro ⟨c, mem, head⟩
    cases c <;> simp [Native.isHead] at head
    · exact .inl mem
    · exact .inr mem
  · rintro (mem | mem)
    · exact ⟨_, mem, rfl⟩
    · exact ⟨_, mem, rfl⟩

theorem InformFirst.thread [DecidableEq ι] {i : ι} {move : Move} {e : ResponseEmitter} {p : Point}
    (h : InformFirst s) (one : OneAnswer s) (allowed : beforeHead (.thread i move) s)
    (spec : ThreadSpec s.emitter e (s.pc i) p move) (inform : InformSpec s.emitter e (s.pc i) p move) :
    InformFirst { s with emitter := e, pc := Function.update s.pc i p } := by
  set t : State ι := { s with emitter := e, pc := Function.update s.pc i p }
  have self : t.pc i = p := Function.update_self ..
  have other : ∀ j, j ≠ i → t.pc j = s.pc j := fun j hj => Function.update_of_ne hj ..
  have informed (quiet : p.informs = false) : t.informed → s.informed := by
    rintro (mem | mem | ⟨j, on⟩)
    · rcases List.mem_append.mp (spec.mailbox ▸ mem) with before | posting
      · exact .inl before
      · exact .inr (.inr ⟨i, inform.posting posting⟩)
    · exact .inr (.inl mem)
    · by_cases hj : j = i
      · simp [hj, self, quiet] at on
      · exact .inr (.inr ⟨j, by rwa [other j hj] at on⟩)
  have quiet_of_head (head : s.emitter.committed = .head) : p.informs = false :=
    Bool.eq_false_iff.mpr fun on => (inform.informs on).2 head
  exact {
    fresh := fun free => by
      have before : s.emitter.committed = .uncommitted := by
        by_contra marked
        exact inform.marked marked free
      have quiet : p.informs = false := Bool.eq_false_iff.mpr fun on => (inform.informs on).1 free
      exact fun on => h.fresh before (informed quiet on)
    direct := by
      have kept (before : (∃ j, (s.pc j).publishes = true) ∨ 0 < s.emitter.ring) : ¬t.informed := by
        have head : s.emitter.committed = .head := by
          rcases before with ⟨j, on⟩ | pending
          · refine one.committed (.inr (.inr ⟨j, ?_⟩))
            cases at_ : s.pc j <;> simp [at_, Point.publishes] at on
            rfl
          · exact one.committed (.inr (.inl (.inr (.inl pending))))
        exact fun on => h.direct before (informed (quiet_of_head head) on)
      rintro (⟨j, on⟩ | pending)
      · by_cases hj : j = i
        · rw [hj, self] at on
          have quiet : p.informs = false := by
            cases p <;> simp [Point.publishes] at on
            rfl
          exact fun now => h.fresh (inform.publishes on) (informed quiet now)
        · exact kept (.inl ⟨j, by rwa [other j hj] at on⟩)
      · have : 0 < s.emitter.ring ∨ 0 < (s.pc i).publishing move := by
          have := spec.ring
          simp only [t] at pending
          omega
        exact kept (this.symm.imp (fun on => ⟨i, inform.publishing on⟩) id)
    queued := fun live => by
      have before := h.queued live
      simp only [t, spec.mailbox]
      rcases posting_length (s.pc i) move with none | ⟨c, posting⟩
      · rwa [none, List.append_nil]
      · rw [posting]
        refine before.concat ?_
        rintro rfl c mem head
        obtain ⟨unstarted, unanswered⟩ := allowed (by simp [posting]) live
        rcases Command.head_mem.mp ⟨c, mem, head⟩ with mem | mem
        · exact unstarted (.inl mem)
        · exact unanswered (.inl mem)
    sent := fun live head mem => by
      simp only [t, spec.mailbox] at mem
      rcases List.mem_append.mp mem with before | posting
      · exact h.sent live head before
      · obtain ⟨unstarted, unanswered⟩ := allowed posting live
        rcases Native.head_mem.mp head with mem | mem
        · exact unstarted (.inr mem)
        · exact unanswered (.inr (.inr mem))
    ordered := h.ordered }

/-- A step of the worker marks nothing and posts nothing. -/
theorem InformFirst.side (h : InformFirst s) (side : WorkerSide s t)
    (ring : t.emitter.ring ≤ s.emitter.ring) (informed : t.informed → s.informed)
    (queued : t.live = true →
      NoneAfter (fun c => c.isHead = true) (· = Command.sendInformational) t.emitter.mailbox)
    (sent : t.live = true → (∃ c ∈ t.log, c.isHead = true) → .sendInformational ∉ t.emitter.mailbox)
    (ordered : NoneAfter (fun c => c.isHead = true) (· = Native.sendInformational) t.log) :
    InformFirst t where
  fresh free on := h.fresh (side.committed ▸ free) (informed on)
  direct on := by
    rw [side.pc] at on
    exact mt informed (h.direct (on.imp_right fun pending => lt_of_lt_of_le pending ring))
  queued := queued
  sent := sent
  ordered := ordered

theorem InformFirst.worker {w : Writer} {k : Worker} {move : WorkerMove} (h : InformFirst s) :
    InformFirst { s with
      emitter := { s.emitter with writer := w }, worker := k, log := s.log ++ natives s.worker move } := by
  rcases none : natives s.worker move with _ | ⟨c, rest⟩
  · simp only [List.append_nil]
    exact ⟨h.fresh, h.direct, h.queued, h.sent, h.ordered⟩
  · obtain ⟨final, sends⟩ : ∃ final, natives s.worker move = [.sendvec final] := by
      unfold natives at none ⊢
      split at none
      · exact ⟨_, rfl⟩
      · contradiction
    rw [← none, sends]
    have side : WorkerSide s { s with
        emitter := { s.emitter with writer := w }, worker := k, log := s.log ++ [.sendvec final] } :=
      ⟨rfl, rfl, by simp [State.started], by simp [State.answered]⟩
    refine h.side side le_rfl ?_ h.queued ?_ (h.ordered.concat (by simp))
    · simp [State.informed]
    · rintro live ⟨c, mem, head⟩
      refine h.sent live ⟨c, (List.mem_append.mp mem).resolve_right ?_, head⟩
      rintro new
      obtain rfl := List.mem_singleton.mp new
      simp [Native.isHead] at head

/-- Running a command whose place in the mailbox is known. -/
theorem InformFirst.dispatch {c : Command} {rest : List Command} (h : InformFirst s)
    (mailbox : s.emitter.mailbox = c :: rest) (live : s.live = true) :
    InformFirst (process { s with emitter := { s.emitter with mailbox := rest } } c) := by
  have queued := h.queued live
  have sent := h.sent live
  rw [mailbox] at queued sent
  have side := process_side mailbox
  have behind (head : c.isHead = true) : .sendInformational ∉ rest := fun mem => queued.head head _ mem rfl
  cases c with
  | startResponse | sendFixedFinal =>
    refine h.side side le_rfl ?_ (fun _ => queued.tail) (fun _ _ => behind rfl) (h.ordered.concat (by simp))
    simp [process, State.informed, mailbox]
  | sendInformational =>
    have first : ¬∃ c ∈ s.log, c.isHead = true := fun head => sent head (by simp)
    refine h.side side le_rfl ?_ (fun _ => queued.tail) ?_ (h.ordered.concat fun _ d mem head => first ⟨d, mem, head⟩)
    · simp [State.informed, mailbox]
    · rintro - ⟨d, mem, head⟩
      rcases List.mem_append.mp mem with mem | mem
      · exact absurd ⟨d, mem, head⟩ first
      · obtain rfl := List.mem_singleton.mp mem
        simp [Native.isHead] at head
  | sendvec =>
    refine h.side side le_rfl ?_ (fun _ => queued.tail) (fun _ head mem => sent head (List.mem_cons_of_mem _ mem))
      h.ordered
    simp [process, State.informed, mailbox]

theorem InformFirst.drop {c : Command} {rest : List Command} (h : InformFirst s) (dead : s.live = false)
    (mailbox : s.emitter.mailbox = c :: rest) :
    InformFirst { s with emitter := { s.emitter with mailbox := rest } } where
  fresh free on := h.fresh free (on.imp_left fun mem => by simp [mailbox, mem])
  direct on now := h.direct on (now.imp_left fun mem => by simp [mailbox, mem])
  queued live := by simp [dead] at live
  sent live := by simp [dead] at live
  ordered := h.ordered

theorem InformFirst.aside (h : InformFirst s) (aside : Aside a s t) : InformFirst t := by
  have informed : t.informed → s.informed := by
    simp only [State.informed, aside.mailbox, aside.pc]
    rcases aside.log with same | ⟨-, log⟩
    · simp [same]
    · simp [log]
  refine h.side aside.side aside.ring informed ?_ ?_ ?_
  · rw [aside.mailbox]
    exact fun live => h.queued (aside.live_before live)
  · rw [aside.mailbox]
    intro live head
    rcases aside.log with same | ⟨pending, -⟩
    · exact h.sent (aside.live_before live) (same ▸ head)
    · exact fun mem => h.direct (.inr pending) (.inl mem)
  · rcases aside.log with same | ⟨-, log⟩
    · rw [same]
      exact h.ordered
    · rw [log]
      exact h.ordered.concat (by simp)

theorem InformFirst.step [DecidableEq ι] (h : InformFirst s) (one : OneAnswer s) (allowed : beforeHead a s)
    (moves : step cfg a s = some t) : InformFirst t := by
  rcases step_cases moves with ⟨i, move, e, p, rfl, moved, rfl⟩ | ⟨move, w, k, -, -, -, rfl⟩ |
    ⟨c, rest, -, -, queued, rfl⟩ | aside
  · exact h.thread one allowed (threadStep_spec moved) (threadStep_inform moved)
  · exact h.worker
  · split
    · rename_i live
      exact h.dispatch queued live
    · rename_i dead
      exact h.drop (by simpa using dead) queued
  · exact h.aside aside

theorem informFirst_of_beforeHead [DecidableEq ι] (h : (machine ι cfg).ReachableVia beforeHead s) :
    InformFirst s := by
  refine h.invariant_of (fun _ reached => oneAnswer_of_reachable reached.reachable) ?_
    fun a s t one hs allowed moves => hs.step one allowed moves
  rintro _ ⟨pool, -, rfl⟩
  refine ⟨fun _ => ?_, ?_, fun _ => noneAfter_nil, ?_, noneAfter_nil⟩ <;>
    simp [freshState, State.informed, Point.informs, Point.publishes]

theorem informational_precede_head [DecidableEq ι] (h : (machine ι cfg).ReachableVia beforeHead s) :
    NoneAfter (fun c => c.isHead = true) (· = Native.sendInformational) s.log :=
  (informFirst_of_beforeHead h).ordered

/-- A thread that emits `response`, up to its last step before a command is posted. -/
def emitUpToPost (i : Bool) (response : Response) (steps : ℕ) : List (Action Bool) :=
  List.map (.thread i) (.call (.emit ⟨.map response, false⟩) :: List.replicate steps .tick)

def earlyHints : Response := ⟨some 103, .absent, false, true, true, .absent⟩

def streamed : Response := ⟨some 200, .absent, false, true, true, .absent⟩

def hintsThenHead : List (Action Bool) := List.flatten [
  emitUpToPost true earlyHints 4, [.thread true (.reply .accepted)],
  emitUpToPost false streamed 6, [.thread false (.reply .accepted)], [.dispatch, .dispatch]]

def hinted : State Bool :=
  (machine Bool smallQueue).runFromVia beforeHead hintsThenHead (freshState Bool smallQueue emptyPool)

theorem informational_precede_hinted :
    NoneAfter (fun c => c.isHead = true) (· = Native.sendInformational) hinted.log ∧
      hinted.log = [.sendInformational, .startResponse] :=
  ⟨informational_precede_head ((Machine.ReachableVia.init (m := machine Bool smallQueue)
    ⟨emptyPool, emptyPool_sound, rfl⟩).runFromVia _), by decide +kernel⟩

/-- The final response is emitted between the mark and the post of the informational one. -/
def headBetween : List (Action Bool) := List.flatten [
  emitUpToPost true earlyHints 4, emitUpToPost false streamed 6,
  [.thread false (.reply .accepted), .thread true (.reply .accepted), .dispatch, .dispatch]]

def overtaken : State Bool :=
  (machine Bool smallQueue).runFrom headBetween (freshState Bool smallQueue emptyPool)

/-- The informational response goes to h2o after the final head. -/
theorem informationalAfterHead : (machine Bool smallQueue).Reachable overtaken ∧
    overtaken.log = [.startResponse, .sendInformational] ∧
    ¬NoneAfter (fun c => c.isHead = true) (· = Native.sendInformational) overtaken.log := by
  have log : overtaken.log = [.startResponse, .sendInformational] := by decide +kernel
  refine ⟨(Machine.Reachable.init (m := machine Bool smallQueue)
    ⟨emptyPool, emptyPool_sound, rfl⟩).runFrom _, log, fun order => ?_⟩
  rw [log] at order
  exact order.head rfl _ (by simp) rfl

end Busker.Emitter
