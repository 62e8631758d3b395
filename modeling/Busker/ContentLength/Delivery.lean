import Busker.ContentLength.Emitter

/-! The content length Busker adds against the body bytes that reach the native layer.
Until the response is complete, the bytes handed over, those in the queue and those the
committing thread has still to write add up to it. -/
namespace Busker.ContentLength

open FixedFinal Interleaving

variable {cfg : Setting}

/-- What a thread knows of the response it commits. -/
def Point.Lawful (cfg : Setting) (committed : Committed) : Point → Prop
  | .settled e outcome | .loaded e outcome _ => SettledSpec cfg e.response e.closeAfter outcome
  | .publish e head plan => committed = .head head ∧ head.Grown cfg ∧
      (head.given.map Prod.fst).Nodup ∧
      (∀ n, head.added = some n → (∃ response, e.data = .map response) ∧
        (plan.body.encoded.length : ℤ) = n ∧ ((e.written cfg head).bytes.length : ℤ) = n) ∧
      ∀ n, Unsupplied cfg.java head.given → (∀ m, head.added = some m → m = n) →
        (Answer.ofPlan plan).Adds cfg.java head.given n
  | .stopping e head accepted => committed = .head head ∧
      (accepted = true → ∀ n, head.added = some n → ∃ response, e.data = .map response)
  | .starting _ head => committed = .head head ∧ head.Grown cfg ∧ (head.given.map Prod.fst).Nodup
  | .posting _ head answer => committed = .head head ∧
      ∀ n, Unsupplied cfg.java head.given → (∀ m, head.added = some m → m = n) →
        answer.Adds cfg.java head.given n
  | .body _ head => committed = .head head
  | .writing _ _ _ _ => ∃ head, committed = .head head
  | _ => True

/-- The thread that commits the response, of content length `n`. -/
structure Committer {ι : Type*} (cfg : Setting) (n : ℤ) (s : State ι) (i : ι) : Prop where
  others : ∀ j, j ≠ i → (s.pc j).owed cfg = [] ∧ (s.pc j).answering = false
  unanswered : (s.pc i).answering = true → s.emitter.answer = none
  balance :
    (((s.pc i).owed cfg).length + s.emitter.handed.length + s.emitter.queued.length : ℤ) = n ∨
      s.emitter.answer = none ∧ (s.pc i).answering = false

/-- What holds of a response in every run that is sized. -/
structure Accounted {ι : Type*} (cfg : Setting) (s : State ι) : Prop where
  lawful : ∀ i, (s.pc i).Lawful cfg s.emitter.committed
  fresh : (∀ head, s.emitter.committed ≠ .head head) →
    s.emitter.answer = none ∧ s.emitter.handed = [] ∧ s.emitter.queued = []
  answered : ∀ head answer n, s.emitter.committed = .head head → s.emitter.answer = some answer →
    Unsupplied cfg.java head.given → (∀ m, head.added = some m → m = n) →
    answer.Adds cfg.java head.given n
  counted : ∀ head n, s.emitter.committed = .head head → head.added = some n →
    ∃ i, Committer cfg n s i

/-- What a step of a thread does to a response with its content length from Busker. -/
structure Shift (cfg : Setting) (s t : Emitter) (p q : Point) : Prop where
  answering : q.answering = true → p.answering = true
  answer : t.answer = s.answer ∨ p.answering = true ∧ q.answering = false
  grows : s.handed.length + s.queued.length ≤ t.handed.length + t.queued.length
  balance : (q.owed cfg).length + t.handed.length + t.queued.length =
      (p.owed cfg).length + s.handed.length + s.queued.length ∨
    t.handed = s.handed ∧ t.queued = s.queued ∧ t.answer = s.answer ∧ q.owed cfg = [] ∧
      (p.owed cfg = [] ∨ p.answering = true) ∧ q.answering = false

/-- A step that moves bytes nowhere and owes what it owed. -/
theorem Shift.still {s t : Emitter} {p q : Point} (handed : t.handed = s.handed)
    (queued : t.queued = s.queued) (answer : t.answer = s.answer) (owed : q.owed cfg = p.owed cfg)
    (answering : q.answering = true → p.answering = true) : Shift cfg s t p q where
  answering := answering
  answer := .inl answer
  grows := by rw [handed, queued]
  balance := .inl (by rw [handed, queued, owed])

/-- A step that leaves a thread with nothing to write, which had nothing or had not
answered. -/
theorem Shift.leave {s t : Emitter} {p q : Point} (handed : t.handed = s.handed)
    (queued : t.queued = s.queued) (answer : t.answer = s.answer) (owed : q.owed cfg = [])
    (before : p.owed cfg = [] ∨ p.answering = true) (answering : q.answering = false) :
    Shift cfg s t p q where
  answering on := by simp [answering] at on
  answer := .inl answer
  grows := by rw [handed, queued]
  balance := .inr ⟨handed, queued, answer, owed, before, answering⟩

theorem owed_afterBody (closeAfter : Bool) : (afterBody closeAfter).owed cfg = [] := by
  cases closeAfter <;> rfl

theorem answering_afterBody (closeAfter : Bool) : (afterBody closeAfter).answering = false := by
  cases closeAfter <;> rfl

theorem owed_afterCommit (e : Emit) (head : Head) :
    (afterCommit e head true).owed cfg = (e.written cfg head).bytes ∧
      (afterCommit e head true).answering = false := by
  unfold afterCommit Emit.written
  cases data : e.data with
  | body => simp [Point.owed, Point.answering, Emit.written, data]
  | map response =>
      cases truthy : response.body.truthy with
      | true => simp [Point.owed, Point.answering, Emit.written, data, truthy]
      | false => simp [writtenOfMap, truthy, owed_afterBody, answering_afterBody]

section
variable {ι : Type*} {s : State ι} {t : Emitter} {i k : ι} {q : Point} {n : ℤ}

theorem Committer.move [DecidableEq ι] (h : Committer cfg n s i)
    (shift : Shift cfg s.emitter t (s.pc k) q) :
    Committer cfg n ⟨t, Function.update s.pc k q⟩ i := by
  by_cases own : i = k
  · subst own
    refine ⟨fun j other => ?_, fun on => ?_, ?_⟩
    · dsimp only
      rw [Function.update_of_ne other]
      exact h.others j other
    · dsimp only at on ⊢
      rw [Function.update_self] at on
      rcases shift.answer with same | ⟨-, off⟩
      · rw [same]
        exact h.unanswered (shift.answering on)
      · simp [on] at off
    · dsimp only
      rw [Function.update_self]
      rcases h.balance with balance | ⟨none, off⟩
      · rcases shift.balance with same | ⟨handed, queued, answer, owed, before, off⟩
        · left
          omega
        · rcases before with none | answering
          · left
            rw [handed, queued, owed]
            rwa [none] at balance
          · exact .inr ⟨answer.trans (h.unanswered answering), off⟩
      · right
        rcases shift.answer with same | ⟨on, -⟩
        · refine ⟨same.trans none, ?_⟩
          by_contra on
          simp [shift.answering (by simpa using on)] at off
        · simp [on] at off
  · obtain ⟨none, off⟩ := h.others k (Ne.symm own)
    have after : q.owed cfg = [] ∧ t.handed.length + t.queued.length =
        s.emitter.handed.length + s.emitter.queued.length := by
      rcases shift.balance with same | ⟨handed, queued, -, owed, -, -⟩
      · have grows := shift.grows
        rw [none, List.length_nil] at same
        exact ⟨List.length_eq_zero_iff.mp (by omega), by omega⟩
      · exact ⟨owed, by rw [handed, queued]⟩
    have quiet : q.answering = false := by
      by_contra on
      simp [shift.answering (by simpa using on)] at off
    have answer : t.answer = s.emitter.answer :=
      shift.answer.resolve_right fun on => by simp [on.1] at off
    refine ⟨fun j other => ?_, ?_, ?_⟩
    · exact forall_update (P := fun j (p : Point) => j ≠ i → p.owed cfg = [] ∧ p.answering = false)
        h.others (fun _ => ⟨after.1, quiet⟩) j other
    · dsimp only
      rw [Function.update_of_ne own, answer]
      exact h.unanswered
    · dsimp only
      rw [Function.update_of_ne own, answer]
      refine h.balance.imp_left fun balance => ?_
      have bytes := after.2
      omega

end

section
variable {s t : Emitter} {p q : Point} {move : Move} {head : Head} {n : ℤ}

theorem lawful_afterBody {committed : Committed} (closeAfter : Bool) :
    (afterBody closeAfter).Lawful cfg committed := by
  cases closeAfter <;> trivial

theorem lawful_afterCommit {e : Emit} {withBody : Bool} :
    (afterCommit e head withBody).Lawful cfg (.head head) := by
  unfold afterCommit
  split
  · split
    · rfl
    · exact lawful_afterBody _
  · rfl

/-- A thread with a head works on the head that is committed. -/
theorem enterCommit_lawful {committed : Committed} (e : Emit) :
    (enterCommit cfg e).Lawful cfg committed := by
  unfold enterCommit
  split
  · rename_i outcome settles
    exact commitFinal_spec settles
  · trivial

/-- A step of a thread after the commit. -/
structure HeadedStep (cfg : Setting) (head : Head) (s t : Emitter) (p q : Point) (move : Move) :
    Prop where
  committed : t.committed = s.committed
  lawful : q.Lawful cfg (.head head)
  answer : t.answer = s.answer ∨ ∃ answer, t.answer = some answer ∧
    ∀ n, Unsupplied cfg.java head.given → (∀ m, head.added = some m → m = n) →
      answer.Adds cfg.java head.given n
  shift : ∀ n, head.added = some n → allowed cfg s p move → Shift cfg s t p q

theorem HeadedStep.still (committed : t.committed = s.committed) (handed : t.handed = s.handed)
    (queued : t.queued = s.queued) (answer : t.answer = s.answer) (lawful : q.Lawful cfg (.head head))
    (owed : q.owed cfg = p.owed cfg) (answering : q.answering = true → p.answering = true) :
    HeadedStep cfg head s t p q move :=
  ⟨committed, lawful, .inl answer, fun _ _ _ => .still handed queued answer owed answering⟩

theorem HeadedStep.leave (committed : t.committed = s.committed) (handed : t.handed = s.handed)
    (queued : t.queued = s.queued) (answer : t.answer = s.answer) (lawful : q.Lawful cfg (.head head))
    (owed : q.owed cfg = []) (before : p.owed cfg = [] ∨ p.answering = true)
    (answering : q.answering = false) : HeadedStep cfg head s t p q move :=
  ⟨committed, lawful, .inl answer, fun _ _ _ => .leave handed queued answer owed before answering⟩

/-- `emit!` on a committed emitter: body data goes on to be written, a map does not. -/
theorem dispatch_headed {e : Emit} (committed : s.committed = .head head) :
    HeadedStep cfg head s (dispatch cfg s e).1 (.opened e) (dispatch cfg s e).2 .tick := by
  unfold dispatch
  cases data : e.data with
  | map response =>
      have leaves : HeadedStep cfg head s s (.opened e) .idle .tick :=
        .leave rfl rfl rfl rfl trivial rfl (.inl rfl) rfl
      dsimp only
      cases response.status with
      | none => exact leaves
      | some status =>
          dsimp only
          rw [committed]
          split
          · exact leaves
          · exact leaves
  | body data' =>
      dsimp only
      rw [committed]
      refine ⟨rfl, rfl, .inl rfl, fun n added sized => ?_⟩
      have empty : (e.written cfg head).bytes = [] := by
        simp only [allowed, data, committed, added] at sized
        rw [Emit.written, data]
        exact sized rfl
      exact .leave rfl rfl rfl empty (.inl rfl) rfl

theorem takePiece_headed {closeAfter entered thrown : Bool} {rest : List UInt8} {count : ℕ}
    (committed : s.committed = .head head)
    (h : takePiece s closeAfter entered rest thrown count = some (t, q)) :
    HeadedStep cfg head s t (.writing closeAfter entered rest thrown) q (.take count) := by
  unfold takePiece at h
  split at h
  · rename_i refused
    split at h
    · obtain ⟨rfl, rfl⟩ := Prod.mk.inj (Option.some.inj h)
      refine ⟨rfl, ⟨head, rfl⟩, .inl rfl, fun n added sized => ?_⟩
      have long : s.committed.lengthAdded = true := by simp [committed, Committed.lengthAdded, added]
      rcases sized long with rfl | ⟨running, takes⟩
      · exact .still rfl rfl rfl List.drop_nil id
      · simp [running, takes] at refused
    · contradiction
  · obtain ⟨rfl, rfl⟩ := Prod.mk.inj (Option.some.inj h)
    refine ⟨rfl, ⟨head, rfl⟩, .inl rfl, fun n added sized => ⟨id, .inl rfl, ?_, .inl ?_⟩⟩
    · simp
    · simp only [Point.owed, List.length_drop, List.length_append, List.length_take]
      omega

theorem callerStep_headed (committed : s.committed = .head head) (knows : p.Lawful cfg s.committed)
    (h : callerStep cfg s p move = some (t, q)) : HeadedStep cfg head s t p q move := by
  cases p <;> cases move <;> simp only [callerStep, reduceCtorEq, Option.some.injEq, Prod.mk.injEq] at h
  case idle.emit e =>
    obtain ⟨rfl, rfl⟩ := h
    exact .leave rfl rfl rfl rfl trivial rfl (.inl rfl) rfl
  case idle.close =>
    obtain ⟨rfl, rfl⟩ := h
    exact .leave rfl rfl rfl rfl trivial rfl (.inl rfl) rfl
  case entered.tick e =>
    obtain ⟨rfl, rfl⟩ := h
    split <;> exact .leave rfl rfl rfl rfl trivial rfl (.inl rfl) rfl
  case opened.tick e =>
    obtain ⟨rfl, rfl⟩ := Prod.mk.inj h
    exact dispatch_headed committed
  case settled.tick e outcome =>
    obtain ⟨rfl, rfl⟩ := h
    rw [committed]
    exact .leave rfl rfl rfl rfl trivial rfl (.inl rfl) rfl
  case loaded.tick e outcome informational =>
    unfold swap at h
    rw [committed] at h
    obtain ⟨rfl, rfl⟩ := Prod.mk.inj h
    exact .leave rfl rfl rfl rfl trivial rfl (.inl rfl) rfl
  case publish.reply e own plan reply =>
    obtain ⟨same, grown, distinct, sized, adds⟩ := knows
    obtain rfl : own = head := Committed.head.inj (same.symm.trans committed)
    cases reply <;> simp only [Option.some.injEq, Prod.mk.injEq] at h <;> obtain ⟨rfl, rfl⟩ := h
    · refine ⟨rfl, ⟨rfl, fun _ n added => (sized n added).1⟩, .inr ⟨_, rfl, adds⟩, fun n added _ => ?_⟩
      obtain ⟨-, whole, written⟩ := sized n added
      refine ⟨fun on => by simp [Point.answering] at on, .inr ⟨rfl, rfl⟩, ?_, .inl ?_⟩
      · simp
      · simp only [Point.owed, List.length_nil, List.length_append]
        omega
    · exact .leave rfl rfl rfl rfl ⟨rfl, by simp⟩ rfl (.inr rfl) rfl
    · exact .still rfl rfl rfl rfl ⟨rfl, grown, distinct⟩ rfl fun _ => rfl
  case stopping.tick e own accepted =>
    obtain ⟨same, maps⟩ := knows
    obtain rfl : own = head := Committed.head.inj (same.symm.trans committed)
    obtain ⟨rfl, rfl⟩ := h
    cases accepted with
    | false => exact .leave rfl rfl rfl rfl trivial rfl (.inl rfl) rfl
    | true =>
        refine ⟨rfl, lawful_afterCommit, .inl rfl, fun n added _ => ?_⟩
        obtain ⟨response, data⟩ := maps rfl n added
        have after : afterCommit e own false = afterBody e.closeAfter := by
          simp [afterCommit, data]
        rw [if_pos rfl, after]
        exact .leave rfl rfl rfl (owed_afterBody _) (.inl rfl) (answering_afterBody _)
  case starting.tick e own =>
    obtain ⟨same, grown, distinct⟩ := knows
    obtain rfl : own = head := Committed.head.inj (same.symm.trans committed)
    split at h
    · rename_i answer starts
      obtain ⟨rfl, rfl⟩ := Prod.mk.inj (Option.some.inj h)
      exact .still rfl rfl rfl rfl
        ⟨rfl, fun n unsupplied added => startResponse_adds grown distinct unsupplied added starts⟩
        rfl fun _ => rfl
    · obtain ⟨rfl, rfl⟩ := Prod.mk.inj (Option.some.inj h)
      exact .leave rfl rfl rfl rfl trivial rfl (.inr rfl) rfl
  case posting.reply e own answer reply =>
    obtain ⟨same, adds⟩ := knows
    obtain rfl : own = head := Committed.head.inj (same.symm.trans committed)
    cases reply <;> simp only [Option.some.injEq, Prod.mk.injEq] at h <;> obtain ⟨rfl, rfl⟩ := h
    · obtain ⟨owed, quiet⟩ := @owed_afterCommit cfg e own
      refine ⟨rfl, lawful_afterCommit, .inr ⟨_, rfl, adds⟩, fun n added _ => ?_⟩
      refine ⟨fun on => by simp [quiet] at on, .inr ⟨rfl, quiet⟩, le_rfl, .inl ?_⟩
      rw [owed]
      rfl
    · exact .leave rfl rfl rfl rfl ⟨rfl, by simp⟩ rfl (.inr rfl) rfl
    · exact .leave rfl rfl rfl rfl ⟨rfl, by simp⟩ rfl (.inr rfl) rfl
  case body.tick e own =>
    obtain rfl : own = head := Committed.head.inj (knows.symm.trans committed)
    obtain ⟨rfl, rfl⟩ := h
    exact .still rfl rfl rfl rfl ⟨own, rfl⟩ rfl id
  case writing.take closeAfter entered rest thrown count => exact takePiece_headed committed h
  case writing.fail closeAfter entered rest thrown =>
    obtain ⟨rfl, rfl⟩ := h
    refine ⟨rfl, trivial, .inl rfl, fun n added sized => ?_⟩
    have long : s.committed.lengthAdded = true := by simp [committed, Committed.lengthAdded, added]
    exact .leave rfl rfl rfl rfl (.inl (sized long)) rfl
  case writing.finish closeAfter entered rest thrown closes =>
    cases rest with
    | cons => contradiction
    | nil =>
        dsimp only at h
        split at h <;> obtain ⟨rfl, rfl⟩ := Prod.mk.inj (Option.some.inj h)
        · exact .leave rfl rfl rfl rfl trivial rfl (.inl rfl) rfl
        · exact .leave rfl rfl rfl rfl (lawful_afterBody _) (owed_afterBody _) (.inl rfl)
            (answering_afterBody _)
  case closing.tick =>
    split at h <;> obtain ⟨rfl, rfl⟩ := Prod.mk.inj (Option.some.inj h)
    · exact .leave rfl rfl rfl rfl trivial rfl (.inl rfl) rfl
    · split <;> exact .leave rfl rfl rfl rfl trivial rfl (.inl rfl) rfl
  case beginClose.tick writer =>
    split at h <;> obtain ⟨rfl, rfl⟩ := Prod.mk.inj (Option.some.inj h) <;> split <;>
      exact .leave rfl rfl rfl rfl trivial rfl (.inl rfl) rfl
  case closeStream.tick =>
    obtain ⟨rfl, rfl⟩ := h
    exact .leave rfl rfl rfl rfl trivial rfl (.inl rfl) rfl
  case terminal.tick =>
    obtain ⟨rfl, rfl⟩ := h
    exact .leave rfl rfl rfl rfl trivial rfl (.inl rfl) rfl

/-- Before the commit no thread is past it. -/
theorem Point.Lawful.early {committed : Committed} (h : p.Lawful cfg committed)
    (fresh : ∀ head, committed ≠ .head head) :
    p.owed cfg = [] ∧ p.answering = false ∧ ∀ later, p.Lawful cfg later := by
  cases p with
  | publish => exact absurd h.1 (fresh _)
  | stopping => exact absurd h.1 (fresh _)
  | starting => exact absurd h.1 (fresh _)
  | posting => exact absurd h.1 (fresh _)
  | body => exact absurd h (fresh _)
  | writing =>
      obtain ⟨head, same⟩ := h
      exact absurd same (fresh head)
  | settled => exact ⟨rfl, rfl, fun _ => h⟩
  | loaded => exact ⟨rfl, rfl, fun _ => h⟩
  | _ => exact ⟨rfl, rfl, fun _ => trivial⟩

/-- A step of a thread before the commit, or the commit itself. -/
inductive FreshStep (cfg : Setting) (s t : Emitter) (p q : Point) (move : Move) : Prop
  | early (fresh : ∀ head, t.committed ≠ .head head) (lawful : q.Lawful cfg t.committed)
  | commit (e : Emit) (outcome : Settled) (settles : SettledSpec cfg e.response e.closeAfter outcome)
      (committed : t.committed = .head outcome.head) (after : q = afterSwap e outcome)
      (measured : allowed cfg s p move → e.Measured cfg)

theorem dispatch_fresh (e : Emit) (fresh : ∀ head, s.committed ≠ .head head) :
    (∀ head, (dispatch cfg s e).1.committed ≠ .head head) ∧
      (dispatch cfg s e).2.Lawful cfg (dispatch cfg s e).1.committed ∧
      (dispatch cfg s e).1.answer = s.answer ∧ (dispatch cfg s e).1.handed = s.handed ∧
      (dispatch cfg s e).1.queued = s.queued := by
  unfold dispatch
  split
  · split
    · exact ⟨fresh, trivial, rfl, rfl, rfl⟩
    · split
      · split
        · exact ⟨by simp, trivial, rfl, rfl, rfl⟩
        · exact ⟨fresh, trivial, rfl, rfl, rfl⟩
      · split
        · exact ⟨fresh, trivial, rfl, rfl, rfl⟩
        · exact ⟨fresh, enterCommit_lawful e, rfl, rfl, rfl⟩
  · split
    · rename_i head same
      exact absurd same (fresh head)
    · exact ⟨fresh, enterCommit_lawful e, rfl, rfl, rfl⟩

theorem callerStep_fresh (fresh : ∀ head, s.committed ≠ .head head) (knows : p.Lawful cfg s.committed)
    (h : callerStep cfg s p move = some (t, q)) :
    FreshStep cfg s t p q move ∧ t.answer = s.answer ∧ t.handed = s.handed ∧ t.queued = s.queued := by
  cases p <;> cases move <;> simp only [callerStep, reduceCtorEq, Option.some.injEq, Prod.mk.injEq] at h
  case idle.emit e | idle.close =>
    obtain ⟨rfl, rfl⟩ := h
    exact ⟨.early fresh trivial, rfl, rfl, rfl⟩
  case entered.tick e =>
    obtain ⟨rfl, rfl⟩ := h
    split <;> exact ⟨.early fresh trivial, rfl, rfl, rfl⟩
  case opened.tick e =>
    obtain ⟨rfl, rfl⟩ := Prod.mk.inj h
    obtain ⟨fresh, lawful, same⟩ := @dispatch_fresh cfg s e fresh
    exact ⟨.early fresh lawful, same⟩
  case settled.tick e outcome =>
    obtain ⟨rfl, rfl⟩ := h
    split
    · exact ⟨.early fresh knows, rfl, rfl, rfl⟩
    · exact ⟨.early fresh knows, rfl, rfl, rfl⟩
    · exact ⟨.early fresh trivial, rfl, rfl, rfl⟩
  case loaded.tick e outcome informational =>
    unfold swap at h
    split at h <;> obtain ⟨rfl, rfl⟩ := Prod.mk.inj h
    · exact ⟨.commit e outcome knows rfl rfl id, rfl, rfl, rfl⟩
    · exact ⟨.commit e outcome knows rfl rfl id, rfl, rfl, rfl⟩
    · exact ⟨.early fresh trivial, rfl, rfl, rfl⟩
  case publish.reply => exact absurd knows.1 (fresh _)
  case stopping.tick => exact absurd knows.1 (fresh _)
  case starting.tick => exact absurd knows.1 (fresh _)
  case posting.reply => exact absurd knows.1 (fresh _)
  case body.tick => exact absurd knows (fresh _)
  case writing.take | writing.fail | writing.finish =>
    obtain ⟨head, same⟩ := knows
    exact absurd same (fresh head)
  case closing.tick =>
    split at h <;> obtain ⟨rfl, rfl⟩ := Prod.mk.inj (Option.some.inj h)
    · exact ⟨.early fresh trivial, rfl, rfl, rfl⟩
    · refine ⟨.early fresh ?_, rfl, rfl, rfl⟩
      split <;> trivial
  case beginClose.tick writer =>
    split at h <;> obtain ⟨rfl, rfl⟩ := Prod.mk.inj (Option.some.inj h) <;>
      refine ⟨.early fresh ?_, rfl, rfl, rfl⟩ <;> split <;> trivial
  case closeStream.tick | terminal.tick =>
    obtain ⟨rfl, rfl⟩ := h
    exact ⟨.early fresh trivial, rfl, rfl, rfl⟩

end

section
variable {e : Emit} {outcome : Settled} {n : ℤ}

theorem Emit.distinct (e : Emit) : (e.response.headers.map Prod.fst).Nodup :=
  e.response.distinct

/-- The bytes a committing `emit!` will write are as many as the length it has added. -/
theorem written_length (settles : SettledSpec cfg e.response e.closeAfter outcome)
    (measured : e.Measured cfg) (added : outcome.head.added = some n) :
    ((e.written cfg outcome.head).bytes.length : ℤ) = n ∧
      ∀ plan, outcome.plan = some plan →
        (∃ response, e.data = .map response) ∧ (plan.body.encoded.length : ℤ) = n := by
  have final := (settles.sized n added).1
  have sized := measured final
  have grown : truthyHeader cfg.java e.response.headers contentLengthName = none ∧
      outcome.head.headers = setHeader cfg.order e.response.headers contentLengthName (strLong n) := by
    cases settles.grown with
    | kept none_added _ => simp [none_added] at added
    | grown m own headers absent =>
        rw [settles.given] at headers absent
        rw [own] at added
        obtain rfl := Option.some.inj added
        exact ⟨absent, headers⟩
  cases data : e.data with
  | map response =>
      have same : e.response = response := by rw [Emit.response, data]
      rw [data] at sized
      rw [same] at settles grown
      obtain ⟨written, planned⟩ := settles.length (sized grown.1) added
      rw [Emit.written, data]
      exact ⟨written, fun plan has => ⟨⟨response, rfl⟩, planned plan has⟩⟩
  | body data' =>
      have same : e.response = .bare := by rw [Emit.response, data]
      rw [data] at sized
      rw [same] at settles grown
      obtain ⟨rfl, none_planned⟩ := commitFinal_bare settles added
      refine ⟨?_, fun plan has => by simp [none_planned] at has⟩
      rw [Emit.written, data]
      dsimp only
      rw [final, grown.2]
      exact congrArg (fun bytes : List UInt8 => (bytes.length : ℤ)) sized

theorem afterSwap_lawful (settles : SettledSpec cfg e.response e.closeAfter outcome)
    (measured : e.Measured cfg) : (afterSwap e outcome).Lawful cfg (.head outcome.head) := by
  have distinct : (outcome.head.given.map Prod.fst).Nodup := by
    rw [settles.given]
    exact e.distinct
  unfold afterSwap
  split
  · rename_i plan planned
    refine ⟨rfl, settles.grown, distinct, fun n added => ?_, fun n => settles.answers planned⟩
    obtain ⟨written, whole⟩ := written_length settles measured added
    exact ⟨(whole plan planned).1, (whole plan planned).2, written⟩
  · exact ⟨rfl, settles.grown, distinct⟩

end

section
variable {ι : Type*} [DecidableEq ι] {s : State ι} {t : Emitter} {i : ι} {q : Point} {move : Move}

theorem Accounted.headed {head : Head} (h : Accounted cfg s)
    (committed : s.emitter.committed = .head head)
    (sized : allowed cfg s.emitter (s.pc i) move)
    (step : HeadedStep cfg head s.emitter t (s.pc i) q move) :
    Accounted cfg ⟨t, Function.update s.pc i q⟩ where
  lawful := by
    apply forall_update (P := fun _ (p : Point) => p.Lawful cfg t.committed)
    · rw [step.committed]
      exact h.lawful
    · rw [step.committed, committed]
      exact step.lawful
  fresh fresh := absurd (step.committed.trans committed) (fresh head)
  answered own answer n same := by
    obtain rfl : own = head := Committed.head.inj (same.symm.trans (step.committed.trans committed))
    intro answered
    rcases step.answer with kept | ⟨new, posted, adds⟩
    · exact h.answered own answer n committed (kept ▸ answered)
    · obtain rfl : answer = new := Option.some.inj (answered.symm.trans posted)
      exact adds n
  counted own n same added := by
    obtain rfl : own = head := Committed.head.inj (same.symm.trans (step.committed.trans committed))
    obtain ⟨k, committer⟩ := h.counted own n committed added
    exact ⟨k, committer.move (step.shift n added sized)⟩

theorem Accounted.unheaded (h : Accounted cfg s) (fresh : ∀ head, s.emitter.committed ≠ .head head)
    (sized : allowed cfg s.emitter (s.pc i) move)
    (moved : callerStep cfg s.emitter (s.pc i) move = some (t, q)) :
    Accounted cfg ⟨t, Function.update s.pc i q⟩ := by
  have early := fun j => (h.lawful j).early fresh
  obtain ⟨none, handed, queued⟩ := h.fresh fresh
  obtain ⟨step, answer', handed', queued'⟩ := callerStep_fresh fresh (h.lawful i) moved
  cases step with
  | early fresh' lawful =>
      refine ⟨?_, fun _ => ⟨answer'.trans none, handed'.trans handed, queued'.trans queued⟩,
        fun head _ _ same => absurd same (fresh' head), fun head _ same => absurd same (fresh' head)⟩
      exact forall_update (P := fun _ (p : Point) => p.Lawful cfg t.committed)
        (fun j => (early j).2.2 _) lawful
  | commit e outcome settles committed after measured =>
      have measured := measured sized
      refine ⟨?_, fun fresh' => absurd committed (fresh' _), ?_, fun head n same added => ⟨i, ?_⟩⟩
      · refine forall_update (P := fun _ (p : Point) => p.Lawful cfg t.committed)
          (fun j => (early j).2.2 _) ?_
        rw [committed, after]
        exact afterSwap_lawful settles measured
      · intro _ _ _ _ answered
        rw [answer'.trans none] at answered
        contradiction
      · obtain rfl : outcome.head = head := Committed.head.inj (committed.symm.trans same)
        have owed : q.owed cfg = (e.written cfg outcome.head).bytes := by
          rw [after, afterSwap]
          split <;> rfl
        refine ⟨fun j other => ?_, fun _ => answer'.trans none, .inl ?_⟩
        · dsimp only
          rw [Function.update_of_ne other]
          exact ⟨(early j).1, (early j).2.1⟩
        · dsimp only
          rw [Function.update_self, owed, handed', queued', handed, queued]
          simpa using (written_length settles measured added).1

omit [DecidableEq ι] in
/-- What the worker does moves bytes from the queue to the native layer, or none. -/
theorem Accounted.worker (h : Accounted cfg s) (committed : t.committed = s.emitter.committed)
    (answer : t.answer = s.emitter.answer)
    (bytes : t.handed.length + t.queued.length =
      s.emitter.handed.length + s.emitter.queued.length) : Accounted cfg { s with emitter := t } where
  lawful i := by
    dsimp only
    rw [committed]
    exact h.lawful i
  fresh fresh := by
    obtain ⟨none, handed, queued⟩ := h.fresh fun head same => fresh head (committed.trans same)
    rw [handed, queued, List.length_nil] at bytes
    exact ⟨answer.trans none, List.length_eq_zero_iff.mp (Nat.eq_zero_of_add_eq_zero_right bytes),
      List.length_eq_zero_iff.mp (Nat.eq_zero_of_add_eq_zero_left bytes)⟩
  answered head own n same answered :=
    h.answered head own n (committed.symm.trans same) (answer.symm.trans answered)
  counted head n same added := by
    obtain ⟨i, committer⟩ := h.counted head n (committed.symm.trans same) added
    refine ⟨i, committer.others, fun on => answer.trans (committer.unanswered on), ?_⟩
    refine committer.balance.imp (fun balance => ?_) fun refused => ⟨answer.trans refused.1, refused.2⟩
    dsimp only
    omega

theorem Accounted.step {a : Action ι} {t : State ι} (h : Accounted cfg s) (sized : sized cfg a s)
    (moves : stepFn cfg a s = some t) : Accounted cfg t := by
  cases a with
  | caller i move =>
      obtain ⟨⟨e, q⟩, moved, rfl⟩ := Option.map_eq_some_iff.mp moves
      cases committed : s.emitter.committed with
      | head head =>
          exact h.headed committed sized (callerStep_headed committed (h.lawful i) moved)
      | uncommitted => exact h.unheaded (by simp [committed]) sized moved
      | informationalSent => exact h.unheaded (by simp [committed]) sized moved
  | drain count final =>
      obtain ⟨e, drained, rfl⟩ := Option.map_eq_some_iff.mp moves
      unfold drain at drained
      split at drained
      · obtain rfl := Option.some.inj drained
        refine h.worker ?_ ?_ ?_
        · rfl
        · rfl
        · simp only [List.length_append, List.length_take, List.length_drop]
          omega
      · contradiction
  | stopWriter =>
      obtain rfl := Option.some.inj moves
      exact h.worker rfl rfl rfl
  | stopEmitter =>
      obtain rfl := Option.some.inj moves
      exact h.worker rfl rfl rfl

theorem accounted_of_sized (h : (machine (ι := ι) cfg).ReachableVia (sized cfg) s) : Accounted cfg s := by
  apply h.invariant
  · rintro _ rfl
    exact ⟨fun _ => trivial, fun _ => ⟨rfl, rfl, rfl⟩, fun head _ _ same => by simp [newEmitter] at same,
      fun head _ same => by simp [newEmitter] at same⟩
  · exact fun a s t hs sized moves => hs.step sized moves

/-- In a sized run the content length Busker adds is the length of the body. -/
theorem sound_of_sized (h : (machine (ι := ι) cfg).ReachableVia (sized cfg) s) : Sound cfg s := by
  have accounted := accounted_of_sized h
  intro head answer committed answered unsupplied complete
  apply accounted.answered head answer _ committed answered unsupplied
  intro n added
  obtain ⟨i, committer⟩ := accounted.counted head n committed added
  rcases committer.balance with balance | ⟨none, -⟩
  · rw [complete.1 i, complete.2] at balance
    simp only [List.length_nil, Nat.cast_zero, zero_add, add_zero] at balance
    exact balance.symm
  · rw [none] at answered
    contradiction

end

/-- Java's ASCII and Clojure's maps, without Ring. -/
def plain : Setting := ⟨asciiText, clojureOrder, none, ⟨7, 9, 16, none⟩⟩

/-- `emit!` with `:close-after? true` by one thread, up to the last drain. -/
def emitAndClose (data : Data) (commit : List (Action Unit)) (count : ℕ) : List (Action Unit) :=
  [.caller () (.emit ⟨data, true⟩), .caller () .tick, .caller () .tick, .caller () .tick,
    .caller () .tick] ++ commit ++
    [.caller () .tick, .caller () (.reply .accepted), .caller () .tick, .caller () (.take count),
      .caller () (.finish false), .caller () .tick, .caller () .tick, .caller () .tick,
      .caller () .tick, .drain count true]

/-- A map with five bytes, which finds the ring overloaded. -/
def fiveBytes : Data := .map ⟨some 200, [], .fixed (.bytes [104, 101, 108, 108, 111]), none, List.nodup_nil⟩

/-- The same with Ring. -/
def ringed : Setting := ⟨asciiText, clojureOrder, some (ringStreaming asciiText fun _ => []), ⟨7, 9, 16, none⟩⟩

/-- The five bytes are streamed behind a content length of five. -/
theorem fiveBytes_sound :
    Sound ringed ((machine ringed).runFromVia (sized ringed)
      (emitAndClose fiveBytes [.caller () (.reply .overloaded)] 5) newEmitter) ∧
    ((machine ringed).runFromVia (sized ringed)
      (emitAndClose fiveBytes [.caller () (.reply .overloaded)] 5) newEmitter).emitter =
      ⟨.head ⟨200, [(contentLengthName, .text [53])], .enable, [], some 5⟩, .closed, true, true, true,
        [], some ⟨200, [], 5, 2⟩, [104, 101, 108, 108, 111]⟩ :=
  ⟨sound_of_sized ((Machine.ReachableVia.init rfl).runFromVia _), by decide +kernel⟩

/-- `(emit! emitter "hello" {:close-after? true})` -/
def hello : List (Action Unit) :=
  emitAndClose (.body (.fixed (.text [104, 101, 108, 108, 111]))) [] 5

/-- The head is that of a response without a body, and says so; the five bytes follow. -/
theorem hello_not_sound :
    ¬ ∀ (cfg : Setting) (s : State Unit), (machine cfg).Reachable s → Sound cfg s := by
  intro all
  have sound := all plain _ (Machine.Reachable.runFrom hello (Machine.Reachable.init rfl))
  have final : ((machine plain).runFrom hello newEmitter).emitter =
      ⟨.head ⟨200, [(contentLengthName, .text [48])], .enable, [], some 0⟩, .closed, true, true, true,
        [], some ⟨200, [], 0, 2⟩, [104, 101, 108, 108, 111]⟩ := by
    decide +kernel
  have complete : Complete plain ((machine plain).runFrom hello newEmitter) := by
    refine ⟨fun i => ?_, by rw [final]⟩
    cases i
    decide +kernel
  have adds := sound _ _ (by rw [final]) (by rw [final]) (by simp [Unsupplied]) complete
  rw [final] at adds
  exact absurd (adds.field (by decide)) (by decide)

end Busker.ContentLength
