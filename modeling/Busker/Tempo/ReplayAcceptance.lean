import Busker.Tempo.ReplayAgreement

/-! When the replay accepts the evidence of a run. -/
namespace Busker.Tempo

section
variable {runId : String} {limits : Limits} {evidence : ParentEvidence} {s r t last : RunState}
  {step : Completed} {record : StepResult} {records : List StepResult} {completed : List Completed}
  {elapsedMs : ℤ}

theorem completeStep_eq_ok :
    completeStep runId limits s step = .ok (record, t) ↔ ∃ active,
      beginSavedStep s limits step.elapsedMs = .ok active ∧
        finishStep active active.sequence step.outcome (outputOf runId active.sequence) = .ok t ∧
        record = resultOf runId active ⟨step.outcome, step.evidence⟩ := by
  unfold completeStep
  rw [bind_eq_ok]
  apply exists_congr
  intro active
  rw [bind_eq_ok]
  apply and_congr_right
  intro begins
  constructor
  · rintro ⟨next, finish, same⟩
    obtain ⟨rfl, rfl⟩ := Prod.mk.inj (Except.ok.inj same)
    exact ⟨finish, rfl⟩
  · rintro ⟨finish, rfl⟩
    exact ⟨t, finish, rfl⟩

theorem completeSteps_cons :
    completeSteps runId limits s (step :: completed) = .ok (records, last) ↔ ∃ record next rest,
      completeStep runId limits s step = .ok (record, next) ∧
        completeSteps runId limits next completed = .ok (rest, last) ∧ records = record :: rest := by
  rw [completeSteps, bind_eq_ok]
  constructor
  · rintro ⟨⟨record, next⟩, first, more⟩
    obtain ⟨⟨rest, ended⟩, others, same⟩ := bind_eq_ok.mp more
    obtain ⟨rfl, rfl⟩ := Prod.mk.inj (Except.ok.inj same)
    exact ⟨record, next, rest, first, others, rfl⟩
  · rintro ⟨record, next, rest, first, others, rfl⟩
    exact ⟨(record, next), first, bind_eq_ok.mpr ⟨(rest, last), others, rfl⟩⟩

theorem finishStep_counters {number : ℕ} {outcome : Outcome} {output : OutputReference}
    (finish : finishStep s number outcome output = .ok t) :
    t.attemptsStarted = s.attemptsStarted ∧ t.piCallsStarted = s.piCallsStarted := by
  obtain ⟨-, -, -, finishes⟩ := finishStep_finishes finish
  cases finishes with
  | failed message => exact ⟨rfl, rfl⟩
  | advanced advance =>
      obtain ⟨attempts, -, piCalls, -⟩ := advance_counters advance
      exact ⟨attempts, piCalls⟩

/-- The counters of a state with the step that its limits let it begin. -/
theorem beginSavedStep_counts (begins : beginSavedStep s limits elapsedMs = .ok t) :
    t.sequence = s.sequence + 1 ∧ t.elapsedMs = elapsedMs ∧
      t.attemptsStarted = s.attemptsStarted + (if t.phase = .startAttempt then 1 else 0) ∧
      t.piCallsStarted = s.piCallsStarted + (if t.phase.inference then 1 else 0) := by
  obtain ⟨-, rfl⟩ := beginSavedStep_eq_ok.mp begins
  simp [reserve]

theorem completeStep_counts (complete : completeStep runId limits s step = .ok (record, t)) :
    record.step = s.sequence + 1 ∧ t.sequence = s.sequence + 1 ∧ t.elapsedMs = step.elapsedMs ∧
      t.attemptsStarted = s.attemptsStarted + (if record.phase = .startAttempt then 1 else 0) ∧
      t.piCallsStarted = s.piCallsStarted + (if record.phase.inference then 1 else 0) := by
  obtain ⟨active, begins, finish, rfl⟩ := completeStep_eq_ok.mp complete
  obtain ⟨sequence, clock, attempts, piCalls⟩ := beginSavedStep_counts begins
  obtain ⟨-, same_sequence, same_clock⟩ := finishStep_sequence finish
  obtain ⟨same_attempts, same_piCalls⟩ := finishStep_counters finish
  exact ⟨sequence, same_sequence.trans sequence, same_clock.trans clock,
    same_attempts.trans attempts, same_piCalls.trans piCalls⟩

/-- What the steps of a run add to its sequence and to its counters. -/
theorem completeSteps_counts (runs : completeSteps runId limits s completed = .ok (records, last)) :
    records.length = completed.length ∧ last.sequence = s.sequence + completed.length ∧
      last.attemptsStarted = s.attemptsStarted +
        (records.filter fun step => step.phase == .startAttempt).length ∧
      last.piCallsStarted = s.piCallsStarted +
        (records.filter fun step => step.phase.inference).length := by
  induction completed generalizing s records with
  | nil =>
      obtain ⟨rfl, rfl⟩ := Prod.mk.inj (Except.ok.inj runs)
      simp
  | cons step completed ih =>
      obtain ⟨record, next, rest, first, others, rfl⟩ := completeSteps_cons.mp runs
      obtain ⟨length, sequence, attempts, piCalls⟩ := ih others
      obtain ⟨-, begun, -, attempted, called⟩ := completeStep_counts first
      refine ⟨by simp [length], by simp only [List.length_cons]; omega, ?_, ?_⟩
      · rw [attempts, attempted]
        by_cases phase : record.phase = .startAttempt
        · simp [phase]
          omega
        · simp [phase]
      · rw [piCalls, called]
        by_cases phase : record.phase.inference = true
        · simp [phase]
          omega
        · simp [phase]

/-- The counters stay within the limits. -/
def Afford (limits : Limits) (s : RunState) : Prop :=
  s.attemptsStarted ≤ limits.maxAttempts ∧ s.piCallsStarted ≤ limits.maxPiCalls

theorem Afford.begins (h : Afford limits s) (begins : beginSavedStep s limits elapsedMs = .ok t) :
    Afford limits t := by
  obtain ⟨-, rfl⟩ := beginSavedStep_eq_ok.mp begins
  obtain ⟨attempts, -, piCalls⟩ := proceeds_below (@proceeds_limited s limits elapsedMs)
  obtain ⟨attempted, called⟩ := h
  simp only [limited_attemptsStarted, limited_piCallsStarted] at attempts piCalls
  constructor
  · by_cases phase : (limited s limits elapsedMs).phase = .startAttempt
    · have below := attempts phase
      simp only [reserve, limited_attemptsStarted, phase, if_true]
      omega
    · simpa [reserve, phase] using attempted
  · by_cases phase : (limited s limits elapsedMs).phase.inference = true
    · have below := piCalls phase
      simp only [reserve, limited_piCallsStarted, phase, if_true]
      omega
    · simpa [reserve, phase] using called

theorem Afford.completes (h : Afford limits s)
    (runs : completeSteps runId limits s completed = .ok (records, last)) : Afford limits last := by
  induction completed generalizing s records with
  | nil =>
      obtain ⟨-, rfl⟩ := Prod.mk.inj (Except.ok.inj runs)
      exact h
  | cons step completed ih =>
      obtain ⟨record, next, rest, first, others, rfl⟩ := completeSteps_cons.mp runs
      obtain ⟨active, begins, finish, -⟩ := completeStep_eq_ok.mp first
      obtain ⟨attempts, piCalls⟩ := finishStep_counters finish
      apply ih _ others
      obtain ⟨attempted, called⟩ := h.begins begins
      exact ⟨attempts ▸ attempted, piCalls ▸ called⟩

theorem completeSteps_idle (idle : s.activeStep = none)
    (runs : completeSteps runId limits s completed = .ok (records, last)) : last.activeStep = none := by
  induction completed generalizing s records with
  | nil =>
      obtain ⟨-, rfl⟩ := Prod.mk.inj (Except.ok.inj runs)
      exact idle
  | cons step completed ih =>
      obtain ⟨record, next, rest, first, others, rfl⟩ := completeSteps_cons.mp runs
      obtain ⟨active, -, finish, -⟩ := completeStep_eq_ok.mp first
      exact ih (finishStep_sequence finish).1 others

/-- The elapsed time of a run with steps passes the limit check. -/
theorem completeSteps_clock (runs : completeSteps runId limits s completed = .ok (records, last))
    (some_steps : completed ≠ []) : isSafeInteger last.elapsedMs = true ∧ 0 ≤ last.elapsedMs := by
  induction completed generalizing s records with
  | nil => exact absurd rfl some_steps
  | cons step completed ih =>
      obtain ⟨record, next, rest, first, others, rfl⟩ := completeSteps_cons.mp runs
      cases completed with
      | nil =>
          obtain ⟨-, rfl⟩ := Prod.mk.inj (Except.ok.inj others)
          obtain ⟨active, begins, -, -⟩ := completeStep_eq_ok.mp first
          obtain ⟨-, -, clock, -⟩ := completeStep_counts first
          exact clock ▸ (beginSavedStep_eq_ok.mp begins).1.counters.elapsed
      | cons _ _ => exact ih others (List.cons_ne_nil _ _)

/-- A step that is replayed, from a state that agrees with the live one. -/
structure Replays (evidence : ParentEvidence) (s r : RunState) (step : Completed) (record : StepResult)
    (t : RunState) (elapsedMs : ℤ) : Prop where
  agree : Agree s r
  complete : completeStep evidence.runId evidence.limits s step = .ok (record, t)
  clock : elapsedMs = if record.step = evidence.steps.length then evidence.state.elapsedMs else r.elapsedMs
  later : r.elapsedMs ≤ elapsedMs
  safe : isSafeInteger elapsedMs = true ∧ 0 ≤ elapsedMs

theorem Replays.eq (h : Replays evidence s r step record t elapsedMs) :
    replayParentStep evidence r record =
      if record.phase ≠ (limited r evidence.limits elapsedMs).phase then
        .error "Parent step does not follow the previous result"
      else finishStep (reserve (limited r evidence.limits elapsedMs) elapsedMs) record.step
        record.outcome (outputOf evidence.runId record.step) := by
  obtain ⟨agree, complete, clock, later, safe⟩ := h
  obtain ⟨active, begins, -, rfl⟩ := completeStep_eq_ok.mp complete
  obtain ⟨ready, rfl⟩ := beginSavedStep_eq_ok.mp begins
  have replays : beginSavedStep r evidence.limits elapsedMs =
      .ok (reserve (limited r evidence.limits elapsedMs) elapsedMs) := by
    refine beginSavedStep_eq_ok.mpr ⟨?_, rfl⟩
    cases agree with
    | mk started reason met =>
        exact ⟨ready.running, ready.idle, later, ready.limits,
          ⟨ready.counters.attempts, ready.counters.repairs, ready.counters.piCalls, safe⟩⟩
  have sequence : r.sequence = s.sequence := by cases agree; rfl
  have revision : (limited r evidence.limits elapsedMs).workingRevision =
      (limited s evidence.limits step.elapsedMs).workingRevision := by
    cases agree with
    | mk started reason met => unfold limited; split <;> split <;> rfl
  have number : (limited s evidence.limits step.elapsedMs).sequence + 1 =
      (limited r evidence.limits elapsedMs).sequence + 1 := by
    rw [limited_sequence, limited_sequence, sequence]
  unfold replayParentStep
  rw [← clock]
  dsimp only
  rw [replays]
  change (if _ then _ else _) = _
  simp only [resultOf, reserve, number, revision, ne_eq, not_true_eq_false, false_or, or_false]

theorem Replays.follows (h : Replays evidence s r step record t elapsedMs)
    (same : timeless evidence.limits s step.elapsedMs elapsedMs) :
    ∃ u, replayParentStep evidence r record = .ok u ∧ Agree t u ∧ u.elapsedMs = elapsedMs := by
  have replayed := h.eq
  obtain ⟨active, begins, finish, rfl⟩ := completeStep_eq_ok.mp h.complete
  obtain ⟨-, rfl⟩ := beginSavedStep_eq_ok.mp begins
  have phase := (timeless_iff.mp same).trans h.agree.limited_phase.symm
  have agree : Agree (reserve (limited s evidence.limits step.elapsedMs) step.elapsedMs)
      (reserve (limited r evidence.limits elapsedMs) elapsedMs) := (h.agree.limited same).reserve
  obtain ⟨active, matching, saved, finishes⟩ := finishStep_eq_ok.mp finish
  obtain ⟨u, ends, agrees⟩ := finishes.agree agree
  have finished : finishStep (reserve (limited r evidence.limits elapsedMs) elapsedMs) _ step.outcome _ = .ok u :=
    finishStep_eq_ok.mpr ⟨agree.fields.2.2.1.trans active, matching.trans agree.fields.2.1.symm, saved, ends⟩
  exact ⟨u, replayed.trans ((if_neg (not_not.mpr phase)).trans finished), agrees, (finishStep_sequence finished).2.2⟩

theorem Replays.fails (h : Replays evidence s r step record t elapsedMs)
    (differs : ¬timeless evidence.limits s step.elapsedMs elapsedMs) :
    replayParentStep evidence r record =
      .error "Parent step does not follow the previous result" := by
  have replayed := h.eq
  obtain ⟨active, begins, -, rfl⟩ := completeStep_eq_ok.mp h.complete
  obtain ⟨-, rfl⟩ := beginSavedStep_eq_ok.mp begins
  have phase : (limited s evidence.limits step.elapsedMs).phase ≠
      (limited r evidence.limits elapsedMs).phase :=
    fun phase => differs (timeless_iff.mpr (phase.trans h.agree.limited_phase))
  exact replayed.trans (if_pos phase)

/-- The replay of the remaining steps. -/
theorem replay_steps (agree : Agree s r) (started : completed ≠ [] → r.elapsedMs = 0)
    (runs : completeSteps evidence.runId evidence.limits s completed = .ok (records, last))
    (count : s.sequence + completed.length = evidence.steps.length)
    (clock : isSafeInteger evidence.state.elapsedMs = true ∧ 0 ≤ evidence.state.elapsedMs) :
    (timelessSteps evidence.runId evidence.limits evidence.state.elapsedMs s completed ↔
      ∃ u, records.foldlM (replayParentStep evidence) r = .ok u) ∧
      ∀ u, records.foldlM (replayParentStep evidence) r = .ok u → Agree last u := by
  induction completed generalizing s r records with
  | nil =>
      obtain ⟨rfl, rfl⟩ := Prod.mk.inj (Except.ok.inj runs)
      exact ⟨iff_of_true trivial ⟨r, rfl⟩, fun u same => Except.ok.inj same ▸ agree⟩
  | cons step completed ih =>
      obtain ⟨record, next, rest, first, others, rfl⟩ := completeSteps_cons.mp runs
      have zero := started (List.cons_ne_nil _ _)
      obtain ⟨number, sequence, -⟩ := completeStep_counts first
      simp only [List.length_cons] at count
      have last_step : record.step = evidence.steps.length ↔ completed.isEmpty = true := by
        rw [List.isEmpty_iff, ← List.length_eq_zero_iff]
        omega
      have replays : Replays evidence s r step record next
          (if completed.isEmpty then evidence.state.elapsedMs else 0) := by
        refine ⟨agree, first, ?_, ?_, ?_⟩
        · simp only [last_step, zero]
        · rw [zero]
          split
          · exact clock.2
          · exact le_rfl
        · split
          · exact clock
          · decide
      rw [timelessSteps, List.foldlM_cons]
      by_cases same : timeless evidence.limits s step.elapsedMs
          (if completed.isEmpty then evidence.state.elapsedMs else 0)
      · obtain ⟨u, replayed, agrees, now⟩ := replays.follows same
        have tail := ih agrees (fun more => by rw [now, if_neg (by simpa using more)]) others (by omega)
        rw [replayed]
        refine ⟨?_, tail.2⟩
        change _ ↔ ∃ v, rest.foldlM (replayParentStep evidence) u = .ok v
        rw [← tail.1]
        constructor
        · exact fun h => h.2 record next first
        · intro h
          refine ⟨same, fun record' next' again => ?_⟩
          obtain ⟨rfl, rfl⟩ := Prod.mk.inj (Except.ok.inj (first.symm.trans again))
          exact h
      · rw [replays.fails same]
        constructor
        · exact iff_of_false (fun h => same h.1) fun ⟨u, h⟩ => by contradiction
        · exact fun u h => by contradiction

/-- The state a run starts in, and the one its replay starts in. -/
theorem startRun_replayStart {first : RunState} {now : ℤ}
    (starts : startRun evidence.runId evidence.revision evidence.limits evidence.preceding now = .ok first) :
    first.sequence = 0 ∧ first.phase = .prepare ∧ first.activeStep = none ∧
      first.attemptsStarted = (evidence.preceding.map (·.attemptsStarted)).getD 0 ∧
      first.piCallsStarted = (evidence.preceding.map (·.piCallsStarted)).getD 0 ∧
      ∃ r, replayStart evidence = .ok r ∧ Agree first r ∧ r.elapsedMs = 0 := by
  unfold startRun at starts
  unfold replayStart
  cases preceding : evidence.preceding with
  | none =>
      simp only [preceding] at starts
      rw [starts]
      obtain rfl := newRun_eq starts
      exact ⟨rfl, rfl, rfl, rfl, rfl, _, rfl, .mk 0 none Iff.rfl, rfl⟩
  | some parent =>
      simp only [preceding] at starts
      split at starts
      · contradiction
      · rename_i accepted
        obtain ⟨fresh, made, same⟩ := bind_eq_ok.mp starts
        rw [made]
        obtain rfl := newRun_eq made
        obtain rfl := Except.ok.inj same
        have revision : evidence.revision = parent.bestRevision := by
          by_contra other
          exact accepted (.inl other)
        refine ⟨rfl, rfl, rfl, rfl, rfl, _, rfl, ?_, rfl⟩
        rw [revision]
        exact .mk 0 none Iff.rfl

theorem verifySteps_eq_ok {replay : RunState} :
    verifySteps evidence = .ok replay ↔ checkReservations evidence = .ok () ∧
      ∃ start, replayStart evidence = .ok start ∧
        evidence.steps.foldlM (replayParentStep evidence) start = .ok replay ∧
        followsReplay evidence replay := by
  unfold verifySteps
  rw [bind_eq_ok]
  constructor
  · rintro ⟨_, reserved, more⟩
    obtain ⟨start, starts, more⟩ := bind_eq_ok.mp more
    obtain ⟨replayed, replays, more⟩ := bind_eq_ok.mp more
    split at more
    · rename_i follows
      obtain rfl := Except.ok.inj more
      exact ⟨reserved, start, starts, replays, follows⟩
    · contradiction
  · rintro ⟨reserved, start, starts, replays, follows⟩
    refine ⟨(), reserved, bind_eq_ok.mpr ⟨start, starts, bind_eq_ok.mpr ⟨replay, replays, ?_⟩⟩⟩
    rw [if_pos follows]

/-- How a run ends: at the end, or abandoned in a step. -/
inductive Ends (limits : Limits) (last : RunState) : Option ℤ → RunState → Prop
  | done (ended : last.phase = .done) : Ends limits last none last
  | abandoned {elapsedMs : ℤ} {active : RunState}
      (begins : beginSavedStep last limits elapsedMs = .ok active) :
      Ends limits last (some elapsedMs) active

/-- What a run leaves. -/
structure Leaves (h : History) (evidence : ParentEvidence) (first last : RunState) : Prop where
  given : evidence = ⟨h.runId, h.limits, h.revision, h.preceding, evidence.state, evidence.steps⟩
  starts : startRun h.runId h.revision h.limits h.preceding h.now = .ok first
  runs : completeSteps h.runId h.limits first h.completed = .ok (evidence.steps, last)
  ends : Ends h.limits last h.abandoned evidence.state

theorem History.leaves {h : History} (left : h.evidence = .ok evidence) :
    ∃ first last, Leaves h evidence first last := by
  obtain ⟨first, starts, left⟩ := bind_eq_ok.mp left
  obtain ⟨⟨steps, last⟩, runs, left⟩ := bind_eq_ok.mp left
  obtain ⟨state, ends, same⟩ := bind_eq_ok.mp left
  obtain rfl := Except.ok.inj same
  refine ⟨first, last, rfl, starts, runs, ?_⟩
  unfold History.stop at ends
  split at ends
  · rename_i completed
    rw [completed]
    split at ends
    · rename_i ended
      obtain rfl := Except.ok.inj ends
      exact .done ended
    · contradiction
  · rename_i elapsedMs abandoned
    rw [abandoned]
    exact .abandoned ends

section
variable {h : History} {first : RunState}

theorem Leaves.replayStart (left : Leaves h evidence first last) :
    first.sequence = 0 ∧ first.phase = .prepare ∧ first.activeStep = none ∧
      first.attemptsStarted = (evidence.preceding.map (·.attemptsStarted)).getD 0 ∧
      first.piCallsStarted = (evidence.preceding.map (·.piCallsStarted)).getD 0 ∧
      ∃ r, replayStart evidence = .ok r ∧ Agree first r ∧ r.elapsedMs = 0 :=
  startRun_replayStart (by rw [left.given]; exact left.starts)

theorem Leaves.steps (left : Leaves h evidence first last) (ended : evidence.state = last)
    (done : last.phase = .done) : h.completed ≠ [] := by
  intro none_completed
  have runs := left.runs
  rw [none_completed] at runs
  obtain ⟨-, rfl⟩ := Prod.mk.inj (Except.ok.inj runs)
  rw [left.replayStart.2.1] at done
  contradiction

theorem completeSteps_valid (runs : completeSteps runId limits s completed = .ok (records, last))
    (some_steps : completed ≠ []) : limits.Valid := by
  cases completed with
  | nil => exact absurd rfl some_steps
  | cons step completed =>
      obtain ⟨record, next, rest, first, -, -⟩ := completeSteps_cons.mp runs
      obtain ⟨active, begins, -, -⟩ := completeStep_eq_ok.mp first
      exact (beginSavedStep_eq_ok.mp begins).1.limits

/-- A run begins a step before it ends, so its limits pass the limit check. -/
theorem Leaves.valid (left : Leaves h evidence first last) : h.limits.Valid := by
  have ⟨_, _, runs, ends⟩ := left
  generalize ended : evidence.state = state at ends
  generalize h.abandoned = abandoned at ends
  cases ends with
  | done done => exact completeSteps_valid runs (left.steps ended done)
  | abandoned begins => exact (beginSavedStep_eq_ok.mp begins).1.limits

theorem checkReservations_ok
    (attempts : reservations (· == .startAttempt) ((evidence.preceding.map (·.attemptsStarted)).getD 0)
      evidence.state evidence.steps = evidence.state.attemptsStarted)
    (piCalls : reservations Phase.inference ((evidence.preceding.map (·.piCallsStarted)).getD 0)
      evidence.state evidence.steps = evidence.state.piCallsStarted)
    (afford : Afford evidence.limits evidence.state) : checkReservations evidence = .ok () := by
  unfold checkReservations
  rw [attempts, piCalls]
  apply if_neg
  rintro (other | other | ended | ended)
  · exact other rfl
  · exact other rfl
  · exact absurd afford.1 (not_le.mpr ended)
  · exact absurd afford.2 (not_le.mpr ended)

/-- The counters of the saved state are those of its steps. -/
theorem Leaves.reserved (left : Leaves h evidence first last) : checkReservations evidence = .ok () := by
  have valid := left.valid
  obtain ⟨-, -, idle, attempted, called, -⟩ := left.replayStart
  obtain ⟨given, starts, runs, ends⟩ := left
  have within := started_within valid ⟨_, _, _, _, starts⟩
  have afford : Afford h.limits last := Afford.completes ⟨within.attempts, within.piCalls⟩ runs
  obtain ⟨-, -, attempts, piCalls⟩ := completeSteps_counts runs
  have resting := completeSteps_idle idle runs
  have limits : evidence.limits = h.limits := by rw [given]
  generalize ended : evidence.state = state at ends
  generalize h.abandoned = abandoned at ends
  cases ends with
  | done done =>
      apply checkReservations_ok
      · simp [reservations, ended, resting, attempts, attempted]
      · simp [reservations, ended, resting, piCalls, called]
      · rwa [limits, ended]
  | abandoned begins =>
      obtain ⟨busy, -⟩ := beginSavedStep_sequence begins
      obtain ⟨-, -, begun, calling⟩ := beginSavedStep_counts begins
      apply checkReservations_ok
      · simp [reservations, ended, busy, begun, attempts, attempted]
      · simp [reservations, ended, busy, calling, piCalls, called]
      · rw [limits, ended]
        exact afford.begins begins

/-- The elapsed time of the saved state passes the limit check. -/
theorem Leaves.clock (left : Leaves h evidence first last) :
    isSafeInteger evidence.state.elapsedMs = true ∧ 0 ≤ evidence.state.elapsedMs := by
  have ⟨_, _, runs, ends⟩ := left
  generalize ended : evidence.state = state at ends ⊢
  generalize h.abandoned = abandoned at ends
  cases ends with
  | done done => exact completeSteps_clock runs (left.steps ended done)
  | abandoned begins =>
      rw [(beginSavedStep_counts begins).2.1]
      exact (beginSavedStep_eq_ok.mp begins).1.counters.elapsed

/-- The saved state against a replay that agrees with the last completed step. -/
theorem Leaves.follows {replay : RunState} (left : Leaves h evidence first last) (agree : Agree last replay) :
    followsReplay evidence replay ↔
      ∀ elapsedMs, h.abandoned = some elapsedMs → proceeds last h.limits elapsedMs := by
  obtain ⟨zero, -, idle, -⟩ := left.replayStart
  obtain ⟨given, starts, runs, ends⟩ := left
  obtain ⟨length, sequence, -⟩ := completeSteps_counts runs
  have resting := completeSteps_idle idle runs
  obtain ⟨phase, -, -, working, best, met⟩ := agree.fields
  unfold followsReplay
  rw [phase, working, best, met]
  generalize evidence.state = state at ends
  generalize h.abandoned = abandoned at ends
  cases ends with
  | done done =>
      refine iff_of_true ⟨?_, rfl, rfl, rfl, rfl, fun active => active.1 resting⟩ fun _ none_left => by contradiction
      rw [if_pos resting]
      omega
  | @abandoned elapsedMs active begins =>
      obtain ⟨busy, next⟩ := beginSavedStep_sequence begins
      obtain ⟨ready, rfl⟩ := beginSavedStep_eq_ok.mp begins
      rw [if_neg (by simp [busy])]
      constructor
      · rintro ⟨-, same, -⟩ other left_at
        obtain rfl := Option.some.inj left_at
        exact limited_phase_eq.mp same
      · intro free
        have goes := free elapsedMs rfl
        rw [limited, if_pos goes] at next ⊢
        exact ⟨by omega, rfl, rfl, rfl, rfl, fun ended => ready.running ended.2⟩

/-- The replay accepts what a run leaves exactly if it can follow it. -/
theorem Leaves.accepted (left : Leaves h evidence first last) :
    (∃ replay, verifySteps evidence = .ok replay) ↔
      timelessSteps h.runId h.limits evidence.state.elapsedMs first h.completed ∧
        ∀ elapsedMs, h.abandoned = some elapsedMs → proceeds last h.limits elapsedMs := by
  obtain ⟨zero, -, -, -, -, start, starts, agree, clock⟩ := left.replayStart
  have runId : evidence.runId = h.runId := by rw [left.given]
  have limits : evidence.limits = h.limits := by rw [left.given]
  obtain ⟨length, -⟩ := completeSteps_counts left.runs
  have replays := replay_steps agree (fun _ => clock) (by rw [runId, limits]; exact left.runs)
    (by omega) left.clock
  rw [← runId, ← limits, replays.1, limits]
  constructor
  · rintro ⟨replay, verified⟩
    obtain ⟨-, other, again, replayed, follows⟩ := verifySteps_eq_ok.mp verified
    obtain rfl := Except.ok.inj (starts.symm.trans again)
    exact ⟨⟨replay, replayed⟩, (left.follows (replays.2 replay replayed)).mp follows⟩
  · rintro ⟨⟨replay, replayed⟩, free⟩
    exact ⟨replay, verifySteps_eq_ok.mpr ⟨left.reserved, start, starts, replayed,
      (left.follows (replays.2 replay replayed)).mpr free⟩⟩

end

/-- The replay is itself a run of the saved outcomes. -/
structure Produced (evidence : ParentEvidence) (start replay : RunState) : Prop where
  starts : replayStart evidence = .ok start
  runs : ∃ completed, completed.map (·.outcome) = evidence.steps.map (·.outcome) ∧
    completeSteps evidence.runId evidence.limits start completed =
      .ok (evidence.steps.map ({ · with runId := evidence.runId }), replay)
  follows : followsReplay evidence replay

theorem replay_produced {steps : List StepResult}
    (replayed : steps.foldlM (replayParentStep evidence) r = .ok t) :
    ∃ completed, completed.map Completed.outcome = steps.map StepResult.outcome ∧
      completeSteps evidence.runId evidence.limits r completed =
        .ok (steps.map ({ · with runId := evidence.runId }), t) := by
  induction steps generalizing r with
  | nil => exact ⟨[], rfl, congrArg (fun u => Except.ok ([], u)) (Except.ok.inj replayed)⟩
  | cons record steps ih =>
      rw [List.foldlM_cons] at replayed
      obtain ⟨next, first, others⟩ := bind_eq_ok.mp replayed
      obtain ⟨completed, outcomes, runs⟩ := ih others
      obtain ⟨active, begins, finish⟩ := bind_eq_ok.mp first
      split at finish
      · contradiction
      · rename_i same
        simp only [not_or, not_not] at same
        obtain ⟨number, phase, revision⟩ := same
        refine ⟨⟨if record.step = evidence.steps.length then evidence.state.elapsedMs else r.elapsedMs,
          record.outcome, record.evidence⟩ :: completed, by simp [outcomes], ?_⟩
        rw [completeSteps_cons]
        refine ⟨_, next, _, completeStep_eq_ok.mpr ⟨active, begins, ?_, rfl⟩, runs, ?_⟩
        · rw [← number]
          exact finish
        · simp [resultOf, number, phase, revision]

/-- The replay accepts the runs whose steps begin as they did, and nothing that is no run. -/
theorem accepted_iff_replayable (evidence : ParentEvidence) :
    (∀ h, History.evidence h = .ok evidence →
      ((∃ replay, verifySteps evidence = .ok replay) ↔ h.Replayable)) ∧
      ∀ replay, verifySteps evidence = .ok replay → ∃ start, Produced evidence start replay := by
  constructor
  · intro h left
    obtain ⟨first, last, leaves⟩ := History.leaves left
    rw [leaves.accepted]
    constructor
    · intro condition other steps ended again starts runs same
      obtain rfl := Except.ok.inj (leaves.starts.symm.trans starts)
      obtain ⟨rfl, rfl⟩ := Prod.mk.inj (Except.ok.inj (leaves.runs.symm.trans runs))
      obtain rfl := Except.ok.inj (left.symm.trans same)
      exact condition
    · exact fun condition => condition _ _ _ _ leaves.starts leaves.runs left
  · intro replay verified
    obtain ⟨-, start, starts, replayed, follows⟩ := verifySteps_eq_ok.mp verified
    exact ⟨start, starts, replay_produced replayed, follows⟩

end

/-- A run abandoned in its first profile. -/
def abandonedInProfile : History where
  runId := "run"
  revision := "0000000000000000000000000000000000000000"
  limits := ⟨1, 0, 1, 1000⟩
  preceding := none
  now := 0
  completed := [⟨0, .prepared, []⟩,
    ⟨20, .measurement "0000000000000000000000000000000000000000" true none false false, []⟩,
    ⟨400, .attemptStarted, []⟩]
  abandoned := some 700

theorem abandonedInProfile_accepted :
    abandonedInProfile.Replayable ∧
      (abandonedInProfile.evidence.toOption.map fun evidence => (verifySteps evidence).toOption.isSome) =
        some true := by
  have accepted : (abandonedInProfile.evidence.toOption.map fun evidence =>
      (verifySteps evidence).toOption.isSome) = some true := by decide +kernel
  refine ⟨?_, accepted⟩
  obtain ⟨evidence, left, verified⟩ := Option.map_eq_some_iff.mp accepted
  obtain ⟨replay, verified⟩ := Option.isSome_iff_exists.mp verified
  exact ((accepted_iff_replayable evidence).1 _ (toOption_eq_some.mp left)).mp
    ⟨replay, toOption_eq_some.mp verified⟩

/-- The analysis asks for research with its only Pi call used up. The run is wrapped up, and
abandoned in its finish step. -/
def abandonedInFinish : History where
  runId := "run"
  revision := "0000000000000000000000000000000000000000"
  limits := ⟨1, 0, 1, 1000⟩
  preceding := none
  now := 0
  completed := [⟨0, .prepared, []⟩,
    ⟨0, .measurement "0000000000000000000000000000000000000000" true none false false, []⟩,
    ⟨0, .attemptStarted, []⟩, ⟨0, .profile, []⟩, ⟨0, .analysis .research none, []⟩]
  abandoned := some 0

theorem abandonedInFinish_refused :
    ¬∀ h evidence, History.evidence h = .ok evidence → ∃ replay, verifySteps evidence = .ok replay := by
  intro accepts
  have refused : (abandonedInFinish.evidence.toOption.map fun evidence =>
      (verifySteps evidence).toOption.isNone) = some true := by decide +kernel
  obtain ⟨evidence, left, unverified⟩ := Option.map_eq_some_iff.mp refused
  obtain ⟨replay, verified⟩ := accepts _ evidence (toOption_eq_some.mp left)
  rw [verified] at unverified
  contradiction

end Busker.Tempo
