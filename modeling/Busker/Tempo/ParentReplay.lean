import Busker.Tempo.Budgets
import Busker.Tempo.Driver

/-! The steps of a parent run are replayed before its evidence is used (`campaign.ts`). The
elapsed times are not saved: the last completed step is replayed at the elapsed time of the
saved state, and the others at that of the replay. -/
namespace Busker.Tempo

/-- What `verifyParentEvidence` has read when it comes to the steps. -/
structure ParentEvidence where
  runId : String
  limits : Limits
  revision : String
  preceding : Option Parent
  state : RunState
  steps : List StepResult

/-- Steps that a counter of the state stands for, the active one included. -/
def reservations (counts : Phase → Bool) (before : ℕ) (state : RunState) (steps : List StepResult) : ℕ :=
  before + (steps.filter fun step => counts step.phase).length +
    if state.activeStep ≠ none ∧ counts state.phase = true then 1 else 0

def checkReservations (evidence : ParentEvidence) : Except String Unit :=
  let attempts := reservations (· == .startAttempt) ((evidence.preceding.map (·.attemptsStarted)).getD 0)
    evidence.state evidence.steps
  let piCalls := reservations Phase.inference ((evidence.preceding.map (·.piCallsStarted)).getD 0)
    evidence.state evidence.steps
  if attempts ≠ evidence.state.attemptsStarted ∨ piCalls ≠ evidence.state.piCallsStarted ∨
      evidence.limits.maxAttempts < attempts ∨ evidence.limits.maxPiCalls < piCalls then
    .error "Parent campaign reservations are inconsistent"
  else .ok ()

def replayStart (evidence : ParentEvidence) : Except String RunState := do
  let fresh ← newRun evidence.runId evidence.revision
  .ok { fresh with
    initialRevision := (evidence.preceding.bind (·.initialRevision)).getD evidence.revision
    bestRevision := evidence.revision
    attemptsStarted := (evidence.preceding.map (·.attemptsStarted)).getD 0
    piCallsStarted := (evidence.preceding.map (·.piCallsStarted)).getD 0 }

def replayParentStep (evidence : ParentEvidence) (replay : RunState) (step : StepResult) :
    Except String RunState := do
  let elapsed := if step.step = evidence.steps.length then evidence.state.elapsedMs else replay.elapsedMs
  let active ← beginSavedStep replay evidence.limits elapsed
  if step.step ≠ active.sequence ∨ step.phase ≠ active.phase ∨
      step.revision ≠ active.workingRevision then
    .error "Parent step does not follow the previous result"
  else finishStep active step.step step.outcome (outputOf evidence.runId step.step)

/-- The replayed state against the saved one. -/
def followsReplay (evidence : ParentEvidence) (replay : RunState) : Prop :=
  evidence.state.sequence = evidence.steps.length + (if evidence.state.activeStep = none then 0 else 1) ∧
    evidence.state.phase = replay.phase ∧ evidence.state.workingRevision = replay.workingRevision ∧
    evidence.state.bestRevision = replay.bestRevision ∧ evidence.state.targetMet = replay.targetMet ∧
    ¬(evidence.state.activeStep ≠ none ∧ replay.phase = .done)

instance (evidence : ParentEvidence) (replay : RunState) : Decidable (followsReplay evidence replay) :=
  inferInstanceAs (Decidable (_ ∧ _))

/-- The counter check and the replay of `verifyParentEvidence`. -/
def verifySteps (evidence : ParentEvidence) : Except String RunState := do
  checkReservations evidence
  let start ← replayStart evidence
  let replay ← evidence.steps.foldlM (replayParentStep evidence) start
  if followsReplay evidence replay then .ok replay
  else .error "Parent state does not follow saved step results"

/-- A step that was completed, with the elapsed time at which it was begun. -/
structure Completed where
  elapsedMs : ℤ
  outcome : Outcome
  evidence : List OutputReference

/-- One run of `runSavedStep` that completes: the record it writes and the state after it. -/
def completeStep (runId : String) (limits : Limits) (state : RunState) (step : Completed) :
    Except String (StepResult × RunState) := do
  let active ← beginSavedStep state limits step.elapsedMs
  let next ← finishStep active active.sequence step.outcome (outputOf runId active.sequence)
  .ok (resultOf runId active ⟨step.outcome, step.evidence⟩, next)

def completeSteps (runId : String) (limits : Limits) :
    RunState → List Completed → Except String (List StepResult × RunState)
  | state, [] => .ok ([], state)
  | state, step :: rest => do
    let (record, next) ← completeStep runId limits state step
    let (records, last) ← completeSteps runId limits next rest
    .ok (record :: records, last)

/-- A run that `startRun` started, with its completed steps and the elapsed time of the step
in which it was abandoned, if it was. -/
structure History where
  runId : String
  revision : String
  limits : Limits
  preceding : Option Parent
  now : ℤ
  completed : List Completed
  abandoned : Option ℤ

/-- The state in which the run is over, or abandoned. -/
def History.stop (h : History) (last : RunState) : Except String RunState :=
  match h.abandoned with
  | none => if last.phase = .done then .ok last else .error "Parent run is not terminal"
  | some elapsedMs => beginSavedStep last h.limits elapsedMs

/-- The evidence that the run leaves. -/
def History.evidence (h : History) : Except String ParentEvidence := do
  let first ← startRun h.runId h.revision h.limits h.preceding h.now
  let (steps, last) ← completeSteps h.runId h.limits first h.completed
  let state ← h.stop last
  .ok ⟨h.runId, h.limits, h.revision, h.preceding, state, steps⟩

/-- The attempts or the Pi calls are used up. -/
def spent (limits : Limits) (s : RunState) : Prop :=
  (s.phase.next = .attempt ∧ limits.maxAttempts ≤ s.attemptsStarted) ∨
    ((s.phase.next = .attempt ∨ s.phase.next = .repair ∨ s.phase.next = .pi) ∧
      limits.maxPiCalls ≤ s.piCallsStarted)

instance (limits : Limits) (s : RunState) : Decidable (spent limits s) :=
  inferInstanceAs (Decidable (_ ∨ _))

/-- The duration makes no difference between two elapsed times for the next step. -/
def timeless (limits : Limits) (s : RunState) (elapsedMs other : ℤ) : Prop :=
  s.phase.next = .finish ∨ spent limits s ∨
    (limits.maxDurationMs ≤ elapsedMs ↔ limits.maxDurationMs ≤ other)

/-- No completed step but the last would have begun otherwise at elapsed time 0, and the last
one would not have at the elapsed time of the saved state. -/
def timelessSteps (runId : String) (limits : Limits) (final : ℤ) : RunState → List Completed → Prop
  | _, [] => True
  | s, step :: rest =>
    timeless limits s step.elapsedMs (if rest.isEmpty then final else 0) ∧
      ∀ record next, completeStep runId limits s step = .ok (record, next) →
        timelessSteps runId limits final next rest

/-- The condition under which the replay meets the run. -/
def History.Replayable (h : History) : Prop :=
  ∀ first steps last evidence, startRun h.runId h.revision h.limits h.preceding h.now = .ok first →
    completeSteps h.runId h.limits first h.completed = .ok (steps, last) → h.evidence = .ok evidence →
    timelessSteps h.runId h.limits evidence.state.elapsedMs first h.completed ∧
      ∀ elapsedMs, h.abandoned = some elapsedMs → proceeds last h.limits elapsedMs

end Busker.Tempo
