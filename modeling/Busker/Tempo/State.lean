import Mathlib.Data.Fintype.Basic
import Busker.Tempo.Control

/-! The state machine of a run (`state.ts`): `beginStep` reserves a step, `finishStep`
records its outcome. -/
namespace Busker.Tempo

inductive Phase where
  | prepare | baseline | startAttempt | profile | analyze | research | implement | test | repair
  | measure | review | keep | discard | finish | done
  deriving DecidableEq, Repr

instance : Fintype Phase where
  elems := ⟨↑[Phase.prepare, .baseline, .startAttempt, .profile, .analyze, .research, .implement,
    .test, .repair, .measure, .review, .keep, .discard, .finish, .done], by decide⟩
  complete phase := by cases phase <;> decide

def Phase.name : Phase → String
  | .prepare => "prepare"
  | .baseline => "baseline"
  | .startAttempt => "start-attempt"
  | .profile => "profile"
  | .analyze => "analyze"
  | .research => "research"
  | .implement => "implement"
  | .test => "test"
  | .repair => "repair"
  | .measure => "measure"
  | .review => "review"
  | .keep => "keep"
  | .discard => "discard"
  | .finish => "finish"
  | .done => "done"

inductive Event where
  | ctimer | wall | alloc | jfr
  deriving DecidableEq, Repr

structure OutputReference where
  name : String
  version : ℤ
  deriving DecidableEq, Repr

structure RunState where
  runId : String
  phase : Phase
  initialRevision : String
  bestRevision : String
  workingRevision : String
  attemptsStarted : ℕ
  repairsThisAttempt : ℕ
  piCallsStarted : ℕ
  elapsedMs : ℤ
  sequence : ℕ
  activeStep : Option ℕ
  targetMet : Bool
  stopReason : Option String
  requestedProfile : Event
  outputs : Phase → Option OutputReference
  deriving DecidableEq

/-- The actions of an analysis that name no profile. -/
inductive AnalysisAction where
  | change | research | stop
  deriving DecidableEq, Repr

inductive Outcome where
  | prepared
  | measurement (revision : String) (valid : Bool) (inconclusive : Option Bool)
      (targetMet improved : Bool)
  | attemptStarted
  | profile
  | analysis (action : AnalysisAction) (reason : Option String)
  | analysisProfile (event : Event)
  | research
  | edited (revision : String)
  | tests (revision : String) (passed : Bool)
  | review (revision : String) (passed : Bool)
  | kept (revision : String)
  | discarded (revision : String)
  | finished
  | error (message : String)
  deriving DecidableEq, Repr

/-- The `kind` of an outcome. -/
def Outcome.kind : Outcome → String
  | .prepared => "prepared"
  | .measurement .. => "measurement"
  | .attemptStarted => "attempt-started"
  | .profile => "profile"
  | .analysis .. => "analysis"
  | .analysisProfile _ => "analysis"
  | .research => "research"
  | .edited _ => "edited"
  | .tests .. => "tests"
  | .review .. => "review"
  | .kept _ => "kept"
  | .discarded _ => "discarded"
  | .finished => "finished"
  | .error _ => "error"

/-- `inferencePhases` -/
def Phase.inference : Phase → Bool
  | .analyze | .research | .implement | .repair | .review => true
  | _ => false

/-- `/^[a-zA-Z0-9_-]+$/` -/
def isRunId (runId : String) : Bool :=
  !runId.toList.isEmpty && runId.toList.all fun c =>
    ('a' ≤ c && c ≤ 'z') || ('A' ≤ c && c ≤ 'Z') || ('0' ≤ c && c ≤ '9') || c == '_' || c == '-'

/-- `/^[0-9a-f]{40}$/` -/
def isRevision (revision : String) : Bool :=
  revision.toList.length == 40 &&
    revision.toList.all fun c => ('0' ≤ c && c ≤ '9') || ('a' ≤ c && c ≤ 'f')

/-- The state `newRun` returns. -/
def freshRun (runId revision : String) : RunState where
  runId := runId
  phase := .prepare
  initialRevision := revision
  bestRevision := revision
  workingRevision := revision
  attemptsStarted := 0
  repairsThisAttempt := 0
  piCallsStarted := 0
  elapsedMs := 0
  sequence := 0
  activeStep := none
  targetMet := false
  stopReason := none
  requestedProfile := .ctimer
  outputs _ := none

def newRun (runId revision : String) : Except String RunState :=
  if !isRunId runId || !isRevision revision then .error "Invalid run identity"
  else .ok (freshRun runId revision)

/-- The limit a phase is checked against. -/
def Phase.next (phase : Phase) : NextStep :=
  match phase with
  | .startAttempt => .attempt
  | .repair => .repair
  | .finish | .discard | .keep => .finish
  | phase => if phase.inference then .pi else .command

def RunState.progress (state : RunState) (elapsedMs : ℤ) : Progress :=
  ⟨state.attemptsStarted, state.repairsThisAttempt, state.piCallsStarted, elapsedMs, false⟩

/-- A limit stands against the next step. -/
def wrapUp (state : RunState) (elapsedMs : ℤ) (reasons : List String) : RunState :=
  { state with
    elapsedMs := elapsedMs
    phase := if reasons = ["repairs"] then .discard else .finish
    stopReason :=
      if reasons = ["repairs"] then state.stopReason
      else some ("limit:" ++ String.intercalate "," reasons)
    activeStep := none }

/-- The next step is reserved. -/
def reserve (state : RunState) (elapsedMs : ℤ) : RunState :=
  { state with
    elapsedMs := elapsedMs
    sequence := state.sequence + 1
    activeStep := some (state.sequence + 1)
    attemptsStarted := state.attemptsStarted + (if state.phase = .startAttempt then 1 else 0)
    repairsThisAttempt :=
      if state.phase = .startAttempt then 0
      else state.repairsThisAttempt + (if state.phase = .repair then 1 else 0)
    piCallsStarted := state.piCallsStarted + (if state.phase.inference then 1 else 0) }

def beginStep (state : RunState) (limits : Limits) (elapsedMs : ℤ) : Except String RunState :=
  if state.phase = .done then .error "Run is already finished"
  else if state.activeStep ≠ none then
    .error "A step is active; wait for it or inspect an interrupted run"
  else if elapsedMs < state.elapsedMs then .error "Elapsed time moved backwards"
  else
    match checkLimits limits (state.progress elapsedMs) state.phase.next with
    | .error message => .error message
    | .ok (.wrapUp reasons) => .ok (wrapUp state elapsedMs reasons)
    | .ok _ => .ok (reserve state elapsedMs)

/-- `requireKind` fails. -/
def unexpected (state : RunState) (outcome : Outcome) : Except String RunState :=
  .error ("Unexpected " ++ outcome.kind ++ " result for " ++ state.phase.name)

/-- `sameRevision` -/
def sameRevision (state : RunState) (revision : String) (result : Except String RunState) :
    Except String RunState :=
  if revision = state.workingRevision then result
  else .error "Result refers to a different code revision"

/-- The saved measurement of the initial or of a changed revision. -/
def finishMeasurement (state result : RunState) (valid : Bool) (inconclusive : Option Bool)
    (targetMet improved : Bool) : RunState :=
  if !valid then
    if state.phase = .measure ∧ inconclusive = some true then
      { result with phase := .discard, targetMet := false }
    else
      { result with
        phase := .finish
        stopReason :=
          some (if inconclusive = some true then "measurement-inconclusive" else "invalid-measurement")
        targetMet := false }
  else if state.phase = .baseline then
    { result with
      targetMet := targetMet
      phase := if targetMet then .finish else .startAttempt
      stopReason := if targetMet then some "target-met" else none }
  else
    { result with targetMet := targetMet, phase := if improved || targetMet then .review else .discard }

/-- The switch of `finishStep`. `result` is the state with the step's output recorded. -/
def finishPhase (state result : RunState) (outcome : Outcome) : Except String RunState :=
  match state.phase, outcome with
  | .prepare, .prepared => .ok { result with phase := .baseline }
  | .baseline, .measurement revision valid inconclusive targetMet improved
  | .measure, .measurement revision valid inconclusive targetMet improved =>
    sameRevision state revision (.ok (finishMeasurement state result valid inconclusive targetMet improved))
  | .startAttempt, .attemptStarted =>
    .ok { result with phase := .profile, requestedProfile := .ctimer, targetMet := false }
  | .profile, .profile => .ok { result with phase := .analyze }
  | .analyze, .analysis .stop reason =>
    .ok { result with
      phase := .finish
      stopReason := some ("analysis:" ++ reason.getD "no further proposal") }
  | .analyze, .analysis .change _ => .ok { result with phase := .implement }
  | .analyze, .analysis .research _ => .ok { result with phase := .research }
  | .analyze, .analysisProfile event => .ok { result with phase := .profile, requestedProfile := event }
  | .research, .research => .ok { result with phase := .analyze }
  | .implement, .edited revision | .repair, .edited revision =>
    if isRevision revision then
      .ok { result with workingRevision := revision, targetMet := false, phase := .test }
    else .error "Edited code needs a saved commit"
  | .test, .tests revision passed =>
    sameRevision state revision (.ok { result with phase := if passed then .measure else .repair })
  | .review, .review revision passed =>
    sameRevision state revision (.ok { result with phase := if passed then .keep else .repair })
  | .keep, .kept revision =>
    sameRevision state revision (.ok { result with
      bestRevision := revision
      phase := if state.targetMet then .finish else .startAttempt
      stopReason := if state.targetMet then some "target-met" else none })
  | .discard, .discarded revision =>
    if revision = state.bestRevision then
      .ok { result with workingRevision := revision, targetMet := false, phase := .startAttempt }
    else .error "Discard did not restore the best tested revision"
  | .finish, .finished =>
    .ok { result with phase := .done, targetMet := state.stopReason = some "target-met" }
  | .done, _ => .error ("Cannot complete phase " ++ Phase.done.name)
  | _, _ => unexpected state outcome

def OutputReference.saved (output : OutputReference) : Bool :=
  output.name ≠ "" && isSafeInteger output.version && 1 ≤ output.version

/-- The state with the step ended and its output recorded. -/
def recordOutput (state : RunState) (output : OutputReference) : RunState :=
  { state with activeStep := none, outputs := Function.update state.outputs state.phase (some output) }

def finishStep (state : RunState) (step : ℕ) (outcome : Outcome) (output : OutputReference) :
    Except String RunState :=
  if state.activeStep ≠ some step ∨ step ≠ state.sequence then
    .error "Completion does not match active step"
  else if !output.saved then .error "Completion needs a saved output reference"
  else
    match outcome with
    | .error message =>
      .ok { recordOutput state output with
        phase := .finish
        stopReason := some ("error:" ++ message)
        targetMet := false }
    | outcome => finishPhase state (recordOutput state output) outcome

end Busker.Tempo
