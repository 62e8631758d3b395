import Busker.Interleaving.Machine
import Busker.Tempo.Steps

/-! Saved steps (`driver.ts`): a step is reserved, performed, recorded and completed, with
one write for each but the second. A call can be cut at every point. -/
namespace Busker.Tempo

open Interleaving

structure StepEffect where
  outcome : Outcome
  evidence : List OutputReference

structure StepResult where
  runId : String
  step : ℕ
  phase : Phase
  revision : String
  outcome : Outcome
  evidence : List OutputReference
  deriving DecidableEq

/-- `referenceSchema` -/
def OutputReference.parses (reference : OutputReference) : Bool :=
  reference.name ≠ "" && isSafeInteger reference.version && 0 < reference.version

/-- `runStateSchema`, for a value that is a run state. -/
def RunState.parses (state : RunState) : Bool :=
  isRunId state.runId && isRevision state.initialRevision && isRevision state.bestRevision &&
    isRevision state.workingRevision && isSafeInteger state.attemptsStarted &&
    isSafeInteger state.repairsThisAttempt && isSafeInteger state.piCallsStarted &&
    isSafeInteger state.elapsedMs && 0 ≤ state.elapsedMs && isSafeInteger state.sequence &&
    state.activeStep.all (fun step => 0 < step && step == state.sequence) &&
    decide (∀ phase, (state.outputs phase).all OutputReference.parses = true)

/-- `outcomeSchema` -/
def Outcome.parses : Outcome → Bool
  | .measurement revision _ _ _ _ => isRevision revision
  | .edited revision => isRevision revision
  | .tests revision _ => isRevision revision
  | .review revision _ => isRevision revision
  | .kept revision => isRevision revision
  | .discarded revision => isRevision revision
  | .error message => message ≠ ""
  | _ => true

/-- `stepResultSchema` -/
def StepResult.parses (record : StepResult) : Bool :=
  isRunId record.runId && isSafeInteger record.step && 0 < record.step &&
    isRevision record.revision && record.outcome.parses &&
    record.evidence.all OutputReference.parses

/-- The versions of the resources of one run. -/
structure Store where
  states : List RunState
  steps : ℕ → List StepResult

def stepName (runId : String) (step : ℕ) : String := runId ++ "-step-" ++ toString step

/-- How a failed schema check reads as a string. -/
abbrev Describe := StepResult → String

def loadState (store : Store) (runId : String) : Except String RunState :=
  if !isRunId runId then .error "Invalid run identity"
  else
    match store.states.getLast? with
    | none => .error "Saved state is missing"
    | some state =>
      if !state.parses then .error "Invalid saved state"
      else if state.runId ≠ runId then .error "Saved state belongs to another run"
      else .ok state

/-- The first lines of `runSavedStep`: a step is begun, after the wrap-up where a limit
stands against it. -/
def beginSavedStep (state : RunState) (limits : Limits) (elapsedMs : ℤ) : Except String RunState := do
  let active ← beginStep state limits elapsedMs
  if active.activeStep = none then beginStep active limits elapsedMs else .ok active

/-- `runSavedStep` up to its first write. -/
def reserveStep (store : Store) (runId : String) (limits : Limits) (elapsedMs : ℤ) :
    Except String RunState := do
  let state ← loadState store runId
  let active ← beginSavedStep state limits elapsedMs
  if (store.steps active.sequence).isEmpty then .ok active
  else .error "Step output already exists; inspect saved progress"

def resultOf (runId : String) (active : RunState) (effect : StepEffect) : StepResult where
  runId := runId
  step := active.sequence
  phase := active.phase
  revision := active.workingRevision
  outcome := effect.outcome
  evidence := effect.evidence

/-- The step's output as `finishStep` names it. -/
def outputOf (runId : String) (step : ℕ) : OutputReference := ⟨stepName runId step, 1⟩

/-- The `try` block of `runSavedStep`, after the effect has returned. -/
def acceptEffect (describe : Describe) (runId : String) (active : RunState) (effect : StepEffect) :
    Except String Unit :=
  let record := resultOf runId active effect
  if !record.parses then .error (describe record)
  else
    match finishStep active active.sequence record.outcome (outputOf runId active.sequence) with
    | .error message => .error ("Error: " ++ message)
    | .ok _ => .ok ()

/-- The record that `runSavedStep` writes. `effect` is the effect, or what was thrown. -/
def recordEffect (describe : Describe) (runId : String) (active : RunState)
    (effect : Except String StepEffect) : Except String StepResult :=
  let settled : StepEffect :=
    match effect with
    | .error failure => ⟨.error failure, []⟩
    | .ok effect =>
      match acceptEffect describe runId active effect with
      | .ok () => effect
      | .error failure =>
        ⟨.error failure, if effect.evidence.all OutputReference.parses then effect.evidence else []⟩
  let record := resultOf runId active settled
  if record.parses then .ok record else .error (describe record)

/-- `recoverSavedStep` up to its write. -/
def recoverState (store : Store) (runId : String) : Except String RunState := do
  let active ← loadState store runId
  if active.activeStep = none then .error "No interrupted step to recover"
  else
    match (store.steps active.sequence).head? with
    | none =>
      .error "Interrupted step has no saved result; inspect its processes and unfinished changes before proceeding"
    | some record =>
      if !record.parses then .error "Invalid saved result"
      else if record.runId ≠ runId ∨ some record.step ≠ active.activeStep ∨
          record.phase ≠ active.phase ∨ record.revision ≠ active.workingRevision then
        .error "Saved result does not match the interrupted step"
      else finishStep active active.sequence record.outcome (outputOf runId active.sequence)

/-- What a call has yet to do. -/
inductive Call where
  /-- The step is reserved, and not written. -/
  | reserving (active : RunState)
  | reserved (active : RunState)
  | performing (active : RunState)
  | recording (active : RunState) (record : StepResult)
  | recorded (active : RunState) (record : StepResult) (output : OutputReference)
  | recovering (state : RunState)

structure Driver where
  store : Store
  /-- The model lock admits one call at a time. -/
  call : Option Call

inductive DriverAction where
  | run (limits : Limits) (elapsedMs : ℤ)
  | recover
  /-- A write of the call returns, or throws. -/
  | write (fails : Bool)
  /-- The effect is started. -/
  | perform
  | performed (effect : Except String StepEffect)
  /-- The process of the call dies. -/
  | interrupt

def Store.saveState (store : Store) (state : RunState) : Store :=
  { store with states := store.states ++ [state] }

def Store.saveStep (store : Store) (step : ℕ) (record : StepResult) : Store :=
  { store with steps := Function.update store.steps step (store.steps step ++ [record]) }

/-- One step of the calls on the run `runId`. A call that throws is over. -/
def driverStep (describe : Describe) (runId : String) : DriverAction → Driver → Option Driver
  | .run limits elapsedMs, ⟨store, none⟩ =>
    some ⟨store, (reserveStep store runId limits elapsedMs).toOption.map .reserving⟩
  | .recover, ⟨store, none⟩ =>
    some ⟨store, (recoverState store runId).toOption.map .recovering⟩
  | .write true, ⟨store, some (.reserving _)⟩ => some ⟨store, none⟩
  | .write false, ⟨store, some (.reserving active)⟩ => some ⟨store.saveState active, some (.reserved active)⟩
  | .perform, ⟨store, some (.reserved active)⟩ => some ⟨store, some (.performing active)⟩
  | .performed effect, ⟨store, some (.performing active)⟩ =>
    some ⟨store, (recordEffect describe runId active effect).toOption.map (.recording active)⟩
  | .write true, ⟨store, some (.recording _ _)⟩ => some ⟨store, none⟩
  | .write false, ⟨store, some (.recording active record)⟩ =>
    let written := store.saveStep active.sequence record
    some ⟨written, some (.recorded active record
      ⟨stepName runId active.sequence, (written.steps active.sequence).length⟩)⟩
  | .write fails, ⟨store, some (.recorded active record output)⟩ =>
    match finishStep active active.sequence record.outcome output with
    | .error _ => some ⟨store, none⟩
    | .ok state => some ⟨if fails then store else store.saveState state, none⟩
  | .write fails, ⟨store, some (.recovering state)⟩ =>
    some ⟨if fails then store else store.saveState state, none⟩
  | .interrupt, ⟨store, some _⟩ => some ⟨store, none⟩
  | _, _ => none

theorem bind_eq_ok {α β : Type} {e : Except String α} {f : α → Except String β} {b : β} :
    (e >>= f) = .ok b ↔ ∃ a, e = .ok a ∧ f a = .ok b := by
  cases e with
  | error message => simp [bind, Except.bind]
  | ok a => simp [bind, Except.bind]

section
variable {s t : RunState} {limits : Limits} {elapsedMs : ℤ}

/-- The state in which the limits let a step begin. -/
def limited (s : RunState) (limits : Limits) (elapsedMs : ℤ) : RunState :=
  if proceeds s limits elapsedMs then s
  else wrapUp s elapsedMs (limitReasons limits (s.progress elapsedMs) s.phase.next)

/-- A step that wraps up proceeds. -/
theorem proceeds_wrapUp {reasons : List String} :
    proceeds (wrapUp s elapsedMs reasons) limits elapsedMs := by
  apply Or.inl
  unfold wrapUp
  dsimp only
  split <;> rfl

theorem Begins.wrapUp (begins : Begins s limits elapsedMs) {reasons : List String} :
    Begins (wrapUp s elapsedMs reasons) limits elapsedMs where
  running := by
    unfold Tempo.wrapUp
    dsimp only
    split <;> decide
  idle := rfl
  later := le_rfl
  limits := begins.limits
  counters := begins.counters

theorem beginSavedStep_eq_ok :
    beginSavedStep s limits elapsedMs = .ok t ↔
      Begins s limits elapsedMs ∧ t = reserve (limited s limits elapsedMs) elapsedMs := by
  unfold beginSavedStep limited
  rw [bind_eq_ok]
  constructor
  · rintro ⟨between, first, second⟩
    obtain ⟨begins, rfl⟩ := beginStep_eq_ok.mp first
    refine ⟨begins, ?_⟩
    by_cases free : proceeds s limits elapsedMs
    · simp only [if_pos free] at second ⊢
      rw [if_neg (by simp [reserve])] at second
      exact (Except.ok.inj second).symm
    · simp only [if_neg free] at second ⊢
      rw [if_pos (show (wrapUp s elapsedMs _).activeStep = none from rfl)] at second
      obtain ⟨-, rfl⟩ := beginStep_eq_ok.mp second
      rw [if_pos proceeds_wrapUp]
  · rintro ⟨begins, rfl⟩
    refine ⟨_, beginStep_eq_ok.mpr ⟨begins, rfl⟩, ?_⟩
    by_cases free : proceeds s limits elapsedMs
    · simp only [if_pos free]
      rw [if_neg (by simp [reserve])]
    · simp only [if_neg free]
      rw [if_pos (show (wrapUp s elapsedMs _).activeStep = none from rfl)]
      exact beginStep_eq_ok.mpr ⟨begins.wrapUp, (if_pos proceeds_wrapUp).symm⟩

@[simp] theorem limited_sequence : (limited s limits elapsedMs).sequence = s.sequence := by
  unfold limited
  split <;> rfl

@[simp] theorem limited_attemptsStarted :
    (limited s limits elapsedMs).attemptsStarted = s.attemptsStarted := by
  unfold limited
  split <;> rfl

@[simp] theorem limited_piCallsStarted :
    (limited s limits elapsedMs).piCallsStarted = s.piCallsStarted := by
  unfold limited
  split <;> rfl

theorem proceeds_limited : proceeds (limited s limits elapsedMs) limits elapsedMs := by
  by_cases free : proceeds s limits elapsedMs
  · rwa [limited, if_pos free]
  · rw [limited, if_neg free]
    exact proceeds_wrapUp

theorem beginSavedStep_sequence (begins : beginSavedStep s limits elapsedMs = .ok t) :
    t.activeStep = some t.sequence ∧ t.sequence = s.sequence + 1 := by
  obtain ⟨-, rfl⟩ := beginSavedStep_eq_ok.mp begins
  simp [reserve]

/-- A step that ends leaves the sequence and the clock alone. -/
theorem advance_sequence {r : RunState} {outcome : Outcome} (advance : Advance s r outcome t) :
    t.sequence = r.sequence ∧ t.activeStep = r.activeStep ∧ t.elapsedMs = r.elapsedMs := by
  cases advance with
  | measured phase =>
      unfold finishMeasurement
      split
      · split <;> exact ⟨rfl, rfl, rfl⟩
      · split <;> exact ⟨rfl, rfl, rfl⟩
  | _ => exact ⟨rfl, rfl, rfl⟩

theorem finishStep_sequence {step : ℕ} {outcome : Outcome} {output : OutputReference}
    (finish : finishStep s step outcome output = .ok t) :
    t.activeStep = none ∧ t.sequence = s.sequence ∧ t.elapsedMs = s.elapsedMs := by
  obtain ⟨-, -, -, finishes⟩ := finishStep_finishes finish
  cases finishes with
  | failed message => exact ⟨rfl, rfl, rfl⟩
  | advanced advance =>
      obtain ⟨sequence, idle, clock⟩ := advance_sequence advance
      exact ⟨idle, sequence, clock⟩

/-- The record of an effect has its outcome, or an error. -/
theorem recordEffect_eq_ok {describe : Describe} {runId : String} {effect : Except String StepEffect}
    {record : StepResult} (recorded : recordEffect describe runId s effect = .ok record) :
    record.runId = runId ∧ record.phase = s.phase ∧
      ((∃ given, effect = .ok given ∧ record.outcome = given.outcome ∧ record.evidence = given.evidence) ∨
        ∃ failure, record.outcome = .error failure) := by
  have written : ∀ settled : StepEffect, (if (resultOf runId s settled).parses then
      Except.ok (resultOf runId s settled) else .error (describe (resultOf runId s settled))) = .ok record →
      record = resultOf runId s settled := by
    intro settled same
    split at same
    · exact (Except.ok.inj same).symm
    · contradiction
  unfold recordEffect at recorded
  dsimp only at recorded
  split at recorded
  · rename_i failure
    obtain rfl := written _ recorded
    exact ⟨rfl, rfl, .inr ⟨failure, rfl⟩⟩
  · rename_i given
    obtain rfl := written _ recorded
    refine ⟨rfl, rfl, ?_⟩
    cases accepted : acceptEffect describe runId s given with
    | ok _ => exact .inl ⟨given, rfl, rfl, rfl⟩
    | error failure => exact .inr ⟨failure, rfl⟩

end

end Busker.Tempo
