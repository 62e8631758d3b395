import Mathlib.Algebra.Order.Field.Rat
import Mathlib.Tactic.Linarith

/-! Measurements against a goal and against protected workloads (`control.ts`). Scores are
exact rationals, so every number is finite. -/
namespace Busker.Tempo

structure Score where
  workload : String
  adapter : String
  requestsPerSecond : ℚ
  valid : Bool
  deriving DecidableEq

structure Measurement where
  kind : String
  id : String
  revision : String
  protocolId : String
  nativeSha256 : Option String
  scores : List Score
  deriving DecidableEq

/-- The keys of `competitors` are in their order. -/
inductive Goal where
  | improveBaseline (multiplier : ℚ) (workloads : List String)
  | beatAll (competitors : List (String × List String))
  deriving DecidableEq

def Goal.workloads : Goal → List String
  | .improveBaseline _ workloads => workloads
  | .beatAll competitors => competitors.map (·.1)

/-- The score of the one valid cell of a workload and an adapter. -/
def Measurement.score? (measurement : Measurement) (workload adapter : String) : Option ℚ :=
  match measurement.scores.filter fun cell => cell.workload == workload && cell.adapter == adapter with
  | [cell] => if cell.valid && 0 < cell.requestsPerSecond then some cell.requestsPerSecond else none
  | _ => none

/-- `score` pushes an error where there is no such cell. -/
def scoreErrors (label : String) (measurement : Measurement) (workload : String) (suffix : String)
    (score : Option ℚ) : List String :=
  match score with
  | some _ => []
  | none => [label ++ measurement.id ++ "/" ++ workload ++ suffix]

structure Comparison where
  workload : String
  initial : Option ℚ
  measured : Option ℚ
  target : Option ℚ
  met : Bool

/-- The values if none is missing. -/
def allScores (scores : List (Option ℚ)) : Option (List ℚ) := scores.mapM id

/-- The target of a workload, with the errors found on the way. -/
def targetOf (goal : Goal) (initial : Measurement) (workload : String) (baseline : Option ℚ) :
    Option ℚ × List String :=
  match goal with
  | .improveBaseline multiplier _ => (baseline.map (· * multiplier), [])
  | .beatAll competitors =>
    let adapters := (competitors.lookup workload).getD []
    if adapters.isEmpty || !adapters.Nodup || adapters.any fun name => name == "" || name == "busker" then
      (none, ["Invalid competitor list: " ++ workload])
    else
      let values := adapters.map (initial.score? workload)
      ((allScores values).bind (·.max?),
        (adapters.map fun adapter => scoreErrors "Missing, duplicate, or invalid score: " initial workload
          ("/" ++ adapter) (initial.score? workload adapter)).flatten)

def compareWorkload (goal : Goal) (initial current : Measurement) (workload : String) :
    Comparison × List String :=
  let baseline := initial.score? workload "busker"
  let measured := current.score? workload "busker"
  let (target, targetErrors) := targetOf goal initial workload baseline
  let met :=
    match measured, target with
    | some measured, some target =>
      match goal with
      | .beatAll _ => decide (target < measured)
      | .improveBaseline _ _ => decide (target ≤ measured)
    | _, _ => false
  (⟨workload, baseline, measured, target, met⟩,
    scoreErrors "Missing, duplicate, or invalid score: " initial workload "/busker" baseline ++
      scoreErrors "Missing, duplicate, or invalid score: " current workload "/busker" measured ++
      targetErrors)

structure GoalResult where
  initialMeasurement : String
  measurement : String
  revision : String
  valid : Bool
  targetMet : Option Bool
  comparisons : List Comparison
  errors : List String

def goalErrors (goal : Goal) (initial current : Measurement) : List String :=
  (if initial.kind ≠ "benchmark" ∨ current.kind ≠ "benchmark" then ["Not a benchmark"] else []) ++
  (if initial.id = "" ∨ current.id = "" ∨ initial.revision = "" ∨ current.revision = "" then
    ["Missing measurement identity"] else []) ++
  (if initial.protocolId = "" ∨ initial.protocolId ≠ current.protocolId then
    ["Measurement protocols differ"] else []) ++
  (if goal.workloads = [] ∨ ¬goal.workloads.Nodup ∨ "" ∈ goal.workloads then
    ["Workloads must be nonempty and unique"] else []) ++
  (match goal with
    | .improveBaseline multiplier _ =>
      if multiplier ≤ 1 then ["Improvement multiplier must exceed one"] else []
    | .beatAll _ => [])

def assessGoal (goal : Goal) (initial current : Measurement) : GoalResult :=
  let compared := goal.workloads.map (compareWorkload goal initial current)
  let comparisons := compared.map (·.1)
  let errors := goalErrors goal initial current ++ (compared.map (·.2)).flatten
  { initialMeasurement := initial.id
    measurement := current.id
    revision := current.revision
    valid := errors.isEmpty
    targetMet := if errors.isEmpty then some (comparisons.all (·.met)) else none
    comparisons := comparisons
    errors := errors }

structure Protection where
  workload : String
  maxDecreaseFraction : ℚ
  deriving DecidableEq

structure ProtectionCheck where
  workload : String
  initial : Option ℚ
  measured : Option ℚ
  minimum : Option ℚ
  passed : Bool

def checkProtection (initial current : Measurement) (protection : Protection) :
    ProtectionCheck × List String :=
  let inRange := 0 ≤ protection.maxDecreaseFraction ∧ protection.maxDecreaseFraction < 1
  let baseline := initial.score? protection.workload "busker"
  let measured := current.score? protection.workload "busker"
  let minimum := if inRange then baseline.map (· * (1 - protection.maxDecreaseFraction)) else none
  let passed :=
    match minimum, measured with
    | some minimum, some measured => decide (minimum ≤ measured)
    | _, _ => false
  (⟨protection.workload, baseline, measured, minimum, passed⟩,
    (if protection.workload = "" ∨ ¬inRange then
      ["Protected workloads require a decrease fraction from zero up to, but not including, one"] else []) ++
      scoreErrors "Missing, duplicate, or invalid protected score: " initial protection.workload "" baseline ++
      scoreErrors "Missing, duplicate, or invalid protected score: " current protection.workload "" measured)

structure Improvement where
  workload : String
  best : Option ℚ
  measured : Option ℚ
  nondecreasing : Bool
  increased : Bool
  meetsFloor : Bool

def measuredOf (result : GoalResult) (workload : String) : Option ℚ :=
  (result.comparisons.find? fun cell => cell.workload == workload).bind (·.measured)

/-- A test of the measured score against the prior one, if there are both. -/
def bothScores (prior measured : Option ℚ) (test : ℚ → ℚ → Bool) : Bool :=
  match prior, measured with
  | some prior, some measured => test prior measured
  | _, _ => false

def improvementOf (bestResult goalResult : GoalResult) (minimumImprovementFraction : ℚ)
    (workload : String) : Improvement :=
  let prior := measuredOf bestResult workload
  let measured := measuredOf goalResult workload
  { workload := workload
    best := prior
    measured := measured
    nondecreasing := bothScores prior measured fun prior measured => decide (prior ≤ measured)
    increased := bothScores prior measured fun prior measured => decide (prior < measured)
    meetsFloor := bothScores prior measured fun prior measured =>
      decide (prior * (1 + minimumImprovementFraction) < measured) }

structure CandidateResult where
  goalResult : GoalResult
  valid : Bool
  targetMet : Option Bool
  improved : Option Bool
  protectedPerformance : Option Bool
  bestMeasurement : String
  protections : List ProtectionCheck
  improvements : List Improvement
  errors : List String

def assessCandidate (goal : Goal) (protections : List Protection) (initial best current : Measurement)
    (minimumImprovementFraction : ℚ) : CandidateResult :=
  let goalResult := assessGoal goal initial current
  let bestResult := assessGoal goal initial best
  let checked := protections.map (checkProtection initial current)
  let errors := goalResult.errors ++ bestResult.errors ++
    (if minimumImprovementFraction < 3 / 100 ∨ 5 / 100 < minimumImprovementFraction then
      ["Improvement fraction must be between 3% and 5%"] else []) ++
    (if ¬(protections.map (·.workload)).Nodup then ["Duplicate protected workloads"] else []) ++
    (checked.map (·.2)).flatten
  let improvements := (goalResult.comparisons.map (·.workload)).map
    (improvementOf bestResult goalResult minimumImprovementFraction)
  let protectedPerformance := (checked.map (·.1)).all (·.passed)
  let meetsFloor := improvements.all (·.meetsFloor)
  { goalResult := goalResult
    valid := errors.isEmpty
    targetMet :=
      if errors.isEmpty then
        some (goalResult.targetMet == some true && protectedPerformance && meetsFloor)
      else none
    improved := if errors.isEmpty then some (protectedPerformance && meetsFloor) else none
    protectedPerformance := if errors.isEmpty then some protectedPerformance else none
    bestMeasurement := best.id
    protections := checked.map (·.1)
    improvements := improvements
    errors := errors }

section
variable {goal : Goal} {protections : List Protection} {initial best current : Measurement}
  {fraction : ℚ} {workload : String}

theorem scoreErrors_eq_nil {label suffix : String} {measurement : Measurement} {score : Option ℚ} :
    scoreErrors label measurement workload suffix score = [] ↔ ∃ value, score = some value := by
  cases score <;> simp [scoreErrors]

theorem assessGoal_scores (no_errors : (assessGoal goal initial current).errors = [])
    (asked : workload ∈ goal.workloads) :
    (∃ value, initial.score? workload "busker" = some value) ∧
      ∃ value, current.score? workload "busker" = some value := by
  have compared := (List.append_eq_nil_iff.mp no_errors).2
  rw [List.flatten_eq_nil_iff] at compared
  have errors := compared (compareWorkload goal initial current workload).2 (by
    rw [List.map_map]
    exact List.mem_map_of_mem asked)
  unfold compareWorkload at errors
  simp only [List.append_eq_nil_iff, scoreErrors_eq_nil] at errors
  exact errors.1

theorem assessGoal_workloads :
    (assessGoal goal initial current).comparisons.map (·.workload) = goal.workloads := by
  unfold assessGoal
  dsimp only
  rw [List.map_map, List.map_map]
  exact List.map_id' _

/-- The comparison of a workload measures the current score. -/
theorem measuredOf_assessGoal (asked : workload ∈ goal.workloads) :
    measuredOf (assessGoal goal initial current) workload = current.score? workload "busker" := by
  unfold measuredOf assessGoal
  dsimp only
  generalize goal.workloads = workloads at asked
  induction workloads with
  | nil => exact absurd asked List.not_mem_nil
  | cons first rest ih =>
      simp only [List.map_cons, List.find?_cons]
      by_cases same : first = workload
      · simp [same, compareWorkload]
      · have other : ((compareWorkload goal initial current first).1.workload == workload) = false := by
          simp [compareWorkload, same]
        rw [other]
        exact ih ((List.mem_cons.mp asked).resolve_left (Ne.symm same))

/-- What an assessment without errors has found. -/
structure Assessed (goal : Goal) (initial current : Measurement) (fraction : ℚ) : Prop where
  fraction : 3 / 100 ≤ fraction
  initially : ∀ workload ∈ goal.workloads, ∃ score, initial.score? workload "busker" = some score
  currently : ∀ workload ∈ goal.workloads, ∃ score, current.score? workload "busker" = some score

/-- A candidate that is better than the best one and within the protections. -/
structure Improves (goal : Goal) (protections : List Protection) (initial best current : Measurement)
    (fraction : ℚ) : Prop where
  gains : ∀ workload ∈ goal.workloads, ∃ prior score, best.score? workload "busker" = some prior ∧
    current.score? workload "busker" = some score ∧ prior * (1 + fraction) < score
  protects : ∀ protection ∈ protections, ∃ first score,
    initial.score? protection.workload "busker" = some first ∧
      current.score? protection.workload "busker" = some score ∧
      first * (1 - protection.maxDecreaseFraction) ≤ score

theorem assessed_of_valid (valid : (assessCandidate goal protections initial best current fraction).valid = true) :
    Assessed goal initial current fraction := by
  have no_errors := List.isEmpty_iff.mp valid
  simp only [List.append_eq_nil_iff] at no_errors
  obtain ⟨⟨⟨⟨goalErrors, bestErrors⟩, range⟩, -⟩, -⟩ := no_errors
  refine ⟨?_, fun workload asked => (assessGoal_scores goalErrors asked).1,
    fun workload asked => (assessGoal_scores goalErrors asked).2⟩
  by_contra below
  rw [if_pos (.inl (not_le.mp below))] at range
  contradiction

theorem checkProtection_passed {protection : Protection}
    (passed : (checkProtection initial current protection).1.passed = true) :
    ∃ first score, initial.score? protection.workload "busker" = some first ∧
      current.score? protection.workload "busker" = some score ∧
      first * (1 - protection.maxDecreaseFraction) ≤ score := by
  unfold checkProtection at passed
  dsimp only at passed
  split at passed
  · rename_i minimum score floor measured
    split at floor
    · obtain ⟨first, baseline, rfl⟩ := Option.map_eq_some_iff.mp floor
      exact ⟨first, score, baseline, measured, of_decide_eq_true passed⟩
    · contradiction
  · contradiction

theorem answer_true {unless_errors answer : Bool}
    (h : (if unless_errors then some answer else none) = some true) : answer = true := by
  cases unless_errors
  · contradiction
  · exact Option.some.inj h

theorem improves_of_accepted
    (accepted : (assessCandidate goal protections initial best current fraction).improved = some true ∨
      (assessCandidate goal protections initial best current fraction).targetMet = some true) :
    Improves goal protections initial best current fraction := by
  have both : ((protections.map (checkProtection initial current)).map (·.1)).all (·.passed) = true ∧
      (goal.workloads.map (improvementOf (assessGoal goal initial best) (assessGoal goal initial current)
        fraction)).all (·.meetsFloor) = true := by
    rw [← @assessGoal_workloads goal initial current]
    rcases accepted with improved | met
    · change (if _ then some _ else none) = some true at improved
      exact (Bool.and_eq_true _ _).mp (answer_true improved)
    · change (if _ then some _ else none) = some true at met
      have all := answer_true met
      simp only [Bool.and_eq_true] at all
      exact ⟨all.1.2, all.2⟩
  obtain ⟨protected_scores, floor⟩ := both
  simp only [List.all_eq_true, List.mem_map, forall_exists_index, and_imp, forall_apply_eq_imp_iff₂]
    at protected_scores floor
  refine ⟨fun workload asked => ?_, fun protection listed => checkProtection_passed ?_⟩
  · have meets := floor workload asked
    simp only [improvementOf, measuredOf_assessGoal asked] at meets
    unfold bothScores at meets
    split at meets
    · rename_i prior score before after
      exact ⟨prior, score, before, after, of_decide_eq_true meets⟩
    · contradiction
  · exact protected_scores protection listed

end

end Busker.Tempo
