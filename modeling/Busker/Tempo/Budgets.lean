import Mathlib.Algebra.Order.Ring.Int
import Busker.Tempo.Steps

/-! The budgets of a run. Every step that is begun costs one; an attempt pays for two
steps and a Pi call for four, and what is left is bounded phase by phase. -/
namespace Busker.Tempo

open Interleaving

/-- What `verifyParentEvidence` returns of a parent run, as far as `startRun` uses it for
the state of the new run. -/
structure Parent where
  attemptsStarted : ℕ
  piCallsStarted : ℕ
  bestRevision : String
  initialRevision : Option String
  elapsedMs : ℤ
  startedAtMs : ℤ

/-- The budget checks and the first state of `startRun`. -/
def startRun (runId revision : String) (limits : Limits) (parent : Option Parent) (now : ℤ) :
    Except String RunState :=
  match parent with
  | none => newRun runId revision
  | some parent =>
    if revision ≠ parent.bestRevision ∨ limits.maxDurationMs ≤ now - parent.startedAtMs ∨
        limits.maxAttempts ≤ parent.attemptsStarted ∨ limits.maxPiCalls ≤ parent.piCallsStarted then
      .error "Parent campaign identity, policy or remaining budget differs"
    else do
      let state ← newRun runId revision
      .ok { state with
        initialRevision := parent.initialRevision.getD revision
        bestRevision := parent.bestRevision
        attemptsStarted := parent.attemptsStarted
        piCallsStarted := parent.piCallsStarted
        elapsedMs := max parent.elapsedMs (now - parent.startedAtMs) }

/-- The states `startRun` saves, with a parent or without. -/
def StartedWithin (limits : Limits) (s : RunState) : Prop :=
  ∃ runId revision parent now, startRun runId revision limits parent now = .ok s

/-- All steps are checked against the same limits. -/
def fixedLimits (limits : Limits) : Action → RunState → Prop
  | .begin other _, _ => other = limits
  | .finish _ _ _, _ => True

instance (limits : Limits) (a : Action) (s : RunState) : Decidable (fixedLimits limits a s) := by
  unfold fixedLimits
  split <;> infer_instance

/-- The run is in its final phase, or over. -/
def Phase.ending : Phase → Bool
  | .finish | .done => true
  | _ => false

/-- The steps that have begun before the finish phase. -/
def noteBegun : Action → RunState → ℕ → ℕ
  | .begin limits elapsedMs, s, begun =>
    if s.phase.ending = false ∧ proceeds s limits elapsedMs then begun + 1 else begun
  | .finish _ _ _, _, begun => begun

def counted (init : RunState → Prop) : Machine (RunState × ℕ) Action :=
  (machine init).recording 0 noteBegun

/-- The steps a phase may still lead to without an attempt or a Pi call. -/
def Phase.ahead : Phase → ℤ
  | .prepare => 2
  | .baseline => 1
  | .profile => 1
  | .test => 3
  | .repair => 1
  | .measure => 2
  | .keep => 1
  | .discard => 1
  | _ => 0

/-- The same, when the step of the phase has begun. -/
def Phase.aheadActive : Phase → ℤ
  | .prepare => 1
  | .startAttempt => 1
  | .analyze => 1
  | .implement => 3
  | .test => 2
  | .repair => 3
  | .measure => 1
  | .review => 1
  | _ => 0

/-- The number of steps a run can still begin. -/
def RunState.weight (s : RunState) (limits : Limits) : ℤ :=
  2 * (limits.maxAttempts - s.attemptsStarted) + 4 * (limits.maxPiCalls - s.piCallsStarted) +
    if s.activeStep = none then s.phase.ahead else s.phase.aheadActive

/-- A run within its limits. -/
structure Within (limits : Limits) (s : RunState) (begun : ℕ) : Prop where
  attempts : s.attemptsStarted ≤ limits.maxAttempts
  repairs : s.repairsThisAttempt ≤ limits.maxRepairsPerAttempt
  piCalls : s.piCallsStarted ≤ limits.maxPiCalls
  begun : begun + s.weight limits ≤ 2 + 2 * limits.maxAttempts + 4 * limits.maxPiCalls

section
variable {limits : Limits} {s t : RunState} {begun : ℕ} {elapsedMs : ℤ} {outcome : Outcome}
  {output : OutputReference}

theorem started_within (valid : limits.Valid) (h : StartedWithin limits s) : Within limits s 0 := by
  obtain ⟨runId, revision, parent, now, made⟩ := h
  have attempts := valid.attempts.2
  have repairs := valid.repairs.2
  have piCalls := valid.piCalls.2
  cases parent with
  | none =>
      obtain ⟨_, _, rfl⟩ := Started.fresh ⟨runId, revision, made⟩
      constructor <;> simp [freshRun, RunState.weight, Phase.ahead] <;> omega
  | some parent =>
      unfold startRun at made
      dsimp only at made
      split at made
      · contradiction
      · rename_i accepted
        simp only [not_or, not_le] at accepted
        cases fresh : newRun runId revision with
        | error message =>
            rw [fresh] at made
            contradiction
        | ok state =>
            rw [fresh] at made
            obtain ⟨_, _, rfl⟩ := Started.fresh ⟨runId, revision, fresh⟩
            obtain rfl := Except.ok.inj made
            constructor <;> simp [freshRun, RunState.weight, Phase.ahead] <;> omega

/-- The limit reasons that do not stand against a step that proceeds. -/
theorem proceeds_below (free : proceeds s limits elapsedMs) :
    (s.phase = .startAttempt → (s.attemptsStarted : ℤ) < limits.maxAttempts) ∧
      (s.phase = .repair → (s.repairsThisAttempt : ℤ) < limits.maxRepairsPerAttempt) ∧
      (s.phase.inference = true → (s.piCallsStarted : ℤ) < limits.maxPiCalls) := by
  rcases free with finish | none
  · cases phase : s.phase <;> simp [phase, Phase.next, Phase.inference] at finish ⊢
  · obtain ⟨-, attempts, repairs, piCalls⟩ := limitReasons_eq_nil.mp none
    refine ⟨fun phase => attempts (by rw [phase]; rfl), fun phase => repairs (by rw [phase]; rfl),
      fun inference => piCalls ?_⟩
    cases phase : s.phase <;> simp [phase, Phase.inference] at inference <;>
      simp [Phase.next, Phase.inference]

theorem Within.reserve (h : Within limits s begun) (idle : s.activeStep = none)
    (free : proceeds s limits elapsedMs) :
    Within limits (reserve s elapsedMs) (noteBegun (.begin limits elapsedMs) s begun) := by
  obtain ⟨attempts, repairs, piCalls, weight⟩ := h
  obtain ⟨belowAttempts, belowRepairs, belowPiCalls⟩ := proceeds_below free
  simp only [RunState.weight, idle, if_true] at weight
  constructor <;> cases phase : s.phase <;>
    simp [Tempo.reserve, noteBegun, RunState.weight, phase, free, Phase.ending, Phase.inference,
      Phase.ahead, Phase.aheadActive] at * <;> omega

theorem Within.wrapUp (h : Within limits s begun) (idle : s.activeStep = none) :
    Within limits (wrapUp s elapsedMs (limitReasons limits (s.progress elapsedMs) s.phase.next)) begun := by
  obtain ⟨attempts, repairs, piCalls, weight⟩ := h
  refine ⟨attempts, repairs, piCalls, le_trans ?_ weight⟩
  simp only [RunState.weight, idle, if_true, Tempo.wrapUp, add_le_add_iff_left]
  split
  · rename_i only_repairs
    have repair := next_of_repairs only_repairs
    cases phase : s.phase <;> simp [phase, Phase.next, Phase.inference] at repair
    exact le_rfl
  · cases s.phase <;> decide

/-- What a phase leaves ahead is no more than its active step had ahead. -/
theorem finishMeasurement_ahead {r : RunState} {valid targetMet improved : Bool}
    {inconclusive : Option Bool} (phase : s.phase = .baseline ∨ s.phase = .measure) :
    (finishMeasurement s r valid inconclusive targetMet improved).phase.ahead ≤ s.phase.aheadActive := by
  unfold finishMeasurement
  rcases phase with phase | phase <;> simp only [phase, reduceCtorEq, false_and, true_and, if_true, if_false]
  · split
    · exact le_rfl
    · split <;> exact le_rfl
  · split
    · split <;> simp [Phase.ahead, Phase.aheadActive]
    · split <;> simp [Phase.ahead, Phase.aheadActive]

theorem advance_ahead {r : RunState} (advance : Advance s r outcome t) :
    t.phase.ahead ≤ s.phase.aheadActive := by
  cases advance with
  | measured phase => exact finishMeasurement_ahead phase
  | edited phase => rcases phase with phase | phase <;> simp [phase, Phase.ahead, Phase.aheadActive]
  | @tested passed phase => cases passed <;> simp [phase, Phase.ahead, Phase.aheadActive]
  | @reviewed passed phase => cases passed <;> simp [phase, Phase.ahead, Phase.aheadActive]
  | kept phase =>
      rw [phase]
      dsimp only
      split <;> decide
  | _ =>
      rename_i phase
      rw [phase]
      dsimp only
      decide

/-- A step that ends leaves the counters alone. -/
theorem advance_counters {r : RunState} (advance : Advance s r outcome t) :
    t.attemptsStarted = r.attemptsStarted ∧ t.repairsThisAttempt = r.repairsThisAttempt ∧
      t.piCallsStarted = r.piCallsStarted ∧ t.activeStep = r.activeStep := by
  cases advance with
  | measured phase =>
      unfold finishMeasurement
      split
      · split <;> exact ⟨rfl, rfl, rfl, rfl⟩
      · split <;> exact ⟨rfl, rfl, rfl, rfl⟩
  | _ => exact ⟨rfl, rfl, rfl, rfl⟩

theorem Within.finishes {step : ℕ} (h : Within limits s begun) (active : s.activeStep = some step)
    (finishes : Finishes s output outcome t) : Within limits t begun := by
  obtain ⟨attempts, repairs, piCalls, weight⟩ := h
  simp only [RunState.weight, active, reduceCtorEq, if_false] at weight
  cases finishes with
  | failed message =>
      refine ⟨attempts, repairs, piCalls, le_trans ?_ weight⟩
      have ahead : 0 ≤ s.phase.aheadActive := by cases s.phase <;> decide
      simp only [RunState.weight, failStep, recordOutput, if_true, Phase.ahead]
      omega
  | advanced advance =>
      obtain ⟨sameAttempts, sameRepairs, samePiCalls, idle⟩ := advance_counters advance
      have ahead := advance_ahead advance
      simp only [recordOutput] at sameAttempts sameRepairs samePiCalls idle
      refine ⟨by rwa [sameAttempts], by rwa [sameRepairs], by rwa [samePiCalls], le_trans ?_ weight⟩
      simp only [RunState.weight, idle, sameAttempts, samePiCalls, if_true]
      omega

theorem Within.step {a : Action} (h : Within limits s begun) (fixed : fixedLimits limits a s)
    (moves : stepFn a s = some t) : Within limits t (noteBegun a s begun) := by
  rcases stepFn_cases moves with ⟨other, elapsedMs, rfl, begins, ⟨free, rfl⟩ | ⟨stopped, rfl⟩⟩ |
    ⟨step, outcome, output, rfl, active, -, -, finishes⟩
  · obtain rfl : other = limits := fixed
    exact h.reserve begins.idle free
  · obtain rfl : other = limits := fixed
    rw [noteBegun, if_neg fun counted => stopped counted.2]
    exact h.wrapUp begins.idle
  · exact h.finishes active finishes

theorem within_of_reachable {run : RunState × ℕ} (valid : limits.Valid)
    (h : (counted (StartedWithin limits)).ReachableVia (fun a s => fixedLimits limits a s.1) run) :
    Within limits run.1 run.2 := by
  apply h.invariant
  · rintro ⟨s, begun⟩ ⟨started, rfl⟩
    exact started_within valid started
  · rintro a ⟨s, begun⟩ ⟨t, after⟩ hs fixed moves
    obtain ⟨next, moved, same⟩ := Option.map_eq_some_iff.mp moves
    obtain ⟨rfl, rfl⟩ := Prod.mk.inj same
    exact hs.step fixed moved

/-- The finish phase is left for the end only. -/
theorem ending_stays {a : Action} (ending : s.phase.ending = true) (moves : stepFn a s = some t) :
    t.phase.ending = true := by
  rcases stepFn_cases moves with ⟨limits, elapsedMs, rfl, begins, ⟨-, rfl⟩ | ⟨stopped, rfl⟩⟩ |
    ⟨step, outcome, output, rfl, -, -, -, finishes⟩
  · exact ending
  · refine absurd (.inl ?_) stopped
    cases phase : s.phase <;> simp [phase, Phase.ending] at ending
    · rfl
    · exact absurd phase begins.running
  · cases finishes with
    | failed message => rfl
    | advanced advance =>
        cases advance with
        | finished => rfl
        | measured phase | edited phase =>
            rcases phase with phase | phase <;> rw [phase] at ending <;> contradiction
        | _ =>
            rename_i phase
            rw [phase] at ending
            contradiction

/-- What the budgets promise of a run in any of its states. -/
structure Bounded (limits : Limits) (s : RunState) (begun : ℕ) : Prop where
  attempts : s.attemptsStarted ≤ limits.maxAttempts
  repairs : s.repairsThisAttempt ≤ limits.maxRepairsPerAttempt
  piCalls : s.piCallsStarted ≤ limits.maxPiCalls
  begun : begun ≤ 2 + 2 * limits.maxAttempts + 4 * limits.maxPiCalls
  ending : ∀ a t, s.phase.ending = true → stepFn a s = some t → t.phase.ending = true
  reviewed : ∀ step revision output t,
    finishStep s step (.review revision true) output = .ok t → t.phase = .keep ∧ t.activeStep = none
  keeps : s.phase = .keep → s.activeStep = none → ∀ elapsedMs, s.elapsedMs ≤ elapsedMs →
    0 ≤ elapsedMs → isSafeInteger elapsedMs = true →
    beginStep s limits elapsedMs = .ok (reserve s elapsedMs)

theorem weight_nonneg (h : Within limits s begun) : 0 ≤ s.weight limits := by
  have attempts := h.attempts
  have piCalls := h.piCalls
  have ahead : 0 ≤ s.phase.ahead := by cases s.phase <;> decide
  have active : 0 ≤ s.phase.aheadActive := by cases s.phase <;> decide
  unfold RunState.weight
  split <;> omega

theorem safe_of_le {n : ℕ} {bound : ℤ} (le : (n : ℤ) ≤ bound) (safe : isSafeInteger bound = true) :
    isSafeInteger n = true := by
  simp only [isSafeInteger, Bool.and_eq_true, decide_eq_true_eq] at safe ⊢
  omega

/-- Budgets bound every run. -/
theorem bounded_of_reachable {run : RunState × ℕ} (valid : limits.Valid)
    (h : (counted (StartedWithin limits)).ReachableVia (fun a s => fixedLimits limits a s.1) run) :
    Bounded limits run.1 run.2 := by
  have within := within_of_reachable valid h
  refine ⟨within.attempts, within.repairs, within.piCalls, ?_, fun a t => ending_stays, ?_, ?_⟩
  · have begun := within.begun
    have weight := weight_nonneg within
    omega
  · intro step revision output t finish
    obtain ⟨-, -, -, finishes⟩ := finishStep_finishes finish
    cases finishes with
    | advanced advance =>
        cases advance with
        | reviewed phase => exact ⟨rfl, rfl⟩
  · intro keep idle elapsedMs later nonneg safe
    have free : proceeds run.1 limits elapsedMs := .inl (by rw [keep]; rfl)
    refine beginStep_eq_ok.mpr ⟨⟨by rw [keep]; decide, idle, later, valid, ?_⟩, (if_pos free).symm⟩
    exact ⟨safe_of_le within.attempts valid.attempts.1, safe_of_le within.repairs valid.repairs.1,
      safe_of_le within.piCalls valid.piCalls.1, safe, nonneg⟩

end

/-- A run that takes over one attempt and one Pi call of its parent. -/
def secondRun : RunState :=
  { freshRun "run" "0000000000000000000000000000000000000000" with
    attemptsStarted := 1
    piCallsStarted := 1
    elapsedMs := 5 }

/-- A second attempt is edited, and its tests fail. No repair is left, so the run discards. -/
def failedAttempt (limits : Limits) (old new : String) : List Action :=
  [.begin limits 5, .finish 1 .prepared ⟨"output", 1⟩,
   .begin limits 5, .finish 2 (.measurement old true none false false) ⟨"output", 1⟩,
   .begin limits 5, .finish 3 .attemptStarted ⟨"output", 1⟩,
   .begin limits 6, .finish 4 .profile ⟨"output", 1⟩,
   .begin limits 6, .finish 5 (.analysis .change none) ⟨"output", 1⟩,
   .begin limits 7, .finish 6 (.edited new) ⟨"output", 1⟩,
   .begin limits 8, .finish 7 (.tests new false) ⟨"output", 1⟩,
   .begin limits 9]

/-- Seven steps have begun when the repair is refused, where the budgets leave room for 22. -/
theorem failedAttempt_bounded :
    let limits : Limits := ⟨2, 0, 4, 10⟩
    let old := "0000000000000000000000000000000000000000"
    let new := "1111111111111111111111111111111111111111"
    let run := (counted (StartedWithin limits)).runFromVia (fun a s => fixedLimits limits a s.1)
      (failedAttempt limits old new) (secondRun, 0)
    Bounded limits run.1 run.2 ∧ run.1.phase = .discard ∧ run.2 = 7 := by
  intro limits old new run
  have started : (counted (StartedWithin limits)).init (secondRun, 0) :=
    ⟨⟨"run", old, some ⟨1, 1, old, none, 5, 0⟩, 5, by decide +kernel⟩, rfl⟩
  have valid : limits.Valid := by constructor <;> decide
  exact ⟨bounded_of_reachable valid ((Machine.ReachableVia.init started).runFromVia _),
    by decide +kernel, by decide +kernel⟩

end Busker.Tempo
