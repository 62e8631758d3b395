import Mathlib.Data.Int.Notation
import Mathlib.Data.List.Basic
import Mathlib.Data.Nat.Notation

/-! The limits of a run (`control.ts`): which of them stand against the next step. -/
namespace Busker.Tempo

/-- Limits are numbers; those that are no integers fail the check like the integers out of
range. -/
structure Limits where
  maxAttempts : ℤ
  maxRepairsPerAttempt : ℤ
  maxPiCalls : ℤ
  maxDurationMs : ℤ
  deriving DecidableEq, Repr

structure Progress where
  attemptsStarted : ℕ
  repairsThisAttempt : ℕ
  piCallsStarted : ℕ
  elapsedMs : ℤ
  activeStep : Bool
  deriving DecidableEq, Repr

inductive NextStep where
  | attempt | repair | pi | command | finish
  deriving DecidableEq, Repr

inductive LimitAction where
  | wait
  | proceed
  | wrapUp (reasons : List String)
  deriving DecidableEq, Repr

/-- `Number.isSafeInteger`, for a number that is an integer. -/
def isSafeInteger (n : ℤ) : Bool := -9007199254740991 ≤ n && n ≤ 9007199254740991

def integer (value minimum : ℤ) (field : String) : Except String Unit :=
  if isSafeInteger value && minimum ≤ value then .ok ()
  else .error (field ++ " must be a safe integer >= " ++ toString minimum)

def limitReasons (limits : Limits) (progress : Progress) (next : NextStep) : List String :=
  (if limits.maxDurationMs ≤ progress.elapsedMs then ["duration"] else []) ++
  (if next = .attempt ∧ limits.maxAttempts ≤ progress.attemptsStarted then ["attempts"] else []) ++
  (if next = .repair ∧ limits.maxRepairsPerAttempt ≤ progress.repairsThisAttempt then ["repairs"]
    else []) ++
  (if (next = .attempt ∨ next = .repair ∨ next = .pi) ∧ limits.maxPiCalls ≤ progress.piCallsStarted
    then ["pi-calls"] else [])

def checkLimits (limits : Limits) (progress : Progress) (next : NextStep) :
    Except String LimitAction := do
  integer limits.maxAttempts 1 "maxAttempts"
  integer limits.maxRepairsPerAttempt 0 "maxRepairsPerAttempt"
  integer limits.maxPiCalls 1 "maxPiCalls"
  integer limits.maxDurationMs 1 "maxDurationMs"
  integer progress.attemptsStarted 0 "attemptsStarted"
  integer progress.repairsThisAttempt 0 "repairsThisAttempt"
  integer progress.piCallsStarted 0 "piCallsStarted"
  integer progress.elapsedMs 0 "elapsedMs"
  if progress.activeStep then .ok .wait
  else if next = .finish then .ok .proceed
  else
    let reasons := limitReasons limits progress next
    .ok (if reasons = [] then .proceed else .wrapUp reasons)

/-- The limits `checkLimits` accepts. -/
structure Limits.Valid (limits : Limits) : Prop where
  attempts : isSafeInteger limits.maxAttempts = true ∧ 1 ≤ limits.maxAttempts
  repairs : isSafeInteger limits.maxRepairsPerAttempt = true ∧ 0 ≤ limits.maxRepairsPerAttempt
  piCalls : isSafeInteger limits.maxPiCalls = true ∧ 1 ≤ limits.maxPiCalls
  duration : isSafeInteger limits.maxDurationMs = true ∧ 1 ≤ limits.maxDurationMs

/-- The counters `checkLimits` accepts. -/
structure Progress.Valid (progress : Progress) : Prop where
  attempts : isSafeInteger progress.attemptsStarted = true
  repairs : isSafeInteger progress.repairsThisAttempt = true
  piCalls : isSafeInteger progress.piCallsStarted = true
  elapsed : isSafeInteger progress.elapsedMs = true ∧ 0 ≤ progress.elapsedMs

theorem integer_eq_ok {value minimum : ℤ} {field : String} :
    integer value minimum field = .ok () ↔ isSafeInteger value = true ∧ minimum ≤ value := by
  unfold integer
  split
  · rename_i h
    simpa using h
  · rename_i h
    simpa using h

theorem integer_bind {α : Type} {value minimum : ℤ} {field : String}
    {next : Unit → Except String α} {result : α} :
    (integer value minimum field >>= next) = .ok result ↔
      (isSafeInteger value = true ∧ minimum ≤ value) ∧ next () = .ok result := by
  rw [← @integer_eq_ok value minimum field]
  cases integer value minimum field with
  | error message => simp [bind, Except.bind]
  | ok _ => simp [bind, Except.bind]

/-- What `checkLimits` answers, and when it does not throw. -/
theorem checkLimits_eq_ok {limits : Limits} {progress : Progress} {next : NextStep}
    {action : LimitAction} :
    checkLimits limits progress next = .ok action ↔ limits.Valid ∧ progress.Valid ∧
      action =
        if progress.activeStep then .wait
        else if next = .finish ∨ limitReasons limits progress next = [] then .proceed
        else .wrapUp (limitReasons limits progress next) := by
  unfold checkLimits
  simp only [integer_bind]
  have answer : (if progress.activeStep = true then Except.ok LimitAction.wait
      else if next = .finish then .ok .proceed
      else .ok (if limitReasons limits progress next = [] then LimitAction.proceed
        else .wrapUp (limitReasons limits progress next)) : Except String LimitAction) = .ok action ↔
      action =
        if progress.activeStep then .wait
        else if next = .finish ∨ limitReasons limits progress next = [] then .proceed
        else .wrapUp (limitReasons limits progress next) := by
    generalize limitReasons limits progress next = reasons
    cases active : progress.activeStep with
    | true => simp [eq_comm]
    | false =>
        by_cases finish : next = .finish
        · simp [finish, eq_comm]
        · by_cases none : reasons = []
          · simp [finish, none, eq_comm]
          · simp [finish, none, eq_comm]
  rw [answer]
  constructor
  · rintro ⟨attempts, repairs, piCalls, duration, started, repaired, called, elapsed, same⟩
    exact ⟨⟨attempts, repairs, piCalls, duration⟩, ⟨started.1, repaired.1, called.1, elapsed⟩, same⟩
  · rintro ⟨valid, counted, same⟩
    exact ⟨valid.attempts, valid.repairs, valid.piCalls, valid.duration,
      ⟨counted.attempts, by omega⟩, ⟨counted.repairs, by omega⟩, ⟨counted.piCalls, by omega⟩,
      counted.elapsed, same⟩

theorem limitReasons_eq_nil {limits : Limits} {progress : Progress} {next : NextStep} :
    limitReasons limits progress next = [] ↔ progress.elapsedMs < limits.maxDurationMs ∧
      (next = .attempt → progress.attemptsStarted < limits.maxAttempts) ∧
      (next = .repair → progress.repairsThisAttempt < limits.maxRepairsPerAttempt) ∧
      (next = .attempt ∨ next = .repair ∨ next = .pi → progress.piCallsStarted < limits.maxPiCalls) := by
  simp [limitReasons]

/-- Only a repair is stopped by the repairs alone. -/
theorem next_of_repairs {limits : Limits} {progress : Progress} {next : NextStep}
    (h : limitReasons limits progress next = ["repairs"]) : next = .repair := by
  by_contra other
  have free : ¬(next = .repair ∧ limits.maxRepairsPerAttempt ≤ progress.repairsThisAttempt) :=
    fun repairs => other repairs.1
  unfold limitReasons at h
  rw [if_neg free] at h
  split_ifs at h <;> simp at h

end Busker.Tempo
