import Busker.Tempo.ParentReplay
import Busker.Tempo.Provenance

/-! The replayed state agrees with the live one in all but the elapsed time and the text of
the reason to stop. -/
namespace Busker.Tempo

/-- `r` is `s` but for the elapsed time and a reason to stop other than the target. -/
inductive Agree (s : RunState) : RunState → Prop
  | mk (elapsedMs : ℤ) (reason : Option String)
      (met : reason = some "target-met" ↔ s.stopReason = some "target-met") :
      Agree s { s with elapsedMs := elapsedMs, stopReason := reason }

section
variable {s r t : RunState} {limits : Limits} {elapsedMs other : ℤ} {outcome : Outcome}
  {output : OutputReference} {step : ℕ}

/-- The phase in which the limits let a step begin. -/
theorem limited_phase :
    (limited s limits elapsedMs).phase =
      if s.phase.next = .finish then s.phase
      else if limits.maxDurationMs ≤ elapsedMs ∨ spent limits s then .finish
      else if s.phase.next = .repair ∧ limits.maxRepairsPerAttempt ≤ s.repairsThisAttempt then .discard
      else s.phase := by
  have reasons : limitReasons limits (s.progress elapsedMs) s.phase.next = [] ↔
      ¬(limits.maxDurationMs ≤ elapsedMs ∨ spent limits s) ∧
        ¬(s.phase.next = .repair ∧ limits.maxRepairsPerAttempt ≤ s.repairsThisAttempt) := by
    rw [limitReasons_eq_nil]
    simp only [RunState.progress, spent]
    constructor
    · rintro ⟨duration, attempts, repairs, piCalls⟩
      refine ⟨?_, fun repair => absurd (repairs repair.1) (not_lt.mpr repair.2)⟩
      rintro (ended | ⟨attempt, full⟩ | ⟨call, full⟩)
      · omega
      · exact absurd (attempts attempt) (not_lt.mpr full)
      · exact absurd (piCalls call) (not_lt.mpr full)
    · grind
  have only : limitReasons limits (s.progress elapsedMs) s.phase.next = ["repairs"] ↔
      ¬(limits.maxDurationMs ≤ elapsedMs ∨ spent limits s) ∧
        (s.phase.next = .repair ∧ limits.maxRepairsPerAttempt ≤ s.repairsThisAttempt) := by
    unfold limitReasons spent
    simp only [RunState.progress]
    split_ifs <;> simp_all
    all_goals grind
  have goes : proceeds s limits elapsedMs ↔ s.phase.next = .finish ∨ _ := Iff.rfl
  rw [reasons] at goes
  rw [limited]
  by_cases finish : s.phase.next = .finish
  · rw [if_pos (goes.mpr (.inl finish)), if_pos finish]
  · rw [if_neg finish]
    by_cases ended : limits.maxDurationMs ≤ elapsedMs ∨ spent limits s
    · rw [if_neg (by rw [goes]; exact not_or.mpr ⟨finish, fun free => free.1 ended⟩), if_pos ended, wrapUp]
      dsimp only
      rw [if_neg (by rw [only]; exact fun free => free.1 ended)]
    · rw [if_neg ended]
      by_cases repairs : s.phase.next = .repair ∧ limits.maxRepairsPerAttempt ≤ s.repairsThisAttempt
      · rw [if_neg (by rw [goes]; exact not_or.mpr ⟨finish, fun free => free.2 repairs⟩), if_pos repairs,
          wrapUp]
        dsimp only
        rw [if_pos (only.mpr ⟨ended, repairs⟩)]
      · rw [if_pos (goes.mpr (.inr ⟨ended, repairs⟩)), if_neg repairs]

theorem phase_of_next_ne (other : s.phase.next ≠ .finish) : s.phase ≠ .finish ∧ s.phase ≠ .discard := by
  constructor <;> intro same <;> rw [same] at other <;> exact other rfl

/-- The phase shows whether the step went on. -/
theorem limited_phase_eq : (limited s limits elapsedMs).phase = s.phase ↔ proceeds s limits elapsedMs := by
  constructor
  · intro same
    by_contra stopped
    have other : s.phase.next ≠ .finish := fun finish => stopped (.inl finish)
    rw [limited, if_neg stopped] at same
    unfold wrapUp at same
    dsimp only at same
    split at same
    · exact (phase_of_next_ne other).2 same.symm
    · exact (phase_of_next_ne other).1 same.symm
  · intro free
    rw [limited, if_pos free]

/-- A step begins in one phase at both times exactly if the duration makes no difference. -/
theorem timeless_iff :
    timeless limits s elapsedMs other ↔
      (limited s limits elapsedMs).phase = (limited s limits other).phase := by
  rw [limited_phase, limited_phase]
  unfold timeless
  by_cases finish : s.phase.next = .finish
  · simp [finish]
  · obtain ⟨not_finish, -⟩ := phase_of_next_ne finish
    by_cases used : spent limits s
    · simp [finish, used]
    · simp only [finish, used, or_false, if_false, false_or]
      have stays : (if s.phase.next = .repair ∧ limits.maxRepairsPerAttempt ≤ s.repairsThisAttempt
          then Phase.discard else s.phase) ≠ .finish := by
        split
        · decide
        · exact not_finish
      by_cases ended : limits.maxDurationMs ≤ elapsedMs <;> by_cases later : limits.maxDurationMs ≤ other <;>
        simp [ended, later, stays, stays.symm]

theorem Agree.limited_phase (agree : Agree s r) :
    (limited r limits elapsedMs).phase = (limited s limits elapsedMs).phase := by
  cases agree with
  | mk started reason met =>
      rw [Tempo.limited_phase, Tempo.limited_phase]
      rfl

theorem Agree.proceeds (agree : Agree s r) : proceeds r limits elapsedMs ↔ proceeds s limits elapsedMs := by
  cases agree with
  | mk started reason met => exact Iff.rfl

/-- Two wrap-ups into one phase agree. -/
theorem Agree.wrapUp {reasons others : List String} (agree : Agree s r)
    (same : (wrapUp s elapsedMs reasons).phase = (wrapUp r other others).phase) :
    Agree (wrapUp s elapsedMs reasons) (wrapUp r other others) := by
  cases agree with
  | mk started reason met =>
      unfold Tempo.wrapUp at same ⊢
      by_cases repairs : reasons = ["repairs"] <;> by_cases theirs : others = ["repairs"]
      · simp only [if_pos repairs, if_pos theirs]
        exact .mk other reason met
      · simp [repairs, theirs] at same
      · simp [repairs, theirs] at same
      · simp only [if_neg repairs, if_neg theirs]
        exact .mk other _ (iff_of_false (limit_ne_targetMet _) (limit_ne_targetMet _))

theorem Agree.limited (agree : Agree s r) (same : timeless limits s elapsedMs other) :
    Agree (limited s limits elapsedMs) (limited r limits other) := by
  have same := (timeless_iff.mp same).trans agree.limited_phase.symm
  have phase : r.phase = s.phase := by cases agree; rfl
  by_cases free : Tempo.proceeds s limits elapsedMs
  · rw [limited_phase_eq.mpr free, ← phase, eq_comm, limited_phase_eq] at same
    rw [Tempo.limited, Tempo.limited, if_pos free, if_pos same]
    exact agree
  · have stopped : ¬Tempo.proceeds r limits other := by
      intro goes
      rw [limited_phase_eq.mpr goes, phase, limited_phase_eq] at same
      exact free same
    rw [Tempo.limited, Tempo.limited, if_neg free, if_neg stopped] at same ⊢
    exact agree.wrapUp same

theorem Agree.fields (agree : Agree s r) :
    r.phase = s.phase ∧ r.sequence = s.sequence ∧ r.activeStep = s.activeStep ∧
      r.workingRevision = s.workingRevision ∧ r.bestRevision = s.bestRevision ∧
      r.targetMet = s.targetMet := by
  cases agree
  exact ⟨rfl, rfl, rfl, rfl, rfl, rfl⟩

theorem Agree.reserve (agree : Agree s r) : Agree (reserve s elapsedMs) (reserve r other) := by
  cases agree with
  | mk started reason met => exact .mk other reason met

theorem finishPhase_of_advance (advance : Advance s r outcome t) : finishPhase s r outcome = .ok t := by
  cases advance with
  | measured phase => rcases phase with phase | phase <;> simp [finishPhase, phase, sameRevision]
  | edited phase saved => rcases phase with phase | phase <;> simp [finishPhase, phase, saved]
  | _ =>
      rename_i phase
      simp [finishPhase, phase, sameRevision]

theorem finishStep_eq_ok :
    finishStep s step outcome output = .ok t ↔
      s.activeStep = some step ∧ step = s.sequence ∧ output.saved = true ∧ Finishes s output outcome t := by
  constructor
  · exact finishStep_finishes
  · rintro ⟨active, matching, saved, finishes⟩
    unfold finishStep
    rw [if_neg (by simp [active, matching]), if_neg (by simp [saved])]
    cases finishes with
    | failed message => rfl
    | advanced advance =>
        rw [← finishPhase_of_advance advance]
        cases advance <;> rfl

theorem Agree.finishMeasurement {result outcome_of : RunState} {valid targetMet improved : Bool}
    {inconclusive : Option Bool} (agree : Agree result outcome_of) (phase : r.phase = s.phase) :
    Agree (finishMeasurement s result valid inconclusive targetMet improved)
      (finishMeasurement r outcome_of valid inconclusive targetMet improved) := by
  cases agree with
  | mk elapsed reason met =>
      unfold Tempo.finishMeasurement
      rw [phase]
      split
      · split
        · exact .mk elapsed reason met
        · exact .mk elapsed _ Iff.rfl
      · split
        · exact .mk elapsed _ Iff.rfl
        · exact .mk elapsed reason met

theorem Finishes.agree (agree : Agree s r) (finishes : Finishes s output outcome t) :
    ∃ u, Finishes r output outcome u ∧ Agree t u := by
  have recorded : Agree (recordOutput s output) (recordOutput r output) := by
    cases agree with
    | mk elapsed reason met => exact .mk elapsed reason met
  cases agree with
  | mk elapsed reason met =>
      cases finishes with
      | failed message => exact ⟨_, .failed message, .mk elapsed _ Iff.rfl⟩
      | advanced advance =>
          cases advance with
          | prepared phase => exact ⟨_, .advanced (.prepared phase), .mk elapsed reason met⟩
          | measured phase => exact ⟨_, .advanced (.measured phase), recorded.finishMeasurement rfl⟩
          | attempted phase => exact ⟨_, .advanced (.attempted phase), .mk elapsed reason met⟩
          | profiled phase => exact ⟨_, .advanced (.profiled phase), .mk elapsed reason met⟩
          | stopped phase => exact ⟨_, .advanced (.stopped phase), .mk elapsed _ Iff.rfl⟩
          | changes phase => exact ⟨_, .advanced (.changes phase), .mk elapsed reason met⟩
          | asks phase => exact ⟨_, .advanced (.asks phase), .mk elapsed reason met⟩
          | profiles phase => exact ⟨_, .advanced (.profiles phase), .mk elapsed reason met⟩
          | researched phase => exact ⟨_, .advanced (.researched phase), .mk elapsed reason met⟩
          | edited phase saved => exact ⟨_, .advanced (.edited phase saved), .mk elapsed reason met⟩
          | tested phase => exact ⟨_, .advanced (.tested phase), .mk elapsed reason met⟩
          | reviewed phase => exact ⟨_, .advanced (.reviewed phase), .mk elapsed reason met⟩
          | kept phase => exact ⟨_, .advanced (.kept phase), .mk elapsed _ Iff.rfl⟩
          | discarded phase => exact ⟨_, .advanced (.discarded phase), .mk elapsed reason met⟩
          | finished phase =>
              refine ⟨_, .advanced (.finished phase), ?_⟩
              dsimp only
              simp only [met]
              exact .mk elapsed reason met

end

end Busker.Tempo
