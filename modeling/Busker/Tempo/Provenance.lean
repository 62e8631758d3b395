import Busker.Tempo.Steps

/-! Only tested, measured and reviewed code becomes the best revision. The outcomes of a
run are kept with the latest first. -/
namespace Busker.Tempo

open Interleaving

/-- The outcomes of the steps that have ended, the latest first. -/
def noteOutcome : Action → RunState → List Outcome → List Outcome
  | .begin _ _, _, history => history
  | .finish _ outcome _, _, history => outcome :: history

/-- The runs with their outcomes. -/
def observed (init : RunState → Prop) : Machine (RunState × List Outcome) Action :=
  (machine init).recording [] noteOutcome

/-- Whether the last measurement of a revision is valid and met the target. -/
def lastMeasured (revision : String) : List Outcome → Option Bool
  | [] => none
  | .measurement measured valid _ targetMet _ :: rest =>
    if measured = revision then some (valid && targetMet) else lastMeasured revision rest
  | _ :: rest => lastMeasured revision rest

/-- Tests that pass on a revision, right after the edit that made it. -/
def TestedLast (revision : String) (history : List Outcome) : Prop :=
  ∃ rest, history = .tests revision true :: .edited revision :: rest

/-- A valid measurement right after that, which improved or met the target. -/
def MeasuredLast (revision : String) (targetMet : Bool) (history : List Outcome) : Prop :=
  ∃ inconclusive improved rest, TestedLast revision rest ∧ (improved = true ∨ targetMet = true) ∧
    history = .measurement revision true inconclusive targetMet improved :: rest

/-- A review that passes right after that. -/
def ReviewedLast (revision : String) (targetMet : Bool) (history : List Outcome) : Prop :=
  ∃ rest, MeasuredLast revision targetMet rest ∧ history = .review revision true :: rest

/-- The phases in which the best revision is checked out. -/
def Phase.onBest : Phase → Bool
  | .prepare | .baseline | .startAttempt | .profile | .analyze | .research | .implement => true
  | _ => false

/-- What a run knows of its revisions in each phase. -/
structure Provenance (s : RunState) (history : List Outcome) : Prop where
  onBest : s.phase.onBest = true → s.workingRevision = s.bestRevision
  test : s.phase = .test → ∃ rest, history = .edited s.workingRevision :: rest
  measure : s.phase = .measure → TestedLast s.workingRevision history
  review : s.phase = .review → MeasuredLast s.workingRevision s.targetMet history
  keep : s.phase = .keep → ReviewedLast s.workingRevision s.targetMet history
  met : s.stopReason = some "target-met" →
    (s.phase = .finish ∨ s.phase = .done) ∧ lastMeasured s.bestRevision history = some true
  done : s.phase = .done → s.targetMet = true → s.stopReason = some "target-met"

theorem append_ne_targetMet {label text : String} (other : label.toList.head? ≠ some 't')
    (some_label : label.toList ≠ []) : some (label ++ text) ≠ some "target-met" := by
  intro same
  have chars := congrArg String.toList (Option.some.inj same)
  rw [String.toList_append] at chars
  cases first : label.toList with
  | nil => exact some_label first
  | cons c rest =>
      rw [first, List.head?_cons] at other
      rw [first, List.cons_append] at chars
      have target : "target-met".toList = 't' :: "arget-met".toList := by decide
      rw [target] at chars
      exact other (congrArg some (List.cons.inj chars).1)

theorem limit_ne_targetMet (text : String) : some ("limit:" ++ text) ≠ some "target-met" :=
  append_ne_targetMet (by decide) (by decide)

theorem error_ne_targetMet (text : String) : some ("error:" ++ text) ≠ some "target-met" :=
  append_ne_targetMet (by decide) (by decide)

theorem analysis_ne_targetMet (text : String) : some ("analysis:" ++ text) ≠ some "target-met" :=
  append_ne_targetMet (by decide) (by decide)

section
variable {s t : RunState} {history : List Outcome} {limits : Limits} {elapsedMs : ℤ}
  {outcome : Outcome} {output : OutputReference}

/-- A run that has not ended has not met its target yet. -/
theorem Provenance.unmet (h : Provenance s history) (finish : s.phase ≠ .finish)
    (done : s.phase ≠ .done) : s.stopReason ≠ some "target-met" :=
  fun met => (h.met met).1.elim finish done

theorem Provenance.reserve (h : Provenance s history) : Provenance (reserve s elapsedMs) history :=
  ⟨h.onBest, h.test, h.measure, h.review, h.keep, h.met, h.done⟩

/-- To wrap up keeps nothing but the best revision. -/
theorem Provenance.wrapUp (h : Provenance s history) (stopped : ¬proceeds s limits elapsedMs)
    (reasons : List String) (running : s.phase ≠ .done) :
    Provenance (wrapUp s elapsedMs reasons) history := by
  have finish : s.phase ≠ .finish := fun same => stopped (.inl (by rw [same]; rfl))
  have unmet := h.unmet finish running
  unfold Tempo.wrapUp
  constructor <;> dsimp only <;> split <;> rename_i only_repairs
  any_goals simp [Phase.onBest]
  · exact fun met => absurd met unmet
  · exact fun met => absurd (congrArg some met) (limit_ne_targetMet _)

/-- A phase that asks for nothing of the history, on the way to an end or not. -/
theorem Provenance.plain (onBest : t.phase.onBest = true → t.workingRevision = t.bestRevision)
    (phase : t.phase ≠ .test ∧ t.phase ≠ .measure ∧ t.phase ≠ .review ∧ t.phase ≠ .keep ∧ t.phase ≠ .done)
    (unmet : t.stopReason ≠ some "target-met") : Provenance t history where
  onBest := onBest
  test same := absurd same phase.1
  measure same := absurd same phase.2.1
  review same := absurd same phase.2.2.1
  keep same := absurd same phase.2.2.2.1
  met met := absurd met unmet
  done same := absurd same phase.2.2.2.2

theorem Provenance.failed (message : String) :
    Provenance (failStep s message output) (.error message :: history) :=
  .plain (by simp [failStep, Phase.onBest]) (by simp [failStep]) (error_ne_targetMet message)

theorem Provenance.measured {valid targetMet improved : Bool} {inconclusive : Option Bool}
    (h : Provenance s history) (phase : s.phase = .baseline ∨ s.phase = .measure) :
    Provenance
      (finishMeasurement s (recordOutput s output) valid inconclusive targetMet improved)
      (.measurement s.workingRevision valid inconclusive targetMet improved :: history) := by
  have unmet : s.stopReason ≠ some "target-met" := by
    apply h.unmet <;> rcases phase with phase | phase <;> simp [phase]
  unfold finishMeasurement
  cases valid with
  | false =>
      rw [Bool.not_false, if_pos rfl]
      split
      · exact .plain (by simp [Phase.onBest]) (by simp) unmet
      · refine .plain (by simp [Phase.onBest]) (by simp) ?_
        dsimp only
        split <;> decide
  | true =>
      rw [Bool.not_true, if_neg Bool.false_ne_true]
      split
      · rename_i baseline
        have best : s.workingRevision = s.bestRevision := h.onBest (by rw [baseline]; rfl)
        cases targetMet with
        | false => exact .plain (fun _ => best) (by simp) (by simp)
        | true =>
            refine ⟨by simp [Phase.onBest], by simp, by simp, by simp, by simp, fun _ => ⟨.inl rfl, ?_⟩,
              by simp⟩
            simp [lastMeasured, recordOutput, best]
      · rename_i other
        have measure := phase.resolve_left other
        by_cases accepted : (improved || targetMet) = true
        · rw [if_pos accepted]
          refine ⟨by simp [Phase.onBest], by simp, by simp, fun _ => ?_, by simp, fun met => absurd met unmet,
            by simp⟩
          exact ⟨inconclusive, improved, history, h.measure measure, by simpa using accepted, rfl⟩
        · rw [if_neg accepted]
          exact .plain (by simp [Phase.onBest]) (by simp) unmet

theorem Provenance.advance (h : Provenance s history)
    (advance : Advance s (recordOutput s output) outcome t) : Provenance t (outcome :: history) := by
  cases advance with
  | prepared phase =>
      exact .plain (fun _ => h.onBest (by rw [phase]; rfl)) (by simp)
        (h.unmet (by simp [phase]) (by simp [phase]))
  | measured phase => exact h.measured phase
  | attempted phase =>
      exact .plain (fun _ => h.onBest (by rw [phase]; rfl)) (by simp)
        (h.unmet (by simp [phase]) (by simp [phase]))
  | profiled phase =>
      exact .plain (fun _ => h.onBest (by rw [phase]; rfl)) (by simp)
        (h.unmet (by simp [phase]) (by simp [phase]))
  | stopped phase => exact .plain (by simp [Phase.onBest]) (by simp) (analysis_ne_targetMet _)
  | changes phase =>
      exact .plain (fun _ => h.onBest (by rw [phase]; rfl)) (by simp)
        (h.unmet (by simp [phase]) (by simp [phase]))
  | asks phase =>
      exact .plain (fun _ => h.onBest (by rw [phase]; rfl)) (by simp)
        (h.unmet (by simp [phase]) (by simp [phase]))
  | profiles phase =>
      exact .plain (fun _ => h.onBest (by rw [phase]; rfl)) (by simp)
        (h.unmet (by simp [phase]) (by simp [phase]))
  | researched phase =>
      exact .plain (fun _ => h.onBest (by rw [phase]; rfl)) (by simp)
        (h.unmet (by simp [phase]) (by simp [phase]))
  | edited phase saved =>
      have unmet : s.stopReason ≠ some "target-met" := by
        apply h.unmet <;> rcases phase with phase | phase <;> simp [phase]
      exact ⟨by simp [Phase.onBest], fun _ => ⟨history, rfl⟩, by simp, by simp, by simp,
        fun met => absurd met unmet, by simp⟩
  | @tested passed phase =>
      have unmet := h.unmet (by simp [phase]) (by simp [phase])
      obtain ⟨rest, edited⟩ := h.test phase
      cases passed with
      | false => exact .plain (by simp [Phase.onBest]) (by simp) unmet
      | true =>
          exact ⟨by simp [Phase.onBest], by simp, fun _ => ⟨rest, by rw [edited]; rfl⟩, by simp, by simp,
            fun met => absurd met unmet, by simp⟩
  | @reviewed passed phase =>
      have unmet := h.unmet (by simp [phase]) (by simp [phase])
      cases passed with
      | false => exact .plain (by simp [Phase.onBest]) (by simp) unmet
      | true =>
          exact ⟨by simp [Phase.onBest], by simp, by simp, by simp,
            fun _ => ⟨history, h.review phase, rfl⟩, fun met => absurd met unmet, by simp⟩
  | kept phase =>
      obtain ⟨_, ⟨inconclusive, improved, rest, -, -, rfl⟩, rfl⟩ := h.keep phase
      cases met : s.targetMet with
      | false => exact .plain (fun _ => rfl) (by simp) (by simp)
      | true =>
          refine ⟨by simp [Phase.onBest], by simp, by simp, by simp, by simp, fun _ => ⟨.inl rfl, ?_⟩,
            by simp⟩
          simp [lastMeasured]
  | discarded phase =>
      exact .plain (fun _ => rfl) (by simp) (h.unmet (by simp [phase]) (by simp [phase]))
  | finished phase =>
      refine ⟨by simp [Phase.onBest], by simp, by simp, by simp, by simp, fun met => ⟨.inr rfl, ?_⟩, ?_⟩
      · exact (h.met met).2
      · simp [recordOutput]

theorem Provenance.step {a : Action} (h : Provenance s history) (moves : stepFn a s = some t) :
    Provenance t (noteOutcome a s history) := by
  rcases stepFn_cases moves with ⟨limits, elapsedMs, rfl, begins, ⟨-, rfl⟩ | ⟨stopped, rfl⟩⟩ |
    ⟨step, outcome, output, rfl, -, -, -, finishes⟩
  · exact h.reserve
  · exact h.wrapUp stopped _ begins.running
  · cases finishes with
    | failed message => exact .failed message
    | advanced advance => exact h.advance advance

theorem provenance_of_reachable {run : RunState × List Outcome}
    (h : (observed Started).Reachable run) : Provenance run.1 run.2 := by
  apply h.invariant
  · rintro ⟨s, history⟩ ⟨started, rfl⟩
    obtain ⟨runId, revision, rfl⟩ := Started.fresh started
    exact .plain (fun _ => rfl) (by simp [freshRun]) (by simp [freshRun])
  · rintro a ⟨s, history⟩ ⟨t, after⟩ hs moves
    obtain ⟨next, moved, same⟩ := Option.map_eq_some_iff.mp moves
    obtain ⟨rfl, rfl⟩ := Prod.mk.inj same
    exact hs.step moved

/-- Only the keep step changes the best revision, to the working one. -/
theorem bestRevision_changes {a : Action} (moves : stepFn a s = some t)
    (changes : t.bestRevision ≠ s.bestRevision) :
    s.phase = .keep ∧ t.bestRevision = s.workingRevision := by
  rcases stepFn_cases moves with ⟨limits, elapsedMs, rfl, begins, ⟨-, rfl⟩ | ⟨stopped, rfl⟩⟩ |
    ⟨step, outcome, output, rfl, -, -, -, finishes⟩
  · exact absurd rfl changes
  · exact absurd rfl changes
  · cases finishes with
    | failed message => exact absurd rfl changes
    | advanced advance =>
        cases advance with
        | kept phase => exact ⟨phase, rfl⟩
        | measured phase =>
            refine absurd ?_ changes
            unfold finishMeasurement
            split
            · split <;> rfl
            · split <;> rfl
        | _ => exact absurd rfl changes

/-- What is accepted has been edited, tested, measured and reviewed, in this order and with
nothing in between; a new attempt starts from the best revision; and a run that says its
target is met has a best revision that met it. -/
structure Accepts (s : RunState) (history : List Outcome) : Prop where
  reviewed : ∀ a t, stepFn a s = some t → t.bestRevision ≠ s.bestRevision →
    ∃ targetMet, ReviewedLast t.bestRevision targetMet history
  onBest : s.phase = .startAttempt ∨ s.phase = .profile ∨ s.phase = .analyze ∨ s.phase = .research →
    s.workingRevision = s.bestRevision
  met : s.phase = .done → s.targetMet = true → lastMeasured s.bestRevision history = some true

/-- Tempo accepts only tested, measured and reviewed code. -/
theorem accepts_of_reachable {run : RunState × List Outcome}
    (h : (observed Started).Reachable run) : Accepts run.1 run.2 := by
  have known := provenance_of_reachable h
  refine ⟨fun a t moves changes => ?_, fun phase => known.onBest ?_, fun done met => ?_⟩
  · obtain ⟨keep, best⟩ := bestRevision_changes moves changes
    rw [best]
    exact ⟨run.1.targetMet, known.keep keep⟩
  · rcases phase with phase | phase | phase | phase <;> rw [phase] <;> rfl
  · exact (known.met (known.done done met)).2

end

/-- A step that begins at once and ends with an outcome. -/
def doStep (limits : Limits) (step : ℕ) (outcome : Outcome) : List Action :=
  [.begin limits 0, .finish step outcome ⟨"output", 1⟩]

/-- One attempt that is edited, tested, measured and reviewed. -/
def oneAttempt (limits : Limits) (old new : String) : List Action :=
  doStep limits 1 .prepared ++ doStep limits 2 (.measurement old true none false false) ++
    doStep limits 3 .attemptStarted ++ doStep limits 4 .profile ++
    doStep limits 5 (.analysis .change none) ++ doStep limits 6 (.edited new) ++
    doStep limits 7 (.tests new true) ++ doStep limits 8 (.measurement new true none true true) ++
    doStep limits 9 (.review new true)

/-- The attempt is up for its keep step, which makes the edited revision the best one. -/
theorem oneAttempt_accepts :
    let old := "0000000000000000000000000000000000000000"
    let new := "1111111111111111111111111111111111111111"
    let run := (observed Started).runFrom (oneAttempt ⟨1, 0, 3, 9⟩ old new) (freshRun "run" old, [])
    Accepts run.1 run.2 ∧ run.1.phase = .keep ∧ run.1.workingRevision = new := by
  intro old new run
  have started : (observed Started).init (freshRun "run" old, []) :=
    ⟨⟨"run", old, by decide +kernel⟩, rfl⟩
  exact ⟨accepts_of_reachable ((Machine.Reachable.init started).runFrom _), by decide +kernel⟩

end Busker.Tempo
