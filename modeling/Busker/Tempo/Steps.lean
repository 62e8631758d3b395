import Busker.Interleaving.Machine
import Busker.Tempo.State

/-! What one step of a run can do, and the machine of its steps. -/
namespace Busker.Tempo

open Interleaving

/-- `beginStep` reserves the next step or wraps up, and throws otherwise. -/
structure Begins (s : RunState) (limits : Limits) (elapsedMs : ℤ) : Prop where
  running : s.phase ≠ .done
  idle : s.activeStep = none
  later : s.elapsedMs ≤ elapsedMs
  limits : limits.Valid
  counters : (s.progress elapsedMs).Valid

/-- Nothing stands against the next step. -/
def proceeds (s : RunState) (limits : Limits) (elapsedMs : ℤ) : Prop :=
  s.phase.next = .finish ∨ limitReasons limits (s.progress elapsedMs) s.phase.next = []

instance (s : RunState) (limits : Limits) (elapsedMs : ℤ) : Decidable (proceeds s limits elapsedMs) :=
  inferInstanceAs (Decidable (_ ∨ _))

theorem beginStep_eq_ok {s t : RunState} {limits : Limits} {elapsedMs : ℤ} :
    beginStep s limits elapsedMs = .ok t ↔ Begins s limits elapsedMs ∧
      t = if proceeds s limits elapsedMs then reserve s elapsedMs
        else wrapUp s elapsedMs (limitReasons limits (s.progress elapsedMs) s.phase.next) := by
  have checked := @checkLimits_eq_ok limits (s.progress elapsedMs) s.phase.next
  unfold beginStep
  split
  · rename_i done
    simp only [reduceCtorEq, false_iff]
    exact fun h => h.1.running done
  · rename_i running
    split
    · rename_i active
      simp only [reduceCtorEq, false_iff]
      exact fun h => active h.1.idle
    · rename_i idle
      split
      · rename_i earlier
        simp only [reduceCtorEq, false_iff]
        exact fun h => absurd h.1.later (not_le.mpr earlier)
      · rename_i later
        have begins : Begins s limits elapsedMs ↔ limits.Valid ∧ (s.progress elapsedMs).Valid :=
          ⟨fun h => ⟨h.limits, h.counters⟩,
            fun h => ⟨running, not_not.mp idle, not_lt.mp later, h.1, h.2⟩⟩
        have active : (s.progress elapsedMs).activeStep = false := rfl
        simp only [active, Bool.false_eq_true, if_false] at checked
        rw [begins]
        split
        · rename_i message threw
          simp only [reduceCtorEq, false_iff]
          rintro ⟨⟨valid, counted⟩, -⟩
          have answered := checked.mpr ⟨valid, counted, rfl⟩
          rw [threw] at answered
          contradiction
        · rename_i reasons answered
          obtain ⟨valid, counted, same⟩ := checked.mp answered
          have stopped : ¬proceeds s limits elapsedMs := by
            intro free
            rw [if_pos (show _ ∨ _ from free)] at same
            contradiction
          rw [if_neg (show ¬(_ ∨ _) from stopped)] at same
          rw [if_neg stopped, ← LimitAction.wrapUp.inj same]
          simp [valid, counted, eq_comm]
        · rename_i action other answered
          obtain ⟨valid, counted, same⟩ := checked.mp answered
          have free : proceeds s limits elapsedMs := by
            by_contra stopped
            rw [if_neg (show ¬(_ ∨ _) from stopped)] at same
            exact other _ same
          rw [if_pos free]
          simp [valid, counted, eq_comm]

/-- What `finishStep` makes of an outcome that is no error. `r` has the output recorded. -/
inductive Advance (s r : RunState) : Outcome → RunState → Prop
  | prepared (phase : s.phase = .prepare) : Advance s r .prepared { r with phase := .baseline }
  | measured {valid inconclusive targetMet improved} (phase : s.phase = .baseline ∨ s.phase = .measure) :
      Advance s r (.measurement s.workingRevision valid inconclusive targetMet improved)
        (finishMeasurement s r valid inconclusive targetMet improved)
  | attempted (phase : s.phase = .startAttempt) :
      Advance s r .attemptStarted { r with phase := .profile, requestedProfile := .ctimer, targetMet := false }
  | profiled (phase : s.phase = .profile) : Advance s r .profile { r with phase := .analyze }
  | stopped {reason : Option String} (phase : s.phase = .analyze) :
      Advance s r (.analysis .stop reason)
        { r with
          phase := .finish
          stopReason := some ("analysis:" ++ reason.getD "no further proposal") }
  | changes {reason} (phase : s.phase = .analyze) :
      Advance s r (.analysis .change reason) { r with phase := .implement }
  | asks {reason} (phase : s.phase = .analyze) :
      Advance s r (.analysis .research reason) { r with phase := .research }
  | profiles {event} (phase : s.phase = .analyze) :
      Advance s r (.analysisProfile event) { r with phase := .profile, requestedProfile := event }
  | researched (phase : s.phase = .research) : Advance s r .research { r with phase := .analyze }
  | edited {revision} (phase : s.phase = .implement ∨ s.phase = .repair) (saved : isRevision revision = true) :
      Advance s r (.edited revision)
        { r with workingRevision := revision, targetMet := false, phase := .test }
  | tested {passed : Bool} (phase : s.phase = .test) :
      Advance s r (.tests s.workingRevision passed)
        { r with phase := if passed then .measure else .repair }
  | reviewed {passed : Bool} (phase : s.phase = .review) :
      Advance s r (.review s.workingRevision passed)
        { r with phase := if passed then .keep else .repair }
  | kept (phase : s.phase = .keep) :
      Advance s r (.kept s.workingRevision)
        { r with
          bestRevision := s.workingRevision
          phase := if s.targetMet then .finish else .startAttempt
          stopReason := if s.targetMet then some "target-met" else none }
  | discarded (phase : s.phase = .discard) :
      Advance s r (.discarded s.bestRevision)
        { r with workingRevision := s.bestRevision, targetMet := false, phase := .startAttempt }
  | finished (phase : s.phase = .finish) :
      Advance s r .finished
        { r with phase := .done, targetMet := s.stopReason = some "target-met" }

theorem sameRevision_eq_ok {s t r : RunState} {revision : String} :
    sameRevision s revision (.ok r) = .ok t ↔ revision = s.workingRevision ∧ r = t := by
  unfold sameRevision
  split <;> simp_all

theorem finishPhase_advance {s r t : RunState} {outcome : Outcome}
    (h : finishPhase s r outcome = .ok t) : Advance s r outcome t := by
  unfold finishPhase at h
  split at h
  case h_1 phase => exact Except.ok.inj h ▸ .prepared phase
  case h_2 phase =>
    obtain ⟨rfl, rfl⟩ := sameRevision_eq_ok.mp h
    exact .measured (.inl phase)
  case h_3 phase =>
    obtain ⟨rfl, rfl⟩ := sameRevision_eq_ok.mp h
    exact .measured (.inr phase)
  case h_4 phase => exact Except.ok.inj h ▸ .attempted phase
  case h_5 phase => exact Except.ok.inj h ▸ .profiled phase
  case h_6 phase => exact Except.ok.inj h ▸ .stopped phase
  case h_7 phase => exact Except.ok.inj h ▸ .changes phase
  case h_8 phase => exact Except.ok.inj h ▸ .asks phase
  case h_9 phase => exact Except.ok.inj h ▸ .profiles phase
  case h_10 phase => exact Except.ok.inj h ▸ .researched phase
  case h_11 phase =>
    split at h
    · rename_i saved
      exact Except.ok.inj h ▸ .edited (.inl phase) saved
    · contradiction
  case h_12 phase =>
    split at h
    · rename_i saved
      exact Except.ok.inj h ▸ .edited (.inr phase) saved
    · contradiction
  case h_13 phase =>
    obtain ⟨rfl, rfl⟩ := sameRevision_eq_ok.mp h
    exact .tested phase
  case h_14 phase =>
    obtain ⟨rfl, rfl⟩ := sameRevision_eq_ok.mp h
    exact .reviewed phase
  case h_15 phase =>
    obtain ⟨rfl, rfl⟩ := sameRevision_eq_ok.mp h
    exact .kept phase
  case h_16 phase =>
    split at h
    · rename_i same
      subst same
      exact Except.ok.inj h ▸ .discarded phase
    · contradiction
  case h_17 phase => exact Except.ok.inj h ▸ .finished phase
  all_goals contradiction

/-- The state after an outcome that is an error. -/
def failStep (s : RunState) (message : String) (output : OutputReference) : RunState :=
  { recordOutput s output with
    phase := .finish
    stopReason := some ("error:" ++ message)
    targetMet := false }

/-- What a step that ends can do. -/
inductive Finishes (s : RunState) (output : OutputReference) : Outcome → RunState → Prop
  | failed (message : String) : Finishes s output (.error message) (failStep s message output)
  | advanced {outcome t} (advance : Advance s (recordOutput s output) outcome t) :
      Finishes s output outcome t

theorem finishStep_finishes {s t : RunState} {step : ℕ} {outcome : Outcome} {output : OutputReference}
    (h : finishStep s step outcome output = .ok t) :
    s.activeStep = some step ∧ step = s.sequence ∧ output.saved = true ∧ Finishes s output outcome t := by
  unfold finishStep at h
  split at h
  · contradiction
  · rename_i matching
    rw [not_or, not_not, not_not] at matching
    split at h
    · contradiction
    · rename_i saved
      refine ⟨matching.1, matching.2, by simpa using saved, ?_⟩
      split at h
      · exact Except.ok.inj h ▸ .failed _
      · exact .advanced (finishPhase_advance h)

inductive Action where
  | begin (limits : Limits) (elapsedMs : ℤ)
  | finish (step : ℕ) (outcome : Outcome) (output : OutputReference)

/-- One call that returns. -/
def stepFn : Action → RunState → Option RunState
  | .begin limits elapsedMs, s => (beginStep s limits elapsedMs).toOption
  | .finish step outcome output, s => (finishStep s step outcome output).toOption

/-- The runs of `beginStep` and `finishStep` from the states of `init`. -/
def machine (init : RunState → Prop) : Machine RunState Action where
  init := init
  step := stepFn

/-- The states `newRun` returns. -/
def Started (s : RunState) : Prop := ∃ runId revision, newRun runId revision = .ok s

theorem newRun_eq {s : RunState} {runId revision : String} (made : newRun runId revision = .ok s) :
    s = freshRun runId revision := by
  unfold newRun at made
  split at made
  · contradiction
  · exact (Except.ok.inj made).symm

theorem Started.fresh {s : RunState} (h : Started s) : ∃ runId revision, s = freshRun runId revision := by
  obtain ⟨runId, revision, made⟩ := h
  exact ⟨runId, revision, newRun_eq made⟩

theorem toOption_eq_some {α : Type} {e : Except String α} {a : α} : e.toOption = some a ↔ e = .ok a := by
  cases e <;> simp [Except.toOption]

/-- A step of the machine, by what it does. -/
theorem stepFn_cases {a : Action} {s t : RunState} (h : stepFn a s = some t) :
    (∃ limits elapsedMs, a = .begin limits elapsedMs ∧ Begins s limits elapsedMs ∧
      ((proceeds s limits elapsedMs ∧ t = reserve s elapsedMs) ∨
        (¬proceeds s limits elapsedMs ∧
          t = wrapUp s elapsedMs (limitReasons limits (s.progress elapsedMs) s.phase.next)))) ∨
    (∃ step outcome output, a = .finish step outcome output ∧ s.activeStep = some step ∧
      step = s.sequence ∧ output.saved = true ∧ Finishes s output outcome t) := by
  cases a with
  | begin limits elapsedMs =>
      obtain ⟨begins, same⟩ := beginStep_eq_ok.mp (toOption_eq_some.mp h)
      refine .inl ⟨limits, elapsedMs, rfl, begins, ?_⟩
      split at same
      · rename_i free
        exact .inl ⟨free, same⟩
      · rename_i stopped
        exact .inr ⟨stopped, same⟩
  | finish step outcome output =>
      exact .inr ⟨step, outcome, output, rfl, finishStep_finishes (toOption_eq_some.mp h)⟩

end Busker.Tempo
