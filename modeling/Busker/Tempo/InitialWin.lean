import Busker.Tempo.Gains
import Busker.Tempo.Provenance

/-! A first measurement that already wins. The baseline step compares it with itself as the
best one, and asks it to be better than that. -/
namespace Busker.Tempo

open Interleaving

/-- The first measurement meets the goal, and the protected workloads have valid scores. -/
structure InitialWin (policy : Policy) (initial : Measurement) : Prop where
  met : (assessGoal policy.goal initial initial).targetMet = some true
  scores : ∀ protection ∈ policy.protections,
    ∃ score, initial.score? protection.workload "busker" = some score

/-- `runConfigSchema` of the protections and the fraction. -/
structure Policy.Valid (policy : Policy) : Prop where
  fraction : 3 / 100 ≤ policy.minimumImprovementFraction ∧
    policy.minimumImprovementFraction ≤ 5 / 100
  distinct : (policy.protections.map (·.workload)).Nodup
  protections : ∀ protection ∈ policy.protections, protection.workload ≠ "" ∧
    0 ≤ protection.maxDecreaseFraction ∧ protection.maxDecreaseFraction < 1

/-- The first measurement is the best and the current one. -/
def baselineStep (reading : Reading) (policy : Policy) (store : Resources) (state : RunState)
    (references : List OutputReference) (saved output : OutputReference) : Except String RunState :=
  finishStep state state.sequence
    (compareSavedMeasurements reading policy store state references references references saved).2.outcome
    output

/-- The run ends as won. -/
structure RunState.Won (state : RunState) : Prop where
  finish : state.phase = .finish
  reason : state.stopReason = some "target-met"

section
variable {goal : Goal} {protections : List Protection} {initial : Measurement} {fraction : ℚ}
  {policy : Policy} {reading : Reading} {store : Resources} {state : RunState}
  {references : List OutputReference} {saved output : OutputReference}

theorem answer_given {no_errors answer : Bool}
    (h : (if no_errors then some answer else none) = some true) : no_errors = true := by
  cases no_errors
  · contradiction
  · rfl

theorem score_pos {workload adapter : String} {score : ℚ}
    (scored : initial.score? workload adapter = some score) : 0 < score := by
  unfold Measurement.score? at scored
  split at scored
  · split at scored
    · rename_i cell _ fits
      obtain rfl := Option.some.inj scored
      simp only [Bool.and_eq_true, decide_eq_true_eq] at fits
      exact fits.2
    · contradiction
  · contradiction

theorem assessGoal_workloads_ne_nil {best current : Measurement}
    (no_errors : (assessGoal goal best current).errors = []) : goal.workloads ≠ [] := by
  have goal_errors := (List.append_eq_nil_iff.mp no_errors).1
  simp only [goalErrors, List.append_eq_nil_iff] at goal_errors
  obtain ⟨⟨_, named⟩, _⟩ := goal_errors
  intro empty
  rw [if_pos (.inl empty)] at named
  contradiction

/-- No measurement is better than itself by the floor. -/
theorem not_improves_self (no_errors : (assessGoal goal initial initial).errors = [])
    (valid : 3 / 100 ≤ fraction) : ¬ Improves goal protections initial initial initial fraction := by
  intro improves
  obtain ⟨workload, asked⟩ := List.exists_mem_of_ne_nil _ (assessGoal_workloads_ne_nil no_errors)
  obtain ⟨prior, score, before, after, better⟩ := improves.gains workload asked
  obtain rfl := Option.some.inj (before.symm.trans after)
  have positive := score_pos before
  nlinarith

/-- The comparison of a first measurement with itself is never a win. -/
theorem assessCandidate_self :
    (assessCandidate goal protections initial initial initial fraction).targetMet ≠ some true := by
  intro met
  have valid : (assessCandidate goal protections initial initial initial fraction).valid = true := by
    change (if _ then some _ else none) = some true at met
    exact answer_given met
  have assessed := assessed_of_valid valid
  have no_errors := List.isEmpty_iff.mp valid
  simp only [List.append_eq_nil_iff] at no_errors
  exact not_improves_self no_errors.1.1.1.1 assessed.fraction (improves_of_accepted (.inr met))

theorem assessGoal_valid {best current : Measurement}
    (met : (assessGoal goal best current).targetMet = some true) :
    (assessGoal goal best current).errors = [] := by
  change (if _ then some _ else none) = some true at met
  exact List.isEmpty_iff.mp (answer_given met)

/-- A first measurement that wins is valid under a policy that parses. -/
theorem InitialWin.valid (wins : InitialWin policy initial) (valid : policy.Valid) :
    (assessCandidate policy.goal policy.protections initial initial initial
      policy.minimumImprovementFraction).valid = true := by
  have none := assessGoal_valid wins.met
  apply List.isEmpty_iff.mpr
  simp only [List.append_eq_nil_iff]
  refine ⟨⟨⟨⟨none, none⟩, ?_⟩, ?_⟩, ?_⟩
  · rw [if_neg]
    rintro (low | high)
    · exact absurd valid.fraction.1 (not_le.mpr low)
    · exact absurd valid.fraction.2 (not_le.mpr high)
  · rw [if_neg (not_not.mpr valid.distinct)]
  · rw [List.flatten_eq_nil_iff]
    intro errors mem
    rw [List.map_map] at mem
    obtain ⟨protection, listed, rfl⟩ := List.mem_map.mp mem
    obtain ⟨score, scored⟩ := wins.scores protection listed
    obtain ⟨named, low, high⟩ := valid.protections protection listed
    simp [checkProtection, scored, scoreErrors, named, low, high]

/-- The baseline step after a first measurement. -/
theorem baselineStep_eq (baseline : state.phase = .baseline)
    (active : state.activeStep = some state.sequence)
    (best : state.bestRevision = state.initialRevision)
    (working : state.workingRevision = state.initialRevision) (named : output.saved = true)
    (read : readMeasurement reading policy store state.runId state.initialRevision references =
      .ok initial) :
    baselineStep reading policy store state references saved output = .ok
      (finishMeasurement state (recordOutput state output)
        (assessCandidate policy.goal policy.protections initial initial initial
          policy.minimumImprovementFraction).valid none false
        ((assessCandidate policy.goal policy.protections initial initial initial
          policy.minimumImprovementFraction).improved == some true)) := by
  have assessed : assessSaved reading policy store state references references references =
      .ok (assessCandidate policy.goal policy.protections initial initial initial
        policy.minimumImprovementFraction) :=
    assessSaved_eq_ok.mpr ⟨initial, initial, initial, read, best ▸ read, working ▸ read, rfl⟩
  have lost : ((assessCandidate policy.goal policy.protections initial initial initial
      policy.minimumImprovementFraction).targetMet == some true) = false :=
    beq_eq_false_iff_ne.mpr assessCandidate_self
  unfold baselineStep compareSavedMeasurements finishStep
  rw [assessed, if_neg (by simp [active]), if_neg (by simp [named])]
  dsimp only [finishPhase]
  rw [baseline]
  simp only [Except.toOption, Option.any_some, Option.bind_some, lost, sameRevision, if_true]

/-- An initial win never ends the run: it goes on to its first attempt. -/
theorem baselineStep_of_initialWin (baseline : state.phase = .baseline)
    (active : state.activeStep = some state.sequence)
    (best : state.bestRevision = state.initialRevision)
    (working : state.workingRevision = state.initialRevision) (named : output.saved = true)
    (read : readMeasurement reading policy store state.runId state.initialRevision references =
      .ok initial) (wins : InitialWin policy initial) :
    ∃ next, baselineStep reading policy store state references saved output = .ok next ∧
      ¬ next.Won ∧ (policy.Valid →
        next.phase = .startAttempt ∧ next.stopReason = none ∧ next.targetMet = false) := by
  refine ⟨_, baselineStep_eq baseline active best working named read, ?_, ?_⟩
  · rintro ⟨finish, reason⟩
    unfold finishMeasurement at finish reason
    split at reason
    · rw [if_neg (by simp [baseline])] at reason
      simp at reason
    · cases reason
  · intro valid
    rw [wins.valid valid]
    unfold finishMeasurement
    rw [if_neg (by simp), if_pos baseline]
    exact ⟨rfl, rfl, rfl⟩

end

/-- The adapters that `runArgumentsSchema` asks a beat-all goal on H1 to list. -/
def h1Competitors : List String :=
  ["aleph", "capra", "hirundo", "http-exchange", "http-kit", "jetty", "undertow"]

/-- H1 optimization takes an allowance for TLS H2. -/
def beatPolicy : Policy := ⟨.beatAll [("h1", h1Competitors)], [⟨"tls-h2", 5 / 100⟩], 5 / 100, "precision"⟩

/-- Busker is twice as fast as every competitor. -/
def fasterScores : List Score :=
  ⟨"h1", "busker", 100, true⟩ :: h1Competitors.map (fun adapter => ⟨"h1", adapter, 50, true⟩) ++
    [⟨"tls-h2", "busker", 80, true⟩]

def referenceOf (score : Score) : OutputReference := ⟨score.workload ++ "-" ++ score.adapter, 1⟩

def fasterStore : Resources :=
  fasterScores.foldl (fun store score => store.save (referenceOf score) (.benchmark
    ⟨"run", score.workload, score.adapter, "0000000000000000000000000000000000000000", "native", "host",
      "settings", "precision", score.workload, score.adapter, score.requestsPerSecond⟩)) fun _ => none

def atBaseline : RunState :=
  { freshRun "run" "0000000000000000000000000000000000000000" with
    phase := .baseline, sequence := 2, activeStep := some 2 }

def fasterMeasurement : Measurement where
  kind := "benchmark"
  id := ",".intercalate (fasterScores.map fun score => (referenceOf score).name ++ "@1")
  revision := "0000000000000000000000000000000000000000"
  protocolId := "settings"
  nativeSha256 := some "native"
  scores := fasterScores

/-- The step that compares the measurement with itself. -/
def fasterBaseline : Except String RunState :=
  baselineStep ⟨fun _ => true, fun _ => "settings"⟩ beatPolicy fasterStore atBaseline
    (fasterScores.map referenceOf) ⟨"run-comparison-2", 1⟩ ⟨"run-step-2", 1⟩

theorem fasterMeasurement_read :
    readMeasurement ⟨fun _ => true, fun _ => "settings"⟩ beatPolicy fasterStore "run"
      "0000000000000000000000000000000000000000" (fasterScores.map referenceOf) =
      .ok fasterMeasurement := by
  decide +kernel

theorem fasterMeasurement_wins : InitialWin beatPolicy fasterMeasurement := by
  refine ⟨by decide +kernel, ?_⟩
  intro protection listed
  obtain rfl := List.mem_singleton.mp listed
  exact ⟨80, by decide +kernel⟩

theorem fasterBaseline_goes_on : ∃ next, fasterBaseline = .ok next ∧ ¬ next.Won ∧
    (beatPolicy.Valid → next.phase = .startAttempt ∧ next.stopReason = none ∧
      next.targetMet = false) :=
  baselineStep_of_initialWin rfl rfl rfl rfl (by decide) fasterMeasurement_read
    fasterMeasurement_wins

/-- An initial win that starts an attempt. -/
theorem initialWin_starts : InitialWin beatPolicy fasterMeasurement ∧
    fasterBaseline.toOption.map (fun next => (next.phase, next.stopReason)) =
      some (.startAttempt, none) :=
  ⟨fasterMeasurement_wins, by decide +kernel⟩

/-- Before its first attempt a run has not been won. -/
structure Unstarted (run : RunState) : Prop where
  working : run.phase.early = true → run.workingRevision = run.initialRevision
  phase : run.attemptsStarted = 0 → run.phase.early = true ∨ run.phase.ending = true ∨
    run.phase = .startAttempt ∧ run.activeStep = none
  reason : run.attemptsStarted = 0 → run.stopReason ≠ some "target-met"

section
variable {describe : Describe} {reading : Reading} {policy : Policy} {s t : RunState}
  {c d : Campaign} {gains : Gains}

theorem Unstarted.begin {limits : Limits} {elapsedMs : ℤ} (h : Unstarted s)
    (begins : beginStep s limits elapsedMs = .ok t) : Unstarted t := by
  obtain ⟨ready, rfl⟩ := beginStep_eq_ok.mp begins
  split
  · refine ⟨h.working, ?_, ?_⟩
    · intro none
      dsimp only [reserve] at none ⊢
      have other : s.phase ≠ .startAttempt := by
        intro start
        rw [if_pos start] at none
        omega
      rw [if_neg other] at none
      rcases h.phase none with early | ending | ⟨start, _⟩
      · exact .inl early
      · exact .inr (.inl ending)
      · exact (other start).elim
    · intro none
      dsimp only [reserve] at none ⊢
      exact h.reason (by omega)
  · unfold wrapUp
    by_cases repairs : limitReasons limits (s.progress elapsedMs) s.phase.next = ["repairs"]
    · rw [if_pos repairs, if_pos repairs]
      have repair : s.phase = .repair := by
        have next := next_of_repairs repairs
        cases phase : s.phase <;> simp [phase, Phase.next, Phase.inference] at next
        rfl
      refine ⟨fun early => (by cases early), fun none => ?_, h.reason⟩
      rcases h.phase none with early | ending | ⟨start, _⟩
      · rw [repair] at early
        cases early
      · rw [repair] at ending
        cases ending
      · rw [repair] at start
        cases start
    · rw [if_neg repairs, if_neg repairs]
      exact ⟨fun early => (by cases early), fun _ => .inr (.inl rfl),
        fun _ => limit_ne_targetMet _⟩

/-- The outcome of a baseline step is no win. -/
theorem baseline_lost {work : Work} {store : Resources} {given : StepEffect}
    {valid targetMet improved : Bool} {inconclusive : Option Bool} (early : c.run.phase = .baseline)
    (h : Unstarted c.run) (tracks : Tracks reading policy c gains)
    (performed : perform reading policy c.store c.run work = some (store, .ok given))
    (outcome : given.outcome =
      .measurement c.run.workingRevision valid inconclusive targetMet improved)
    (is_valid : valid = true) : targetMet = false := by
  obtain ⟨_, keep, same_best⟩ := tracks.early (by rw [early]; rfl)
  have working := h.working (by rw [early]; rfl)
  rcases perform_measures (.inl early) performed with
    ⟨_, spoiled⟩ | ⟨current, version, initially, before, saved, rfl, first, prior, compared⟩
  · rw [outcome] at spoiled
    simp only [Outcome.measurement.injEq] at spoiled
    rw [is_valid] at spoiled
    simp at spoiled
  · obtain ⟨rfl, rfl⟩ := Prod.mk.inj compared
    obtain rfl : current = initially := by
      rw [initialReferences, if_pos early] at first
      exact Except.ok.inj first
    obtain rfl : current = before := by
      rw [bestReferences, keep] at prior
      exact Except.ok.inj prior
    obtain ⟨result, assessed, _, _, met⟩ := compared_result outcome is_valid
    obtain ⟨measured, best, last, read, readBest, readLast, rfl⟩ := assessSaved_eq_ok.mp assessed
    obtain rfl : measured = best := by
      rw [same_best] at readBest
      exact Except.ok.inj (read.symm.trans readBest)
    obtain rfl : measured = last := by
      rw [working] at readLast
      exact Except.ok.inj (read.symm.trans readLast)
    by_contra win
    exact assessCandidate_self (met (Bool.eq_true_of_not_eq_false win))

/-- The steps before the baseline and after the finish. -/
theorem advance_edges {r : RunState} {outcome : Outcome} (advance : Advance s r outcome t)
    (baseline : s.phase ≠ .baseline) : (t.phase.early = true → s.phase = .prepare) ∧
      (s.phase = .prepare ∨ s.phase = .finish → (t.phase.early = true ∨ t.phase.ending = true) ∧
        t.workingRevision = r.workingRevision ∧ t.initialRevision = r.initialRevision ∧
        t.stopReason = r.stopReason) := by
  cases advance with
  | @measured valid inconclusive targetMet improved phase =>
      have measure := phase.resolve_left baseline
      rw [measure]
      by_cases spoiled : inconclusive = some true <;> cases valid <;> cases targetMet <;>
        cases improved <;> simp [finishMeasurement, measure, spoiled, Phase.early]
  | kept phase =>
      rw [phase]
      cases s.targetMet <;> simp [Phase.early]
  | edited phase => rcases phase with phase | phase <;> rw [phase] <;> simp [Phase.early]
  | @tested passed phase =>
      rw [phase]
      cases passed <;> simp [Phase.early]
  | @reviewed passed phase =>
      rw [phase]
      cases passed <;> simp [Phase.early]
  | _ =>
      rename_i phase
      rw [phase]
      simp [Phase.early, Phase.ending]

theorem Unstarted.measured {r : RunState} {valid targetMet improved : Bool}
    {inconclusive : Option Bool} (baseline : s.phase = .baseline) (idle : r.activeStep = none)
    (lost : valid = true → targetMet = false) :
    Unstarted (finishMeasurement s r valid inconclusive targetMet improved) := by
  unfold finishMeasurement
  cases valid with
  | false =>
      rw [if_pos (by decide), if_neg (by simp [baseline])]
      refine ⟨fun early => (by cases early), fun _ => .inr (.inl rfl), fun _ => ?_⟩
      dsimp only
      split <;> decide
  | true =>
      obtain rfl := lost rfl
      rw [if_neg (by decide), if_pos baseline]
      exact ⟨fun early => (by cases early), fun _ => .inr (.inr ⟨rfl, idle⟩),
        fun _ none => (by cases none)⟩

theorem Unstarted.complete {work : Work} {output : OutputReference} {record : StepResult}
    {store : Resources} {effect : Except String StepEffect} (h : Unstarted c.run)
    (tracks : Tracks reading policy c gains) (active : c.run.activeStep ≠ none)
    (completes : Completes describe reading policy c work output record store effect d) :
    Unstarted d.run := by
  have finishes := completes.finishes
  generalize d.run = t at finishes
  generalize ended : record.outcome = outcome at finishes
  cases finishes with
  | failed message =>
      exact ⟨fun early => (by cases early), fun _ => .inr (.inl rfl), fun _ => error_ne_targetMet _⟩
  | advanced advance =>
      by_cases baseline : c.run.phase = .baseline
      · obtain ⟨valid, inconclusive, targetMet, improved, rfl, rfl⟩ :=
          advance_measured advance (.inl baseline)
        obtain ⟨-, -, ⟨given, rfl, recorded⟩ | ⟨failure, failed⟩⟩ :=
          recordEffect_eq_ok completes.recorded
        · exact .measured baseline rfl
            (baseline_lost baseline h tracks completes.performed (recorded.1.symm.trans ended))
        · rw [failed] at ended
          cases ended
      · obtain ⟨attempts, -, -, -⟩ := advance_counters advance
        obtain ⟨early, kept⟩ := advance_edges advance baseline
        have begun : t.attemptsStarted = 0 → c.run.phase = .prepare ∨ c.run.phase = .finish := by
          intro none
          rcases h.phase (attempts.symm.trans none) with first | ending | ⟨_, idle⟩
          · cases phase : c.run.phase <;> rw [phase] at first baseline <;>
              first | contradiction | exact .inl rfl
          · cases phase : c.run.phase <;> rw [phase] at ending
            case finish => exact .inr rfl
            case done => cases advance <;> simp_all
            all_goals contradiction
          · exact (active idle).elim
        constructor
        · intro first
          have prepare := early first
          obtain ⟨-, working, initial, -⟩ := kept (.inl prepare)
          rw [working, initial]
          exact h.working (by rw [prepare]; rfl)
        · exact fun none => (kept (begun none)).1.imp id .inl
        · intro none
          rw [(kept (begun none)).2.2.2]
          exact h.reason (attempts.symm.trans none)

/-- A run without a parent is won only after it has started an attempt. -/
theorem won_after_attempt {run : Campaign × Gains}
    (h : (gaining describe reading policy).Reachable run)
    (won : run.1.run.stopReason = some "target-met") : 0 < run.1.run.attemptsStarted := by
  have unstarted : Unstarted run.1.run := by
    apply h.invariant_of (I := fun run => Unstarted run.1.run) fun _ => tracks_of_reachable
    · rintro ⟨⟨run, store⟩, gains⟩ ⟨started, rfl⟩
      obtain ⟨runId, revision, fresh⟩ := Started.fresh started
      dsimp only at fresh
      subst fresh
      exact ⟨fun _ => rfl, fun _ => .inl rfl, fun _ none => (by cases none)⟩
    · rintro a ⟨c, gains⟩ ⟨d, later⟩ tracks unstarted moves
      obtain ⟨next, moved, same⟩ := Option.map_eq_some_iff.mp moves
      obtain ⟨rfl, rfl⟩ := Prod.mk.inj same
      cases a with
      | begin limits elapsedMs =>
          obtain ⟨run, begins, rfl⟩ := Option.map_eq_some_iff.mp moved
          exact unstarted.begin (toOption_eq_some.mp begins)
      | save reference resource =>
          change (if _ then none else some _) = some next at moved
          split at moved
          · contradiction
          · obtain rfl := Option.some.inj moved
            exact unstarted
      | complete work version =>
          obtain ⟨⟨record, after⟩, completed, rfl⟩ := Option.map_eq_some_iff.mp moved
          have active : c.run.activeStep ≠ none := by
            intro idle
            rw [completeWork, if_pos idle] at completed
            contradiction
          obtain ⟨output, store, effect, completes⟩ := completeWork_completes completed
          exact unstarted.complete tracks active completes
  by_contra none
  exact unstarted.reason (by omega) won

end

end Busker.Tempo
