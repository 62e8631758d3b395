import Mathlib.Tactic.GCongr
import Busker.Interleaving.Machine
import Busker.Tempo.Budgets
import Busker.Tempo.Measurements

/-! Accepted gains compound. Each candidate that is kept improves on the one kept before, and
is held against the protections of the first measurement. -/
namespace Busker.Tempo

open Interleaving

/-- A run with the resources it saves. -/
structure Campaign where
  run : RunState
  store : Resources

inductive CampaignAction where
  | begin (limits : Limits) (elapsedMs : ℤ)
  /-- A benchmark or another step saves a resource. -/
  | save (reference : OutputReference) (resource : Resource)
  /-- The active step does its work; its result is saved under a version. -/
  | complete (work : Work) (version : ℤ)

section
variable (describe : Describe) (reading : Reading) (policy : Policy)

def completeWork (c : Campaign) (work : Work) (version : ℤ) : Option (StepResult × Campaign) :=
  if c.run.activeStep = none then none
  else do
    let (store, effect) ← perform reading policy c.store c.run work
    let record ← (recordEffect describe c.run.runId c.run effect).toOption
    let output : OutputReference := ⟨stepName c.run.runId c.run.sequence, version⟩
    let run ← (finishStep c.run c.run.sequence record.outcome output).toOption
    if (store output).isSome then none else some (record, ⟨run, store.save output (.step record)⟩)

def campaignStep : CampaignAction → Campaign → Option Campaign
  | .begin limits elapsedMs, c => (beginStep c.run limits elapsedMs).toOption.map fun run => ⟨run, c.store⟩
  | .save reference resource, c =>
    if (c.store reference).isSome then none else some ⟨c.run, c.store.save reference resource⟩
  | .complete work version, c => (completeWork describe reading policy c work version).map (·.2)

def campaign : Machine Campaign CampaignAction where
  init c := Started c.run
  step := campaignStep describe reading policy

/-- The references of the first measurement and of the best one, and the number of candidates
that were kept. -/
structure Gains where
  initial : Option (List OutputReference)
  best : List OutputReference
  kept : ℕ

/-- The first measurement and the keep steps are noted. -/
def gainsOf (c : Campaign) (work : Work) (record : StepResult) (gains : Gains) : Gains :=
  match c.run.phase, record.outcome, work with
  | .baseline, .measurement _ true _ _ _, .measure current _ => ⟨some current, current, 0⟩
  | .keep, .kept _, _ =>
    ⟨gains.initial, (measurementReferences c.store c.run .measure).toOption.getD [], gains.kept + 1⟩
  | _, _, _ => gains

def noteGains : CampaignAction → Campaign → Gains → Gains
  | .complete work version, c, gains =>
    if c.run.phase = .baseline ∨ c.run.phase = .keep then
      match completeWork describe reading policy c work version with
      | none => gains
      | some (record, _) => gainsOf c work record gains
    else gains
  | _, _, gains => gains

/-- The runs with what they have gained. -/
def gaining : Machine (Campaign × Gains) CampaignAction :=
  (campaign describe reading policy).recording ⟨none, [], 0⟩ (noteGains describe reading policy)

end

section
variable {describe : Describe} {reading : Reading} {policy : Policy} {store after : Resources}
  {s t : RunState} {c d : Campaign} {gains : Gains} {refs : List OutputReference} {m : Measurement}
  {phase : Phase} {runId revision : String}

/-- What is saved stays saved. -/
def Resources.Grows (store after : Resources) : Prop :=
  ∀ reference resource, store reference = some resource → after reference = some resource

theorem Resources.Grows.refl : store.Grows store := fun _ _ saved => saved

theorem Resources.Grows.trans {later : Resources} (first : store.Grows after) (second : after.Grows later) :
    store.Grows later := fun reference resource saved => second reference resource (first reference resource saved)

theorem Resources.grows_save {reference : OutputReference} {resource : Resource}
    (fresh : ¬(store reference).isSome = true) : store.Grows (store.save reference resource) := by
  intro other kept saved
  unfold Resources.save
  rw [Function.update_of_ne, saved]
  rintro rfl
  rw [saved] at fresh
  exact fresh rfl

theorem readBenchmark_grows (grows : store.Grows after) {reference : OutputReference}
    {saved : OutputReference × BenchmarkRecord}
    (read : readBenchmark reading policy store runId revision reference = .ok saved) :
    readBenchmark reading policy after runId revision reference = .ok saved := by
  rw [← read]
  unfold readBenchmark at read ⊢
  cases found : store reference with
  | none =>
      rw [found] at read
      split at read <;> contradiction
  | some resource => rw [grows reference resource found]

theorem mapM_ok_congr {α β : Type} {f g : α → Except String β} {items : List α} {results : List β}
    (same : ∀ a b, f a = .ok b → g a = .ok b) (read : items.mapM f = .ok results) :
    items.mapM g = .ok results := by
  induction items generalizing results with
  | nil => exact read
  | cons item items ih =>
      rw [List.mapM_cons] at read ⊢
      obtain ⟨first, found, read⟩ := bind_eq_ok.mp read
      obtain ⟨rest, others, read⟩ := bind_eq_ok.mp read
      exact bind_eq_ok.mpr ⟨first, same _ _ found, bind_eq_ok.mpr ⟨rest, ih others, read⟩⟩

theorem readMeasurement_grows (grows : store.Grows after)
    (read : readMeasurement reading policy store runId revision refs = .ok m) :
    readMeasurement reading policy after runId revision refs = .ok m := by
  unfold readMeasurement at read ⊢
  split at read
  · contradiction
  · rename_i some_refs
    rw [if_neg some_refs]
    obtain ⟨saved, found, measured⟩ := bind_eq_ok.mp read
    exact bind_eq_ok.mpr ⟨saved, mapM_ok_congr (fun _ _ => readBenchmark_grows grows) found, measured⟩

/-- A step's resource, from its output and its record. -/
theorem stepResource_eq_ok {resource : Resource} :
    stepResource store s phase = .ok resource ↔ ∃ output record evidence,
      s.outputs phase = some output ∧ store output = some (.step record) ∧ record.runId = s.runId ∧
        record.phase = phase ∧ record.evidence.getLast? = some evidence ∧ store evidence = some resource := by
  unfold stepResource
  constructor
  · intro found
    split at found
    · contradiction
    · rename_i output named
      split at found
      · rename_i record saved
        split at found
        · contradiction
        · rename_i matching
          simp only [not_or, not_not] at matching
          split at found
          · contradiction
          · rename_i evidence last
            split at found
            · rename_i kept stored
              obtain rfl := Except.ok.inj found
              exact ⟨output, record, evidence, named, saved, matching.1, matching.2, last, stored⟩
            · contradiction
      · contradiction
  · rintro ⟨output, record, evidence, named, saved, sameRun, samePhase, last, stored⟩
    simp [named, saved, sameRun, samePhase, last, stored]

theorem measurementReferences_eq_ok :
    measurementReferences store s phase = .ok refs ↔
      ∃ comparison, stepResource store s phase = .ok (.comparison comparison) ∧ comparison.current = refs := by
  unfold measurementReferences
  rw [bind_eq_ok]
  constructor
  · rintro ⟨resource, found, read⟩
    split at read
    · rename_i comparison
      exact ⟨comparison, found, Except.ok.inj read⟩
    · contradiction
  · rintro ⟨comparison, found, rfl⟩
    exact ⟨_, found, rfl⟩

theorem keptReferences_eq_ok :
    keptReferences store s = .ok refs ↔
      ∃ revision, stepResource store s .keep = .ok (.keep revision refs) := by
  unfold keptReferences
  rw [bind_eq_ok]
  constructor
  · rintro ⟨resource, found, read⟩
    split at read
    · rename_i revision measurements
      exact ⟨revision, Except.ok.inj read ▸ found⟩
    · contradiction
  · rintro ⟨revision, found⟩
    exact ⟨_, found, rfl⟩

theorem stepResource_grows (grows : store.Grows after) (sameRun : t.runId = s.runId)
    (sameOutput : t.outputs phase = s.outputs phase) {resource : Resource}
    (found : stepResource store s phase = .ok resource) : stepResource after t phase = .ok resource := by
  obtain ⟨output, record, evidence, named, saved, run, phase, last, stored⟩ := stepResource_eq_ok.mp found
  exact stepResource_eq_ok.mpr ⟨output, record, evidence, sameOutput.trans named,
    grows _ _ saved, run.trans sameRun.symm, phase, last, grows _ _ stored⟩

theorem measurementReferences_grows (grows : store.Grows after) (sameRun : t.runId = s.runId)
    (sameOutput : t.outputs phase = s.outputs phase)
    (found : measurementReferences store s phase = .ok refs) : measurementReferences after t phase = .ok refs := by
  obtain ⟨comparison, resource, current⟩ := measurementReferences_eq_ok.mp found
  exact measurementReferences_eq_ok.mpr ⟨comparison, stepResource_grows grows sameRun sameOutput resource, current⟩

theorem bestReferences_grows (grows : store.Grows after) (sameRun : t.runId = s.runId)
    (sameOutput : t.outputs .keep = s.outputs .keep) {best : List OutputReference}
    (found : bestReferences store s refs = .ok best) : bestReferences after t refs = .ok best := by
  unfold bestReferences at found ⊢
  rw [sameOutput]
  split at found
  · rename_i kept
    rw [if_pos kept]
    obtain ⟨revision, resource⟩ := keptReferences_eq_ok.mp found
    exact keptReferences_eq_ok.mpr ⟨revision, stepResource_grows grows sameRun sameOutput resource⟩
  · rename_i kept
    rw [if_neg kept]
    exact found

/-- What the best measurement has over the first one after some candidates were kept. -/
structure Gain (policy : Policy) (initial best : Measurement) (kept : ℕ) : Prop where
  fraction : 3 / 100 ≤ policy.minimumImprovementFraction
  compounds : ∀ workload ∈ policy.goal.workloads, ∃ first score,
    initial.score? workload "busker" = some first ∧ best.score? workload "busker" = some score ∧
      first * (1 + policy.minimumImprovementFraction) ^ kept ≤ score ∧
      (0 < kept → first * (1 + policy.minimumImprovementFraction) ^ kept < score)
  protects : 0 < kept → ∀ protection ∈ policy.protections, ∃ first score,
    initial.score? protection.workload "busker" = some first ∧
      best.score? protection.workload "busker" = some score ∧
      first * (1 - protection.maxDecreaseFraction) ≤ score

/-- The first measurement, as its own best. -/
theorem Gain.initially {current : Measurement}
    (assessed : Assessed policy.goal m current policy.minimumImprovementFraction) : Gain policy m m 0 where
  fraction := assessed.fraction
  compounds workload asked := by
    obtain ⟨score, found⟩ := assessed.initially workload asked
    exact ⟨score, score, found, found, by simp, fun none => absurd none (lt_irrefl 0)⟩
  protects none := absurd none (lt_irrefl 0)

/-- One more candidate. -/
theorem Gain.improve {initial best current : Measurement} {kept : ℕ} (gain : Gain policy initial best kept)
    (improves : Improves policy.goal policy.protections initial best current
      policy.minimumImprovementFraction) : Gain policy initial current (kept + 1) where
  fraction := gain.fraction
  compounds workload asked := by
    obtain ⟨first, prior, initially, before, compounded, -⟩ := gain.compounds workload asked
    obtain ⟨same, score, again, measured, more⟩ := improves.gains workload asked
    obtain rfl := Option.some.inj (again.symm.trans before)
    have positive : 0 ≤ 1 + policy.minimumImprovementFraction := by linarith [gain.fraction]
    have next : first * (1 + policy.minimumImprovementFraction) ^ (kept + 1) < score := by
      calc first * (1 + policy.minimumImprovementFraction) ^ (kept + 1)
          = first * (1 + policy.minimumImprovementFraction) ^ kept *
              (1 + policy.minimumImprovementFraction) := by rw [pow_succ, mul_assoc]
        _ ≤ same * (1 + policy.minimumImprovementFraction) := by gcongr
        _ < score := more
    exact ⟨first, score, initially, measured, next.le, fun _ => next⟩
  protects _ := improves.protects

theorem perform_grows {work : Work} {effect : Except String StepEffect}
    (performed : perform reading policy store s work = some (after, effect)) : store.Grows after := by
  unfold perform at performed
  split at performed
  · dsimp only at performed
    split at performed
    · rename_i fits
      split at performed
      · obtain ⟨rfl, -⟩ := Prod.mk.inj (Option.some.inj performed)
        exact .refl
      · split at performed
        · obtain ⟨rfl, -⟩ := Prod.mk.inj (Option.some.inj performed)
          exact .refl
        · obtain ⟨rfl, -⟩ := Prod.mk.inj (Option.some.inj performed)
          exact Resources.grows_save (by simpa using fits.2)
    · contradiction
  · split at performed
    · obtain ⟨rfl, -⟩ := Prod.mk.inj (Option.some.inj performed)
      exact .refl
    · contradiction
  · dsimp only at performed
    split at performed
    · rename_i fits
      split at performed
      · obtain ⟨rfl, -⟩ := Prod.mk.inj (Option.some.inj performed)
        exact .refl
      · obtain ⟨rfl, -⟩ := Prod.mk.inj (Option.some.inj performed)
        exact Resources.grows_save (by simpa using fits.2)
    · contradiction
  · split at performed
    · obtain ⟨rfl, -⟩ := Prod.mk.inj (Option.some.inj performed)
      exact .refl
    · contradiction
  · obtain ⟨rfl, -⟩ := Prod.mk.inj (Option.some.inj performed)
    exact .refl

/-- A completed step: its effect, its record and the state after it. -/
structure Completes (describe : Describe) (reading : Reading) (policy : Policy) (c : Campaign) (work : Work)
    (output : OutputReference) (record : StepResult) (store : Resources)
    (effect : Except String StepEffect) (d : Campaign) : Prop where
  performed : perform reading policy c.store c.run work = some (store, effect)
  recorded : recordEffect describe c.run.runId c.run effect = .ok record
  fresh : ¬(store output).isSome = true
  saved : d.store = store.save output (.step record)
  finishes : Finishes c.run output record.outcome d.run

theorem completeWork_completes {work : Work} {version : ℤ} {record : StepResult}
    (completed : completeWork describe reading policy c work version = some (record, d)) :
    ∃ output store effect, Completes describe reading policy c work output record store effect d := by
  unfold completeWork at completed
  split at completed
  · contradiction
  · obtain ⟨⟨store, effect⟩, performed, completed⟩ := Option.bind_eq_some_iff.mp completed
    obtain ⟨written, recorded, completed⟩ := Option.bind_eq_some_iff.mp completed
    obtain ⟨run, finished, completed⟩ := Option.bind_eq_some_iff.mp completed
    split at completed
    · contradiction
    · rename_i fresh
      obtain ⟨rfl, rfl⟩ := Prod.mk.inj (Option.some.inj completed)
      obtain ⟨-, -, -, finishes⟩ := finishStep_finishes (toOption_eq_some.mp finished)
      exact ⟨_, store, effect, performed, toOption_eq_some.mp recorded, fresh, rfl, finishes⟩

theorem Completes.grows {work : Work} {output : OutputReference} {record : StepResult}
    {effect : Except String StepEffect}
    (h : Completes describe reading policy c work output record after effect d) : c.store.Grows d.store := by
  rw [h.saved]
  exact (perform_grows h.performed).trans (Resources.grows_save h.fresh)

/-- Whether the first measurement is still to come. -/
def Phase.early : Phase → Bool
  | .prepare | .baseline => true
  | _ => false

/-- Whether a candidate is being considered. -/
def Phase.considers : Phase → Bool
  | .review | .keep => true
  | _ => false

/-- The measurement of a candidate that is better than the best one. -/
def Candidate (reading : Reading) (policy : Policy) (c : Campaign) (gains : Gains) : Prop :=
  ∃ refs current, measurementReferences c.store c.run .measure = .ok refs ∧
    readMeasurement reading policy c.store c.run.runId c.run.workingRevision refs = .ok current ∧
    ∀ first, gains.initial = some first → ∃ initial best,
      readMeasurement reading policy c.store c.run.runId c.run.initialRevision first = .ok initial ∧
      readMeasurement reading policy c.store c.run.runId c.run.bestRevision gains.best = .ok best ∧
      Improves policy.goal policy.protections initial best current policy.minimumImprovementFraction

/-- The saved measurements behind a run. -/
structure Tracks (reading : Reading) (policy : Policy) (c : Campaign) (gains : Gains) : Prop where
  early : c.run.phase.early = true → gains.initial = none ∧ c.run.outputs .keep = none ∧
    c.run.bestRevision = c.run.initialRevision
  unmeasured : gains.initial = none → gains.kept = 0 ∧ (c.run.phase.early = true ∨ c.run.phase.ending = true)
  measured : ∀ refs, gains.initial = some refs → ∃ initial best,
    readMeasurement reading policy c.store c.run.runId c.run.initialRevision refs = .ok initial ∧
      readMeasurement reading policy c.store c.run.runId c.run.bestRevision gains.best = .ok best ∧
      Gain policy initial best gains.kept
  found : c.run.phase.ending = false → ∀ refs, gains.initial = some refs →
    measurementReferences c.store c.run .baseline = .ok refs ∧
      bestReferences c.store c.run refs = .ok gains.best
  candidate : c.run.phase.considers = true → Candidate reading policy c gains

/-- A step that leaves the measurements alone. -/
structure Quiet (c d : Campaign) : Prop where
  grows : c.store.Grows d.store
  runId : d.run.runId = c.run.runId
  initial : d.run.initialRevision = c.run.initialRevision
  best : d.run.bestRevision = c.run.bestRevision
  outputs : d.run.phase.ending = false →
    d.run.outputs .baseline = c.run.outputs .baseline ∧ d.run.outputs .keep = c.run.outputs .keep
  early : d.run.phase.early = true → c.run.phase.early = true
  leaves : c.run.phase.early = true → d.run.phase.early = true ∨ d.run.phase.ending = true
  ending : c.run.phase.ending = true → d.run.phase.ending = true

theorem Phase.ending_of_early {phase : Phase} (early : phase.early = true) : phase.ending = false := by
  cases phase <;> first | rfl | contradiction

theorem Tracks.quiet (h : Tracks reading policy c gains) (quiet : Quiet c d)
    (candidate : d.run.phase.considers = true → Candidate reading policy d gains) :
    Tracks reading policy d gains where
  early early := by
    obtain ⟨none_yet, keep, best⟩ := h.early (quiet.early early)
    refine ⟨none_yet, (quiet.outputs (Phase.ending_of_early early)).2.trans keep, ?_⟩
    rw [quiet.best, quiet.initial, best]
  unmeasured none_yet := by
    obtain ⟨zero, early | ending⟩ := h.unmeasured none_yet
    · exact ⟨zero, quiet.leaves early⟩
    · exact ⟨zero, .inr (quiet.ending ending)⟩
  measured refs first := by
    obtain ⟨initial, best, readInitial, readBest, gain⟩ := h.measured refs first
    refine ⟨initial, best, ?_, ?_, gain⟩
    · rw [quiet.runId, quiet.initial]
      exact readMeasurement_grows quiet.grows readInitial
    · rw [quiet.runId, quiet.best]
      exact readMeasurement_grows quiet.grows readBest
  found running refs first := by
    have before : c.run.phase.ending = false := by
      by_contra ending
      rw [quiet.ending (by simpa using ending)] at running
      contradiction
    obtain ⟨baseline, best⟩ := h.found before refs first
    obtain ⟨sameBaseline, sameKeep⟩ := quiet.outputs running
    exact ⟨measurementReferences_grows quiet.grows quiet.runId sameBaseline baseline,
      bestReferences_grows quiet.grows quiet.runId sameKeep best⟩
  candidate := candidate

theorem Candidate.quiet (h : Candidate reading policy c gains) (quiet : Quiet c d)
    (working : d.run.workingRevision = c.run.workingRevision)
    (measure : d.run.outputs .measure = c.run.outputs .measure) : Candidate reading policy d gains := by
  obtain ⟨refs, current, found, read, better⟩ := h
  refine ⟨refs, current, measurementReferences_grows quiet.grows quiet.runId measure found, ?_, fun first noted => ?_⟩
  · rw [quiet.runId, working]
    exact readMeasurement_grows quiet.grows read
  · obtain ⟨initial, best, readInitial, readBest, improves⟩ := better first noted
    refine ⟨initial, best, ?_, ?_, improves⟩
    · rw [quiet.runId, quiet.initial]
      exact readMeasurement_grows quiet.grows readInitial
    · rw [quiet.runId, quiet.best]
      exact readMeasurement_grows quiet.grows readBest

/-- What a step that ends leaves of the revisions and the outputs. -/
theorem advance_keeps {r : RunState} {outcome : Outcome} (advance : Advance s r outcome t)
    (other : s.phase ≠ .keep) :
    t.runId = r.runId ∧ t.initialRevision = r.initialRevision ∧ t.bestRevision = r.bestRevision ∧
      t.outputs = r.outputs := by
  cases advance with
  | measured phase =>
      unfold finishMeasurement
      split
      · split <;> exact ⟨rfl, rfl, rfl, rfl⟩
      · split <;> exact ⟨rfl, rfl, rfl, rfl⟩
  | kept phase => exact absurd phase other
  | _ => exact ⟨rfl, rfl, rfl, rfl⟩

theorem advance_phases {r : RunState} {outcome : Outcome} (advance : Advance s r outcome t)
    (baseline : s.phase ≠ .baseline) (measure : s.phase ≠ .measure) (keep : s.phase ≠ .keep) :
    (t.phase.early = true → s.phase.early = true) ∧
      (s.phase.early = true → t.phase.early = true ∨ t.phase.ending = true) ∧
      (s.phase.ending = true → t.phase.ending = true) ∧
      (t.phase.considers = true → s.phase.considers = true ∧ t.workingRevision = r.workingRevision) := by
  cases advance with
  | measured phase => rcases phase with phase | phase <;> contradiction
  | kept phase => contradiction
  | edited phase =>
      rcases phase with phase | phase <;> rw [phase] <;> simp [Phase.early, Phase.ending, Phase.considers]
  | @tested passed phase =>
      rw [phase]
      cases passed <;> simp [Phase.early, Phase.ending, Phase.considers]
  | @reviewed passed phase =>
      rw [phase]
      cases passed <;> simp [Phase.early, Phase.ending, Phase.considers]
  | _ =>
      rename_i phase
      rw [phase]
      simp [Phase.early, Phase.ending, Phase.considers]

/-- What a measurement step that returns has done. -/
theorem perform_measures {work : Work} {given : StepEffect} (phase : s.phase = .baseline ∨ s.phase = .measure)
    (performed : perform reading policy store s work = some (after, .ok given)) :
    (∃ inconclusive, given.outcome = .measurement s.workingRevision false (some inconclusive) false false) ∨
      ∃ current version initial best saved, work = .measure current version ∧
        initialReferences store s current = .ok initial ∧ bestReferences store s initial = .ok best ∧
        (after, given) = compareSavedMeasurements reading policy store s initial best current saved := by
  unfold perform at performed
  split at performed
  · rename_i current version
    dsimp only at performed
    split at performed
    · split at performed
      · cases (Prod.mk.inj (Option.some.inj performed)).2
      · rename_i initial first
        split at performed
        · cases (Prod.mk.inj (Option.some.inj performed)).2
        · rename_i best before
          obtain ⟨rfl, same⟩ := Prod.mk.inj (Option.some.inj performed)
          obtain rfl := Except.ok.inj same
          exact .inr ⟨current, version, initial, best, _, rfl, first, before, rfl⟩
    · contradiction
  · rename_i inconclusive current
    split at performed
    · obtain ⟨-, same⟩ := Prod.mk.inj (Option.some.inj performed)
      obtain rfl := Except.ok.inj same
      exact .inl ⟨inconclusive, rfl⟩
    · contradiction
  · dsimp only at performed
    split at performed
    · rename_i fits
      rcases phase with phase | phase <;> rw [phase] at fits <;> cases fits.1
    · contradiction
  · split at performed
    · rename_i fits
      rcases phase with phase | phase
      · exact absurd phase fits.1
      · exact absurd phase fits.2.1
    · contradiction
  · cases (Prod.mk.inj (Option.some.inj performed)).2

/-- What a keep step that returns has done. -/
theorem perform_keeps {work : Work} {given : StepEffect} (phase : s.phase = .keep)
    (performed : perform reading policy store s work = some (after, .ok given)) :
    ∃ measurements saved, measurementReferences store s .measure = .ok measurements ∧
      after = store.save saved (.keep s.workingRevision measurements) ∧
      given = ⟨.kept s.workingRevision, [saved]⟩ := by
  unfold perform at performed
  split at performed
  · dsimp only at performed
    split at performed
    · rename_i fits
      rw [phase] at fits
      rcases fits.1 with other | other <;> contradiction
    · contradiction
  · split at performed
    · rename_i fits
      rw [phase] at fits
      rcases fits with other | other <;> contradiction
    · contradiction
  · dsimp only at performed
    split at performed
    · split at performed
      · cases (Prod.mk.inj (Option.some.inj performed)).2
      · rename_i measurements found
        obtain ⟨rfl, same⟩ := Prod.mk.inj (Option.some.inj performed)
        obtain rfl := Except.ok.inj same
        exact ⟨measurements, _, found, rfl, rfl⟩
    · contradiction
  · split at performed
    · rename_i fits
      exact absurd phase fits.2.2
    · contradiction
  · cases (Prod.mk.inj (Option.some.inj performed)).2

theorem assessSaved_eq_ok {initial best current : List OutputReference} {result : CandidateResult} :
    assessSaved reading policy store s initial best current = .ok result ↔
      ∃ initially before measured,
        readMeasurement reading policy store s.runId s.initialRevision initial = .ok initially ∧
        readMeasurement reading policy store s.runId s.bestRevision best = .ok before ∧
        readMeasurement reading policy store s.runId s.workingRevision current = .ok measured ∧
        assessCandidate policy.goal policy.protections initially before measured
          policy.minimumImprovementFraction = result := by
  unfold assessSaved
  simp only [bind_eq_ok, Except.ok.injEq]
  constructor
  · rintro ⟨initially, first, before, second, measured, third, same⟩
    exact ⟨initially, before, measured, first, second, third, same⟩
  · rintro ⟨initially, before, measured, first, second, third, same⟩
    exact ⟨initially, first, before, second, measured, third, same⟩

/-- The references of the measurement that a completed step has saved. -/
theorem Completes.references {work : Work} {output saved : OutputReference} {record : StepResult}
    {given : StepEffect} {comparison : SavedComparison}
    (h : Completes describe reading policy c work output record (store.save saved (.comparison comparison))
      (.ok given) d)
    (evidence : record.evidence = [saved]) (runId : d.run.runId = c.run.runId)
    (outputs : d.run.outputs c.run.phase = some output) :
    measurementReferences d.store d.run c.run.phase = .ok comparison.current := by
  obtain ⟨sameRun, samePhase, -⟩ := recordEffect_eq_ok h.recorded
  apply measurementReferences_eq_ok.mpr
  refine ⟨comparison, stepResource_eq_ok.mpr ⟨output, record, saved, outputs, ?_, ?_, samePhase, ?_, ?_⟩, rfl⟩
  · rw [h.saved]
    exact Function.update_self _ _ _
  · rw [sameRun, runId]
  · rw [evidence]
    rfl
  · rw [h.saved]
    exact Resources.grows_save h.fresh _ _ (Function.update_self _ _ _)

theorem Tracks.failed {work : Work} {output : OutputReference} {record : StepResult}
    {effect : Except String StepEffect} (h : Tracks reading policy c gains)
    (completes : Completes describe reading policy c work output record after effect d) {message : String}
    (run : d.run = failStep c.run message output) : Tracks reading policy d gains := by
  apply h.quiet
  · constructor
    · exact completes.grows
    all_goals rw [run]
    · rfl
    · rfl
    · rfl
    · intro running
      cases running
    · intro early
      cases early
    · exact fun _ => .inr rfl
    · exact fun _ => rfl
  · intro considers
    rw [run] at considers
    cases considers

theorem advance_measured {r : RunState} {outcome : Outcome} (advance : Advance s r outcome t)
    (phase : s.phase = .baseline ∨ s.phase = .measure) : ∃ valid inconclusive targetMet improved,
      outcome = .measurement s.workingRevision valid inconclusive targetMet improved ∧
        t = finishMeasurement s r valid inconclusive targetMet improved := by
  cases advance with
  | measured => exact ⟨_, _, _, _, rfl, rfl⟩
  | edited other =>
      rcases phase with phase | phase <;> rw [phase] at other <;> rcases other with other | other <;>
        contradiction
  | _ =>
      rename_i other
      rw [other] at phase
      rcases phase with phase | phase <;> contradiction

theorem advance_kept {r : RunState} {outcome : Outcome} (advance : Advance s r outcome t)
    (phase : s.phase = .keep) : outcome = .kept s.workingRevision ∧
      t = { r with
        bestRevision := s.workingRevision
        phase := if s.targetMet then .finish else .startAttempt
        stopReason := if s.targetMet then some "target-met" else none } := by
  cases advance with
  | kept => exact ⟨rfl, rfl⟩
  | measured other => rw [phase] at other; rcases other with other | other <;> contradiction
  | edited other => rw [phase] at other; rcases other with other | other <;> contradiction
  | _ =>
      rename_i other
      rw [other] at phase
      contradiction

section
variable {work : Work} {output : OutputReference} {record : StepResult} {given : StepEffect}
  {outcome : Outcome}

/-- The two ways in which a comparison is read off its effect. -/
theorem compared_result {initial best current : List OutputReference} {saved : OutputReference}
    {valid targetMet improved : Bool} {inconclusive : Option Bool}
    (outcome : (compareSavedMeasurements reading policy store s initial best current saved).2.outcome =
      .measurement s.workingRevision valid inconclusive targetMet improved) (is_valid : valid = true) :
    ∃ result, assessSaved reading policy store s initial best current = .ok result ∧ result.valid = true ∧
      (improved = true → result.improved = some true) ∧ (targetMet = true → result.targetMet = some true) := by
  unfold compareSavedMeasurements at outcome
  dsimp only at outcome
  simp only [Outcome.measurement.injEq, true_and] at outcome
  obtain ⟨validity, -, met, better⟩ := outcome
  cases assessed : assessSaved reading policy store s initial best current with
  | error failure =>
      rw [assessed] at validity
      rw [← validity] at is_valid
      contradiction
  | ok result =>
      rw [assessed] at validity met better
      refine ⟨result, rfl, ?_, ?_, ?_⟩
      · rw [← is_valid, ← validity]
        rfl
      · rintro rfl
        simpa [Except.toOption] using better
      · rintro rfl
        simpa [Except.toOption] using met

/-- The gains once the first measurement is saved. -/
theorem Tracks.first {current : List OutputReference} {measured : Measurement}
    (later : d.run.phase = .finish ∨ d.run.phase = .startAttempt)
    (read : readMeasurement reading policy d.store d.run.runId d.run.initialRevision current = .ok measured)
    (best : d.run.bestRevision = d.run.initialRevision) (gain : Gain policy measured measured 0)
    (found : measurementReferences d.store d.run .baseline = .ok current)
    (keep : d.run.outputs .keep = none) : Tracks reading policy d ⟨some current, current, 0⟩ where
  early early := by rcases later with phase | phase <;> rw [phase] at early <;> cases early
  unmeasured none_yet := by cases none_yet
  measured refs first := by
    obtain rfl := Option.some.inj first
    exact ⟨measured, measured, read, best ▸ read, gain⟩
  found _ refs first := by
    obtain rfl := Option.some.inj first
    refine ⟨found, ?_⟩
    unfold bestReferences
    rw [keep]
    rfl
  candidate considers := by rcases later with phase | phase <;> rw [phase] at considers <;> cases considers

theorem Tracks.baseline (h : Tracks reading policy c gains)
    (completes : Completes describe reading policy c work output record after (.ok given) d)
    (recorded : record.outcome = given.outcome ∧ record.evidence = given.evidence)
    (advance : Advance c.run (recordOutput c.run output) record.outcome d.run)
    (phase : c.run.phase = .baseline) : Tracks reading policy d (gainsOf c work record gains) := by
  obtain ⟨valid, inconclusive, targetMet, improved, outcome, run⟩ := advance_measured advance (.inl phase)
  obtain ⟨runId, initial, best, outputs⟩ := advance_keeps advance (by rw [phase]; decide)
  obtain ⟨-, keep, same_best⟩ := h.early (by rw [phase]; rfl)
  have later : d.run.phase = .finish ∨ valid = true ∧ d.run.phase = .startAttempt := by
    rw [run]
    cases valid <;> cases targetMet <;> simp [finishMeasurement, phase]
  by_cases is_valid : valid = true
  · subst is_valid
    rcases perform_measures (.inl phase) completes.performed with
      ⟨_, spoiled⟩ | ⟨current, version, initially, before, saved, rfl, first, prior, compared⟩
    · rw [recorded.1, spoiled] at outcome
      simp at outcome
    · obtain ⟨rfl, rfl⟩ := Prod.mk.inj compared
      obtain rfl : current = initially := by
        rw [initialReferences, if_pos phase] at first
        exact Except.ok.inj first
      obtain rfl : current = before := by
        rw [bestReferences, keep] at prior
        exact Except.ok.inj prior
      obtain ⟨result, assessed, valid_result, -⟩ := compared_result (recorded.1.symm.trans outcome) rfl
      obtain ⟨measured, again, last, read, readAgain, -, rfl⟩ := assessSaved_eq_ok.mp assessed
      obtain rfl : measured = again := by
        rw [same_best] at readAgain
        exact Except.ok.inj (read.symm.trans readAgain)
      have noted : gainsOf c (.measure current version) record gains = ⟨some current, current, 0⟩ := by
        unfold gainsOf
        rw [phase, outcome]
      rw [noted]
      refine Tracks.first (later.imp_right And.right) ?_ ?_ (Gain.initially (assessed_of_valid valid_result)) ?_ ?_
      · rw [runId, initial]
        exact readMeasurement_grows completes.grows read
      · rw [best, initial]
        exact same_best
      · rw [← phase]
        exact completes.references recorded.2 runId (by rw [outputs]; exact Function.update_self _ _ _)
      · rw [outputs]
        exact (Function.update_of_ne (by rw [phase]; decide) _ _).trans keep
  · have finish : d.run.phase = .finish := later.resolve_right fun both => is_valid both.1
    have same : gainsOf c work record gains = gains := by
      unfold gainsOf
      rw [phase, outcome]
      simp [is_valid]
    rw [same]
    apply h.quiet
    · refine ⟨completes.grows, runId, initial, best, fun running => ?_, fun early => ?_, fun _ => ?_, fun ending => ?_⟩
      all_goals first | rw [finish] at running; cases running | skip
      · rw [finish] at early
        cases early
      · exact .inr (by rw [finish]; rfl)
      · rw [finish]
        rfl
    · intro considers
      rw [finish] at considers
      cases considers

theorem Tracks.measure (h : Tracks reading policy c gains)
    (completes : Completes describe reading policy c work output record after (.ok given) d)
    (recorded : record.outcome = given.outcome ∧ record.evidence = given.evidence)
    (advance : Advance c.run (recordOutput c.run output) record.outcome d.run)
    (phase : c.run.phase = .measure) : Tracks reading policy d gains := by
  obtain ⟨valid, inconclusive, targetMet, improved, outcome, run⟩ := advance_measured advance (.inr phase)
  obtain ⟨runId, initial, best, outputs⟩ := advance_keeps advance (by rw [phase]; decide)
  have other : ∀ phase, c.run.phase ≠ phase → d.run.outputs phase = c.run.outputs phase := by
    intro phase different
    rw [outputs]
    exact Function.update_of_ne (Ne.symm different) _ _
  have working : d.run.workingRevision = c.run.workingRevision := by
    rw [run]
    unfold finishMeasurement
    split
    · split <;> rfl
    · split <;> rfl
  have later : d.run.phase.early = false ∧
      (d.run.phase.considers = true → valid = true ∧ (improved = true ∨ targetMet = true)) := by
    rw [run]
    unfold finishMeasurement
    rw [phase]
    cases valid with
    | false => by_cases again : inconclusive = some true <;> simp [again, Phase.early, Phase.considers]
    | true => cases improved <;> cases targetMet <;> simp [Phase.early, Phase.considers]
  apply h.quiet
  · refine ⟨completes.grows, runId, initial, best, fun _ => ⟨other _ (by rw [phase]; decide),
      other _ (by rw [phase]; decide)⟩, fun early => ?_, fun early => ?_, fun ending => ?_⟩
    · rw [later.1] at early
      cases early
    · rw [phase] at early
      cases early
    · rw [phase] at ending
      cases ending
  · intro considers
    obtain ⟨is_valid, better⟩ := later.2 considers
    rcases perform_measures (.inr phase) completes.performed with
      ⟨_, spoiled⟩ | ⟨current, version, initially, before, saved, rfl, first, prior, compared⟩
    · rw [recorded.1, spoiled, is_valid] at outcome
      simp at outcome
    · obtain ⟨rfl, rfl⟩ := Prod.mk.inj compared
      obtain ⟨result, assessed, -, improves, meets⟩ :=
        compared_result (recorded.1.symm.trans outcome) is_valid
      obtain ⟨firstly, previous, measured, readFirst, readPrior, read, rfl⟩ := assessSaved_eq_ok.mp assessed
      have improvement := improves_of_accepted (better.imp improves meets)
      refine ⟨current, measured, ?_, ?_, fun refs noted => ⟨firstly, previous, ?_, ?_, improvement⟩⟩
      · rw [← phase]
        exact completes.references recorded.2 runId (by rw [outputs]; exact Function.update_self _ _ _)
      · rw [runId, working]
        exact readMeasurement_grows completes.grows read
      all_goals
        obtain ⟨sameFirst, sameBest⟩ := h.found (by rw [phase]; rfl) refs noted
        rw [initialReferences, if_neg (by rw [phase]; decide)] at first
        obtain rfl := Except.ok.inj (sameFirst.symm.trans first)
      · rw [runId, initial]
        exact readMeasurement_grows completes.grows readFirst
      · obtain rfl := Except.ok.inj (sameBest.symm.trans prior)
        rw [runId, best]
        exact readMeasurement_grows completes.grows readPrior

theorem Tracks.keep (h : Tracks reading policy c gains)
    (completes : Completes describe reading policy c work output record after (.ok given) d)
    (recorded : record.outcome = given.outcome ∧ record.evidence = given.evidence)
    (advance : Advance c.run (recordOutput c.run output) record.outcome d.run)
    (phase : c.run.phase = .keep) : Tracks reading policy d (gainsOf c work record gains) := by
  obtain ⟨outcome, run⟩ := advance_kept advance phase
  obtain ⟨measurements, saved, found, rfl, rfl⟩ := perform_keeps phase completes.performed
  have noted : gainsOf c work record gains = ⟨gains.initial, measurements, gains.kept + 1⟩ := by
    unfold gainsOf
    rw [phase, outcome, found]
    rfl
  have fields : d.run.runId = c.run.runId ∧ d.run.initialRevision = c.run.initialRevision ∧
      d.run.bestRevision = c.run.workingRevision ∧ d.run.outputs = (recordOutput c.run output).outputs ∧
      (d.run.phase = .finish ∨ d.run.phase = .startAttempt) := by
    rw [run]
    refine ⟨rfl, rfl, rfl, rfl, ?_⟩
    cases c.run.targetMet <;> simp
  obtain ⟨runId, initial, best, outputs, later⟩ := fields
  obtain ⟨refs, current, measured, read, better⟩ := h.candidate (by rw [phase]; rfl)
  obtain rfl := Except.ok.inj (found.symm.trans measured)
  obtain ⟨sameRun, samePhase, -⟩ := recordEffect_eq_ok completes.recorded
  have kept : keptReferences d.store d.run = .ok measurements := by
    apply keptReferences_eq_ok.mpr
    refine ⟨c.run.workingRevision, stepResource_eq_ok.mpr ⟨output, record, saved, ?_, ?_, ?_, ?_, ?_, ?_⟩⟩
    · rw [outputs, ← phase]
      exact Function.update_self _ _ _
    · rw [completes.saved]
      exact Function.update_self _ _ _
    · rw [sameRun, runId]
    · rw [samePhase, phase]
    · rw [recorded.2]
      rfl
    · rw [completes.saved]
      exact Resources.grows_save completes.fresh _ _ (Function.update_self _ _ _)
  rw [noted]
  constructor
  · intro early
    rcases later with finish | again
    · rw [finish] at early
      cases early
    · rw [again] at early
      cases early
  · intro none_yet
    obtain ⟨-, early | ending⟩ := h.unmeasured none_yet
    · rw [phase] at early
      cases early
    · rw [phase] at ending
      cases ending
  · intro first initially
    obtain ⟨firstly, previous, readFirst, readPrior, improves⟩ := better first initially
    obtain ⟨firstly', previous', again, prior, gain⟩ := h.measured first initially
    obtain rfl := Except.ok.inj (again.symm.trans readFirst)
    obtain rfl := Except.ok.inj (prior.symm.trans readPrior)
    refine ⟨firstly', current, ?_, ?_, gain.improve improves⟩
    · rw [runId, initial]
      exact readMeasurement_grows completes.grows readFirst
    · rw [runId, best]
      exact readMeasurement_grows completes.grows read
  · intro _ first initially
    obtain ⟨baseline, -⟩ := h.found (by rw [phase]; rfl) first initially
    constructor
    · apply measurementReferences_grows completes.grows runId _ baseline
      rw [outputs]
      exact Function.update_of_ne (by rw [phase]; decide) _ _
    · have saved_keep : d.run.outputs .keep = some output := by
        rw [outputs, ← phase]
        exact Function.update_self _ _ _
      unfold bestReferences
      rw [saved_keep]
      exact kept
  · intro considers
    rcases later with finish | again
    · rw [finish] at considers
      cases considers
    · rw [again] at considers
      cases considers

theorem gainsOf_other (baseline : c.run.phase ≠ .baseline) (keep : c.run.phase ≠ .keep) :
    gainsOf c work record gains = gains := by
  unfold gainsOf
  split <;> first | rfl | contradiction

theorem Tracks.complete {effect : Except String StepEffect} (h : Tracks reading policy c gains)
    (completes : Completes describe reading policy c work output record after effect d) :
    Tracks reading policy d (gainsOf c work record gains) := by
  have finishes := completes.finishes
  generalize run : d.run = t at finishes
  generalize ended : record.outcome = outcome at finishes
  cases finishes with
  | failed message =>
      have same : gainsOf c work record gains = gains := by
        unfold gainsOf
        rw [ended]
        split <;> first | rfl | contradiction
      rw [same]
      exact h.failed completes run
  | advanced advance =>
      subst ended run
      obtain ⟨-, -, ⟨given, rfl, recorded⟩ | ⟨failure, failed⟩⟩ := recordEffect_eq_ok completes.recorded
      · by_cases baseline : c.run.phase = .baseline
        · exact h.baseline completes recorded advance baseline
        by_cases keep : c.run.phase = .keep
        · exact h.keep completes recorded advance keep
        rw [gainsOf_other baseline keep]
        by_cases measure : c.run.phase = .measure
        · exact h.measure completes recorded advance measure
        obtain ⟨runId, initial, best, outputs⟩ := advance_keeps advance keep
        obtain ⟨early, leaves, ending, considers⟩ := advance_phases advance baseline measure keep
        have other : ∀ phase, c.run.phase ≠ phase → d.run.outputs phase = c.run.outputs phase := by
          intro phase different
          rw [outputs]
          exact Function.update_of_ne (Ne.symm different) _ _
        have quiet : Quiet c d := ⟨completes.grows, runId, initial, best,
          fun _ => ⟨other _ baseline, other _ keep⟩, early, leaves, ending⟩
        apply h.quiet quiet
        intro considered
        obtain ⟨before, working⟩ := considers considered
        exact (h.candidate before).quiet quiet working (other _ measure)
      · rw [failed] at advance
        cases advance

end

theorem Tracks.begin {limits : Limits} {elapsedMs : ℤ} (h : Tracks reading policy c gains)
    (begins : beginStep c.run limits elapsedMs = .ok t) : Tracks reading policy ⟨t, c.store⟩ gains := by
  obtain ⟨ready, rfl⟩ := beginStep_eq_ok.mp begins
  split
  · have quiet : Quiet c ⟨reserve c.run elapsedMs, c.store⟩ :=
      ⟨.refl, rfl, rfl, rfl, fun _ => ⟨rfl, rfl⟩, id, .inl, id⟩
    exact h.quiet quiet fun considers => (h.candidate considers).quiet quiet rfl rfl
  · rename_i stopped
    have other : c.run.phase.next ≠ .finish := fun finish => stopped (.inl finish)
    generalize reasons_eq : limitReasons limits (c.run.progress elapsedMs) c.run.phase.next = reasons
    have later : (wrapUp c.run elapsedMs reasons).phase = .discard ∧ c.run.phase = .repair ∨
        (wrapUp c.run elapsedMs reasons).phase = .finish := by
      unfold wrapUp
      by_cases repairs : reasons = ["repairs"]
      · have next := next_of_repairs (reasons_eq.trans repairs)
        refine .inl ⟨by simp [repairs], ?_⟩
        cases phase : c.run.phase <;> simp [phase, Phase.next, Phase.inference] at next
        rfl
      · simp [repairs]
    have running : c.run.phase.ending = false := by
      cases phase : c.run.phase <;> try rfl
      · exact absurd (congrArg Phase.next phase) other
      · exact absurd phase ready.running
    apply h.quiet
    · refine ⟨.refl, rfl, rfl, rfl, fun _ => ⟨rfl, rfl⟩, ?_, ?_, ?_⟩
      · intro early
        rcases later with ⟨discard, -⟩ | finish
        · rw [discard] at early
          cases early
        · rw [finish] at early
          cases early
      · intro early
        rcases later with ⟨-, repair⟩ | finish
        · rw [repair] at early
          cases early
        · exact .inr (by rw [finish]; rfl)
      · intro ending
        rw [running] at ending
        cases ending
    · intro considers
      rcases later with ⟨discard, -⟩ | finish
      · rw [discard] at considers
        cases considers
      · rw [finish] at considers
        cases considers

theorem Tracks.save {reference : OutputReference} {resource : Resource} (h : Tracks reading policy c gains)
    (fresh : ¬(c.store reference).isSome = true) :
    Tracks reading policy ⟨c.run, c.store.save reference resource⟩ gains := by
  have quiet : Quiet c ⟨c.run, c.store.save reference resource⟩ :=
    ⟨Resources.grows_save fresh, rfl, rfl, rfl, fun _ => ⟨rfl, rfl⟩, id, .inl, id⟩
  exact h.quiet quiet fun considers => (h.candidate considers).quiet quiet rfl rfl

theorem Tracks.step {a : CampaignAction} (h : Tracks reading policy c gains)
    (moves : campaignStep describe reading policy a c = some d) :
    Tracks reading policy d (noteGains describe reading policy a c gains) := by
  cases a with
  | begin limits elapsedMs =>
      obtain ⟨run, begins, rfl⟩ := Option.map_eq_some_iff.mp moves
      exact h.begin (toOption_eq_some.mp begins)
  | save reference resource =>
      change (if _ then none else some _) = some d at moves
      split at moves
      · contradiction
      · rename_i fresh
        obtain rfl := Option.some.inj moves
        exact h.save fresh
  | complete work version =>
      obtain ⟨⟨record, after⟩, completed, rfl⟩ := Option.map_eq_some_iff.mp moves
      obtain ⟨output, store, effect, completes⟩ := completeWork_completes completed
      have complete := h.complete completes
      rw [noteGains, completed]
      split
      · exact complete
      · rename_i other
        rwa [gainsOf_other (fun phase => other (.inl phase)) fun phase => other (.inr phase)] at complete

theorem tracks_of_reachable {run : Campaign × Gains}
    (h : (gaining describe reading policy).Reachable run) : Tracks reading policy run.1 run.2 := by
  apply h.invariant
  · rintro ⟨⟨run, store⟩, gains⟩ ⟨started, rfl⟩
    obtain ⟨runId, revision, fresh⟩ := Started.fresh started
    dsimp only at fresh
    subst fresh
    constructor
    · exact fun _ => ⟨rfl, rfl, rfl⟩
    · exact fun _ => ⟨rfl, .inl rfl⟩
    · exact fun refs first => by cases first
    · exact fun _ refs first => by cases first
    · exact fun considers => by cases considers
  · rintro a ⟨c, gains⟩ ⟨d, later⟩ tracks moves
    obtain ⟨next, moved, same⟩ := Option.map_eq_some_iff.mp moves
    obtain ⟨rfl, rfl⟩ := Prod.mk.inj same
    exact tracks.step moved

/-- What the best measurement has over the first one. -/
structure Compounds (reading : Reading) (policy : Policy) (c : Campaign) (gains : Gains)
    (refs : List OutputReference) (initial best : Measurement) : Prop where
  noted : gains.initial = some refs
  initially : readMeasurement reading policy c.store c.run.runId c.run.initialRevision refs = .ok initial
  finally_best : readMeasurement reading policy c.store c.run.runId c.run.bestRevision gains.best = .ok best
  compounds : ∀ workload ∈ policy.goal.workloads, ∃ first score,
    initial.score? workload "busker" = some first ∧ best.score? workload "busker" = some score ∧
      first * (1 + policy.minimumImprovementFraction) ^ gains.kept < score
  protects : ∀ protection ∈ policy.protections, ∃ first score,
    initial.score? protection.workload "busker" = some first ∧
      best.score? protection.workload "busker" = some score ∧
      first * (1 - protection.maxDecreaseFraction) ≤ score

/-- Accepted gains compound, and protected workloads never ratchet down. -/
theorem compounds_of_reachable {run : Campaign × Gains}
    (h : (gaining describe reading policy).Reachable run) (accepted : 1 ≤ run.2.kept) :
    ∃ refs initial best, Compounds reading policy run.1 run.2 refs initial best := by
  have tracks := tracks_of_reachable h
  cases noted : run.2.initial with
  | none =>
      rw [(tracks.unmeasured noted).1] at accepted
      contradiction
  | some refs =>
      obtain ⟨initial, best, readInitial, readBest, gain⟩ := tracks.measured refs noted
      refine ⟨refs, initial, best, noted, readInitial, readBest, fun workload asked => ?_, gain.protects accepted⟩
      obtain ⟨first, score, initially, finally_best, -, compounded⟩ := gain.compounds workload asked
      exact ⟨first, score, initially, finally_best, compounded accepted⟩

end

/-- A benchmark of a run with its score. -/
def benchmarkOf (revision protocol : String) (score : ℚ) : Resource :=
  .benchmark ⟨"run", protocol, "busker", revision, "native", "host", "settings", "precision", protocol, "busker",
    score⟩

/-- The benchmarks of a revision, of the workload to improve and of the protected one. -/
def benchmarksOf (name revision : String) (h1 tlsH2 : ℚ) : List CampaignAction :=
  [.save ⟨name ++ "-h1", 1⟩ (benchmarkOf revision "h1" h1),
   .save ⟨name ++ "-tls-h2", 1⟩ (benchmarkOf revision "tls-h2" tlsH2)]

def referencesOf (name : String) : List OutputReference := [⟨name ++ "-h1", 1⟩, ⟨name ++ "-tls-h2", 1⟩]

/-- An attempt whose candidate is kept. -/
def keptAttempt (limits : Limits) (name revision : String) : List CampaignAction :=
  [.begin limits 0, .complete (.effect ⟨.attemptStarted, []⟩) 1,
   .begin limits 0, .complete (.effect ⟨.profile, []⟩) 1,
   .begin limits 0, .complete (.effect ⟨.analysis .change none, []⟩) 1,
   .begin limits 0, .complete (.effect ⟨.edited revision, []⟩) 1,
   .begin limits 0, .complete (.effect ⟨.tests revision true, []⟩) 1,
   .begin limits 0, .complete (.measure (referencesOf name) 1) 1,
   .begin limits 0, .complete (.effect ⟨.review revision true, []⟩) 1,
   .begin limits 0, .complete (.keep 1) 1]

/-- Two candidates, each six percent faster than the revision before it; the second costs the
protected workload some of its speed. -/
def twoAttempts (limits : Limits) (initial first second : String) : List CampaignAction :=
  benchmarksOf "initial" initial 100 80 ++ benchmarksOf "first" first 106 80 ++
    benchmarksOf "second" second 113 77 ++
    [.begin limits 0, .complete (.effect ⟨.prepared, []⟩) 1,
     .begin limits 0, .complete (.measure (referencesOf "initial") 1) 1] ++
    keptAttempt limits "first" first ++ keptAttempt limits "second" second

def percentPolicy : Policy := ⟨.improveBaseline 2 ["h1"], [⟨"tls-h2", 5 / 100⟩], 5 / 100, "precision"⟩

def fasterRun : Campaign × Gains :=
  (gaining (fun _ => "invalid") ⟨fun _ => true, fun _ => "settings"⟩ percentPolicy).runFrom
    (twoAttempts ⟨2, 0, 6, 9⟩ "0000000000000000000000000000000000000000"
      "1111111111111111111111111111111111111111" "2222222222222222222222222222222222222222")
    (⟨freshRun "run" "0000000000000000000000000000000000000000", fun _ => none⟩, ⟨none, [], 0⟩)

theorem fasterRun_kept : fasterRun.2.kept = 2 := by decide +kernel

theorem fasterRun_compounds : fasterRun.2.kept = 2 ∧
    ∃ refs initial best, Compounds ⟨fun _ => true, fun _ => "settings"⟩ percentPolicy fasterRun.1 fasterRun.2
      refs initial best := by
  have started : (gaining (fun _ => "invalid") ⟨fun _ => true, fun _ => "settings"⟩ percentPolicy).init
      (⟨freshRun "run" "0000000000000000000000000000000000000000", fun _ => none⟩, ⟨none, [], 0⟩) :=
    ⟨⟨"run", "0000000000000000000000000000000000000000", by decide +kernel⟩, rfl⟩
  exact ⟨fasterRun_kept, compounds_of_reachable ((Machine.Reachable.init started).runFrom _)
    (Nat.le_of_succ_le fasterRun_kept.ge)⟩

end Busker.Tempo
