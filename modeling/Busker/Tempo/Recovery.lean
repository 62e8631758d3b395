import Busker.Tempo.Driver

/-! A step is performed at most once, whatever is cut and retried, and a recovery writes
what the interrupted call was about to write. -/
namespace Busker.Tempo

open Interleaving

/-- What is remembered of the calls. -/
structure Past where
  /-- The steps whose effect was started, the latest first. -/
  performed : List ℕ
  /-- The limits and the elapsed time a step was begun with. -/
  begun : ℕ → Option (Limits × ℤ)
  /-- What an interrupted `runSavedStep` would have written after its result. -/
  interrupted : Option RunState

def notePast : DriverAction → Driver → Past → Past
  | .run limits elapsedMs, d, past =>
    match d.store.states.getLast? with
    | none => past
    | some last =>
      { past with begun := Function.update past.begun (last.sequence + 1) (some (limits, elapsedMs)) }
  | .perform, ⟨_, some (.reserved active)⟩, past =>
    { past with performed := active.sequence :: past.performed }
  | .interrupt, ⟨_, some (.recorded active record output)⟩, past
  | .write true, ⟨_, some (.recorded active record output)⟩, past =>
    { past with interrupted := (finishStep active active.sequence record.outcome output).toOption }
  | .write false, ⟨_, some (.recorded _ _ _)⟩, past
  | .write false, ⟨_, some (.recovering _)⟩, past => { past with interrupted := none }
  | _, _, past => past

/-- The calls on the run `runId`, from a store whose latest state is `first`. -/
def driver (describe : Describe) (runId : String) (first : RunState) : Machine Driver DriverAction where
  init d := d.call = none ∧ d.store.states.getLast? = some first
  step := driverStep describe runId

/-- The same with the past. -/
def remembering (describe : Describe) (runId : String) (first : RunState) :
    Machine (Driver × Past) DriverAction :=
  (driver describe runId first).recording ⟨[], fun _ => none, none⟩ notePast

/-- One saved result, with the step begun before. -/
def replayStep (runId : String) (steps : ℕ → List StepResult) (begun : ℕ → Option (Limits × ℤ))
    (state : RunState) (step : ℕ) : Except String RunState :=
  match (steps step).head?, begun step with
  | some record, some (limits, elapsedMs) => do
    let active ← beginSavedStep state limits elapsedMs
    finishStep active step record.outcome (outputOf runId step)
  | _, _ => .error "No such step"

/-- The fold of the first saved results after `first`. -/
def replaySteps (runId : String) (steps : ℕ → List StepResult) (begun : ℕ → Option (Limits × ℤ))
    (first : RunState) : ℕ → Except String RunState
  | 0 => .ok first
  | n + 1 => do
    let state ← replaySteps runId steps begun first n
    replayStep runId steps begun state (first.sequence + n + 1)

section
variable {describe : Describe} {runId : String} {store : Store} {steps written : ℕ → List StepResult}
  {begun later : ℕ → Option (Limits × ℤ)} {past : Past} {interrupted : Option RunState}
  {first last active s t : RunState} {limits : Limits} {elapsedMs : ℤ}

theorem replaySteps_congr {n : ℕ} (same : ∀ i ≤ first.sequence + n, written i = steps i)
    (kept : ∀ i ≤ first.sequence + n, later i = begun i) :
    replaySteps runId written later first n = replaySteps runId steps begun first n := by
  induction n with
  | zero => rfl
  | succ n ih =>
      rw [replaySteps, replaySteps, ih (fun i le => same i (by omega)) fun i le => kept i (by omega)]
      congr 1
      funext state
      rw [replayStep, replayStep, same _ (by omega), kept _ (by omega)]

/-- How the latest state came about, from `first`. -/
inductive Standing (runId : String) (steps : ℕ → List StepResult) (begun : ℕ → Option (Limits × ℤ))
    (first last : RunState) : Prop
  | idle {n : ℕ} (idle : last.activeStep = none) (sequence : last.sequence = first.sequence + n)
      (replayed : replaySteps runId steps begun first n = .ok last)
  | active {n : ℕ} {limits : Limits} {elapsedMs : ℤ} {before : RunState}
      (sequence : before.sequence = first.sequence + n)
      (replayed : replaySteps runId steps begun first n = .ok before)
      (noted : begun last.sequence = some (limits, elapsedMs))
      (begins : beginSavedStep before limits elapsedMs = .ok last)

theorem Standing.congr (h : Standing runId steps begun first last)
    (same : ∀ i ≤ last.sequence, i < last.sequence ∨ last.activeStep = none → written i = steps i)
    (kept : ∀ i ≤ last.sequence, later i = begun i) : Standing runId written later first last := by
  cases h with
  | idle idle sequence replayed =>
      apply Standing.idle idle sequence
      rw [← replayed]
      apply replaySteps_congr
      · exact fun i le => same i (sequence ▸ le) (.inr idle)
      · exact fun i le => kept i (sequence ▸ le)
  | active sequence replayed noted begins =>
      have next := (beginSavedStep_sequence begins).2
      refine .active sequence ?_ (by rw [kept _ le_rfl, noted]) begins
      rw [← replayed]
      apply replaySteps_congr
      · exact fun i le => same i (by omega) (.inl (by omega))
      · exact fun i le => kept i (by omega)

/-- The step that ends is the next of the fold. -/
theorem Standing.finish (h : Standing runId steps begun first last) (active : last.activeStep ≠ none)
    {record : StepResult} (saved : (steps last.sequence).head? = some record)
    (finish : finishStep last last.sequence record.outcome (outputOf runId last.sequence) = .ok t) :
    Standing runId steps begun first t := by
  cases h with
  | idle idle => exact absurd idle active
  | @active n limits elapsedMs before sequence replayed noted begins =>
      have next := (beginSavedStep_sequence begins).2
      obtain ⟨idle, kept, -⟩ := finishStep_sequence finish
      apply Standing.idle (n := n + 1) idle (by omega)
      rw [replaySteps, bind_eq_ok]
      have step : first.sequence + n + 1 = last.sequence := by omega
      refine ⟨before, replayed, ?_⟩
      rw [replayStep, step, saved, noted]
      exact bind_eq_ok.mpr ⟨last, begins, finish⟩

/-- The saved result of an active step is what an interrupted call would have gone on from. -/
def Settled (runId : String) (steps : ℕ → List StepResult) (interrupted : Option RunState)
    (last : RunState) : Prop :=
  last.activeStep ≠ none → ∀ record, (steps last.sequence).head? = some record →
    interrupted = (finishStep last last.sequence record.outcome (outputOf runId last.sequence)).toOption

theorem settled_of_absent (absent : steps last.sequence = []) :
    Settled runId steps interrupted last := by
  intro _ record saved
  rw [absent] at saved
  contradiction

theorem settled_of_idle (idle : last.activeStep = none) : Settled runId steps interrupted last :=
  fun active => absurd idle active

theorem settled_of_saved (runId : String) {record : StepResult}
    (saved : steps last.sequence = [record]) :
    Settled runId steps
      (finishStep last last.sequence record.outcome (outputOf runId last.sequence)).toOption last := by
  intro _ other same
  rw [saved] at same
  rw [Option.some.inj same]

/-- What a call knows while it runs. -/
def Call.Knows (runId : String) (steps : ℕ → List StepResult) (past : Past) (last : RunState) :
    Option Call → Prop
  | none => Settled runId steps past.interrupted last
  | some (.reserving active) =>
    last.activeStep = none ∧ steps active.sequence = [] ∧
      ∃ limits elapsedMs, past.begun active.sequence = some (limits, elapsedMs) ∧
        beginSavedStep last limits elapsedMs = .ok active
  | some (.reserved active) =>
    last = active ∧ active.activeStep ≠ none ∧ steps active.sequence = [] ∧
      active.sequence ∉ past.performed
  | some (.performing active) | some (.recording active _) =>
    last = active ∧ active.activeStep ≠ none ∧ steps active.sequence = []
  | some (.recorded active record output) =>
    last = active ∧ active.activeStep ≠ none ∧ steps active.sequence = [record] ∧
      output = outputOf runId active.sequence
  | some (.recovering state) =>
    Settled runId steps past.interrupted last ∧ past.interrupted = some state ∧
      last.activeStep ≠ none ∧ ∃ record, (steps last.sequence).head? = some record ∧
        finishStep last last.sequence record.outcome (outputOf runId last.sequence) = .ok state

/-- The saved resources, the call in progress and the past agree. -/
structure Journal (runId : String) (first : RunState) (d : Driver) (past : Past) (last : RunState) :
    Prop where
  latest : d.store.states.getLast? = some last
  standing : Standing runId d.store.steps past.begun first last
  once : past.performed.Nodup
  bounded : ∀ step ∈ past.performed, step ≤ last.sequence
  call : Call.Knows runId d.store.steps past last d.call

theorem loadState_latest (loads : loadState store runId = .ok last) :
    store.states.getLast? = some last := by
  unfold loadState at loads
  split at loads
  · contradiction
  · split at loads
    · contradiction
    · rename_i state latest
      split at loads
      · contradiction
      · split at loads
        · contradiction
        · exact Except.ok.inj loads ▸ latest

theorem reserveStep_eq_ok (reserves : reserveStep store runId limits elapsedMs = .ok active)
    (latest : store.states.getLast? = some last) :
    beginSavedStep last limits elapsedMs = .ok active ∧ store.steps active.sequence = [] := by
  obtain ⟨state, loads, reserves⟩ := bind_eq_ok.mp reserves
  obtain rfl : state = last := Option.some.inj ((loadState_latest loads).symm.trans latest)
  obtain ⟨begun, begins, reserves⟩ := bind_eq_ok.mp reserves
  split at reserves
  · rename_i absent
    obtain rfl := Except.ok.inj reserves
    exact ⟨begins, List.isEmpty_iff.mp absent⟩
  · contradiction

theorem recoverState_eq_ok (recovers : recoverState store runId = .ok t)
    (latest : store.states.getLast? = some last) :
    last.activeStep ≠ none ∧ ∃ record, (store.steps last.sequence).head? = some record ∧
      finishStep last last.sequence record.outcome (outputOf runId last.sequence) = .ok t := by
  obtain ⟨state, loads, recovers⟩ := bind_eq_ok.mp recovers
  obtain rfl : state = last := Option.some.inj ((loadState_latest loads).symm.trans latest)
  split at recovers
  · contradiction
  · rename_i active
    refine ⟨active, ?_⟩
    split at recovers
    · contradiction
    · rename_i record saved
      split at recovers
      · contradiction
      · split at recovers
        · contradiction
        · exact ⟨record, saved, recovers⟩

theorem Journal.run (h : Journal runId first ⟨store, none⟩ past last) :
    Journal runId first ⟨store, (reserveStep store runId limits elapsedMs).toOption.map .reserving⟩
      (notePast (.run limits elapsedMs) ⟨store, none⟩ past) last := by
  obtain ⟨latest, standing, once, bounded, call⟩ := h
  have noted : notePast (.run limits elapsedMs) ⟨store, none⟩ past =
      { past with
        begun := Function.update past.begun (last.sequence + 1) (some (limits, elapsedMs)) } := by
    dsimp only at latest
    simp only [notePast, latest]
  rw [noted]
  refine ⟨latest, standing.congr (fun _ _ _ => rfl) fun i le => ?_, once, bounded, ?_⟩
  · exact Function.update_of_ne (by omega) _ _
  · cases reserves : reserveStep store runId limits elapsedMs with
    | error message => exact call
    | ok active =>
        obtain ⟨begins, absent⟩ := reserveStep_eq_ok reserves latest
        have idle := (beginSavedStep_eq_ok.mp begins).1.idle
        refine ⟨idle, absent, limits, elapsedMs, ?_, begins⟩
        rw [(beginSavedStep_sequence begins).2]
        exact Function.update_self _ _ _

/-- The state a call writes when it ends. -/
theorem Journal.complete {d : Driver} (h : Journal runId first d past last)
    (active : last.activeStep ≠ none) {record : StepResult}
    (saved : (d.store.steps last.sequence).head? = some record)
    (finish : finishStep last last.sequence record.outcome (outputOf runId last.sequence) = .ok t) :
    Journal runId first ⟨d.store.saveState t, none⟩ { past with interrupted := none } t where
  latest := List.getLast?_concat
  standing := h.standing.finish active saved finish
  once := h.once
  bounded step performed := (finishStep_sequence finish).2.1 ▸ h.bounded step performed
  call := settled_of_idle (finishStep_sequence finish).1

theorem Journal.step {d e : Driver} {a : DriverAction} (h : Journal runId first d past last)
    (moves : driverStep describe runId a d = some e) :
    ∃ next, Journal runId first e (notePast a d past) next := by
  have ⟨latest, standing, once, bounded, call⟩ := h
  unfold driverStep at moves
  split at moves
  case h_1 limits elapsedMs store => exact ⟨last, Option.some.inj moves ▸ h.run⟩
  case h_2 store =>
    obtain rfl := Option.some.inj moves
    refine ⟨last, latest, standing, once, bounded, ?_⟩
    cases recovers : recoverState store runId with
    | error message => exact call
    | ok state =>
        obtain ⟨active, record, saved, finish⟩ := recoverState_eq_ok recovers latest
        refine ⟨call, (call active record saved).trans ?_, active, record, saved, finish⟩
        rw [finish]
        rfl
  case h_3 store active =>
    obtain rfl := Option.some.inj moves
    exact ⟨last, latest, standing, once, bounded, settled_of_idle call.1⟩
  case h_4 store active =>
    obtain rfl := Option.some.inj moves
    obtain ⟨idle, absent, limits, elapsedMs, noted, begins⟩ := call
    obtain ⟨busy, next⟩ := beginSavedStep_sequence begins
    refine ⟨active, List.getLast?_concat, ?_, once, ?_, rfl, by simp [busy], absent, ?_⟩
    · cases standing with
      | idle _ sequence replayed => exact .active sequence replayed noted begins
      | active _ _ _ before =>
          rw [(beginSavedStep_sequence before).1] at idle
          contradiction
    · exact fun step performed => (bounded step performed).trans (by omega)
    · exact fun performed => absurd (bounded _ performed) (by omega)
  case h_5 store active =>
    obtain rfl := Option.some.inj moves
    obtain ⟨rfl, busy, absent, fresh⟩ := call
    refine ⟨last, latest, standing, List.nodup_cons.mpr ⟨fresh, once⟩, ?_, rfl, busy, absent⟩
    intro step performed
    rcases List.mem_cons.mp performed with rfl | earlier
    · exact le_rfl
    · exact bounded step earlier
  case h_6 effect store active =>
    obtain rfl := Option.some.inj moves
    obtain ⟨rfl, busy, absent⟩ := call
    refine ⟨last, latest, standing, once, bounded, ?_⟩
    cases recordEffect describe runId last effect with
    | error message => exact settled_of_absent absent
    | ok record => exact ⟨rfl, busy, absent⟩
  case h_7 store active record =>
    obtain rfl := Option.some.inj moves
    obtain ⟨rfl, busy, absent⟩ := call
    exact ⟨last, latest, standing, once, bounded, settled_of_absent absent⟩
  case h_8 store active record =>
    obtain rfl := Option.some.inj moves
    obtain ⟨rfl, busy, absent⟩ := call
    have saved : (store.saveStep last.sequence record).steps last.sequence = [record] := by
      dsimp only at absent
      simp [Store.saveStep, absent]
    refine ⟨last, latest, standing.congr (fun i _ before => ?_) (fun _ _ => rfl), once, bounded,
      rfl, busy, saved, ?_⟩
    · rcases before with earlier | idle
      · exact Function.update_of_ne (by omega) _ _
      · exact absurd idle busy
    · rw [outputOf, saved]
      rfl
  case h_9 fails store active record output =>
    obtain ⟨rfl, busy, saved, rfl⟩ := call
    cases fails with
    | true =>
        have same : e = ⟨store, none⟩ := by
          split at moves <;> exact (Option.some.inj moves).symm
        rw [same]
        exact ⟨last, latest, standing, once, bounded, settled_of_saved runId saved⟩
    | false =>
        cases finish : finishStep last last.sequence record.outcome (outputOf runId last.sequence) with
        | error message =>
            rw [finish] at moves
            obtain rfl := Option.some.inj moves
            have settled := settled_of_saved runId saved
            rw [finish] at settled
            exact ⟨last, latest, standing, once, bounded, settled⟩
        | ok state =>
            rw [finish] at moves
            obtain rfl := Option.some.inj moves
            exact ⟨state, h.complete busy (by rw [saved]; rfl) finish⟩
  case h_10 fails store state =>
    obtain rfl := Option.some.inj moves
    obtain ⟨settled, interrupted, busy, record, saved, finish⟩ := call
    cases fails with
    | true => exact ⟨last, latest, standing, once, bounded, settled⟩
    | false => exact ⟨state, h.complete busy saved finish⟩
  case h_11 store call_in_progress =>
    obtain rfl := Option.some.inj moves
    cases call_in_progress with
    | reserving active => exact ⟨last, latest, standing, once, bounded, settled_of_idle call.1⟩
    | reserved active =>
        obtain ⟨rfl, busy, absent, fresh⟩ := call
        exact ⟨last, latest, standing, once, bounded, settled_of_absent absent⟩
    | performing active =>
        obtain ⟨rfl, busy, absent⟩ := call
        exact ⟨last, latest, standing, once, bounded, settled_of_absent absent⟩
    | recording active record =>
        obtain ⟨rfl, busy, absent⟩ := call
        exact ⟨last, latest, standing, once, bounded, settled_of_absent absent⟩
    | recorded active record output =>
        obtain ⟨rfl, busy, saved, rfl⟩ := call
        exact ⟨last, latest, standing, once, bounded, settled_of_saved runId saved⟩
    | recovering state => exact ⟨last, latest, standing, once, bounded, call.1⟩
  case h_12 => contradiction

theorem journal_of_reachable {run : Driver × Past} (idle : first.activeStep = none)
    (h : (remembering describe runId first).Reachable run) :
    ∃ last, Journal runId first run.1 run.2 last := by
  apply h.invariant
  · rintro ⟨d, past⟩ ⟨⟨no_call, latest⟩, rfl⟩
    refine ⟨first, latest, .idle (n := 0) idle rfl rfl, List.nodup_nil, ?_, ?_⟩
    · exact fun step performed => absurd performed List.not_mem_nil
    · dsimp only at no_call
      rw [no_call]
      exact settled_of_idle idle
  · rintro a ⟨d, past⟩ ⟨e, later⟩ ⟨last, journal⟩ moves
    obtain ⟨next, moved, same⟩ := Option.map_eq_some_iff.mp moves
    obtain ⟨rfl, rfl⟩ := Prod.mk.inj same
    exact journal.step moved

/-- What crash recovery promises of the calls on a run. -/
structure ExactlyOnce (describe : Describe) (runId : String) (first : RunState) (d : Driver)
    (past : Past) : Prop where
  once : past.performed.Nodup
  /-- A recovery changes nothing, or ends with what the interrupted call would have written. -/
  recovers : ∀ a e, (a = .recover ∨ ∃ state, d.call = some (.recovering state)) →
    driverStep describe runId a d = some e →
    e.store = d.store ∨ ∃ state, past.interrupted = some state ∧ e = ⟨d.store.saveState state, none⟩
  folded : ∀ state, d.store.states.getLast? = some state → state.activeStep = none →
    first.sequence ≤ state.sequence ∧
      replaySteps runId d.store.steps past.begun first (state.sequence - first.sequence) = .ok state

/-- Crash recovery is exactly-once. -/
theorem exactlyOnce_of_reachable {run : Driver × Past} (idle : first.activeStep = none)
    (h : (remembering describe runId first).Reachable run) :
    ExactlyOnce describe runId first run.1 run.2 := by
  obtain ⟨last, journal⟩ := journal_of_reachable idle h
  obtain ⟨⟨store, call⟩, past⟩ := run
  refine ⟨journal.once, ?_, fun state latest resting => ?_⟩
  · rintro a e (rfl | ⟨state, rfl⟩) moves
    · cases call with
      | none => exact .inl (by rw [← Option.some.inj moves])
      | some call => cases call <;> contradiction
    · have interrupted := journal.call.2.1
      cases a with
      | write fails =>
          cases fails with
          | true => exact .inl (by rw [← Option.some.inj moves]; rfl)
          | false => exact .inr ⟨state, interrupted, (Option.some.inj moves).symm⟩
      | interrupt => exact .inl (by rw [← Option.some.inj moves])
      | _ => contradiction
  · obtain rfl : state = last := Option.some.inj (latest.symm.trans journal.latest)
    cases journal.standing with
    | idle _ sequence replayed =>
        refine ⟨by omega, ?_⟩
        rw [sequence, Nat.add_sub_cancel_left]
        exact replayed
    | active _ _ _ begins =>
        rw [(beginSavedStep_sequence begins).1] at resting
        contradiction

end

/-- The preparation is performed and recorded. The write of the advanced state fails, a new
call is refused, and a recovery writes the state. -/
def failedAdvance (limits : Limits) : List DriverAction :=
  [.run limits 0, .write false, .perform, .performed (.ok ⟨.prepared, []⟩), .write false, .write true,
   .run limits 0, .recover, .write false]

theorem failedAdvance_exactlyOnce :
    let first := freshRun "run" "0000000000000000000000000000000000000000"
    let run := (remembering (fun _ => "invalid") "run" first).runFrom
      (failedAdvance ⟨1, 1, 3, 1000⟩)
      (⟨⟨[first], fun _ => []⟩, none⟩, ⟨[], fun _ => none, none⟩)
    ExactlyOnce (fun _ => "invalid") "run" first run.1 run.2 ∧ run.2.performed = [1] ∧
      run.1.store.states.map (·.phase) = [.prepare, .prepare, .baseline] := by
  intro first run
  have started : (remembering (fun _ => "invalid") "run" first).init
      (⟨⟨[first], fun _ => []⟩, none⟩, ⟨[], fun _ => none, none⟩) := ⟨⟨rfl, rfl⟩, rfl⟩
  exact ⟨exactlyOnce_of_reachable rfl ((Machine.Reachable.init started).runFrom _), by decide +kernel⟩

end Busker.Tempo
