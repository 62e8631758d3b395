import Mathlib.Data.List.Dedup
import Mathlib.Data.List.Sort
import Busker.Tempo.Assessment
import Busker.Tempo.Driver

/-! Saved measurements (`measurement.ts`) and the steps of a run that make and keep them
(`performLiveStep`), for a run without a parent. -/
namespace Busker.Tempo

/-- A saved benchmark, as far as a measurement reads it. `settings` and `precision` are the
JSON texts that are compared. -/
structure BenchmarkRecord where
  runId : String
  protocol : String
  adapter : String
  revision : String
  nativeSha256 : String
  hostname : String
  settings : String
  precision : String
  summaryProtocol : String
  summaryAdapter : String
  score : ℚ
  deriving DecidableEq

structure SavedComparison where
  runId : String
  revision : String
  initial : List OutputReference
  best : List OutputReference
  current : List OutputReference
  result : Option CandidateResult
  error : Option String

inductive Resource where
  | benchmark (record : BenchmarkRecord)
  | comparison (comparison : SavedComparison)
  | step (result : StepResult)
  /-- The detail of a keep step. -/
  | keep (revision : String) (measurements : List OutputReference)
  /-- A resource of another kind. -/
  | other

/-- The resources that are saved. Versions do not change. -/
abbrev Resources := OutputReference → Option Resource

def Resources.save (store : Resources) (reference : OutputReference) (resource : Resource) : Resources :=
  Function.update store reference (some resource)

structure Policy where
  goal : Goal
  protections : List Protection
  minimumImprovementFraction : ℚ
  precision : String

/-- What is read off a benchmark besides its fields: whether it has the saved shape and its
samples support the score with the required precision, and how settings are written. -/
structure Reading where
  supported : BenchmarkRecord → Bool
  stringify : List (String × String) → String

section
variable (reading : Reading) (policy : Policy)

def readBenchmark (store : Resources) (runId revision : String) (reference : OutputReference) :
    Except String (OutputReference × BenchmarkRecord) :=
  if !reference.parses then .error "Invalid reference"
  else
    match store reference with
    | some (.benchmark record) =>
      if record.runId ≠ runId ∨ record.revision ≠ revision ∨ record.protocol ≠ record.summaryProtocol ∨
          record.adapter ≠ record.summaryAdapter then
        .error "Benchmark output does not match the run, revision, or protocol"
      else if record.precision ≠ policy.precision then
        .error "Benchmark precision differs from run configuration"
      else if !reading.supported record then
        .error "Benchmark samples do not support the saved score"
      else .ok (reference, record)
    | _ => .error "Invalid benchmark"

/-- The settings of each protocol. -/
def settingsOf (records : List (OutputReference × BenchmarkRecord)) : List (String × String) :=
  (records.map fun saved => (saved.2.protocol, saved.2.settings)).dedup

def measurementOf (revision : String) (saved : List (OutputReference × BenchmarkRecord)) :
    Except String Measurement :=
  let records := saved.insertionSort fun a b => a.2.protocol ≤ b.2.protocol
  if ¬(records.map fun saved => saved.2.protocol ++ "/" ++ saved.2.adapter).Nodup then
    .error "Duplicate benchmark protocols"
  else if (records.map (·.2.nativeSha256)).dedup.length ≠ 1 then
    .error "Native library differs within the measurement"
  else if (records.map (·.2.hostname)).dedup.length ≠ 1 then
    .error "Measurement spans different hosts"
  else if ¬((settingsOf records).map (·.1)).Nodup then
    .error "Benchmark settings differ within a protocol"
  else
    .ok {
      kind := "benchmark"
      id := ",".intercalate (records.map fun saved => saved.1.name ++ "@" ++ toString saved.1.version)
      revision := revision
      protocolId := reading.stringify ((settingsOf records).insertionSort fun a b => a.1 ≤ b.1)
      nativeSha256 := records.head?.map (·.2.nativeSha256)
      scores := records.map fun saved => ⟨saved.2.protocol, saved.2.adapter, saved.2.score, true⟩ }

def readMeasurement (store : Resources) (runId revision : String) (references : List OutputReference) :
    Except String Measurement :=
  if references.isEmpty then .error "A measurement needs saved benchmark outputs"
  else do
    let saved ← references.mapM (readBenchmark reading policy store runId revision)
    measurementOf reading revision saved

/-- The `try` block of `compareSavedMeasurements`. -/
def assessSaved (store : Resources) (state : RunState) (initial best current : List OutputReference) :
    Except String CandidateResult := do
  let initially ← readMeasurement reading policy store state.runId state.initialRevision initial
  let before ← readMeasurement reading policy store state.runId state.bestRevision best
  let measured ← readMeasurement reading policy store state.runId state.workingRevision current
  .ok (assessCandidate policy.goal policy.protections initially before measured
    policy.minimumImprovementFraction)

/-- The comparison is saved as `saved`. -/
def compareSavedMeasurements (store : Resources) (state : RunState)
    (initial best current : List OutputReference) (saved : OutputReference) : Resources × StepEffect :=
  let assessed := assessSaved reading policy store state initial best current
  let result := assessed.toOption
  (store.save saved (.comparison {
      runId := state.runId
      revision := state.workingRevision
      initial := initial
      best := best
      current := current
      result := result
      error := match assessed with
        | .ok _ => none
        | .error failure => some failure }),
    ⟨.measurement state.workingRevision (result.any (·.valid)) none
      ((result.bind (·.targetMet)) == some true) ((result.bind (·.improved)) == some true), [saved]⟩)

end

def stepResource (store : Resources) (state : RunState) (phase : Phase) : Except String Resource :=
  match state.outputs phase with
  | none => .error ("Missing saved " ++ phase.name ++ " output")
  | some reference =>
    match store reference with
    | some (.step step) =>
      if step.runId ≠ state.runId ∨ step.phase ≠ phase then .error "Saved step does not match its run"
      else
        match step.evidence.getLast? with
        | none => .error ("Missing " ++ phase.name ++ " evidence")
        | some evidence =>
          match store evidence with
          | some resource => .ok resource
          | none => .error "Missing resource"
    | _ => .error "Invalid saved step"

def measurementReferences (store : Resources) (state : RunState) (phase : Phase) :
    Except String (List OutputReference) := do
  match ← stepResource store state phase with
  | .comparison comparison => .ok comparison.current
  | _ => .error "Invalid comparison"

/-- The measurements that a keep step has saved. -/
def keptReferences (store : Resources) (state : RunState) : Except String (List OutputReference) := do
  match ← stepResource store state .keep with
  | .keep _ measurements => .ok measurements
  | _ => .error "Invalid measurements"

/-- `initial` in the measurement step. -/
def initialReferences (store : Resources) (state : RunState) (current : List OutputReference) :
    Except String (List OutputReference) :=
  if state.phase = .baseline then .ok current else measurementReferences store state .baseline

/-- `best` in the measurement step. -/
def bestReferences (store : Resources) (state : RunState) (initial : List OutputReference) :
    Except String (List OutputReference) :=
  if (state.outputs .keep).isSome then keptReferences store state else .ok initial

def detailName (kind : String) (state : RunState) : String :=
  state.runId ++ "-" ++ kind ++ "-" ++ toString state.sequence

/-- What the active step does. -/
inductive Work where
  /-- All benchmarks are valid; the comparison is saved under a version. -/
  | measure (current : List OutputReference) (version : ℤ)
  /-- A benchmark is invalid. -/
  | spoiled (inconclusive : Bool) (current : List OutputReference)
  | keep (version : ℤ)
  /-- The effect of another phase. -/
  | effect (effect : StepEffect)
  | throw (failure : String)

/-- The effect of a step, with what it saves last; `none` if the phase has no such effect or
the version is taken. -/
def perform (reading : Reading) (policy : Policy) (store : Resources) (state : RunState) :
    Work → Option (Resources × Except String StepEffect)
  | .measure current version =>
    let saved : OutputReference := ⟨detailName "comparison" state, version⟩
    if (state.phase = .baseline ∨ state.phase = .measure) ∧ (store saved).isNone then
      match initialReferences store state current with
      | .error failure => some (store, .error failure)
      | .ok initial =>
        match bestReferences store state initial with
        | .error failure => some (store, .error failure)
        | .ok best =>
          let (after, effect) := compareSavedMeasurements reading policy store state initial best current saved
          some (after, .ok effect)
    else none
  | .spoiled inconclusive current =>
    if state.phase = .baseline ∨ state.phase = .measure then
      some (store, .ok ⟨.measurement state.workingRevision false (some inconclusive) false false, current⟩)
    else none
  | .keep version =>
    let saved : OutputReference := ⟨detailName "keep" state, version⟩
    if state.phase = .keep ∧ (store saved).isNone then
      match measurementReferences store state .measure with
      | .error failure => some (store, .error failure)
      | .ok measurements =>
        some (store.save saved (.keep state.workingRevision measurements),
          .ok ⟨.kept state.workingRevision, [saved]⟩)
    else none
  | .effect effect =>
    if state.phase ≠ .baseline ∧ state.phase ≠ .measure ∧ state.phase ≠ .keep then some (store, .ok effect)
    else none
  | .throw failure => some (store, .error failure)

end Busker.Tempo
