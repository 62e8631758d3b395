import Busker.Interleaving.Machine
import Mathlib.Data.List.AList

/-! The tables that map native callback identities to requests
(`ol.busker.callback-dispatch`), and the program that creates them. `τ` names threads,
`ρ` requests and `η` response emitters. Each table keeps a record of what was done with
it; no operation reads the record. -/

namespace Busker.CallbackDispatch

open Interleaving

/-- `Long/MAX_VALUE`. -/
def longMax : ℤ := 0x7fffffffffffffff

inductive Phase
  | initializing | accepting | quiescing | closed
  deriving DecidableEq, Repr

inductive Counter
  | malformed | late | wrongThread | callbackFault | duplicate | retired | forced
  deriving DecidableEq, Repr

/-- What `register!` puts into the table. `writeReq` tells whether the request has a
body channel, with its `:write-chunk` and its `:input-stream`. -/
structure Entry (ρ η : Type*) where
  req : ρ
  writeReq : Bool
  emitter : Option η
  deriving DecidableEq, Repr

inductive Call (ρ η : Type*)
  | writeChunk (req : ρ) (chunk : Option (List UInt8)) (isLast : Bool)
  | onProceed (emitter : η)
  | onStop (emitter : η) (reason : ℤ)
  | entry (req : ρ)
  | closeInputStream (req : ρ)
  | stopEmitter (emitter : η)
  deriving DecidableEq, Repr

inductive Event (τ ρ η : Type*)
  | allocated (moduleId requestSeq : ℤ)
  | registered (moduleId requestSeq : ℤ) (entry : Entry ρ η)
  | reached (thread : τ) (moduleId requestSeq : ℤ) (entry : Entry ρ η) (call : Call ρ η)
  | closed (requestSeq : ℤ) (entry : Entry ρ η) (calls : List (Call ρ η))
  | threw
  deriving DecidableEq, Repr

structure Dispatch (τ ρ η : Type*) where
  moduleId : ℤ
  nextRequestSeq : ℤ
  phase : Phase
  thread : Option τ
  entries : AList fun _ : ℤ => Entry ρ η
  counters : Counter → ℕ

/-- `next-positive!`; `none` when the identity space is exhausted. -/
def nextPositive (counter : ℤ) : Option ℤ :=
  if counter = longMax then none else some (counter + 1)

theorem nextPositive_eq_some {counter next : ℤ} (h : nextPositive counter = some next) :
    next = counter + 1 := by
  unfold nextPositive at h
  split at h
  · contradiction
  · exact (Option.some.inj h).symm

variable {τ ρ η : Type*} [DecidableEq τ]

/-- `close-entry!`. -/
def closeEntry (entry : Entry ρ η) : List (Call ρ η) :=
  (if entry.writeReq then [.closeInputStream entry.req] else []) ++
    (entry.emitter.map .stopEmitter).toList

namespace Dispatch

variable (d : Dispatch τ ρ η) (current : τ)

def increment (counter : Counter) : Dispatch τ ρ η :=
  { d with counters := Function.update d.counters counter (d.counters counter + 1) }

def callbackPhase : Bool := d.phase == .accepting || d.phase == .quiescing

def workerThread : Bool := d.thread == some current

def liveEntry (moduleId requestSeq : ℤ) : Dispatch τ ρ η × Option (Entry ρ η) :=
  if !d.callbackPhase then (d.increment .late, none)
  else if !d.workerThread current then (d.increment .wrongThread, none)
  else if d.moduleId ≠ moduleId ∨ ¬0 < requestSeq then (d.increment .malformed, none)
  else
    match d.entries.lookup requestSeq with
    | some entry => (d, some entry)
    | none => (d.increment .late, none)

/-- The public `entry`. -/
def entry (moduleId requestSeq : ℤ) : Dispatch τ ρ η × List (Event τ ρ η) :=
  match d.liveEntry current moduleId requestSeq with
  | (d', some entry) => (d', [.reached current moduleId requestSeq entry (.entry entry.req)])
  | (d', none) => (d', [])

/-- `chunk` is `none` for a null segment; `faults` is a `write-chunk` that throws. -/
def bodyCallback (moduleId requestSeq : ℤ) (chunk : Option (List UInt8)) (isLast : ℤ) (faults : Bool) :
    Dispatch τ ρ η × List (Event τ ρ η) :=
  match d.liveEntry current moduleId requestSeq with
  | (d', some entry) =>
    if entry.writeReq then
      (if faults then d'.increment .callbackFault else d',
        [.reached current moduleId requestSeq entry (.writeChunk entry.req chunk (isLast == 1))])
    else (d'.increment .malformed, [])
  | (d', none) => (d', [])

/-- What `proceed-callback!` and `stop-callback!` share: the writer of the emitter is
called if it has been created. -/
def writerCallback (moduleId requestSeq : ℤ) (call : η → Call ρ η) (created faults : Bool) :
    Dispatch τ ρ η × List (Event τ ρ η) :=
  match d.liveEntry current moduleId requestSeq with
  | (d', some entry) =>
    match entry.emitter with
    | some emitter =>
      if created then
        (if faults then d'.increment .callbackFault else d',
          [.reached current moduleId requestSeq entry (call emitter)])
      else (d', [])
    | none => (d', [])
  | (d', none) => (d', [])

def proceedCallback (moduleId requestSeq : ℤ) (created faults : Bool) :
    Dispatch τ ρ η × List (Event τ ρ η) :=
  d.writerCallback current moduleId requestSeq .onProceed created faults

def stopCallback (moduleId requestSeq reason : ℤ) (created faults : Bool) :
    Dispatch τ ρ η × List (Event τ ρ η) :=
  d.writerCallback current moduleId requestSeq (.onStop · reason) created faults

def bindThread (thread : τ) : Dispatch τ ρ η × List (Event τ ρ η) :=
  if d.phase = .initializing then ({ d with phase := .accepting, thread := some thread }, [])
  else (d, [.threw])

def beginDrain : Dispatch τ ρ η × List (Event τ ρ η) :=
  if d.phase = .accepting then ({ d with phase := .quiescing }, []) else (d, [])

def allocateIdentity : Dispatch τ ρ η × List (Event τ ρ η) :=
  if d.phase = .accepting ∧ d.workerThread current = true then
    match nextPositive d.nextRequestSeq with
    | some next => ({ d with nextRequestSeq := next }, [.allocated d.moduleId next])
    | none => (d, [.threw])
  else (d, [.threw])

/-- The entry is put first; when that displaced another one, the other is put back. -/
def register (moduleId requestSeq : ℤ) (entry : Entry ρ η) :
    Dispatch τ ρ η × List (Event τ ρ η) :=
  if d.phase = .accepting ∧ d.workerThread current = true ∧ d.moduleId = moduleId ∧ 0 < requestSeq then
    let put := d.entries.insert requestSeq entry
    match d.entries.lookup requestSeq with
    | some previous => ({ d with entries := put.insert requestSeq previous }, [.threw])
    | none => ({ d with entries := put }, [.registered moduleId requestSeq entry])
  else (d, [.threw])

def retire (moduleId requestSeq : ℤ) : Dispatch τ ρ η × List (Event τ ρ η) :=
  if !d.workerThread current then (d.increment .wrongThread, [.threw])
  else if d.moduleId ≠ moduleId ∨ ¬0 < requestSeq then (d.increment .malformed, [])
  else
    match d.entries.lookup requestSeq with
    | some entry =>
      ({ d with entries := d.entries.erase requestSeq }.increment .retired,
        [.closed requestSeq entry (closeEntry entry)])
    | none => (d.increment .duplicate, [])

def finish : Dispatch τ ρ η × List (Event τ ρ η) :=
  if d.entries.entries.isEmpty then ({ d with phase := .closed }, [])
  else
    ({ d.increment .forced with entries := ∅, phase := .closed },
      d.entries.entries.map fun e => .closed e.1 e.2 (closeEntry e.2))

end Dispatch

/-- A call of one of the functions, by a thread. -/
inductive Op (τ ρ η : Type*)
  | bindThread (thread : τ)
  | beginDrain
  | allocateIdentity
  | register (moduleId requestSeq : ℤ) (entry : Entry ρ η)
  | body (moduleId requestSeq : ℤ) (chunk : Option (List UInt8)) (isLast : ℤ) (faults : Bool)
  | proceed (moduleId requestSeq : ℤ) (created faults : Bool)
  | stop (moduleId requestSeq reason : ℤ) (created faults : Bool)
  | entry (moduleId requestSeq : ℤ)
  | retire (moduleId requestSeq : ℤ)
  | finish
  deriving DecidableEq, Repr

def Op.apply (current : τ) (d : Dispatch τ ρ η) :
    Op τ ρ η → Dispatch τ ρ η × List (Event τ ρ η)
  | .bindThread thread => d.bindThread thread
  | .beginDrain => d.beginDrain
  | .allocateIdentity => d.allocateIdentity current
  | .register m q e => d.register current m q e
  | .body m q chunk isLast faults => d.bodyCallback current m q chunk isLast faults
  | .proceed m q created faults => d.proceedCallback current m q created faults
  | .stop m q reason created faults => d.stopCallback current m q reason created faults
  | .entry m q => d.entry current m q
  | .retire m q => d.retire current m q
  | .finish => d.finish

/-- A dispatch table with the record of what was done with it. -/
structure Module (τ ρ η : Type*) where
  dispatch : Dispatch τ ρ η
  history : List (Event τ ρ η)

def Module.call (m : Module τ ρ η) (current : τ) (op : Op τ ρ η) : Module τ ρ η :=
  ⟨(op.apply current m.dispatch).1, m.history ++ (op.apply current m.dispatch).2⟩

/-- `create`, with the identity that `next-module-id_` gave. -/
def create (moduleId : ℤ) : Module τ ρ η where
  dispatch := ⟨moduleId, 0, .initializing, none, ∅, fun _ => 0⟩
  history := []

structure Program (τ ρ η : Type*) where
  nextModuleId : ℤ
  modules : List (Module τ ρ η)

inductive Label (τ ρ η : Type*)
  | create
  | call (index : ℕ) (current : τ) (op : Op τ ρ η)
  deriving DecidableEq, Repr

/-- A step that `create` refuses because no identity is left changes nothing. -/
def stepFn (a : Label τ ρ η) (p : Program τ ρ η) : Option (Program τ ρ η) :=
  match a with
  | .create =>
    match nextPositive p.nextModuleId with
    | some moduleId => some ⟨moduleId, p.modules ++ [create moduleId]⟩
    | none => some p
  | .call index current op =>
    p.modules[index]?.map fun m => { p with modules := p.modules.set index (m.call current op) }

def start : Program τ ρ η := ⟨0, []⟩

def machine : Machine (Program τ ρ η) (Label τ ρ η) where
  init p := p = start
  step := stepFn

end Busker.CallbackDispatch
