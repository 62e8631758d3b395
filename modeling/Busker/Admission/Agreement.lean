import Busker.Admission.Calls

/-! The dispatcher's table and the shim's agree: what holds of both whatever the worker's
thread is at, and that every step keeps it. -/

namespace Busker.Admission

open Interleaving RequestTable CallbackDispatch

section facts

variable {τ κ : Type} (s : State τ κ) (request : Request κ) (moduleId requestSeq : ℤ)

/-- The request has its memory still. -/
structure State.Current : Prop where
  number : s.number request.ctx = request.number
  live : (s.receiver.ctx request.ctx).cleanup = false

/-- The shim has the request under the number. -/
structure State.Serves : Prop where
  installed : (s.receiver.ctx request.ctx).responseReceiver = true
  requestSeq : (s.receiver.ctx request.ctx).dispatchRequestSeq = uint64 requestSeq

/-- The dispatcher has the request under the number. -/
def State.Entered : Prop :=
  ∃ entry, s.dispatch.entries.lookup requestSeq = some entry ∧ entry.req = request

/-- The request is not answered and no task has it. -/
structure State.Fresh : Prop where
  current : s.Current request
  unanswered : s.answer request.ctx = none
  earlier : request.number < s.count
  new : ∀ task ∈ s.tasks, task.request.number ≠ request.number

structure State.Allocated : Prop where
  module : moduleId = s.dispatch.moduleId
  positive : 0 < requestSeq
  known : requestSeq ≤ s.dispatch.nextRequestSeq
  new : ∀ task ∈ s.tasks, task.requestSeq ≠ requestSeq

/-- The shim has nothing of the request. -/
def State.Bare : Prop := (s.receiver.ctx request.ctx).responseReceiver = false

/-- What `on-request` has done at each of its points. -/
def State.At : Place κ → Prop
  | .idle => True
  | .allocating r => s.Fresh r ∧ s.Bare r
  | .creating r m q => s.Fresh r ∧ s.Bare r ∧ s.Allocated m q
  | .registering r m q => s.Fresh r ∧ s.Bare r ∧ s.Allocated m q
  | .installing r m q => s.Fresh r ∧ s.Bare r ∧ s.Allocated m q ∧ s.Entered r q
  | .executing r m q => s.Fresh r ∧ s.Serves r q ∧ s.Allocated m q ∧ s.Entered r q
  | .retiring r m q code => s.Fresh r ∧ s.Allocated m q ∧ s.Entered r q ∧ code ≠ .ok

/-- The request that is registered and not handed over, and its number. -/
def Place.registered : Place κ → Option (Request κ × ℤ)
  | .installing request _ requestSeq => some (request, requestSeq)
  | .executing request _ requestSeq => some (request, requestSeq)
  | .retiring request _ requestSeq _ => some (request, requestSeq)
  | _ => none

/-- What a task that was handed to the executor can rely on. -/
structure State.Handed (task : Task κ) : Prop where
  module : task.moduleId = s.dispatch.moduleId
  positive : 0 < task.requestSeq
  known : task.requestSeq ≤ s.dispatch.nextRequestSeq
  earlier : task.request.number < s.count
  own : ∀ ctx, (s.receiver.ctx ctx).responseReceiver = true →
    (s.receiver.ctx ctx).dispatchRequestSeq = uint64 task.requestSeq →
    ctx = task.request.ctx ∧ s.number ctx = task.request.number
  current : s.Current task.request → s.Serves task.request task.requestSeq ∧
    s.answer task.request.ctx = some .ok ∧
    (s.dispatch.phase ≠ .closed → s.Entered task.request task.requestSeq)

/-- What holds between two steps of a worker. -/
structure State.Agreed (worker : τ) : Prop where
  kept : ∃ table entries, Kept table s.receiver entries
  thread : s.dispatch.thread = some worker
  module : 0 < s.dispatch.moduleId ∧ s.dispatch.moduleId ≤ longMax
  range : 0 ≤ s.dispatch.nextRequestSeq ∧ s.dispatch.nextRequestSeq ≤ longMax
  installed : ∀ ctx, (s.receiver.ctx ctx).responseReceiver = true →
    (s.receiver.ctx ctx).dispatchModuleId = uint64 s.dispatch.moduleId ∧
      ∃ q, 0 < q ∧ q ≤ s.dispatch.nextRequestSeq ∧
        (s.receiver.ctx ctx).dispatchRequestSeq = uint64 q
  blank : ∀ ctx, (s.receiver.ctx ctx).responseReceiver = false →
    (s.receiver.ctx ctx).dispatchRequestSeq = 0
  entries : ∀ q entry, s.dispatch.entries.lookup q = some entry →
    (∃ task ∈ s.tasks, task.request = entry.req ∧ task.requestSeq = q ∧ s.Current task.request) ∨
      s.place.registered = some (entry.req, q)
  tasks : ∀ task ∈ s.tasks, s.Handed task
  admitted : ∀ ctx, (s.receiver.ctx ctx).cleanup = false → s.answer ctx = some .ok →
    ∃ task ∈ s.tasks, task.request.ctx = ctx ∧ task.request.number = s.number ctx
  distinct : (s.tasks.map (·.request.number)).Nodup
  identities : (s.tasks.map (·.requestSeq)).Nodup
  place : s.At s.place

end facts

section

variable {τ κ : Type} {s s' : State τ κ} {worker : τ} {request : Request κ} {requestSeq : ℤ}

/-- Memory that the shim has something of is in use. -/
theorem State.Agreed.live (h : s.Agreed worker) {ctx : κ}
    (installed : (s.receiver.ctx ctx).responseReceiver = true) :
    (s.receiver.ctx ctx).cleanup = false := by
  obtain ⟨table, entries, kept⟩ := h.kept
  exact (kept.live ctx ((kept.members ctx).mpr installed)).1

/-- No two requests are installed under one number. -/
theorem State.Agreed.one (h : s.Agreed worker) {ctx ctx' : κ}
    (installed : (s.receiver.ctx ctx).responseReceiver = true)
    (installed' : (s.receiver.ctx ctx').responseReceiver = true)
    (same : (s.receiver.ctx ctx).dispatchRequestSeq = (s.receiver.ctx ctx').dispatchRequestSeq) :
    ctx = ctx' := by
  obtain ⟨table, entries, kept⟩ := h.kept
  have modules : (s.receiver.ctx ctx).dispatchModuleId = (s.receiver.ctx ctx').dispatchModuleId :=
    (h.installed ctx installed).1.trans (h.installed ctx' installed').1.symm
  have first := (kept.table _ ctx _).mpr ⟨(kept.members ctx).mpr installed, rfl, rfl⟩
  have second := (kept.table _ ctx' _).mpr ⟨(kept.members ctx').mpr installed', rfl, rfl⟩
  rw [same, modules, second] at first
  injection first with both
  injection both with own
  exact own.symm

/-- The task of a request that is not cleaned up is at other memory than a fresh request. -/
theorem State.Fresh.apart (fresh : s.Fresh request) {task : Task κ} (member : task ∈ s.tasks)
    (current : s.Current task.request) : task.request.ctx ≠ request.ctx := by
  intro same
  apply fresh.new task member
  rw [← current.number, same, fresh.current.number]

/-- A step that leaves the shim's table, and all that the tasks handed out rely on. -/
structure Moves (s s' : State τ κ) : Prop where
  receiver : s'.receiver = s.receiver
  number : s'.number = s.number
  count : s'.count = s.count
  thread : s'.dispatch.thread = s.dispatch.thread
  module : s'.dispatch.moduleId = s.dispatch.moduleId
  closed : s'.dispatch.phase = .closed ↔ s.dispatch.phase = .closed
  next : s.dispatch.nextRequestSeq ≤ s'.dispatch.nextRequestSeq ∧
    s'.dispatch.nextRequestSeq ≤ longMax
  answer : ∀ task ∈ s.tasks, s.Current task.request →
    s'.answer task.request.ctx = s.answer task.request.ctx
  entry : ∀ task ∈ s.tasks,
    s'.dispatch.entries.lookup task.requestSeq = s.dispatch.entries.lookup task.requestSeq

theorem Moves.current (moves : Moves s s') : s'.Current request ↔ s.Current request := by
  constructor
  · rintro ⟨number, live⟩
    exact ⟨moves.number ▸ number, moves.receiver ▸ live⟩
  · rintro ⟨number, live⟩
    exact ⟨moves.number ▸ number, moves.receiver ▸ live⟩

theorem Moves.serves (moves : Moves s s') : s'.Serves request requestSeq ↔
    s.Serves request requestSeq := by
  constructor
  · rintro ⟨installed, number⟩
    exact ⟨moves.receiver ▸ installed, moves.receiver ▸ number⟩
  · rintro ⟨installed, number⟩
    exact ⟨moves.receiver ▸ installed, moves.receiver ▸ number⟩

theorem Moves.handed (moves : Moves s s') {task : Task κ} (member : task ∈ s.tasks)
    (handed : s.Handed task) :
    s'.Handed task where
  module := handed.module.trans moves.module.symm
  positive := handed.positive
  known := handed.known.trans moves.next.1
  earlier := moves.count ▸ handed.earlier
  own ctx installed same := by
    rw [moves.receiver] at installed same
    rw [moves.number]
    exact handed.own ctx installed same
  current current := by
    have before := moves.current.mp current
    obtain ⟨serves, ok, entered⟩ := handed.current before
    refine ⟨moves.serves.mpr serves, (moves.answer task member before).trans ok, fun opened => ?_⟩
    obtain ⟨entry, found, own⟩ := entered fun closed => opened (moves.closed.mpr closed)
    exact ⟨entry, (moves.entry task member).trans found, own⟩

/-- What is left to show of a step that moves. -/
theorem State.Agreed.move (h : s.Agreed worker) (moves : Moves s s')
    (entries : ∀ q entry, s'.dispatch.entries.lookup q = some entry →
      (∃ task ∈ s'.tasks, task.request = entry.req ∧ task.requestSeq = q ∧ s.Current task.request) ∨
        s'.place.registered = some (entry.req, q))
    (tasks : ∀ task ∈ s'.tasks, task ∈ s.tasks ∨ s'.Handed task)
    (admitted : ∀ ctx, (s.receiver.ctx ctx).cleanup = false → s'.answer ctx = some .ok →
      ∃ task ∈ s'.tasks, task.request.ctx = ctx ∧ task.request.number = s.number ctx)
    (distinct : (s'.tasks.map (·.request.number)).Nodup)
    (identities : (s'.tasks.map (·.requestSeq)).Nodup)
    (place : s'.At s'.place) : s'.Agreed worker where
  kept := by
    rw [moves.receiver]
    exact h.kept
  thread := moves.thread.trans h.thread
  module := by
    rw [moves.module]
    exact h.module
  range := ⟨h.range.1.trans moves.next.1, moves.next.2⟩
  installed ctx installed := by
    rw [moves.receiver] at installed ⊢
    obtain ⟨module, q, positive, known, number⟩ := h.installed ctx installed
    exact ⟨module.trans (congrArg uint64 moves.module.symm), q, positive, known.trans moves.next.1,
      number⟩
  blank ctx bare := by
    rw [moves.receiver] at bare ⊢
    exact h.blank ctx bare
  entries q entry found := by
    refine (entries q entry found).imp_left ?_
    rintro ⟨task, member, own, number, current⟩
    exact ⟨task, member, own, number, moves.current.mpr current⟩
  tasks task member := (tasks task member).elim (fun old => moves.handed old (h.tasks task old)) id
  admitted ctx live ok := by
    rw [moves.receiver] at live
    rw [moves.number]
    exact admitted ctx live ok
  distinct := distinct
  identities := identities
  place := place

end

end Busker.Admission
