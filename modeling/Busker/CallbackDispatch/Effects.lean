import Busker.CallbackDispatch.Dispatch

/-! What one call of a function of the dispatch table does, said once. -/

namespace Busker.CallbackDispatch

variable {τ ρ η : Type*} [DecidableEq τ]

/-- What one call does to a table, and what it adds to the record. -/
inductive Effect (current : τ) (d : Dispatch τ ρ η) : Dispatch τ ρ η → List (Event τ ρ η) → Prop
  | count (counters : Counter → ℕ) : Effect current d { d with counters := counters } []
  | refuse (counters : Counter → ℕ) : Effect current d { d with counters := counters } [.threw]
  | bind (thread : τ) (unbound : d.phase = .initializing) :
    Effect current d { d with phase := .accepting, thread := some thread } []
  | drain (accepting : d.phase = .accepting) : Effect current d { d with phase := .quiescing } []
  | allocate (accepting : d.phase = .accepting) (room : d.nextRequestSeq ≠ longMax) :
    Effect current d { d with nextRequestSeq := d.nextRequestSeq + 1 }
      [.allocated d.moduleId (d.nextRequestSeq + 1)]
  | register (requestSeq : ℤ) (entry : Entry ρ η) (accepting : d.phase = .accepting)
    (fresh : d.entries.lookup requestSeq = none) :
    Effect current d { d with entries := d.entries.insert requestSeq entry }
      [.registered d.moduleId requestSeq entry]
  | collide (requestSeq : ℤ) (previous : Entry ρ η) (held : d.entries.lookup requestSeq = some previous) :
    Effect current d { d with entries := d.entries.insert requestSeq previous } [.threw]
  | reach (requestSeq : ℤ) (entry : Entry ρ η) (call : Call ρ η) (counters : Counter → ℕ)
    (live : d.phase = .accepting ∨ d.phase = .quiescing) (worker : d.thread = some current)
    (held : d.entries.lookup requestSeq = some entry) :
    Effect current d { d with counters := counters } [.reached current d.moduleId requestSeq entry call]
  | retire (requestSeq : ℤ) (entry : Entry ρ η) (counters : Counter → ℕ)
    (held : d.entries.lookup requestSeq = some entry) :
    Effect current d { d with entries := d.entries.erase requestSeq, counters := counters }
      [.closed requestSeq entry (closeEntry entry)]
  | finish (counters : Counter → ℕ) :
    Effect current d { d with entries := ∅, phase := .closed, counters := counters }
      (d.entries.entries.map fun e => .closed e.1 e.2 (closeEntry e.2))

section effect

variable {d : Dispatch τ ρ η} {current : τ}

/-- A callback passes all checks, or only a counter changes. -/
theorem liveEntry_cases (d : Dispatch τ ρ η) (current : τ) (moduleId requestSeq : ℤ) :
    (∃ entry, d.liveEntry current moduleId requestSeq = (d, some entry) ∧
      (d.phase = .accepting ∨ d.phase = .quiescing) ∧ d.thread = some current ∧
      d.moduleId = moduleId ∧ d.entries.lookup requestSeq = some entry) ∨
    ∃ counters, d.liveEntry current moduleId requestSeq = ({ d with counters := counters }, none) := by
  unfold Dispatch.liveEntry
  split
  · exact .inr ⟨_, rfl⟩
  split
  · exact .inr ⟨_, rfl⟩
  split
  · exact .inr ⟨_, rfl⟩
  split
  · rename_i phase worker wellformed _ entry held
    simp only [Dispatch.callbackPhase, Dispatch.workerThread, Bool.not_eq_true', Bool.not_eq_false,
      Bool.or_eq_true, beq_iff_eq, not_or, not_not] at phase worker wellformed
    exact .inl ⟨entry, rfl, phase, worker, wellformed.1, held⟩
  · exact .inr ⟨_, rfl⟩

theorem effect_bodyCallback (moduleId requestSeq : ℤ) (chunk : Option (List UInt8)) (isLast : ℤ)
    (faults : Bool) : Effect current d (d.bodyCallback current moduleId requestSeq chunk isLast faults).1
      (d.bodyCallback current moduleId requestSeq chunk isLast faults).2 := by
  unfold Dispatch.bodyCallback
  rcases liveEntry_cases d current moduleId requestSeq with
    ⟨entry, found, live, worker, rfl, held⟩ | ⟨counters, missed⟩
  · rw [found]
    dsimp only
    split
    · split
      · exact .reach requestSeq entry _ _ live worker held
      · exact .reach requestSeq entry _ d.counters live worker held
    · exact .count _
  · rw [missed]
    exact .count counters

theorem effect_writerCallback (moduleId requestSeq : ℤ) (call : η → Call ρ η) (created faults : Bool) :
    Effect current d (d.writerCallback current moduleId requestSeq call created faults).1
      (d.writerCallback current moduleId requestSeq call created faults).2 := by
  unfold Dispatch.writerCallback
  rcases liveEntry_cases d current moduleId requestSeq with
    ⟨entry, found, live, worker, rfl, held⟩ | ⟨counters, missed⟩
  · rw [found]
    dsimp only
    split
    · split
      · split
        · exact .reach requestSeq entry _ _ live worker held
        · exact .reach requestSeq entry _ d.counters live worker held
      · exact .count d.counters
    · exact .count d.counters
  · rw [missed]
    exact .count counters

theorem effect_entry (moduleId requestSeq : ℤ) :
    Effect current d (d.entry current moduleId requestSeq).1 (d.entry current moduleId requestSeq).2 := by
  unfold Dispatch.entry
  rcases liveEntry_cases d current moduleId requestSeq with
    ⟨entry, found, live, worker, rfl, held⟩ | ⟨counters, missed⟩
  · rw [found]
    exact .reach requestSeq entry _ d.counters live worker held
  · rw [missed]
    exact .count counters

theorem effect_allocateIdentity :
    Effect current d (d.allocateIdentity current).1 (d.allocateIdentity current).2 := by
  unfold Dispatch.allocateIdentity
  split
  · rename_i admitted
    unfold nextPositive
    by_cases full : d.nextRequestSeq = longMax
    · rw [if_pos full]
      exact .refuse d.counters
    · rw [if_neg full]
      exact .allocate admitted.1 full
  · exact .refuse d.counters

theorem effect_register (moduleId requestSeq : ℤ) (entry : Entry ρ η) :
    Effect current d (d.register current moduleId requestSeq entry).1
      (d.register current moduleId requestSeq entry).2 := by
  unfold Dispatch.register
  split
  · rename_i admitted
    obtain ⟨accepting, -, rfl, -⟩ := admitted
    dsimp only
    split
    · rename_i previous held
      rw [AList.insert_insert]
      exact .collide requestSeq previous held
    · rename_i fresh
      exact .register requestSeq entry accepting fresh
  · exact .refuse d.counters

theorem effect_retire (moduleId requestSeq : ℤ) :
    Effect current d (d.retire current moduleId requestSeq).1 (d.retire current moduleId requestSeq).2 := by
  unfold Dispatch.retire
  split
  · exact .refuse _
  split
  · exact .count _
  split
  · rename_i entry held
    exact .retire requestSeq entry _ held
  · exact .count _

omit [DecidableEq τ] in
theorem effect_finish : Effect current d d.finish.1 d.finish.2 := by
  unfold Dispatch.finish
  split
  · rename_i none_left
    have empty : d.entries = ∅ := AList.ext (List.isEmpty_iff.mp none_left)
    have finished : Effect current d _ _ := .finish d.counters
    rw [empty] at finished
    exact empty ▸ finished
  · exact .finish _

omit [DecidableEq τ] in
theorem effect_bindThread (thread : τ) : Effect current d (d.bindThread thread).1 (d.bindThread thread).2 := by
  unfold Dispatch.bindThread
  split
  · exact .bind thread ‹_›
  · exact .refuse d.counters

omit [DecidableEq τ] in
theorem effect_beginDrain : Effect current d d.beginDrain.1 d.beginDrain.2 := by
  unfold Dispatch.beginDrain
  split
  · exact .drain ‹_›
  · exact .count d.counters

theorem effect_of_apply (op : Op τ ρ η) : Effect current d (op.apply current d).1 (op.apply current d).2 := by
  cases op with
  | bindThread thread => exact effect_bindThread thread
  | beginDrain => exact effect_beginDrain
  | allocateIdentity => exact effect_allocateIdentity
  | register m q entry => exact effect_register m q entry
  | body m q chunk isLast faults => exact effect_bodyCallback m q chunk isLast faults
  | proceed m q created faults => exact effect_writerCallback m q _ created faults
  | stop m q reason created faults => exact effect_writerCallback m q _ created faults
  | entry m q => exact effect_entry m q
  | retire m q => exact effect_retire m q
  | finish => exact effect_finish

end effect

omit [DecidableEq τ] in
theorem Effect.moduleId {current : τ} {d d' : Dispatch τ ρ η} {events : List (Event τ ρ η)}
    (effect : Effect current d d' events) : d'.moduleId = d.moduleId := by
  cases effect <;> rfl

theorem call_moduleId (m : Module τ ρ η) (current : τ) (op : Op τ ρ η) :
    (m.call current op).dispatch.moduleId = m.dispatch.moduleId := (effect_of_apply op).moduleId

end Busker.CallbackDispatch
