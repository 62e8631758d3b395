import Busker.ByteQueue.Accounting

/-! Whether the semaphore can hold the permits. `close` releases the whole capacity on top
of the permits that are free, and drains go on releasing after it. -/

namespace Busker.ByteQueue

open Interleaving

variable {α : Type*} {cfg : Config α} {s : State α}

inductive ConstructorError
  | illegalArgument
  | valueOutOfRangeForInt
  deriving DecidableEq, Repr

/-- `byte-bounded-spsc-queue`; the capacity of the semaphore is a checked `int`. -/
def byteBoundedSpscQueue (byteSize : α → ℤ) (capacityBytes : ℤ) :
    Except ConstructorError (Config α) :=
  if positive : 0 < capacityBytes then
    if isInt : capacityBytes < 2 ^ 31 then .ok ⟨capacityBytes, byteSize, positive, isInt⟩
    else .error .valueOutOfRangeForInt
  else .error .illegalArgument

theorem byteBoundedSpscQueue_capacity {byteSize : α → ℤ} {capacityBytes : ℤ}
    (accepted : byteBoundedSpscQueue byteSize capacityBytes = .ok cfg) :
    cfg.capacity = capacityBytes := by
  unfold byteBoundedSpscQueue at accepted
  split at accepted
  · split at accepted
    · rw [← Except.ok.inj accepted]
    · cases accepted
  · cases accepted

/-- A call of the semaphore, with the `long` that is narrowed to its count. -/
inductive SemaphoreCall
  | acquire (count : ℤ)
  | release (count : ℤ)
  deriving DecidableEq, Repr

def Put.call (cfg : Config α) (x : α) : Put → Option SemaphoreCall
  | .acquire => some (.acquire (cfg.byteSize x))
  | .release => some (.release (cfg.byteSize x))
  | _ => none

def Drain.call (cfg : Config α) : Drain α → Option SemaphoreCall
  | .release _ _ head => some (.release (cfg.byteSize head))
  | _ => none

/-- The calls the threads make next. -/
def State.calls (cfg : Config α) (s : State α) : List SemaphoreCall :=
  (s.put.bind fun p => p.2.call cfg p.1).toList ++ (s.drain.bind fun d => d.2.call cfg).toList ++
    if s.flooding then [.release cfg.capacity] else []

/-- The count is no larger than an `int` and not negative, and a release leaves a total
that is an `int`. -/
def SemaphoreCall.InRange (permits : ℤ) : SemaphoreCall → Prop
  | .acquire count => 0 ≤ count ∧ count < 2 ^ 31
  | .release count => 0 ≤ count ∧ count < 2 ^ 31 ∧ permits + count < 2 ^ 31

/-- The permits and the calls that change them stay in the range of the semaphore. -/
structure PermitsInRange (cfg : Config α) (s : State α) : Prop where
  permits : 0 ≤ s.queue.permits ∧ s.queue.permits < 2 ^ 31
  calls : ∀ call ∈ s.calls cfg, call.InRange s.queue.permits

theorem Balanced.put_inRange (h : Balanced cfg s) (small : cfg.capacity < 2 ^ 30) {x : α} {p : Put}
    (put : s.put = some (x, p)) {call : SemaphoreCall} (calls : p.call cfg x = some call) :
    call.InRange s.queue.permits := by
  have sound := h.put x p put
  have room := h.room small
  have polled := h.polled_nonneg
  simp only [State.held, put, Option.elim_some] at room
  cases p with
  | acquire =>
      obtain rfl := Option.some.inj calls
      simp only [Put.Sound] at sound
      exact ⟨by omega, by omega⟩
  | release =>
      obtain rfl := Option.some.inj calls
      simp only [Put.Sound, Put.held] at sound room
      exact ⟨by omega, by omega, by omega⟩
  | _ => cases calls

theorem Balanced.drain_inRange (h : Balanced cfg s) (small : cfg.capacity < 2 ^ 30) {limit : ℤ}
    {d : Drain α} (drain : s.drain = some (limit, d)) {call : SemaphoreCall}
    (calls : d.call cfg = some call) : call.InRange s.queue.permits := by
  have fits := (h.drain limit d drain).fits
  have room := h.room small
  have held := h.held_nonneg
  have permits := h.permits
  simp only [State.unreleased, drain, Option.elim_some] at room
  cases d with
  | release rem acc head =>
      obtain rfl := Option.some.inj calls
      simp only [Drain.Fits, Drain.polled, bytes_cons, bytes_nil] at fits room
      exact ⟨by omega, by omega, by omega⟩
  | _ => cases calls

theorem Balanced.permitsInRange (h : Balanced cfg s) (small : cfg.capacity < 2 ^ 30) :
    PermitsInRange cfg s := by
  constructor
  · have room := h.room small
    have held := h.held_nonneg
    have polled := h.polled_nonneg
    exact ⟨h.permits, by omega⟩
  · intro call mem
    simp only [State.calls, List.mem_append, Option.mem_toList, Option.bind_eq_some_iff] at mem
    rcases mem with (⟨⟨x, p⟩, put, calls⟩ | ⟨⟨limit, d⟩, drain, calls⟩) | flood
    · exact h.put_inRange small put calls
    · exact h.drain_inRange small drain calls
    · split at flood
      · obtain rfl := List.mem_singleton.mp flood
        have positive := cfg.positive
        exact ⟨by omega, cfg.isInt, h.flood_room small (by assumption)⟩
      · cases flood

/-- `close` of a queue nothing was put into. -/
theorem closing_reachable [DecidableEq α] (cfg : Config α) :
    (machine cfg).Reachable
      { freshState cfg with queue := { Queue.fresh cfg with closed := true }, flooding := true } :=
  (Machine.Reachable.init rfl).step (a := .close) rfl

/-- Exactly the capacities for which no call of any run leaves the range of the semaphore. -/
theorem permitsInRange_iff [DecidableEq α] (byteSize : α → ℤ) (capacityBytes : ℤ) (cfg : Config α)
    (accepted : byteBoundedSpscQueue byteSize capacityBytes = .ok cfg) :
    (∀ s, (machine cfg).Reachable s → PermitsInRange cfg s) ↔ capacityBytes < 2 ^ 30 := by
  rw [← byteBoundedSpscQueue_capacity accepted]
  constructor
  · intro inRange
    have flood := (inRange _ (closing_reachable cfg)).calls (.release cfg.capacity) (by
      simp [State.calls])
    have room : cfg.capacity + cfg.capacity < 2 ^ 31 := flood.2.2
    omega
  · exact fun small s reachable => (balanced_of_reachable small reachable).permitsInRange small

theorem smallBytes_inRange : PermitsInRange smallBytes closedAndRefused :=
  (permitsInRange_iff (fun n : ℕ => (n : ℤ)) 10 smallBytes rfl).mpr (by decide) closedAndRefused
    ((Machine.Reachable.init rfl).runFrom _)

/-- A capacity of a gibibyte is accepted, and closing the empty queue asks for more permits
than an `int` counts. -/
theorem gibibyte_leaves : ∃ cfg : Config ℕ,
    byteBoundedSpscQueue (fun n : ℕ => (n : ℤ)) 1073741824 = .ok cfg ∧
      ∃ s, (machine cfg).Reachable s ∧ ¬ PermitsInRange cfg s := by
  refine ⟨⟨1073741824, fun n => n, by decide, by decide⟩, rfl, _, closing_reachable _, ?_⟩
  intro inRange
  have flood := inRange.calls (.release 1073741824) (by simp [State.calls])
  have room : (1073741824 : ℤ) + 1073741824 < 2 ^ 31 := flood.2.2
  omega

end Busker.ByteQueue
