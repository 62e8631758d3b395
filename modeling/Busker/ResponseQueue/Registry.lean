import Busker.ResponseQueue.NoLostDrain

/-! The registration of a writer in its worker's `streaming-work`, from which the worker
loop takes how long it may sleep. `schedule-drain!` and `retire-work!` race for it: the
producer registers after its swap to active, the worker withdraws after its swap to idle
and then looks again. -/

namespace Busker.ResponseQueue

open Interleaving

/-- `pending-work?` -/
def Writer.pendingWork (w : Writer) : Bool :=
  w.drainState != .idle || w.inFlight.isSome || 0 < w.queue.queuedBytes

/-- Counted in `queued-bytes_` and not in the queue. -/
def Put.accounted (c : Chunk) : Put → ℕ
  | .enqueue => c.bytes
  | _ => 0

def PutResult.accounted (c : Chunk) : PutResult → ℕ
  | .next point => point.accounted c
  | _ => 0

namespace Producer

/-- About to enter itself in `streaming-work`. -/
def registering : Producer → Bool
  | .schedule (.track .put) _ => true
  | _ => false

/-- Has entered itself and not yet looked whether the writer was stopped. -/
def watching : Producer → Bool
  | .schedule (.track .checkStopped) _ => true
  | _ => false

/-- On its way to withdraw the registration of a writer it knows to be stopped. -/
def removing : Producer → Bool
  | .schedule (.track .remove) _ | .schedule .reset _ | .schedule .untrack _ => true
  | _ => false

def accounted : Producer → ℕ
  | .put point c _ => point.accounted c
  | _ => 0

end Producer

namespace Worker

def registering : Worker → Bool
  | .retire (.track .put) => true
  | _ => false

def watching : Worker → Bool
  | .retire (.track .checkStopped) => true
  | _ => false

def removing : Worker → Bool
  | .retire (.track .remove) | .proceedUntrack | .stopUntrack => true
  | _ => false

/-- Has swapped the drain to idle and not yet withdrawn the registration. -/
def retiring : Worker → Bool
  | .retire .untrack => true
  | _ => false

/-- Has withdrawn the registration and not yet looked at the drain again. -/
def rereading : Worker → Bool
  | .retire .readState => true
  | _ => false

/-- Between storing what was sent and the end of `send-vecs`. -/
def sent : Worker → Bool
  | .demote _ | .finish => true
  | _ => false

/-- Has released what was sent and not yet looked whether the writer was stopped. -/
def released : Worker → Bool
  | .proceedStopped => true
  | _ => false

/-- Where the registration is neither moved nor about to be. -/
def calm : Worker → Bool
  | .retire _ | .proceedStopped | .proceedUntrack | .stopUntrack => false
  | _ => true

/-- Out of the queue and still counted in `queued-bytes_`. -/
def uncounted : Worker → ℕ
  | .account _ _ c => c.bytes
  | _ => 0

end Worker

/-- What a producer step does to the registration. -/
structure ProducerRegistry (w v : Writer) (p q : Producer) : Prop where
  stopped : w.stopped = true → v.stopped = true
  stopping : v.stopped = true → w.stopped = true ∨ q.removing = true
  activated : v.drainState ≠ .idle → w.drainState ≠ .idle ∨ q.registering = true
  held : w.drainState ≠ .idle → v.drainState ≠ .idle ∨ p.removing = true
  inFlight : v.inFlight = w.inFlight
  tracked : v.tracked = w.tracked ∨ p.registering = true ∧ q.watching = true ∨
    p.removing = true ∧ v.tracked = false
  registered : p.registering = true → v.tracked = true
  watched : p.watching = true → q.removing = true ∨ w.stopped = false
  removing : q.removing = true → p.removing = true ∨ v.stopped = true
  removed : p.removing = true → q.removing = true ∨ v.tracked = false
  more : w.queue.queuedBytes ≤ v.queue.queuedBytes
  counted : v.queue.queuedBytes + w.queue.bytes + p.accounted =
    w.queue.queuedBytes + v.queue.bytes + q.accounted

/-- The part of the writer the registration is about is left alone. -/
structure RegistryFrame (w v : Writer) : Prop where
  stopped : v.stopped = w.stopped
  drainState : v.drainState = w.drainState
  inFlight : v.inFlight = w.inFlight
  tracked : v.tracked = w.tracked
  queue : v.queue = w.queue

theorem RegistryFrame.producer {w v : Writer} {p q : Producer} (h : RegistryFrame w v)
    (registering : p.registering = false) (watching : p.watching = false)
    (before : p.removing = false) (after : q.removing = false) (accounted : p.accounted = q.accounted) :
    ProducerRegistry w v p q where
  stopped := h.stopped.trans
  stopping := fun on => .inl (h.stopped ▸ on)
  activated := fun on => .inl (h.drainState ▸ on)
  held := fun on => .inl (h.drainState ▸ on)
  inFlight := h.inFlight
  tracked := .inl h.tracked
  registered := by simp [registering]
  watched := by simp [watching]
  removing := by simp [after]
  removed := by simp [before]
  more := le_of_eq (by rw [h.queue])
  counted := by rw [h.queue, accounted]

theorem resume_registry (sender : Sender) :
    sender.resume.removing = false ∧ sender.resume.accounted = 0 := by
  cases sender <;> exact ⟨rfl, rfl⟩

theorem scheduleStep_registry {w v : Writer} {sender : Sender} {point : Schedule}
    {move : ProducerMove} {q : Producer} (h : scheduleStep w sender point move = some (v, q)) :
    ProducerRegistry w v (.schedule point sender) q := by
  obtain ⟨calm, accounted⟩ := resume_registry sender
  cases point <;> cases move <;>
    simp only [scheduleStep, reduceCtorEq, Option.some.injEq, Prod.mk.injEq] at h
  case read.tick =>
    obtain ⟨rfl, rfl⟩ := h
    cases w.drainState <;>
      exact RegistryFrame.producer ⟨rfl, rfl, rfl, rfl, rfl⟩ rfl rfl rfl rfl rfl
  case activate.tick =>
    split at h <;> rename_i state <;> obtain ⟨rfl, rfl⟩ := Prod.mk.inj (Option.some.inj h)
    · exact ⟨id, .inl, fun _ => .inr rfl, fun on =>
        absurd state on, rfl, .inl rfl, by simp [Producer.registering],
        by simp [Producer.watching], by simp [Producer.removing], by simp [Producer.removing], le_rfl, rfl⟩
    · exact RegistryFrame.producer ⟨rfl, rfl, rfl, rfl, rfl⟩ rfl rfl rfl rfl rfl
  case signal.tick =>
    split at h <;> rename_i state <;> obtain ⟨rfl, rfl⟩ := Prod.mk.inj (Option.some.inj h)
    · exact ⟨id, .inl, fun _ => .inl (by simp [state]), fun _ => .inl (by simp), rfl, .inl rfl,
        by simp [Producer.registering], by simp [Producer.watching], by simp [Producer.removing],
        by simp [Producer.removing], le_rfl, rfl⟩
    · exact RegistryFrame.producer ⟨rfl, rfl, rfl, rfl, rfl⟩ rfl rfl rfl rfl rfl
  case track.tick inner =>
    cases inner <;> simp only [trackStep] at h <;> obtain ⟨rfl, rfl⟩ := h
    case put =>
      exact ⟨id, .inl, .inl, .inl, rfl, .inr (.inl ⟨rfl, rfl⟩), fun _ => rfl, by simp [Producer.watching],
        by simp [Producer.removing], by simp [Producer.removing], le_rfl, rfl⟩
    case checkStopped =>
      cases stopped : w.stopped
      · exact ⟨by simp [stopped], .inl, .inl, .inl, rfl, .inl rfl, by simp [Producer.registering],
          fun _ => .inr stopped, by simp [Producer.removing], by simp [Producer.removing], le_rfl, rfl⟩
      · exact ⟨id, .inl, .inl, .inl, rfl, .inl rfl, by simp [Producer.registering], fun _ => .inl rfl,
          fun _ => .inr stopped, by simp [Producer.removing], le_rfl, rfl⟩
    case remove =>
      exact ⟨id, .inl, .inl, .inl, rfl, .inr (.inr ⟨rfl, rfl⟩), by simp [Producer.registering],
        by simp [Producer.watching], by simp [Producer.removing], fun _ => .inr rfl, le_rfl, rfl⟩
  case post.reply accepted =>
    split at h <;> obtain ⟨rfl, rfl⟩ := Prod.mk.inj (Option.some.inj h)
    · exact RegistryFrame.producer ⟨rfl, rfl, rfl, rfl, rfl⟩ rfl rfl rfl calm (by rw [accounted]; rfl)
    · exact RegistryFrame.producer ⟨rfl, rfl, rfl, rfl, rfl⟩ rfl rfl rfl rfl rfl
  case refuse.tick =>
    obtain ⟨rfl, rfl⟩ := h
    exact ⟨fun _ => rfl, fun _ => .inr rfl, .inl, .inl, rfl, .inl rfl, by simp [Producer.registering],
      by simp [Producer.watching], fun _ => .inr rfl, by simp [Producer.removing], le_rfl, rfl⟩
  case reset.tick =>
    obtain ⟨rfl, rfl⟩ := h
    exact ⟨id, .inl, by simp, fun _ => .inr rfl, rfl, .inl rfl, by simp [Producer.registering],
      by simp [Producer.watching], fun _ => .inl rfl, fun _ => .inl rfl, le_rfl, rfl⟩
  case untrack.tick =>
    obtain ⟨rfl, rfl⟩ := h
    exact ⟨id, .inl, .inl, .inl, rfl, .inr (.inr ⟨rfl, rfl⟩), by simp [Producer.registering],
      by simp [Producer.watching], by simp [Producer.removing], fun _ => .inr rfl, le_rfl, rfl⟩
  case wake.tick =>
    obtain ⟨rfl, rfl⟩ := h
    exact RegistryFrame.producer ⟨rfl, rfl, rfl, rfl, rfl⟩ rfl rfl rfl calm (by rw [accounted]; rfl)

theorem putStep_counted {cfg : Config} {q r : Queue} {c : Chunk} {point : Put} {result : PutResult}
    (h : putStep cfg q c point = some (r, result)) :
    q.queuedBytes ≤ r.queuedBytes ∧
      r.queuedBytes + q.bytes + point.accounted c = q.queuedBytes + r.bytes + result.accounted c := by
  cases point <;> simp only [putStep, Option.some.injEq, Prod.mk.injEq] at h
  case acquire =>
    split at h
    · obtain ⟨rfl, rfl⟩ := Prod.mk.inj (Option.some.inj h)
      exact ⟨le_rfl, rfl⟩
    · contradiction
  case release =>
    obtain ⟨rfl, rfl⟩ := h
    unfold Queue.release
    split_ifs <;> exact ⟨le_rfl, rfl⟩
  case enqueue =>
    obtain ⟨rfl, rfl⟩ := h
    simp only [Queue.bytes, List.map_append, List.sum_append, Put.accounted, PutResult.accounted,
      List.map_cons, List.map_nil, List.sum_cons, List.sum_nil]
    omega
  case ensureOpen | recheck =>
    obtain ⟨rfl, rfl⟩ := h
    split_ifs <;> simp [Put.accounted, PutResult.accounted]
    all_goals omega
  case account =>
    obtain ⟨rfl, rfl⟩ := h
    simp only [Queue.bytes, Put.accounted, PutResult.accounted]
    omega

theorem putMove_counted {cfg : Config} {q r : Queue} {c : Chunk} {point : Put} {move : ProducerMove}
    {result : PutResult} (h : putMove cfg q c point move = some (r, result)) :
    q.queuedBytes ≤ r.queuedBytes ∧
      r.queuedBytes + q.bytes + point.accounted c = q.queuedBytes + r.bytes + result.accounted c := by
  obtain ⟨-, put⟩ | ⟨-, rfl, rfl, rfl⟩ := putMove_cases h
  · exact putStep_counted put
  · exact ⟨le_rfl, rfl⟩

theorem queued_registry (sender : Sender) :
    sender.queued.removing = false ∧ sender.queued.accounted = 0 := by
  cases sender <;> exact ⟨rfl, rfl⟩

/-- A step inside `bbq/put` concerns the count alone. -/
theorem ProducerRegistry.ofPut {w : Writer} {r : Queue} {point : Put} {c : Chunk} {sender : Sender}
    {q : Producer} {lost : List UInt8} {spilled : List ℕ} (calm : q.removing = false)
    (more : w.queue.queuedBytes ≤ r.queuedBytes)
    (counted : r.queuedBytes + w.queue.bytes + (Producer.put point c sender).accounted =
      w.queue.queuedBytes + r.bytes + q.accounted) :
    ProducerRegistry w { w with queue := r, lost := lost, spilled := spilled } (.put point c sender) q where
  stopped := id
  stopping := .inl
  activated := .inl
  held := .inl
  inFlight := rfl
  tracked := .inl rfl
  registered := by simp [Producer.registering]
  watched := by simp [Producer.watching]
  removing := by simp [calm]
  removed := by simp [Producer.removing]
  more := more
  counted := counted

theorem producerStep_registry {cfg : Config} {w v : Writer} {p q : Producer} {move : ProducerMove}
    (h : producerStep cfg w p move = some (v, q)) : ProducerRegistry w v p q := by
  cases p
  case put point c sender =>
    obtain ⟨⟨r, result⟩, put, h⟩ := Option.map_eq_some_iff.mp h
    obtain ⟨more, counted⟩ := putMove_counted put
    cases result with
    | next next =>
      obtain ⟨rfl, rfl⟩ := Prod.mk.inj h
      exact .ofPut rfl more counted
    | queued =>
      obtain ⟨rfl, rfl⟩ := Prod.mk.inj h
      obtain ⟨calm, accounted⟩ := queued_registry sender
      exact .ofPut calm more (accounted ▸ counted)
    | thrown =>
      obtain ⟨rfl, rfl⟩ := Prod.mk.inj h
      exact .ofPut rfl more counted
  case schedule point sender => exact scheduleStep_registry h
  all_goals
    cases move <;> simp only [producerStep, reduceCtorEq, Option.some.injEq, Prod.mk.injEq] at h
  case idle.call c =>
    cases c <;> obtain ⟨rfl, rfl⟩ := Prod.mk.inj (Option.some.inj h) <;>
      exact RegistryFrame.producer ⟨rfl, rfl, rfl, rfl, rfl⟩ rfl rfl rfl rfl rfl
  case writeBorrow.borrow =>
    obtain ⟨⟨b, pool⟩, -, h⟩ := Option.map_eq_some_iff.mp h
    obtain ⟨rfl, rfl⟩ := Prod.mk.inj h
    exact RegistryFrame.producer ⟨rfl, rfl, rfl, rfl, rfl⟩ rfl rfl rfl rfl rfl
  case writeClosing.tick | closeClosing.tick =>
    split at h <;> obtain ⟨rfl, rfl⟩ := Prod.mk.inj (Option.some.inj h) <;>
      exact RegistryFrame.producer ⟨rfl, rfl, rfl, rfl, rfl⟩ rfl rfl rfl rfl rfl
  all_goals
    obtain ⟨rfl, rfl⟩ := h
    refine RegistryFrame.producer ⟨rfl, rfl, rfl, rfl, rfl⟩ rfl rfl rfl ?_ ?_ <;>
      (try cases w.current) <;> (repeat' split) <;> rfl

/-- What a worker step does to the registration. -/
structure WorkerRegistry (w v : Writer) (k l : Worker) : Prop where
  stopped : w.stopped = true → v.stopped = true
  stopping : v.stopped = true → w.stopped = true ∨ l.removing = true ∨ k.sent = true
  activated : v.drainState ≠ .idle → w.drainState ≠ .idle
  held : w.drainState ≠ .idle → v.drainState ≠ .idle ∨ l.retiring = true
  tracked : v.tracked = w.tracked ∨ k.registering = true ∧ l.watching = true ∨
    (k.removing = true ∨ k.retiring = true) ∧ v.tracked = false
  retired : k.retiring = true → l.rereading = true ∧ v.tracked = false
  reread : k.rereading = true → w.drainState ≠ .idle → l.registering = true
  registering : l.registering = true →
    v = w ∧ (w.drainState ≠ .idle ∨ w.inFlight.isSome = true ∨ 0 < w.queue.queuedBytes)
  registered : k.registering = true → v.tracked = true
  watched : k.watching = true → l.removing = true ∨ w.stopped = false
  removing : l.removing = true → v.stopped = true
  removed : k.removing = true → v.tracked = false
  inFlight : w.inFlight.isSome = true → v.inFlight.isSome = true ∨ l.released = true
  released : k.released = true → v = w ∧ (w.stopped = true → l.removing = true)
  sent : l.sent = true → v.inFlight.isSome = true ∨ k.sent = true ∧ v.inFlight = w.inFlight
  fewer : v.queue.queuedBytes < w.queue.queuedBytes → k.inLoop = true ∧ v.drainState = w.drainState
  counted : v.queue.queuedBytes + w.queue.bytes + k.uncounted =
    w.queue.queuedBytes + v.queue.bytes + l.uncounted

theorem off {b : Bool} {P : Prop} (off : b = false) (on : b = true) : P :=
  absurd (off.symm.trans on) Bool.false_ne_true

theorem Worker.quiet_of_calm (k : Worker) (h : k.calm = true) :
    k.registering = false ∧ k.watching = false ∧ k.removing = false ∧ k.retiring = false ∧
      k.rereading = false ∧ k.released = false := by
  cases k <;> first | exact ⟨rfl, rfl, rfl, rfl, rfl, rfl⟩ | contradiction

theorem RegistryFrame.worker {w v : Writer} {k l : Worker} (h : RegistryFrame w v)
    (before : k.calm = true) (registering : l.registering = false)
    (removing : l.removing = true → w.stopped = true) (sent : l.sent = true → k.sent = true)
    (uncounted : k.uncounted = l.uncounted) : WorkerRegistry w v k l :=
  have calm := k.quiet_of_calm before
  { stopped := h.stopped.trans
    stopping := fun on => .inl (h.stopped ▸ on)
    activated := fun on => h.drainState ▸ on
    held := fun on => .inl (h.drainState ▸ on)
    tracked := .inl h.tracked
    retired := by simp [calm]
    reread := by simp [calm]
    registering := by simp [registering]
    registered := by simp [calm]
    watched := by simp [calm]
    removing := fun on => h.stopped.trans (removing on)
    removed := by simp [calm]
    inFlight := fun on => .inl (h.inFlight ▸ on)
    released := by simp [calm]
    sent := fun on => .inr ⟨sent on, h.inFlight⟩
    fewer := by simp [h.queue]
    counted := by rw [h.queue, uncounted] }

theorem package_registry (w : Writer) (rem : ℕ) (acc : List Chunk) :
    WorkerRegistry w w (.drain rem acc) (package acc) := by
  unfold package
  split <;>
    exact RegistryFrame.worker ⟨rfl, rfl, rfl, rfl, rfl⟩ rfl rfl (off rfl) (off rfl) rfl

/-- A step in `retire-work!` that only looks. -/
theorem WorkerRegistry.look {w : Writer} {k l : Worker} (uncounted : k.uncounted = l.uncounted)
    (before : k.registering = false ∧ k.removing = false ∧ k.retiring = false ∧ k.released = false)
    (sent : l.sent = false) (reread : k.rereading = true → w.drainState ≠ .idle → l.registering = true)
    (registering : l.registering = true →
      w.drainState ≠ .idle ∨ w.inFlight.isSome = true ∨ 0 < w.queue.queuedBytes)
    (watched : k.watching = true → l.removing = true ∨ w.stopped = false)
    (removing : l.removing = true → w.stopped = true) : WorkerRegistry w w k l where
  stopped := id
  stopping := .inl
  activated := id
  held := .inl
  tracked := .inl rfl
  retired := by simp [before]
  reread := reread
  registering := fun on => ⟨rfl, registering on⟩
  registered := by simp [before]
  watched := watched
  removing := removing
  removed := by simp [before]
  inFlight := .inl
  released := by simp [before]
  sent := by simp [sent]
  fewer := by simp
  counted := by rw [uncounted]

theorem retireStep_registry {w v : Writer} {point : Retire} {l : Worker}
    (h : retireStep w point = (v, l)) : WorkerRegistry w v (.retire point) l := by
  cases point <;> simp only [retireStep] at h
  case untrack =>
    obtain ⟨rfl, rfl⟩ := Prod.mk.inj h
    exact ⟨id, .inl, id, .inl, .inr (.inr ⟨.inr rfl, rfl⟩), fun _ =>
      ⟨rfl, rfl⟩, (off rfl), (off rfl), (off rfl), (off rfl),
      (off rfl), (off rfl), .inl, (off rfl), (off rfl), by simp, rfl⟩
  case readState =>
    obtain ⟨rfl, rfl⟩ := Prod.mk.inj h
    split <;> rename_i state
    · exact .look rfl ⟨rfl, rfl, rfl, rfl⟩ rfl (fun _ on => absurd state on) (off rfl) (off rfl) (off rfl)
    · exact .look rfl ⟨rfl, rfl, rfl, rfl⟩ rfl (fun _ _ => rfl) (fun _ => .inl state) (off rfl) (off rfl)
  case readInFlight =>
    obtain ⟨rfl, rfl⟩ := Prod.mk.inj h
    split <;> rename_i flying
    · exact .look rfl ⟨rfl, rfl, rfl, rfl⟩ rfl (off rfl) (off rfl) (off rfl) (off rfl)
    · exact .look rfl ⟨rfl, rfl, rfl, rfl⟩ rfl (off rfl)
        (fun _ => .inr (.inl (by simpa [Option.isSome_iff_ne_none] using flying))) (off rfl) (off rfl)
  case readBytes =>
    obtain ⟨rfl, rfl⟩ := Prod.mk.inj h
    split <;> rename_i bytes
    · exact .look rfl ⟨rfl, rfl, rfl, rfl⟩ rfl (off rfl) (fun _ => .inr (.inr bytes)) (off rfl) (off rfl)
    · exact .look rfl ⟨rfl, rfl, rfl, rfl⟩ rfl (off rfl) (off rfl) (off rfl) (off rfl)
  case track inner =>
    cases inner <;> simp only [trackStep] at h <;> obtain ⟨rfl, rfl⟩ := Prod.mk.inj h
    case put =>
      exact ⟨id, .inl, id, .inl, .inr (.inl ⟨rfl, rfl⟩), (off rfl), (off rfl), (off rfl), fun _ =>
        rfl, (off rfl), (off rfl),
        (off rfl), .inl, (off rfl), (off rfl), by simp, rfl⟩
    case checkStopped =>
      cases stopped : w.stopped
      · exact .look rfl ⟨rfl, rfl, rfl, rfl⟩ rfl (off rfl) (off rfl) (fun _ => .inr stopped) (off rfl)
      · exact .look rfl ⟨rfl, rfl, rfl, rfl⟩ rfl (off rfl) (off rfl) (fun _ => .inl rfl) (fun _ => stopped)
    case remove =>
      exact ⟨id, .inl, id, .inl, .inr (.inr ⟨.inl rfl, rfl⟩), (off rfl), (off rfl), (off rfl),
        (off rfl), (off rfl), (off rfl),
        fun _ => rfl, .inl, (off rfl), (off rfl), by simp, rfl⟩

theorem workerStep_registry {cfg : Config} {w v : Writer} {k l : Worker} {move : WorkerMove}
    (h : workerStep cfg w k move = some (v, l)) : WorkerRegistry w v k l := by
  cases k <;> cases move <;>
    simp only [workerStep, reduceCtorEq, Option.some.injEq, Prod.mk.injEq] at h
  case retire.tick point => exact retireStep_registry h
  case drain.tick rem acc =>
    split at h
    · rename_i c items queued
      split at h <;> obtain ⟨rfl, rfl⟩ := Prod.mk.inj (Option.some.inj h)
      · refine ⟨id, .inl, id, .inl, .inl rfl, (off rfl), (off rfl), ?_, (off rfl), (off rfl), ?_,
          (off rfl), .inl, (off rfl), ?_,
          by simp, ?_⟩ <;> split_ifs <;>
          simp [Worker.registering, Worker.removing, Worker.sent, Worker.uncounted, Queue.bytes, queued]
        all_goals omega
      · exact package_registry w rem acc
    · obtain ⟨rfl, rfl⟩ := Prod.mk.inj (Option.some.inj h)
      exact package_registry w rem acc
  case idle.command | idle.proceed | releaseChunks.tick | releaseChunks.giveBack =>
    split at h <;> simp only [reduceCtorEq, Option.some.injEq, Prod.mk.injEq] at h
    obtain ⟨rfl, rfl⟩ := h
    exact RegistryFrame.worker ⟨rfl, rfl, rfl, rfl, rfl⟩ rfl rfl (off rfl) (off rfl) rfl
  case account.tick rem acc c =>
    obtain ⟨rfl, rfl⟩ := h
    refine ⟨id, .inl, id, .inl, .inl rfl, (off rfl), (off rfl), (off rfl), (off rfl), (off rfl),
      (off rfl), (off rfl), .inl, (off rfl), (off rfl),
      fun _ => ⟨rfl, rfl⟩, ?_⟩
    simp only [Queue.bytes, Worker.uncounted]
    omega
  case release.tick rem acc c =>
    unfold Queue.release at h
    split_ifs at h <;> obtain ⟨rfl, rfl⟩ := Prod.mk.inj (Option.some.inj h) <;>
      exact ⟨id, .inl, id, .inl, .inl rfl, (off rfl), (off rfl), (off rfl), (off rfl), (off rfl),
        (off rfl), (off rfl), .inl, (off rfl), (off rfl),
        by simp, rfl⟩
  case setInFlight.tick acc =>
    obtain ⟨rfl, rfl⟩ := h
    exact ⟨id, .inl, id, .inl, .inl rfl, (off rfl), (off rfl), (off rfl), (off rfl), (off rfl),
      (off rfl), (off rfl), fun _ => .inl rfl,
      (off rfl), fun _ => .inl rfl, by simp, rfl⟩
  case demote.tick final =>
    obtain ⟨rfl, rfl⟩ := h
    refine ⟨id, .inl, ?_, ?_, .inl rfl, (off rfl), (off rfl), ?_, (off rfl), (off rfl), ?_,
      (off rfl), .inl, (off rfl),
      fun _ => .inr ⟨rfl, rfl⟩, by simp, ?_⟩ <;>
      cases final <;> cases w.drainState <;> simp [Worker.registering, Worker.removing, Worker.uncounted]
  case finish.tick =>
    obtain ⟨rfl, rfl⟩ := h
    exact ⟨fun _ => rfl, fun _ =>
      .inr (.inr rfl), id, .inl, .inl rfl, (off rfl), (off rfl), (off rfl), (off rfl), (off rfl),
        (off rfl),
      (off rfl), .inl, (off rfl), (off rfl), by simp, rfl⟩
  case readState.tick =>
    obtain ⟨rfl, rfl⟩ := h
    cases w.drainState <;>
      exact RegistryFrame.worker ⟨rfl, rfl, rfl, rfl, rfl⟩ rfl rfl (off rfl) (off rfl) rfl
  case retireSwap.tick =>
    split at h <;> rename_i state <;> obtain ⟨rfl, rfl⟩ := Prod.mk.inj (Option.some.inj h)
    · exact ⟨id, .inl, by simp [state], fun _ => .inr rfl, .inl rfl, off rfl, off rfl, off rfl, off rfl, off rfl,
        off rfl, off rfl, .inl, off rfl, off rfl, by simp, rfl⟩
    · exact RegistryFrame.worker ⟨rfl, rfl, rfl, rfl, rfl⟩ rfl rfl (off rfl) (off rfl) rfl
  case consume.tick =>
    obtain ⟨rfl, rfl⟩ := h
    refine ⟨id, .inl, ?_, ?_, .inl rfl, (off rfl), (off rfl), (off rfl), (off rfl), (off rfl),
      (off rfl), (off rfl), .inl, (off rfl),
      (off rfl), by simp, rfl⟩ <;>
      cases w.drainState <;> simp
  case clearInFlight.tick =>
    obtain ⟨rfl, rfl⟩ := h
    exact ⟨id, .inl, id, .inl, .inl rfl, (off rfl), (off rfl), (off rfl), (off rfl), (off rfl),
      (off rfl), (off rfl), fun _ => .inr rfl,
      (off rfl), (off rfl), by simp, rfl⟩
  case proceedStopped.tick =>
    obtain ⟨rfl, rfl⟩ := h
    cases stopped : w.stopped
    · exact ⟨id, .inl, id, .inl, .inl rfl, (off rfl), (off rfl), (off rfl), (off rfl), (off rfl),
        (off rfl), (off rfl), .inl,
        fun _ => ⟨rfl, by simp [stopped]⟩, (off rfl), by simp, rfl⟩
    · exact ⟨id, .inl, id, .inl, .inl rfl, (off rfl), (off rfl), (off rfl), (off rfl), (off rfl),
        fun _ => stopped, (off rfl), .inl,
        fun _ => ⟨rfl, fun _ => rfl⟩, (off rfl), by simp, rfl⟩
  case proceedUntrack.tick | stopUntrack.tick =>
    obtain ⟨rfl, rfl⟩ := h
    exact ⟨id, .inl, id, .inl, .inr (.inr ⟨.inl rfl, rfl⟩), (off rfl), (off rfl), (off rfl),
      (off rfl), (off rfl), (off rfl),
      fun _ => rfl, .inl, (off rfl), (off rfl), by simp, rfl⟩
  case stopSet.tick =>
    obtain ⟨rfl, rfl⟩ := h
    exact ⟨fun _ => rfl, fun _ =>
      .inr (.inl rfl), id, .inl, .inl rfl, (off rfl), (off rfl), (off rfl), (off rfl), (off rfl),
      fun _ => rfl, (off rfl), .inl, (off rfl), (off rfl), by simp, rfl⟩
  case stopClose.tick =>
    split at h <;> obtain ⟨rfl, rfl⟩ := Prod.mk.inj (Option.some.inj h) <;>
      exact ⟨id, .inl, id, .inl, .inl rfl, (off rfl), (off rfl), (off rfl), (off rfl), (off rfl),
        (off rfl), (off rfl), .inl, (off rfl), (off rfl),
        by simp, rfl⟩
  case stopRelease.tick =>
    unfold Queue.release at h
    split_ifs at h <;> obtain ⟨rfl, rfl⟩ := h <;>
      exact ⟨id, .inl, id, .inl, .inl rfl, (off rfl), (off rfl), (off rfl), (off rfl), (off rfl),
        (off rfl), (off rfl), .inl, (off rfl), (off rfl),
        by simp, rfl⟩
  case stopTake.tick =>
    obtain ⟨rfl, rfl⟩ := h
    cases w.current <;> exact RegistryFrame.worker ⟨rfl, rfl, rfl, rfl, rfl⟩ rfl rfl (off rfl) (off rfl) rfl
  all_goals
    obtain ⟨rfl, rfl⟩ := h
    (repeat' split) <;> exact RegistryFrame.worker ⟨rfl, rfl, rfl, rfl, rfl⟩ rfl rfl (off rfl) (off rfl) rfl

/-- The registration follows the drain while the writer runs, and outlives a stop only
until what was sent has been proceeded or a thread at it has looked at the stop. -/
structure Registered (s : State) : Prop where
  counted : s.writer.queue.queuedBytes = s.writer.queue.bytes + s.producer.accounted + s.worker.uncounted
  producerRemoving : s.producer.removing = true → s.writer.stopped = true
  workerRemoving : s.worker.removing = true → s.writer.stopped = true
  present : s.writer.stopped = false → s.writer.drainState ≠ .idle →
    s.writer.tracked = true ∨ s.producer.registering = true ∨ s.worker.rereading = true ∨
      s.worker.registering = true
  needed : s.writer.stopped = false → s.writer.tracked = true →
    s.writer.drainState ≠ .idle ∨ 0 < s.writer.queue.queuedBytes ∨ s.worker.retiring = true
  registering : s.writer.stopped = false → s.worker.registering = true →
    s.writer.drainState ≠ .idle ∨ 0 < s.writer.queue.queuedBytes
  sent : s.worker.sent = true → s.writer.inFlight.isSome = true
  left : s.writer.stopped = true → s.writer.tracked = true →
    s.writer.inFlight.isSome = true ∨ s.worker.released = true ∨ s.producer.watching = true ∨
      s.producer.removing = true ∨ s.worker.watching = true ∨ s.worker.removing = true

variable {cfg : Config} {api : Call → Bool} {s t : State} {a : Action}

theorem Worker.token_of_inLoop {k : Worker} (h : k.inLoop = true) : k.token = 1 := by
  cases k <;> simp_all [Worker.inLoop, Worker.token]

/-- While the writer runs, whoever holds the drain's token shows that it is not idle. -/
theorem Held.active (h : Held cfg s) (running : s.writer.stopped = false)
    (token : 0 < s.producer.token + s.worker.token + s.writer.flying) : s.writer.drainState ≠ .idle :=
  Writer.ne_of_busy <| by
    have := h.token running
    omega

theorem Registered.producer {w : Writer} {p : Producer} (h : Registered s) (held : Held cfg s)
    (spec : ProducerRegistry s.writer w s.producer p) : Registered { s with writer := w, producer := p } where
  counted := by
    have := h.counted
    have := spec.counted
    dsimp only
    omega
  producerRemoving on := (spec.removing on).elim (fun before => spec.stopped (h.producerRemoving before)) id
  workerRemoving on := spec.stopped (h.workerRemoving on)
  present running active := by
    have before := running_before spec.stopped running
    rcases spec.activated active with active | registering
    · rcases h.present before active with tracked | registering | worker
      · rcases spec.tracked with same | ⟨registering, -⟩ | ⟨removing, -⟩
        · exact .inl (same.trans tracked)
        · exact .inl (spec.registered registering)
        · simp [h.producerRemoving removing] at before
      · exact .inl (spec.registered registering)
      · exact .inr (.inr worker)
    · exact .inr (.inl registering)
  needed running tracked := by
    have before := running_before spec.stopped running
    have keep (active : s.writer.drainState ≠ .idle) : w.drainState ≠ .idle :=
      (spec.held active).resolve_right fun removing => by
        simp [h.producerRemoving removing] at before
    rcases spec.tracked with same | ⟨registering, -⟩ | ⟨-, gone⟩
    · rcases h.needed before (same.symm.trans tracked) with active | bytes | retiring
      · exact .inl (keep active)
      · exact .inr (.inl (bytes.trans_le spec.more))
      · exact .inr (.inr retiring)
    · refine .inl (keep (held.active before ?_))
      cases at_ : s.producer <;> simp_all [Producer.registering, Producer.token]
      rename_i point _
      cases point <;> simp_all
    · simp [gone] at tracked
  registering running on := by
    have before := running_before spec.stopped running
    rcases h.registering before on with active | bytes
    · exact .inl ((spec.held active).resolve_right fun removing => by
        simp [h.producerRemoving removing] at before)
    · exact .inr (bytes.trans_le spec.more)
  sent on := spec.inFlight ▸ h.sent on
  left stopped tracked := by
    rcases spec.stopping stopped with before | removing
    · rcases spec.tracked with same | ⟨-, watching⟩ | ⟨-, gone⟩
      · rcases h.left before (same.symm.trans tracked) with flying | released | watching | removing | worker
        · exact .inl (spec.inFlight ▸ flying)
        · exact .inr (.inl released)
        · exact .inr (.inr (.inr (.inl ((spec.watched watching).resolve_right (by simp [before])))))
        · exact .inr (.inr (.inr (.inl ((spec.removed removing).resolve_right (by simpa using tracked)))))
        · exact .inr (.inr (.inr (.inr worker)))
      · exact .inr (.inr (.inl watching))
      · simp [gone] at tracked
    · exact .inr (.inr (.inr (.inl removing)))

theorem Registered.worker {w : Writer} {k : Worker} (h : Registered s) (held : Held cfg s)
    (spec : WorkerRegistry s.writer w s.worker k) : Registered { s with writer := w, worker := k } where
  counted := by
    have := h.counted
    have := spec.counted
    dsimp only
    omega
  producerRemoving on := spec.stopped (h.producerRemoving on)
  workerRemoving := spec.removing
  present running active := by
    have before := running_before spec.stopped running
    rcases h.present before (spec.activated active) with tracked | registering | rereading | registering
    · rcases spec.tracked with same | ⟨registering, -⟩ | ⟨removing | retiring, -⟩
      · exact .inl (same.trans tracked)
      · exact .inl (spec.registered registering)
      · simp [h.workerRemoving removing] at before
      · exact .inr (.inr (.inl (spec.retired retiring).1))
    · exact .inr (.inl registering)
    · exact .inr (.inr (.inr (spec.reread rereading (spec.activated active))))
    · exact .inl (spec.registered registering)
  needed running tracked := by
    have before := running_before spec.stopped running
    have keep (needs : s.writer.drainState ≠ .idle ∨ 0 < s.writer.queue.queuedBytes) :
        w.drainState ≠ .idle ∨ 0 < w.queue.queuedBytes ∨ k.retiring = true := by
      rcases needs with active | bytes
      · exact (spec.held active).imp_right .inr
      · by_cases less : w.queue.queuedBytes < s.writer.queue.queuedBytes
        · obtain ⟨inLoop, same⟩ := spec.fewer less
          exact .inl (same ▸ held.active before (by simp [Worker.token_of_inLoop inLoop]))
        · exact .inr (.inl (bytes.trans_le (not_lt.mp less)))
    rcases spec.tracked with same | ⟨registering, -⟩ | ⟨-, gone⟩
    · rcases h.needed before (same.symm.trans tracked) with active | bytes | retiring
      · exact keep (.inl active)
      · exact keep (.inr bytes)
      · simp [(spec.retired retiring).2] at tracked
    · exact keep (h.registering before registering)
    · simp [gone] at tracked
  registering running on := by
    have before := running_before spec.stopped running
    obtain ⟨rfl, active | flying | bytes⟩ := spec.registering on
    · exact .inl active
    · exact .inl (held.active before (by simp [Writer.flying, flying]))
    · exact .inr bytes
  sent on := (spec.sent on).elim id fun ⟨before, same⟩ => same ▸ h.sent before
  left stopped tracked := by
    rcases spec.stopping stopped with before | removing | sent
    · rcases spec.tracked with same | ⟨-, watching⟩ | ⟨-, gone⟩
      · rcases h.left before (same.symm.trans tracked) with
          flying | released | watching | removing | watching | removing
        · exact (spec.inFlight flying).imp_right .inl
        · exact .inr (.inr (.inr (.inr (.inr ((spec.released released).2 before)))))
        · exact .inr (.inr (.inl watching))
        · exact .inr (.inr (.inr (.inl removing)))
        · exact .inr (.inr (.inr (.inr (.inr ((spec.watched watching).resolve_right (by simp [before]))))))
        · simp [spec.removed removing] at tracked
      · exact .inr (.inr (.inr (.inr (.inl watching))))
      · simp [gone] at tracked
    · exact .inr (.inr (.inr (.inr (.inr removing))))
    · exact (spec.inFlight (h.sent sent)).imp_right .inl

theorem Registered.step (h : Registered s) (held : Held cfg s) (moves : step cfg api a s = some t) :
    Registered t := by
  rcases step_cases moves with ⟨move, w, p, -, -, moved, rfl⟩ | ⟨move, w, k, -, moved, rfl⟩ |
    ⟨move, pool, -, -, rfl⟩
  · exact h.producer held (producerStep_registry moved)
  · exact h.worker held (workerStep_registry moved)
  · exact ⟨h.counted, h.producerRemoving, h.workerRemoving, h.present, h.needed, h.registering,
      h.sent, h.left⟩

theorem registered_of_reachable (h : (machine cfg api).Reachable s) : Registered s := by
  refine h.invariant_of (I := Registered) (J := Held cfg) (fun _ => held_of_reachable) ?_
    fun a s t held hs moves => hs.step held moves
  rintro _ ⟨pool, -, rfl⟩
  refine ⟨?_, ?_, ?_, ?_, ?_, ?_, ?_, ?_⟩ <;>
    simp [freshState, Queue.fresh, Queue.bytes, Producer.accounted, Producer.removing, Worker.uncounted,
      Worker.removing, Worker.registering, Worker.sent]

/-- Between the size check of `bbq/put` and the end of `schedule-drain!`. -/
def Producer.submitting : Producer → Bool
  | .put _ _ _ => true
  | p => p.scheduling

/-- Inside a `track-work!` or a refused `schedule-drain!` that has still to look at the stop
or to act on it. -/
def Producer.withdrawing (p : Producer) : Bool := p.watching || p.removing

def Worker.withdrawing (k : Worker) : Bool := k.watching || k.removing

/-- What the worker loop can rely on when it looks at `streaming-work` between two turns. -/
structure Trustworthy (s : State) : Prop where
  pending : s.writer.stopped = false → s.writer.tracked = true → s.writer.pendingWork = true
  seen : s.writer.stopped = false → s.writer.pendingWork = true →
    s.writer.tracked = true ∨ s.producer.submitting = true
  owed : s.writer.stopped = true → s.writer.tracked = true →
    s.writer.inFlight.isSome = true ∧ 0 < s.writer.owed ∨ s.producer.withdrawing = true

theorem Producer.submitting_of_undecided {p : Producer} (h : p.undecided = true) :
    p.submitting = true := by
  cases p <;> simp_all [Producer.undecided, Producer.submitting, Producer.scheduling]

theorem Producer.submitting_of_registering {p : Producer} (h : p.registering = true) :
    p.submitting = true := by
  cases p <;> simp_all [Producer.registering, Producer.submitting, Producer.scheduling]

theorem Producer.submitting_of_accounted {p : Producer} (h : 0 < p.accounted) :
    p.submitting = true := by
  cases p <;> simp_all [Producer.accounted, Producer.submitting]

theorem trustworthy_of_reachable (h : (machine cfg api).Reachable s) (turn : s.worker = .idle) :
    Trustworthy s := by
  have held := held_of_reachable h
  have registered := registered_of_reachable h
  refine ⟨fun running tracked => ?_, fun running pending => ?_, fun stopped tracked => ?_⟩
  · rcases registered.needed running tracked with active | bytes | retiring
    · simp [Writer.pendingWork, active]
    · simp [Writer.pendingWork, bytes]
    · simp [turn, Worker.retiring] at retiring
  · have active (on : s.writer.drainState ≠ .idle) :
        s.writer.tracked = true ∨ s.producer.submitting = true := by
      rcases registered.present running on with tracked | registering | worker | worker
      · exact .inl tracked
      · exact .inr (Producer.submitting_of_registering registering)
      · simp [turn, Worker.rereading] at worker
      · simp [turn, Worker.registering] at worker
    by_cases idle : s.writer.drainState = .idle
    · have unsent : s.writer.inFlight.isSome = false := Bool.eq_false_iff.mpr fun flying =>
        held.active running (by simp [Writer.flying, flying]) idle
      have bytes : 0 < s.writer.queue.queuedBytes := by
        simpa [Writer.pendingWork, idle, unsent] using pending
      rcases held.idle running idle with empty | undecided
      · have counted := registered.counted
        simp only [turn, Worker.uncounted, Queue.bytes, empty, List.map_nil, List.sum_nil] at counted
        exact .inr (Producer.submitting_of_accounted (by omega))
      · exact .inr (Producer.submitting_of_undecided undecided)
    · exact active idle
  · rcases registered.left stopped tracked with flying | released | watching | removing | watching | removing
    · have owed := held.owed
      simp only [turn, Worker.releasing, Worker.sending, Writer.flying, flying, Bool.toNat_true] at owed
      exact .inl ⟨flying, by omega⟩
    · simp [turn, Worker.released] at released
    · exact .inr (by simp [Producer.withdrawing, watching])
    · exact .inr (by simp [Producer.withdrawing, removing])
    · simp [turn, Worker.watching] at watching
    · simp [turn, Worker.removing] at removing

theorem trustworthy_posted : Trustworthy ((machine smallQueue fun _ => true).runFrom
    (putChunk ++ List.replicate 4 (.producer .tick) ++ [.producer (.reply true)])
    (freshState smallQueue emptyPool)) :=
  trustworthy_of_reachable
    ((Machine.Reachable.init (m := machine _ _) ⟨emptyPool, emptyPool_sound, rfl⟩).runFrom _) rfl

/-- The writer is stopped, and registered only while a thread is about to withdraw that. -/
def Withdrawn (s : State) : Prop :=
  s.writer.stopped = true ∧
    (s.writer.tracked = true → s.producer.withdrawing = true ∨ s.worker.withdrawing = true)

theorem Withdrawn.producer {w : Writer} {p : Producer} (h : Withdrawn s)
    (spec : ProducerRegistry s.writer w s.producer p) :
    Withdrawn { s with writer := w, producer := p } := by
  refine ⟨spec.stopped h.1, fun tracked => ?_⟩
  rcases spec.tracked with same | ⟨-, watching⟩ | ⟨-, gone⟩
  · refine (h.2 (same.symm.trans tracked)).imp_left fun withdrawing => ?_
    have removing : p.removing = true := by
      rcases Bool.or_eq_true _ _ ▸ withdrawing with watching | removing
      · exact (spec.watched watching).resolve_right (by simp [h.1])
      · exact (spec.removed removing).resolve_right (by simpa using tracked)
    simp [Producer.withdrawing, removing]
  · exact .inl (by simp [Producer.withdrawing, watching])
  · simp [gone] at tracked

theorem Withdrawn.worker {w : Writer} {k : Worker} (h : Withdrawn s)
    (spec : WorkerRegistry s.writer w s.worker k) :
    Withdrawn { s with writer := w, worker := k } := by
  refine ⟨spec.stopped h.1, fun tracked => ?_⟩
  rcases spec.tracked with same | ⟨-, watching⟩ | ⟨-, gone⟩
  · refine (h.2 (same.symm.trans tracked)).imp_right fun withdrawing => ?_
    rcases Bool.or_eq_true _ _ ▸ withdrawing with watching | removing
    · simp [Worker.withdrawing, (spec.watched watching).resolve_right (by simp [h.1])]
    · simp [spec.removed removing] at tracked
  · exact .inr (by simp [Worker.withdrawing, watching])
  · simp [gone] at tracked

theorem Withdrawn.step (h : Withdrawn s) (moves : step cfg api a s = some t) : Withdrawn t := by
  rcases step_cases moves with ⟨move, w, p, -, -, moved, rfl⟩ | ⟨move, w, k, -, moved, rfl⟩ |
    ⟨move, pool, -, -, rfl⟩
  · exact h.producer (producerStep_registry moved)
  · exact h.worker (workerStep_registry moved)
  · exact h

/-- Once the registration of a stopped writer is withdrawn, no step of either thread brings
it back for longer than the `track-work!` that races with the stop. -/
theorem withdrawn_for_good {schedule : List Action} (stopped : s.writer.stopped = true)
    (withdrawn : s.writer.tracked = false) (moves : (machine cfg api).run schedule s = some t) :
    Withdrawn t :=
  Machine.run_invariant (I := Withdrawn) (fun _ _ _ h moves => h.step moves)
    ⟨stopped, by simp [withdrawn]⟩ moves

/-- A chunk is in the queue and its producer about to schedule a drain when h2o stops. -/
def stoppedWhileScheduling : State :=
  (machine smallQueue fun _ => true).runFrom (putChunk ++ [.worker .stop, .worker .tick, .worker .tick])
    (freshState smallQueue emptyPool)

/-- The producer registers the stopped writer and has still to look. -/
def registeredStopped : State :=
  (machine smallQueue fun _ => true).runFrom (List.replicate 3 (.producer .tick)) stoppedWhileScheduling

theorem withdrawn_registeredStopped :
    Withdrawn registeredStopped ∧ registeredStopped.writer.tracked = true :=
  ⟨@withdrawn_for_good smallQueue (fun _ => true) stoppedWhileScheduling registeredStopped
    (List.replicate 3 (.producer .tick)) rfl rfl rfl, rfl⟩

end Busker.ResponseQueue
