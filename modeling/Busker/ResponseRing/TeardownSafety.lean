import Busker.ResponseRing.Teardown
import Busker.ResponseRing.Guarantees
import Busker.Interleaving.Threads

/-! Tearing the receiver down is safe. A publisher that has the receiver holds the
read lock until it is done with it, and the worker frees it under the write lock. -/

namespace Busker.ResponseRing.Teardown

open Interleaving

variable {g : Geometry} {ι : Type*} {s t : State g ι}

namespace Publisher

/-- Inside a native call on the receiver, or between two of them. -/
def native : Publisher → Bool
  | .claim | .pack | .publish | .abort _ => true
  | _ => false

/-- Has the receiver in hand. -/
def sees : Publisher → Bool
  | .recheckOpen receiver => receiver
  | .claim | .pack | .publish | .abort _ => true
  | _ => false

def readHold : Publisher → ℕ
  | .getReceiver | .recheckOpen _ | .claim | .pack | .publish | .wake | .abort _ | .unlock _ => 1
  | _ => 0

/-- Has found admission closed or the receiver gone. -/
def closedSeen : Publisher → Bool
  | .recheckOpen receiver => !receiver
  | .abort result | .unlock result | .checkClosed result => result == .closed
  | .wakeClosed result | .done result => result == .closed
  | _ => false

/-- Where a call that began after the receiver was freed can be. -/
def outside : Publisher → Bool
  | .idle | .checkOpen => true
  | .done result => result == .closed
  | _ => false

theorem native_readHold {p : Publisher} (h : p.readHold = 0) : p.native = false := by
  cases p <;> simp_all [readHold, native]

theorem sees_readHold {p : Publisher} (h : p.sees = true) : p.readHold = 1 := by
  cases p <;> simp_all [readHold, sees]

end Publisher

namespace Worker

@[simp] def locked : Worker → Bool
  | .getReceiver | .pendingClaimed | .pendingReady | .nativeClose | .nativeAssertClaimed => true
  | .nativeAssertReady | .nativeFree | .clear | .unlock => true
  | _ => false

/-- Uses the receiver in its next step, or has it in hand. -/
@[simp] def touches : Worker → Bool
  | .exchangeClaimed | .exchangeReady | .drain | .pendingClaimed | .pendingReady => true
  | .nativeClose | .nativeAssertClaimed | .nativeAssertReady | .nativeFree => true
  | _ => false

/-- Has seen nothing pending and goes on to free the receiver. -/
@[simp] def destroying : Worker → Bool
  | .nativeClose | .nativeAssertClaimed | .nativeAssertReady | .nativeFree => true
  | _ => false

end Worker

variable [Fintype ι]

structure Safe (s : State g ι) : Prop where
  ring : ∀ i, (s.publishers i).native = false → s.native.claimants i = .idle
  drainer : s.native.drainer ≠ .idle → s.worker = .drain
  readers : s.readHolds = census Publisher.readHold s.publishers
  writer : s.writeHeld = s.worker.locked
  exclusive : s.writeHeld = true → s.readHolds = 0
  closing : s.worker.locked = true ∨ s.worker = .tryLock → s.receiverOpen = false
  gone : s.alive = false → s.receiverOpen = false
  closedSeen : ∀ i, (s.publishers i).closedSeen = true → s.receiverOpen = false
  receiver : s.alive = (s.receiver && decide (s.worker ≠ .clear))
  reading : ∀ i, (s.publishers i).sees = true → s.alive = true
  touching : s.worker.touches = true → s.alive = true
  quiet : s.worker.destroying = true → s.native.ring.ringReady = 0
  freed : s.alive = false → ∀ k, s.native.ring.state k = .free
  once : s.destroyed = if s.alive then 0 else 1
  faultless : s.useAfterFree = false ∧ s.assertionFailed = false
  late : ∀ i, s.late i = true → s.alive = false ∧ (s.publishers i).outside = true

variable [DecidableEq ι]

/-- What one step of publisher `i` can do. -/
inductive PublisherEffect (s t : State g ι) (i : ι) (p : Publisher) : Prop
  | move (q : Publisher) (moves : t = s.setPublisher i q) (holds : q.readHold = p.readHold)
      (before : p.native = false) (after : q.native = false)
      (sees : q.sees = true → s.receiver = true ∧ p.readHold = 1)
      (closed : q.closedSeen = true → p.closedSeen = true ∨ s.receiverOpen = false ∨
        s.writeHeld = true ∨ s.receiver = false)
      (late : p.outside = true → s.receiverOpen = false → q.outside = true)
  | call (was : p = .idle) (moves : t = { s.setPublisher i .checkOpen with
      late := Function.update s.late i !s.alive })
  | acquire (was : p = .tryLock) (free : s.writeHeld = false) (moves : t =
      { s.setPublisher i .getReceiver with readHolds := s.readHolds + 1 })
  | release (result : Result) (was : p = .unlock result) (moves : t =
      { s.setPublisher i (.checkClosed result) with readHolds := s.readHolds - 1 })
  | native (q : Publisher) (move : Move) (n : ResponseRing.State g ι)
      (step : ResponseRing.step (.claimant i move) s.native = some n) (sees : p.sees = true)
      (holds : q.readHold = 1) (closed : q.closedSeen = true → p.closedSeen = true)
      (idle : q.native = false → n.claimants i = .idle)
      (moves : t = { s.setPublisher i q with
        native := n
        useAfterFree := s.useAfterFree || !s.alive })

theorem nativeStep_effect {i : ι} {p : Publisher} {move : Move} {next : Claimant g → Publisher}
    (h : nativeStep s i move next = some t) (sees : p.sees = true)
    (holds : ∀ c, (next c).readHold = 1)
    (closed : ∀ c, (next c).closedSeen = true → p.closedSeen = true)
    (idle : ∀ c, (next c).native = false → c = .idle) : PublisherEffect s t i p := by
  obtain ⟨u, native, rfl⟩ := Option.map_eq_some_iff.mp h
  obtain ⟨n, step, rfl⟩ := Option.map_eq_some_iff.mp native
  exact .native _ move n step sees (holds _) (closed _) (idle _) rfl

theorem publisherStep_effect {i : ι} {p : Publisher} {move : PublisherMove}
    (h : publisherStep s i p move = some t) : PublisherEffect s t i p := by
  unfold publisherStep at h
  split at h
  case h_1 => exact .call rfl (Option.some.inj h).symm
  case h_3 =>
    split at h
    · obtain rfl := Option.some.inj h
      exact .move _ rfl rfl rfl rfl (by simp [Publisher.sees]) (by simp_all) (by simp [Publisher.outside])
    · split at h <;> obtain rfl := Option.some.inj h
      · exact .move _ rfl rfl rfl rfl (by simp [Publisher.sees]) (by simp [Publisher.closedSeen])
          (by simp [Publisher.outside])
      · exact .acquire rfl (by simp_all) rfl
  case h_5 receiver =>
    split at h
    · cases receiver
      case false => simp_all
      case true =>
        exact nativeStep_effect h rfl (fun _ => rfl) (fun _ => by simp [Publisher.closedSeen])
          fun _ => by simp [Publisher.native]
    · obtain rfl := Option.some.inj h
      exact .move _ rfl rfl rfl rfl (by simp [Publisher.sees])
        (by cases receiver <;> simp_all [Publisher.closedSeen]) (by simp [Publisher.outside])
  case h_6 | h_7 | h_8 | h_9 | h_10 =>
    refine nativeStep_effect h rfl (fun c => ?_) (fun c => ?_) (fun c => ?_) <;>
      (try cases c) <;> simp [afterClaim, afterPublish, Publisher.readHold, Publisher.closedSeen,
        Publisher.native]
  case h_13 result =>
    refine nativeStep_effect h rfl (fun c => ?_) (fun c => ?_) (fun c => ?_) <;> cases c <;>
      cases result <;> simp [afterAbort, Publisher.readHold, Publisher.closedSeen, Publisher.native]
  case h_14 result => exact .release result rfl (Option.some.inj h).symm
  case h_19 => contradiction
  all_goals
    obtain rfl := Option.some.inj h
    refine .move _ rfl ?_ rfl ?_ ?_ ?_ ?_ <;> (try split) <;>
      simp_all [Publisher.readHold, Publisher.native, Publisher.sees, Publisher.closedSeen,
        Publisher.outside]

theorem claimant_frame {i : ι} {move : Move} {n n' : ResponseRing.State g ι}
    (h : ResponseRing.step (.claimant i move) n = some n') :
    n'.drainer = n.drainer ∧ ∀ j, j ≠ i → n'.claimants j = n.claimants j := by
  obtain ⟨⟨r, q⟩, -, rfl⟩ := Option.map_eq_some_iff.mp h
  exact ⟨rfl, fun j hj => Function.update_of_ne hj _ _⟩

omit [DecidableEq ι] in
theorem Safe.closed (h : Safe s) {p : Publisher} {i : ι} (at_i : s.publishers i = p)
    (seen : p.closedSeen = true ∨ s.receiverOpen = false ∨ s.writeHeld = true ∨
      s.receiver = false) : s.receiverOpen = false := by
  rcases seen with seen | shut | held | gone
  · exact h.closedSeen i (at_i ▸ seen)
  · exact shut
  · exact h.closing (.inl (h.writer ▸ held))
  · exact h.gone (by rw [h.receiver, gone]; rfl)

omit [DecidableEq ι] in
/-- A publisher with the read lock keeps the worker out of its critical section. -/
theorem Safe.unlocked (h : Safe s) {i : ι} (holds : (s.publishers i).readHold = 1) :
    s.worker.locked = false := by
  have one := le_census Publisher.readHold s.publishers i
  cases locked : s.worker.locked
  · rfl
  · have := h.exclusive (h.writer.trans locked)
    have := h.readers
    omega

theorem Safe.publisher {i : ι} (h : Safe s)
    (effect : PublisherEffect s t i (s.publishers i)) : Safe t := by
  cases effect with
  | move q moves holds before after sees closed late =>
    subst moves
    refine { h with
      ring := forall_update (P := fun j (p : Publisher) => p.native = false → s.native.claimants j = .idle)
        h.ring fun _ => h.ring i before
      readers := h.readers.trans (census_update_same holds).symm
      closedSeen := forall_update (P := fun _ (p : Publisher) => p.closedSeen = true → s.receiverOpen = false)
        h.closedSeen fun seen => h.closed rfl (closed seen)
      reading := forall_update (P := fun _ (p : Publisher) => p.sees = true → s.alive = true)
        h.reading fun seen => ?_
      late := forall_update
        (P := fun j (p : Publisher) => s.late j = true → s.alive = false ∧ p.outside = true) h.late fun was => ?_ }
    · have outside : s.worker ≠ .clear := by
        intro cleared
        simpa [cleared, Worker.locked] using h.unlocked (sees seen).2
      simp [h.receiver, (sees seen).1, outside]
    · obtain ⟨dead, outside⟩ := h.late i was
      exact ⟨dead, late outside (h.gone dead)⟩
  | call was moves =>
    subst moves
    refine { h with
      ring := forall_update (P := fun j (p : Publisher) => p.native = false → s.native.claimants j = .idle)
        h.ring fun _ => h.ring i (by rw [was]; rfl)
      readers := h.readers.trans (census_update_same (by rw [was]; rfl)).symm
      closedSeen := forall_update (P := fun _ (p : Publisher) => p.closedSeen = true → s.receiverOpen = false)
        h.closedSeen fun seen => by simp [Publisher.closedSeen] at seen
      reading := forall_update (P := fun _ (p : Publisher) => p.sees = true → s.alive = true)
        h.reading fun seen => by simp [Publisher.sees] at seen
      late := fun j was => ?_ }
    by_cases hj : j = i
    · subst hj
      simp only [Function.update_self, Bool.not_eq_true'] at was
      exact ⟨was, by simp [State.setPublisher, Publisher.outside]⟩
    · simp only [Function.update_of_ne hj] at was
      simpa [State.setPublisher, hj] using h.late j was
  | acquire was free moves =>
    subst moves
    have moved := census_update Publisher.readHold s.publishers i .getReceiver
    rw [was] at moved
    refine { h with
      ring := forall_update (P := fun j (p : Publisher) => p.native = false → s.native.claimants j = .idle)
        h.ring fun _ => h.ring i (by rw [was]; rfl)
      readers := (congrArg (· + 1) h.readers).trans moved.symm
      exclusive := fun held => ?_
      closedSeen := forall_update (P := fun _ (p : Publisher) => p.closedSeen = true → s.receiverOpen = false)
        h.closedSeen fun seen => by simp [Publisher.closedSeen] at seen
      reading := forall_update (P := fun _ (p : Publisher) => p.sees = true → s.alive = true)
        h.reading fun seen => by simp [Publisher.sees] at seen
      late := forall_update
        (P := fun j (p : Publisher) => s.late j = true → s.alive = false ∧ p.outside = true) h.late fun late => ?_ }
    · simp [State.setPublisher, free] at held
    · simpa [was, Publisher.outside] using h.late i late
  | release result was moves =>
    subst moves
    have moved := census_update Publisher.readHold s.publishers i (.checkClosed result)
    rw [was] at moved
    refine { h with
      ring := forall_update (P := fun j (p : Publisher) => p.native = false → s.native.claimants j = .idle)
        h.ring fun _ => h.ring i (by rw [was]; rfl)
      readers := ?_
      exclusive := fun held => ?_
      closedSeen := forall_update (P := fun _ (p : Publisher) => p.closedSeen = true → s.receiverOpen = false)
        h.closedSeen fun seen => h.closedSeen i (by rw [was]; exact seen)
      reading := forall_update (P := fun _ (p : Publisher) => p.sees = true → s.alive = true)
        h.reading fun seen => by simp [Publisher.sees] at seen
      late := forall_update
        (P := fun j (p : Publisher) => s.late j = true → s.alive = false ∧ p.outside = true) h.late fun late => ?_ }
    · have readers := h.readers
      simp only [Publisher.readHold] at moved
      simp only [State.setPublisher]
      omega
    · have := h.exclusive held
      simp [this]
    · simpa [was, Publisher.outside] using h.late i late
  | native q move n step sees holds closed idle moves =>
    subst moves
    have alive := h.reading i sees
    obtain ⟨drainer, others⟩ := claimant_frame step
    refine { h with
      ring := fun j hj => ?_
      drainer := drainer ▸ h.drainer
      readers := h.readers.trans
        (census_update_same (holds.trans (Publisher.sees_readHold sees).symm)).symm
      closedSeen := forall_update (P := fun _ (p : Publisher) => p.closedSeen = true → s.receiverOpen = false)
        h.closedSeen fun seen => h.closedSeen i (closed seen)
      reading := forall_update (P := fun _ (p : Publisher) => p.sees = true → s.alive = true)
        h.reading fun _ => alive
      quiet := fun destroying => ?_
      freed := fun dead => ?_
      faultless := ⟨by simp [h.faultless.1, alive], h.faultless.2⟩
      late := forall_update
        (P := fun j (p : Publisher) => s.late j = true → s.alive = false ∧ p.outside = true) h.late fun late => ?_ }
    · by_cases hji : j = i
      · subst hji
        exact idle (by simpa [State.setPublisher] using hj)
      · simp only [others j hji]
        exact h.ring j (by simpa [State.setPublisher, hji] using hj)
    · have unlocked := h.unlocked (Publisher.sees_readHold sees)
      cases worker : s.worker <;> simp_all [State.setPublisher, Worker.destroying, Worker.locked]
    · simp [State.setPublisher, alive] at dead
    · have dead := (h.late i late).1
      simp [alive] at dead

omit [DecidableEq ι] in
theorem Safe.idle_of_locked (h : Safe s) (locked : s.worker.locked = true) (i : ι) :
    s.native.claimants i = .idle ∧ (s.publishers i).sees = false := by
  have none := h.exclusive (h.writer.trans locked)
  have one := le_census Publisher.readHold s.publishers i
  have readers := h.readers
  have free : (s.publishers i).readHold = 0 := by omega
  refine ⟨h.ring i (Publisher.native_readHold free), ?_⟩
  by_contra sees
  have := Publisher.sees_readHold (Bool.eq_true_of_not_eq_false sees)
  omega

omit [DecidableEq ι] in
/-- The worker goes elsewhere and changes nothing else. -/
theorem Safe.moveWorker (h : Safe s) (q : Worker) (locked : q.locked = s.worker.locked)
    (closing : q = .tryLock → s.receiverOpen = false) (before : s.worker ≠ .clear)
    (after : q ≠ .clear) (touches : q.touches = true → s.alive = true)
    (quiet : q.destroying = true → s.native.ring.ringReady = 0)
    (drainer : s.worker = .drain → s.native.drainer = .idle) : Safe { s with worker := q } :=
  { h with
    drainer := fun busy => absurd (drainer (h.drainer busy)) busy
    writer := h.writer.trans locked.symm
    closing := fun hq => hq.elim (fun held => h.closing (.inl (locked ▸ held))) closing
    receiver := by simpa [before, after] using h.receiver
    touching := touches
    quiet := quiet }

omit [DecidableEq ι] in
/-- The worker runs native code on a receiver that is still there. -/
theorem Safe.native (h : Safe s) (alive : s.alive = true) {n : ResponseRing.State g ι}
    (claimants : n.claimants = s.native.claimants)
    (drainer : n.drainer ≠ .idle → s.worker = .drain)
    (quiet : s.worker.destroying = true → n.ring.ringReady = 0) :
    Safe { s with native := n, useAfterFree := s.useAfterFree || !s.alive } :=
  { h with
    ring := fun i hi => (congrFun claimants i).trans (h.ring i hi)
    drainer := drainer
    quiet := quiet
    freed := fun dead => by simp [alive] at dead
    faultless := ⟨by simp [h.faultless.1, alive], h.faultless.2⟩ }

theorem observe_frame {n n' : ResponseRing.State g ι}
    (h : ResponseRing.step .observe n = some n') :
    n'.ring = n.ring ∧ n'.claimants = n.claimants ∧ n'.drainer = n.drainer := by
  simp only [ResponseRing.step] at h
  split at h <;> obtain rfl := Option.some.inj h <;> exact ⟨rfl, rfl, rfl⟩

theorem Safe.observe (h : Safe s) (alive : s.alive = true) {n : ResponseRing.State g ι}
    (step : ResponseRing.step .observe s.native = some n) :
    Safe { s with native := n, useAfterFree := s.useAfterFree || !s.alive } := by
  obtain ⟨ring, claimants, drainer⟩ := observe_frame step
  exact h.native alive claimants (drainer ▸ h.drainer) (ring ▸ h.quiet)

theorem Safe.worker {move : WorkerMove} (h : Safe s) (owned : Owned s.native)
    (counted : Counted s.native) (moves : workerStep s s.worker move = some t) : Safe t := by
  have alive := h.touching
  have receiver := h.receiver
  generalize at_w : s.worker = w at moves
  unfold workerStep at moves
  split at moves
  case h_1 | h_9 =>
    obtain rfl := Option.some.inj moves
    split <;> exact h.moveWorker _ (by simp [at_w]) (by simp) (by simp [at_w]) (by simp)
      (by simp_all) (by simp) (by simp [at_w])
  case h_2 | h_3 | h_10 =>
    obtain ⟨u, called, rfl⟩ := Option.map_eq_some_iff.mp moves
    obtain ⟨n, step, rfl⟩ := Option.map_eq_some_iff.mp called
    have seen := h.observe (alive (by simp [at_w])) step
    exact seen.moveWorker _ (by simp [at_w]) (by simp) (by simp [at_w]) (by simp)
      (by simp [alive, at_w]) (by simp) (by simp [at_w])
  case h_4 =>
    split at moves
    · rename_i there
      obtain ⟨u, called, rfl⟩ := Option.map_eq_some_iff.mp moves
      obtain ⟨n, step, rfl⟩ := Option.map_eq_some_iff.mp called
      have moved := h.moveWorker .drain (by simp [at_w]) (by simp) (by simp [at_w]) (by simp)
        (by simp_all) (by simp) (by simp [at_w])
      obtain ⟨_, -, rfl⟩ := Option.map_eq_some_iff.mp step
      exact moved.native (by simp_all) rfl (fun _ => rfl) (by simp)
    · obtain rfl := Option.some.inj moves
      exact h
  case h_5 =>
    obtain ⟨u, called, rfl⟩ := Option.map_eq_some_iff.mp moves
    obtain ⟨n, step, rfl⟩ := Option.map_eq_some_iff.mp called
    obtain ⟨⟨r, d⟩, -, rfl⟩ := Option.map_eq_some_iff.mp step
    have drained := h.native (alive (by simp [at_w])) (n := { s.native with ring := r, drainer := d })
      rfl (fun _ => at_w) (by simp [at_w])
    have target : Safe { s with
        native := { s.native with ring := r, drainer := d }
        useAfterFree := s.useAfterFree || !s.alive
        worker := if d = .idle then .idle else .drain } := by
      split
      · rename_i rest
        exact drained.moveWorker _ (by simp [at_w]) (by simp) (by simp [at_w]) (by simp)
          (by simp) (by simp) (fun _ => rest)
      · rw [at_w] at drained
        exact drained
    exact target
  case h_6 =>
    obtain rfl := Option.some.inj moves
    exact h.moveWorker _ (by simp [at_w]) (by simp) (by simp [at_w]) (by simp) (by simp) (by simp)
      (by simp [at_w])
  case h_7 =>
    obtain rfl := Option.some.inj moves
    exact { h with
      drainer := fun busy => by simpa [at_w] using h.drainer busy
      writer := h.writer.trans (by simp [at_w])
      closing := fun _ => rfl
      gone := fun _ => rfl
      closedSeen := fun _ _ => rfl
      receiver := by simpa [at_w] using receiver
      touching := by simp
      quiet := by simp }
  case h_8 =>
    have shut := h.closing (.inr at_w)
    split at moves <;> obtain rfl := Option.some.inj moves
    · rename_i none
      exact { h with
        drainer := fun busy => by simpa [at_w] using h.drainer busy
        writer := rfl
        exclusive := fun _ => none
        closing := fun _ => shut
        receiver := by simpa [at_w] using receiver
        touching := by simp
        quiet := by simp }
    · exact h.moveWorker _ (by simp [at_w]) (by simp) (by simp [at_w]) (by simp) (by simp) (by simp)
        (by simp [at_w])
  case h_11 =>
    obtain ⟨u, called, rfl⟩ := Option.map_eq_some_iff.mp moves
    obtain ⟨n, step, rfl⟩ := Option.map_eq_some_iff.mp called
    have alive := alive (by simp [at_w])
    have seen := h.observe alive step
    have ring := (observe_frame step).1
    split
    · rename_i zero
      have none : s.native.ring.ringReady = 0 := by
        unfold pendingResult at zero
        split at zero <;> simp_all
      exact seen.moveWorker _ (by simp [at_w]) (by simp) (by simp [at_w]) (by simp)
        (fun _ => alive) (fun _ => ring ▸ none) (by simp [at_w])
    · exact seen.moveWorker _ (by simp [at_w]) (by simp) (by simp [at_w]) (by simp)
        (by simp) (by simp) (by simp [at_w])
  case h_12 =>
    obtain ⟨u, called, rfl⟩ := Option.map_eq_some_iff.mp moves
    obtain ⟨n, step, rfl⟩ := Option.map_eq_some_iff.mp called
    obtain rfl := Option.some.inj step
    have alive := alive (by simp [at_w])
    have quiet := h.quiet (by simp [at_w])
    have closed := h.native alive
      (n := { s.native with ring := { s.native.ring with acceptsResponses := false } })
      rfl h.drainer h.quiet
    exact closed.moveWorker .nativeAssertClaimed (by simp [at_w]) (by simp) (by simp [at_w])
      (by simp) (fun _ => alive) (fun _ => quiet) (by simp [at_w])
  case h_13 | h_14 =>
    obtain rfl := Option.some.inj moves
    have alive := alive (by simp [at_w])
    have quiet := h.quiet (by simp [at_w])
    have claimed : s.native.ring.ringClaimed = 0 := by
      rw [counted.claimed, census_eq_zero]
      exact fun i => by rw [(h.idle_of_locked (by simp [at_w]) i).1]; rfl
    exact { h with
      drainer := fun busy => by simpa [at_w] using h.drainer busy
      writer := h.writer.trans (by simp [at_w])
      closing := fun _ => h.closing (by simp [at_w])
      receiver := by simpa [at_w] using receiver
      touching := fun _ => alive
      quiet := fun _ => quiet
      faultless := ⟨by simp [h.faultless.1, alive], by simp [h.faultless.2, claimed, quiet]⟩ }
  case h_15 =>
    obtain rfl := Option.some.inj moves
    have alive := alive (by simp [at_w])
    have shut := h.closing (.inl (by simp [at_w]))
    have outside := h.idle_of_locked (by simp [at_w])
    exact { h with
      drainer := fun busy => by simpa [at_w] using h.drainer busy
      writer := h.writer.trans (by simp [at_w])
      closing := fun _ => shut
      gone := fun _ => shut
      receiver := by simp
      reading := fun i sees => by simp [(outside i).2] at sees
      touching := by simp
      quiet := by simp
      freed := fun _ => free_of_quiet owned counted (fun i => (outside i).1) (h.quiet (by simp [at_w]))
      once := by simp [h.once, alive]
      faultless := ⟨by simp [h.faultless.1, alive], h.faultless.2⟩
      late := fun i late => ⟨rfl, (h.late i late).2⟩ }
  case h_16 =>
    obtain rfl := Option.some.inj moves
    exact { h with
      drainer := fun busy => by simpa [at_w] using h.drainer busy
      writer := h.writer.trans (by simp [at_w])
      closing := fun _ => h.closing (.inl (by simp [at_w]))
      receiver := by simpa [at_w] using receiver
      touching := by simp
      quiet := by simp }
  case h_17 =>
    obtain rfl := Option.some.inj moves
    exact { h with
      drainer := fun busy => by simpa [at_w] using h.drainer busy
      writer := rfl
      exclusive := by simp
      closing := by simp
      receiver := by simpa [at_w] using receiver
      touching := by simp
      quiet := by simp }
  case h_18 => contradiction

theorem publisherStep_native {i : ι} {p : Publisher} (effect : PublisherEffect s t i p) :
    t.native = s.native ∨ ∃ a, ResponseRing.step a s.native = some t.native := by
  cases effect with
  | move q moves | call was moves | acquire was free moves | release result was moves =>
    exact .inl (by rw [moves]; rfl)
  | native q move n step sees holds closed idle moves =>
    exact .inr ⟨_, by rw [step, moves]⟩

theorem workerStep_native {w : Worker} {move : WorkerMove} (h : workerStep s w move = some t) :
    t.native = s.native ∨ ∃ a, ResponseRing.step a s.native = some t.native := by
  have called : ∀ {a} {f : State g ι → State g ι}, (s.callNative a).map f = some t →
      (∀ u, (f u).native = u.native) → ∃ a, ResponseRing.step a s.native = some t.native := by
    intro a f h keeps
    obtain ⟨u, called, rfl⟩ := Option.map_eq_some_iff.mp h
    obtain ⟨n, step, rfl⟩ := Option.map_eq_some_iff.mp called
    exact ⟨a, by rw [keeps, step]⟩
  unfold workerStep at h
  split at h
  case h_2 | h_3 | h_5 | h_10 | h_11 | h_12 => exact .inr (called h fun _ => rfl)
  case h_4 =>
    split at h
    · exact .inr (called h fun _ => rfl)
    · exact .inl (by rw [← Option.some.inj h])
  case h_8 => split at h <;> exact .inl (by rw [← Option.some.inj h])
  case h_18 => contradiction
  all_goals exact .inl (by rw [← Option.some.inj h])

/-- Seen from the native ring, teardown is a run of the slot protocol. -/
def ringSimulation (g : Geometry) (ι : Type*) [Fintype ι] [DecidableEq ι] :
    Simulation (machine g ι) (ResponseRing.machine g ι) where
  view := State.native
  init := fun _ h => h.1
  step := fun a _ _ _ moves => by
    cases a with
    | publisher i move => exact publisherStep_native (publisherStep_effect moves)
    | worker move => exact workerStep_native moves

theorem Safe.init (h : (machine g ι).init s) : Safe s := by
  obtain ⟨⟨fresh, idle, rest, -⟩, isOpen, receiver, holds, unlocked, outside, worker, alive,
    destroyed, use, assertion, late⟩ := h
  refine
    { ring := fun i _ => idle i
      drainer := fun busy => absurd rest busy
      readers := holds.trans (census_eq_zero.mpr fun i => by rw [outside i]; rfl).symm
      writer := by simp [unlocked, worker]
      exclusive := fun _ => holds
      closing := by simp [worker]
      gone := by simp [alive]
      closedSeen := fun i seen => by simp [outside i, Publisher.closedSeen] at seen
      receiver := by simp [alive, receiver, worker]
      reading := fun _ _ => alive
      touching := fun _ => alive
      quiet := by simp [worker]
      freed := by simp [alive]
      once := by simp [destroyed, alive]
      faultless := ⟨use, assertion⟩
      late := fun i was => by simp [late i] at was }

theorem safe_of_reachable (h : (machine g ι).Reachable s) : Safe s := by
  refine h.invariant_of (I := Safe) (J := (machine g ι).Reachable) (fun _ hs => hs)
    (fun _ => Safe.init) ?_
  intro a s t reached safe moves
  have ring := (ringSimulation g ι).reachable reached
  cases a with
  | publisher i move => exact safe.publisher (publisherStep_effect moves)
  | worker move => exact safe.worker (owned_of_reachable ring) (ledger_of_reachable ring).1 moves

/-- What teardown promises: to native code, to the claims and to callers. -/
structure TeardownSafe (s : State g ι) : Prop where
  neverUsedAfterFree : s.useAfterFree = false
  destroyedOnce : s.destroyed ≤ 1
  assertionsHold : s.assertionFailed = false
  destroyedFree : s.worker.destroying = true → ∀ k, s.native.ring.state k = .free
  claimedInside : ∀ k, s.native.ring.state k = .claimed →
    ∃ i, (s.publishers i).native = true ∧ (s.native.claimants i).slot = some k
  settled : ∀ c < s.native.ring.claimSequence,
    s.native.ring.history.published.count c + s.native.ring.history.aborted.count c = 1 ∨
      ∃ i, (s.publishers i).native = true ∧ heldAs s.native.ring c (s.native.claimants i) = 1
  closedAfterAdmission : ∀ i, s.publishers i = .done .closed → s.receiverOpen = false
  closedAfterDestroy : ∀ i result, s.late i = true → s.publishers i = .done result →
    result = .closed
  returnsAfterDestroy : ∀ i, s.late i = true → s.publishers i = .checkOpen →
    step (.publisher i .tick) s = some (s.setPublisher i (.done .closed))

theorem teardownSafe_of_reachable (h : (machine g ι).Reachable s) : TeardownSafe s := by
  have safe := safe_of_reachable h
  have ring := (ringSimulation g ι).reachable h
  have owned : Owned s.native := owned_of_reachable ring
  obtain ⟨counted, recorded, -⟩ : Counted s.native ∧ Recorded s.native ∧ Settled s.native :=
    ledger_of_reachable ring
  have inside : ∀ i, s.native.claimants i ≠ .idle → (s.publishers i).native = true := by
    intro i busy
    by_contra outside
    exact busy (safe.ring i (Bool.eq_false_of_not_eq_true outside))
  refine
    { neverUsedAfterFree := safe.faultless.1
      destroyedOnce := by rw [safe.once]; split <;> omega
      assertionsHold := safe.faultless.2
      destroyedFree := fun destroying => ?_
      claimedInside := fun k claimed => ?_
      settled := fun c given => ?_
      closedAfterAdmission := fun i done => safe.closedSeen i (by rw [done]; rfl)
      closedAfterDestroy := fun i result late done => ?_
      returnsAfterDestroy := fun i late at_i => ?_ }
  · have locked : s.worker.locked = true := by
      cases worker : s.worker <;> simp_all
    exact free_of_quiet owned counted (fun i => (safe.idle_of_locked locked i).1)
      (safe.quiet destroying)
  · obtain ⟨i, own⟩ := (owned.claimed k).mp claimed
    exact ⟨i, inside i (fun idle => by simp [idle, Claimant.slot] at own), own⟩
  · have claims := recorded.claims c
    rw [made, if_pos given] at claims
    by_cases held : census (heldAs s.native.ring c) s.native.claimants = 0
    · exact .inl (by omega)
    · obtain ⟨i, hi⟩ := not_forall.mp (mt census_eq_zero.mpr held)
      refine .inr ⟨i, inside i (fun idle => hi (by rw [idle]; exact heldAs_slot_none rfl)), ?_⟩
      unfold heldAs at hi ⊢
      split_ifs at hi ⊢
      · rfl
      · exact absurd rfl hi
  · simpa [done, Publisher.outside] using (safe.late i late).2
  · have shut := safe.gone (safe.late i late).1
    simp [step, at_i, publisherStep, shut]

/-- A response published while the worker first tries to destroy the receiver; it is
drained before a second attempt succeeds, and a later publish finds it closed. -/
def closeWhilePublishing : List (Action Bool) :=
  List.flatten [[.publisher false .call], List.replicate 11 (.publisher false .tick),
    [.publisher false (.write { emptySlot with moduleId := 7, requestSeq := 1, status := 200 }),
      .publisher false .packed], List.replicate 5 (.publisher false .tick),
    [.worker .destroy, .worker .tick, .worker .tick], List.replicate 3 (.publisher false .tick),
    [.worker (.drain .drain), .worker (.drain .tick), .worker (.drain .tick),
      .worker (.drain (.send true))], List.replicate 4 (.worker (.drain .tick)),
    [.worker .destroy], List.replicate 11 (.worker .tick),
    [.publisher true .call, .publisher true .tick]]

def openState (g : Geometry) (ι : Type*) : State g ι :=
  ⟨idleState g ι, true, true, 0, false, fun _ => .idle, .idle, true, 0, false, false, fun _ => false⟩

theorem openState_init : (machine g ι).init (openState g ι) :=
  ⟨idleState_init, rfl, rfl, rfl, rfl, fun _ => rfl, rfl, rfl, rfl, rfl, rfl, fun _ => rfl⟩

def closedDown : State twoSlots Bool :=
  (machine twoSlots Bool).runFrom closeWhilePublishing (openState _ _)

theorem teardownSafe_closeWhilePublishing : closedDown.destroyed = 1 ∧
    closedDown.publishers false = .done .accepted ∧ closedDown.publishers true = .done .closed ∧
    TeardownSafe closedDown :=
  ⟨by decide +kernel, by decide +kernel, by decide +kernel,
    teardownSafe_of_reachable ((Machine.Reachable.init openState_init).runFrom _)⟩

end Busker.ResponseRing.Teardown
