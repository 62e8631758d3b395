import Busker.Evloop.Loop
import Busker.Interleaving.Census

/-! A graceful stop and the messages admitted before it. Closing admission and
waiting for the admissions in progress leaves nobody able to offer, so a worker
that then finds its mailbox empty has handled everything. The worker polls its
mailbox before it reads `stop-requested?_`, and a stop request that is completed
in between, after one more message, leaves that message behind. -/

namespace Busker.Evloop

open Interleaving

variable {ι μ : Type*}

namespace Client

/-- What the thread still has to take off `admissions_`. -/
def inside : Client μ → ℕ
  | .acceptingAgain _ _ | .offer _ _ | .leave _ _ _ => 1
  | _ => 0

def offering : Client μ → Bool
  | .offer _ _ => true
  | _ => false

/-- Has closed admission itself and not yet set `stop-requested?_`. -/
def stopping : Client μ → Bool
  | .stopSpace _ | .stopSpin | .stopSet => true
  | _ => false

def settingStop : Client μ → Bool
  | .stopSet => true
  | _ => false

end Client

namespace Loop

/-- The message the worker has polled and not yet handled. -/
def inHand : Loop μ → List μ
  | .handle _ msg | .markRead _ msg | .markSwap _ msg _ => [msg]
  | _ => []

/-- Between the second empty poll and the read of `stop-requested?_`. -/
def readingStop : Loop μ → Bool
  | .readStop _ _ => true
  | _ => false

def stopping : Loop μ → Bool
  | .clearRunning _ _ => true
  | _ => false

end Loop

/-- What a calling thread's step does to admission, the mailbox and the stop flag. -/
structure AdmissionSpec (w v : Worker ι μ) (p q : Client μ) : Prop where
  running : v.running = w.running
  handled : v.handled = w.handled
  admissions : p.inside ≤ w.admissions → v.admissions + p.inside = w.admissions + q.inside
  accepting : w.accepting = false → v.accepting = false
  requested : w.stopRequested = true → v.stopRequested = true
  requests : v.stopRequested = true → w.stopRequested = true ∨ p.settingStop = true
  mailbox : v.mailbox = w.mailbox ∧ v.offered = w.offered ∨
    p.offering = true ∧ ∃ msg, v.mailbox = w.mailbox ++ [msg] ∧ v.offered = w.offered ++ [msg]
  offering : q.offering = true → w.accepting = true
  stopping : q.stopping = true → p.stopping = true ∨ v.accepting = false
  settingStop : q.settingStop = true → p.stopping = true ∧ w.admissions = 0

/-- What `wake` and `signal-mailbox-space!` leave alone. -/
structure AdmissionFrame (w v : Worker ι μ) : Prop where
  running : v.running = w.running
  accepting : v.accepting = w.accepting
  stopRequested : v.stopRequested = w.stopRequested
  admissions : v.admissions = w.admissions
  mailbox : v.mailbox = w.mailbox
  offered : v.offered = w.offered
  handled : v.handled = w.handled

theorem wakeStep_admission (w : Worker ι μ) (point : Wake) :
    AdmissionFrame w (wakeStep w point).1 := by
  cases point <;> simp only [wakeStep] <;> (try split) <;> exact ⟨rfl, rfl, rfl, rfl, rfl, rfl, rfl⟩

theorem spaceStep_admission {me : Option ι} {w v : Worker ι μ} {point : Space} {next : Option Space}
    (h : spaceStep me w point = some (v, next)) : AdmissionFrame w v := by
  cases point <;> simp only [spaceStep] at h <;> (try split at h) <;>
    simp only [Option.some.injEq, Prod.mk.injEq, reduceCtorEq] at h <;>
    obtain ⟨rfl, -⟩ := h <;> exact ⟨rfl, rfl, rfl, rfl, rfl, rfl, rfl⟩

theorem AdmissionFrame.spec {w v : Worker ι μ} {p q : Client μ} (h : AdmissionFrame w v)
    (inside : q.inside = p.inside) (offering : q.offering = true → w.accepting = true)
    (stopping : q.stopping = true → p.stopping = true)
    (settingStop : q.settingStop = true → p.stopping = true ∧ w.admissions = 0) :
    AdmissionSpec w v p q where
  running := h.running
  handled := h.handled
  admissions := fun _ => by rw [h.admissions, inside]
  accepting := fun shut => h.accepting.trans shut
  requested := fun set => h.stopRequested.trans set
  requests := fun set => .inl (h.stopRequested.symm.trans set)
  mailbox := .inl ⟨h.mailbox, h.offered⟩
  offering := offering
  stopping := fun on => .inl (stopping on)
  settingStop := settingStop

theorem lockStep_admission {i : ι} {w v : Worker ι μ} {next q : Client μ}
    (h : lockStep i w next = some (v, q)) : AdmissionFrame w v ∧ q = next := by
  unfold lockStep at h
  split at h
  · obtain ⟨rfl, rfl⟩ := Prod.mk.inj (Option.some.inj h)
    exact ⟨⟨rfl, rfl, rfl, rfl, rfl, rfl, rfl⟩, rfl⟩
  · contradiction

theorem clientStep_admission {i : ι} {w v : Worker ι μ} {p q : Client μ} {move : ClientMove μ}
    (h : clientStep i w p move = some (v, q)) : AdmissionSpec w v p q := by
  cases p <;> cases move <;>
    simp only [clientStep, reduceCtorEq, Option.some.injEq, Prod.mk.injEq] at h
  case offer.tick required msg =>
    split at h <;> obtain ⟨rfl, rfl⟩ := Prod.mk.inj (Option.some.inj h)
    · exact ⟨rfl, rfl, fun _ => rfl, id, id, .inl, .inr ⟨rfl, msg, rfl, rfl⟩, by simp [Client.offering],
        by simp [Client.stopping], by simp [Client.settingStop]⟩
    · exact AdmissionFrame.spec ⟨rfl, rfl, rfl, rfl, rfl, rfl, rfl⟩ rfl (by simp [Client.offering])
        (by simp [Client.stopping]) (by simp [Client.settingStop])
  case enter.tick required msg =>
    obtain ⟨rfl, rfl⟩ := h
    exact ⟨rfl, rfl, fun _ => rfl, id, id, .inl, .inl ⟨rfl, rfl⟩, by simp [Client.offering],
      by simp [Client.stopping], by simp [Client.settingStop]⟩
  case leave.tick required msg accepted =>
    obtain ⟨rfl, rfl⟩ := h
    refine ⟨rfl, rfl, fun pos => ?_, id, id, .inl, .inl ⟨rfl, rfl⟩, ?_, ?_, ?_⟩ <;> cases accepted <;>
      simp_all [Client.inside, Client.offering, Client.stopping, Client.settingStop]
  case stopSwap.tick =>
    split at h <;> obtain ⟨rfl, rfl⟩ := Prod.mk.inj (Option.some.inj h)
    · exact ⟨rfl, rfl, fun _ => rfl, fun _ => rfl, id, .inl, .inl ⟨rfl, rfl⟩, by simp [Client.offering],
        fun _ => .inr rfl, by simp [Client.settingStop]⟩
    · exact AdmissionFrame.spec ⟨rfl, rfl, rfl, rfl, rfl, rfl, rfl⟩ rfl (by simp [Client.offering])
        (by simp [Client.stopping]) (by simp [Client.settingStop])
  case stopSet.tick =>
    obtain ⟨rfl, rfl⟩ := h
    exact ⟨rfl, rfl, fun _ => rfl, id, fun _ => rfl, fun _ => .inr rfl, .inl ⟨rfl, rfl⟩,
      by simp [Client.offering], by simp [Client.stopping], by simp [Client.settingStop]⟩
  case stopSpace.tick point =>
    obtain ⟨⟨u, next⟩, space, h⟩ := Option.map_eq_some_iff.mp h
    obtain ⟨rfl, rfl⟩ := Prod.mk.inj h
    refine (spaceStep_admission space).spec ?_ ?_ ?_ ?_ <;> cases next <;>
      simp [Client.inside, Client.offering, Client.stopping, Client.settingStop]
  case wake.tick result point =>
    obtain ⟨rfl, rfl⟩ := h
    refine (wakeStep_admission w point).spec ?_ ?_ ?_ ?_ <;> cases (wakeStep w point).2 <;>
      simp [Client.inside, Client.offering, Client.stopping, Client.settingStop]
  case awaitLock.tick | relock.tick =>
    obtain ⟨frame, rfl⟩ := lockStep_admission h
    exact frame.spec rfl (by simp [Client.offering]) (by simp [Client.stopping])
      (by simp [Client.settingStop])
  case signalSwap.tick | awaitCapacity.tick | waiting.tick =>
    split at h <;> simp only [reduceCtorEq, Option.some.injEq, Prod.mk.injEq] at h <;>
      obtain ⟨rfl, rfl⟩ := h <;>
      exact AdmissionFrame.spec ⟨rfl, rfl, rfl, rfl, rfl, rfl, rfl⟩ rfl (by simp [Client.offering])
        (by simp [Client.stopping]) (by simp [Client.settingStop])
  all_goals
    obtain ⟨rfl, rfl⟩ := h
    refine AdmissionFrame.spec ⟨rfl, rfl, rfl, rfl, rfl, rfl, rfl⟩ ?_ ?_ ?_ ?_ <;>
      (try unfold overloaded) <;> (repeat' split) <;>
      simp_all [Client.inside, Client.offering, Client.stopping, Client.settingStop]

/-- What a worker step does, unless a handler throws or the thread is interrupted. -/
structure DrainSpec (w v : Worker ι μ) (l m : Loop μ) : Prop where
  fifo : v.handled ++ m.inHand ++ v.mailbox = w.handled ++ l.inHand ++ w.mailbox
  offered : v.offered = w.offered
  admissions : v.admissions = w.admissions
  accepting : w.accepting = false → v.accepting = false
  stopRequested : v.stopRequested = w.stopRequested
  emptied : w.mailbox = [] → v.mailbox = [] ∧ (l.inHand = [] → m.inHand = [])
  running : v.running = false → w.running = false ∨ l.stopping = true
  readingStop : m.readingStop = true → w.mailbox = []
  stopping : m.stopping = true → w.stopRequested = true ∧ l.readingStop = true

/-- Moves on which a message or the worker itself is lost to an exception. -/
def failing (w : Loop μ) : LoopMove → Bool
  | .throw interrupted => interrupted || !w.inHand.isEmpty
  | .tick | .run _ => false

theorem loopStep_drain {w v : Worker ι μ} {l m : Loop μ} {move : LoopMove}
    (fine : failing l move = false) (h : loopStep w l move = some (v, m)) : DrainSpec w v l m := by
  cases l <;> cases move <;>
    simp only [loopStep, reduceCtorEq, Option.some.injEq, Prod.mk.injEq] at h
  case poll.tick seen handled | pollAgain.tick seen handled =>
    split at h <;> obtain ⟨rfl, rfl⟩ := Prod.mk.inj (Option.some.inj h) <;> rename_i mailbox
    · exact ⟨by simp [Loop.inHand, mailbox], rfl, rfl, id, rfl, by simp [mailbox], .inl,
        by simp [Loop.readingStop], by simp [Loop.stopping]⟩
    · exact ⟨by simp [Loop.inHand], rfl, rfl, id, rfl, by simp [Loop.inHand], .inl,
        fun _ => mailbox, by simp [Loop.stopping]⟩
  case space.tick seen handled point | exitSpace.tick point =>
    obtain ⟨⟨u, next⟩, space, h⟩ := Option.map_eq_some_iff.mp h
    obtain ⟨rfl, rfl⟩ := Prod.mk.inj h
    obtain ⟨running, accepting, stopRequested, admissions, mailbox, offered, handled⟩ :=
      spaceStep_admission space
    refine ⟨?_, offered, admissions, accepting.trans, stopRequested, ?_, ?_, ?_, ?_⟩ <;> cases next <;>
      simp_all [Loop.inHand, Loop.readingStop, Loop.stopping]
  case clearSwap.tick | markSwap.tick =>
    split at h <;> obtain ⟨rfl, rfl⟩ := Prod.mk.inj (Option.some.inj h) <;>
      exact ⟨rfl, rfl, rfl, id, rfl, fun none => ⟨none, id⟩, .inl, by simp [Loop.readingStop],
        by simp [Loop.stopping]⟩
  case readStop.tick seen handled =>
    obtain ⟨rfl, rfl⟩ := h
    refine ⟨?_, rfl, rfl, id, rfl, ?_, .inl, ?_, ?_⟩ <;> unfold afterDrain <;> (repeat' split) <;>
      simp_all [Loop.inHand, Loop.readingStop, Loop.stopping]
  all_goals
    obtain ⟨rfl, rfl⟩ := h
    refine ⟨?_, rfl, rfl, ?_, rfl, ?_, ?_, ?_, ?_⟩ <;> (try unfold afterDrain) <;>
      (try unfold throwStep) <;> (repeat' split) <;>
      simp_all [Loop.inHand, Loop.readingStop, Loop.stopping, failing]

/-- A handler throws, or the worker thread is interrupted. -/
def fails : Action ι μ → State ι μ → Bool
  | .loop move, s => failing s.loop move
  | _, _ => false

/-- A stop request sets `stop-requested?_` while the worker is between its second
empty poll and its read of the flag, and the mailbox is no longer empty. -/
def stopsInGap : Action ι μ → State ι μ → Bool
  | .client i .tick, s =>
    (s.clients i).settingStop && s.loop.readingStop && !s.worker.mailbox.isEmpty
  | _, _ => false

def graceful (a : Action ι μ) (s : State ι μ) : Prop := fails a s = false ∧ stopsInGap a s = false

instance (a : Action ι μ) (s : State ι μ) : Decidable (graceful a s) :=
  inferInstanceAs (Decidable (_ ∧ _))

/-- Nobody offers once a stop request is past its wait, and nothing is left once the
worker stops. -/
structure Orderly [Fintype ι] (s : State ι μ) : Prop where
  admissions : s.worker.admissions = census Client.inside s.clients
  stopping : ∀ i, (s.clients i).stopping = true → s.worker.accepting = false
  requested : s.worker.stopRequested = true → s.worker.accepting = false
  offering : s.worker.stopRequested = true ∨ (∃ i, (s.clients i).settingStop = true) →
    ∀ i, (s.clients i).offering = false
  fifo : s.worker.offered = s.worker.handled ++ s.loop.inHand ++ s.worker.mailbox
  reading : s.loop.readingStop = true → s.worker.stopRequested = true → s.worker.mailbox = []
  clearing : s.loop.stopping = true → s.worker.stopRequested = true ∧ s.worker.mailbox = []
  stopped : s.worker.running = false →
    s.worker.stopRequested = true ∧ s.worker.mailbox = [] ∧ s.loop.inHand = []

variable [Fintype ι] {s t : State ι μ}

theorem Client.offering_inside {p : Client μ} (h : p.offering = true) : p.inside = 1 := by
  cases p <;> simp_all [Client.offering, Client.inside]

theorem Client.settingStop_stopping {p : Client μ} (h : p.settingStop = true) :
    p.stopping = true := by
  cases p <;> simp_all [Client.settingStop, Client.stopping]

theorem Orderly.loop {w : Worker ι μ} {l : Loop μ} (h : Orderly s)
    (spec : DrainSpec s.worker w s.loop l) : Orderly { s with worker := w, loop := l } where
  admissions := spec.admissions.trans h.admissions
  stopping i stops := spec.accepting (h.stopping i stops)
  requested set := spec.accepting (h.requested (spec.stopRequested.symm.trans set))
  offering set := h.offering (set.imp_left spec.stopRequested.symm.trans)
  fifo := by rw [spec.offered, h.fifo, spec.fifo]
  reading reads _ := (spec.emptied (spec.readingStop reads)).1
  clearing clears := by
    obtain ⟨set, reads⟩ := spec.stopping clears
    exact ⟨spec.stopRequested.trans set, (spec.emptied (h.reading reads set)).1⟩
  stopped off := by
    have rested : s.worker.stopRequested = true ∧ s.worker.mailbox = [] ∧ s.loop.inHand = [] := by
      rcases spec.running off with off | clears
      · exact h.stopped off
      · obtain ⟨set, empty⟩ := h.clearing clears
        refine ⟨set, empty, ?_⟩
        cases at_l : s.loop <;> simp_all [Loop.stopping, Loop.inHand]
    obtain ⟨set, empty, hand⟩ := rested
    exact ⟨spec.stopRequested.trans set, (spec.emptied empty).1, (spec.emptied empty).2 hand⟩

variable [DecidableEq ι]

theorem Orderly.client {i : ι} {w : Worker ι μ} {q : Client μ} (h : Orderly s)
    (spec : AdmissionSpec s.worker w (s.clients i) q)
    (gap : (s.clients i).settingStop = true → s.loop.readingStop = true → s.worker.mailbox = []) :
    Orderly { s with worker := w, clients := Function.update s.clients i q } := by
  have counted := le_census Client.inside s.clients i
  have moved := census_update Client.inside s.clients i q
  have admitted := spec.admissions (by rw [h.admissions]; exact counted)
  -- once the flag is set, or about to be, the mailbox can only shrink
  have still : s.worker.stopRequested = true ∨ (∃ j, (s.clients j).settingStop = true) →
      w.mailbox = s.worker.mailbox := by
    intro set
    rcases spec.mailbox with ⟨same, -⟩ | ⟨offers, -⟩
    · exact same
    · simp [h.offering set i] at offers
  have requested : w.stopRequested = true →
      s.worker.stopRequested = true ∨ ∃ j, (s.clients j).settingStop = true :=
    fun set => (spec.requests set).imp_right fun here => ⟨i, here⟩
  refine ⟨?_, ?_, ?_, ?_, ?_, ?_, ?_, ?_⟩
  · have := h.admissions
    simp only
    omega
  · intro j stops
    by_cases hj : j = i
    · subst hj
      simp only [Function.update_self] at stops
      rcases spec.stopping stops with before | shut
      · exact spec.accepting (h.stopping j before)
      · exact shut
    · simp only [Function.update_of_ne hj] at stops
      exact spec.accepting (h.stopping j stops)
  · intro set
    rcases requested set with set | ⟨j, here⟩
    · exact spec.accepting (h.requested set)
    · exact spec.accepting (h.stopping j (Client.settingStop_stopping here))
  · intro set j
    -- either the flag was set or about to be before this step, or this step sees no admission
    have quiet : (∀ k, (s.clients k).offering = false) ∧ s.worker.accepting = false := by
      have known : s.worker.stopRequested = true ∨ (∃ k, (s.clients k).settingStop = true) →
          (∀ k, (s.clients k).offering = false) ∧ s.worker.accepting = false := fun set =>
        ⟨h.offering set, set.elim h.requested fun ⟨k, here⟩ =>
          h.stopping k (Client.settingStop_stopping here)⟩
      rcases set with set | ⟨k, here⟩
      · exact known (requested set)
      · by_cases hk : k = i
        · subst hk
          simp only [Function.update_self] at here
          obtain ⟨stops, none⟩ := spec.settingStop here
          refine ⟨fun l => ?_, h.stopping k stops⟩
          by_contra offers
          have inside := Client.offering_inside (Bool.eq_true_of_not_eq_false offers)
          have counted := le_census Client.inside s.clients l
          have := h.admissions
          omega
        · simp only [Function.update_of_ne hk] at here
          exact known (.inr ⟨k, here⟩)
    by_cases hj : j = i
    · subst hj
      simp only [Function.update_self]
      by_contra offers
      have := spec.offering (Bool.eq_true_of_not_eq_false offers)
      simp [quiet.2] at this
    · simp only [Function.update_of_ne hj]
      exact quiet.1 j
  · rcases spec.mailbox with ⟨mailbox, offered⟩ | ⟨-, msg, mailbox, offered⟩
    · simp only [mailbox, offered, spec.handled, h.fifo]
    · simp only [mailbox, offered, spec.handled, h.fifo, List.append_assoc]
  · intro reads set
    refine (still (requested set)).trans ?_
    rcases spec.requests set with set | here
    · exact h.reading reads set
    · exact gap here reads
  · intro clears
    obtain ⟨set, empty⟩ := h.clearing clears
    exact ⟨spec.requested set, (still (.inl set)).trans empty⟩
  · intro off
    obtain ⟨set, empty, hand⟩ := h.stopped (spec.running.symm.trans off)
    exact ⟨spec.requested set, (still (.inl set)).trans empty, hand⟩

omit [DecidableEq ι] in
theorem Orderly.frame {w : Worker ι μ} {n : Notifier} (h : Orderly s)
    (frame : AdmissionFrame s.worker w) : Orderly { s with worker := w, notifier := n } where
  admissions := frame.admissions.trans h.admissions
  stopping i stops := frame.accepting.trans (h.stopping i stops)
  requested set := frame.accepting.trans (h.requested (frame.stopRequested.symm.trans set))
  offering set := h.offering (set.imp_left frame.stopRequested.symm.trans)
  fifo := by rw [frame.offered, h.fifo, frame.handled, frame.mailbox]
  reading reads set := frame.mailbox.trans (h.reading reads (frame.stopRequested.symm.trans set))
  clearing clears :=
    ⟨frame.stopRequested.trans (h.clearing clears).1, frame.mailbox.trans (h.clearing clears).2⟩
  stopped off := by
    obtain ⟨set, empty, hand⟩ := h.stopped (frame.running.symm.trans off)
    exact ⟨frame.stopRequested.trans set, frame.mailbox.trans empty, hand⟩

omit [Fintype ι] [DecidableEq ι] in
theorem notifierStep_admission {w v : Worker ι μ} {n k : Notifier}
    (h : notifierStep w n = some (v, k)) : AdmissionFrame w v := by
  cases n <;> simp only [notifierStep] at h <;> (try split at h) <;>
    simp only [Option.some.injEq, Prod.mk.injEq, reduceCtorEq] at h <;>
    obtain ⟨rfl, -⟩ := h <;> exact ⟨rfl, rfl, rfl, rfl, rfl, rfl, rfl⟩

theorem Orderly.step {a : Action ι μ} (h : Orderly s) (fine : graceful a s)
    (moves : step a s = some t) : Orderly t := by
  obtain ⟨fine, gap⟩ := fine
  cases a with
  | client i move =>
    obtain ⟨⟨w, q⟩, first, rfl⟩ := Option.map_eq_some_iff.mp moves
    refine h.client (clientStep_admission first) fun here reads => ?_
    cases at_i : s.clients i <;> simp only [at_i, Client.settingStop, reduceCtorEq] at here
    cases move <;> simp only [at_i, clientStep, reduceCtorEq] at first
    simpa [stopsInGap, at_i, Client.settingStop, reads] using gap
  | loop move =>
    obtain ⟨⟨w, l⟩, first, rfl⟩ := Option.map_eq_some_iff.mp moves
    exact h.loop (loopStep_drain fine first)
  | notifier =>
    obtain ⟨⟨w, n⟩, first, rfl⟩ := Option.map_eq_some_iff.mp moves
    exact h.frame (notifierStep_admission first)
  | requestOther | closeNotifier | closeEndpoint | retireReceiver =>
    obtain rfl := Option.some.inj moves
    exact h.frame (n := s.notifier) ⟨rfl, rfl, rfl, rfl, rfl, rfl, rfl⟩

theorem orderly_of_graceful (h : (machine ι μ).ReachableVia graceful s) : Orderly s := by
  refine h.invariant (fun s init => ?_) fun _ _ _ hs fine => hs.step fine
  obtain rfl := init
  refine ⟨(census_eq_zero.mpr fun _ => rfl).symm, ?_, ?_, ?_, rfl, ?_, ?_, ?_⟩ <;>
    simp [freshState, freshWorker, Client.stopping, Client.offering, Loop.readingStop, Loop.stopping]

/-- A stop that completes in the gap is followed by a worker that stops with the
mailbox unhandled: nothing polls between the two. -/
theorem unhandled_after_gap {a : Action ι μ} (h : Orderly s) (gap : stopsInGap a s = true)
    (moves : step a s = some t) :
    ∃ u, (machine ι μ).run [.loop .tick, .loop .tick] t = some u ∧
      u.worker.running = false ∧ u.worker.handled ≠ u.worker.offered := by
  cases a with
  | client i move =>
    cases move <;> simp only [stopsInGap, Bool.false_eq_true, Bool.and_eq_true] at gap
    obtain ⟨⟨here, reads⟩, left⟩ := gap
    cases at_i : s.clients i <;> simp only [at_i, Client.settingStop, Bool.false_eq_true] at here
    cases at_l : s.loop <;> simp only [at_l, Loop.readingStop, Bool.false_eq_true] at reads
    rename_i seen handled
    simp only [Evloop.step, at_i, clientStep, Option.map_some, Option.some.injEq] at moves
    refine ⟨{ t with
      worker := { t.worker with running := false }, loop := afterDrain seen handled }, ?_, rfl, ?_⟩
    · subst moves
      simp [machine, Evloop.step, at_l, loopStep]
    · subst moves
      have fifo := h.fifo
      simp only [at_l, Loop.inHand, List.append_nil] at fifo
      simp only [fifo]
      exact fun all => by simp [List.self_eq_append_right.mp all] at left
  | _ => simp [stopsInGap] at gap

/-- In runs where no stop request completes in the gap, everything admitted has been
handled when the worker stops; a stop request that does complete there is followed
by a worker that stops without having handled the mailbox. -/
theorem handled_before_stop (h : (machine ι μ).ReachableVia graceful s) :
    (s.worker.running = false → s.worker.handled = s.worker.offered) ∧
      ∀ a t, stopsInGap a s = true → step a s = some t →
        ∃ u, (machine ι μ).run [.loop .tick, .loop .tick] t = some u ∧
          u.worker.running = false ∧ u.worker.handled ≠ u.worker.offered := by
  have orderly := orderly_of_graceful h
  refine ⟨fun off => ?_, fun a t gap moves => unhandled_after_gap orderly gap moves⟩
  obtain ⟨-, empty, hand⟩ := orderly.stopped off
  rw [orderly.fifo, empty, hand, List.append_nil, List.append_nil]

/-- A message offered after the worker's second empty poll, and a whole stop request
before the worker reads the flag. -/
def stopAfterLastPoll : List (Action Bool ℕ) :=
  List.flatten [List.replicate 4 (.loop .tick), [.client false (.sendMsg 7)],
    List.replicate 11 (.client false .tick), [.client true .stop],
    List.replicate 4 (.client true .tick), [.loop .tick, .loop .tick]]

/-- Runs in which no handler throws and the worker is not interrupted. -/
def faultless (a : Action ι μ) (s : State ι μ) : Prop := fails a s = false

instance (a : Action ι μ) (s : State ι μ) : Decidable (faultless a s) :=
  inferInstanceAs (Decidable (_ = _))

def stranded : State Bool ℕ :=
  (machine Bool ℕ).runFromVia faultless stopAfterLastPoll (freshState _ _)

/-- An admitted message that a graceful stop drops. -/
theorem stranded_message : (machine Bool ℕ).ReachableVia faultless stranded ∧
    stranded.clients false = .done .accepted ∧ stranded.worker.running = false ∧
    stranded.worker.offered = [7] ∧ stranded.worker.handled = [] :=
  ⟨(Machine.ReachableVia.init rfl).runFromVia _, by decide +kernel, by decide +kernel,
    by decide +kernel, by decide +kernel⟩

/-- The same message, handled before the stop request is made. -/
def stopAfterDrain : List (Action Bool ℕ) :=
  List.flatten [[.client false (.sendMsg 7)], List.replicate 11 (.client false .tick),
    List.replicate 11 (.loop .tick), [.loop (.run true), .client true .stop],
    List.replicate 4 (.client true .tick), List.replicate 6 (.loop .tick)]

def drained : State Bool ℕ :=
  (machine Bool ℕ).runFromVia graceful stopAfterDrain (freshState _ _)

theorem drained_handled : drained.worker.offered = [7] ∧
    drained.worker.handled = drained.worker.offered :=
  ⟨by decide +kernel, (handled_before_stop
    ((Machine.ReachableVia.init rfl).runFromVia _)).1 (by decide +kernel)⟩

end Busker.Evloop
