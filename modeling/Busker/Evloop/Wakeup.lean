import Busker.Evloop.Loop
import Busker.Interleaving.Threads

/-! No lost wakeup. Four layers suppress redundant wakes: the odd mailbox signal,
the wake generation, the sleep-armed flag and the endpoint's pending flag. For each
one the invariant names who still owes the worker a wake while the layer is set. -/

namespace Busker.Evloop

open Interleaving

variable {ι μ : Type*}

namespace Client

/-- Has offered a message and not yet looked at the mailbox signal for it. -/
def unsignalled : Client μ → Bool
  | .leave _ _ accepted => accepted
  | .signalRead | .signalSwap _ => true
  | _ => false

/-- Is in `wake` and has not yet moved the generation. -/
def preIncrement : Client μ → Bool
  | .wake _ point => point == .running || point == .increment
  | _ => false

/-- Has moved the generation and not yet passed the wake on. -/
def waking : Client μ → Bool
  | .wake _ point => !(point == .running || point == .increment || point == .leave)
  | _ => false

/-- Has set the pending flag and not yet queued the endpoint. -/
def marking : Client μ → Bool
  | .wake _ point => point == .offer
  | _ => false

/-- Between an offer and the end of the wake call. -/
def announcing : Client μ → Bool
  | .leave _ _ accepted => accepted
  | .signalRead | .signalSwap _ | .wake _ _ => true
  | _ => false

def evenToken : Client μ → Bool
  | .signalSwap token => token % 2 == 0
  | _ => true

end Client

namespace Loop

/-- `wake-seen`, or the generation it is about to become. -/
def seen : Loop μ → ℕ
  | .check seen | .poll seen _ | .handle seen _ | .clearRead seen _ | .clearSwap seen _ _ => seen
  | .pollAgain seen _ | .markRead seen _ | .markSwap seen _ _ | .readStop seen _ => seen
  | .clearRunning seen _ | .space seen _ _ | .readGeneration seen _ | .checkAgain seen _ _ => seen
  | .arm seen _ | .recheckMailbox seen _ | .recheckGeneration seen _ | .disarm seen => seen
  | .turn requested | .prepare requested | .native requested | .disarmAfter requested => requested
  | .closeAccepting | .exitSpace _ | .exited => 0

def requested : Loop μ → ℕ
  | .checkAgain _ _ requested | .arm _ requested | .recheckMailbox _ requested => requested
  | .recheckGeneration _ requested => requested
  | _ => 0

/-- Has cleared the mailbox signal in this round and not yet decided not to sleep. -/
def cleared : Loop μ → Bool
  | .pollAgain _ _ | .readStop _ _ | .clearRunning _ _ | .space _ _ _ => true
  | .readGeneration _ _ | .checkAgain _ _ _ | .arm _ _ | .recheckMailbox _ _ => true
  | .recheckGeneration _ _ | .prepare _ | .native _ => true
  | _ => false

/-- Has found the mailbox empty in this round, twice. -/
def emptied : Loop μ → Bool
  | .pollAgain _ _ => false
  | l => l.cleared

/-- Goes to sleep unless a recheck stops it. -/
def armed : Loop μ → Bool
  | .recheckMailbox _ _ | .recheckGeneration _ _ | .prepare _ | .native _ => true
  | _ => false

/-- Sleeps on the generation `seen`. -/
def asleep : Loop μ → Bool
  | .prepare _ | .native _ => true
  | _ => false

/-- Has decided that the generation has not moved since the last round. -/
def agreed : Loop μ → Bool
  | .arm seen requested | .recheckMailbox seen requested => seen == requested
  | .recheckGeneration seen requested => seen == requested
  | _ => true

/-- Leaves the loop at the next look at `running?_`. -/
def doomed : Loop μ → Bool
  | .space _ _ _ | .readGeneration _ _ | .checkAgain _ _ _ => true
  | .closeAccepting | .exitSpace _ | .exited => true
  | _ => false

def tokenParity : Loop μ → Bool
  | .clearSwap _ _ token => token % 2 == 1
  | .markSwap _ _ token => token % 2 == 0
  | _ => true

end Loop

/-- Has taken the endpoint from the queue and not yet woken its native loop. -/
def Notifier.coming : Notifier → Bool
  | .clear | .enter | .checkOpen | .checkReceiver | .wakeup => true
  | .poll | .leave => false

/-- The notifier and the endpoint are in service. -/
def InService (w : Worker ι μ) : Prop :=
  w.notifierAccepting = true ∧ w.endpointOpen = true ∧ w.receiver = true

/-- What a calling thread's step does to the signal, the generation and the wakes. -/
structure WakeSpec (w v : Worker ι μ) (p q : Client μ) : Prop where
  running : v.running = w.running
  sleepArmed : v.sleepArmed = w.sleepArmed
  posted : v.posted = w.posted
  service : InService v
  evenToken : q.evenToken = true
  mailbox : v.mailbox ≠ [] → w.mailbox ≠ [] ∨ q.unsignalled = true
  unsignalled : p.unsignalled = true → q.unsignalled = true ∨ v.mailboxSignal % 2 = 1
  odd : v.mailboxSignal % 2 = 1 → w.mailboxSignal % 2 = 1 ∨ q.preIncrement = true
  staysOdd : w.mailboxSignal % 2 = 1 → v.mailboxSignal % 2 = 1
  preIncrement : p.preIncrement = true → w.running = true →
    q.preIncrement = true ∨ w.wakeGeneration < v.wakeGeneration
  generation : w.wakeGeneration ≤ v.wakeGeneration
  moved : v.wakeGeneration ≠ w.wakeGeneration → q.waking = true
  waking : p.waking = true → w.sleepArmed = true →
    q.waking = true ∨ v.pending = true ∨ .own ∈ v.queue
  queue : .own ∈ w.queue → .own ∈ v.queue
  pending : v.pending = true → w.pending = true ∨ q.marking = true
  marking : p.marking = true → q.marking = true ∨ .own ∈ v.queue

/-- A step that touches none of the wake layers. -/
structure WakeFrame (w v : Worker ι μ) : Prop where
  running : v.running = w.running
  sleepArmed : v.sleepArmed = w.sleepArmed
  posted : v.posted = w.posted
  mailbox : v.mailbox = w.mailbox
  signal : v.mailboxSignal = w.mailboxSignal
  generation : v.wakeGeneration = w.wakeGeneration
  pending : v.pending = w.pending
  queue : v.queue = w.queue
  accepting : v.notifierAccepting = w.notifierAccepting
  isOpen : v.endpointOpen = w.endpointOpen
  receiver : v.receiver = w.receiver

theorem spaceStep_wake {me : Option ι} {w v : Worker ι μ} {point : Space} {next : Option Space}
    (h : spaceStep me w point = some (v, next)) : WakeFrame w v := by
  cases point <;> simp only [spaceStep] at h <;> (try split at h) <;>
    simp only [Option.some.injEq, Prod.mk.injEq, reduceCtorEq] at h <;>
    obtain ⟨rfl, -⟩ := h <;> exact ⟨rfl, rfl, rfl, rfl, rfl, rfl, rfl, rfl, rfl, rfl, rfl⟩

theorem lockStep_wake {i : ι} {w v : Worker ι μ} {next q : Client μ}
    (h : lockStep i w next = some (v, q)) : WakeFrame w v ∧ q = next := by
  unfold lockStep at h
  split at h
  · obtain ⟨rfl, rfl⟩ := Prod.mk.inj (Option.some.inj h)
    exact ⟨⟨rfl, rfl, rfl, rfl, rfl, rfl, rfl, rfl, rfl, rfl, rfl⟩, rfl⟩
  · contradiction

theorem WakeFrame.spec {w v : Worker ι μ} {p q : Client μ} (frame : WakeFrame w v)
    (service : InService w) (token : q.evenToken = true)
    (unsignalled : p.unsignalled = true → q.unsignalled = true ∨ v.mailboxSignal % 2 = 1)
    (preIncrement : p.preIncrement = true → w.running = true → q.preIncrement = true)
    (waking : p.waking = true → w.sleepArmed = true → q.waking = true ∨ v.pending = true)
    (marking : p.marking = false) : WakeSpec w v p q where
  running := frame.running
  sleepArmed := frame.sleepArmed
  posted := frame.posted
  service := by simpa [InService, frame.accepting, frame.isOpen, frame.receiver] using service
  evenToken := token
  mailbox some := .inl (frame.mailbox ▸ some)
  unsignalled := unsignalled
  odd odd := .inl (frame.signal ▸ odd)
  staysOdd odd := frame.signal ▸ odd
  preIncrement before on := .inl (preIncrement before on)
  generation := frame.generation.ge
  moved other := absurd frame.generation other
  waking wakes armed := (waking wakes armed).imp_right .inl
  queue own := frame.queue ▸ own
  pending set := .inl (frame.pending ▸ set)
  marking marks := by simp [marking] at marks

theorem wakeStep_wake {w v : Worker ι μ} {result : Result} {point : Wake} {next : Option Wake}
    (service : InService w) (h : wakeStep w point = (v, next)) :
    WakeSpec w v (.wake result point) (next.elim (.done result) (.wake result)) := by
  have same := service
  obtain ⟨accepting, isOpen, receiver⟩ := service
  cases point <;> simp only [wakeStep] at h
  case increment =>
    obtain ⟨rfl, rfl⟩ := Prod.mk.inj h
    refine ⟨rfl, rfl, rfl, same, rfl, .inl, ?_, .inl, id, ?_, ?_, ?_, ?_, id, .inl, ?_⟩ <;>
      simp [Client.unsignalled, Client.waking, Client.marking]
  case mark =>
    split at h <;> obtain ⟨rfl, rfl⟩ := Prod.mk.inj h
    · rename_i pending
      refine WakeFrame.spec ⟨rfl, rfl, rfl, rfl, rfl, rfl, rfl, rfl, rfl, rfl, rfl⟩ same rfl ?_ ?_ ?_ ?_ <;>
        simp [Client.unsignalled, Client.preIncrement, Client.marking, pending]
    · refine ⟨rfl, rfl, rfl, same, rfl, .inl, ?_, .inl, id, ?_, le_rfl, ?_, ?_, id, ?_, ?_⟩ <;>
        simp [Client.unsignalled, Client.preIncrement, Client.waking, Client.marking]
  case offer =>
    obtain ⟨rfl, rfl⟩ := Prod.mk.inj h
    refine ⟨rfl, rfl, rfl, same, rfl, .inl, ?_, .inl, id, ?_, le_rfl, ?_, ?_, ?_, .inl, ?_⟩ <;>
      simp +contextual [Client.unsignalled, Client.preIncrement, Client.waking]
  all_goals
    obtain ⟨rfl, rfl⟩ := Prod.mk.inj h
    refine WakeFrame.spec ⟨rfl, rfl, rfl, rfl, rfl, rfl, rfl, rfl, rfl, rfl, rfl⟩ same ?_ ?_ ?_ ?_ ?_ <;>
      (try split) <;> simp_all [Client.evenToken, Client.unsignalled, Client.preIncrement,
        Client.waking, Client.marking]

theorem clientStep_wake {i : ι} {w v : Worker ι μ} {p q : Client μ} {move : ClientMove μ}
    (service : InService w) (token : p.evenToken = true)
    (h : clientStep i w p move = some (v, q)) : WakeSpec w v p q := by
  cases p <;> cases move <;>
    simp only [clientStep, reduceCtorEq, Option.some.injEq, Prod.mk.injEq] at h
  case wake.tick result point =>
    obtain ⟨rfl, rfl⟩ := h
    exact wakeStep_wake service rfl
  case offer.tick required msg =>
    split at h <;> obtain ⟨rfl, rfl⟩ := Prod.mk.inj (Option.some.inj h)
    · refine ⟨rfl, rfl, rfl, service, rfl, fun _ => .inr rfl, ?_, .inl, id, ?_, le_rfl, ?_, ?_, id, .inl, ?_⟩ <;>
        simp [Client.unsignalled, Client.preIncrement, Client.waking, Client.marking]
    · exact WakeFrame.spec ⟨rfl, rfl, rfl, rfl, rfl, rfl, rfl, rfl, rfl, rfl, rfl⟩ service rfl
        (by simp [Client.unsignalled]) (by simp [Client.preIncrement]) (by simp [Client.waking]) rfl
  case signalSwap.tick value =>
    have even : value % 2 = 0 := by simpa [Client.evenToken] using token
    split at h <;> obtain ⟨rfl, rfl⟩ := Prod.mk.inj (Option.some.inj h)
    · rename_i current
      refine ⟨rfl, rfl, rfl, service, rfl, .inl, fun _ => .inr ?_, fun _ => .inr rfl, ?_, ?_, le_rfl, ?_, ?_,
        id, .inl, ?_⟩ <;> simp_all [Client.preIncrement, Client.waking, Client.marking]
      omega
    · exact WakeFrame.spec ⟨rfl, rfl, rfl, rfl, rfl, rfl, rfl, rfl, rfl, rfl, rfl⟩ service rfl
        (by simp [Client.unsignalled]) (by simp [Client.preIncrement]) (by simp [Client.waking]) rfl
  case stopSpace.tick point =>
    obtain ⟨⟨u, next⟩, space, h⟩ := Option.map_eq_some_iff.mp h
    obtain ⟨rfl, rfl⟩ := Prod.mk.inj h
    refine (spaceStep_wake space).spec service ?_ ?_ ?_ ?_ rfl <;> cases next <;>
      simp [Client.evenToken, Client.unsignalled, Client.preIncrement, Client.waking]
  case awaitLock.tick | relock.tick =>
    obtain ⟨frame, rfl⟩ := lockStep_wake h
    exact frame.spec service rfl (by simp [Client.unsignalled]) (by simp [Client.preIncrement])
      (by simp [Client.waking]) rfl
  case awaitCapacity.tick | waiting.tick | stopSwap.tick =>
    split at h <;> simp only [reduceCtorEq, Option.some.injEq, Prod.mk.injEq] at h <;>
      obtain ⟨rfl, rfl⟩ := h <;>
      exact WakeFrame.spec ⟨rfl, rfl, rfl, rfl, rfl, rfl, rfl, rfl, rfl, rfl, rfl⟩ service rfl
        (by simp [Client.unsignalled]) (by simp [Client.preIncrement]) (by simp [Client.waking]) rfl
  all_goals
    obtain ⟨rfl, rfl⟩ := h
    refine WakeFrame.spec ⟨rfl, rfl, rfl, rfl, rfl, rfl, rfl, rfl, rfl, rfl, rfl⟩ service ?_ ?_ ?_ ?_ ?_ <;>
      (try unfold overloaded) <;> (repeat' split) <;>
      simp_all [Client.evenToken, Client.unsignalled, Client.preIncrement, Client.waking, Client.marking]

/-- What a worker step does to the signal, the generation and its own sleep. -/
structure SleepSpec (w v : Worker ι μ) (l m : Loop μ) : Prop where
  kept : v.wakeGeneration = w.wakeGeneration ∧ v.pending = w.pending ∧ v.queue = w.queue ∧
    v.notifierAccepting = w.notifierAccepting ∧ v.endpointOpen = w.endpointOpen ∧
    v.receiver = w.receiver
  running : v.running = false → m.doomed = true
  alive : v.running = true → w.running = true
  parity : m.tokenParity = true
  agreed : m.agreed = true
  bounds : m.seen ≤ v.wakeGeneration ∧ m.requested ≤ v.wakeGeneration
  cleared : m.cleared = true → v.mailboxSignal % 2 = 1 →
    l.cleared = true ∧ w.mailboxSignal % 2 = 1 ∧ m.seen = l.seen
  emptied : m.emptied = true → v.mailbox = [] ∨
    l.emptied = true ∧ v.mailbox = w.mailbox ∧ v.mailboxSignal = w.mailboxSignal
  armed : m.armed = true → v.sleepArmed = true
  asleep : m.asleep = true → v.wakeGeneration = m.seen ∨
    l.asleep = true ∧ m.seen = l.seen ∧ v.posted = w.posted

theorem loopStep_sleep {w v : Worker ι μ} {l m : Loop μ} {move : LoopMove}
    (running : w.running = false → l.doomed = true) (parity : l.tokenParity = true)
    (agreed : l.agreed = true)
    (bounds : l.seen ≤ w.wakeGeneration ∧ l.requested ≤ w.wakeGeneration)
    (armed : l.armed = true → w.sleepArmed = true) (h : loopStep w l move = some (v, m)) :
    SleepSpec w v l m := by
  cases l <;> cases move <;>
    simp only [loopStep, reduceCtorEq, Option.some.injEq, Prod.mk.injEq] at h
  case poll.tick | pollAgain.tick =>
    split at h <;> obtain ⟨rfl, rfl⟩ := Prod.mk.inj (Option.some.inj h) <;>
      refine ⟨⟨rfl, rfl, rfl, rfl, rfl, rfl⟩, ?_, ?_, ?_, ?_, ?_, ?_, ?_, ?_, ?_⟩ <;>
      simp_all [Loop.doomed, Loop.tokenParity, Loop.agreed, Loop.seen, Loop.requested, Loop.cleared,
        Loop.emptied, Loop.armed, Loop.asleep]
  case clearSwap.tick | markSwap.tick =>
    split at h <;> obtain ⟨rfl, rfl⟩ := Prod.mk.inj (Option.some.inj h) <;>
      refine ⟨⟨rfl, rfl, rfl, rfl, rfl, rfl⟩, ?_, ?_, ?_, ?_, ?_, ?_, ?_, ?_, ?_⟩ <;>
      simp_all [Loop.doomed, Loop.tokenParity, Loop.agreed, Loop.seen, Loop.requested, Loop.cleared,
        Loop.emptied, Loop.armed, Loop.asleep] <;> omega
  case space.tick seen handled point | exitSpace.tick point =>
    obtain ⟨⟨u, next⟩, space, h⟩ := Option.map_eq_some_iff.mp h
    obtain ⟨rfl, rfl⟩ := Prod.mk.inj h
    have frame := spaceStep_wake space
    refine ⟨⟨frame.generation, frame.pending, frame.queue, frame.accepting, frame.isOpen,
      frame.receiver⟩, ?_, frame.running.symm.trans, ?_, ?_, ?_, ?_, ?_, ?_, ?_⟩ <;> cases next <;>
      simp_all [Loop.doomed, Loop.tokenParity, Loop.agreed, Loop.seen, Loop.requested, Loop.cleared,
        Loop.emptied, Loop.armed, Loop.asleep, frame.running, frame.mailbox, frame.signal,
        frame.generation]
  all_goals
    obtain ⟨rfl, rfl⟩ := h
    refine ⟨⟨rfl, rfl, rfl, rfl, rfl, rfl⟩, ?_, ?_, ?_, ?_, ?_, ?_, ?_, ?_, ?_⟩ <;>
      (try unfold afterDrain) <;> (try unfold throwStep) <;> (repeat' split) <;>
      simp_all [Loop.doomed, Loop.tokenParity, Loop.agreed, Loop.seen, Loop.requested, Loop.cleared,
        Loop.emptied, Loop.armed, Loop.asleep]

/-- For each layer that suppresses wakes, who still owes one while it is set. -/
structure Awake (s : State ι μ) : Prop where
  service : InService s.worker
  tokens : ∀ i, (s.clients i).evenToken = true
  parity : s.loop.tokenParity = true
  agreed : s.loop.agreed = true
  bounds : s.loop.seen ≤ s.worker.wakeGeneration ∧ s.loop.requested ≤ s.worker.wakeGeneration
  running : s.worker.running = false → s.loop.doomed = true
  armed : s.loop.armed = true → s.worker.sleepArmed = true
  mailbox : s.loop.emptied = true → s.worker.mailbox ≠ [] →
    (∃ i, (s.clients i).unsignalled = true) ∨ s.worker.mailboxSignal % 2 = 1
  signal : s.loop.cleared = true → s.worker.mailboxSignal % 2 = 1 → s.worker.running = true →
    (∃ i, (s.clients i).preIncrement = true) ∨ s.loop.seen < s.worker.wakeGeneration
  generation : s.loop.asleep = true → s.worker.wakeGeneration ≠ s.loop.seen →
    (∃ i, (s.clients i).waking = true) ∨ .own ∈ s.worker.queue ∨ s.notifier.coming = true ∨
      s.worker.posted = true
  pending : s.worker.pending = true →
    (∃ i, (s.clients i).marking = true) ∨ .own ∈ s.worker.queue ∨ s.notifier = .clear

variable {s t : State ι μ}

theorem Loop.asleep_armed {l : Loop μ} (h : l.asleep = true) : l.armed = true ∧ l.doomed = false := by
  cases l <;> simp_all [Loop.asleep, Loop.armed, Loop.doomed]

theorem Client.marking_waking {p : Client μ} (h : p.marking = true) : p.waking = true := by
  cases p <;> simp_all [Client.marking, Client.waking]

/-- A pending endpoint means that a wake is on its way. -/
theorem Awake.of_pending {w : Worker ι μ} {clients : ι → Client μ} {n : Notifier}
    (h : (∃ i, (clients i).marking = true) ∨ .own ∈ w.queue ∨ n = .clear) :
    (∃ i, (clients i).waking = true) ∨ .own ∈ w.queue ∨ n.coming = true ∨ w.posted = true := by
  rcases h with ⟨i, marks⟩ | queued | taken
  · exact .inl ⟨i, Client.marking_waking marks⟩
  · exact .inr (.inl queued)
  · exact .inr (.inr (.inl (by rw [taken]; rfl)))

theorem Awake.client [DecidableEq ι] {i : ι} {w : Worker ι μ} {q : Client μ} (h : Awake s)
    (spec : WakeSpec s.worker w (s.clients i) q) :
    Awake { s with worker := w, clients := Function.update s.clients i q } := by
  have pending : w.pending = true →
      (∃ j, (Function.update s.clients i q j).marking = true) ∨ .own ∈ w.queue ∨
        s.notifier = .clear := by
    intro set
    rcases spec.pending set with before | marks
    · rcases h.pending before with marker | queued | taken
      · exact (exists_update Client.marking marker spec.marking).imp_right .inl
      · exact .inr (.inl (spec.queue queued))
      · exact .inr (.inr taken)
    · exact .inl (exists_update_self Client.marking marks)
  refine
    { service := spec.service
      tokens := forall_update (P := fun _ (p : Client μ) => p.evenToken = true) h.tokens spec.evenToken
      parity := h.parity
      agreed := h.agreed
      bounds := ⟨h.bounds.1.trans spec.generation, h.bounds.2.trans spec.generation⟩
      running := fun off => h.running (spec.running.symm.trans off)
      armed := fun arms => spec.sleepArmed.trans (h.armed arms)
      mailbox := fun emptied some => ?_
      signal := fun cleared odd on => ?_
      generation := fun asleep other => ?_
      pending := pending }
  · rcases spec.mailbox some with before | offered
    · rcases h.mailbox emptied before with announcer | odd
      · exact exists_update Client.unsignalled announcer spec.unsignalled
      · exact .inr (spec.staysOdd odd)
    · exact .inl (exists_update_self Client.unsignalled offered)
  · have on : s.worker.running = true := spec.running.symm.trans on
    rcases spec.odd odd with before | wakes
    · rcases h.signal cleared before on with waker | moved
      · refine (exists_update Client.preIncrement waker fun before =>
          spec.preIncrement before on).imp_right fun grows => ?_
        exact Nat.lt_of_le_of_lt h.bounds.1 grows
      · exact .inr (Nat.lt_of_lt_of_le moved spec.generation)
    · exact .inl (exists_update_self Client.preIncrement wakes)
  · by_cases moved : w.wakeGeneration = s.worker.wakeGeneration
    · have armed := h.armed (Loop.asleep_armed asleep).1
      rcases h.generation asleep (moved ▸ other) with waker | queued | coming | posted
      · rcases exists_update Client.waking waker fun wakes =>
          spec.waking wakes armed with still | passed | queued
        · exact .inl still
        · exact Awake.of_pending (pending passed)
        · exact .inr (.inl queued)
      · exact .inr (.inl (spec.queue queued))
      · exact .inr (.inr (.inl coming))
      · exact .inr (.inr (.inr (spec.posted.trans posted)))
    · exact .inl (exists_update_self Client.waking (spec.moved moved))

theorem Awake.loop {w : Worker ι μ} {l : Loop μ} (h : Awake s)
    (spec : SleepSpec s.worker w s.loop l) : Awake { s with worker := w, loop := l } := by
  obtain ⟨generation, pending, queue, accepting, isOpen, receiver⟩ := spec.kept
  refine
    { service := by simpa [InService, accepting, isOpen, receiver] using h.service
      tokens := h.tokens
      parity := spec.parity
      agreed := spec.agreed
      bounds := spec.bounds
      running := spec.running
      armed := spec.armed
      mailbox := fun emptied some => ?_
      signal := fun cleared odd on => ?_
      generation := fun asleep other => ?_
      pending := fun set => by simpa [queue] using h.pending (pending.symm.trans set) }
  · rcases spec.emptied emptied with none | ⟨before, same, signal⟩
    · exact absurd none some
    · simpa [signal] using h.mailbox before (same ▸ some)
  · obtain ⟨before, wasOdd, seen⟩ := spec.cleared cleared odd
    simpa [generation, seen] using h.signal before wasOdd (spec.alive on)
  · rcases spec.asleep asleep with same | ⟨before, seen, posted⟩
    · exact absurd same other
    · simpa [queue, posted] using h.generation before (by rw [← seen, ← generation]; exact other)

/-- What a notifier step does to the wakes under way. -/
structure DeliverySpec (w v : Worker ι μ) (n k : Notifier) : Prop where
  kept : v.running = w.running ∧ v.sleepArmed = w.sleepArmed ∧ v.mailbox = w.mailbox ∧
    v.mailboxSignal = w.mailboxSignal ∧ v.wakeGeneration = w.wakeGeneration
  service : InService v
  queue : .own ∈ w.queue → .own ∈ v.queue ∨ k = .clear
  coming : n.coming = true → k.coming = true ∨ v.posted = true
  posted : w.posted = true → v.posted = true
  pending : v.pending = true → w.pending = true ∧ n ≠ .clear

theorem notifierStep_delivery {w v : Worker ι μ} {n k : Notifier} (service : InService w)
    (h : notifierStep w n = some (v, k)) : DeliverySpec w v n k := by
  have ⟨_, isOpen, receiver⟩ := service
  cases n <;> simp only [notifierStep] at h
  case poll =>
    split at h <;> simp only [reduceCtorEq, Option.some.injEq, Prod.mk.injEq] at h <;>
      obtain ⟨rfl, rfl⟩ := h <;> rename_i queue
    · exact ⟨⟨rfl, rfl, rfl, rfl, rfl⟩, service, fun _ => .inr rfl, by simp [Notifier.coming], id,
        fun set => ⟨set, by simp⟩⟩
    · exact ⟨⟨rfl, rfl, rfl, rfl, rfl⟩, service, by simp [queue], by simp [Notifier.coming], id,
        fun set => ⟨set, by simp⟩⟩
  all_goals
    obtain ⟨rfl, rfl⟩ := Prod.mk.inj (Option.some.inj h)
    refine ⟨⟨rfl, rfl, rfl, rfl, rfl⟩, service, .inl, ?_, ?_, ?_⟩ <;>
      simp [Notifier.coming, isOpen, receiver]

theorem Awake.notifier {w : Worker ι μ} {k : Notifier} (h : Awake s)
    (spec : DeliverySpec s.worker w s.notifier k) : Awake { s with worker := w, notifier := k } := by
  obtain ⟨running, sleepArmed, mailbox, signal, generation⟩ := spec.kept
  refine
    { h with
      service := spec.service
      bounds := by simpa only [generation] using h.bounds
      running := fun off => h.running (running.symm.trans off)
      armed := fun arms => sleepArmed.trans (h.armed arms)
      mailbox := by simpa only [mailbox, signal] using h.mailbox
      signal := by simpa only [signal, running, generation] using h.signal
      generation := fun asleep other => ?_
      pending := fun set => ?_ }
  · rcases h.generation asleep (generation ▸ other) with waker | queued | coming | posted
    · exact .inl waker
    · rcases spec.queue queued with still | taken
      · exact .inr (.inl still)
      · exact .inr (.inr (.inl (by simp only [taken]; rfl)))
    · exact .inr (.inr (spec.coming coming))
    · exact .inr (.inr (.inr (spec.posted posted)))
  · obtain ⟨before, notTaken⟩ := spec.pending set
    rcases h.pending before with marker | queued | taken
    · exact .inl marker
    · exact .inr (spec.queue queued)
    · exact absurd taken notTaken

/-- Runs in which the notifier, the endpoint and its receiver stay in service. -/
def inService : Action ι μ → State ι μ → Prop
  | .closeNotifier, _ | .closeEndpoint, _ | .retireReceiver, _ => False
  | _, _ => True

instance (a : Action ι μ) (s : State ι μ) : Decidable (inService a s) := by
  unfold inService
  split <;> infer_instance

variable [DecidableEq ι]

theorem Awake.step {a : Action ι μ} (h : Awake s) (serves : inService a s)
    (moves : step a s = some t) : Awake t := by
  cases a with
  | client i move =>
    obtain ⟨⟨w, q⟩, first, rfl⟩ := Option.map_eq_some_iff.mp moves
    exact h.client (clientStep_wake h.service (h.tokens i) first)
  | loop move =>
    obtain ⟨⟨w, l⟩, first, rfl⟩ := Option.map_eq_some_iff.mp moves
    exact h.loop (loopStep_sleep h.running h.parity h.agreed h.bounds h.armed first)
  | notifier =>
    obtain ⟨⟨w, n⟩, first, rfl⟩ := Option.map_eq_some_iff.mp moves
    exact h.notifier (notifierStep_delivery h.service first)
  | requestOther =>
    obtain rfl := Option.some.inj moves
    exact { h with
      generation := by simpa using h.generation
      pending := by simpa using h.pending }
  | closeNotifier | closeEndpoint | retireReceiver => exact serves.elim

theorem awake_of_inService (h : (machine ι μ).ReachableVia inService s) : Awake s := by
  refine h.invariant (fun s init => ?_) fun _ _ _ hs serves => hs.step serves
  obtain rfl := init
  refine ⟨⟨rfl, rfl, rfl⟩, fun _ => rfl, rfl, rfl, ⟨le_rfl, le_rfl⟩, ?_, ?_, ?_, ?_, ?_, ?_⟩ <;>
    simp [freshState, freshWorker, Loop.armed, Loop.emptied, Loop.cleared, Loop.asleep]

/-- A worker asleep on `requested` with work to do is about to be woken: a thread is
still announcing its message or its wake, the endpoint is queued, or a native wake
is under way or posted. -/
theorem wake_under_way (h : (machine ι μ).ReachableVia inService s) {requested : ℕ}
    (asleep : s.loop = .native requested)
    (work : s.worker.mailbox ≠ [] ∨ s.worker.wakeGeneration ≠ requested) :
    (∃ i, (s.clients i).announcing = true) ∨ .own ∈ s.worker.queue ∨ s.notifier.coming = true ∨
      s.worker.posted = true := by
  have awake := awake_of_inService h
  have announces : ∀ {duty : Client μ → Bool}, (∀ p, duty p = true → p.announcing = true) →
      (∃ i, duty (s.clients i) = true) → ∃ i, (s.clients i).announcing = true :=
    fun implies ⟨i, hi⟩ => ⟨i, implies _ hi⟩
  have moved : s.worker.wakeGeneration ≠ requested → (∃ i, (s.clients i).announcing = true) ∨
      .own ∈ s.worker.queue ∨ s.notifier.coming = true ∨ s.worker.posted = true := by
    intro other
    have owed := awake.generation (by rw [asleep]; rfl) (by rw [asleep]; exact other)
    exact owed.imp_left (announces fun p => by cases p <;> simp [Client.waking, Client.announcing])
  rcases work with some | other
  · rcases awake.mailbox (by rw [asleep]; rfl) some with announcer | odd
    · exact .inl (announces (fun p => by cases p <;> simp [Client.unsignalled, Client.announcing])
        announcer)
    · have running : s.worker.running = true := by
        by_contra off
        have doomed := awake.running (Bool.eq_false_of_not_eq_true off)
        simp [asleep, Loop.doomed] at doomed
      rcases awake.signal (by rw [asleep]; rfl) odd running with waker | grown
      · exact .inl (announces (fun p => by cases p <;> simp [Client.preIncrement, Client.announcing])
          waker)
      · rw [asleep, Loop.seen] at grown
        exact moved grown.ne'
  · exact moved other

/-- A message sent to a sleeping worker, up to the queued endpoint. -/
def sendToSleeper : List (Action Bool ℕ) :=
  List.flatten [List.replicate 11 (.loop .tick), [.client false (.sendMsg 7)],
    List.replicate 19 (.client false .tick)]

def sleeper : State Bool ℕ :=
  (machine Bool ℕ).runFromVia inService sendToSleeper (freshState _ _)

theorem sleeper_wake_under_way : sleeper.clients false = .done .accepted ∧
    sleeper.worker.mailbox = [7] ∧ ((∃ i, (sleeper.clients i).announcing = true) ∨
      .own ∈ sleeper.worker.queue ∨ sleeper.notifier.coming = true ∨ sleeper.worker.posted = true) :=
  ⟨by decide +kernel, by decide +kernel,
    wake_under_way ((Machine.ReachableVia.init rfl).runFromVia _)
      (show sleeper.loop = .native 0 by decide +kernel) (.inl (by decide +kernel))⟩

end Busker.Evloop
