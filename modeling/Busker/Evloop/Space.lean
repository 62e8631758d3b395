import Busker.Evloop.Loop
import Busker.Interleaving.Census
import Busker.Interleaving.Monitor

/-! No required submission is stranded. A producer that waits for mailbox space and has
not been signalled is owed a signal by somebody: by the worker, once the mailbox is no
longer full, and by whoever closes admission. -/

namespace Busker.Evloop

open Interleaving

variable {ι μ : Type*}

def Space.holds : Space → Bool
  | .signal | .unlock => true
  | .check | .lock => false

/-- Has not sent its signal yet. -/
def Space.ahead : Space → Bool
  | .check | .lock | .signal => true
  | .unlock => false

namespace Client

/-- Holds the mailbox lock. -/
def holds : Client μ → Bool
  | .awaitRunning _ | .awaitAccepting _ | .awaitCapacity _ | .awaitUnlock _ => true
  | .stopSpace point => point.holds
  | _ => false

/-- Is counted in `mailbox-waiters_`. -/
def counted : Client μ → ℕ
  | .awaitLock _ | .awaitRunning _ | .awaitAccepting _ | .awaitCapacity _ | .waiting _ _ => 1
  | .relock _ | .awaitUnlock _ | .awaitLeave _ => 1
  | _ => 0

/-- Waits, and no signal has come since. -/
def stuck (signals : ℕ) : Client μ → Bool
  | .waiting _ since => since == signals
  | _ => false

/-- Has found admission open and waits, or is about to. -/
def trusting (signals : ℕ) : Client μ → Bool
  | .awaitCapacity _ => true
  | p => p.stuck signals

/-- The number of signals before it began to wait. -/
def since : Client μ → ℕ
  | .waiting _ since => since
  | _ => 0

/-- Is between closing admission and its signal. -/
def announces : Client μ → Bool
  | .stopSpace point => point.ahead
  | _ => false

end Client

namespace Loop

def holds : Loop μ → Bool
  | .space _ _ point | .exitSpace point => point.holds
  | _ => false

/-- Is between closing admission and its signal. -/
def announces : Loop μ → Bool
  | .exitSpace point => point.ahead
  | _ => false

/-- Has taken a message from the mailbox in this drain, or leaves the loop, and has not
signalled since. -/
def owes : Loop μ → Bool
  | .handle _ _ | .markRead _ _ | .markSwap _ _ _ | .closeAccepting => true
  | .poll _ handled | .clearRead _ handled | .clearSwap _ handled _ | .pollAgain _ handled => handled
  | .readStop _ handled | .clearRunning _ handled => handled
  | .space _ _ point | .exitSpace point => point.ahead
  | _ => false

/-- Has closed admission. -/
def closed : Loop μ → Bool
  | .exitSpace _ | .exited => true
  | _ => false

end Loop

/-- The program points of the worker and of the calling threads, as to the lock. -/
def holders (clients : ι → Client μ) (loop : Loop μ) : Option ι → Bool
  | none => loop.holds
  | some i => (clients i).holds

/-- A signal, sent by somebody who holds the lock. -/
def Signals (w v : Worker ι μ) (holds : Bool) : Prop :=
  holds = true ∧ v.spaceSignals = w.spaceSignals + 1

/-- What a calling thread's step does to those who wait for mailbox space. -/
structure ClientSpace (i : ι) (w v : Worker ι μ) (p q : Client μ) : Prop where
  lock : LockMove (some i) w.mailboxLock p.holds v.mailboxLock q.holds
  counted : p.counted ≤ w.mailboxWaiters → v.mailboxWaiters + p.counted = w.mailboxWaiters + q.counted
  closes : v.accepting = false → w.accepting = false ∨ q.announces = true
  stays : w.accepting = false → v.accepting = false
  signals : v.spaceSignals = w.spaceSignals ∨
    Signals w v p.holds ∧ q.trusting v.spaceSignals = false
  since : p.since ≤ w.spaceSignals → q.since ≤ v.spaceSignals
  announces : p.announces = true → q.announces = true ∨ w.mailboxWaiters = 0 ∨ Signals w v p.holds
  trusting : q.trusting v.spaceSignals = true → p.trusting w.spaceSignals = true ∨ v.accepting = true
  stuck : q.stuck v.spaceSignals = true →
    p.stuck w.spaceSignals = true ∨ mailboxCapacity ≤ v.mailbox.length
  mailbox : w.mailbox.length ≤ v.mailbox.length

/-- What a step of the worker does to those who wait for mailbox space. -/
structure LoopSpace (w v : Worker ι μ) (l m : Loop μ) : Prop where
  lock : LockMove (none : Option ι) w.mailboxLock l.holds v.mailboxLock m.holds
  waiters : v.mailboxWaiters = w.mailboxWaiters
  closes : v.accepting = false → w.accepting = false ∨ m.announces = true
  stays : w.accepting = false → v.accepting = false
  signals : v.spaceSignals = w.spaceSignals ∨ Signals w v l.holds
  announces : l.announces = true → m.announces = true ∨ w.mailboxWaiters = 0 ∨ Signals w v l.holds
  owes : l.owes = true → m.owes = true ∨ w.mailboxWaiters = 0 ∨ Signals w v l.holds
  mailbox : w.mailbox.length ≤ v.mailbox.length ∨ m.owes = true
  closed : m.closed = true → l.closed = true ∨ v.accepting = false

/-- A step that does not touch the mailbox, its lock or its waiters. -/
structure SpaceFrame (w v : Worker ι μ) : Prop where
  lock : v.mailboxLock = w.mailboxLock
  waiters : v.mailboxWaiters = w.mailboxWaiters
  accepting : v.accepting = w.accepting
  signals : v.spaceSignals = w.spaceSignals
  mailbox : w.mailbox.length ≤ v.mailbox.length

theorem wakeStep_space (w : Worker ι μ) (point : Wake) : SpaceFrame w (wakeStep w point).1 := by
  cases point <;> unfold wakeStep <;> (repeat' split) <;> exact ⟨rfl, rfl, rfl, rfl, le_rfl⟩

theorem notifierStep_space {w v : Worker ι μ} {n k : Notifier} (h : notifierStep w n = some (v, k)) :
    SpaceFrame w v := by
  cases n <;> simp only [notifierStep, Option.some.injEq] at h
  case poll =>
    split at h <;> simp only [Option.some.injEq, reduceCtorEq] at h
    all_goals
      obtain ⟨rfl, -⟩ := Prod.mk.inj h
      exact ⟨rfl, rfl, rfl, rfl, le_rfl⟩
  all_goals
    obtain ⟨rfl, -⟩ := Prod.mk.inj h
    exact ⟨rfl, rfl, rfl, rfl, le_rfl⟩

/-- What `signal-mailbox-space!` does, by whatever thread. -/
structure Signalling (me : Option ι) (w v : Worker ι μ) (point : Space) (next : Option Space) : Prop where
  lock : LockMove me w.mailboxLock point.holds v.mailboxLock (next.elim false Space.holds)
  waiters : v.mailboxWaiters = w.mailboxWaiters
  accepting : v.accepting = w.accepting
  signals : v.spaceSignals = w.spaceSignals ∨ Signals w v point.holds
  ahead : point.ahead = true → next.elim false Space.ahead = true ∨ w.mailboxWaiters = 0 ∨
    Signals w v point.holds
  mailbox : v.mailbox = w.mailbox

theorem signalling_of_step {me : Option ι} {w v : Worker ι μ} {point : Space} {next : Option Space}
    (h : spaceStep me w point = some (v, next)) : Signalling me w v point next := by
  cases point <;> simp only [spaceStep, Option.some.injEq] at h
  case check =>
    obtain ⟨rfl, rfl⟩ := Prod.mk.inj h
    split
    · exact ⟨.stay _ _, rfl, rfl, .inl rfl, fun _ => .inl rfl, rfl⟩
    · exact ⟨.stay _ _, rfl, rfl, .inl rfl, fun _ => .inr (.inl (by omega)), rfl⟩
  case lock =>
    split at h <;> simp only [Option.some.injEq, reduceCtorEq] at h
    rename_i free
    obtain ⟨rfl, rfl⟩ := Prod.mk.inj h
    refine ⟨?_, rfl, rfl, .inl rfl, fun _ => .inl rfl, rfl⟩
    rw [free]
    exact .enter
  case signal =>
    obtain ⟨rfl, rfl⟩ := Prod.mk.inj h
    exact ⟨.stay _ _, rfl, rfl, .inr ⟨rfl, rfl⟩, fun _ => .inr (.inr ⟨rfl, rfl⟩), rfl⟩
  case unlock =>
    obtain ⟨rfl, rfl⟩ := Prod.mk.inj h
    exact ⟨.leave _, rfl, rfl, .inl rfl, fun ahead => by simp [Space.ahead] at ahead, rfl⟩

theorem Client.trusting_of_stuck {p : Client μ} {signals : ℕ} (h : p.stuck signals = true) :
    p.trusting signals = true := by
  cases p <;> simp_all [Client.stuck, Client.trusting]

theorem Client.counted_of_trusting {p : Client μ} {signals : ℕ} (h : p.trusting signals = true) :
    p.counted = 1 := by
  cases p <;> simp_all [Client.stuck, Client.trusting, Client.counted]

/-- A signal reaches everybody who waits. -/
theorem Client.not_trusting_of_signal {p : Client μ} {signals : ℕ} (outside : p.holds = false)
    (since : p.since ≤ signals) : p.trusting (signals + 1) = false := by
  cases p <;> simp_all [Client.stuck, Client.trusting, Client.holds, Client.since]
  omega

section client

variable {i : ι} {w v : Worker ι μ} {p q : Client μ}

theorem SpaceFrame.client (frame : SpaceFrame w v) (holds : q.holds = p.holds)
    (counted : q.counted = p.counted) (untrusting : ∀ n, q.trusting n = false) (since : q.since = 0)
    (announces : p.announces = true → q.announces = true) : ClientSpace i w v p q where
  lock := by
    rw [frame.lock, holds]
    exact .stay _ _
  counted _ := by rw [frame.waiters, counted]
  closes shut := .inl (frame.accepting.symm.trans shut)
  stays shut := frame.accepting.trans shut
  signals := .inl frame.signals
  since _ := by simp [since]
  announces := fun h => .inl (announces h)
  trusting h := by simp [untrusting] at h
  stuck h := by simpa [untrusting] using Client.trusting_of_stuck h
  mailbox := frame.mailbox

theorem clientStep_space {move : ClientMove μ} (h : clientStep i w p move = some (v, q)) :
    ClientSpace i w v p q := by
  have same : SpaceFrame w w := ⟨rfl, rfl, rfl, rfl, le_rfl⟩
  have plain : ∀ {v : Worker ι μ} {p q : Client μ}, SpaceFrame w v → q.holds = p.holds →
      q.counted = p.counted → (∀ n, q.trusting n = false) → q.since = 0 →
      (p.announces = true → q.announces = true) → ClientSpace i w v p q :=
    fun frame => frame.client
  cases p <;> cases move <;> simp only [clientStep, Option.some.injEq, reduceCtorEq] at h
  case idle.sendMsg | idle.sendRequiredMsg | idle.stop | idle.wake =>
    obtain ⟨rfl, rfl⟩ := Prod.mk.inj h
    exact plain same rfl rfl (fun _ => rfl) rfl id
  case running.tick | accepting.tick | acceptingAgain.tick | signalRead.tick | refusedRunning.tick =>
    obtain ⟨rfl, rfl⟩ := Prod.mk.inj h
    split <;> exact plain same rfl rfl (fun _ => rfl) rfl id
  case refusedAccepting.tick required msg =>
    obtain ⟨rfl, rfl⟩ := Prod.mk.inj h
    unfold overloaded
    (repeat' split) <;> exact plain same rfl rfl (fun _ => rfl) rfl id
  case stopSpin.tick =>
    obtain ⟨rfl, rfl⟩ := Prod.mk.inj h
    split <;> exact plain same rfl rfl (fun _ => rfl) rfl id
  case offer.tick required msg =>
    split at h <;> obtain ⟨rfl, rfl⟩ := Prod.mk.inj (Option.some.inj h)
    · exact plain ⟨rfl, rfl, rfl, rfl, by simp⟩ rfl rfl (fun _ => rfl) rfl id
    · exact plain same rfl rfl (fun _ => rfl) rfl id
  case leave.tick required msg accepted =>
    obtain ⟨rfl, rfl⟩ := Prod.mk.inj h
    split <;> exact plain ⟨rfl, rfl, rfl, rfl, le_rfl⟩ rfl rfl (fun _ => rfl) rfl id
  case signalSwap.tick token =>
    split at h <;> obtain ⟨rfl, rfl⟩ := Prod.mk.inj (Option.some.inj h) <;>
      exact plain ⟨rfl, rfl, rfl, rfl, le_rfl⟩ rfl rfl (fun _ => rfl) rfl id
  case awaitEnter.tick msg =>
    obtain ⟨rfl, rfl⟩ := Prod.mk.inj h
    refine ⟨.stay _ _, fun _ => rfl, .inl, id, .inl rfl, fun _ => Nat.zero_le _, ?_, ?_, ?_, le_rfl⟩ <;>
      intro h <;> simp [Client.announces, Client.trusting, Client.stuck] at h
  case awaitLock.tick msg | relock.tick msg =>
    unfold lockStep at h
    split at h <;> simp only [Option.some.injEq, reduceCtorEq] at h
    rename_i free
    obtain ⟨rfl, rfl⟩ := Prod.mk.inj h
    refine ⟨?_, fun _ => rfl, .inl, id, .inl rfl, fun _ => Nat.zero_le _, ?_, ?_, ?_, le_rfl⟩
    · rw [free]
      exact .enter
    all_goals intro h; simp [Client.announces, Client.trusting, Client.stuck] at h
  case awaitRunning.tick msg =>
    obtain ⟨rfl, rfl⟩ := Prod.mk.inj h
    split <;> exact plain same rfl rfl (fun _ => rfl) rfl id
  case awaitAccepting.tick msg =>
    obtain ⟨rfl, rfl⟩ := Prod.mk.inj h
    split
    · rename_i accepting
      exact ⟨.stay _ _, fun _ => rfl, .inl, id, .inl rfl, fun _ => Nat.zero_le _,
        fun h => by simp [Client.announces] at h, fun _ => .inr accepting,
        fun h => by simp [Client.stuck] at h, le_rfl⟩
    · exact plain same rfl rfl (fun _ => rfl) rfl id
  case awaitCapacity.tick msg =>
    split at h <;> obtain ⟨rfl, rfl⟩ := Prod.mk.inj (Option.some.inj h)
    · rename_i full
      exact ⟨.leave _, fun _ => rfl, .inl, id, .inl rfl, fun _ => le_rfl,
        fun h => by simp [Client.announces] at h, fun _ => .inl rfl, fun _ => .inr full, le_rfl⟩
    · exact plain same rfl rfl (fun _ => rfl) rfl id
  case waiting.tick msg since =>
    split at h <;> simp only [Option.some.injEq, reduceCtorEq] at h
    obtain ⟨rfl, rfl⟩ := Prod.mk.inj h
    exact plain same rfl rfl (fun _ => rfl) rfl (fun h => by simp [Client.announces] at h)
  case awaitUnlock.tick msg =>
    obtain ⟨rfl, rfl⟩ := Prod.mk.inj h
    exact ⟨.leave _, fun _ => rfl, .inl, id, .inl rfl, fun _ => Nat.zero_le _,
      fun h => by simp [Client.announces] at h, fun h => by simp [Client.trusting, Client.stuck] at h,
      fun h => by simp [Client.stuck] at h, le_rfl⟩
  case awaitLeave.tick msg =>
    obtain ⟨rfl, rfl⟩ := Prod.mk.inj h
    exact ⟨.stay _ _, fun counted => Nat.sub_add_cancel counted, .inl, id, .inl rfl,
      fun _ => Nat.zero_le _, fun h => by simp [Client.announces] at h,
      fun h => by simp [Client.trusting, Client.stuck] at h, fun h => by simp [Client.stuck] at h, le_rfl⟩
  case stopSwap.tick =>
    split at h <;> obtain ⟨rfl, rfl⟩ := Prod.mk.inj (Option.some.inj h)
    · exact ⟨.stay _ _, fun _ => rfl, fun _ => .inr rfl, fun _ => rfl, .inl rfl, fun _ => Nat.zero_le _,
        fun h => by simp [Client.announces] at h, fun h => by simp [Client.trusting, Client.stuck] at h,
        fun h => by simp [Client.stuck] at h, le_rfl⟩
    · exact plain same rfl rfl (fun _ => rfl) rfl id
  case stopSpace.tick point =>
    obtain ⟨⟨u, next⟩, moved, made⟩ := Option.map_eq_some_iff.mp h
    obtain ⟨rfl, rfl⟩ := Prod.mk.inj made
    have spec := signalling_of_step moved
    have there : (next.elim .stopSpin .stopSpace : Client μ).holds = next.elim false Space.holds ∧
        (next.elim .stopSpin .stopSpace : Client μ).announces = next.elim false Space.ahead ∧
        (∀ n, (next.elim .stopSpin .stopSpace : Client μ).trusting n = false) ∧
        (next.elim .stopSpin .stopSpace : Client μ).counted = 0 ∧
        (next.elim .stopSpin .stopSpace : Client μ).since = 0 := by
      cases next <;> exact ⟨rfl, rfl, fun _ => rfl, rfl, rfl⟩
    obtain ⟨holds, announces, untrusting, counted, since⟩ := there
    refine ⟨?_, fun _ => ?_, fun shut => .inl (spec.accepting.symm.trans shut),
      fun shut => spec.accepting.trans shut, ?_, fun _ => by simp [since], fun ahead => ?_,
      fun h => by simp [untrusting] at h,
      fun h => by simpa [untrusting] using Client.trusting_of_stuck h, spec.mailbox ▸ le_rfl⟩
    · rw [holds]
      exact spec.lock
    · rw [spec.waiters, counted]
      rfl
    · exact spec.signals.imp_right fun signals => ⟨signals, untrusting _⟩
    · rw [announces]
      exact spec.ahead ahead
  case wake.tick result point =>
    have frame := wakeStep_space w point
    obtain ⟨rfl, rfl⟩ := Prod.mk.inj h
    cases (wakeStep w point).2 <;> exact plain frame rfl rfl (fun _ => rfl) rfl id
  all_goals
    obtain ⟨rfl, rfl⟩ := Prod.mk.inj h
    exact plain ⟨rfl, rfl, rfl, rfl, le_rfl⟩ rfl rfl (fun _ => rfl) rfl id

end client

theorem loopStep_space {w v : Worker ι μ} {l m : Loop μ} {move : LoopMove}
    (h : loopStep w l move = some (v, m)) : LoopSpace w v l m := by
  have plain : ∀ {v : Worker ι μ} {l m : Loop μ}, v.mailboxLock = w.mailboxLock →
      v.mailboxWaiters = w.mailboxWaiters → v.accepting = w.accepting → v.spaceSignals = w.spaceSignals →
      (w.mailbox.length ≤ v.mailbox.length ∨ m.owes = true) → m.holds = l.holds → l.announces = false →
      (l.owes = true → m.owes = true) → m.closed = false → LoopSpace w v l m := by
    intro v l m lock waiters accepting signals mailbox holds announces owes closed
    refine ⟨?_, waiters, fun shut => .inl (accepting.symm.trans shut), fun shut => accepting.trans shut,
      .inl signals, fun h => by simp [announces] at h, fun h => .inl (owes h), mailbox,
      fun h => by simp [closed] at h⟩
    rw [lock, holds]
    exact .stay _ _
  cases l <;> cases move <;> simp only [loopStep, Option.some.injEq, reduceCtorEq] at h
  case space.tick seen handled point =>
    obtain ⟨⟨u, next⟩, moved, made⟩ := Option.map_eq_some_iff.mp h
    obtain ⟨rfl, rfl⟩ := Prod.mk.inj made
    have spec := signalling_of_step moved
    have there : (next.elim (.readGeneration seen handled) (.space seen handled) : Loop μ).holds =
          next.elim false Space.holds ∧
        (next.elim (.readGeneration seen handled) (.space seen handled) : Loop μ).owes =
          next.elim false Space.ahead ∧
        (next.elim (.readGeneration seen handled) (.space seen handled) : Loop μ).closed = false := by
      cases next <;> exact ⟨rfl, rfl, rfl⟩
    obtain ⟨holds, owes, closed⟩ := there
    refine ⟨?_, spec.waiters, fun shut => .inl (spec.accepting.symm.trans shut),
      fun shut => spec.accepting.trans shut, spec.signals, fun h => by simp [Loop.announces] at h,
      fun h => ?_, .inl (spec.mailbox ▸ le_rfl), fun h => by simp [closed] at h⟩
    · rw [holds]
      exact spec.lock
    · rw [owes]
      exact spec.ahead h
  case exitSpace.tick point =>
    obtain ⟨⟨u, next⟩, moved, made⟩ := Option.map_eq_some_iff.mp h
    obtain ⟨rfl, rfl⟩ := Prod.mk.inj made
    have spec := signalling_of_step moved
    have there : (next.elim .exited .exitSpace : Loop μ).holds = next.elim false Space.holds ∧
        (next.elim .exited .exitSpace : Loop μ).owes = next.elim false Space.ahead ∧
        (next.elim .exited .exitSpace : Loop μ).announces = next.elim false Space.ahead := by
      cases next <;> exact ⟨rfl, rfl, rfl⟩
    obtain ⟨holds, owes, announces⟩ := there
    refine ⟨?_, spec.waiters, fun shut => .inl (spec.accepting.symm.trans shut),
      fun shut => spec.accepting.trans shut, spec.signals, fun h => ?_, fun h => ?_,
      .inl (spec.mailbox ▸ le_rfl), fun _ => .inl rfl⟩
    · rw [holds]
      exact spec.lock
    · rw [announces]
      exact spec.ahead h
    · rw [owes]
      exact spec.ahead h
  case closeAccepting.tick =>
    obtain ⟨rfl, rfl⟩ := Prod.mk.inj h
    exact ⟨.stay _ _, rfl, fun _ => .inr rfl, fun _ => rfl, .inl rfl, fun h => by simp [Loop.announces] at h,
      fun _ => .inl rfl, .inl le_rfl, fun _ => .inr rfl⟩
  case poll.tick seen handled =>
    split at h <;> obtain ⟨rfl, rfl⟩ := Prod.mk.inj (Option.some.inj h)
    · exact plain rfl rfl rfl rfl (.inr rfl) rfl rfl (fun _ => rfl) rfl
    · exact plain rfl rfl rfl rfl (.inl le_rfl) rfl rfl id rfl
  case pollAgain.tick seen handled =>
    split at h <;> obtain ⟨rfl, rfl⟩ := Prod.mk.inj (Option.some.inj h)
    · exact plain rfl rfl rfl rfl (.inr rfl) rfl rfl (fun _ => rfl) rfl
    · exact plain rfl rfl rfl rfl (.inl le_rfl) rfl rfl id rfl
  case clearSwap.tick seen handled token =>
    split at h <;> obtain ⟨rfl, rfl⟩ := Prod.mk.inj (Option.some.inj h) <;>
      exact plain rfl rfl rfl rfl (.inl le_rfl) rfl rfl id rfl
  case markSwap.tick seen msg token =>
    split at h <;> obtain ⟨rfl, rfl⟩ := Prod.mk.inj (Option.some.inj h) <;>
      exact plain rfl rfl rfl rfl (.inl le_rfl) rfl rfl id rfl
  case readStop.tick seen handled =>
    obtain ⟨rfl, rfl⟩ := Prod.mk.inj h
    split
    · exact plain rfl rfl rfl rfl (.inl le_rfl) rfl rfl id rfl
    · cases handled <;> exact plain rfl rfl rfl rfl (.inl le_rfl) rfl rfl id rfl
  case clearRunning.tick seen handled =>
    obtain ⟨rfl, rfl⟩ := Prod.mk.inj h
    cases handled <;> exact plain rfl rfl rfl rfl (.inl le_rfl) rfl rfl id rfl
  case checkAgain.tick seen handled requested =>
    obtain ⟨rfl, rfl⟩ := Prod.mk.inj h
    (repeat' split) <;>
      exact plain rfl rfl rfl rfl (.inl le_rfl) rfl rfl (fun h => by simp [Loop.owes] at h) rfl
  case clearRead.tick seen handled =>
    obtain ⟨rfl, rfl⟩ := Prod.mk.inj h
    split <;> exact plain rfl rfl rfl rfl (.inl le_rfl) rfl rfl id rfl
  case markRead.tick seen msg =>
    obtain ⟨rfl, rfl⟩ := Prod.mk.inj h
    split <;> exact plain rfl rfl rfl rfl (.inl le_rfl) rfl rfl id rfl
  case handle.tick seen msg =>
    obtain ⟨rfl, rfl⟩ := Prod.mk.inj h
    exact plain rfl rfl rfl rfl (.inl le_rfl) rfl rfl id rfl
  case handle.throw seen msg interrupted =>
    obtain ⟨rfl, rfl⟩ := Prod.mk.inj h
    exact plain rfl rfl rfl rfl (.inl le_rfl) rfl rfl id rfl
  case check.tick | recheckMailbox.tick | recheckGeneration.tick =>
    obtain ⟨rfl, rfl⟩ := Prod.mk.inj h
    split <;> exact plain rfl rfl rfl rfl (.inl le_rfl) rfl rfl (fun h => nomatch h) rfl
  all_goals
    obtain ⟨rfl, rfl⟩ := Prod.mk.inj h
    exact plain rfl rfl rfl rfl (.inl le_rfl) rfl rfl (fun h => nomatch h) rfl

section run

variable [Fintype ι] {s t : State ι μ}

/-- Everybody who waits for space is owed a signal when it is due. -/
structure Spaced (s : State ι μ) : Prop where
  lock : Guarded s.worker.mailboxLock id (holders s.clients s.loop)
  waiters : s.worker.mailboxWaiters = census Client.counted s.clients
  since : ∀ i, (s.clients i).since ≤ s.worker.spaceSignals
  closing : s.worker.accepting = false → ∀ i,
    (s.clients i).trusting s.worker.spaceSignals = true →
      s.loop.announces = true ∨ ∃ j, (s.clients j).announces = true
  full : ∀ i, (s.clients i).stuck s.worker.spaceSignals = true →
    s.worker.mailbox.length < mailboxCapacity → s.loop.owes = true
  closed : s.loop.closed = true → s.worker.accepting = false

theorem Spaced.waiter (h : Spaced s) {i : ι}
    (trusts : (s.clients i).trusting s.worker.spaceSignals = true) : s.worker.mailboxWaiters ≠ 0 := by
  have counted := le_census Client.counted s.clients i
  rw [Client.counted_of_trusting trusts, ← h.waiters] at counted
  omega

/-- After a signal nobody waits unsignalled, or is about to wait. -/
theorem Spaced.signalled (h : Spaced s) {w : Worker ι μ} {agent : Option ι}
    (signals : Signals s.worker w (holders s.clients s.loop agent)) {i : ι} (other : some i ≠ agent) :
    (s.clients i).trusting w.spaceSignals = false := by
  rw [signals.2]
  exact Client.not_trusting_of_signal (h.lock.others signals.1 other) (h.since i)

variable [DecidableEq ι]

omit [Fintype ι] in
theorem holders_update_worker (clients : ι → Client μ) (loop l : Loop μ) :
    holders clients l = Function.update (holders clients loop) none l.holds := by
  funext agent
  cases agent with
  | none => rw [Function.update_self, holders]
  | some i => rw [Function.update_of_ne (Option.some_ne_none i), holders, holders]

omit [Fintype ι] in
theorem holders_update_client (clients : ι → Client μ) (loop : Loop μ) (i : ι) (q : Client μ) :
    holders (Function.update clients i q) loop =
      Function.update (holders clients loop) (some i) q.holds := by
  funext agent
  cases agent with
  | none => rw [Function.update_of_ne (Option.some_ne_none i).symm, holders, holders]
  | some j =>
    by_cases hj : j = i
    · subst hj
      rw [Function.update_self, holders, Function.update_self]
    · rw [Function.update_of_ne (by simpa using hj), holders, holders, Function.update_of_ne hj]

theorem Spaced.loop {w : Worker ι μ} {l : Loop μ} (h : Spaced s) (spec : LoopSpace s.worker w s.loop l) :
    Spaced { s with worker := w, loop := l } := by
  have signalled : ∀ i, Signals s.worker w s.loop.holds → (s.clients i).trusting w.spaceSignals = false :=
    fun i signals => h.signalled (show Signals _ w (holders s.clients s.loop none) from signals) (Option.some_ne_none i)
  refine ⟨?_, spec.waiters.trans h.waiters, fun i => ?_, fun shut i trusts => ?_, fun i stuck room => ?_,
    fun closed => ?_⟩
  · rw [holders_update_worker s.clients s.loop l]
    exact h.lock.step spec.lock
  · rcases spec.signals with same | signals
    · exact (h.since i).trans same.ge
    · exact (h.since i).trans (signals.2 ▸ Nat.le_succ _)
  · rcases spec.signals with same | signals
    · dsimp only at trusts
      rw [same] at trusts
      rcases spec.closes shut with before | announces
      · refine (h.closing before i trusts).imp (fun announces => ?_) id
        rcases spec.announces announces with still | none_waits | signals
        · exact still
        · exact absurd none_waits (h.waiter trusts)
        · have bumped := signals.2
          omega
      · exact .inl announces
    · simp [signalled i signals] at trusts
  · rcases spec.signals with same | signals
    · dsimp only at stuck room
      rw [same] at stuck
      rcases spec.mailbox with more | owes
      · rcases spec.owes (h.full i stuck (more.trans_lt room)) with still | none_waits | signals
        · exact still
        · exact absurd none_waits (h.waiter (Client.trusting_of_stuck stuck))
        · have bumped := signals.2
          omega
      · exact owes
    · have trusts := Client.trusting_of_stuck stuck
      simp [signalled i signals] at trusts
  · rcases spec.closed closed with before | now
    · exact spec.stays (h.closed before)
    · exact now

theorem Spaced.client {i : ι} {w : Worker ι μ} {q : Client μ} (h : Spaced s)
    (spec : ClientSpace i s.worker w (s.clients i) q) :
    Spaced { s with worker := w, clients := Function.update s.clients i q } := by
  have signalled : ∀ j, j ≠ i → Signals s.worker w (s.clients i).holds →
      (s.clients j).trusting w.spaceSignals = false :=
    fun j hj signals => h.signalled (show Signals _ w (holders s.clients s.loop (some i)) from signals) (by simpa using hj)
  have counted := le_census Client.counted s.clients i
  have moved := census_update Client.counted s.clients i q
  have spared := spec.counted (by rw [h.waiters]; exact counted)
  -- those who waited unsignalled, or were about to, before this step
  have earlier : ∀ j, w.spaceSignals = s.worker.spaceSignals → w.accepting = false →
      (Function.update s.clients i q j).trusting w.spaceSignals = true →
      (s.clients j).trusting s.worker.spaceSignals = true := by
    intro j same shut trusts
    by_cases hj : j = i
    · subst hj
      rw [Function.update_self] at trusts
      rcases spec.trusting trusts with before | accepting
      · exact before
      · simp [shut] at accepting
    · rwa [Function.update_of_ne hj, same] at trusts
  have none_left : Signals s.worker w (s.clients i).holds → q.trusting w.spaceSignals = false →
      ∀ j, (Function.update s.clients i q j).trusting w.spaceSignals = false := by
    intro signals own j
    by_cases hj : j = i
    · subst hj
      rwa [Function.update_self]
    · rw [Function.update_of_ne hj]
      exact signalled j hj signals
  refine ⟨?_, ?_, fun j => ?_, fun shut j trusts => ?_, fun j stuck room => ?_, fun closed => ?_⟩
  · rw [holders_update_client]
    exact h.lock.step spec.lock
  · have waiters := h.waiters
    dsimp only
    omega
  · have more : s.worker.spaceSignals ≤ w.spaceSignals := by
      rcases spec.signals with same | ⟨signals, -⟩
      · exact same.ge
      · exact signals.2 ▸ Nat.le_succ _
    exact forall_update (P := fun _ (c : Client μ) => c.since ≤ w.spaceSignals) (fun j => (h.since j).trans more)
      (spec.since (h.since i)) j
  · dsimp only at shut trusts ⊢
    rcases spec.signals with same | ⟨signals, own⟩
    · have trusted := earlier j same shut trusts
      rcases spec.closes shut with before | announces
      · rcases h.closing before j trusted with announces | ⟨k, announces⟩
        · exact .inl announces
        · by_cases hk : k = i
          · subst hk
            rcases spec.announces announces with still | none_waits | signals
            · exact .inr ⟨k, by rwa [Function.update_self]⟩
            · exact absurd none_waits (h.waiter trusted)
            · have bumped := signals.2
              omega
          · exact .inr ⟨k, by rwa [Function.update_of_ne hk]⟩
      · exact .inr ⟨i, by rwa [Function.update_self]⟩
    · simp [none_left signals own j] at trusts
  · dsimp only at stuck room ⊢
    rcases spec.signals with same | ⟨signals, own⟩
    · have before : s.worker.mailbox.length < mailboxCapacity := spec.mailbox.trans_lt room
      by_cases hj : j = i
      · subst hj
        rw [Function.update_self] at stuck
        rcases spec.stuck stuck with stuck | full
        · exact h.full j stuck before
        · omega
      · rw [Function.update_of_ne hj, same] at stuck
        exact h.full j stuck before
    · have trusts := Client.trusting_of_stuck stuck
      simp [none_left signals own j] at trusts
  · exact spec.stays (h.closed closed)

omit [DecidableEq ι] in
theorem Spaced.frame {w : Worker ι μ} {n : Notifier} (h : Spaced s) (frame : SpaceFrame s.worker w) :
    Spaced { s with worker := w, notifier := n } where
  lock := by
    dsimp only
    rw [frame.lock]
    exact h.lock
  waiters := frame.waiters.trans h.waiters
  since i := (h.since i).trans frame.signals.ge
  closing shut i trusts := h.closing (frame.accepting.symm.trans shut) i (frame.signals ▸ trusts)
  full i stuck room := h.full i (frame.signals ▸ stuck) (frame.mailbox.trans_lt room)
  closed closed := frame.accepting.trans (h.closed closed)

theorem Spaced.step {a : Action ι μ} (h : Spaced s) (moves : step a s = some t) : Spaced t := by
  have same : ∀ {w : Worker ι μ}, SpaceFrame w w := ⟨rfl, rfl, rfl, rfl, le_rfl⟩
  cases a with
  | client i move =>
    obtain ⟨⟨w, q⟩, moved, rfl⟩ := Option.map_eq_some_iff.mp moves
    exact h.client (clientStep_space moved)
  | loop move =>
    obtain ⟨⟨w, l⟩, moved, rfl⟩ := Option.map_eq_some_iff.mp moves
    exact h.loop (loopStep_space moved)
  | notifier =>
    obtain ⟨⟨w, n⟩, moved, rfl⟩ := Option.map_eq_some_iff.mp moves
    exact h.frame (notifierStep_space moved)
  | requestOther | closeNotifier | closeEndpoint | retireReceiver =>
    obtain rfl := Option.some.inj moves
    exact h.frame (n := s.notifier) ⟨rfl, rfl, rfl, rfl, le_rfl⟩

theorem spaced_of_reachable (h : (machine ι μ).Reachable s) : Spaced s := by
  apply h.invariant
  · rintro _ rfl
    refine ⟨fun agent inside => ?_, (census_const_zero rfl).symm, fun i => le_rfl, fun shut => ?_,
      fun i stuck => ?_, fun closed => ?_⟩
    · cases agent <;> simp [holders, freshState, Client.holds, Loop.holds] at inside
    · simp [freshState, freshWorker] at shut
    · simp [freshState, Client.stuck] at stuck
    · simp [freshState, Loop.closed] at closed
  · exact fun a s t hs moves => hs.step moves

end run

/-- A producer waits for space and has not been signalled, there is space or admission is
closed, nobody is between closing admission and the signal, and the worker has exited or
is in its native wait with an empty mailbox. -/
structure Stranded (s : State ι μ) (i : ι) : Prop where
  waits : (s.clients i).stuck s.worker.spaceSignals = true
  due : s.worker.mailbox.length < mailboxCapacity ∨ s.worker.accepting = false
  nobody : s.loop.announces = false ∧ ∀ j, (s.clients j).announces = false
  gone : s.loop = .exited ∨ ∃ requested, s.loop = .native requested ∧ s.worker.mailbox = []

/-- No producer is stranded, whether or not another one is still waking the worker. -/
theorem no_stranded_producer [Fintype ι] [DecidableEq ι] {s : State ι μ}
    (h : (machine ι μ).Reachable s) (i : ι) : ¬Stranded s i := by
  intro stranded
  have spaced := spaced_of_reachable h
  have open_still : s.worker.accepting ≠ false := by
    intro shut
    rcases spaced.closing shut i (Client.trusting_of_stuck stranded.waits) with announces | ⟨j, announces⟩
    · simp [stranded.nobody.1] at announces
    · simp [stranded.nobody.2 j] at announces
  rcases stranded.gone with exited | ⟨requested, asleep, empty⟩
  · exact open_still (spaced.closed (by rw [exited, Loop.closed]))
  · have owes := spaced.full i stranded.waits (by simp [empty, mailboxCapacity])
    simp [asleep, Loop.owes] at owes

/-- Enough submissions to fill the mailbox, a required one that has to wait for space, and
the worker at the drain. -/
def fillAndDrain : List (Action Bool ℕ) :=
  List.flatten [.client true (.sendMsg 7) :: List.replicate 12 (.client true .tick),
    List.flatten (List.replicate 255 (.client true (.sendMsg 7) :: List.replicate 8 (.client true .tick))),
    .client false (.sendRequiredMsg 9) :: List.replicate 13 (.client false .tick),
    List.replicate 5 (.loop .tick)]

/-- The producer waits and there is space, which the worker signals when it has drained the rest. -/
def halfDrained : State Bool ℕ := (machine Bool ℕ).runFrom fillAndDrain (freshState _ _)

theorem halfDrained_not_stranded : (halfDrained.worker.mailbox.length = 254 ∧ halfDrained.worker.handled = [7, 7] ∧
    (halfDrained.clients false).stuck halfDrained.worker.spaceSignals = true) ∧ ¬Stranded halfDrained false :=
  ⟨by decide +kernel, no_stranded_producer (.runFrom _ (.init rfl)) false⟩

end Busker.Evloop
