import Busker.ResponseQueue.Budget

/-! No drain is lost. While a writer is not stopped its drain state is idle exactly when
nobody holds the drain: no producer about to post, no posted command, no worker in
`send-vecs` and nothing in flight. A chunk put meanwhile is seen by whoever holds the
drain, or its producer has still to decide who does. -/

namespace Busker.ResponseQueue

open Interleaving

namespace Producer

/-- Has activated the drain and not posted its command. -/
def token : Producer → ℕ
  | .schedule (.track _) _ | .schedule .post _ | .schedule .refuse _ => 1
  | _ => 0

/-- Has put a chunk and not yet found out or decided who drains it. -/
def undecided : Producer → Bool
  | .markFinal | .schedule .read _ | .schedule .activate _ | .schedule .signal _ => true
  | _ => false

/-- Has been refused by the worker and has stopped the writer. -/
def refused : Producer → Bool
  | .schedule .reset _ | .schedule .untrack _ => true
  | _ => false

/-- Between `bbq/put` and the end of `schedule-drain!`. -/
def scheduling : Producer → Bool
  | .markFinal | .schedule _ _ => true
  | _ => false

/-- The chunk has passed the size check of `put`. -/
def putting (c : Chunk) : Producer → Prop
  | .put point d _ => point ≠ .ensureOpen ∧ d = c
  | _ => False

end Producer

namespace Worker

/-- Inside `send-vecs` before the drain goes idle or in flight, or about to enter it. -/
def token (k : Worker) : ℕ :=
  match k with
  | .readStopped | .proceedStopped => 1
  | k => k.inLoop.toNat

/-- Has found the queue empty and not yet retired the drain. -/
def checking : Worker → Bool
  | .readState | .retireSwap => true
  | _ => false

def releasing : Worker → ℕ
  | .releaseChunks _ | .clearInFlight => 1
  | _ => 0

def sending : Worker → ℕ
  | .setInFlight _ => 1
  | _ => 0

end Worker

namespace Writer

def busy (w : Writer) : ℕ := if w.drainState = .idle then 0 else 1

def flying (w : Writer) : ℕ := w.inFlight.isSome.toNat

end Writer

/-- What a producer step does to the drain. -/
structure PostSpec (cfg : Config) (w v : Writer) (p q : Producer) : Prop where
  owed : v.owed = w.owed
  inFlight : v.inFlight = w.inFlight
  stopped : w.stopped = true → v.stopped = true
  items : v.queue.items = w.queue.items ∨
    ∃ c, p.putting c ∧ v.queue.items = w.queue.items ++ [c] ∧ q.undecided = true
  putting : ∀ c, q.putting c → p.putting c ∨ c.bytes ≤ cfg.capacity
  refused : q.refused = true → p.refused = true ∨ v.stopped = true
  token : v.stopped = false → p.refused = false →
    v.commands + q.token + w.busy = w.commands + p.token + v.busy
  drainState : v.stopped = false → p.refused = false →
    v.drainState = w.drainState ∨ w.drainState = .idle ∧ v.drainState = .active ∨
      v.drainState = .signalled
  undecided : p.undecided = true → q.undecided = true ∨ v.drainState = .signalled ∨
    w.drainState = .idle ∧ v.drainState = .active

/-- The part of the writer these steps are about is left alone. -/
structure PostFrame (w v : Writer) : Prop where
  owed : v.owed = w.owed
  inFlight : v.inFlight = w.inFlight
  stopped : v.stopped = w.stopped
  items : v.queue.items = w.queue.items
  commands : v.commands = w.commands
  drainState : v.drainState = w.drainState

theorem PostFrame.spec {cfg : Config} {w v : Writer} {p q : Producer} (h : PostFrame w v)
    (token : q.token = p.token) (undecided : p.undecided = false)
    (putting : ∀ c, q.putting c → p.putting c ∨ c.bytes ≤ cfg.capacity)
    (refused : q.refused = true → p.refused = true) : PostSpec cfg w v p q where
  owed := h.owed
  inFlight := h.inFlight
  stopped := h.stopped.trans
  items := .inl h.items
  putting := putting
  refused := fun on => .inl (refused on)
  token := fun _ _ => by rw [h.commands, token, Writer.busy, Writer.busy, h.drainState]
  drainState := fun _ _ => .inl h.drainState
  undecided := by simp [undecided]

theorem resume_quiet (sender : Sender) :
    sender.resume.token = 0 ∧ sender.resume.undecided = false ∧ sender.resume.refused = false ∧
      ∀ c, ¬sender.resume.putting c := by
  cases sender <;> exact ⟨rfl, rfl, rfl, fun _ => id⟩

theorem scheduleStep_post {cfg : Config} {w v : Writer} {sender : Sender} {point : Schedule}
    {move : ProducerMove} {q : Producer} (h : scheduleStep w sender point move = some (v, q)) :
    PostSpec cfg w v (.schedule point sender) q := by
  obtain ⟨token, undecided, refused, putting⟩ := resume_quiet sender
  cases point <;> cases move <;>
    simp only [scheduleStep, reduceCtorEq, Option.some.injEq, Prod.mk.injEq] at h
  case read.tick =>
    obtain ⟨rfl, rfl⟩ := h
    refine ⟨rfl, rfl, id, .inl rfl, ?_, ?_, fun _ _ => ?_, fun _ _ => .inl rfl, ?_⟩ <;>
      cases state : w.drainState <;>
      simp [Producer.putting, Producer.refused, Producer.token, Producer.undecided]
  case activate.tick =>
    split at h <;> rename_i state <;> obtain ⟨rfl, rfl⟩ := Prod.mk.inj (Option.some.inj h)
    · refine ⟨rfl, rfl, id, .inl rfl, by simp [Producer.putting], by simp [Producer.refused],
        fun _ _ => ?_, fun _ _ => .inr (.inl ⟨state, rfl⟩), fun _ => .inr (.inr ⟨state, rfl⟩)⟩
      simp [Producer.token, Writer.busy, state]
    · exact ⟨rfl, rfl, id, .inl rfl, by simp [Producer.putting], by simp [Producer.refused],
        fun _ _ => rfl, fun _ _ => .inl rfl, fun _ => .inl rfl⟩
  case signal.tick =>
    split at h <;> rename_i state <;> obtain ⟨rfl, rfl⟩ := Prod.mk.inj (Option.some.inj h)
    · refine ⟨rfl, rfl, id, .inl rfl, by simp [Producer.putting], by simp [Producer.refused],
        fun _ _ => ?_, fun _ _ => .inr (.inr rfl), fun _ => .inr (.inl rfl)⟩
      simp [Producer.token, Writer.busy, state]
    · exact ⟨rfl, rfl, id, .inl rfl, by simp [Producer.putting], by simp [Producer.refused],
        fun _ _ => rfl, fun _ _ => .inl rfl, fun _ => .inl rfl⟩
  case track.tick inner =>
    rcases step : trackStep w inner with ⟨u, next⟩
    rw [step] at h
    obtain ⟨tracked, rfl⟩ := trackStep_frame step
    obtain ⟨rfl, rfl⟩ := h
    cases next <;> exact PostFrame.spec ⟨rfl, rfl, rfl, rfl, rfl, rfl⟩ rfl rfl
      (by simp [Producer.putting]) (by simp [Producer.refused])
  case post.reply accepted =>
    split at h <;> obtain ⟨rfl, rfl⟩ := Prod.mk.inj (Option.some.inj h)
    · refine ⟨rfl, rfl, id, .inl rfl, fun c put => absurd put (putting c), by simp [refused],
        fun _ _ => ?_, fun _ _ => .inl rfl, by simp [Producer.undecided]⟩
      show w.commands + 1 + sender.resume.token + w.busy = w.commands + 1 + w.busy
      rw [token]
    · exact PostFrame.spec ⟨rfl, rfl, rfl, rfl, rfl, rfl⟩ rfl rfl (by simp [Producer.putting])
        (by simp [Producer.refused])
  case wake.tick =>
    obtain ⟨rfl, rfl⟩ := h
    exact PostFrame.spec ⟨rfl, rfl, rfl, rfl, rfl, rfl⟩ token rfl (fun c put => absurd put (putting c))
      (by simp [refused])
  case refuse.tick =>
    obtain ⟨rfl, rfl⟩ := h
    exact ⟨rfl, rfl, fun _ => rfl, .inl rfl, by simp [Producer.putting], fun _ => .inr rfl, by simp,
      by simp, by simp [Producer.undecided]⟩
  case reset.tick | untrack.tick =>
    obtain ⟨rfl, rfl⟩ := h
    exact ⟨rfl, rfl, id, .inl rfl, by simp [Producer.putting], fun _ => .inl rfl,
      by simp [Producer.refused], by simp [Producer.refused], by simp [Producer.undecided]⟩

theorem putStep_post {cfg : Config} {q r : Queue} {c : Chunk} {point : Put} {result : PutResult}
    (h : putStep cfg q c point = some (r, result)) :
    (r.items = q.items ∧ result ≠ .queued ∨ r.items = q.items ++ [c] ∧ point = .enqueue ∧ result = .queued) ∧
      (point = .ensureOpen → result = .thrown ∨ c.bytes ≤ cfg.capacity) := by
  cases point <;> simp only [putStep, Option.some.injEq, Prod.mk.injEq] at h
  case ensureOpen =>
    obtain ⟨rfl, rfl⟩ := h
    split_ifs with shut <;> simp_all
  case acquire =>
    split at h
    · obtain ⟨rfl, rfl⟩ := Prod.mk.inj (Option.some.inj h)
      simp
    · contradiction
  case recheck => obtain ⟨rfl, rfl⟩ := h; split_ifs <;> simp
  case account => obtain ⟨rfl, rfl⟩ := h; simp
  case enqueue => obtain ⟨rfl, rfl⟩ := h; simp
  case release =>
    obtain ⟨rfl, rfl⟩ := h
    unfold Queue.release
    split_ifs <;> simp

theorem putMove_post {cfg : Config} {q r : Queue} {c : Chunk} {point : Put} {move : ProducerMove}
    {result : PutResult} (h : putMove cfg q c point move = some (r, result)) :
    (r.items = q.items ∧ result ≠ .queued ∨ r.items = q.items ++ [c] ∧ point = .enqueue ∧ result = .queued) ∧
      (point = .ensureOpen → result = .thrown ∨ c.bytes ≤ cfg.capacity) := by
  obtain ⟨-, put⟩ | ⟨-, rfl, rfl, rfl⟩ := putMove_cases h
  · exact putStep_post put
  · exact ⟨.inl ⟨rfl, by simp⟩, by simp⟩

theorem queued_undecided (sender : Sender) :
    sender.queued.token = 0 ∧ sender.queued.undecided = true ∧ sender.queued.refused = false ∧
      ∀ c, ¬sender.queued.putting c := by
  cases sender <;> exact ⟨rfl, rfl, rfl, fun _ => id⟩

theorem producerStep_post {cfg : Config} {w v : Writer} {p q : Producer} {move : ProducerMove}
    (h : producerStep cfg w p move = some (v, q)) : PostSpec cfg w v p q := by
  cases p
  case put point c sender =>
    obtain ⟨⟨r, result⟩, put, h⟩ := Option.map_eq_some_iff.mp h
    obtain ⟨⟨same, waits⟩ | ⟨items, rfl, rfl⟩, sized⟩ := putMove_post put
    · cases result with
      | next point' =>
        obtain ⟨rfl, rfl⟩ := Prod.mk.inj h
        refine PostFrame.spec ⟨rfl, rfl, rfl, same, rfl, rfl⟩ rfl rfl ?_ (by simp [Producer.refused])
        rintro d ⟨-, rfl⟩
        by_cases start : point = .ensureOpen
        · exact .inr ((sized start).resolve_left (by simp))
        · exact .inl ⟨start, rfl⟩
      | queued => contradiction
      | thrown =>
        obtain ⟨rfl, rfl⟩ := Prod.mk.inj h
        exact PostFrame.spec ⟨rfl, rfl, rfl, same, rfl, rfl⟩ rfl rfl (by simp [Producer.putting])
          (by simp [Producer.refused])
    · obtain ⟨rfl, rfl⟩ := Prod.mk.inj h
      obtain ⟨token, undecided, refused, putting⟩ := queued_undecided sender
      refine ⟨rfl, rfl, id, .inr ⟨c, ⟨by simp, rfl⟩, items, undecided⟩, fun c put => absurd put (putting c),
        by simp [refused], fun _ _ => ?_, fun _ _ => .inl rfl, fun _ => .inl undecided⟩
      rw [token]
      rfl
  case markFinal =>
    cases move <;> simp only [producerStep, reduceCtorEq, Option.some.injEq, Prod.mk.injEq] at h
    obtain ⟨rfl, rfl⟩ := h
    exact ⟨rfl, rfl, id, .inl rfl, by simp [Producer.putting], by simp [Producer.refused],
      fun _ _ => rfl, fun _ _ => .inl rfl, fun _ => .inl rfl⟩
  case schedule point sender => exact scheduleStep_post h
  all_goals
    cases move <;> simp only [producerStep, reduceCtorEq, Option.some.injEq, Prod.mk.injEq] at h
  case idle.call c =>
    cases c <;> obtain ⟨rfl, rfl⟩ := Prod.mk.inj (Option.some.inj h) <;>
      exact PostFrame.spec ⟨rfl, rfl, rfl, rfl, rfl, rfl⟩ rfl rfl (by simp [Producer.putting])
        (by simp [Producer.refused])
  case writeBorrow.borrow =>
    obtain ⟨⟨b, pool⟩, -, h⟩ := Option.map_eq_some_iff.mp h
    obtain ⟨rfl, rfl⟩ := Prod.mk.inj h
    exact PostFrame.spec ⟨rfl, rfl, rfl, rfl, rfl, rfl⟩ rfl rfl (by simp [Producer.putting])
        (by simp [Producer.refused])
  case writeClosing.tick | closeClosing.tick =>
    split at h <;> obtain ⟨rfl, rfl⟩ := Prod.mk.inj (Option.some.inj h) <;>
      exact PostFrame.spec ⟨rfl, rfl, rfl, rfl, rfl, rfl⟩ rfl rfl (by simp [Producer.putting])
        (by simp [Producer.refused])
  all_goals
    obtain ⟨rfl, rfl⟩ := h
    refine PostFrame.spec ⟨rfl, rfl, rfl, rfl, rfl, rfl⟩ ?_ rfl ?_ ?_ <;> (try cases w.current) <;>
      (repeat' split) <;> simp [Producer.putting, Producer.refused, Producer.token]

/-- What a worker step does to the drain, where nothing is in flight inside the loop of
`send-vecs` and something is while it is released. -/
structure SendSpec (w v : Writer) (k l : Worker) : Prop where
  stopped : w.stopped = true → v.stopped = true
  items : v.queue.items <:+ w.queue.items
  start : ∀ rem, l = .drain rem [] → rem = preferredChunkSize
  inLoop : l.inLoop = true →
    k.inLoop = true ∧ v.inFlight = w.inFlight ∨ k = .readStopped ∧ w.stopped = false ∧ v = w
  owed : v.owed + l.releasing + w.flying + k.sending = w.owed + k.releasing + v.flying + l.sending
  token : v.stopped = false → (k.checking = true → w.busy = 1) →
    v.commands + l.token + v.flying + w.busy = w.commands + k.token + w.flying + v.busy
  drainState : v.drainState = .idle → w.drainState = .idle ∨
    k.checking = true ∧ w.drainState = .active ∧ v.queue = w.queue
  checking : l.checking = true → v = w ∧ (k.checking = true ∨ ∃ rem, k = .drain rem [] ∧
    ∀ c, w.queue.items.head? = some c → ¬(0 < rem ∧ c.bytes ≤ rem))

/-- The part of the writer these steps are about is left alone. -/
structure SendFrame (w v : Writer) : Prop where
  stopped : w.stopped = true → v.stopped = true
  items : v.queue.items = w.queue.items
  inFlight : v.inFlight = w.inFlight
  owed : v.owed = w.owed
  commands : v.commands = w.commands
  drainState : v.drainState = w.drainState

theorem SendFrame.spec {w v : Writer} {k l : Worker} (h : SendFrame w v) (token : l.token = k.token)
    (releasing : l.releasing = k.releasing) (sending : l.sending = k.sending)
    (inLoop : l.inLoop = true → k.inLoop = true) (start : ∀ rem, l ≠ .drain rem [])
    (checking : l.checking = false) : SendSpec w v k l where
  stopped := h.stopped
  items := h.items ▸ List.suffix_rfl
  start := fun rem at_ => absurd at_ (start rem)
  inLoop := fun on => .inl ⟨inLoop on, h.inFlight⟩
  owed := by rw [Writer.flying, Writer.flying, h.owed, h.inFlight, releasing, sending]
  token := fun _ _ => by
    rw [Writer.flying, Writer.flying, Writer.busy, Writer.busy, h.commands, h.inFlight, h.drainState, token]
  drainState := fun at_ => .inl (h.drainState ▸ at_)
  checking := by simp [checking]

theorem package_send {w : Writer} {rem : ℕ} {acc : List Chunk}
    (empty : ∀ c, w.queue.items.head? = some c → ¬(0 < rem ∧ c.bytes ≤ rem)) :
    SendSpec w w (.drain rem acc) (package acc) := by
  unfold package
  split
  · rename_i none
    obtain rfl := List.isEmpty_iff.mp none
    exact ⟨id, List.suffix_rfl, by simp, fun _ => .inl ⟨rfl, rfl⟩, rfl, fun _ _ => rfl, .inl,
      fun _ => ⟨rfl, .inr ⟨rem, rfl, empty⟩⟩⟩
  · exact SendFrame.spec ⟨id, rfl, rfl, rfl, rfl, rfl⟩ rfl rfl rfl (fun _ => rfl) (by simp) rfl

theorem workerStep_send {cfg : Config} {w v : Writer} {k l : Worker} {move : WorkerMove}
    (start : ∀ rem, k = .drain rem [] → rem = preferredChunkSize)
    (grounded : k.inLoop = true → w.inFlight = none) (flying : k.releasing = 1 → w.inFlight.isSome = true)
    (fits : ∀ rem acc c, k = .release rem acc c → w.queue.permits + c.bytes < 2 ^ 31)
    (h : workerStep cfg w k move = some (v, l)) : SendSpec w v k l := by
  cases k <;> cases move <;>
    simp only [workerStep, reduceCtorEq, Option.some.injEq, Prod.mk.injEq] at h
  case drain.tick rem acc =>
    split at h
    · rename_i c items queued
      split at h <;> rename_i fit <;> obtain ⟨rfl, rfl⟩ := Prod.mk.inj (Option.some.inj h)
      · refine ⟨id, ⟨[c], by simp [queued]⟩, ?_, fun _ => .inl ⟨rfl, rfl⟩, ?_, ?_, .inl, ?_⟩ <;>
          split_ifs <;> simp [Worker.token, Worker.inLoop, Worker.releasing, Worker.sending, Worker.checking,
            Writer.busy, Writer.flying]
      · exact package_send (by simpa [queued] using fit)
    · rename_i queued
      obtain ⟨rfl, rfl⟩ := Prod.mk.inj (Option.some.inj h)
      exact package_send (by simp [queued])
  case release.tick rem acc c =>
    rw [Queue.release, if_pos (fits rem acc c rfl)] at h
    obtain ⟨rfl, rfl⟩ := Prod.mk.inj (Option.some.inj h)
    exact SendFrame.spec ⟨id, rfl, rfl, rfl, rfl, rfl⟩ rfl rfl rfl (fun _ => rfl) (by simp) rfl
  case setInFlight.tick acc =>
    obtain ⟨rfl, rfl⟩ := h
    refine ⟨id, List.suffix_rfl, by simp, by simp [Worker.inLoop], ?_, fun _ _ => ?_, .inl,
      by simp [Worker.checking]⟩ <;>
      simp [Worker.token, Worker.inLoop, Worker.releasing, Worker.sending, Writer.busy, Writer.flying,
        grounded rfl]
  case clearInFlight.tick =>
    obtain ⟨rfl, rfl⟩ := h
    refine ⟨id, List.suffix_rfl, by simp, by simp [Worker.inLoop], ?_, fun _ _ => ?_, .inl,
      by simp [Worker.checking]⟩ <;>
      simp [Worker.token, Worker.inLoop, Worker.releasing, Worker.sending, Writer.busy, Writer.flying,
        flying rfl]
  case stopRelease.tick =>
    unfold Queue.release at h
    split_ifs at h <;> obtain ⟨rfl, rfl⟩ := h <;>
      exact SendFrame.spec ⟨id, rfl, rfl, rfl, rfl, rfl⟩ rfl rfl rfl (by simp [Worker.inLoop]) (by simp) rfl
  case stopTake.tick =>
    obtain ⟨rfl, rfl⟩ := h
    cases w.current <;>
      exact SendFrame.spec ⟨id, rfl, rfl, rfl, rfl, rfl⟩ rfl rfl rfl (by simp [Worker.inLoop]) (by simp) rfl
  case retireSwap.tick =>
    split at h <;> rename_i state <;> obtain ⟨rfl, rfl⟩ := Prod.mk.inj (Option.some.inj h)
    · refine ⟨id, List.suffix_rfl, by simp, by simp [Worker.inLoop], rfl, fun _ _ => ?_,
        fun _ => .inr ⟨rfl, state, rfl⟩, by simp [Worker.checking]⟩
      simp only [Worker.token, Worker.inLoop, Writer.busy, Writer.flying, state, reduceCtorEq, if_true,
        if_false, Bool.toNat_true, Bool.toNat_false]
      omega
    · exact ⟨id, List.suffix_rfl, by simp, fun _ => .inl ⟨rfl, rfl⟩, rfl, fun _ _ => rfl, .inl,
        by simp [Worker.checking]⟩
  case readState.tick =>
    obtain ⟨rfl, rfl⟩ := h
    refine ⟨id, List.suffix_rfl, ?_, ?_, ?_, fun _ busy => have busy := busy rfl; ?_, .inl,
      fun _ => ⟨rfl, .inl rfl⟩⟩ <;>
      cases state : w.drainState <;>
      simp_all [Worker.token, Worker.inLoop, Worker.releasing, Worker.sending, Writer.busy]
  case retire.tick point =>
    obtain ⟨⟨tracked, rfl⟩, rfl | ⟨next, rfl⟩⟩ := retireStep_frame h <;>
      exact SendFrame.spec ⟨id, rfl, rfl, rfl, rfl, rfl⟩ rfl rfl rfl (by simp [Worker.inLoop]) (by simp) rfl
  case demote.tick final | consume.tick =>
    obtain ⟨rfl, rfl⟩ := h
    refine ⟨id, List.suffix_rfl, ?_, ?_, ?_, fun _ _ => ?_, ?_, ?_⟩ <;>
      cases state : w.drainState <;> (try cases final) <;>
      simp_all [Worker.token, Worker.inLoop, Worker.releasing, Worker.sending, Worker.checking, Writer.busy,
        Writer.flying]
  case idle.command | idle.proceed =>
    split at h <;> simp only [reduceCtorEq, Option.some.injEq, Prod.mk.injEq] at h
    obtain ⟨rfl, rfl⟩ := h
    refine ⟨id, List.suffix_rfl, by simp, by simp [Worker.inLoop], ?_, fun _ _ => ?_, .inl,
      by simp [Worker.checking]⟩ <;>
      simp [Worker.token, Worker.inLoop, Worker.releasing, Worker.sending, Writer.busy, Writer.flying]
    omega
  case releaseChunks.tick | releaseChunks.giveBack =>
    split at h <;> simp only [reduceCtorEq, Option.some.injEq, Prod.mk.injEq] at h
    obtain ⟨rfl, rfl⟩ := h
    exact SendFrame.spec ⟨id, rfl, rfl, rfl, rfl, rfl⟩ rfl rfl rfl (by simp [Worker.inLoop]) (by simp) rfl
  case readStopped.tick =>
    obtain ⟨rfl, rfl⟩ := h
    refine ⟨id, List.suffix_rfl, ?_, ?_, ?_, fun running _ => ?_, .inl, ?_⟩ <;>
      cases state : w.stopped <;>
      simp_all [Worker.token, Worker.inLoop, Worker.releasing, Worker.sending, Worker.checking, Writer.busy,
        Writer.flying]
  case readInFlight.tick =>
    obtain ⟨rfl, rfl⟩ := h
    have none := grounded rfl
    simp only [none, Option.isNone_none, if_true]
    exact ⟨id, List.suffix_rfl, by simp, fun _ => .inl ⟨rfl, rfl⟩, rfl, fun _ _ => rfl, .inl,
      by simp [Worker.checking]⟩
  case stopClose.tick =>
    split at h <;> obtain ⟨rfl, rfl⟩ := Prod.mk.inj (Option.some.inj h) <;>
      exact SendFrame.spec ⟨id, rfl, rfl, rfl, rfl, rfl⟩ rfl rfl rfl (by simp [Worker.inLoop]) (by simp) rfl
  all_goals
    obtain ⟨rfl, rfl⟩ := h
    refine ⟨?_, ?_, ?_, ?_, ?_, ?_, ?_, ?_⟩ <;> (repeat' split) <;>
      simp_all [Worker.inLoop, Worker.token, Worker.checking, Worker.releasing, Worker.sending,
        Writer.busy, Writer.flying]

/-- Who holds the drain, and what a worker about to retire it may overlook. -/
structure Held (cfg : Config) (s : State) : Prop where
  owed : s.writer.owed + s.worker.releasing = s.writer.flying + s.worker.sending
  grounded : s.worker.inLoop = true → s.writer.inFlight = none
  start : ∀ rem, s.worker = .drain rem [] → rem = preferredChunkSize
  sized : ∀ c ∈ s.writer.queue.items, c.bytes ≤ cfg.capacity
  putting : ∀ c, s.producer.putting c → c.bytes ≤ cfg.capacity
  refused : s.producer.refused = true → s.writer.stopped = true
  token : s.writer.stopped = false →
    s.writer.commands + s.producer.token + s.worker.token + s.writer.flying = s.writer.busy
  idle : s.writer.stopped = false → s.writer.drainState = .idle →
    s.writer.queue.items = [] ∨ s.producer.undecided = true
  checking : s.writer.stopped = false → s.worker.checking = true →
    s.writer.queue.items = [] ∨ s.writer.drainState = .signalled ∨ s.producer.undecided = true

variable {cfg : Config} {api : Call → Bool} {s t : State} {a : Action}

theorem Writer.busy_of_ne {w : Writer} (h : w.drainState ≠ .idle) : w.busy = 1 := if_neg h

theorem Writer.ne_of_busy {w : Writer} (h : 0 < w.busy) : w.drainState ≠ .idle := fun idle => by
  simp [Writer.busy, idle] at h

theorem running_before {w v : Writer} (stopped : w.stopped = true → v.stopped = true)
    (h : v.stopped = false) : w.stopped = false :=
  Bool.eq_false_iff.mpr fun on => by simp [stopped on] at h

theorem Worker.checking_token {k : Worker} (h : k.checking = true) : k.token = 1 := by
  cases k <;> simp_all [Worker.checking, Worker.token, Worker.inLoop]

theorem Held.producer {w : Writer} {p : Producer} (h : Held cfg s)
    (spec : PostSpec cfg s.writer w s.producer p) : Held cfg { s with writer := w, producer := p } where
  owed := by
    have := h.owed
    simpa [Writer.flying, spec.owed, spec.inFlight] using this
  grounded on := spec.inFlight.trans (h.grounded on)
  start := h.start
  sized c queued := by
    rcases spec.items with same | ⟨d, putting, items, -⟩
    · exact h.sized c (same ▸ queued)
    · rw [items] at queued
      rcases List.mem_append.mp queued with queued | new
      · exact h.sized c queued
      · exact List.mem_singleton.mp new ▸ h.putting d putting
  putting c put := (spec.putting c put).elim (h.putting c) id
  refused on := (spec.refused on).elim (fun before => spec.stopped (h.refused before)) id
  token running := by
    have before := running_before spec.stopped running
    have calm : s.producer.refused = false := Bool.eq_false_iff.mpr fun on => by
      simp [h.refused on] at before
    have := h.token before
    have := spec.token running calm
    have flying : w.flying = s.writer.flying := by rw [Writer.flying, spec.inFlight]; rfl
    dsimp only
    omega
  idle running idle := by
    have before := running_before spec.stopped running
    have calm : s.producer.refused = false := Bool.eq_false_iff.mpr fun on => by
      simp [h.refused on] at before
    have was : s.writer.drainState = .idle := by
      rcases spec.drainState running calm with same | ⟨-, active⟩ | signalled
      · exact same.symm.trans idle
      · simp [active] at idle
      · simp [signalled] at idle
    rcases spec.items with same | ⟨-, -, -, undecided⟩
    · rcases h.idle before was with empty | undecided
      · exact .inl (same.trans empty)
      · rcases spec.undecided undecided with undecided | signalled | ⟨-, active⟩
        · exact .inr undecided
        · simp [signalled] at idle
        · simp [active] at idle
    · exact .inr undecided
  checking running checking := by
    have before := running_before spec.stopped running
    have calm : s.producer.refused = false := Bool.eq_false_iff.mpr fun on => by
      simp [h.refused on] at before
    have held : s.writer.drainState ≠ .idle := Writer.ne_of_busy <| by
      have := h.token before
      have := Worker.checking_token checking
      dsimp only at *
      omega
    rcases spec.items with same | ⟨-, -, -, undecided⟩
    · rcases h.checking before checking with empty | signalled | undecided
      · exact .inl (same.trans empty)
      · rcases spec.drainState running calm with same | ⟨idle, -⟩ | signalled
        · exact .inr (.inl (same.trans signalled))
        · exact absurd idle held
        · exact .inr (.inl signalled)
      · rcases spec.undecided undecided with undecided | signalled | ⟨idle, -⟩
        · exact .inr (.inr undecided)
        · exact .inr (.inl signalled)
        · exact absurd idle held
    · exact .inr (.inr undecided)

theorem Held.worker {w : Writer} {k : Worker} (h : Held cfg s) (spec : SendSpec s.writer w s.worker k) :
    Held cfg { s with writer := w, worker := k } where
  owed := by
    have := h.owed
    have := spec.owed
    dsimp only
    omega
  grounded on := by
    rcases spec.inLoop on with ⟨before, same⟩ | ⟨entering, running, rfl⟩
    · exact same.trans (h.grounded before)
    · have := h.token running
      have : s.writer.flying = 0 := by
        have : s.writer.busy ≤ 1 := by unfold Writer.busy; split <;> omega
        simp only [entering, Worker.token] at *
        omega
      simpa [Writer.flying] using this
  start := spec.start
  sized c queued := h.sized c (spec.items.subset queued)
  putting := h.putting
  refused on := spec.stopped (h.refused on)
  token running := by
    have before := running_before spec.stopped running
    have := h.token before
    have := spec.token running fun checking => Writer.busy_of_ne <| Writer.ne_of_busy <| by
      have := Worker.checking_token checking
      omega
    dsimp only
    omega
  idle running idle := by
    have before := running_before spec.stopped running
    have none : s.writer.queue.items = [] → w.queue.items = [] := fun empty =>
      List.suffix_nil.mp (empty ▸ spec.items)
    rcases spec.drainState idle with was | ⟨checking, active, -⟩
    · exact (h.idle before was).imp_left none
    · rcases h.checking before checking with empty | signalled | undecided
      · exact .inl (none empty)
      · simp [active] at signalled
      · exact .inr undecided
  checking running checking := by
    obtain ⟨rfl, before | ⟨rem, draining, unfit⟩⟩ := spec.checking checking
    · exact h.checking running before
    · refine .inl (List.head?_eq_none_iff.mp (Option.eq_none_iff_forall_ne_some.mpr fun c head => ?_))
      have := h.sized c (List.mem_of_head? head)
      have := h.start rem draining
      have := cfg.isInt
      refine unfit c head ?_
      unfold preferredChunkSize at *
      omega

theorem Held.step (h : Held cfg s) (budget : Budgeted cfg s) (moves : step cfg api a s = some t) :
    Held cfg t := by
  rcases step_cases moves with ⟨move, w, p, -, -, moved, rfl⟩ | ⟨move, w, k, -, moved, rfl⟩ |
    ⟨move, pool, -, -, rfl⟩
  · exact h.producer (producerStep_post moved)
  · refine h.worker (workerStep_send h.start h.grounded (fun releasing => ?_) budget.fits_release moved)
    have := h.owed
    have : s.worker.sending = 0 := by cases at_ : s.worker <;> simp_all [Worker.releasing, Worker.sending]
    have := s.writer.inFlight.isSome.toNat_le
    exact Bool.toNat_eq_one.mp (by unfold Writer.flying at *; omega)
  · exact ⟨h.owed, h.grounded, h.start, h.sized, h.putting, h.refused, h.token, h.idle, h.checking⟩

theorem held_of_reachable (h : (machine cfg api).Reachable s) : Held cfg s := by
  refine h.invariant_of (I := Held cfg) (J := Budgeted cfg) (fun _ => budgeted_of_reachable) ?_
    fun a s t budget hs moves => hs.step budget moves
  rintro _ ⟨pool, -, rfl⟩
  refine ⟨?_, ?_, ?_, ?_, ?_, ?_, ?_, ?_, ?_⟩ <;>
    simp [freshState, Queue.fresh, Writer.flying, Writer.busy, Worker.releasing, Worker.sending,
      Worker.token, Worker.inLoop, Worker.checking, Producer.token, Producer.putting, Producer.refused]

/-- Somebody will drain the queue: a send is in flight, a posted command has not run
yet, the worker is inside `send-vecs`, or the producer is between its `put` and the
end of its `schedule-drain!`. -/
def Drains (s : State) : Prop :=
  s.writer.inFlight.isSome = true ∨ 0 < s.writer.commands ∨ 0 < s.worker.token ∨
    s.producer.scheduling = true

theorem Producer.scheduling_of_undecided {p : Producer} (h : p.undecided = true) :
    p.scheduling = true := by
  cases p <;> simp_all [Producer.undecided, Producer.scheduling]

theorem Producer.scheduling_of_token {p : Producer} (h : 0 < p.token) : p.scheduling = true := by
  cases p <;> simp_all [Producer.token, Producer.scheduling]

/-- Whoever holds the drain is one of these, and h2o owes a proceed for what is in
flight unless the worker is already serving it. -/
theorem drains_of_reachable (h : (machine cfg api).Reachable s) (running : s.writer.stopped = false)
    (queued : s.writer.queue.items ≠ []) :
    Drains s ∧ (s.writer.inFlight.isSome = true → 0 < s.writer.owed ∨ s.worker.releasing = 1) := by
  have held := held_of_reachable h
  constructor
  · by_cases idle : s.writer.drainState = .idle
    · have undecided := (held.idle running idle).resolve_left queued
      exact .inr (.inr (.inr (Producer.scheduling_of_undecided undecided)))
    · have token := held.token running
      rw [Writer.busy_of_ne idle] at token
      by_cases flying : s.writer.inFlight.isSome = true
      · exact .inl flying
      · simp only [Writer.flying, flying, Bool.toNat_false] at token
        by_cases commands : 0 < s.writer.commands
        · exact .inr (.inl commands)
        · by_cases worker : 0 < s.worker.token
          · exact .inr (.inr (.inl worker))
          · exact .inr (.inr (.inr (Producer.scheduling_of_token (by omega))))
  · intro flying
    have := held.owed
    simp only [Writer.flying, flying, Bool.toNat_true] at this
    have : s.worker.releasing ≤ 1 := by unfold Worker.releasing; split <;> omega
    omega

/-- A pool no request has used. -/
def emptyPool : Pool := ⟨fun _ => .allocate 0, 0, [], [], []⟩

theorem emptyPool_sound : emptyPool.Sound := fun _ => rfl

def smallQueue : Config := ⟨8, by decide, by decide⟩

/-- Put a chunk of three bytes, up to the first look at the drain state. -/
def putChunk : List Action :=
  .producer (.call (.chunk ⟨[], 3, false⟩)) :: List.replicate 5 (.producer .tick)

/-- A second chunk put after the worker, done with the first, has found the queue empty. -/
def putWhileRetiring : List Action := List.flatten [
  putChunk, List.replicate 4 (.producer .tick), [.producer (.reply true), .worker .command],
  List.replicate 9 (.worker .tick), [.worker .proceed], List.replicate 7 (.worker .tick), putChunk]

theorem drains_putWhileRetiring :
    Drains ((machine smallQueue fun _ => true).runFrom putWhileRetiring (freshState smallQueue emptyPool)) :=
  (drains_of_reachable
    ((Machine.Reachable.init (m := machine _ _) ⟨emptyPool, emptyPool_sound, rfl⟩).runFrom _)
    (by decide +kernel) (by decide +kernel)).1

end Busker.ResponseQueue
