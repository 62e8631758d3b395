import Busker.ResponseQueue.SendVecs

/-! The byte budget of the queue. Until the queue is closed the free permits, the
queued chunks and what either side has in hand add up to the capacity, so the
release in `drain` never exceeds an `int` and `send-vecs` always runs to its end. -/

namespace Busker.ResponseQueue

open Interleaving

def Queue.bytes (q : Queue) : ℕ := (q.items.map (·.bytes)).sum

/-- Permits the producer has acquired for a chunk that is not queued yet. -/
def Put.acquired (c : Chunk) : Put → ℕ
  | .recheck | .account | .enqueue => c.bytes
  | _ => 0

def PutResult.acquired (c : Chunk) : PutResult → ℕ
  | .next point => point.acquired c
  | _ => 0

def Producer.acquired : Producer → ℕ
  | .put point c _ => point.acquired c
  | _ => 0

def Producer.releasing : Producer → Bool
  | .put .release _ _ => true
  | _ => false

/-- Permits of a polled chunk that the worker has not released yet. -/
def Worker.unreleased : Worker → ℕ
  | .account _ _ c | .release _ _ c => c.bytes
  | _ => 0

/-- Inside `send-vecs`, past its first check and before the send. -/
def Worker.inLoop : Worker → Bool
  | .readInFlight | .drain _ _ | .account _ _ _ | .release _ _ _ | .send _ | .setInFlight _
  | .readState | .retireSwap | .consume => true
  | _ => false

/-- Inside `on-stop`, which has set `stopped?_`. -/
def Worker.stopping : Worker → Bool
  | .stopUntrack | .stopClose | .stopRelease | .stopTake | .stopReturn _ => true
  | _ => false

/-- What a step of `put` does to the budget. The chunk is given back only once the
queue is closed. -/
structure PutBudget (q r : Queue) (c : Chunk) (point : Put) (result : PutResult) : Prop where
  closed : r.closed = q.closed
  releasing : result = .next .release → q.closed = true
  balance : q.closed = false → point ≠ .release →
    r.permits + r.bytes + result.acquired c = q.permits + q.bytes + point.acquired c

theorem Queue.release_closed (q : Queue) (n : ℕ) : ((q.release n).getD q).closed = q.closed := by
  unfold Queue.release
  split_ifs <;> rfl

theorem putStep_budget {cfg : Config} {q r : Queue} {c : Chunk} {point : Put} {result : PutResult}
    (h : putStep cfg q c point = some (r, result)) : PutBudget q r c point result := by
  cases point <;> simp only [putStep, Option.some.injEq, Prod.mk.injEq] at h
  case acquire =>
    split at h
    · obtain ⟨rfl, rfl⟩ := Prod.mk.inj (Option.some.inj h)
      refine ⟨rfl, by simp, fun _ _ => ?_⟩
      simp only [Queue.bytes, PutResult.acquired, Put.acquired]
      omega
    · contradiction
  case release =>
    obtain ⟨rfl, rfl⟩ := h
    exact ⟨q.release_closed _, by simp, fun _ not => absurd rfl not⟩
  all_goals
    obtain ⟨rfl, rfl⟩ := h
    refine ⟨rfl, ?_, fun isOpen _ => ?_⟩
  case ensureOpen.refine_1 | recheck.refine_1 => split_ifs <;> simp_all
  case account.refine_1 | enqueue.refine_1 => simp
  case ensureOpen.refine_2 =>
    split_ifs <;> simp only [PutResult.acquired, Put.acquired]
    omega
  case recheck.refine_2 =>
    simp only [isOpen, Bool.false_eq_true, if_false]
    split_ifs <;> rfl
  case account.refine_2 => rfl
  case enqueue.refine_2 =>
    simp only [Queue.bytes, PutResult.acquired, Put.acquired, List.map_append, List.sum_append,
      List.map_cons, List.map_nil, List.sum_cons, List.sum_nil]
    omega

theorem putMove_budget {cfg : Config} {q r : Queue} {c : Chunk} {point : Put} {move : ProducerMove}
    {result : PutResult} (h : putMove cfg q c point move = some (r, result)) :
    PutBudget q r c point result := by
  obtain ⟨-, put⟩ | ⟨-, rfl, rfl, rfl⟩ := putMove_cases h
  · exact putStep_budget put
  · exact ⟨rfl, by simp, fun _ _ => rfl⟩

/-- What a producer step does to the budget. -/
structure ProducerBudget (w v : Writer) (p q : Producer) : Prop where
  closed : v.queue.closed = w.queue.closed
  stopped : w.stopped = true → v.stopped = true
  releasing : q.releasing = true → w.queue.closed = true
  entering : q.releasing = true → ∃ point c sender, p = .put point c sender
  balance : w.queue.closed = false → p.releasing = false →
    v.queue.permits + v.queue.bytes + q.acquired = w.queue.permits + w.queue.bytes + p.acquired

theorem scheduleStep_budget {w v : Writer} {sender : Sender} {point : Schedule} {move : ProducerMove}
    {q : Producer} (h : scheduleStep w sender point move = some (v, q)) :
    v.queue = w.queue ∧ (w.stopped = true → v.stopped = true) ∧ q.acquired = 0 ∧ q.releasing = false := by
  cases point <;> cases move <;>
    simp only [scheduleStep, reduceCtorEq, Option.some.injEq, Prod.mk.injEq] at h
  case activate.tick | signal.tick | post.reply =>
    split at h <;> obtain ⟨rfl, rfl⟩ := Prod.mk.inj (Option.some.inj h) <;> cases sender <;>
      exact ⟨rfl, id, rfl, rfl⟩
  case track.tick inner =>
    rcases step : trackStep w inner with ⟨u, next⟩
    rw [step] at h
    obtain ⟨tracked, rfl⟩ := trackStep_frame step
    obtain ⟨rfl, rfl⟩ := h
    cases next <;> exact ⟨rfl, id, rfl, rfl⟩
  case wake.tick => obtain ⟨rfl, rfl⟩ := h; cases sender <;> exact ⟨rfl, id, rfl, rfl⟩
  case refuse.tick => obtain ⟨rfl, rfl⟩ := h; exact ⟨rfl, fun _ => rfl, rfl, rfl⟩
  all_goals obtain ⟨rfl, rfl⟩ := h; exact ⟨rfl, id, rfl, rfl⟩

theorem ProducerBudget.quiet {w v : Writer} {p q : Producer} (queue : v.queue = w.queue)
    (stopped : w.stopped = true → v.stopped = true) (before : p.acquired = 0) (after : q.acquired = 0)
    (calm : q.releasing = false) : ProducerBudget w v p q where
  closed := by rw [queue]
  stopped := stopped
  releasing := by simp [calm]
  entering := by simp [calm]
  balance := fun _ _ => by rw [queue, before, after]

theorem producerStep_budget {cfg : Config} {w v : Writer} {p q : Producer} {move : ProducerMove}
    (h : producerStep cfg w p move = some (v, q)) : ProducerBudget w v p q := by
  cases p
  case put point c sender =>
    obtain ⟨⟨r, result⟩, put, h⟩ := Option.map_eq_some_iff.mp h
    obtain ⟨closed, releasing, balance⟩ := putMove_budget put
    cases result with
    | next next =>
      obtain ⟨rfl, rfl⟩ := Prod.mk.inj h
      exact ⟨closed, id, by cases next <;> simp_all [Producer.releasing],
        fun _ => ⟨_, _, _, rfl⟩,
        fun isOpen calm => balance isOpen (by rintro rfl; contradiction)⟩
    | queued =>
      obtain ⟨rfl, rfl⟩ := Prod.mk.inj h
      refine ⟨closed, id, by cases sender <;> simp [Sender.queued, Producer.releasing],
        fun _ => ⟨_, _, _, rfl⟩,
        fun isOpen calm => ?_⟩
      have := balance isOpen (by rintro rfl; contradiction)
      cases sender <;> exact this
    | thrown =>
      obtain ⟨rfl, rfl⟩ := Prod.mk.inj h
      exact ⟨closed, id, by simp [Producer.releasing], fun _ => ⟨_, _, _, rfl⟩,
        fun isOpen calm => balance isOpen (by rintro rfl; contradiction)⟩
  case schedule point sender =>
    obtain ⟨queue, stopped, acquired, calm⟩ := scheduleStep_budget h
    exact .quiet queue stopped rfl acquired calm
  all_goals
    cases move <;> simp only [producerStep, reduceCtorEq, Option.some.injEq, Prod.mk.injEq] at h
  case idle.call c =>
    cases c <;> obtain ⟨rfl, rfl⟩ := Prod.mk.inj (Option.some.inj h) <;>
      exact .quiet rfl id rfl rfl rfl
  case writeBorrow.borrow =>
    obtain ⟨⟨b, pool⟩, -, h⟩ := Option.map_eq_some_iff.mp h
    obtain ⟨rfl, rfl⟩ := Prod.mk.inj h
    exact .quiet rfl id rfl rfl rfl
  case writeClosing.tick | closeClosing.tick =>
    split at h <;> obtain ⟨rfl, rfl⟩ := Prod.mk.inj (Option.some.inj h) <;>
      exact .quiet rfl id rfl rfl rfl
  all_goals
    obtain ⟨rfl, rfl⟩ := h
    refine .quiet rfl id rfl ?_ ?_ <;> (try cases w.current) <;> (repeat' split) <;> rfl

/-- What a worker step does to the budget. -/
structure WorkerBudget (cfg : Config) (w v : Writer) (k l : Worker) : Prop where
  stopped : w.stopped = true → v.stopped = true
  shut : w.queue.closed = true → v.queue.closed = true
  closed : v.queue.closed = w.queue.closed ∨ k.stopping = true
  stopping : l.stopping = true → v.stopped = true ∨ k.stopping = true
  inLoop : l.inLoop = true → k.inLoop = true ∨ v.stopped = false ∧ k.stopping = false
  refunding : l = .stopRelease → v.queue.closed = true
  balance : v.queue.closed = false → k ≠ .stopRelease → w.queue.permits + k.unreleased < 2 ^ 31 →
    v.queue.permits + v.queue.bytes + l.unreleased = w.queue.permits + w.queue.bytes + k.unreleased

theorem WorkerBudget.quiet {cfg : Config} {w v : Writer} {k l : Worker} (queue : v.queue = w.queue)
    (stopped : w.stopped = true → v.stopped = true)
    (stopping : l.stopping = true → v.stopped = true ∨ k.stopping = true)
    (inLoop : l.inLoop = true → k.inLoop = true ∨ v.stopped = false ∧ k.stopping = false)
    (refunding : l ≠ .stopRelease) (before : k.unreleased = 0) (after : l.unreleased = 0) :
    WorkerBudget cfg w v k l where
  stopped := stopped
  shut := fun shut => queue ▸ shut
  closed := .inl (by rw [queue])
  stopping := stopping
  inLoop := inLoop
  refunding := fun at_ => absurd at_ refunding
  balance := fun _ _ _ => by rw [queue, before, after]

theorem WorkerBudget.package {cfg : Config} {w : Writer} {rem : ℕ} {acc : List Chunk} :
    WorkerBudget cfg w w (.drain rem acc) (package acc) := by
  unfold ResponseQueue.package
  refine .quiet rfl id ?_ (fun _ => .inl rfl) ?_ rfl ?_ <;> split <;>
    simp [Worker.stopping, Worker.unreleased]

theorem workerStep_budget {cfg : Config} {w v : Writer} {k l : Worker} {move : WorkerMove}
    (h : workerStep cfg w k move = some (v, l)) : WorkerBudget cfg w v k l := by
  cases k <;> cases move <;>
    simp only [workerStep, reduceCtorEq, Option.some.injEq, Prod.mk.injEq] at h
  case drain.tick rem acc =>
    split at h
    · rename_i c items queued
      split at h <;> obtain ⟨rfl, rfl⟩ := Prod.mk.inj (Option.some.inj h)
      · refine ⟨id, id, .inl rfl, ?_, ?_, ?_, fun _ _ _ => ?_⟩ <;> split_ifs <;>
          simp [Worker.stopping, Worker.inLoop, Worker.unreleased, Queue.bytes, queued]
        all_goals omega
      · exact .package
    · obtain ⟨rfl, rfl⟩ := Prod.mk.inj (Option.some.inj h)
      exact .package
  case account.tick rem acc c =>
    obtain ⟨rfl, rfl⟩ := h
    exact ⟨id, id, .inl rfl, by simp [Worker.stopping], fun _ => .inl rfl, by simp, fun _ _ _ => rfl⟩
  case release.tick rem acc c =>
    unfold Queue.release at h
    split_ifs at h with room <;> obtain ⟨rfl, rfl⟩ := Prod.mk.inj (Option.some.inj h)
    · refine ⟨id, id, .inl rfl, by simp [Worker.stopping], fun _ => .inl rfl, by simp, fun _ _ _ => ?_⟩
      simp only [Worker.unreleased, Queue.bytes]
      omega
    · exact ⟨id, id, .inl rfl, by simp [Worker.stopping], by simp [Worker.inLoop], by simp,
        fun _ _ fits => absurd fits room⟩
  case stopClose.tick =>
    split at h <;> obtain ⟨rfl, rfl⟩ := Prod.mk.inj (Option.some.inj h)
    · exact .quiet rfl id (fun _ => .inr rfl) (by simp [Worker.inLoop]) (by simp) rfl rfl
    · exact ⟨id, fun _ => rfl, .inr rfl, fun _ => .inr rfl, by simp [Worker.inLoop], fun _ => rfl, by simp⟩
  case stopRelease.tick =>
    unfold Queue.release at h
    split_ifs at h <;> obtain ⟨rfl, rfl⟩ := h <;>
      exact ⟨id, id, .inl rfl, fun _ => .inr rfl, by simp [Worker.inLoop], by simp,
        fun _ not => absurd rfl not⟩
  case stopTake.tick =>
    obtain ⟨rfl, rfl⟩ := h
    cases w.current <;> exact .quiet rfl id (fun _ => .inr rfl) (by simp [Worker.inLoop]) (by simp) rfl rfl
  case idle.command | idle.proceed | retireSwap.tick | releaseChunks.tick | releaseChunks.giveBack =>
    split at h <;> simp only [reduceCtorEq, Option.some.injEq, Prod.mk.injEq] at h <;>
      obtain ⟨rfl, rfl⟩ := h <;>
      exact .quiet rfl id (by simp [Worker.stopping]) (by simp [Worker.inLoop]) (by simp) rfl rfl
  case retire.tick point =>
    obtain ⟨⟨tracked, rfl⟩, rfl | ⟨next, rfl⟩⟩ := retireStep_frame h <;>
      exact .quiet rfl id (by simp [Worker.stopping]) (by simp [Worker.inLoop]) (by simp) rfl rfl
  all_goals
    obtain ⟨rfl, rfl⟩ := h
    refine .quiet rfl ?_ ?_ ?_ ?_ ?_ ?_ <;> (repeat' split) <;>
      simp_all [Worker.stopping, Worker.inLoop, Worker.unreleased]

/-- The budget and where the queue may be closed. -/
structure Budgeted (cfg : Config) (s : State) : Prop where
  balance : s.writer.queue.closed = false →
    s.writer.queue.permits + s.writer.queue.bytes + s.producer.acquired + s.worker.unreleased =
      cfg.capacity
  releasing : s.producer.releasing = true → s.writer.queue.closed = true
  refunding : s.worker = .stopRelease → s.writer.queue.closed = true
  stopping : s.worker.stopping = true → s.writer.stopped = true
  closed : s.writer.queue.closed = true → s.writer.stopped = true
  inLoop : s.worker.inLoop = true → s.writer.queue.closed = false

theorem Budgeted.fits {cfg : Config} {s : State} (h : Budgeted cfg s)
    (isOpen : s.writer.queue.closed = false) :
    s.writer.queue.permits + s.worker.unreleased < 2 ^ 31 := by
  have := h.balance isOpen
  have := cfg.isInt
  omega

theorem Budgeted.fits_release {cfg : Config} {s : State} (h : Budgeted cfg s) (rem : ℕ)
    (acc : List Chunk) (c : Chunk) (at_ : s.worker = .release rem acc c) :
    s.writer.queue.permits + c.bytes < 2 ^ 31 := by
  have := h.fits (h.inLoop (by rw [at_]; rfl))
  rwa [at_] at this

theorem Budgeted.producer {cfg : Config} {s : State} {w : Writer} {p : Producer}
    (h : Budgeted cfg s) (spec : ProducerBudget s.writer w s.producer p) :
    Budgeted cfg { s with writer := w, producer := p } where
  balance isOpen := by
    have isOpen := spec.closed.symm.trans isOpen
    have := h.balance isOpen
    have := spec.balance isOpen (Bool.eq_false_iff.mpr fun on => by simp [h.releasing on] at isOpen)
    dsimp only at *
    omega
  releasing on := spec.closed.trans (spec.releasing on)
  refunding at_ := spec.closed.trans (h.refunding at_)
  stopping on := spec.stopped (h.stopping on)
  closed shut := spec.stopped (h.closed (spec.closed.symm.trans shut))
  inLoop on := spec.closed.trans (h.inLoop on)

theorem Budgeted.worker {cfg : Config} {s : State} {w : Writer} {k : Worker}
    (h : Budgeted cfg s) (spec : WorkerBudget cfg s.writer w s.worker k) :
    Budgeted cfg { s with writer := w, worker := k } where
  balance isOpen := by
    have before : s.writer.queue.closed = false := Bool.eq_false_iff.mpr fun shut => by
      simp [spec.shut shut] at isOpen
    have := h.balance before
    have := spec.balance isOpen (fun at_ => by simp [h.refunding at_] at before) (h.fits before)
    dsimp only at *
    omega
  releasing on := spec.shut (h.releasing on)
  refunding at_ := spec.refunding at_
  stopping on := (spec.stopping on).elim id fun before => spec.stopped (h.stopping before)
  closed shut := spec.stopped (spec.closed.elim (fun same => h.closed (same ▸ shut)) h.stopping)
  inLoop on := by
    have after : s.worker.stopping = false ∧ s.writer.queue.closed = false := by
      rcases spec.inLoop on with before | ⟨running, calm⟩
      · refine ⟨?_, h.inLoop before⟩
        cases at_ : s.worker <;> simp_all [Worker.inLoop, Worker.stopping]
      · refine ⟨calm, Bool.eq_false_iff.mpr fun shut => ?_⟩
        simp [spec.stopped (h.closed shut)] at running
    rcases spec.closed with same | stopping
    · exact same.trans after.2
    · simp [after.1] at stopping

variable {cfg : Config} {api : Call → Bool} {s t : State} {a : Action}

theorem Budgeted.step (h : Budgeted cfg s) (moves : step cfg api a s = some t) : Budgeted cfg t := by
  rcases step_cases moves with ⟨move, w, p, -, -, moved, rfl⟩ | ⟨move, w, k, -, moved, rfl⟩ |
    ⟨move, pool, -, -, rfl⟩
  · exact h.producer (producerStep_budget moved)
  · exact h.worker (workerStep_budget moved)
  · exact ⟨h.balance, h.releasing, h.refunding, h.stopping, h.closed, h.inLoop⟩

theorem budgeted_of_reachable (h : (machine cfg api).Reachable s) : Budgeted cfg s := by
  refine h.invariant (I := Budgeted cfg) ?_ fun a s t hs moves => hs.step moves
  rintro _ ⟨pool, -, rfl⟩
  refine ⟨fun _ => ?_, ?_, ?_, ?_, ?_, ?_⟩ <;>
    simp [freshState, Queue.fresh, Queue.bytes, Producer.acquired, Worker.unreleased,
      Producer.releasing, Worker.stopping, Worker.inLoop]

end Busker.ResponseQueue
