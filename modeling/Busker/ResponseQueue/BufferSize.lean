import Busker.BufferPool.OneSize
import Busker.ResponseQueue.NoLostDrain

/-! Which output buffer sizes work. The size is the capacity of the queue and the size that is
borrowed, and the default pool rounds what it lends up to its factor. -/
namespace Busker.ResponseQueue

open Interleaving

/-- `byte-bounded-spsc-queue`, which throws when there is no capacity. -/
def byteBoundedSpscQueue (capacityBytes : ℕ) (isInt : capacityBytes < 2 ^ 31) : Option Config :=
  if positive : 0 < capacityBytes then some ⟨capacityBytes, positive, isInt⟩ else none

/-- The capacity of the buffers that the default pool lends for a size. -/
def bufferCapacity (outputBufferSize : ℕ) : ℕ :=
  BufferPool.lentCapacity BufferPool.defaultConfig outputBufferSize

/-- The default pool of a configuration. Nothing is allocated yet. -/
def defaultPool (outputBufferSize : ℕ) : Pool :=
  ⟨fun _ => .allocate (bufferCapacity outputBufferSize), 0, [], [], []⟩

/-- All the requests of the configuration borrow for the one size. -/
def defaultLends (cfg : Config) : Action → State → Prop
  | .producer (.borrow (.fresh capacity)), _ | .other (.borrow _ (.fresh capacity)), _ =>
    capacity = bufferCapacity cfg.capacity
  | _, _ => True

/-- A writer over the default pool, which other requests use as well. -/
def defaultMachine (cfg : Config) : Machine State Action where
  init s := s = freshState cfg (defaultPool cfg.capacity)
  step := step cfg outStream

section
variable {cfg : Config} {w v : Writer} {p q : Producer} {k l : Worker} {s t : State} {cap : ℕ}

/-- All buffers have one capacity. -/
def Pool.Uniform (pool : Pool) (cap : ℕ) : Prop := ∀ b, (pool.heap b).capacity = cap

theorem Pool.Uniform.update {pool : Pool} (h : pool.Uniform cap) {b : ℕ}
    {f : ByteBuffer → ByteBuffer} (kept : (f (pool.heap b)).capacity = (pool.heap b).capacity) :
    (pool.update b f).Uniform cap := by
  intro x
  by_cases same : x = b
  · subst same
    simp only [Pool.update, Function.update_self]
    rw [kept, h]
  · simp only [Pool.update, Function.update_of_ne same]
    exact h x

theorem Pool.Uniform.giveBack {pool : Pool} (h : pool.Uniform cap) {b : ℕ} {keep : Bool} :
    (pool.giveBack b keep).Uniform cap := by
  intro x
  rw [Pool.heap_giveBack]
  exact h x

theorem Pool.Uniform.borrow {pool after : Pool} {size b : ℕ} {source : Source}
    (h : pool.Uniform cap) (fresh : ∀ capacity, source = .fresh capacity → capacity = cap)
    (borrowed : pool.borrow size source = some (b, after)) : after.Uniform cap := by
  obtain ⟨-, others, found⟩ := Pool.borrow_heap borrowed
  intro x
  by_cases same : x = b
  · subst same
    rw [found]
    cases source with
    | pooled c => exact h c
    | fresh capacity => exact fresh capacity rfl
  · rw [others x same]
    exact h x

theorem uniform_readBufs {heap : Heap} (h : ∀ b, (heap b).capacity = cap) (bufs : List ℕ) (b : ℕ) :
    ((readBufs heap bufs).2 b).capacity = cap := by
  induction bufs generalizing heap with
  | nil => exact h b
  | cons first rest ih =>
      apply ih
      intro x
      by_cases same : x = first
      · subst same
        rw [Function.update_self, ByteBuffer.capacity_get, h]
      · rw [Function.update_of_ne same, h]

/-- A chunk that is being put fits a buffer. -/
def Producer.Fits (cap : ℕ) : Producer → Prop
  | .put _ c _ => c.bytes ≤ cap
  | _ => True

theorem sealChunk_fits {heap : Heap} {b : ℕ} {final : Bool} (h : (heap b).capacity = cap) :
    (sealChunk heap [b] final).bytes ≤ cap := by
  have within := (heap b).limit_le
  unfold ByteBuffer.capacity at h
  simp only [sealChunk, List.map_cons, List.map_nil, List.sum_cons, List.sum_nil, Nat.add_zero,
    ByteBuffer.remaining]
  omega

theorem scheduleStep_uniform {sender : Sender} {point : Schedule} {move : ProducerMove}
    (h : scheduleStep w sender point move = some (v, q)) : v.pool = w.pool ∧ q.Fits cap := by
  cases point <;> cases move <;>
    simp only [scheduleStep, reduceCtorEq, Option.some.injEq, Prod.mk.injEq] at h
  case activate.tick | signal.tick | post.reply =>
    split at h <;> obtain ⟨rfl, rfl⟩ := Prod.mk.inj (Option.some.inj h) <;> cases sender <;>
      exact ⟨rfl, trivial⟩
  case track.tick inner =>
    rcases step : trackStep w inner with ⟨u, next⟩
    rw [step] at h
    obtain ⟨tracked, rfl⟩ := trackStep_frame step
    obtain ⟨rfl, rfl⟩ := h
    cases next <;> exact ⟨rfl, trivial⟩
  case wake.tick =>
    obtain ⟨rfl, rfl⟩ := h
    cases sender <;> exact ⟨rfl, trivial⟩
  all_goals
    obtain ⟨rfl, rfl⟩ := h
    exact ⟨rfl, trivial⟩

theorem producerStep_uniform {move : ProducerMove} (h : producerStep cfg w p move = some (v, q))
    (api : offered outStream move = true) (uniform : w.pool.Uniform cap) (fits : p.Fits cap)
    (fresh : ∀ capacity, move = .borrow (.fresh capacity) → capacity = cap) :
    v.pool.Uniform cap ∧ q.Fits cap := by
  cases p
  case put point c sender =>
    obtain ⟨⟨r, result⟩, put, h⟩ := Option.map_eq_some_iff.mp h
    cases result <;> obtain ⟨rfl, rfl⟩ := Prod.mk.inj h
    · exact ⟨uniform, fits⟩
    · cases sender <;> exact ⟨uniform, trivial⟩
    · exact ⟨uniform, trivial⟩
  case schedule point sender =>
    obtain ⟨same, fits⟩ := scheduleStep_uniform h
    exact ⟨same ▸ uniform, fits⟩
  all_goals
    cases move <;> simp only [producerStep, reduceCtorEq, Option.some.injEq, Prod.mk.injEq] at h
  case idle.call c =>
    cases c <;> obtain ⟨rfl, rfl⟩ := Prod.mk.inj (Option.some.inj h)
    case chunk => cases api
    all_goals exact ⟨uniform, trivial⟩
  case writeBorrow.borrow rest source =>
    obtain ⟨⟨b, pool⟩, borrowed, h⟩ := Option.map_eq_some_iff.mp h
    obtain ⟨rfl, rfl⟩ := Prod.mk.inj h
    exact ⟨uniform.borrow (fun capacity same => fresh capacity (by rw [same])) borrowed, trivial⟩
  case writeSet.tick b rest =>
    obtain ⟨rfl, rfl⟩ := h
    exact ⟨uniform.update ByteBuffer.capacity_clear, trivial⟩
  case writePut.tick b rest =>
    obtain ⟨rfl, rfl⟩ := h
    refine ⟨uniform.update (f := fun _ => _) (ByteBuffer.capacity_put _), ?_⟩
    split <;> trivial
  case seal.tick b sender =>
    obtain ⟨rfl, rfl⟩ := h
    have flipped := uniform.update (b := b) ByteBuffer.capacity_flip
    exact ⟨flipped, sealChunk_fits (flipped b)⟩
  case closeReturn.giveBack b keep =>
    obtain ⟨rfl, rfl⟩ := h
    exact ⟨uniform.giveBack, trivial⟩
  case writeClosing.tick | closeClosing.tick =>
    split at h <;> obtain ⟨rfl, rfl⟩ := Prod.mk.inj (Option.some.inj h) <;>
      exact ⟨uniform, trivial⟩
  case closeCurrent.tick =>
    obtain ⟨rfl, rfl⟩ := h
    refine ⟨uniform, ?_⟩
    repeat' split
    · trivial
    · exact Nat.zero_le _
    · exact Nat.zero_le _
  all_goals
    obtain ⟨rfl, rfl⟩ := h
    refine ⟨uniform, ?_⟩
    (try cases w.current) <;> (repeat' split) <;> trivial

theorem workerStep_uniform {move : WorkerMove} (h : workerStep cfg w k move = some (v, l))
    (uniform : w.pool.Uniform cap) : v.pool.Uniform cap := by
  cases k <;> cases move <;>
    simp only [workerStep, reduceCtorEq, Option.some.injEq, Prod.mk.injEq] at h
  case retire.tick point =>
    obtain ⟨⟨tracked, rfl⟩, -⟩ := retireStep_frame h
    exact uniform
  case send.tick acc =>
    obtain ⟨rfl, rfl⟩ := h
    exact uniform_readBufs uniform _
  case releaseChunks.giveBack todo keep =>
    split at h
    · obtain ⟨rfl, rfl⟩ := Prod.mk.inj (Option.some.inj h)
      exact uniform.giveBack
    · contradiction
  case stopReturn.giveBack b keep =>
    obtain ⟨rfl, rfl⟩ := h
    exact uniform.giveBack
  case stopRelease.tick =>
    cases released : w.queue.release cfg.capacity <;> rw [released] at h <;>
      obtain ⟨rfl, rfl⟩ := h <;> exact uniform
  case release.tick rem acc c =>
    split at h <;> obtain ⟨rfl, rfl⟩ := Prod.mk.inj (Option.some.inj h) <;> exact uniform
  case drain.tick rem acc =>
    split at h
    · split at h <;> obtain ⟨rfl, rfl⟩ := Prod.mk.inj (Option.some.inj h) <;> exact uniform
    · obtain ⟨rfl, rfl⟩ := Prod.mk.inj (Option.some.inj h)
      exact uniform
  case idle.command | idle.proceed | retireSwap.tick | releaseChunks.tick | stopClose.tick =>
    split at h <;> simp only [reduceCtorEq, Option.some.injEq, Prod.mk.injEq] at h <;>
      obtain ⟨rfl, rfl⟩ := h <;> exact uniform
  all_goals
    obtain ⟨rfl, rfl⟩ := h
    exact uniform

/-- All buffers have the capacity that the pool lends, and no chunk that is put is larger. -/
theorem uniform_of_reachable (h : (defaultMachine cfg).ReachableVia (defaultLends cfg) s) :
    s.writer.pool.Uniform (bufferCapacity cfg.capacity) ∧
      s.producer.Fits (bufferCapacity cfg.capacity) := by
  apply h.invariant (I := fun s => s.writer.pool.Uniform (bufferCapacity cfg.capacity) ∧
    s.producer.Fits (bufferCapacity cfg.capacity))
  · rintro _ rfl
    exact ⟨fun b => List.length_replicate .., trivial⟩
  · rintro a s t ⟨uniform, fits⟩ allowed moves
    rcases step_cases moves with ⟨move, w, p, rfl, api, moved, rfl⟩ | ⟨move, w, k, rfl, moved, rfl⟩ |
      ⟨move, pool, rfl, moved, rfl⟩
    · refine producerStep_uniform moved api uniform fits ?_
      rintro capacity rfl
      exact allowed
    · exact ⟨workerStep_uniform moved uniform, fits⟩
    · refine ⟨?_, fits⟩
      cases move with
      | borrow size source =>
          obtain ⟨⟨b, after⟩, borrowed, rfl⟩ := Option.map_eq_some_iff.mp moved
          have lent : after.Uniform (bufferCapacity cfg.capacity) := by
            refine uniform.borrow ?_ borrowed
            rintro capacity rfl
            exact allowed
          exact lent
      | giveBack b keep =>
          simp only [otherStep, Option.ite_none_right_eq_some, Option.some.injEq] at moved
          obtain ⟨-, rfl⟩ := moved
          intro x
          dsimp only
          rw [Pool.heap_giveBack]
          exact uniform x
      | touch b content =>
          simp only [otherStep, Option.ite_none_right_eq_some, Option.some.injEq] at moved
          obtain ⟨⟨-, same⟩, rfl⟩ := moved
          exact uniform.update (f := fun _ => content) same

theorem reachable_of_default (h : (defaultMachine cfg).ReachableVia (defaultLends cfg) s) :
    (machine cfg outStream).Reachable s := by
  induction h with
  | init h => exact .init ⟨defaultPool cfg.capacity, fun _ => rfl, h⟩
  | step _ _ moves ih => exact ih.step moves

/-- A drain takes the first chunk, if it may. -/
theorem drain_takes (h : (machine cfg outStream).Reachable s) {rem : ℕ} {acc items : List Chunk}
    {c : Chunk} (at_ : s.worker = .drain rem acc) (queued : s.writer.queue.items = c :: items)
    (fits : 0 < rem ∧ c.bytes ≤ rem) :
    ∃ n t, (machine cfg outStream).run (List.replicate n (.worker .tick)) s = some t ∧
      t.producer = s.producer ∧ t.worker = .drain (rem - c.bytes) (acc ++ [c]) ∧
      t.writer.queue.items = items := by
  by_cases some_bytes : 0 < c.bytes
  · have polled : (machine cfg outStream).step (.worker .tick) s = some { s with
        writer := { s.writer with queue := { s.writer.queue with items := items } }
        worker := .account rem acc c } := by
      simp only [machine, step, at_, workerStep, queued, if_pos fits, if_pos some_bytes,
        Option.map_some]
    have accounted := (h.step polled).step (m := machine cfg outStream) (a := .worker .tick) rfl
    have room := (budgeted_of_reachable accounted).fits_release rem acc c rfl
    dsimp only at room
    refine ⟨3, { s with
      writer := { s.writer with queue := { s.writer.queue with
        items := items
        queuedBytes := s.writer.queue.queuedBytes - c.bytes
        permits := s.writer.queue.permits + c.bytes } }
      worker := .drain (rem - c.bytes) (acc ++ [c]) }, ?_, rfl, rfl, rfl⟩
    rw [List.replicate_succ, Machine.run_cons, polled]
    simp only [List.replicate, Machine.run_cons, Machine.run_nil, Option.bind_some, machine, step,
      workerStep, Option.map_some, Queue.release, if_pos room]
  · have polled : (machine cfg outStream).step (.worker .tick) s = some { s with
        writer := { s.writer with queue := { s.writer.queue with items := items } }
        worker := .drain rem (acc ++ [c]) } := by
      simp only [machine, step, at_, workerStep, queued, if_pos fits, if_neg some_bytes,
        Option.map_some]
    refine ⟨1, { s with
      writer := { s.writer with queue := { s.writer.queue with items := items } }
      worker := .drain rem (acc ++ [c]) }, ?_, rfl, ?_, rfl⟩
    · rw [List.replicate_succ, Machine.run_cons, polled]
      rfl
    · have none : c.bytes = 0 := by omega
      rw [none]
      rfl

/-- A drain that may take all that is queued does so. -/
theorem drain_takes_all (h : (machine cfg outStream).Reachable s) {rem : ℕ} {acc : List Chunk}
    (at_ : s.worker = .drain rem acc) (enough : s.writer.queue.bytes < rem) :
    ∃ n t rem acc, (machine cfg outStream).run (List.replicate n (.worker .tick)) s = some t ∧
      t.producer = s.producer ∧ t.worker = .drain rem acc ∧ t.writer.queue.items = [] := by
  generalize queued : s.writer.queue.items = items
  induction items generalizing s rem acc with
  | nil => exact ⟨0, s, rem, acc, rfl, rfl, at_, queued⟩
  | cons c items ih =>
      have bytes : s.writer.queue.bytes = c.bytes + (items.map (·.bytes)).sum := by
        simp [Queue.bytes, queued]
      obtain ⟨n, t, ran, producer, worker, left⟩ := drain_takes h at_ queued (by omega)
      obtain ⟨m, u, rem', acc', after, same, drains, empty⟩ := ih (h.run ran) worker (by
        simp only [Queue.bytes, left]
        omega) left
      refine ⟨n + m, u, rem', acc', ?_, same.trans producer, drains, empty⟩
      rw [List.replicate_add, Machine.run_append, ran]
      exact after

/-- A put that waits for room. -/
def State.waitsFor (s : State) (c : Chunk) : Prop :=
  (∃ sender, s.producer = .put .acquire c sender) ∧ s.writer.queue.permits < c.bytes

/-- No put throws for its size, one that waits has something to wait for, and a drain that
begins then makes room for it. -/
structure Flows (cfg : Config) (s : State) : Prop where
  accepted : ∀ c sender, s.producer = .put .ensureOpen c sender → c.bytes ≤ cfg.capacity
  waits : ∀ c, s.waitsFor c → s.writer.stopped = false → Drains s ∨ 0 < s.worker.unreleased
  room : ∀ c, s.waitsFor c → s.worker = .drain preferredChunkSize [] →
    ∃ n t, (machine cfg outStream).run (List.replicate n (.worker .tick)) s = some t ∧
      t.producer = s.producer ∧ c.bytes ≤ t.writer.queue.permits

/-- A chunk that fits the queue is let in when the queue has been drained. -/
theorem flows_of_fits (h : (machine cfg outStream).Reachable s)
    (fits : s.producer.Fits cfg.capacity) : Flows cfg s := by
  have budget := budgeted_of_reachable h
  have small := cfg.isInt
  constructor
  · intro c sender at_
    rw [at_] at fits
    exact fits
  · rintro c ⟨⟨sender, at_⟩, short⟩ running
    rw [at_] at fits
    change c.bytes ≤ cfg.capacity at fits
    have isOpen : s.writer.queue.closed = false := Bool.eq_false_iff.mpr fun shut => by
      rw [budget.closed shut] at running
      contradiction
    have balance := budget.balance isOpen
    have none : s.producer.acquired = 0 := by rw [at_]; rfl
    by_cases queued : s.writer.queue.items = []
    · right
      have empty : s.writer.queue.bytes = 0 := by simp [Queue.bytes, queued]
      omega
    · exact .inl (drains_of_reachable h running queued).1
  · rintro c ⟨⟨sender, at_⟩, short⟩ begins
    rw [at_] at fits
    change c.bytes ≤ cfg.capacity at fits
    have isOpen := budget.inLoop (by rw [begins]; rfl)
    have balance := budget.balance isOpen
    obtain ⟨n, t, rem, acc, ran, producer, worker, empty⟩ := drain_takes_all h begins (by
      unfold preferredChunkSize
      omega)
    refine ⟨n, t, ran, producer, ?_⟩
    have after := budgeted_of_reachable (h.run ran)
    have drained := after.balance (after.inLoop (by rw [worker]; rfl))
    rw [producer, at_, worker] at drained
    simp only [Queue.bytes, empty, Producer.acquired, Put.acquired, Worker.unreleased, List.map_nil,
      List.sum_nil] at drained
    omega

end

/-- A writer is created for the size, and all that is written to it flows. -/
def SizeWorks (outputBufferSize : ℕ) (isInt : outputBufferSize < 2 ^ 31) : Prop :=
  ∃ cfg, byteBoundedSpscQueue outputBufferSize isInt = some cfg ∧
    ∀ s, (defaultMachine cfg).ReachableVia (defaultLends cfg) s → Flows cfg s

section
variable {size : ℕ}

theorem bufferCapacity_eq :
    bufferCapacity size = if 65536 < size then size else min ((size + 2047) / 2048 * 2048) 65536 := by
  have most : BufferPool.defaultConfig.maxCapacity = 65536 := by decide
  have factor : BufferPool.defaultConfig.factor = 2048 := by decide
  have least : BufferPool.defaultConfig.minCapacity = 0 := by decide
  unfold bufferCapacity BufferPool.lentCapacity BufferPool.Config.aligned BufferPool.ceilDiv
  rw [most, factor, least, Nat.max_zero]
  rfl

/-- A buffer is no larger than the queue exactly if its size needs no rounding. -/
theorem bufferCapacity_le_iff : bufferCapacity size ≤ size ↔ 2048 ∣ size ∨ 65536 < size := by
  rw [bufferCapacity_eq]
  split <;> omega

/-- The buffer that a write borrows first, with what is copied into it. -/
theorem filled_remaining {b : ByteBuffer} {bytes : List UInt8} (clear : b.position = 0)
    (full : bytes.length = b.limit) (room : bytes.length ≤ b.remaining) :
    (b.put bytes room).remaining = 0 ∧ (b.put bytes room).flip.remaining = bytes.length := by
  simp [ByteBuffer.put, ByteBuffer.remaining, ByteBuffer.flip, clear, full]

/-- A write that fills the first buffer puts it as one chunk. -/
theorem fullBuffer_put {cfg : Config} {bytes : List UInt8} (some_bytes : bytes ≠ [])
    (full : bytes.length = bufferCapacity cfg.capacity)
    (enough : cfg.capacity ≤ bufferCapacity cfg.capacity) :
    ∃ s c sender, (defaultMachine cfg).ReachableVia (defaultLends cfg) s ∧
      s.producer = .put .ensureOpen c sender ∧ c.bytes = bufferCapacity cfg.capacity := by
  let start := freshState cfg (defaultPool cfg.capacity)
  have next {s t : State} (h : (defaultMachine cfg).ReachableVia (defaultLends cfg) s) (a : Action)
      (allowed : defaultLends cfg a s) (moves : step cfg outStream a s = some t) :
      (defaultMachine cfg).ReachableVia (defaultLends cfg) t := .step h allowed moves
  have called := next (s := start) (t := { start with producer := .writeStopped bytes })
    (.init rfl) (.producer (.call (.write bytes))) trivial rfl
  have running := next (t := { start with producer := .writeClosing bytes }) called
    (.producer .tick) trivial rfl
  let written : Writer := { start.writer with written := bytes }
  have admitted := next (t := { start with writer := written, producer := .writeCurrent bytes })
    running (.producer .tick) trivial rfl
  have empty := next (t := { start with writer := written, producer := .writeBorrow bytes })
    admitted (.producer .tick) trivial (by
      simp [step, offered, producerStep, some_bytes, start, freshState, written])
  let lent : Pool := { start.writer.pool with
    heap := Function.update start.writer.pool.heap 0 (.allocate (bufferCapacity cfg.capacity))
    next := 1 }
  have borrowed := next
    (t := { start with writer := { written with pool := lent }, producer := .writeSet 0 bytes })
    empty (.producer (.borrow (.fresh (bufferCapacity cfg.capacity)))) rfl (by
      simp [step, offered, producerStep, Pool.borrow, enough, start, freshState, defaultPool, lent,
        written])
  let cleared := lent.update 0 .clear
  have taken := next
    (t := { start with
      writer := { written with pool := cleared, current := some 0 }
      producer := .writePut 0 bytes })
    borrowed (.producer .tick) trivial rfl
  let buffer := cleared.heap 0
  let canCopy := min bytes.length buffer.remaining
  let copied := buffer.put (bytes.take canCopy)
    ((List.length_take_le ..).trans (Nat.min_le_right ..))
  have copying := next
    (t := { start with
      writer := { written with pool := cleared.update 0 fun _ => copied, current := some 0 }
      producer :=
        if copied.remaining = 0 then .seal 0 (.write (bytes.drop canCopy))
        else .writeCurrent (bytes.drop canCopy) })
    taken (.producer .tick) trivial rfl
  have room : buffer.limit = bufferCapacity cfg.capacity := by
    simp [buffer, cleared, Pool.update, lent, ByteBuffer.clear, ByteBuffer.capacity,
      ByteBuffer.allocate]
  have all : canCopy = bufferCapacity cfg.capacity := by
    change min bytes.length (buffer.limit - 0) = _
    rw [room, full, Nat.sub_zero, Nat.min_self]
  have length : (bytes.take canCopy).length = bufferCapacity cfg.capacity := by
    rw [List.length_take, all, full, Nat.min_self]
  obtain ⟨done, sealed⟩ := filled_remaining (b := buffer) rfl (length.trans room.symm)
    ((List.length_take_le ..).trans (Nat.min_le_right ..))
  rw [if_pos done] at copying
  refine ⟨_, _, _, next copying (.producer .tick) trivial rfl, rfl, ?_⟩
  have put : (sealChunk ((cleared.update 0 fun _ => copied).update 0 .flip).heap [0] false).bytes =
      copied.flip.remaining := by
    simp [sealChunk, Pool.update]
  rw [← length, ← sealed]
  exact put

end

/-- A full buffer larger than the queue is refused. -/
theorem not_sizeWorks_of_larger {size : ℕ} {isInt : size < 2 ^ 31}
    (larger : size < bufferCapacity size) : ¬ SizeWorks size isInt := by
  rintro ⟨cfg, created, flows⟩
  unfold byteBoundedSpscQueue at created
  split at created
  · obtain rfl := Option.some.inj created
    let bytes : List UInt8 := List.replicate (bufferCapacity size) 0
    have full : bytes.length = bufferCapacity size := List.length_replicate
    have some_bytes : bytes ≠ [] := List.ne_nil_of_length_pos (by omega)
    let cfg : Config := ⟨size, ‹_›, isInt⟩
    have enough : cfg.capacity ≤ bufferCapacity cfg.capacity := larger.le
    obtain ⟨s, c, sender, reached, at_, put⟩ := fullBuffer_put some_bytes full enough
    have accepted : c.bytes ≤ size := (flows s reached).accepted c sender at_
    rw [put] at accepted
    exact not_le.mpr larger accepted
  · cases created

/-- The sizes that work are those that are not rounded up. -/
theorem sizeWorks_iff {size : ℕ} (isInt : size < 2 ^ 31) :
    SizeWorks size isInt ↔ 0 < size ∧ (2048 ∣ size ∨ 65536 < size) := by
  constructor
  · intro works
    have positive : 0 < size := by
      obtain ⟨cfg, created, -⟩ := works
      unfold byteBoundedSpscQueue at created
      split at created
      · assumption
      · cases created
    refine ⟨positive, bufferCapacity_le_iff.mp ?_⟩
    by_contra larger
    exact not_sizeWorks_of_larger (not_le.mp larger) works
  · rintro ⟨positive, whole⟩
    refine ⟨⟨size, positive, isInt⟩, dif_pos positive, fun s reached => ?_⟩
    apply flows_of_fits (reachable_of_default reached)
    have fits := (uniform_of_reachable reached).2
    have le : bufferCapacity size ≤ size := bufferCapacity_le_iff.mpr whole
    cases at_ : s.producer <;> rw [at_] at fits
    case put point c sender => exact le_trans fits le
    all_goals trivial

/-- The default size. -/
theorem defaultSize_works : SizeWorks 32768 (by decide) :=
  (sizeWorks_iff (by decide)).mpr (by decide)

/-- No writer is created for 0, and a write of 2048 bytes throws for 1000. -/
theorem smallSizes_fail : ¬ SizeWorks 0 (by decide) ∧ ¬ SizeWorks 1000 (by decide) := by
  constructor
  · rintro ⟨cfg, created, -⟩
    cases created
  · exact not_sizeWorks_of_larger (by decide)

end Busker.ResponseQueue
