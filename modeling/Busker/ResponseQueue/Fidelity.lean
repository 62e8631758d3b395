import Busker.ResponseQueue.BodySteps

/-! A streamed body arrives as it was written. The places of the bytes, in order, hold
the bytes written in every state of a run in which nobody stops the request or
interrupts a `put`, and no other request touches a buffer that holds some of them. -/

namespace Busker.ResponseQueue

open Interleaving

/-- Where the bytes written are, in a run that nobody stops or interrupts. -/
structure Streaming (cfg : Config) (s : State) : Prop where
  stream : s.writer.written = sentBytes s.writer.sent ++
    content s.writer.pool.heap (chunkBufs s.worker.acc) ++ s.writer.tail s.producer
  isOpen : s.writer.queue.closed = false
  inStop : s.worker.inStop = false
  sealed : s.producer.sealed = true → s.writer.filled s.producer = []
  lost : s.producer.admitted = true ∨ s.writer.stopped = false → s.writer.lost = []
  stopped : s.writer.stopped = true → s.writer.finalSent ∨
    s.writer.filled s.producer = [] ∧ s.producer.ended = true
  drained : s.finalPut → s.writer.filled s.producer = [] ∧ s.writer.lost = []
  returning : s.producer.returning = true → s.writer.stopped = true
  capacity : ∀ b ∈ s.writer.currentBuf s.producer ++ s.producer.fresh,
    (s.writer.pool.heap b).capacity ≤ cfg.capacity
  sized : ∀ c ∈ s.producer.putChunk, c.bytes ≤ cfg.capacity
  alone : s.writer.overlap = false

variable {cfg : Config} {s t : State} {a : Action}

theorem Accounted.live (h : Accounted s) {b : ℕ} (hb : b ∈ s.borrowed) :
    s.writer.pool.tally b = 0 ∧ b < s.writer.pool.next := by
  have owners := h.owners b
  rw [s.owners_borrowed] at owners
  have := List.count_pos_iff.mpr hb
  unfold Pool.made at owners
  split at owners <;> omega

theorem Worker.acc_own (k : Worker) {b : ℕ} (hb : b ∈ chunkBufs k.acc) : b ∈ k.own := by
  cases k <;> simp_all [Worker.acc, Worker.own]

theorem Producer.putChunk_own (p : Producer) {b : ℕ} (hb : b ∈ chunkBufs p.putChunk) : b ∈ p.own := by
  cases p <;> simp_all [Producer.putChunk, Producer.own]

theorem Producer.fresh_own (p : Producer) {b : ℕ} (hb : b ∈ p.fresh) : b ∈ p.own := by
  cases p <;> simp_all [Producer.fresh, Producer.own]

theorem Producer.filling_grip {p : Producer} {b : ℕ} (h : p.filling = some b) :
    p.grip = some b ∧ p.returned = false := by
  cases p <;> simp_all [Producer.filling, Producer.grip, Producer.returned]

theorem Accounted.filling (h : Accounted s) {b : ℕ} (filling : s.producer.filling = some b) :
    b ∈ s.writer.currentBuf s.producer := by
  obtain ⟨grip, returned⟩ := Producer.filling_grip filling
  simp [Writer.currentBuf, returned, h.grip b grip]

/-- The places of `borrowed` are apart from each other. -/
theorem Accounted.disjoint (h : Accounted s) (b : ℕ) :
    (s.writer.currentBuf s.producer).count b + s.producer.own.count b +
      (chunkBufs s.writer.queue.items).count b + s.worker.own.count b ≤ 1 := by
  have := h.owners_le b
  simp only [State.borrowed, List.count_append] at this
  omega

theorem Streaming.ready (h : Streaming cfg s) (owned : Accounted s) (budget : Budgeted cfg s)
    (held : Held cfg s) : ProducerReady cfg s.writer s.producer where
  grip := owned.grip
  borrowing := owned.borrowing
  isOpen := h.isOpen
  releasing := Bool.eq_false_iff.mpr fun on => by simpa [h.isOpen] using budget.releasing on
  refused := held.refused
  sealed := h.sealed
  lost := h.lost
  emptied on := by
    rcases h.stopped (h.returning on) with final | ⟨empty, -⟩
    · exact (h.drained (.inr final)).1
    · exact empty
  capacity := h.capacity
  sized := h.sized
  live b hb := owned.live (by simp [State.borrowed, hb])
  apart b hb := by
    have := owned.disjoint b
    have := List.count_pos_iff.mpr hb
    refine ⟨fun own => ?_, fun filling => ?_⟩
    · have := List.count_pos_iff.mpr own
      omega
    · have := List.count_pos_iff.mpr (owned.filling filling)
      omega

/-- A producer step touches no buffer the worker holds. -/
theorem ProducerStream.worker_kept {w : Writer} {p : Producer} (owned : Accounted s)
    (spec : ProducerStream cfg s.writer w s.producer p) {b : ℕ} (hb : b ∈ s.worker.own) :
    w.pool.heap b = s.writer.pool.heap b := by
  obtain ⟨out, allocated⟩ := owned.live (b := b) (by simp [State.borrowed, hb])
  have := owned.disjoint b
  have := List.count_pos_iff.mpr hb
  rcases spec.heap b with same | pooled | unallocated | own | filling
  · exact same
  · omega
  · omega
  · have := List.count_pos_iff.mpr own
    omega
  · have := List.count_pos_iff.mpr (owned.filling filling)
    omega

theorem Producer.sealed_of_putChunk {p : Producer} {c : Chunk} (h : p.putChunk = [c]) :
    p.sealed = true ∧ p.admitted = true := by
  cases p <;> simp_all [Producer.putChunk, Producer.sealed, Producer.admitted]

theorem Streaming.producer {w : Writer} {p : Producer} (h : Streaming cfg s) (owned : Accounted s)
    (finals : Finals s) (line : LineSpec s.writer w s.producer p)
    (stopped : s.writer.stopped = true → w.stopped = true)
    (spec : ProducerStream cfg s.writer w s.producer p) :
    Streaming cfg { s with writer := w, producer := p } where
  stream := by
    obtain ⟨added, written, tail⟩ := spec.stream
    have kept : content w.pool.heap (chunkBufs s.worker.acc) =
        content s.writer.pool.heap (chunkBufs s.worker.acc) :=
      content_congr fun b hb => spec.worker_kept owned (s.worker.acc_own hb)
    dsimp only
    rw [written, spec.sent, kept, tail, h.stream]
    simp only [List.append_assoc]
  isOpen := spec.closed.trans h.isOpen
  inStop := h.inStop
  sealed := spec.sealed
  lost on := by
    rcases on with admitted | running
    · exact spec.lost admitted
    · exact spec.kept (h.lost (.inr (running_before stopped running))) running
  stopped on := by
    rcases spec.stopped on with before | ended
    · rcases h.stopped before with final | ⟨empty, ended⟩
      · exact .inl (by simpa only [Writer.finalSent, spec.sent] using final)
      · exact .inr (spec.ended ended before empty).symm
    · exact .inr ended
  drained put := by
    have before (put : s.finalPut) : w.filled p = [] ∧ w.lost = [] := by
      obtain ⟨filled, lost⟩ := h.drained put
      have shut := (finals.shut put).2
      exact ⟨spec.drained shut filled, spec.unlost shut lost⟩
    rcases put with ⟨c, hc, final⟩ | final
    · rcases line.line with same | ⟨-, -, -, d, new, -⟩ | ⟨gone, items⟩
      · refine before (.inl ⟨c, ?_, final⟩)
        simpa only [State.line, List.append_assoc, same] using hc
      · obtain ⟨sealed, admitted⟩ := Producer.sealed_of_putChunk new
        exact ⟨spec.sealed sealed, spec.lost admitted⟩
      · refine before (.inl ⟨c, ?_, final⟩)
        simp only [State.line, gone, items, List.append_nil] at hc ⊢
        exact List.mem_append_left _ hc
    · exact before (.inr (by simpa only [Writer.finalSent, line.sent] using final))
  returning on := by
    rcases spec.returning on with before | before
    · exact stopped (h.returning before)
    · exact stopped before
  capacity := spec.capacity
  sized := spec.sized
  alone := spec.overlap.trans h.alone

/-- The bytes that are not queued yet. -/
def Writer.unqueued (w : Writer) (p : Producer) : List UInt8 :=
  content w.pool.heap (chunkBufs p.putChunk) ++ w.filled p ++ p.rest ++ w.lost

theorem Writer.tail_eq (w : Writer) (p : Producer) :
    w.tail p = content w.pool.heap (chunkBufs w.queue.items) ++ w.unqueued p := by
  simp only [Writer.tail, Writer.unqueued, List.append_assoc]

/-- Bytes in buffers that did not change are where they were. -/
theorem unqueued_congr {w v : Writer} {p : Producer} (current : v.current = w.current)
    (lost : v.lost = w.lost) (own : ∀ b ∈ p.own, v.pool.heap b = w.pool.heap b)
    (held : ∀ b ∈ w.currentBuf p, v.pool.heap b = w.pool.heap b) :
    v.unqueued p = w.unqueued p ∧ v.filled p = w.filled p := by
  have filled : v.filled p = w.filled p := by
    rw [Writer.filled, Writer.filled, Writer.currentBuf, current]
    exact List.flatMap_congr fun b hb => congrArg ByteBuffer.filled (held b hb)
  refine ⟨?_, filled⟩
  rw [Writer.unqueued, Writer.unqueued, filled, lost, content_congr fun b hb => own b (p.putChunk_own hb)]

theorem Streaming.worker {w : Writer} {k : Worker} (h : Streaming cfg s) (owned : Accounted s)
    (finals : Finals s) (line : SendLine s.writer w s.worker k)
    (stopped : s.writer.stopped = true → w.stopped = true) (spec : WorkerStream s.writer w s.worker k) :
    Streaming cfg { s with writer := w, worker := k } := by
  have kept : ∀ b ∈ s.borrowed, b ∉ s.worker.own → w.pool.heap b = s.writer.pool.heap b :=
    fun b _ other => (spec.heap b).resolve_right other
  have own : ∀ b ∈ s.producer.own, w.pool.heap b = s.writer.pool.heap b := fun b hb => by
    have := owned.disjoint b
    have := List.count_pos_iff.mpr hb
    refine kept b (by simp [State.borrowed, hb]) fun taken => ?_
    have := List.count_pos_iff.mpr taken
    omega
  have held : ∀ b ∈ s.writer.currentBuf s.producer, w.pool.heap b = s.writer.pool.heap b := fun b hb => by
    have := owned.disjoint b
    have := List.count_pos_iff.mpr hb
    refine kept b (by simp [State.borrowed, hb]) fun taken => ?_
    have := List.count_pos_iff.mpr taken
    omega
  obtain ⟨unqueued, filled⟩ := unqueued_congr spec.current spec.lost own held
  exact {
    stream := by
      have stream := spec.stream
      simp only [content_append] at stream
      have before := h.stream
      rw [Writer.tail_eq] at before
      dsimp only
      rw [spec.written, before, Writer.tail_eq, unqueued]
      simp only [← List.append_assoc] at stream ⊢
      rw [stream]
    isOpen := spec.closed.trans h.isOpen
    inStop := spec.inStop
    sealed := fun on => filled.trans (h.sealed on)
    lost := fun on => spec.lost.trans (h.lost (on.imp_right (running_before stopped)))
    stopped := fun on => by
      have sent := line.finalSent_of_before
      rcases spec.stopped on with before | finishing
      · rcases h.stopped before with final | ⟨empty, ended⟩
        · exact .inl (sent final)
        · exact .inr ⟨filled.trans empty, ended⟩
      · exact .inl (sent (finals.finishing finishing))
    drained := fun put => by
      obtain ⟨empty, lost⟩ := h.drained (line.finalPut_before put)
      exact ⟨filled.trans empty, spec.lost.trans lost⟩
    returning := fun on => stopped (h.returning on)
    capacity := fun b hb => by
      have same : w.currentBuf s.producer = s.writer.currentBuf s.producer := by
        rw [Writer.currentBuf, spec.current]
        rfl
      dsimp only at hb ⊢
      rw [same] at hb
      rw [(List.mem_append.mp hb).elim (held b) fun new => own b (s.producer.fresh_own new)]
      exact h.capacity b hb
    sized := h.sized
    alone := spec.overlap.trans h.alone }

theorem Streaming.other {pool : Pool} {move : OtherMove} (h : Streaming cfg s) (owned : Accounted s)
    (moved : otherStep s.writer.pool move = some pool) :
    Streaming cfg { s with writer := { s.writer with pool := pool } } := by
  have kept : ∀ b ∈ s.borrowed, pool.heap b = s.writer.pool.heap b := fun b hb =>
    otherStep_heap moved b (owned.live hb).1 (owned.live hb).2
  have own : ∀ b ∈ s.producer.own, pool.heap b = s.writer.pool.heap b := fun b hb =>
    kept b (by simp [State.borrowed, hb])
  have held : ∀ b ∈ s.writer.currentBuf s.producer, pool.heap b = s.writer.pool.heap b := fun b hb =>
    kept b (by simp [State.borrowed, hb])
  obtain ⟨unqueued, filled⟩ := unqueued_congr (w := s.writer) (v := { s.writer with pool := pool })
    (p := s.producer) rfl rfl own held
  exact {
    stream := by
      have acc : content pool.heap (chunkBufs s.worker.acc) = content s.writer.pool.heap (chunkBufs s.worker.acc) :=
        content_congr fun b hb => kept b (by simp [State.borrowed, s.worker.acc_own hb])
      have items : content pool.heap (chunkBufs s.writer.queue.items) =
          content s.writer.pool.heap (chunkBufs s.writer.queue.items) :=
        content_congr fun b hb => kept b (by simp [State.borrowed, hb])
      have tail : Writer.tail { s.writer with pool := pool } s.producer = s.writer.tail s.producer := by
        rw [Writer.tail_eq, Writer.tail_eq, unqueued]
        exact congrArg (· ++ _) items
      refine h.stream.trans ?_
      dsimp only
      rw [tail, acc]
    isOpen := h.isOpen
    inStop := h.inStop
    sealed := fun on => filled.trans (h.sealed on)
    lost := h.lost
    stopped := fun on => (h.stopped on).imp_right fun before => ⟨filled.trans before.1, before.2⟩
    drained := fun put => ⟨filled.trans (h.drained put).1, (h.drained put).2⟩
    returning := h.returning
    capacity := fun b hb => by
      dsimp only
      rw [(List.mem_append.mp hb).elim (held b) fun new => own b (s.producer.fresh_own new)]
      exact h.capacity b hb
    sized := h.sized
    alone := h.alone }

def streaming (cfg : Config) (a : Action) (s : State) : Prop := streams cfg a s = true ∧ interrupts a = false

instance (cfg : Config) (a : Action) (s : State) : Decidable (streaming cfg a s) :=
  inferInstanceAs (Decidable (_ ∧ _))

theorem takesGripped_of_inStop (h : s.worker.inStop = false) : takesGripped a s = false := by
  unfold takesGripped
  split
  · cases at_ : s.worker <;> simp_all [Worker.inStop, Worker.stopping]
  · rfl

/-- Ownership and the bytes on their way hold together. -/
theorem streaming_of_reachable (h : (machine cfg outStream).ReachableVia (streaming cfg) s) :
    Accounted s ∧ Streaming cfg s := by
  refine h.invariant_of (I := fun s => Accounted s ∧ Streaming cfg s)
    (J := fun s => Budgeted cfg s ∧ Held cfg s ∧ Finals s)
    (fun _ reached => ⟨budgeted_of_reachable reached.reachable, held_of_reachable reached.reachable,
      finals_of_reachable reached.reachable⟩) ?_ ?_
  · rintro _ ⟨pool, sound, rfl⟩
    refine ⟨accounted_of_untaken (.init ⟨pool, sound, rfl⟩), ?_⟩
    refine ⟨rfl, rfl, rfl, ?_, ?_, ?_, ?_, ?_, ?_, ?_, rfl⟩ <;>
      simp [freshState, Producer.sealed, Writer.filled, Writer.currentBuf, Producer.returned,
        Producer.returning, Producer.fresh, Producer.putChunk]
  · rintro a s t ⟨budget, held, finals⟩ ⟨owned, hs⟩ allowed moves
    have untaken : takesGripped a s = false := takesGripped_of_inStop hs.inStop
    refine ⟨owned.step budget held untaken moves, ?_⟩
    rcases step_cases moves with ⟨move, w, p, rfl, inStream, moved, rfl⟩ |
      ⟨move, w, k, rfl, moved, rfl⟩ | ⟨move, pool, -, moved, rfl⟩
    · exact hs.producer owned finals (producerStep_line inStream finals.marked finals.closing moved)
        (producerStep_budget moved).stopped
        (producerStep_stream inStream allowed.1 allowed.2 (hs.ready owned budget held) moved)
    · refine hs.worker owned finals (workerStep_line finals.sending budget.fits_release moved)
        (workerStep_budget moved).stopped
        (workerStep_stream hs.inStop ?_ ?_ ?_ ?_ budget.fits_release moved)
      · rintro rfl
        simp [streaming, streams] at allowed
      · refine List.nodup_iff_count.mpr fun b => ?_
        have := owned.disjoint b
        omega
      · intro b hb own
        have := owned.disjoint b
        have := List.count_pos_iff.mpr hb
        have := List.count_pos_iff.mpr own
        omega
      · intro acc at_
        have := held.owed
        have := held.grounded (by rw [at_]; rfl)
        simp_all [Writer.flying, Worker.releasing, Worker.sending]
    · exact hs.other owned moved

theorem Producer.rest_of_shut (p : Producer) (h : p.mayPut = false) (put : p.putChunk = []) : p.rest = [] := by
  cases p <;> simp_all [Producer.mayPut, Producer.putChunk, Producer.rest]
  case schedule point sender => cases sender <;> simp_all [Sender.rest]

/-- A streamed body arrives as it was written. -/
structure Faithful (w : Writer) (polled : List Chunk) : Prop where
  isPrefix : sentBytes w.sent <+: w.written
  complete : w.finalSent → sentBytes w.sent = w.written
  finalLast : OnlyLast Send.final w.sent
  finalKept : w.finalEnqueued = true →
    w.finalSent ∨ ∃ c ∈ polled ++ w.queue.items, c.final = true
  alone : w.overlap = false

/-- A write of one buffer, borrowed for it. -/
def writeAlone (bytes : List UInt8) : List Action := List.flatten [
  [.producer (.call (.write bytes))], List.replicate 3 (.producer .tick),
  [.producer (.borrow (.fresh 8))], List.replicate 3 (.producer .tick)]

/-- Three bytes written and flushed, a fourth written and the stream closed while the
first three are in flight. -/
def flushThenClose : List Action := List.flatten [
  writeAlone [1, 2, 3], [.producer (.call .flush)], List.replicate 13 (.producer .tick),
  [.producer (.reply true)], writeAlone [4], [.worker .command], List.replicate 9 (.worker .tick),
  [.producer (.call .close)], List.replicate 12 (.producer .tick),
  [.worker .proceed, .worker (.giveBack true)], List.replicate 13 (.worker .tick)]

def flushedAndClosed : State :=
  (machine smallQueue outStream).runFromVia (streaming smallQueue) flushThenClose
    (freshState smallQueue emptyPool)

def unstopped (cfg : Config) (a : Action) (s : State) : Prop := streams cfg a s = true

instance (cfg : Config) (a : Action) (s : State) : Decidable (unstopped cfg a s) :=
  inferInstanceAs (Decidable (_ = _))

/-- The thread is interrupted where its `flush` acquires permits, then writes once more
and closes the stream. -/
def interruptedFlush : List Action := List.flatten [
  writeAlone [1], [.producer (.call .flush)], List.replicate 5 (.producer .tick), [.producer .interrupt],
  writeAlone [2], [.producer (.call .close)], List.replicate 14 (.producer .tick),
  [.producer (.reply true), .worker .command], List.replicate 10 (.worker .tick)]

end Busker.ResponseQueue
