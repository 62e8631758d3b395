import Busker.ResponseQueue.Finals

/-! The bytes of a streamed body. What has been sent, what the worker has polled, the
queue, the chunk being put, the current buffer and the rest of the write in progress
are, in this order, the bytes written, and a step moves bytes from one of these places
to the next. -/

namespace Busker.ResponseQueue

open Interleaving

def content (heap : Heap) (bufs : List ℕ) : List UInt8 := bufs.flatMap fun b => (heap b).content

@[simp] theorem content_nil (heap : Heap) : content heap [] = [] := rfl

@[simp] theorem content_cons (heap : Heap) (b : ℕ) (bufs : List ℕ) :
    content heap (b :: bufs) = (heap b).content ++ content heap bufs := rfl

@[simp] theorem content_append (heap : Heap) (first rest : List ℕ) :
    content heap (first ++ rest) = content heap first ++ content heap rest := by
  simp [content]

theorem content_congr {heap heap' : Heap} {bufs : List ℕ} (same : ∀ b ∈ bufs, heap' b = heap b) :
    content heap' bufs = content heap bufs := by
  induction bufs with
  | nil => rfl
  | cons b bufs ih =>
    rw [content_cons, content_cons, same b (List.mem_cons_self ..),
      ih fun x hx => same x (List.mem_cons_of_mem _ hx)]

/-- Packaging reads distinct buffers in order and touches no other. -/
theorem readBufs_spec {bufs : List ℕ} (distinct : bufs.Nodup) (heap : Heap) :
    (readBufs heap bufs).1 = content heap bufs ∧ ∀ x ∉ bufs, (readBufs heap bufs).2 x = heap x := by
  induction bufs generalizing heap with
  | nil => exact ⟨rfl, fun _ _ => rfl⟩
  | cons b bufs ih =>
    obtain ⟨fresh, distinct⟩ := List.nodup_cons.mp distinct
    obtain ⟨bytes, others⟩ := ih distinct (Function.update heap b (heap b).get)
    refine ⟨?_, fun x hx => ?_⟩
    · simp only [readBufs, content_cons, bytes]
      rw [content_congr fun x hx => Function.update_of_ne (ne_of_mem_of_not_mem hx fresh) ..]
    · obtain ⟨ne, hx⟩ := not_or.mp (mt List.mem_cons.mpr hx)
      exact (others x hx).trans (Function.update_of_ne ne ..)

namespace Producer

/-- The buffer whose bytes the producer is about to change. -/
def filling : Producer → Option ℕ
  | .writePut b _ | .seal b _ => some b
  | _ => none

/-- The buffer that is about to become the current one. -/
def fresh : Producer → List ℕ
  | .writeSet b _ => [b]
  | _ => []

/-- The bytes of an admitted write that are in no buffer yet. -/
def rest : Producer → List UInt8
  | .writeCurrent rest | .writeBorrow rest | .writeSet _ rest | .writePut _ rest => rest
  | .seal _ sender | .put _ _ sender | .schedule _ sender => sender.rest
  | _ => []

/-- Past the check of `stopped?_`. -/
def admitted : Producer → Bool
  | .idle | .writeStopped _ | .flushStopped | .closeStopped | .closeReturn _ | .closeUnset _
  | .closeMark => false
  | _ => true

/-- Has sealed the current buffer. -/
def sealed : Producer → Bool
  | .put _ _ _ | .markFinal | .schedule _ _ => true
  | _ => false

/-- In the branch of `close` for a stopped writer. -/
def returning : Producer → Bool
  | .closeReturn _ | .closeUnset _ | .closeMark => true
  | _ => false

/-- Where a producer stays once it has stopped the writer itself. -/
def ended : Producer → Bool
  | .schedule .reset _ | .schedule .untrack _ => true
  | p => !p.admitted

end Producer

namespace Writer

/-- The bytes in the current buffer. -/
def filled (w : Writer) (p : Producer) : List UInt8 :=
  (w.currentBuf p).flatMap fun b => (w.pool.heap b).filled

/-- The bytes from the queue on. -/
def tail (w : Writer) (p : Producer) : List UInt8 :=
  content w.pool.heap (chunkBufs w.queue.items) ++ content w.pool.heap (chunkBufs p.putChunk) ++
    w.filled p ++ p.rest ++ w.lost

end Writer

/-- The client does not stop the request, and a borrowed buffer fits the queue. -/
def streams (cfg : Config) : Action → State → Bool
  | .worker .stop, _ => false
  | .producer (.borrow source), s => source.capacity s.writer.pool.heap ≤ cfg.capacity
  | _, _ => true

/-- `put` is interrupted and throws. -/
def interrupts : Action → Bool
  | .producer .interrupt => true
  | _ => false

/-- What a producer step does to the bytes on their way. -/
structure ProducerStream (cfg : Config) (w v : Writer) (p q : Producer) : Prop where
  heap : ∀ b, v.pool.heap b = w.pool.heap b ∨ 0 < w.pool.tally b ∨ w.pool.next ≤ b ∨ b ∈ p.own ∨
    p.filling = some b
  sent : v.sent = w.sent
  overlap : v.overlap = w.overlap
  closed : v.queue.closed = w.queue.closed
  stream : ∃ added, v.written = w.written ++ added ∧ v.tail q = w.tail p ++ added
  sealed : q.sealed = true → v.filled q = []
  lost : q.admitted = true → v.lost = []
  kept : w.lost = [] → v.stopped = false → v.lost = []
  stopped : v.stopped = true → w.stopped = true ∨ v.filled q = [] ∧ q.ended = true
  ended : p.ended = true → w.stopped = true → w.filled p = [] → q.ended = true ∧ v.filled q = []
  drained : p.mayPut = false → w.filled p = [] → v.filled q = []
  unlost : p.mayPut = false → w.lost = [] → v.lost = []
  returning : q.returning = true → p.returning = true ∨ w.stopped = true
  capacity : ∀ b ∈ v.currentBuf q ++ q.fresh, (v.pool.heap b).capacity ≤ cfg.capacity
  sized : ∀ c ∈ q.putChunk, c.bytes ≤ cfg.capacity

/-- What the producer step relies on. -/
structure ProducerReady (cfg : Config) (w : Writer) (p : Producer) : Prop where
  grip : ∀ b, p.grip = some b → w.current = some b
  borrowing : p.borrowing = true → w.current = none
  isOpen : w.queue.closed = false
  releasing : p.releasing = false
  refused : p.refused = true → w.stopped = true
  sealed : p.sealed = true → w.filled p = []
  lost : p.admitted = true ∨ w.stopped = false → w.lost = []
  emptied : p.returning = true → w.filled p = []
  capacity : ∀ b ∈ w.currentBuf p ++ p.fresh, (w.pool.heap b).capacity ≤ cfg.capacity
  sized : ∀ c ∈ p.putChunk, c.bytes ≤ cfg.capacity
  live : ∀ b ∈ chunkBufs w.queue.items, w.pool.tally b = 0 ∧ b < w.pool.next
  apart : ∀ b ∈ chunkBufs w.queue.items, b ∉ p.own ∧ p.filling ≠ some b

/-- Changing a buffer the producer holds leaves the queued bytes alone. -/
theorem ProducerReady.kept {cfg : Config} {w : Writer} {p : Producer} (h : ProducerReady cfg w p) {b : ℕ}
    (holds : b ∈ p.own ∨ p.filling = some b) (buffer : ByteBuffer) :
    content (Function.update w.pool.heap b buffer) (chunkBufs w.queue.items) =
      content w.pool.heap (chunkBufs w.queue.items) := by
  refine content_congr fun x hx => Function.update_of_ne ?_ ..
  rintro rfl
  obtain ⟨own, filling⟩ := h.apart x hx
  exact holds.elim own filling

/-- The part of the writer these steps are about is left alone. -/
structure StreamFrame (w v : Writer) : Prop where
  pool : v.pool = w.pool
  items : v.queue.items = w.queue.items
  closed : v.queue.closed = w.queue.closed
  current : v.current = w.current
  sent : v.sent = w.sent
  overlap : v.overlap = w.overlap
  written : v.written = w.written
  lost : v.lost = w.lost
  stopped : v.stopped = w.stopped

theorem filled_congr {w v : Writer} {p q : Producer} (pool : v.pool = w.pool) (current : v.current = w.current)
    (returned : q.returned = p.returned) : v.filled q = w.filled p := by
  simp only [Writer.filled, Writer.currentBuf, pool, current, returned]

theorem StreamFrame.spec {cfg : Config} {w v : Writer} {p q : Producer} (h : StreamFrame w v)
    (ready : ProducerReady cfg w p) (rest : q.rest = p.rest) (chunk : q.putChunk = p.putChunk)
    (returned : q.returned = p.returned) (fresh : q.fresh = p.fresh)
    (sealed : q.sealed = true → w.filled p = []) (admitted : q.admitted = true → w.lost = [])
    (ended : p.ended = true → w.stopped = true → q.ended = true)
    (returning : q.returning = true → p.returning = true ∨ w.stopped = true) :
    ProducerStream cfg w v p q := by
  have filled : v.filled q = w.filled p := filled_congr h.pool h.current returned
  exact {
    heap := fun b => .inl (by rw [h.pool])
    sent := h.sent
    overlap := h.overlap
    closed := h.closed
    stream := ⟨[], by simp [h.written], by simp [Writer.tail, h.pool, h.items, filled, rest, chunk, h.lost]⟩
    sealed := fun on => filled.trans (sealed on)
    lost := fun on => h.lost.trans (admitted on)
    kept := fun none _ => h.lost.trans none
    stopped := fun on => .inl (h.stopped ▸ on)
    ended := fun on stopped empty => ⟨ended on stopped, filled.trans empty⟩
    drained := fun _ empty => filled.trans empty
    unlost := fun _ none => h.lost.trans none
    returning := returning
    capacity := by
      simp only [Writer.currentBuf, h.pool, h.current, returned, fresh]
      exact ready.capacity
    sized := chunk ▸ ready.sized }

/-- A step from one admitted place to another. -/
theorem StreamFrame.onward {cfg : Config} {w v : Writer} {p q : Producer} (h : StreamFrame w v)
    (ready : ProducerReady cfg w p) (rest : q.rest = p.rest) (chunk : q.putChunk = p.putChunk)
    (returned : q.returned = p.returned) (fresh : q.fresh = p.fresh)
    (sealed : q.sealed = true → w.filled p = []) (admitted : p.admitted = true) (ended : p.ended = false)
    (returning : q.returning = false) : ProducerStream cfg w v p q :=
  h.spec ready rest chunk returned fresh sealed (fun _ => ready.lost (.inl admitted)) (by simp [ended])
    (by simp [returning])

theorem scheduleStep_stream {cfg : Config} {w v : Writer} {sender : Sender} {point : Schedule}
    {move : ProducerMove} {q : Producer} (ready : ProducerReady cfg w (.schedule point sender))
    (h : scheduleStep w sender point move = some (v, q)) :
    ProducerStream cfg w v (.schedule point sender) q := by
  have empty : w.filled (.schedule point sender) = [] := ready.sealed rfl
  have none : w.lost = [] := ready.lost (.inl rfl)
  cases point <;> cases move <;>
    simp only [scheduleStep, reduceCtorEq, Option.some.injEq, Prod.mk.injEq] at h
  case activate.tick | signal.tick =>
    split at h <;> obtain ⟨rfl, rfl⟩ := Prod.mk.inj (Option.some.inj h) <;>
      exact StreamFrame.onward ⟨rfl, rfl, rfl, rfl, rfl, rfl, rfl, rfl, rfl⟩ ready rfl rfl rfl rfl
          (fun _ => empty) rfl rfl rfl
  case post.reply accepted =>
    split at h <;> obtain ⟨rfl, rfl⟩ := Prod.mk.inj (Option.some.inj h)
    · cases sender <;>
        exact StreamFrame.onward ⟨rfl, rfl, rfl, rfl, rfl, rfl, rfl, rfl, rfl⟩ ready rfl rfl rfl rfl
          (fun _ => empty) rfl rfl rfl
    · exact StreamFrame.onward ⟨rfl, rfl, rfl, rfl, rfl, rfl, rfl, rfl, rfl⟩ ready rfl rfl rfl rfl
          (fun _ => empty) rfl rfl rfl
  case track.tick inner =>
    rcases step : trackStep w inner with ⟨u, next⟩
    rw [step] at h
    obtain ⟨tracked, rfl⟩ := trackStep_frame step
    obtain ⟨rfl, rfl⟩ := h
    cases next <;>
      exact StreamFrame.onward ⟨rfl, rfl, rfl, rfl, rfl, rfl, rfl, rfl, rfl⟩ ready rfl rfl rfl rfl
          (fun _ => empty) rfl rfl rfl
  case untrack.tick =>
    obtain ⟨rfl, rfl⟩ := h
    exact {
      heap := fun b => .inl rfl
      sent := rfl
      overlap := rfl
      closed := rfl
      stream := ⟨[], by simp [Writer.throw], by
        simp [Writer.tail, Writer.throw, Writer.filled, Writer.currentBuf, Producer.putChunk, Producer.rest,
          Producer.returned, none]⟩
      sealed := by simp [Producer.sealed]
      lost := by simp [Producer.admitted]
      kept := fun _ running => absurd (ready.refused rfl) (by simpa [Writer.throw] using running)
      stopped := .inl
      ended := fun _ _ _ => ⟨rfl, empty⟩
      drained := fun _ _ => empty
      unlost := fun shut none => by
        cases sender <;> simp_all [Writer.throw, Sender.rest, Producer.mayPut]
      returning := by simp [Producer.returning]
      capacity := ready.capacity
      sized := by simp [Producer.putChunk] }
  case refuse.tick =>
    obtain ⟨rfl, rfl⟩ := h
    exact {
      heap := fun b => .inl rfl
      sent := rfl
      overlap := rfl
      closed := rfl
      stream := ⟨[], by simp, by simp [Writer.tail, Writer.filled, Writer.currentBuf, Producer.putChunk,
        Producer.rest, Producer.returned]⟩
      sealed := fun _ => empty
      lost := fun _ => none
      kept := fun none _ => none
      stopped := fun _ => .inr ⟨empty, rfl⟩
      ended := fun _ _ _ => ⟨rfl, empty⟩
      drained := fun _ _ => empty
      unlost := fun _ none => none
      returning := by simp [Producer.returning]
      capacity := ready.capacity
      sized := by simp [Producer.putChunk] }
  case wake.tick =>
    obtain ⟨rfl, rfl⟩ := h
    cases sender <;>
      exact StreamFrame.onward ⟨rfl, rfl, rfl, rfl, rfl, rfl, rfl, rfl, rfl⟩ ready rfl rfl rfl rfl
          (fun _ => empty) rfl rfl rfl
  case read.tick =>
    obtain ⟨rfl, rfl⟩ := h
    cases w.drainState <;>
      exact StreamFrame.onward ⟨rfl, rfl, rfl, rfl, rfl, rfl, rfl, rfl, rfl⟩ ready rfl rfl rfl rfl
          (fun _ => empty) rfl rfl rfl
  case reset.tick =>
    obtain ⟨rfl, rfl⟩ := h
    exact StreamFrame.spec ⟨rfl, rfl, rfl, rfl, rfl, rfl, rfl, rfl, rfl⟩ ready rfl rfl rfl rfl (fun _ => empty)
      (fun _ => none) (fun _ _ => rfl) (by simp [Producer.returning])

theorem queued_stream (sender : Sender) :
    sender.queued.putChunk = [] ∧ sender.queued.rest = sender.rest ∧ sender.queued.returned = false ∧
      sender.queued.fresh = [] ∧ sender.queued.admitted = true ∧ sender.queued.returning = false := by
  cases sender <;> exact ⟨rfl, rfl, rfl, rfl, rfl, rfl⟩

/-- A chunk that is queued stays where it is in the order of the bytes. -/
theorem tail_queued {w v : Writer} {c : Chunk} {sender : Sender} (pool : v.pool = w.pool)
    (lost : v.lost = w.lost) (items : v.queue.items = w.queue.items ++ [c])
    (before : w.filled (.put .enqueue c sender) = []) (after : v.filled sender.queued = []) :
    v.tail sender.queued = w.tail (.put .enqueue c sender) := by
  obtain ⟨chunk, rest, -⟩ := queued_stream sender
  rw [Writer.tail, Writer.tail, pool, lost, items, before, after, chunk, rest, chunkBufs_append,
    content_append]
  simp [Producer.putChunk, Producer.rest]

theorem putStep_stream {cfg : Config} {w v : Writer} {c : Chunk} {sender : Sender} {point : Put}
    {move : ProducerMove} {q : Producer} (calm : interrupts (.producer move) = false)
    (ready : ProducerReady cfg w (.put point c sender))
    (h : producerStep cfg w (.put point c sender) move = some (v, q)) :
    ProducerStream cfg w v (.put point c sender) q := by
  have empty : w.filled (.put point c sender) = [] := ready.sealed rfl
  have none : w.lost = [] := ready.lost (.inl rfl)
  obtain ⟨⟨r, result⟩, put, h⟩ := Option.map_eq_some_iff.mp h
  obtain ⟨-, put⟩ | ⟨rfl, -⟩ := putMove_cases put
  swap
  · contradiction
  have closed := (putStep_budget put).closed
  obtain ⟨⟨same, waits⟩ | ⟨items, rfl, rfl⟩, -⟩ := putStep_post put
  · cases result with
    | next point' =>
      obtain ⟨rfl, rfl⟩ := Prod.mk.inj h
      exact StreamFrame.onward ⟨rfl, same, closed, rfl, rfl, rfl, rfl, rfl, rfl⟩ ready rfl rfl rfl rfl
          (fun _ => empty) rfl rfl rfl
    | queued => contradiction
    | thrown =>
      -- An open queue takes every chunk that fits it.
      rcases putStep_fails put (.inl rfl) with rfl | ⟨-, fails⟩ | ⟨-, fails⟩
      · exact absurd ready.releasing (by simp [Producer.releasing])
      · have := ready.sized c (List.mem_singleton_self c)
        rw [ready.isOpen, Bool.false_or, decide_eq_true_eq] at fails
        omega
      · simp [ready.isOpen] at fails
  · obtain ⟨rfl, rfl⟩ := Prod.mk.inj h
    obtain ⟨chunk, rest, returned, fresh, admitted, returning⟩ := queued_stream sender
    have filled : Writer.filled { w with queue := r } sender.queued = [] :=
      (filled_congr rfl rfl returned).trans empty
    exact {
      heap := fun b => .inl rfl
      sent := rfl
      overlap := rfl
      closed := closed
      stream := ⟨[], (List.append_nil _).symm, by
        rw [List.append_nil]
        exact tail_queued rfl rfl items empty filled⟩
      sealed := fun _ => filled
      lost := fun _ => none
      kept := fun none _ => none
      stopped := .inl
      ended := by simp [Producer.ended, Producer.admitted]
      drained := fun _ _ => filled
      unlost := fun _ none => none
      returning := by simp [returning]
      capacity := by
        rw [Writer.currentBuf, returned, fresh]
        exact ready.capacity
      sized := by simp [chunk] }

/-- Copying part of a write into the current buffer. -/
theorem writePut_stream {cfg : Config} {w : Writer} {b n : ℕ} {rest : List UInt8} {buffer : ByteBuffer}
    {q : Producer} (ready : ProducerReady cfg w (.writePut b rest))
    (filled : buffer.filled = (w.pool.heap b).filled ++ rest.take n)
    (capacity : buffer.capacity = (w.pool.heap b).capacity)
    (next : q = .seal b (.write (rest.drop n)) ∨ q = .writeCurrent (rest.drop n)) :
    ProducerStream cfg w { w with pool := w.pool.update b fun _ => buffer } (.writePut b rest) q := by
  have current := ready.grip b rfl
  have kept := ready.kept (b := b) (.inr rfl) buffer
  have small := ready.capacity b (by simp [Writer.currentBuf, Producer.returned, current])
  have none := ready.lost (.inl rfl)
  have fields : q.rest = rest.drop n ∧ q.putChunk = [] ∧ q.returned = false ∧ q.fresh = [] ∧
      q.sealed = false ∧ q.returning = false := by
    rcases next with rfl | rfl <;> exact ⟨rfl, rfl, rfl, rfl, rfl, rfl⟩
  obtain ⟨left, chunk, returned, fresh, sealed, returning⟩ := fields
  have after : Writer.filled { w with pool := w.pool.update b fun _ => buffer } q = buffer.filled := by
    rw [Writer.filled, Writer.currentBuf, returned]
    simp [current, Pool.update]
  have before : w.filled (.writePut b rest) = (w.pool.heap b).filled := by
    simp [Writer.filled, Writer.currentBuf, Producer.returned, current]
  exact {
    heap := fun x => by
      by_cases at_ : x = b
      · exact .inr (.inr (.inr (.inr (by rw [at_]; rfl))))
      · exact .inl (Function.update_of_ne at_ ..)
    sent := rfl
    overlap := rfl
    closed := rfl
    stream := ⟨[], (List.append_nil _).symm, by
      rw [Writer.tail, Writer.tail, after, before, left, chunk, filled]
      simp only [Pool.update, kept]
      simp [Producer.putChunk, Producer.rest]⟩
    sealed := by simp [sealed]
    lost := fun _ => none
    kept := fun none _ => none
    stopped := .inl
    ended := by simp [Producer.ended, Producer.admitted]
    drained := by simp [Producer.mayPut]
    unlost := fun _ none => none
    returning := by simp [returning]
    capacity := by
      rw [Writer.currentBuf, returned, fresh]
      simpa [current, Pool.update, capacity] using small
    sized := by simp [chunk] }

/-- `close` with nothing in the current buffer puts an empty final chunk. -/
theorem closeEmpty_stream {cfg : Config} {w : Writer} (ready : ProducerReady cfg w .closeCurrent)
    (empty : w.filled .closeCurrent = []) : ProducerStream cfg w w .closeCurrent
      (.put .ensureOpen (sealChunk w.pool.heap [] true) .close) where
  heap := fun b => .inl rfl
  sent := rfl
  overlap := rfl
  closed := rfl
  stream := ⟨[], by simp, by
    simp [Writer.tail, Writer.filled, Writer.currentBuf, Producer.putChunk, Producer.rest, Producer.returned,
      sealChunk, Sender.rest]⟩
  sealed := fun _ => empty
  lost := fun _ => ready.lost (.inl rfl)
  kept := fun none _ => none
  stopped := .inl
  ended := by simp [Producer.ended, Producer.admitted]
  drained := fun _ _ => empty
  unlost := fun _ none => none
  returning := by simp [Producer.returning]
  capacity := ready.capacity
  sized := by simp [Producer.putChunk, sealChunk]

end Busker.ResponseQueue
