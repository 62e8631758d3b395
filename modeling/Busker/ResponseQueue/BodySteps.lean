import Busker.ResponseQueue.BodyBytes

/-! What the steps of the producer and the worker do to the bytes on their way. -/

namespace Busker.ResponseQueue

open Interleaving

theorem producerStep_stream {cfg : Config} {w v : Writer} {p q : Producer} {k : Worker}
    {move : ProducerMove} (inStream : offered outStream move = true)
    (fits : streams cfg (.producer move) ⟨w, p, k⟩ = true)
    (calm : interrupts (.producer move) = false) (ready : ProducerReady cfg w p)
    (h : producerStep cfg w p move = some (v, q)) : ProducerStream cfg w v p q := by
  cases p
  case put point c sender => exact putStep_stream calm ready h
  case schedule point sender => exact scheduleStep_stream ready h
  all_goals
    cases move <;> simp only [producerStep, reduceCtorEq, Option.some.injEq, Prod.mk.injEq] at h
  case idle.call c =>
    cases c <;> obtain ⟨rfl, rfl⟩ := Prod.mk.inj (Option.some.inj h)
    case chunk => contradiction
    all_goals
      exact StreamFrame.spec ⟨rfl, rfl, rfl, rfl, rfl, rfl, rfl, rfl, rfl⟩ ready rfl rfl rfl rfl
        (by simp [Producer.sealed]) (by simp [Producer.admitted]) (fun _ _ => rfl)
        (by simp [Producer.returning])
  case writeStopped.tick | flushStopped.tick =>
    obtain ⟨rfl, rfl⟩ := h
    cases stopped : w.stopped
    · exact StreamFrame.spec ⟨rfl, rfl, rfl, rfl, rfl, rfl, rfl, rfl, rfl⟩ ready rfl rfl rfl rfl
        (by simp [Producer.sealed]) (fun _ => ready.lost (.inr stopped)) (by simp [stopped])
        (by simp [Producer.returning])
    · exact StreamFrame.spec ⟨rfl, rfl, rfl, rfl, rfl, rfl, rfl, rfl, rfl⟩ ready rfl rfl rfl rfl
        (by simp [Producer.sealed]) (by simp [Producer.admitted]) (fun _ _ => rfl)
        (by simp [Producer.returning])
  case writeClosing.tick rest =>
    have none := ready.lost (.inl rfl)
    split at h <;> obtain ⟨rfl, rfl⟩ := Prod.mk.inj (Option.some.inj h)
    · exact StreamFrame.onward ⟨rfl, rfl, rfl, rfl, rfl, rfl, rfl, rfl, rfl⟩ ready rfl rfl rfl rfl
          (by simp [Producer.sealed]) rfl rfl rfl
    · exact {
        heap := fun b => .inl rfl
        sent := rfl
        overlap := rfl
        closed := rfl
        stream := ⟨rest, rfl, by
          simp [Writer.tail, Writer.filled, Writer.currentBuf, Producer.putChunk, Producer.rest,
            Producer.returned, none]⟩
        sealed := by simp [Producer.sealed]
        lost := fun _ => none
        kept := fun none _ => none
        stopped := .inl
        ended := by simp [Producer.ended, Producer.admitted]
        drained := fun _ empty => empty
        unlost := fun _ none => none
        returning := by simp [Producer.returning]
        capacity := ready.capacity
        sized := by simp [Producer.putChunk] }
  case closeClosing.tick =>
    have none := ready.lost (.inl rfl)
    split at h <;> obtain ⟨rfl, rfl⟩ := Prod.mk.inj (Option.some.inj h) <;>
      exact StreamFrame.onward ⟨rfl, rfl, rfl, rfl, rfl, rfl, rfl, rfl, rfl⟩ ready rfl rfl rfl rfl
          (by simp [Producer.sealed]) rfl rfl rfl
  case flushClosing.tick =>
    have none := ready.lost (.inl rfl)
    obtain ⟨rfl, rfl⟩ := h
    cases w.closing <;>
      exact StreamFrame.onward ⟨rfl, rfl, rfl, rfl, rfl, rfl, rfl, rfl, rfl⟩ ready rfl rfl rfl rfl
          (by simp [Producer.sealed]) rfl rfl rfl
  case writeCurrent.tick rest =>
    have none := ready.lost (.inl rfl)
    obtain ⟨rfl, rfl⟩ := h
    split
    · rename_i done
      obtain rfl := List.isEmpty_iff.mp done
      exact StreamFrame.onward ⟨rfl, rfl, rfl, rfl, rfl, rfl, rfl, rfl, rfl⟩ ready rfl rfl rfl rfl
          (by simp [Producer.sealed]) rfl rfl rfl
    · cases w.current <;>
        exact StreamFrame.onward ⟨rfl, rfl, rfl, rfl, rfl, rfl, rfl, rfl, rfl⟩ ready rfl rfl rfl rfl
          (by simp [Producer.sealed]) rfl rfl rfl
  case markFinal.tick =>
    have none := ready.lost (.inl rfl)
    obtain ⟨rfl, rfl⟩ := h
    exact StreamFrame.onward ⟨rfl, rfl, rfl, rfl, rfl, rfl, rfl, rfl, rfl⟩ ready rfl rfl rfl rfl
          (fun _ => ready.sealed rfl) rfl rfl rfl
  case closeStopped.tick =>
    obtain ⟨rfl, rfl⟩ := h
    cases stopped : w.stopped
    · exact StreamFrame.spec ⟨rfl, rfl, rfl, rfl, rfl, rfl, rfl, rfl, rfl⟩ ready rfl rfl rfl rfl
        (by simp [Producer.sealed]) (fun _ => ready.lost (.inr stopped)) (by simp [stopped])
        (by simp [Producer.returning])
    · cases w.current <;>
        exact StreamFrame.spec ⟨rfl, rfl, rfl, rfl, rfl, rfl, rfl, rfl, rfl⟩ ready rfl rfl rfl rfl
          (by simp [Producer.sealed]) (by simp [Producer.admitted]) (fun _ _ => rfl)
          (fun _ => .inr stopped)
  case closeMark.tick =>
    obtain ⟨rfl, rfl⟩ := h
    exact StreamFrame.spec ⟨rfl, rfl, rfl, rfl, rfl, rfl, rfl, rfl, rfl⟩ ready rfl rfl rfl rfl
      (by simp [Producer.sealed]) (by simp [Producer.admitted]) (fun _ _ => rfl)
      (by simp [Producer.returning])
  case flushCurrent.tick =>
    have none := ready.lost (.inl rfl)
    obtain ⟨rfl, rfl⟩ := h
    cases w.current with
    | none =>
      exact StreamFrame.onward ⟨rfl, rfl, rfl, rfl, rfl, rfl, rfl, rfl, rfl⟩ ready rfl rfl rfl rfl
          (by simp [Producer.sealed]) rfl rfl rfl
    | some b =>
      dsimp only
      split_ifs <;>
        exact StreamFrame.onward ⟨rfl, rfl, rfl, rfl, rfl, rfl, rfl, rfl, rfl⟩ ready rfl rfl rfl rfl
          (by simp [Producer.sealed]) rfl rfl rfl
  case writeBorrow.borrow rest source =>
    obtain ⟨⟨b, pool⟩, borrowed, h⟩ := Option.map_eq_some_iff.mp h
    obtain ⟨rfl, rfl⟩ := Prod.mk.inj h
    obtain ⟨elsewhere, same, capacity⟩ := Pool.borrow_heap borrowed
    have current := ready.borrowing rfl
    have kept : ∀ x ∈ chunkBufs w.queue.items, pool.heap x = w.pool.heap x := fun x hx =>
      same x (by rintro rfl; have := ready.live x hx; omega)
    exact {
      heap := fun x => by
        by_cases at_ : x = b
        · exact .inr (at_ ▸ elsewhere.imp_right .inl)
        · exact .inl (same x at_)
      sent := rfl
      overlap := rfl
      closed := rfl
      stream := ⟨[], by simp, by
        simp [Writer.tail, Writer.filled, Writer.currentBuf, Producer.putChunk, Producer.rest,
          Producer.returned, current, content_congr kept]⟩
      sealed := by simp [Producer.sealed]
      lost := fun _ => ready.lost (.inl rfl)
      kept := fun none _ => none
      stopped := .inl
      ended := by simp [Producer.ended, Producer.admitted]
      drained := fun _ _ => by simp [Writer.filled, Writer.currentBuf, Producer.returned, current]
      unlost := fun _ none => none
      returning := by simp [Producer.returning]
      capacity := by
        have : source.capacity w.pool.heap ≤ cfg.capacity := of_decide_eq_true fits
        simpa [Writer.currentBuf, Producer.returned, Producer.fresh, current, capacity] using this
      sized := by simp [Producer.putChunk] }
  case writeSet.tick b rest =>
    obtain ⟨rfl, rfl⟩ := h
    have current := ready.borrowing rfl
    have kept := ready.kept (b := b) (.inl (List.mem_singleton_self b)) (w.pool.heap b).clear
    exact {
      heap := fun x => by
        by_cases at_ : x = b
        · exact .inr (.inr (.inr (.inl (by simp [Producer.own, at_]))))
        · exact .inl (Function.update_of_ne at_ ..)
      sent := rfl
      overlap := rfl
      closed := rfl
      stream := ⟨[], by simp, by
        simp [Writer.tail, Writer.filled, Writer.currentBuf, Producer.putChunk, Producer.rest,
          Producer.returned, current, kept, Pool.update]⟩
      sealed := by simp [Producer.sealed]
      lost := fun _ => ready.lost (.inl rfl)
      kept := fun none _ => none
      stopped := .inl
      ended := by simp [Producer.ended, Producer.admitted]
      drained := by simp [Producer.mayPut]
      unlost := fun _ none => none
      returning := by simp [Producer.returning]
      capacity := by
        have := ready.capacity b (by simp [Producer.fresh])
        simpa [Writer.currentBuf, Producer.returned, Producer.fresh, Pool.update] using this
      sized := by simp [Producer.putChunk] }
  case writePut.tick b rest =>
    obtain ⟨rfl, rfl⟩ := h
    refine writePut_stream ready (ByteBuffer.filled_put _) (ByteBuffer.capacity_put _) ?_
    split_ifs
    · exact .inl rfl
    · exact .inr rfl
  case closeReturn.giveBack b keep =>
    obtain ⟨rfl, rfl⟩ := h
    have empty := ready.emptied rfl
    exact {
      heap := fun x => .inl (by rw [Pool.heap_giveBack])
      sent := rfl
      overlap := rfl
      closed := rfl
      stream := ⟨[], by simp, by
        rw [Writer.tail, Writer.tail, empty]
        simp [Writer.filled, Writer.currentBuf, Producer.putChunk, Producer.rest, Producer.returned]⟩
      sealed := by simp [Producer.sealed]
      lost := by simp [Producer.admitted]
      kept := fun none _ => none
      stopped := .inl
      ended := fun _ _ _ => ⟨rfl, rfl⟩
      drained := fun _ _ => rfl
      unlost := fun _ none => none
      returning := fun _ => .inl rfl
      capacity := by simp [Writer.currentBuf, Producer.returned, Producer.fresh]
      sized := by simp [Producer.putChunk] }
  case closeUnset.tick b =>
    obtain ⟨rfl, rfl⟩ := h
    exact {
      heap := fun x => .inl rfl
      sent := rfl
      overlap := rfl
      closed := rfl
      stream := ⟨[], by simp, by
        simp [Writer.tail, Writer.filled, Writer.currentBuf, Producer.putChunk, Producer.rest,
          Producer.returned]⟩
      sealed := by simp [Producer.sealed]
      lost := by simp [Producer.admitted]
      kept := fun none _ => none
      stopped := .inl
      ended := fun _ _ _ => ⟨rfl, rfl⟩
      drained := fun _ _ => rfl
      unlost := fun _ none => none
      returning := fun _ => .inl rfl
      capacity := by simp [Writer.currentBuf, Producer.returned, Producer.fresh]
      sized := by simp [Producer.putChunk] }
  case closeCurrent.tick =>
    obtain ⟨rfl, rfl⟩ := h
    have none := ready.lost (.inl rfl)
    cases current : w.current with
    | none => exact closeEmpty_stream ready (by simp [Writer.filled, Writer.currentBuf, current])
    | some b =>
      dsimp only
      split_ifs with position
      · exact StreamFrame.onward ⟨rfl, rfl, rfl, rfl, rfl, rfl, rfl, rfl, rfl⟩ ready rfl rfl rfl rfl
          (by simp [Producer.sealed]) rfl rfl rfl
      · refine closeEmpty_stream ready ?_
        have := ByteBuffer.filled_of_position (Nat.eq_zero_of_not_pos position)
        simp [Writer.filled, Writer.currentBuf, Producer.returned, current, this]
  case seal.tick b sender =>
    obtain ⟨rfl, rfl⟩ := h
    have current := ready.grip b rfl
    have kept := ready.kept (b := b) (.inr rfl) (w.pool.heap b).flip
    have small := ready.capacity b (by simp [Writer.currentBuf, Producer.returned, current])
    exact {
      heap := fun x => by
        by_cases at_ : x = b
        · exact .inr (.inr (.inr (.inr (by rw [at_]; rfl))))
        · exact .inl (Function.update_of_ne at_ ..)
      sent := rfl
      overlap := rfl
      closed := rfl
      stream := ⟨[], by simp, by
        simp [Writer.tail, Writer.filled, Writer.currentBuf, Producer.putChunk, Producer.rest,
          Producer.returned, current, kept, Pool.update, sealChunk]⟩
      sealed := fun _ => rfl
      lost := fun _ => ready.lost (.inl rfl)
      kept := fun none _ => none
      stopped := .inl
      ended := by simp [Producer.ended, Producer.admitted]
      drained := by simp [Producer.mayPut]
      unlost := fun _ none => none
      returning := by simp [Producer.returning]
      capacity := by simp [Writer.currentBuf, Producer.returned, Producer.fresh]
      sized := by
        have := ByteBuffer.filled_le_capacity (b := w.pool.heap b)
        simpa [Producer.putChunk, sealChunk, Pool.update] using this.trans small }

def sentBytes (sent : List Send) : List UInt8 := sent.flatMap (·.bytes)

/-- Inside `on-stop`. -/
def Worker.inStop : Worker → Bool
  | .stopSet => true
  | k => k.stopping

/-- What a worker step does to the bytes on their way. -/
structure WorkerStream (w v : Writer) (k l : Worker) : Prop where
  heap : ∀ b, v.pool.heap b = w.pool.heap b ∨ b ∈ k.own
  written : v.written = w.written
  lost : v.lost = w.lost
  current : v.current = w.current
  closed : v.queue.closed = w.queue.closed
  stream : sentBytes v.sent ++ content v.pool.heap (chunkBufs l.acc ++ chunkBufs v.queue.items) =
    sentBytes w.sent ++ content w.pool.heap (chunkBufs k.acc ++ chunkBufs w.queue.items)
  stopped : v.stopped = true → w.stopped = true ∨ k.finishing = true
  overlap : v.overlap = w.overlap
  inStop : l.inStop = false

theorem WorkerStream.quiet {w v : Writer} {k l : Worker} (heap : v.pool.heap = w.pool.heap)
    (written : v.written = w.written) (lost : v.lost = w.lost) (current : v.current = w.current)
    (closed : v.queue.closed = w.queue.closed) (sent : v.sent = w.sent)
    (line : l.acc ++ v.queue.items = k.acc ++ w.queue.items) (stopped : v.stopped = w.stopped)
    (overlap : v.overlap = w.overlap) (inStop : l.inStop = false) : WorkerStream w v k l where
  heap b := .inl (by rw [heap])
  written := written
  lost := lost
  current := current
  closed := closed
  stream := by rw [sent, heap, ← chunkBufs_append, ← chunkBufs_append, line]
  stopped on := .inl (stopped ▸ on)
  overlap := overlap
  inStop := inStop

theorem package_stream {w : Writer} (rem : ℕ) (acc : List Chunk) :
    WorkerStream w w (.drain rem acc) (package acc) := by
  unfold package
  split
  · rename_i empty
    obtain rfl := List.isEmpty_iff.mp empty
    exact .quiet rfl rfl rfl rfl rfl rfl rfl rfl rfl rfl
  · exact .quiet rfl rfl rfl rfl rfl rfl rfl rfl rfl rfl

theorem workerStep_stream {cfg : Config} {w v : Writer} {k l : Worker} {move : WorkerMove}
    (calm : k.inStop = false) (stay : move ≠ .stop)
    (distinct : k.own.Nodup) (apart : ∀ b ∈ chunkBufs w.queue.items, b ∉ k.own)
    (alone : ∀ acc, k = .send acc → w.owed = 0)
    (fits : ∀ rem acc c, k = .release rem acc c → w.queue.permits + c.bytes < 2 ^ 31)
    (h : workerStep cfg w k move = some (v, l)) : WorkerStream w v k l := by
  cases k <;> cases move <;>
    simp only [workerStep, reduceCtorEq, Option.some.injEq, Prod.mk.injEq] at h
  case stopSet.tick | stopUntrack.tick | stopClose.tick | stopRelease.tick | stopTake.tick |
      stopReturn.giveBack => simp [Worker.inStop, Worker.stopping] at calm
  case idle.stop => exact absurd rfl stay
  case drain.tick rem acc =>
    split at h
    · rename_i c items queued
      split at h <;> obtain ⟨rfl, rfl⟩ := Prod.mk.inj (Option.some.inj h)
      · split_ifs <;>
          exact .quiet rfl rfl rfl rfl rfl rfl (by simp [Worker.acc, queued]) rfl rfl rfl
      · exact package_stream rem acc
    · obtain ⟨rfl, rfl⟩ := Prod.mk.inj (Option.some.inj h)
      exact package_stream rem acc
  case release.tick rem acc c =>
    rw [Queue.release, if_pos (fits rem acc c rfl)] at h
    obtain ⟨rfl, rfl⟩ := Prod.mk.inj (Option.some.inj h)
    exact .quiet rfl rfl rfl rfl rfl rfl rfl rfl rfl rfl
  case send.tick acc =>
    obtain ⟨rfl, rfl⟩ := h
    obtain ⟨bytes, others⟩ := readBufs_spec distinct w.pool.heap
    exact {
      heap := fun b => by
        by_cases read : b ∈ chunkBufs acc
        · exact .inr read
        · exact .inl (others b read)
      written := rfl
      lost := rfl
      current := rfl
      closed := rfl
      stream := by
        have kept := content_congr fun b hb => others b (apart b hb)
        simp only [Worker.own] at bytes kept
        simp [sentBytes, Worker.acc, bytes, kept]
      stopped := .inl
      overlap := by simp [alone acc rfl]
      inStop := rfl }
  case finish.tick =>
    obtain ⟨rfl, rfl⟩ := h
    exact ⟨fun b => .inl rfl, rfl, rfl, rfl, rfl, rfl, fun _ => .inr rfl, rfl, rfl⟩
  case releaseChunks.giveBack todo keep =>
    split at h <;> simp only [reduceCtorEq, Option.some.injEq, Prod.mk.injEq] at h
    obtain ⟨rfl, rfl⟩ := h
    exact .quiet (Pool.heap_giveBack keep) rfl rfl rfl rfl rfl rfl rfl rfl rfl
  case idle.proceed | releaseChunks.tick | idle.command | retireSwap.tick =>
    split at h <;> simp only [reduceCtorEq, Option.some.injEq, Prod.mk.injEq] at h <;>
      obtain ⟨rfl, rfl⟩ := h <;> exact .quiet rfl rfl rfl rfl rfl rfl rfl rfl rfl rfl
  case retire.tick point =>
    obtain ⟨⟨tracked, rfl⟩, rfl | ⟨next, rfl⟩⟩ := retireStep_frame h <;>
      exact .quiet rfl rfl rfl rfl rfl rfl rfl rfl rfl rfl
  all_goals
    obtain ⟨rfl, rfl⟩ := h
    refine .quiet rfl rfl rfl rfl rfl rfl ?_ rfl rfl ?_ <;> (repeat' split) <;> rfl

end Busker.ResponseQueue
