import Busker.RequestBody.Deliveries

/-! What an application reads of a request body: the chunks' bytes in order, all of them
before -1, and a request for the next chunk when the last byte of one has been read. -/
namespace Busker.RequestBody

open Interleaving

/-- What the application has read is a beginning of the body, and all of it once a read has
returned -1. The requests to proceed, with the one being made, are one for each chunk whose
last byte has been read, and `proceeds` says each was made right then. -/
structure Faithful (s : State) (h : Reading) : Prop where
  read : h.read <+: h.chunks.flatten
  ended : h.ended = true → h.read = h.chunks.flatten ∧ s.ended = true
  proceeds : h.proceeds ++ (if s.handler = .proceed then [h.read.length] else []) =
    (ends h.chunks).filter (· ≤ h.read.length)
  chunks : s.channel.queue.countP (·.isChunk) ≤ 1
  markers : s.channel.queue.countP (! ·.isChunk) ≤ 1

section
variable {s : State} {h : Reading}

/-- A chunk whose request has not come up has bytes left. -/
theorem Intact.left (intact : Intact s h) (live : s.live = 1) (reading : s.handler ≠ .proceed) :
    s.unread ≠ [] := by
  intro none
  simp only [State.unread, List.append_eq_nil_iff] at none
  obtain ⟨⟨⟨current, taken⟩, queue⟩, worker⟩ := none
  have no_current : loaded s.channel.currentBuf = 0 := by
    cases at_ : s.channel.currentBuf with
    | none => rfl
    | some bytes =>
        cases bytes with
        | nil => rfl
        | cons b bytes =>
            rw [at_] at current
            contradiction
  have no_queue : s.channel.queue.countP (·.isChunk) = 0 := by
    rw [List.countP_eq_zero]
    intro entry mem chunk
    cases entry with
    | eof => cases chunk
    | chunk bytes => exact intact.queued bytes mem (List.flatMap_eq_nil_iff.mp queue _ mem)
  have no_taken : s.handler.chunks = 0 := by
    have knows := intact.knows
    cases at_ : s.handler with
    | store _ entry =>
        cases entry with
        | eof => rfl
        | chunk bytes =>
            rw [at_] at knows taken
            exact (knows.2.2 bytes rfl taken).elim
    | proceed => exact (reading at_).elim
    | _ => rfl
  have no_worker : s.worker.live = 0 := by
    cases at_ : s.worker with
    | check chunk _ =>
        rcases chunk with _ | _ | ⟨b, bytes⟩
        · rfl
        · rfl
        · rw [at_] at worker
          contradiction
    | putChunk bytes isLast =>
        rw [at_] at worker
        exact (intact.put bytes isLast at_ worker).elim
    | _ => rfl
  simp only [State.live, Channel.chunks] at live
  omega

/-- The last byte of the newest chunk has been read, and its request is being made. -/
theorem Intact.asking (intact : Intact s h) (at_ : s.handler = .proceed) (one : s.live = 1) :
    s.unread = [] := by
  have knows := intact.knows
  rw [at_] at knows
  simp only [State.live, at_, Handler.chunks] at one
  obtain ⟨current, queue⟩ := Channel.bytes_nil (c := s.channel) (by omega)
  simp [State.unread, current, queue, Worker.bytes_nil (k := s.worker) (by omega), at_,
    Handler.bytes]

theorem filter_past {chunks : List (List UInt8)} {proceeds : List ℕ} {bound : ℕ}
    (same : proceeds = ends chunks) (past : ∀ n ∈ proceeds, n ≤ bound) :
    (ends chunks).filter (· ≤ bound) = proceeds := by
  rw [← same, List.filter_eq_self]
  intro n mem
  exact decide_eq_true (past n mem)

theorem Intact.requests (intact : Intact s h) :
    h.proceeds ++ (if s.handler = .proceed then [h.read.length] else []) =
      (ends h.chunks).filter (· ≤ h.read.length) := by
  have one := intact.one
  have count := intact.count
  have bound : s.live ≤ 1 := by split at one <;> omega
  rcases Nat.le_one_iff_eq_zero_or_eq_one.mp bound with none | live
  · have reading : s.handler ≠ .proceed := by
      intro at_
      simp [State.live, at_, Handler.chunks] at none
    rw [if_neg reading, List.append_nil, filter_past (intact.all none).2 intact.past]
  · rw [live] at count
    rcases List.eq_nil_or_concat h.chunks with empty | ⟨init, last, split⟩
    · rw [empty] at count
      simp at count
    · rw [List.concat_eq_append] at split
      have length : h.proceeds.length = init.length := by
        rw [split, List.length_append, List.length_singleton] at count
        omega
      have earlier : h.proceeds = ends init := by
        rw [intact.proceeds, split, length, List.take_left' rfl]
      rw [split, ends_concat, ← split, List.filter_append, filter_past earlier intact.past]
      congr 1
      by_cases at_ : s.handler = .proceed
      · rw [if_pos at_, intact.bytes, intact.asking at_ live, List.append_nil]
        simp
      · have some := List.length_pos_of_ne_nil (intact.left live at_)
        rw [if_neg at_, intact.bytes, List.length_append]
        simp
        omega

theorem Intact.faithful (intact : Intact s h) : Faithful s h := by
  have one := intact.one
  have marks := intact.marks
  constructor
  · exact ⟨s.unread, intact.bytes.symm⟩
  · intro ended
    obtain ⟨_, all, _, none⟩ := intact.exhausted ended
    exact ⟨(intact.all none).1, all⟩
  · exact intact.requests
  · simp only [State.live, Channel.chunks] at one
    split at one <;> omega
  · have bound : s.worker.markers + s.marks ≤ 1 := by split at marks <;> omega
    simp only [State.marks, Channel.markers] at bound
    omega

theorem Finished.faithful (finished : Finished s h) : Faithful s h := by
  constructor
  · exact ⟨[], (List.append_nil _).trans finished.read⟩
  · exact fun _ => ⟨finished.read, finished.all⟩
  · have reading : s.handler ≠ .proceed := by
      rcases finished.outside with idle | ⟨room, at_⟩ <;> simp [*]
    rw [if_neg reading, List.append_nil, filter_past finished.proceeds finished.past]
  · rcases finished.queue with empty | ⟨marker, _⟩ <;> simp [*, Entry.isChunk]
  · rcases finished.queue with empty | ⟨marker, _⟩ <;> simp [*, Entry.isChunk]

end

/-- A request body is read as it was delivered, whatever the destinations. -/
theorem faithful_of_undisturbed {r : State × Reading} (h : reader.ReachableVia undisturbed r) :
    Faithful r.1 r.2 := by
  have kept : Intact r.1 r.2 ∨ Finished r.1 r.2 := by
    apply h.invariant (I := fun r => Intact r.1 r.2 ∨ Finished r.1 r.2)
    · rintro ⟨s, h⟩ ⟨rfl, rfl⟩
      exact .inl Intact.start
    · rintro a ⟨s, h⟩ t intact allowed moves
      obtain ⟨t, moved, rfl⟩ := Option.map_eq_some_iff.mp moves
      exact intact_step intact allowed moved
  exact kept.elim Intact.faithful Finished.faithful

/-- A chunk of three bytes is read in two pieces, a last one of a byte, and the end. -/
def twoChunks : List Action := List.flatten [
  [.deliver (some [1, 2, 3]) false, .worker, .worker, .read 2], List.replicate 6 (.handler true),
  [.read 2], List.replicate 6 (.handler true),
  [.deliver (some [4]) true, .worker, .worker, .worker, .read 8], List.replicate 8 (.handler true),
  [.read 8], List.replicate 6 (.handler true), [.retire], List.replicate 4 .worker]

def readWhole : State × Reading :=
  reader.runFromVia undisturbed twoChunks (freshState, Reading.start)

theorem readWhole_faithful : readWhole.2.ended = true ∧ readWhole.2.read = [1, 2, 3, 4] ∧
    readWhole.2.proceeds = [3, 4] ∧ Faithful readWhole.1 readWhole.2 :=
  ⟨by decide +kernel, by decide +kernel, by decide +kernel,
    faithful_of_undisturbed (.runFromVia _ (.init ⟨rfl, rfl⟩))⟩

end Busker.RequestBody
