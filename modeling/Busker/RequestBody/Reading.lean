import Busker.RequestBody.Writes
import Busker.RequestBody.EndOfBody

/-! The reads of a request body. Every byte delivered is at one place, in order, until it is
read, and a read of the last byte of a chunk requests the next. -/
namespace Busker.RequestBody

open Interleaving

/-- The chunks delivered and the bytes read so far, how many bytes had been read at each
request to proceed, and whether a read has returned -1. -/
structure Reading where
  chunks : List (List UInt8)
  read : List UInt8
  proceeds : List ℕ
  ended : Bool

def Reading.start : Reading := ⟨[], [], [], false⟩

def noteReading : Action → State → Reading → Reading
  | .deliver chunk _, _, h =>
    { h with chunks := if chunk.getD [] = [] then h.chunks else h.chunks ++ [chunk.getD []] }
  | .handler _, s, h =>
    match s.handler with
    | .copy room => { h with read := h.read ++ (s.channel.currentBuf.getD []).take room }
    | .proceed => { h with proceeds := h.proceeds ++ [h.read.length] }
    | .readEof _ => { h with ended := h.ended || s.channel.closed }
    | _ => h
  | _, _, h => h

/-- The body channel with what has been read. -/
def reader : Machine (State × Reading) Action := machine.recording Reading.start noteReading

/-- Chunks are not empty, except a last one; the application does not close the channel, nor
the worker before the body is read, and the worker takes the requests to proceed. -/
def undisturbed : Action → State × Reading → Prop
  | .deliver chunk isLast, _ => chunk.getD [] ≠ [] ∨ isLast = true
  | .handler accepted, _ => accepted = true
  | .retire, r => r.2.ended = true
  | .close, _ => False
  | .worker, _ | .read _, _ => True

instance (a : Action) (s : State × Reading) : Decidable (undisturbed a s) := by
  cases a <;> unfold undisturbed <;> infer_instance

/-- The number of bytes at the end of each chunk. -/
def ends (chunks : List (List UInt8)) : List ℕ :=
  (List.range chunks.length).map fun i => (chunks.take (i + 1)).flatten.length

theorem ends_concat (chunks : List (List UInt8)) (last : List UInt8) :
    ends (chunks ++ [last]) = ends chunks ++ [(chunks ++ [last]).flatten.length] := by
  unfold ends
  rw [List.length_append, List.length_singleton, List.range_succ, List.map_append]
  congr 1
  · apply List.map_congr_left
    intro i mem
    rw [List.take_append_of_le_length (List.mem_range.mp mem)]
  · rw [List.map_singleton, List.take_of_length_le (by simp)]

/-- The bytes of a chunk the worker has not put yet. -/
def Worker.bytes : Worker → List UInt8
  | .check chunk _ => chunk.getD []
  | .putChunk bytes _ => bytes
  | _ => []

def Entry.bytes : Entry → List UInt8
  | .chunk bytes => bytes
  | .eof => []

/-- The bytes of a chunk the handler has taken but not stored. -/
def Handler.bytes : Handler → List UInt8
  | .store _ entry => entry.bytes
  | _ => []

/-- What is delivered and not read, in order. -/
def State.unread (s : State) : List UInt8 :=
  s.channel.currentBuf.getD [] ++ s.handler.bytes ++ s.channel.queue.flatMap Entry.bytes ++
    s.worker.bytes

/-- A chunk with bytes that the worker has not put. -/
def Worker.live : Worker → ℕ
  | .check (some (_ :: _)) _ | .putChunk _ _ => 1
  | _ => 0

/-- Chunks whose request to proceed has not been made. -/
def State.live (s : State) : ℕ := s.worker.live + s.channel.chunks + s.handler.chunks

/-- The marker the handler has taken. -/
def Handler.marks : Handler → ℕ
  | .store _ .eof => 1
  | _ => 0

/-- The marker, once it is put. -/
def State.marks (s : State) : ℕ :=
  s.channel.markers + s.handler.marks + if s.channel.closed then 1 else 0

/-- What a read has found out at the point it has come to. -/
def Handler.Knows (c : Channel) : Handler → Prop
  | .idle | .readClosed _ => True
  | .readCurrent _ => c.closed = false
  | .readRemaining _ => c.closed = false ∧ c.currentBuf ≠ none
  | .take _ | .proceed => c.closed = false ∧ loaded c.currentBuf = 0
  | .store _ entry =>
    c.closed = false ∧ loaded c.currentBuf = 0 ∧ ∀ bytes, entry = .chunk bytes → bytes ≠ []
  | .readEof _ => c.closed = false → c.currentBuf ≠ none
  | .copy _ => c.closed = false ∧ c.currentBuf ≠ none
  | .close _ => False

/-- Nothing is lost, doubled or out of order, and the marker comes last. -/
structure Intact (s : State) (h : Reading) : Prop where
  bytes : h.chunks.flatten = h.read ++ s.unread
  count : h.chunks.length = h.proceeds.length + s.live
  proceeds : h.proceeds = ends (h.chunks.take h.proceeds.length)
  one : s.live ≤ if s.outstanding then 1 else 0
  marks : s.worker.markers + s.marks ≤ if s.ended then 1 else 0
  marked : 0 < s.marks → s.worker = .idle
  order : ∀ before rest, s.channel.queue = before ++ .eof :: rest → rest = []
  put : ∀ bytes isLast, s.worker = .putChunk bytes isLast → bytes ≠ []
  serves : ∀ p, s.worker ≠ .close p
  queued : ∀ bytes, .chunk bytes ∈ s.channel.queue → bytes ≠ []
  knows : s.handler.Knows s.channel
  taken : s.channel.closed = true ∨ s.handler.marks = 1 → s.live = 0 ∧ s.channel.queue = []
  past : ∀ n ∈ h.proceeds, n ≤ h.read.length
  ended : h.ended = true → s.channel.closed = true ∧ s.handler.outside = true

section
variable {s t : State} {h : Reading}

theorem unloaded {buf : Option (List UInt8)} (none : loaded buf = 0) : buf.getD [] = [] := by
  match buf, none with
  | .none, _ => rfl
  | some [], _ => rfl

theorem loaded_some {bytes : List UInt8} (some_bytes : bytes ≠ []) : loaded (some bytes) = 1 := by
  cases bytes with
  | nil => exact (some_bytes rfl).elim
  | cons _ _ => rfl

theorem Intact.start : Intact freshState Reading.start := by
  constructor <;> simp [freshState, Reading.start, State.unread, State.live, State.marks, ends,
    Handler.bytes, Worker.bytes, Worker.live, Channel.chunks, loaded, Handler.chunks,
    Channel.markers, Handler.marks, Worker.markers, Handler.Knows]

/-- A step of the handler that moves nothing but a taken entry. -/
theorem Intact.same (intact : Intact s h) {c : Channel} {k : Handler}
    (unread : { s with channel := c, handler := k }.unread = s.unread)
    (live : { s with channel := c, handler := k }.live = s.live)
    (marks : { s with channel := c, handler := k }.marks = s.marks)
    (queue : c.queue <:+ s.channel.queue) (unended : s.channel.closed = true →
      c.closed = true ∧ k.outside = true) (knows : k.Knows c)
    (taken : c.closed = true ∨ k.marks = 1 →
      { s with channel := c, handler := k }.live = 0 ∧ c.queue = []) :
    Intact { s with channel := c, handler := k } h := by
  constructor
  case bytes => rw [unread]; exact intact.bytes
  case count => rw [live]; exact intact.count
  case proceeds => exact intact.proceeds
  case one => rw [live]; exact intact.one
  case marks => rw [marks]; exact intact.marks
  case marked => rw [marks]; exact intact.marked
  case order =>
    rintro before rest same
    obtain ⟨earlier, front⟩ := queue
    apply intact.order (earlier ++ before) rest
    rw [← front, same, List.append_assoc]
  case put => exact intact.put
  case serves => exact intact.serves
  case queued => exact fun bytes mem => intact.queued bytes (queue.mem mem)
  case knows => exact knows
  case taken => exact taken
  case past => exact intact.past
  case ended => exact fun ended => unended (intact.ended ended).1

/-- A point of a read that holds nothing. -/
def Handler.empty : Handler → Prop
  | .store _ _ | .proceed => False
  | _ => True

theorem Handler.empty.nothing {k : Handler} (empty : k.empty) :
    k.bytes = [] ∧ k.chunks = 0 ∧ k.marks = 0 := by
  cases k <;> first | exact empty.elim | exact ⟨rfl, rfl, rfl⟩

/-- A step of a read that only looks. -/
theorem Intact.looks (intact : Intact s h) {k : Handler} (empty : s.handler.empty)
    (empty' : k.empty) (outside : s.channel.closed = true → k.outside = true)
    (knows : k.Knows s.channel) : Intact { s with handler := k } h := by
  obtain ⟨bytes, chunks, marks⟩ := empty.nothing
  obtain ⟨bytes', chunks', marks'⟩ := empty'.nothing
  have live : { s with handler := k }.live = s.live := by
    simp only [State.live, chunks, chunks']
  refine intact.same ?_ live ?_ (List.suffix_refl _) (fun c => ⟨c, outside c⟩) knows ?_
  · simp only [State.unread, bytes, bytes']
  · simp only [State.marks, marks, marks']
  · rintro (closed | marked)
    · rw [live]
      exact intact.taken (.inl closed)
    · rw [marks'] at marked
      contradiction

/-- The handler takes an entry from the queue. -/
theorem Intact.takes (intact : Intact s h) {room : ℕ} {entry : Entry} {rest : List Entry}
    (at_ : s.handler = .take room) (queue : s.channel.queue = entry :: rest) :
    Intact
      { s with channel := { s.channel with queue := rest }, handler := .store room entry } h := by
  have knows := intact.knows
  rw [at_] at knows
  obtain ⟨opened, none⟩ := knows
  have live : { s with
      channel := { s.channel with queue := rest }, handler := .store room entry }.live = s.live := by
    cases entry <;> simp [State.live, Channel.chunks, queue, at_, Handler.chunks, Entry.isChunk]
    omega
  refine intact.same ?_ live ?_ ?_ ?_ ⟨opened, none, ?_⟩ ?_
  · simp [State.unread, at_, queue, Handler.bytes, unloaded none]
  · cases entry <;> simp [State.marks, Channel.markers, queue, at_, Handler.marks, Entry.isChunk]
  · rw [queue]
    exact List.suffix_cons entry rest
  · simp [opened]
  · rintro bytes rfl
    exact intact.queued bytes (queue ▸ List.mem_cons_self)
  · rintro (closed | marked)
    · dsimp only at closed
      rw [opened] at closed
      contradiction
    · cases entry with
      | chunk bytes => cases marked
      | eof =>
          have empty : rest = [] := intact.order [] rest queue
          have idle : s.worker = .idle := by
            apply intact.marked
            simp [State.marks, Channel.markers, queue, Entry.isChunk]
          rw [live]
          refine ⟨?_, empty⟩
          simp [State.live, idle, Worker.live, Channel.chunks, queue, empty, none, at_,
            Handler.chunks, Entry.isChunk]

/-- The handler stores a chunk it has taken. -/
theorem Intact.stores (intact : Intact s h) {room : ℕ} {bytes : List UInt8}
    (at_ : s.handler = .store room (.chunk bytes)) :
    Intact { s with
      channel := { s.channel with currentBuf := some bytes }, handler := .readEof room } h := by
  have knows := intact.knows
  rw [at_] at knows
  obtain ⟨opened, none, some_bytes⟩ := knows
  have one := loaded_some (some_bytes bytes rfl)
  refine intact.same ?_ ?_ ?_ (List.suffix_refl _) ?_ (fun _ => by simp) ?_
  · simp [State.unread, at_, Handler.bytes, Entry.bytes, unloaded none]
  · simp [State.live, Channel.chunks, at_, Handler.chunks, none, one]
    omega
  · simp [State.marks, at_, Handler.marks, Channel.markers]
  · simp [opened]
  · rintro (closed | marked)
    · dsimp only at closed
      rw [opened] at closed
      contradiction
    · cases marked

/-- The handler has taken the marker. -/
theorem Intact.closes (intact : Intact s h) {room : ℕ} (at_ : s.handler = .store room .eof) :
    Intact { s with
      channel := { s.channel with closed := true }, handler := .readEof room } h := by
  have knows := intact.knows
  rw [at_] at knows
  obtain ⟨opened, none, _⟩ := knows
  have live : { s with
      channel := { s.channel with closed := true }, handler := .readEof room }.live = s.live := by
    simp [State.live, Channel.chunks, at_, Handler.chunks]
  refine intact.same ?_ live ?_ (List.suffix_refl _) ?_ ?_ ?_
  · simp [State.unread, at_, Handler.bytes, Entry.bytes]
  · simp [State.marks, Channel.markers, at_, Handler.marks, opened]
  · simp [opened]
  · intro closed
    cases closed
  · intro _
    rw [live]
    exact intact.taken (.inr (by rw [at_]; rfl))

/-- What a read copies was a chunk, and still is one or is to be answered. -/
theorem loaded_copied (room : ℕ) (bytes : List UInt8) :
    loaded (some (bytes.drop room)) +
      (if 0 < min room bytes.length && (bytes.drop room).isEmpty then Handler.proceed
        else .idle).chunks = loaded (some bytes) := by
  cases bytes with
  | nil => simp [loaded, Handler.chunks]
  | cons b rest =>
      cases room with
      | zero => simp [loaded, Handler.chunks]
      | succ room =>
          rw [List.drop_succ_cons]
          cases rest.drop room <;> simp [loaded, Handler.chunks]

/-- The handler copies what fits. -/
theorem Intact.copies (intact : Intact s h) {room : ℕ} {bytes : List UInt8}
    (at_ : s.handler = .copy room) (current : s.channel.currentBuf = some bytes) :
    Intact
      { s with
        channel := { s.channel with currentBuf := some (bytes.drop room) }
        handler := if 0 < min room bytes.length && (bytes.drop room).isEmpty then .proceed
          else .idle }
      { h with read := h.read ++ bytes.take room } := by
  have knows := intact.knows
  rw [at_] at knows
  obtain ⟨opened, _⟩ := knows
  have here : s.handler.bytes = [] ∧ s.handler.chunks = 0 ∧ s.handler.marks = 0 := by
    rw [at_]
    exact ⟨rfl, rfl, rfl⟩
  have copied := loaded_copied room bytes
  set next : Handler := if 0 < min room bytes.length && (bytes.drop room).isEmpty then .proceed
    else .idle with next_eq
  have nothing : next.bytes = [] ∧ next.marks = 0 := by
    rw [next_eq]
    split <;> exact ⟨rfl, rfl⟩
  have live : { s with
      channel := { s.channel with currentBuf := some (bytes.drop room) }
      handler := next }.live = s.live := by
    simp only [State.live, Channel.chunks, here, current]
    omega
  have marks : { s with
      channel := { s.channel with currentBuf := some (bytes.drop room) }
      handler := next }.marks = s.marks := by
    simp only [State.marks, Channel.markers, here, nothing.2]
  constructor
  case bytes =>
    rw [intact.bytes]
    simp only [State.unread, here, nothing.1, current, Option.getD_some, List.append_assoc,
      List.nil_append, ← List.append_assoc (bytes.take room), List.take_append_drop]
  case count => rw [live]; exact intact.count
  case proceeds => exact intact.proceeds
  case one => rw [live]; exact intact.one
  case marks => rw [marks]; exact intact.marks
  case marked => rw [marks]; exact intact.marked
  case order => exact intact.order
  case put => exact intact.put
  case serves => exact intact.serves
  case queued => exact intact.queued
  case knows =>
    rw [next_eq]
    split
    · rename_i consumed
      refine ⟨opened, ?_⟩
      have empty : bytes.drop room = [] := by
        simp only [Bool.and_eq_true, List.isEmpty_iff] at consumed
        exact consumed.2
      dsimp only
      rw [empty]
      rfl
    · trivial
  case taken =>
    rw [nothing.2]
    rintro (closed | marked)
    · dsimp only at closed
      rw [opened] at closed
      contradiction
    · contradiction
  case past =>
    intro n mem
    have earlier := intact.past n mem
    rw [List.length_append]
    omega
  case ended =>
    intro ended
    have closed := (intact.ended ended).1
    rw [opened] at closed
    contradiction

/-- A worker without a chunk has no bytes. -/
theorem Worker.bytes_nil {k : Worker} (none : k.live = 0) : k.bytes = [] := by
  match k, none with
  | .idle, _ | .putEof, _ | .close _, _ => rfl
  | .check .none _, _ | .check (some []) _, _ => rfl

theorem Channel.bytes_nil {c : Channel} (none : c.chunks = 0) :
    c.currentBuf.getD [] = [] ∧ c.queue.flatMap Entry.bytes = [] := by
  unfold Channel.chunks at none
  refine ⟨unloaded (by omega), ?_⟩
  have entries : c.queue.countP (·.isChunk) = 0 := by omega
  rw [List.countP_eq_zero] at entries
  rw [List.flatMap_eq_nil_iff]
  intro entry mem
  cases entry with
  | chunk bytes => exact (entries _ mem rfl).elim
  | eof => rfl

/-- The handler requests the next chunk. -/
theorem Intact.asks (intact : Intact s h) (at_ : s.handler = .proceed) :
    Intact { s with handler := .idle, outstanding := false }
      { h with proceeds := h.proceeds ++ [h.read.length] } := by
  have knows := intact.knows
  rw [at_] at knows
  obtain ⟨opened, _⟩ := knows
  have one := intact.one
  have count := intact.count
  have bound : s.live ≤ 1 := by split at one <;> omega
  simp only [State.live, at_, Handler.chunks] at bound count
  have none : s.worker.live = 0 ∧ s.channel.chunks = 0 := by omega
  have live : { s with handler := .idle, outstanding := false }.live = 0 := by
    simp [State.live, none, Handler.chunks]
  have marks : { s with handler := .idle, outstanding := false }.marks = s.marks := by
    simp [State.marks, at_, Handler.marks]
  have unread : s.unread = [] := by
    obtain ⟨current, queue⟩ := Channel.bytes_nil none.2
    simp [State.unread, current, queue, Worker.bytes_nil none.1, at_, Handler.bytes]
  have all : h.chunks.flatten = h.read := by
    rw [intact.bytes, unread, List.append_nil]
  constructor
  case bytes =>
    have same : { s with handler := .idle, outstanding := false }.unread = s.unread := by
      simp only [State.unread, at_, Handler.bytes]
    rw [all, same, unread, List.append_nil]
  case count =>
    rw [live, List.length_append, List.length_singleton]
    dsimp only
    omega
  case proceeds =>
    dsimp only
    rw [List.length_append, List.length_singleton, List.take_of_length_le (by omega)]
    rcases List.eq_nil_or_concat h.chunks with empty | ⟨init, last, split⟩
    · rw [empty] at count
      simp at count
    · rw [List.concat_eq_append] at split
      have length : h.proceeds.length = init.length := by
        rw [split, List.length_append, List.length_singleton] at count
        omega
      rw [split, ends_concat, ← split, all]
      congr 1
      rw [intact.proceeds, split, length, List.take_left']
      rfl
  case one =>
    rw [live]
    exact Nat.zero_le _
  case marks => rw [marks]; exact intact.marks
  case marked => rw [marks]; exact intact.marked
  case order => exact intact.order
  case put => exact intact.put
  case serves => exact intact.serves
  case queued => exact intact.queued
  case knows => trivial
  case taken =>
    rintro (closed | marked)
    · dsimp only at closed
      rw [opened] at closed
      contradiction
    · cases marked
  case past =>
    intro n mem
    rcases List.mem_append.mp mem with earlier | now
    · exact intact.past n earlier
    · rw [List.mem_singleton.mp now]
  case ended =>
    intro ended
    have closed := (intact.ended ended).1
    rw [opened] at closed
    contradiction

theorem Intact.read (intact : Intact s h) (idle : s.handler = .idle) {room : ℕ} :
    Intact { s with handler := .readClosed room } h :=
  intact.looks (by rw [idle]; trivial) trivial (fun _ => rfl) trivial

/-- A step of a read. -/
theorem Intact.handler (intact : Intact s h) {c : Channel} {k : Handler}
    (moves : handlerStep s.channel s.handler = some (c, k)) :
    Intact { s with
        channel := c
        handler := k
        outstanding := if s.handler = .proceed ∧ true then false else s.outstanding }
      (noteReading (.handler true) s h) := by
  have knows := intact.knows
  cases at_ : s.handler with
  | idle =>
      rw [at_] at moves
      cases moves
  | close p =>
      rw [at_] at knows
      exact knows.elim
  | readClosed room =>
      rw [at_] at moves
      obtain ⟨rfl, rfl⟩ := Prod.mk.inj (Option.some.inj moves)
      simp only [noteReading, at_, reduceCtorEq, false_and, if_false]
      refine intact.looks (by rw [at_]; trivial) ?_ ?_ ?_
      · split <;> trivial
      · intro closed
        rw [if_pos closed]
        rfl
      · split
        · trivial
        · rename_i opened
          exact Bool.eq_false_iff.mpr opened
  | readCurrent room =>
      rw [at_] at moves knows
      obtain ⟨rfl, rfl⟩ := Prod.mk.inj (Option.some.inj moves)
      simp only [noteReading, at_, reduceCtorEq, false_and, if_false]
      have opened : s.channel.closed = false := knows
      refine intact.looks (by rw [at_]; trivial) ?_ ?_ ?_
      · split <;> trivial
      · simp [opened]
      · split
        · rename_i empty
          rw [Option.isNone_iff_eq_none] at empty
          exact ⟨opened, by rw [empty]; rfl⟩
        · rename_i some
          refine ⟨opened, ?_⟩
          rintro empty
          rw [empty] at some
          exact some rfl
  | readRemaining room =>
      rw [at_] at moves knows
      obtain ⟨rfl, rfl⟩ := Prod.mk.inj (Option.some.inj moves)
      simp only [noteReading, at_, reduceCtorEq, false_and, if_false]
      obtain ⟨opened, some⟩ := knows
      refine intact.looks (by rw [at_]; trivial) ?_ ?_ ?_
      · split <;> trivial
      · simp [opened]
      · split
        · contradiction
        · rename_i empty
          exact ⟨opened, by rw [empty]; rfl⟩
        · exact fun _ => some
  | take room =>
      rw [at_] at moves
      cases queue : s.channel.queue with
      | nil => simp [handlerStep, queue] at moves
      | cons entry rest =>
        simp only [handlerStep, queue] at moves
        obtain ⟨rfl, rfl⟩ := Prod.mk.inj (Option.some.inj moves)
        simp only [noteReading, at_, reduceCtorEq, false_and, if_false]
        exact intact.takes at_ queue
  | store room entry =>
      rw [at_] at moves
      cases entry with
      | chunk bytes =>
          obtain ⟨rfl, rfl⟩ := Prod.mk.inj (Option.some.inj moves)
          simp only [noteReading, at_, reduceCtorEq, false_and, if_false]
          exact intact.stores at_
      | eof =>
          obtain ⟨rfl, rfl⟩ := Prod.mk.inj (Option.some.inj moves)
          simp only [noteReading, at_, reduceCtorEq, false_and, if_false]
          exact intact.closes at_
  | readEof room =>
      rw [at_] at moves knows
      obtain ⟨rfl, rfl⟩ := Prod.mk.inj (Option.some.inj moves)
      simp only [noteReading, at_, reduceCtorEq, false_and, if_false]
      have looked : Intact
          { s with handler := if s.channel.closed = true then .idle else .copy room } h := by
        refine intact.looks (by rw [at_]; trivial) ?_ ?_ ?_
        · split <;> trivial
        · intro closed
          rw [if_pos closed]
          rfl
        · split
          · trivial
          · rename_i opened
            have opened := Bool.eq_false_iff.mpr opened
            exact ⟨opened, knows opened⟩
      cases closed : s.channel.closed with
      | false =>
          rw [closed] at looked
          simpa using looked
      | true =>
          rw [closed, if_pos rfl] at looked
          exact { looked with ended := fun _ => ⟨closed, rfl⟩ }
  | copy room =>
      rw [at_] at moves knows
      cases current : s.channel.currentBuf with
      | none => exact (knows.2 current).elim
      | some bytes =>
        simp only [handlerStep, current] at moves
        obtain ⟨rfl, rfl⟩ := Prod.mk.inj (Option.some.inj moves)
        simp only [noteReading, at_, reduceCtorEq, false_and, if_false]
        rw [current]
        exact intact.copies at_ current
  | proceed =>
      rw [at_] at moves
      obtain ⟨rfl, rfl⟩ := Prod.mk.inj (Option.some.inj moves)
      simp only [noteReading, at_, and_self, if_true]
      exact intact.asks at_

end

end Busker.RequestBody
