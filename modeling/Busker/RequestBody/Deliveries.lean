import Busker.RequestBody.Reading

/-! Deliveries under the reads: the worker puts what h2o delivers, and after the end of the
body it removes the entry. -/
namespace Busker.RequestBody

open Interleaving

section
variable {s t : State} {h : Reading}

/-- A step of the worker in a delivery. -/
theorem Intact.works (intact : Intact s h) (queue : List Entry) {k : Worker}
    (busy : s.worker ≠ .idle)
    (unread : { s with channel := { s.channel with queue := queue }, worker := k }.unread = s.unread)
    (live : { s with channel := { s.channel with queue := queue }, worker := k }.live = s.live)
    (marks : k.markers + queue.countP (! ·.isChunk) = s.worker.markers)
    (idle : 0 < queue.countP (! ·.isChunk) → k = .idle ∧ ∃ front, queue = front ++ [.eof] ∧
      .eof ∉ front)
    (put : ∀ bytes isLast, k = .putChunk bytes isLast → bytes ≠ []) (serves : ∀ p, k ≠ .close p)
    (queued : ∀ bytes, .chunk bytes ∈ queue → bytes ≠ []) :
    Intact { s with channel := { s.channel with queue := queue }, worker := k } h := by
  have none : s.marks = 0 := by
    by_contra some
    exact busy (intact.marked (by omega))
  have opened : s.channel.closed = false ∧ s.handler.marks = 0 := by
    simp only [State.marks] at none
    split at none <;> simp_all
  have marked : { s with channel := { s.channel with queue := queue }, worker := k }.marks =
      queue.countP (! ·.isChunk) := by
    simp [State.marks, Channel.markers, opened]
  constructor
  case bytes => rw [unread]; exact intact.bytes
  case count => rw [live]; exact intact.count
  case proceeds => exact intact.proceeds
  case one => rw [live]; exact intact.one
  case marks =>
    have before := intact.marks
    rw [none] at before
    rw [marked, marks]
    exact before
  case marked =>
    intro some
    rw [marked] at some
    exact (idle some).1
  case order =>
    intro before rest same
    have some : 0 < queue.countP (! ·.isChunk) := by
      rw [List.countP_pos_iff]
      refine ⟨.eof, ?_, rfl⟩
      dsimp only at same
      rw [same]
      exact List.mem_append_right _ List.mem_cons_self
    obtain ⟨_, front, end_, clean⟩ := idle some
    dsimp only at same
    rcases List.eq_nil_or_concat rest with empty | ⟨init, last, split⟩
    · exact empty
    · rw [end_, split, List.concat_eq_append, ← List.cons_append, ← List.append_assoc] at same
      have front_eq := (List.append_inj' same rfl).1
      rw [front_eq] at clean
      exact (clean (List.mem_append_right _ List.mem_cons_self)).elim
  case put => exact put
  case serves => exact serves
  case queued => exact queued
  case knows =>
    have knows := intact.knows
    cases at_ : s.handler <;> rw [at_] at knows <;> exact knows
  case taken =>
    rintro (closed | marked)
    · dsimp only at closed
      rw [opened.1] at closed
      contradiction
    · dsimp only at marked
      rw [opened.2] at marked
      contradiction
  case past => exact intact.past
  case ended => exact intact.ended

/-- While the worker is in a delivery there is no marker. -/
theorem Intact.unmarked (intact : Intact s h) (busy : s.worker ≠ .idle) :
    s.channel.closed = false ∧ .eof ∉ s.channel.queue := by
  have none : s.marks = 0 := by
    by_contra some
    exact busy (intact.marked (by omega))
  simp only [State.marks, Channel.markers] at none
  constructor
  · split at none <;> simp_all
  · have entries : s.channel.queue.countP (! ·.isChunk) = 0 := by omega
    intro mem
    exact List.countP_eq_zero.mp entries _ mem rfl

theorem countP_marker {queue : List Entry} (none : .eof ∉ queue) :
    queue.countP (! ·.isChunk) = 0 := by
  rw [List.countP_eq_zero]
  intro entry mem
  cases entry with
  | chunk bytes => exact Bool.false_ne_true
  | eof => exact (none mem).elim

/-- A step of the worker that puts nothing. -/
theorem Intact.passes (intact : Intact s h) {k : Worker} (busy : s.worker ≠ .idle)
    (bytes : k.bytes = s.worker.bytes) (live : k.live = s.worker.live)
    (markers : k.markers = s.worker.markers)
    (put : ∀ bytes isLast, k = .putChunk bytes isLast → bytes ≠ [])
    (serves : ∀ p, k ≠ .close p) :
    Intact { s with worker := k } h := by
  have unmarked := countP_marker (intact.unmarked busy).2
  refine intact.works s.channel.queue busy ?_ ?_ ?_ ?_ put serves intact.queued
  · simp only [State.unread, bytes]
  · simp only [State.live, live]
  · rw [unmarked, markers]
    rfl
  · rw [unmarked]
    exact fun some => (Nat.lt_irrefl 0 some).elim

/-- The worker closes nothing before the body is read, and puts what is delivered. -/
theorem Intact.worker (intact : Intact s h) {c : Channel} {k : Worker}
    (moves : workerStep s.channel s.worker = some (c, k)) :
    Intact { s with channel := c, worker := k } h := by
  cases at_ : s.worker with
  | idle =>
      rw [at_] at moves
      cases moves
  | close p => exact (intact.serves p at_).elim
  | check chunk isLast =>
      have busy : s.worker ≠ .idle := by simp [at_]
      simp only [at_, workerStep, (intact.unmarked busy).1, Option.some.injEq,
        Prod.mk.injEq] at moves
      obtain ⟨rfl, rfl⟩ := moves
      rcases chunk with _ | _ | ⟨b, bytes⟩
      case some.cons =>
          apply intact.passes busy
          · rw [at_]
            rfl
          · rw [at_]
            rfl
          · rw [at_]
            cases isLast <;> rfl
          · rintro bytes isLast same
            obtain ⟨rfl, -⟩ := Worker.putChunk.inj same
            exact List.cons_ne_nil b _
          · rintro p ⟨⟩
      all_goals
          cases isLast
          all_goals
            apply intact.passes busy
            · rw [at_]
              rfl
            · rw [at_]
              rfl
            · rw [at_]
              rfl
            · rintro _ _ ⟨⟩
            · rintro p ⟨⟩
  | putChunk bytes isLast =>
      have busy : s.worker ≠ .idle := by simp [at_]
      obtain ⟨opened, clean⟩ := intact.unmarked busy
      have unmarked := countP_marker clean
      simp only [at_, workerStep, Option.ite_none_right_eq_some, Option.some.injEq,
        Prod.mk.injEq] at moves
      obtain ⟨-, rfl, rfl⟩ := moves
      refine intact.works _ busy ?_ ?_ ?_ ?_ ?_ ?_ ?_
      · cases isLast <;> simp [State.unread, at_, Worker.bytes, Entry.bytes]
      · cases isLast <;> simp [State.live, at_, Worker.live, Channel.chunks, Entry.isChunk] <;> omega
      · rw [List.countP_append, unmarked, at_]
        cases isLast <;> rfl
      · rw [List.countP_append, unmarked]
        exact fun some => (Nat.lt_irrefl 0 some).elim
      · rintro _ _ same
        split at same <;> cases same
      · intro p same
        split at same <;> cases same
      · intro other mem
        rcases List.mem_append.mp mem with earlier | last
        · exact intact.queued other earlier
        · obtain rfl := Entry.chunk.inj (List.mem_singleton.mp last)
          exact intact.put _ isLast at_
  | putEof =>
      have busy : s.worker ≠ .idle := by simp [at_]
      obtain ⟨opened, clean⟩ := intact.unmarked busy
      have unmarked := countP_marker clean
      simp only [at_, workerStep, Option.ite_none_right_eq_some, Option.some.injEq,
        Prod.mk.injEq] at moves
      obtain ⟨-, rfl, rfl⟩ := moves
      refine intact.works _ busy ?_ ?_ ?_ ?_ ?_ ?_ ?_
      · simp [State.unread, at_, Worker.bytes, Entry.bytes]
      · simp [State.live, at_, Worker.live, Channel.chunks, Entry.isChunk]
      · rw [List.countP_append, unmarked, at_]
        rfl
      · exact fun _ => ⟨rfl, s.channel.queue, rfl, clean⟩
      · rintro _ _ ⟨⟩
      · rintro p ⟨⟩
      · intro other mem
        rcases List.mem_append.mp mem with earlier | last
        · exact intact.queued other earlier
        · cases List.mem_singleton.mp last

/-- h2o delivers a chunk, or the end of the body. -/
theorem Intact.delivers (intact : Intact s h) {chunk : Option (List UInt8)} {isLast : Bool}
    (idle : s.worker = .idle) (answered : s.outstanding = false) (unended : s.ended = false) :
    Intact { s with worker := .check chunk isLast, outstanding := true, ended := isLast }
      { h with chunks := if chunk.getD [] = [] then h.chunks else h.chunks ++ [chunk.getD []] } := by
  have one := intact.one
  have marks := intact.marks
  rw [answered] at one
  rw [unended] at marks
  have live : s.live = 0 := by simpa using one
  have none : s.marks = 0 := by
    have : s.worker.markers + s.marks ≤ 0 := by simpa using marks
    omega
  have opened : s.channel.closed = false ∧ s.handler.marks = 0 := by
    simp only [State.marks] at none
    split at none <;> simp_all
  have others : s.channel.chunks = 0 ∧ s.handler.chunks = 0 := by
    simp only [State.live] at live
    omega
  have same : State.marks
      { s with worker := .check chunk isLast, outstanding := true, ended := isLast } = s.marks := rfl
  have live' : (Worker.check chunk isLast).live = if chunk.getD [] = [] then 0 else 1 := by
    rcases chunk with _ | _ | _ <;> rfl
  constructor
  case bytes =>
    have before := intact.bytes
    simp only [State.unread, idle, Worker.bytes, List.append_nil] at before ⊢
    split
    · rename_i empty
      rw [empty, List.append_nil]
      exact before
    · rw [List.flatten_append, before]
      simp
  case count =>
    have before := intact.count
    rw [live] at before
    simp only [State.live, others, live']
    split
    · omega
    · rw [List.length_append, List.length_singleton]
      omega
  case proceeds =>
    have before := intact.proceeds
    have count := intact.count
    dsimp only
    split
    · exact before
    · rw [List.take_append_of_le_length (by omega)]
      exact before
  case one =>
    simp only [State.live, others, live']
    split <;> simp
  case marks =>
    rw [same, none]
    cases isLast <;> simp [Worker.markers]
  case marked =>
    rw [same, none]
    exact fun some => (Nat.lt_irrefl 0 some).elim
  case order => exact intact.order
  case put =>
    rintro _ _ ⟨⟩
  case serves =>
    rintro p ⟨⟩
  case queued => exact intact.queued
  case knows => exact intact.knows
  case taken =>
    rintro (closed | marked)
    · dsimp only at closed
      rw [opened.1] at closed
      contradiction
    · dsimp only at marked
      rw [opened.2] at marked
      contradiction
  case past => exact intact.past
  case ended => exact intact.ended

/-- Nothing delivered is left. -/
theorem Intact.all (intact : Intact s h) (none : s.live = 0) :
    h.read = h.chunks.flatten ∧ h.proceeds = ends h.chunks := by
  have count := intact.count
  simp only [none, Nat.add_zero] at count
  constructor
  · simp only [State.live] at none
    obtain ⟨current, queue⟩ := Channel.bytes_nil (c := s.channel) (by omega)
    have taken : s.handler.bytes = [] := by
      cases at_ : s.handler with
      | store _ entry =>
          cases entry with
          | eof => rfl
          | chunk _ => simp [at_, Handler.chunks] at none
      | _ => rfl
    rw [intact.bytes, State.unread, current, queue, taken, Worker.bytes_nil (by omega)]
    simp
  · rw [intact.proceeds, ← count, List.take_length]

/-- The body has been read and the worker has removed the entry. -/
structure Finished (s : State) (h : Reading) : Prop where
  read : h.read = h.chunks.flatten
  proceeds : h.proceeds = ends h.chunks
  past : ∀ n ∈ h.proceeds, n ≤ h.read.length
  all : s.ended = true
  retired : s.retired = true
  closed : s.channel.closed = true
  outside : s.handler = .idle ∨ ∃ room, s.handler = .readClosed room
  worker : s.worker = .idle ∨ ∃ p, s.worker = .close p
  queue : s.channel.queue = [] ∨
    s.channel.queue = [.eof] ∧ (s.worker = .idle ∨ s.worker = .close .drop)

/-- A read has returned -1. -/
theorem Intact.exhausted (intact : Intact s h) (ended : h.ended = true) :
    s.worker = .idle ∧ s.ended = true ∧ s.channel.queue = [] ∧ s.live = 0 := by
  obtain ⟨closed, _⟩ := intact.ended ended
  have marks : 0 < s.marks := by simp [State.marks, closed]
  obtain ⟨none, queue⟩ := intact.taken (.inl closed)
  refine ⟨intact.marked marks, ?_, queue, none⟩
  have bound := intact.marks
  split at bound
  · assumption
  · omega

theorem Intact.finished (intact : Intact s h) (ended : h.ended = true) :
    Finished { s with worker := .close .set, retired := true } h := by
  obtain ⟨_, all, queue, none⟩ := intact.exhausted ended
  obtain ⟨closed, outside⟩ := intact.ended ended
  obtain ⟨read, proceeds⟩ := intact.all none
  refine ⟨read, proceeds, intact.past, all, rfl, closed, ?_, .inr ⟨_, rfl⟩, .inl queue⟩
  have knows := intact.knows
  cases at_ : s.handler <;> rw [at_] at outside knows
  case idle => exact .inl rfl
  case readClosed room => exact .inr ⟨room, rfl⟩
  case close p => exact knows.elim
  all_goals cases outside

theorem Finished.works (finished : Finished s h) {c : Channel} {k : Worker}
    (moves : workerStep s.channel s.worker = some (c, k)) :
    Finished { s with channel := c, worker := k } h := by
  have queue := finished.queue
  rcases finished.worker with idle | ⟨p, at_⟩
  · rw [idle] at moves
    cases moves
  · rw [at_] at moves queue
    obtain ⟨rfl, rfl⟩ := Prod.mk.inj (Option.some.inj moves)
    refine { finished with closed := closeStep_closed _ p finished.closed, worker := ?_, queue := ?_ }
    · cases p <;> simp
    · cases p with
      | set =>
          exact .inl (by simpa using queue)
      | clear => exact .inl rfl
      | offer =>
          have empty : s.channel.queue = [] := by simpa using queue
          exact .inr ⟨by simp [empty, capacity], .inr rfl⟩
      | drop =>
          rcases queue with empty | ⟨marker, _⟩
          · exact .inl empty
          · exact .inr ⟨marker, .inl rfl⟩

end

/-- A step loses nothing, doubles nothing and reorders nothing. -/
theorem intact_step {a : Action} {s t : State} {h : Reading} (intact : Intact s h ∨ Finished s h)
    (allowed : undisturbed a (s, h)) (moves : step a s = some t) :
    Intact t (noteReading a s h) ∨ Finished t (noteReading a s h) := by
  cases a with
  | deliver chunk isLast =>
      simp only [step, Option.ite_none_right_eq_some, Option.some.injEq] at moves
      obtain ⟨⟨idle, unretired, answered, unended⟩, rfl⟩ := moves
      rcases intact with intact | finished
      · exact .inl (intact.delivers idle answered unended)
      · rw [finished.retired] at unretired
        contradiction
  | worker =>
      obtain ⟨⟨c, k⟩, worked, rfl⟩ := Option.map_eq_some_iff.mp moves
      rcases intact with intact | finished
      · exact .inl (intact.worker worked)
      · exact .inr (finished.works worked)
  | retire =>
      simp only [step, Option.ite_none_right_eq_some, Option.some.injEq] at moves
      obtain ⟨⟨idle, unretired⟩, rfl⟩ := moves
      rcases intact with intact | finished
      · exact .inr (intact.finished allowed)
      · rw [finished.retired] at unretired
        contradiction
  | read room =>
      simp only [step, Option.ite_none_right_eq_some, Option.some.injEq] at moves
      obtain ⟨idle, rfl⟩ := moves
      rcases intact with intact | finished
      · exact .inl (intact.read idle)
      · exact .inr { finished with outside := .inr ⟨room, rfl⟩ }
  | close => exact allowed.elim
  | handler accepted =>
      obtain rfl : accepted = true := allowed
      obtain ⟨⟨c, k⟩, handled, rfl⟩ := Option.map_eq_some_iff.mp moves
      rcases intact with intact | finished
      · exact .inl (intact.handler handled)
      · rcases finished.outside with idle | ⟨room, at_⟩
        · rw [idle] at handled
          cases handled
        · rw [at_] at handled
          obtain ⟨rfl, rfl⟩ := Prod.mk.inj (Option.some.inj handled)
          right
          simp only [noteReading, at_, finished.closed]
          exact { finished with outside := .inl rfl, closed := finished.closed }

end Busker.RequestBody
