import Busker.ResponseQueue.NoLostDrain

/-! Who owns a pooled buffer. A buffer leaves the pool when it is borrowed and then has
one owner after the other: the producer, `current-buffer_`, a chunk on its way to
h2o, and the pool again. The producer works on `current-buffer_` through a reference
of its own, so `on-stop`, which takes the buffer out of it, may return a buffer the
producer still uses. -/

namespace Busker.ResponseQueue

open Interleaving

namespace Producer

/-- The producer's reference to the buffer in `current-buffer_`. -/
def grip : Producer → Option ℕ
  | .writePut b _ | .seal b _ | .closeReturn b | .closeUnset b => some b
  | _ => none

/-- Has returned the buffer that `current-buffer_` still refers to. -/
def returned : Producer → Bool
  | .closeUnset _ => true
  | _ => false

/-- Has seen `current-buffer_` empty and not filled it yet. -/
def borrowing : Producer → Bool
  | .writeBorrow _ | .writeSet _ _ => true
  | _ => false

/-- Buffers only the producer refers to. -/
def own : Producer → List ℕ
  | .writeSet b _ => [b]
  | .put _ c _ => c.bufs
  | _ => []

end Producer

/-- Buffers only the worker refers to. -/
def Worker.own : Worker → List ℕ
  | .drain _ acc | .send acc | .setInFlight acc => chunkBufs acc
  | .account _ acc c | .release _ acc c => chunkBufs (acc ++ [c])
  | .releaseChunks todo => todo
  | .stopReturn b => [b]
  | _ => []

namespace Writer

/-- The buffer in `current-buffer_`, unless the producer has just returned it. -/
def currentBuf (w : Writer) (p : Producer) : List ℕ := bif p.returned then [] else w.current.toList

/-- The buffers in flight, unless the worker is releasing them. -/
def flyingBufs (w : Writer) (k : Worker) : List ℕ :=
  bif k.releasing == 1 then [] else chunkBufs (w.inFlight.getD [])

end Writer

/-- In how many of its possible places a buffer is. -/
def State.owners (s : State) (b : ℕ) : ℕ :=
  s.writer.pool.tally b + (s.writer.currentBuf s.producer).count b + s.producer.own.count b +
    (chunkBufs s.writer.queue.items).count b + s.worker.own.count b +
    (s.writer.flyingBufs s.worker).count b

@[simp] theorem chunkBufs_nil : chunkBufs [] = [] := rfl

@[simp] theorem chunkBufs_cons (c : Chunk) (chunks : List Chunk) :
    chunkBufs (c :: chunks) = c.bufs ++ chunkBufs chunks := by
  simp [chunkBufs]

@[simp] theorem chunkBufs_append (first rest : List Chunk) :
    chunkBufs (first ++ rest) = chunkBufs first ++ chunkBufs rest := by
  simp [chunkBufs]

/-- The places a producer step moves buffers between. -/
def Writer.producerPlaces (w : Writer) (p : Producer) (b : ℕ) : ℕ :=
  w.pool.tally b + (w.currentBuf p).count b + p.own.count b + (chunkBufs w.queue.items).count b +
    w.spilled.count b

/-- What a producer step does to the owners, where its reference is to the current buffer. -/
structure ProducerOwn (w v : Writer) (p q : Producer) : Prop where
  inFlight : v.inFlight = w.inFlight
  places : ∀ b, v.producerPlaces q b + w.pool.made b = w.producerPlaces p b + v.pool.made b
  grip : ∀ b, q.grip = some b → v.current = some b
  borrowing : q.borrowing = true → v.current = none
  spilled : (∀ point c sender, p ≠ .put point c sender) → v.spilled = w.spilled

theorem ProducerOwn.quiet {w v : Writer} {p q : Producer} (inFlight : v.inFlight = w.inFlight)
    (pool : ∀ b, v.pool.tally b = w.pool.tally b) (made : ∀ b, v.pool.made b = w.pool.made b)
    (current : v.current = w.current) (items : v.queue.items = w.queue.items)
    (spilled : v.spilled = w.spilled) (returned : q.returned = p.returned) (own : q.own = p.own)
    (grip : ∀ b, q.grip = some b → v.current = some b) (borrowing : q.borrowing = true → v.current = none) :
    ProducerOwn w v p q where
  inFlight := inFlight
  places b := by
    simp only [Writer.producerPlaces, Writer.currentBuf, pool, made, current, items, spilled, returned, own]
  grip := grip
  borrowing := borrowing
  spilled := fun _ => spilled

theorem scheduleStep_own {w v : Writer} {sender : Sender} {point : Schedule} {move : ProducerMove}
    {q : Producer} (h : scheduleStep w sender point move = some (v, q)) :
    ProducerOwn w v (.schedule point sender) q := by
  cases point <;> cases move <;>
    simp only [scheduleStep, reduceCtorEq, Option.some.injEq, Prod.mk.injEq] at h
  case activate.tick | signal.tick | post.reply =>
    split at h <;> obtain ⟨rfl, rfl⟩ := Prod.mk.inj (Option.some.inj h) <;> cases sender <;>
      exact .quiet rfl (fun _ => rfl) (fun _ => rfl) rfl rfl rfl rfl rfl (by simp [Producer.grip, Sender.resume])
        (by simp [Producer.borrowing, Sender.resume])
  case track.tick inner =>
    rcases step : trackStep w inner with ⟨u, next⟩
    rw [step] at h
    obtain ⟨tracked, rfl⟩ := trackStep_frame step
    obtain ⟨rfl, rfl⟩ := h
    cases next <;>
      exact .quiet rfl (fun _ => rfl) (fun _ => rfl) rfl rfl rfl rfl rfl (by simp [Producer.grip])
        (by simp [Producer.borrowing])
  all_goals
    obtain ⟨rfl, rfl⟩ := h
    cases sender <;>
      exact .quiet rfl (fun _ => rfl) (fun _ => rfl) rfl rfl rfl rfl rfl
        (by simp [Producer.grip, Sender.resume]) (by simp [Producer.borrowing, Sender.resume])

theorem queued_own (sender : Sender) :
    sender.queued.own = [] ∧ sender.queued.returned = false ∧ sender.queued.grip = none ∧
      sender.queued.borrowing = false := by
  cases sender <;> exact ⟨rfl, rfl, rfl, rfl⟩

theorem putStep_own {cfg : Config} {w v : Writer} {c : Chunk} {sender : Sender} {point : Put}
    {move : ProducerMove} {q : Producer} (h : producerStep cfg w (.put point c sender) move = some (v, q)) :
    ProducerOwn w v (.put point c sender) q := by
  obtain ⟨⟨r, result⟩, put, h⟩ := Option.map_eq_some_iff.mp h
  obtain ⟨⟨same, waits⟩ | ⟨items, rfl, rfl⟩, -⟩ := putMove_post put
  · cases result with
    | next point' =>
      obtain ⟨rfl, rfl⟩ := Prod.mk.inj h
      exact .quiet rfl (fun _ => rfl) (fun _ => rfl) rfl same rfl rfl rfl (by simp [Producer.grip])
        (by simp [Producer.borrowing])
    | queued => contradiction
    | thrown =>
      obtain ⟨rfl, rfl⟩ := Prod.mk.inj h
      refine ⟨rfl, fun b => ?_, by simp [Producer.grip], by simp [Producer.borrowing],
        fun not => absurd rfl (not _ _ _)⟩
      simp only [Writer.producerPlaces, Writer.currentBuf, Writer.throw, Producer.own, Producer.returned, same, cond_false,
        List.count_append, List.count_nil]
      omega
  · obtain ⟨rfl, rfl⟩ := Prod.mk.inj h
    obtain ⟨own, returned, grip, borrowing⟩ := queued_own sender
    refine ⟨rfl, fun b => ?_, by simp [grip], by simp [borrowing], fun _ => rfl⟩
    simp only [Writer.producerPlaces, Writer.currentBuf, own, returned, items, chunkBufs_append,
      chunkBufs_cons, chunkBufs_nil, List.append_nil, List.count_append, List.count_nil]
    simp only [Producer.own, Producer.returned, cond_false]
    omega

theorem producerStep_own {cfg : Config} {w v : Writer} {p q : Producer} {move : ProducerMove}
    (grip : ∀ b, p.grip = some b → w.current = some b) (borrowing : p.borrowing = true → w.current = none)
    (inStream : offered outStream move = true) (h : producerStep cfg w p move = some (v, q)) :
    ProducerOwn w v p q := by
  cases p
  case put point c sender => exact putStep_own h
  case schedule point sender => exact scheduleStep_own h
  all_goals
    cases move <;> simp only [producerStep, reduceCtorEq, Option.some.injEq, Prod.mk.injEq] at h
  case idle.call c =>
    cases c <;> obtain ⟨rfl, rfl⟩ := Prod.mk.inj (Option.some.inj h)
    case chunk => contradiction
    all_goals
      exact .quiet rfl (fun _ => rfl) (fun _ => rfl) rfl rfl rfl rfl rfl (by simp [Producer.grip])
        (by simp [Producer.borrowing])
  case writeBorrow.borrow rest source =>
    obtain ⟨⟨b, pool⟩, borrowed, h⟩ := Option.map_eq_some_iff.mp h
    obtain ⟨rfl, rfl⟩ := Prod.mk.inj h
    refine ⟨rfl, fun x => ?_, by simp [Producer.grip], fun _ => borrowing rfl, fun _ => rfl⟩
    have := Pool.borrow_tally (b := x) borrowed
    simp only [Writer.producerPlaces, Writer.currentBuf, Producer.own, Producer.returned, cond_false,
      List.count_nil]
    omega
  case writeSet.tick b rest =>
    obtain ⟨rfl, rfl⟩ := h
    refine ⟨rfl, fun x => ?_, by simp [Producer.grip], by simp [Producer.borrowing], fun _ => rfl⟩
    simp only [Writer.producerPlaces, Writer.currentBuf, Producer.own, Producer.returned, borrowing rfl,
      Pool.tally_update, Pool.made_update, cond_false, Option.toList_some,
      Option.toList_none, List.count_nil]
    omega
  case seal.tick b sender =>
    obtain ⟨rfl, rfl⟩ := h
    refine ⟨rfl, fun x => ?_, by simp [Producer.grip], by simp [Producer.borrowing], fun _ => rfl⟩
    simp only [Writer.producerPlaces, Writer.currentBuf, Producer.own, Producer.returned, grip b rfl,
      Pool.tally_update, Pool.made_update, cond_false, Option.toList_some,
      Option.toList_none, List.count_nil, sealChunk]
    omega
  case closeReturn.giveBack b keep =>
    obtain ⟨rfl, rfl⟩ := h
    refine ⟨rfl, fun x => ?_, grip, by simp [Producer.borrowing], fun _ => rfl⟩
    simp only [Writer.producerPlaces, Writer.currentBuf, Producer.own, Producer.returned, grip b rfl,
      Pool.tally_giveBack, Pool.made_giveBack, cond_false, cond_true, Option.toList_some,
      List.count_nil]
  case closeUnset.tick b =>
    obtain ⟨rfl, rfl⟩ := h
    exact ⟨rfl, fun x => rfl, by simp [Producer.grip], by simp [Producer.borrowing], fun _ => rfl⟩
  case writeCurrent.tick rest =>
    obtain ⟨rfl, rfl⟩ := h
    refine .quiet rfl (fun _ => rfl) (fun _ => rfl) rfl rfl rfl ?_ ?_ ?_ ?_ <;> split <;>
      cases current : w.current <;>
      simp_all [Producer.returned, Producer.own, Producer.grip, Producer.borrowing]
  case closeStopped.tick =>
    obtain ⟨rfl, rfl⟩ := h
    refine .quiet rfl (fun _ => rfl) (fun _ => rfl) rfl rfl rfl ?_ ?_ ?_ ?_ <;> split <;>
      cases current : w.current <;>
      simp_all [Producer.returned, Producer.own, Producer.grip, Producer.borrowing]
  case flushCurrent.tick | closeCurrent.tick =>
    obtain ⟨rfl, rfl⟩ := h
    cases current : w.current with
    | none =>
      exact .quiet rfl (fun _ => rfl) (fun _ => rfl) rfl rfl rfl rfl rfl (by simp [Producer.grip])
        (by simp [Producer.borrowing])
    | some b =>
      dsimp only
      split_ifs <;>
        exact .quiet rfl (fun _ => rfl) (fun _ => rfl) rfl rfl rfl rfl rfl
          (by simp [Producer.grip, current]) (by simp [Producer.borrowing])
  case writePut.tick b rest =>
    obtain ⟨rfl, rfl⟩ := h
    have current := grip b rfl
    split_ifs <;>
      exact .quiet rfl (fun _ => rfl) (fun _ => rfl) rfl rfl rfl rfl rfl
        (by simp [Producer.grip, current]) (by simp [Producer.borrowing])
  case writeClosing.tick | closeClosing.tick =>
    split at h <;> obtain ⟨rfl, rfl⟩ := Prod.mk.inj (Option.some.inj h) <;>
      exact .quiet rfl (fun _ => rfl) (fun _ => rfl) rfl rfl rfl rfl rfl (by simp [Producer.grip])
        (by simp [Producer.borrowing])
  all_goals
    obtain ⟨rfl, rfl⟩ := h
    refine .quiet rfl (fun _ => rfl) (fun _ => rfl) rfl rfl rfl ?_ ?_ ?_ ?_ <;> (repeat' split) <;>
      simp [Producer.returned, Producer.own, Producer.grip, Producer.borrowing]

/-- The places a worker step moves buffers between. -/
def Writer.workerPlaces (w : Writer) (p : Producer) (k : Worker) (b : ℕ) : ℕ :=
  w.pool.tally b + (w.currentBuf p).count b + (chunkBufs w.queue.items).count b + k.own.count b +
    (w.flyingBufs k).count b

/-- What a worker step does to the owners, where it does not take a buffer the producer
refers to. -/
structure WorkerOwn (w v : Writer) (p : Producer) (k l : Worker) : Prop where
  spilled : v.spilled = w.spilled
  made : ∀ b, v.pool.made b = w.pool.made b
  places : ∀ b, v.workerPlaces p l b = w.workerPlaces p k b
  current : v.current = w.current ∨ p.grip = none ∧ v.current = none

theorem WorkerOwn.quiet {w v : Writer} {p : Producer} {k l : Worker} (pool : v.pool = w.pool)
    (current : v.current = w.current) (items : v.queue.items = w.queue.items)
    (spilled : v.spilled = w.spilled) (own : l.own = k.own)
    (flying : v.flyingBufs l = w.flyingBufs k) : WorkerOwn w v p k l where
  spilled := spilled
  made b := by rw [pool]
  places b := by simp only [Writer.workerPlaces, Writer.currentBuf, pool, current, items, own, flying]
  current := .inl current

theorem Producer.returned_grip {p : Producer} (h : p.grip = none) : p.returned = false := by
  cases p <;> simp_all [Producer.grip, Producer.returned]

theorem package_own {w : Writer} {p : Producer} (rem : ℕ) (acc : List Chunk) :
    WorkerOwn w w p (.drain rem acc) (package acc) := by
  unfold package
  split
  · rename_i empty
    obtain rfl := List.isEmpty_iff.mp empty
    exact .quiet rfl rfl rfl rfl rfl rfl
  · exact .quiet rfl rfl rfl rfl rfl rfl

theorem workerStep_own {cfg : Config} {w v : Writer} {p : Producer} {k l : Worker} {move : WorkerMove}
    (free : k = .stopTake → p.grip = none) (grounded : k.inLoop = true → w.inFlight = none)
    (fits : ∀ rem acc c, k = .release rem acc c → w.queue.permits + c.bytes < 2 ^ 31)
    (h : workerStep cfg w k move = some (v, l)) : WorkerOwn w v p k l := by
  cases k <;> cases move <;>
    simp only [workerStep, reduceCtorEq, Option.some.injEq, Prod.mk.injEq] at h
  case drain.tick rem acc =>
    split at h
    · rename_i c items queued
      split at h <;> obtain ⟨rfl, rfl⟩ := Prod.mk.inj (Option.some.inj h)
      · refine ⟨rfl, fun _ => rfl, fun b => ?_, .inl rfl⟩
        split_ifs <;>
          simp only [Writer.workerPlaces, Writer.currentBuf, Writer.flyingBufs, Worker.own, Worker.releasing,
            queued, chunkBufs_cons, chunkBufs_append, chunkBufs_nil, List.append_nil, List.count_append] <;>
          omega
      · exact package_own rem acc
    · obtain ⟨rfl, rfl⟩ := Prod.mk.inj (Option.some.inj h)
      exact package_own rem acc
  case release.tick rem acc c =>
    rw [Queue.release, if_pos (fits rem acc c rfl)] at h
    obtain ⟨rfl, rfl⟩ := Prod.mk.inj (Option.some.inj h)
    exact .quiet rfl rfl rfl rfl rfl rfl
  case send.tick acc =>
    obtain ⟨rfl, rfl⟩ := h
    exact ⟨rfl, fun _ => rfl, fun b => rfl, .inl rfl⟩
  case setInFlight.tick acc =>
    obtain ⟨rfl, rfl⟩ := h
    refine ⟨rfl, fun _ => rfl, fun b => ?_, .inl rfl⟩
    simp [Writer.workerPlaces, Writer.currentBuf, Writer.flyingBufs, Worker.own, Worker.releasing,
      grounded rfl, chunkBufs]
  case idle.proceed =>
    split at h <;> simp only [reduceCtorEq, Option.some.injEq, Prod.mk.injEq] at h
    obtain ⟨rfl, rfl⟩ := h
    refine ⟨rfl, fun _ => rfl, fun b => ?_, .inl rfl⟩
    simp [Writer.workerPlaces, Writer.currentBuf, Writer.flyingBufs, Worker.own, Worker.releasing]
  case releaseChunks.giveBack todo keep =>
    split at h <;> simp only [reduceCtorEq, Option.some.injEq, Prod.mk.injEq] at h
    obtain ⟨rfl, rfl⟩ := h
    refine ⟨rfl, fun _ => Pool.made_giveBack keep, fun b => ?_, .inl rfl⟩
    simp only [Writer.workerPlaces, Writer.currentBuf, Writer.flyingBufs, Worker.own, Worker.releasing,
      Pool.tally_giveBack, List.count_cons, List.count_nil]
    omega
  case releaseChunks.tick todo =>
    split at h <;> simp only [reduceCtorEq, Option.some.injEq, Prod.mk.injEq] at h
    rename_i empty
    obtain ⟨rfl, rfl⟩ := h
    exact .quiet rfl rfl rfl rfl (List.isEmpty_iff.mp empty).symm rfl
  case stopTake.tick =>
    obtain ⟨rfl, rfl⟩ := h
    have grip := free rfl
    refine ⟨rfl, fun _ => rfl, fun b => ?_, .inr ⟨grip, rfl⟩⟩
    cases current : w.current <;>
      simp [Writer.workerPlaces, Writer.currentBuf, Writer.flyingBufs, Worker.own, Worker.releasing,
        Producer.returned_grip grip, current]
    omega
  case stopReturn.giveBack b keep =>
    obtain ⟨rfl, rfl⟩ := h
    refine ⟨rfl, fun _ => Pool.made_giveBack keep, fun x => ?_, .inl rfl⟩
    simp only [Writer.workerPlaces, Writer.currentBuf, Writer.flyingBufs, Worker.own, Worker.releasing,
      Pool.tally_giveBack, List.count_nil]
    omega
  case stopClose.tick | idle.command | retireSwap.tick =>
    split at h <;> simp only [reduceCtorEq, Option.some.injEq, Prod.mk.injEq] at h <;>
      obtain ⟨rfl, rfl⟩ := h <;> exact .quiet rfl rfl rfl rfl rfl rfl
  case stopRelease.tick =>
    unfold Queue.release at h
    split_ifs at h <;> obtain ⟨rfl, rfl⟩ := h <;> exact .quiet rfl rfl rfl rfl rfl rfl
  case retire.tick point =>
    obtain ⟨⟨tracked, rfl⟩, rfl | ⟨next, rfl⟩⟩ := retireStep_frame h <;>
      exact .quiet rfl rfl rfl rfl rfl rfl
  all_goals
    obtain ⟨rfl, rfl⟩ := h
    refine .quiet rfl rfl rfl rfl ?_ ?_ <;> (repeat' split) <;> rfl

/-- `on-stop` takes the current buffer while the producer refers to it. -/
def takesGripped : Action → State → Bool
  | .worker .tick, s => (match s.worker with | .stopTake => true | _ => false) && s.producer.grip.isSome
  | _, _ => false

/-- `put` is about to throw over a chunk that holds buffers. -/
def spills (cfg : Config) : Action → State → Bool
  | .producer .tick, s =>
    match s.producer with
    | .put .ensureOpen c _ =>
      (s.writer.queue.closed || decide (cfg.capacity < c.bytes)) && !c.bufs.isEmpty
    | .put .recheck c _ => s.writer.queue.closed && !c.bufs.isEmpty
    | _ => false
  | .producer .interrupt, s =>
    match s.producer with
    | .put .acquire c _ => !c.bufs.isEmpty
    | _ => false
  | _, _ => false

/-- Every buffer is in one place or has been lost with a chunk that was not put. -/
structure Accounted (s : State) : Prop where
  owners : ∀ b, s.owners b + s.writer.spilled.count b = s.writer.pool.made b
  grip : ∀ b, s.producer.grip = some b → s.writer.current = some b
  borrowing : s.producer.borrowing = true → s.writer.current = none

theorem Accounted.producer {s : State} {w : Writer} {p : Producer} (h : Accounted s)
    (spec : ProducerOwn s.writer w s.producer p) : Accounted { s with writer := w, producer := p } where
  owners b := by
    have := h.owners b
    have := spec.places b
    have flying : w.flyingBufs s.worker = s.writer.flyingBufs s.worker := by
      rw [Writer.flyingBufs, spec.inFlight]
      rfl
    simp only [State.owners, Writer.producerPlaces, flying] at *
    omega
  grip := spec.grip
  borrowing := spec.borrowing

theorem Accounted.worker {s : State} {w : Writer} {k : Worker} (h : Accounted s)
    (spec : WorkerOwn s.writer w s.producer s.worker k) : Accounted { s with writer := w, worker := k } where
  owners b := by
    have := h.owners b
    have := spec.places b
    have := spec.made b
    simp only [State.owners, Writer.workerPlaces, spec.spilled] at *
    omega
  grip b holds := by
    rcases spec.current with same | ⟨free, -⟩
    · exact same.trans (h.grip b holds)
    · exact absurd (free.symm.trans holds) (by simp)
  borrowing on := by
    rcases spec.current with same | ⟨-, none⟩
    · exact same.trans (h.borrowing on)
    · exact none

variable {cfg : Config} {s t : State} {a : Action}

theorem free_of_untaken {move : WorkerMove} {w : Writer} {k : Worker}
    (untaken : takesGripped (.worker move) s = false)
    (moved : workerStep cfg s.writer s.worker move = some (w, k)) (at_ : s.worker = .stopTake) :
    s.producer.grip = none := by
  have tick : move = .tick := by
    rw [at_] at moved
    cases move <;> simp_all [workerStep]
  simpa [takesGripped, tick, at_] using untaken

theorem Accounted.step (h : Accounted s) (budget : Budgeted cfg s) (held : Held cfg s)
    (untaken : takesGripped a s = false) (moves : step cfg outStream a s = some t) : Accounted t := by
  rcases step_cases moves with ⟨move, w, p, -, inStream, moved, rfl⟩ | ⟨move, w, k, rfl, moved, rfl⟩ |
    ⟨move, pool, -, moved, rfl⟩
  · exact h.producer (producerStep_own h.grip h.borrowing inStream moved)
  · exact h.worker (workerStep_own (free_of_untaken untaken moved) held.grounded budget.fits_release moved)
  · refine ⟨fun b => ?_, h.grip, h.borrowing⟩
    have := h.owners b
    have := otherStep_tally (b := b) moved
    simp only [State.owners, Writer.currentBuf, Writer.flyingBufs] at *
    omega

def untaken (a : Action) (s : State) : Prop := takesGripped a s = false

theorem accounted_of_untaken (h : (machine cfg outStream).ReachableVia untaken s) : Accounted s := by
  refine h.invariant_of (I := Accounted) (J := fun s => Budgeted cfg s ∧ Held cfg s)
    (fun _ reached => ⟨budgeted_of_reachable reached.reachable, held_of_reachable reached.reachable⟩) ?_
    fun a s t known hs allowed moves => hs.step known.1 known.2 allowed moves
  rintro _ ⟨pool, sound, rfl⟩
  refine ⟨fun b => ?_, by simp [freshState, Producer.grip], by simp [freshState, Producer.borrowing]⟩
  simpa [State.owners, freshState, Writer.currentBuf, Writer.flyingBufs, Producer.own, Worker.own,
    Queue.fresh] using sound b

/-- No buffer has been lost with a chunk that could not be put. -/
structure Unspilled (s : State) : Prop where
  spilled : s.writer.spilled = []
  releasing : ∀ c sender, s.producer = .put .release c sender → c.bufs = []

/-- Where `put` starts to fail. -/
theorem putStep_fails {q r : Queue} {c : Chunk} {point : Put} {result : PutResult}
    (h : putStep cfg q c point = some (r, result)) (fails : result = .thrown ∨ result = .next .release) :
    point = .release ∨ point = .ensureOpen ∧ (q.closed || decide (cfg.capacity < c.bytes)) = true ∨
      point = .recheck ∧ q.closed = true := by
  cases point <;> simp only [putStep, Option.some.injEq, Prod.mk.injEq] at h
  case release => exact .inl rfl
  case ensureOpen =>
    obtain ⟨rfl, rfl⟩ := h
    refine .inr (.inl ⟨rfl, ?_⟩)
    by_contra fine
    rw [if_neg fine] at fails
    split_ifs at fails <;> simp at fails
  case recheck =>
    obtain ⟨rfl, rfl⟩ := h
    refine .inr (.inr ⟨rfl, ?_⟩)
    by_contra fine
    rw [if_neg fine] at fails
    split_ifs at fails <;> simp at fails
  case acquire =>
    split at h
    · obtain ⟨rfl, rfl⟩ := Prod.mk.inj (Option.some.inj h)
      simp at fails
    · contradiction
  case account | enqueue => obtain ⟨rfl, rfl⟩ := h; simp at fails

/-- A step that loses no chunk with buffers in it loses no buffers. -/
theorem producerStep_unspilled {w v : Writer} {p q : Producer} {k : Worker} {move : ProducerMove}
    (own : ProducerOwn w v p q) (budget : ProducerBudget w v p q)
    (releasing : ∀ c sender, p = .put .release c sender → c.bufs = [])
    (kept : spills cfg (.producer move) ⟨w, p, k⟩ = false)
    (h : producerStep cfg w p move = some (v, q)) :
    v.spilled = w.spilled ∧ ∀ c sender, q = .put .release c sender → c.bufs = [] := by
  by_cases putting : ∃ point c sender, p = .put point c sender
  · obtain ⟨point, c, sender, rfl⟩ := putting
    obtain ⟨⟨r, result⟩, put, h⟩ := Option.map_eq_some_iff.mp h
    have empty (fails : result = .thrown ∨ result = .next .release) : c.bufs = [] := by
      obtain ⟨rfl, put⟩ | ⟨rfl, rfl, -⟩ := putMove_cases put
      · rcases putStep_fails put fails with rfl | ⟨rfl, fails⟩ | ⟨rfl, fails⟩
        · exact releasing c sender rfl
        · simpa [spills, fails] using kept
        · simpa [spills, fails] using kept
      · simpa [spills] using kept
    cases result with
    | next point' =>
      obtain ⟨rfl, rfl⟩ := Prod.mk.inj h
      refine ⟨rfl, ?_⟩
      rintro d sender' same
      obtain ⟨rfl, rfl, -⟩ := Producer.put.inj same
      exact empty (.inr rfl)
    | queued =>
      obtain ⟨rfl, rfl⟩ := Prod.mk.inj h
      exact ⟨rfl, by cases sender <;> simp [Sender.queued]⟩
    | thrown =>
      obtain ⟨rfl, rfl⟩ := Prod.mk.inj h
      exact ⟨by simp [Writer.throw, empty (.inl rfl)], by simp⟩
  · refine ⟨own.spilled fun point c sender same => putting ⟨point, c, sender, same⟩, ?_⟩
    rintro c sender rfl
    exact absurd (budget.entering rfl) putting

/-- `on-stop` takes no buffer the producer refers to, and no `put` of a chunk with
buffers fails. -/
def tidy (cfg : Config) (a : Action) (s : State) : Prop :=
  takesGripped a s = false ∧ spills cfg a s = false

instance (cfg : Config) (a : Action) (s : State) : Decidable (tidy cfg a s) :=
  inferInstanceAs (Decidable (_ ∧ _))

theorem accounted_of_tidy (h : (machine cfg outStream).ReachableVia (tidy cfg) s) : Accounted s :=
  accounted_of_untaken (h.mono fun _ _ allowed => allowed.1)

theorem unspilled_of_tidy (h : (machine cfg outStream).ReachableVia (tidy cfg) s) : Unspilled s := by
  refine h.invariant_of (I := Unspilled) (J := fun s => Accounted s ∧ Budgeted cfg s ∧ Held cfg s)
    (fun _ reached => ⟨accounted_of_tidy reached, budgeted_of_reachable reached.reachable,
      held_of_reachable reached.reachable⟩) ?_ ?_
  · rintro _ ⟨pool, -, rfl⟩
    exact ⟨rfl, by simp [freshState]⟩
  · rintro a s t ⟨owned, budget, held⟩ hs ⟨untaken, kept⟩ moves
    rcases step_cases moves with ⟨move, w, p, rfl, inStream, moved, rfl⟩ |
      ⟨move, w, k, rfl, moved, rfl⟩ | ⟨move, pool, -, -, rfl⟩
    · obtain ⟨spilled, releasing⟩ := producerStep_unspilled
        (producerStep_own owned.grip owned.borrowing inStream moved) (producerStep_budget moved)
        hs.releasing kept moved
      exact ⟨spilled.trans hs.spilled, releasing⟩
    · have own := workerStep_own (free_of_untaken untaken moved) held.grounded budget.fits_release moved
      exact ⟨own.spilled.trans hs.spilled, hs.releasing⟩
    · exact ⟨hs.spilled, hs.releasing⟩

/-- The buffers the writer has borrowed and not yet returned. -/
def State.borrowed (s : State) : List ℕ :=
  s.writer.currentBuf s.producer ++ s.producer.own ++ chunkBufs s.writer.queue.items ++ s.worker.own ++
    s.writer.flyingBufs s.worker

/-- Every buffer has one owner, and the producer works on no other buffer than its
own and the current one. So no buffer is in the pool twice, and none that the producer
may still fill or h2o still has to read is in the pool or with another request. -/
structure SingleOwner (s : State) : Prop where
  one : ∀ b < s.writer.pool.next, s.owners b = 1
  grip : ∀ b, s.producer.grip = some b → s.writer.current = some b
  pooledOnce : s.writer.pool.free.Nodup
  apart : ∀ b ∈ s.borrowed, b ∉ s.writer.pool.free ∧ b ∉ s.writer.pool.others

theorem State.owners_borrowed (s : State) (b : ℕ) :
    s.owners b = s.writer.pool.tally b + s.borrowed.count b := by
  simp only [State.owners, State.borrowed, List.count_append]
  omega

/-- At most one owner is what remains when chunks may be lost. -/
theorem Accounted.owners_le (h : Accounted s) (b : ℕ) :
    s.writer.pool.tally b + s.borrowed.count b ≤ 1 := by
  have := h.owners b
  rw [s.owners_borrowed] at this
  have : s.writer.pool.made b ≤ 1 := by unfold Pool.made; split <;> omega
  omega

theorem Accounted.pooledOnce (h : Accounted s) : s.writer.pool.free.Nodup :=
  List.nodup_iff_count.mpr fun b => by
    have := h.owners_le b
    unfold Pool.tally at this
    omega

theorem Accounted.apart (h : Accounted s) (b : ℕ) (hb : b ∈ s.borrowed) :
    b ∉ s.writer.pool.free ∧ b ∉ s.writer.pool.others := by
  have := h.owners_le b
  have := List.count_pos_iff.mpr hb
  unfold Pool.tally at *
  exact ⟨fun free => by have := List.count_pos_iff.mpr free; omega,
    fun other => by have := List.count_pos_iff.mpr other; omega⟩

/-- As long as `on-stop` takes no buffer from under the producer, none is returned
twice and none in use is in the pool, also when a `put` fails. -/
theorem returnedOnce_of_untaken (h : (machine cfg outStream).ReachableVia untaken s) :
    s.writer.pool.free.Nodup ∧
      ∀ b ∈ s.borrowed, b ∉ s.writer.pool.free ∧ b ∉ s.writer.pool.others :=
  have accounted := accounted_of_untaken h
  ⟨accounted.pooledOnce, accounted.apart⟩

theorem singleOwner_of_tidy (h : (machine cfg outStream).ReachableVia (tidy cfg) s) : SingleOwner s where
  one b allocated := by
    have := (accounted_of_tidy h).owners b
    rw [(unspilled_of_tidy h).spilled] at this
    simpa [Pool.made, allocated] using this
  grip := (accounted_of_tidy h).grip
  pooledOnce := (accounted_of_tidy h).pooledOnce
  apart := (accounted_of_tidy h).apart

/-- Write one byte, which leaves the buffer the current one. -/
def writeOne : List Action := List.flatten [
  [.producer (.call (.write [7]))], List.replicate 3 (.producer .tick),
  [.producer (.borrow (.fresh 8))], List.replicate 3 (.producer .tick)]

/-- The client stops the request and the handler closes its stream. `on-stop` takes the
buffer between the `get` and the `set` of `close`, so both return it, and two other
requests then borrow it. -/
def stopWhileClosing : List Action := List.flatten [
  writeOne, [.worker .stop], List.replicate 4 (.worker .tick),
  [.producer (.call .close), .producer .tick, .producer (.giveBack true)],
  [.worker .tick, .worker (.giveBack true)],
  List.replicate 2 (.other (.borrow 8 (.pooled 0)))]

theorem doubleReturn :
    ∃ s, (machine smallQueue outStream).Reachable s ∧ s.writer.pool.others = [0, 0] ∧ ¬SingleOwner s := by
  refine ⟨_, (Machine.Reachable.init (m := machine smallQueue outStream)
    ⟨emptyPool, emptyPool_sound, rfl⟩).runFrom stopWhileClosing, by decide +kernel, fun single => ?_⟩
  exact absurd (single.one 0 (by decide +kernel)) (by decide +kernel)

/-- The same stop with the handler's `close` behind it. -/
def stopThenClose : List Action := List.flatten [
  writeOne, [.worker .stop], List.replicate 5 (.worker .tick), [.worker (.giveBack true)],
  [.producer (.call .close)], List.replicate 2 (.producer .tick)]

theorem singleOwner_stopThenClose :
    SingleOwner ((machine smallQueue outStream).runFromVia (tidy smallQueue) stopThenClose
      (freshState smallQueue emptyPool)) :=
  singleOwner_of_tidy ((Machine.ReachableVia.init (m := machine smallQueue outStream)
    ⟨emptyPool, emptyPool_sound, rfl⟩).runFromVia _)

end Busker.ResponseQueue
