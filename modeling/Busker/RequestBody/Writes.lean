import Busker.RequestBody.Channel
import Mathlib.Algebra.Order.Ring.Nat

/-! Whether `write-chunk` waits. A delivery finds the queue empty, and its two entries
fit; the marker that `close` offers takes the room of the second. -/

namespace Busker.RequestBody

open Interleaving

def Entry.isChunk : Entry → Bool
  | .chunk _ => true
  | .eof => false

/-- A put of `write-chunk` waits for room in the queue. -/
def State.blocked (s : State) : Prop :=
  ((∃ bytes isLast, s.worker = .putChunk bytes isLast) ∨ s.worker = .putEof) ∧
    s.channel.queue.length = capacity

/-- The chunk of a last delivery is not put yet, or it is still queued while the marker is
to be put. -/
def State.half (s : State) : Bool :=
  match s.worker with
  | .putChunk _ isLast => isLast
  | .putEof => !s.channel.queue.isEmpty
  | _ => false

/-- The handler's `close` does not offer its marker into half a delivery. -/
def undivided : Action → State → Prop
  | .handler _, s => s.handler = .close .offer → s.half = false
  | _, _ => True

instance (a : Action) (s : State) : Decidable (undivided a s) :=
  match a with
  | .handler _ => inferInstanceAs (Decidable (s.handler = .close .offer → s.half = false))
  | .deliver _ _ | .worker | .retire | .read _ | .close => .isTrue trivial

/-- A chunk the worker has, up to its put. -/
def Worker.chunks : Worker → ℕ
  | .check _ _ | .putChunk _ _ => 1
  | _ => 0

/-- A chunk the handler has taken, or the request to proceed after one. -/
def Handler.chunks : Handler → ℕ
  | .store _ (.chunk _) | .proceed => 1
  | _ => 0

/-- A buffer with something left to read. -/
def loaded : Option (List UInt8) → ℕ
  | some (_ :: _) => 1
  | _ => 0

theorem loaded_le_one (buf : Option (List UInt8)) : loaded buf ≤ 1 := by
  unfold loaded
  split <;> decide

def Channel.chunks (c : Channel) : ℕ := c.queue.countP (·.isChunk) + loaded c.currentBuf

/-- The marker of a last delivery the worker has, up to its put. -/
def Worker.markers : Worker → ℕ
  | .check _ true | .putChunk _ true | .putEof => 1
  | _ => 0

def Channel.markers (c : Channel) : ℕ := c.queue.countP (! ·.isChunk)

/-- Past the first step of `close`. -/
def Handler.closing : Handler → Bool
  | .close .clear | .close .offer | .close .drop => true
  | _ => false

def Worker.closing : Worker → Bool
  | .close .clear | .close .offer | .close .drop => true
  | _ => false

/-- One chunk at a time, and room for what the worker is going to put. -/
structure Roomy (s : State) : Prop where
  chunks : s.worker.chunks + s.channel.chunks + s.handler.chunks ≤ if s.outstanding then 1 else 0
  markers : s.channel.closed = false →
    s.worker.markers + s.channel.markers ≤ if s.ended then 1 else 0
  closing : s.handler.closing = true ∨ s.worker.closing = true → s.channel.closed = true
  last : ∀ bytes, s.worker = .putChunk bytes true → s.channel.markers = 0
  more : ∀ bytes, s.worker = .putChunk bytes false → s.channel.markers ≤ 1
  offer : ∀ bytes isLast, s.worker = .putChunk bytes isLast → s.handler = .close .offer → s.channel.queue = []
  eof : s.worker = .putEof → s.channel.queue.length ≤ 1

theorem Channel.length_queue (c : Channel) : c.queue.length = c.queue.countP (·.isChunk) + c.markers := by
  have := List.length_eq_countP_add_countP Entry.isChunk (l := c.queue)
  simpa [Channel.markers] using this

/-- What a step of `close` does to the channel. -/
structure CloseSpec (c d : Channel) (p : Close) (next : Option Close) : Prop where
  chunks : d.chunks ≤ c.chunks
  closed : c.closed = true → d.closed = true
  sets : p = .set → d.closed = true
  queue : d.queue <:+ c.queue ∨ p = .offer ∧ d.queue = c.queue ++ [.eof]
  offer : next = some .offer → d.queue = []
  next : next ≠ some .set

theorem closeStep_spec (c : Channel) (p : Close) : CloseSpec c (closeStep c p).1 p (closeStep c p).2 := by
  cases p with
  | offer =>
    simp only [closeStep]
    split <;> constructor <;> simp [Channel.chunks, Entry.isChunk]
  | set | clear | drop => constructor <;> simp [closeStep, Channel.chunks, loaded]

/-- What a step of the handler does to the channel. -/
structure HandlerSpec (c d : Channel) (h k : Handler) : Prop where
  chunks : d.chunks + k.chunks + (if h = .proceed then 1 else 0) ≤ c.chunks + h.chunks
  closed : c.closed = true → d.closed = true
  closing : k.closing = true → h.closing = true ∨ d.closed = true
  queue : d.queue <:+ c.queue ∨ h = .close .offer ∧ d.queue = c.queue ++ [.eof]
  offer : k = .close .offer → d.queue = []

theorem loaded_drop (room : ℕ) (bytes : List UInt8) (some : 0 < min room bytes.length) :
    loaded (.some (bytes.drop room)) + (if (bytes.drop room).isEmpty then 1 else 0) ≤
      loaded (.some bytes) := by
  cases bytes with
  | nil => simp at some
  | cons b rest => cases (b :: rest).drop room <;> simp [loaded]

theorem loaded_le (room : ℕ) (bytes : List UInt8) :
    loaded (.some (bytes.drop room)) ≤ loaded (.some bytes) := by
  cases bytes with
  | nil => simp [loaded]
  | cons b rest => cases (b :: rest).drop room <;> simp [loaded]

theorem handlerStep_spec {c d : Channel} {h k : Handler} (moves : handlerStep c h = some (d, k)) :
    HandlerSpec c d h k := by
  cases h with
  | idle => contradiction
  | readClosed room | readCurrent room | readRemaining room | readEof room =>
    obtain ⟨rfl, rfl⟩ := Prod.mk.inj (Option.some.inj moves)
    split <;> constructor <;> simp [Handler.chunks, Handler.closing]
  | take room =>
    simp only [handlerStep] at moves
    split at moves
    · contradiction
    · rename_i entry rest queued
      obtain ⟨rfl, rfl⟩ := Prod.mk.inj (Option.some.inj moves)
      refine ⟨?_, id, by simp [Handler.closing], .inl ⟨[entry], queued.symm⟩, by simp⟩
      have counted : c.queue.countP (·.isChunk) = rest.countP (·.isChunk) + if entry.isChunk then 1 else 0 := by
        rw [queued, List.countP_cons]
      cases entry <;>
        simp only [Handler.chunks, Channel.chunks, Entry.isChunk, reduceCtorEq, if_false, if_true] at counted ⊢ <;>
        omega
  | store room entry =>
    cases entry <;> obtain ⟨rfl, rfl⟩ := Prod.mk.inj (Option.some.inj moves) <;> constructor <;>
      simp [Handler.chunks, Handler.closing, Channel.chunks]
    have := loaded_le_one (some ‹List UInt8›)
    omega
  | copy room =>
    simp only [handlerStep] at moves
    split at moves
    · obtain ⟨rfl, rfl⟩ := Prod.mk.inj (Option.some.inj moves)
      constructor <;> simp [Handler.chunks, Handler.closing]
    · rename_i bytes current
      obtain ⟨rfl, rfl⟩ := Prod.mk.inj (Option.some.inj moves)
      split
      · rename_i consumed
        rw [Bool.and_eq_true, decide_eq_true_eq] at consumed
        have less := loaded_drop room bytes consumed.1
        rw [if_pos consumed.2] at less
        constructor <;> simp [Handler.chunks, Handler.closing, Channel.chunks, current]
        omega
      · have less := loaded_le room bytes
        constructor <;> simp [Handler.chunks, Handler.closing, Channel.chunks, current]
        exact less
  | proceed =>
    obtain ⟨rfl, rfl⟩ := Prod.mk.inj (Option.some.inj moves)
    constructor <;> simp [Handler.chunks, Handler.closing]
  | close p =>
    have spec := closeStep_spec c p
    simp only [handlerStep, Option.some.injEq, Prod.mk.injEq] at moves
    generalize closeStep c p = r at moves spec
    obtain ⟨d, next⟩ := r
    obtain ⟨rfl, rfl⟩ := moves
    refine ⟨?_, spec.closed, ?_, by simpa using spec.queue, ?_⟩
    · cases next <;> simpa [Handler.chunks] using spec.chunks
    · cases p with
      | set => exact fun _ => .inr (spec.sets rfl)
      | clear | offer | drop => exact fun _ => .inl rfl
    · cases next with
      | none => simp
      | some q => exact fun at_ => spec.offer (by simpa using at_)

theorem markers_le {c d : Channel} (h : d.queue <:+ c.queue) : d.markers ≤ c.markers :=
  h.sublist.countP_le

variable {s t : State} {a : Action}

theorem Roomy.handler {c : Channel} {h : Handler} {accepted : Bool} (roomy : Roomy s)
    (fair : undivided (.handler accepted) s) (spec : HandlerSpec s.channel c s.handler h) :
    Roomy { s with
      channel := c
      handler := h
      outstanding := if s.handler = .proceed ∧ accepted then false else s.outstanding } := by
  have chunks := roomy.chunks
  have moved := spec.chunks
  have shut (offer : s.handler = .close .offer) : s.channel.closed = true :=
    roomy.closing (.inl (by simp [offer, Handler.closing]))
  constructor
  case chunks =>
    dsimp only
    split at moved <;> split at chunks <;> split <;> simp_all <;> omega
  case markers =>
    intro opened
    have before : s.channel.closed = false := Bool.eq_false_iff.mpr fun on => by simp [spec.closed on] at opened
    have less : c.markers ≤ s.channel.markers := by
      rcases spec.queue with suffix | ⟨offer, -⟩
      · exact markers_le suffix
      · simp [shut offer] at before
    exact le_trans (Nat.add_le_add_left less _) (roomy.markers before)
  case closing =>
    rintro (on | on)
    · exact (spec.closing on).elim (fun before => spec.closed (roomy.closing (.inl before))) id
    · exact spec.closed (roomy.closing (.inr on))
  case last =>
    intro bytes at_
    rcases spec.queue with suffix | ⟨offer, -⟩
    · exact Nat.eq_zero_of_le_zero (roomy.last bytes at_ ▸ markers_le suffix)
    · have whole := fair offer
      simp [State.half, show s.worker = _ from at_] at whole
  case more =>
    intro bytes at_
    rcases spec.queue with suffix | ⟨offer, grown⟩
    · exact le_trans (markers_le suffix) (roomy.more bytes at_)
    · simp [Channel.markers, grown, roomy.offer bytes false at_ offer, Entry.isChunk]
  case offer => exact fun _ _ _ at_ => spec.offer at_
  case eof =>
    intro at_
    rcases spec.queue with suffix | ⟨offer, grown⟩
    · exact le_trans suffix.length_le (roomy.eof at_)
    · have whole := fair offer
      simp only [State.half, show s.worker = _ from at_, Bool.not_eq_false', List.isEmpty_iff] at whole
      simp [grown, whole]

/-- What a step of the worker does to the channel, its queue apart. -/
structure WorkerSpec (c d : Channel) (k l : Worker) : Prop where
  chunks : d.chunks + l.chunks ≤ c.chunks + k.chunks
  closed : c.closed = true → d.closed = true
  closing : l.closing = true → k.closing = true ∨ d.closed = true
  markers : d.closed = false → k.closing = false → d.markers + l.markers ≤ c.markers + k.markers
  putting : ∀ bytes isLast, l = .putChunk bytes isLast → d = c ∧ c.closed = false ∧
    ∃ chunk, k = .check chunk isLast
  ending : l = .putEof → (∃ chunk, k = .check chunk true) ∧ c.closed = false ∧ d = c ∨
    ∃ bytes, k = .putChunk bytes true ∧ d.queue = c.queue ++ [.chunk bytes]

theorem workerStep_spec {c d : Channel} {k l : Worker} (moves : workerStep c k = some (d, l)) :
    WorkerSpec c d k l := by
  cases k with
  | idle => contradiction
  | check chunk isLast =>
    obtain ⟨rfl, rfl⟩ := Prod.mk.inj (Option.some.inj moves)
    split
    · constructor <;> simp_all [Worker.chunks, Worker.closing]
    · rename_i opened
      rw [Bool.not_eq_true] at opened
      cases isLast <;> split <;> constructor <;>
        simp [Worker.chunks, Worker.closing, Worker.markers, opened]
  | putChunk bytes isLast =>
    simp only [workerStep, Option.ite_none_right_eq_some, Option.some.injEq, Prod.mk.injEq] at moves
    obtain ⟨-, rfl, rfl⟩ := moves
    cases isLast <;> constructor <;>
      simp [Worker.chunks, Worker.closing, Worker.markers, Channel.chunks, Channel.markers, Entry.isChunk]
    all_goals omega
  | putEof =>
    simp only [workerStep, Option.ite_none_right_eq_some, Option.some.injEq, Prod.mk.injEq] at moves
    obtain ⟨-, rfl, rfl⟩ := moves
    constructor <;>
      simp [Worker.chunks, Worker.closing, Worker.markers, Channel.chunks, Channel.markers, Entry.isChunk]
  | close p =>
    have spec := closeStep_spec c p
    simp only [workerStep, Option.some.injEq, Prod.mk.injEq] at moves
    generalize closeStep c p = r at moves spec
    obtain ⟨d, next⟩ := r
    obtain ⟨rfl, rfl⟩ := moves
    refine ⟨?_, spec.closed, ?_, ?_, ?_, ?_⟩
    · cases next <;> simpa [Worker.chunks] using spec.chunks
    · cases p with
      | set => exact fun _ => .inr (spec.sets rfl)
      | clear | offer | drop => exact fun _ => .inl rfl
    · cases p with
      | set =>
        have shut : d.closed = true := spec.sets rfl
        simp [shut]
      | clear | offer | drop => simp [Worker.closing]
    all_goals cases next <;> simp

theorem Channel.chunks_queue {c : Channel} (h : c.chunks = 0) : c.queue.countP (·.isChunk) = 0 :=
  Nat.eq_zero_of_add_eq_zero_right h

theorem Roomy.worker {c : Channel} {k : Worker} (roomy : Roomy s)
    (spec : WorkerSpec s.channel c s.worker k) : Roomy { s with channel := c, worker := k } := by
  have chunks := roomy.chunks
  have alone (has : s.worker.chunks = 1) : s.channel.queue.countP (·.isChunk) = 0 := by
    refine Channel.chunks_queue ?_
    split at chunks <;> omega
  constructor
  case chunks =>
    have := spec.chunks
    dsimp only
    omega
  case markers =>
    intro opened
    have before : s.channel.closed = false := Bool.eq_false_iff.mpr fun on => by simp [spec.closed on] at opened
    have calm : s.worker.closing = false := Bool.eq_false_iff.mpr fun on => by
      simp [roomy.closing (.inr on)] at before
    have := spec.markers opened calm
    have := roomy.markers before
    dsimp only at *
    omega
  case closing =>
    rintro (on | on)
    · exact spec.closed (roomy.closing (.inl on))
    · exact (spec.closing on).elim (fun before => spec.closed (roomy.closing (.inr before))) id
  case last =>
    rintro bytes rfl
    obtain ⟨rfl, opened, chunk, checking⟩ := spec.putting _ _ rfl
    have := roomy.markers opened
    simp only [checking, Worker.markers] at this
    dsimp only
    split at this <;> omega
  case more =>
    rintro bytes rfl
    obtain ⟨rfl, opened, -⟩ := spec.putting _ _ rfl
    have := roomy.markers opened
    dsimp only
    split at this <;> omega
  case offer =>
    rintro bytes isLast rfl offer
    obtain ⟨rfl, opened, -⟩ := spec.putting _ _ rfl
    simp [roomy.closing (.inl (by simp [show s.handler = _ from offer, Handler.closing]))] at opened
  case eof =>
    rintro rfl
    dsimp only
    rcases spec.ending rfl with ⟨⟨chunk, checking⟩, opened, rfl⟩ | ⟨bytes, putting, grown⟩
    · have marked := roomy.markers opened
      have none := alone (by simp [checking, Worker.chunks])
      simp only [checking, Worker.markers] at marked
      rw [Channel.length_queue, none]
      split at marked <;> omega
    · have none := alone (by simp [putting, Worker.chunks])
      have := s.channel.length_queue
      rw [none, roomy.last bytes putting] at this
      simp [grown, this]

theorem Roomy.step (roomy : Roomy s) (fair : undivided a s) (moves : step a s = some t) : Roomy t := by
  cases a with
  | deliver chunk isLast =>
    simp only [RequestBody.step, Option.ite_none_right_eq_some, Option.some.injEq] at moves
    obtain ⟨⟨idle, -, fresh, going⟩, rfl⟩ := moves
    obtain ⟨chunks, markers, closing, -, -, -, -⟩ := roomy
    simp only [idle, fresh, going, Worker.chunks, Worker.markers, Worker.closing, Bool.false_eq_true,
      if_false] at chunks markers closing
    constructor <;> simp [Worker.closing, Worker.chunks]
    · omega
    · intro opened
      have := markers opened
      cases isLast <;> simpa [Worker.markers] using this
    · simpa using closing
  | worker =>
    obtain ⟨⟨c, k⟩, moved, rfl⟩ := Option.map_eq_some_iff.mp moves
    exact roomy.worker (workerStep_spec moved)
  | retire =>
    simp only [RequestBody.step, Option.ite_none_right_eq_some, Option.some.injEq] at moves
    obtain ⟨⟨idle, -⟩, rfl⟩ := moves
    obtain ⟨chunks, markers, closing, -, -, -, -⟩ := roomy
    simp only [idle, Worker.chunks, Worker.markers, Worker.closing] at chunks markers closing
    constructor <;> simp [Worker.chunks, Worker.markers, Worker.closing]
    · simpa using chunks
    · simpa using markers
    · simpa using closing
  | read room | close =>
    simp only [RequestBody.step, Option.ite_none_right_eq_some, Option.some.injEq] at moves
    obtain ⟨idle, rfl⟩ := moves
    obtain ⟨chunks, markers, closing, last, more, -, eof⟩ := roomy
    simp only [idle, Handler.chunks, Handler.closing] at chunks closing
    exact ⟨chunks, markers, by simpa [Handler.closing] using closing, last, more, by simp, eof⟩
  | handler accepted =>
    obtain ⟨⟨c, h⟩, moved, rfl⟩ := Option.map_eq_some_iff.mp moves
    exact roomy.handler fair (handlerStep_spec moved)

theorem roomy_of_undivided (h : machine.ReachableVia undivided s) : Roomy s := by
  refine h.invariant ?_ fun a s t hs fair moves => hs.step fair moves
  rintro _ rfl
  constructor <;> simp [freshState, Worker.chunks, Worker.markers, Worker.closing, Handler.chunks,
    Handler.closing, Channel.chunks, Channel.markers, loaded]

theorem Roomy.unblocked (roomy : Roomy s) : ¬s.blocked := by
  obtain ⟨chunks, -, -, last, more, -, eof⟩ := roomy
  rintro ⟨⟨bytes, isLast, at_⟩ | at_, full⟩
  · have none : s.channel.queue.countP (·.isChunk) = 0 := by
      refine Channel.chunks_queue ?_
      simp only [at_, Worker.chunks] at chunks
      split at chunks <;> omega
    have marked : s.channel.markers ≤ 1 := by
      cases isLast with
      | true => exact le_trans (last bytes at_).le (Nat.zero_le 1)
      | false => exact more bytes at_
    rw [Channel.length_queue, none] at full
    simp only [capacity] at full
    omega
  · have := eof at_
    simp only [capacity] at full
    omega

/-- A marker offered into half a delivery leaves no room for the worker's. -/
theorem Roomy.blocked_of_divided {accepted : Bool} (roomy : Roomy s) (divided : ¬undivided (.handler accepted) s)
    (moves : RequestBody.step (.handler accepted) s = some t) :
    t.blocked ∨ ∃ u, RequestBody.step .worker t = some u ∧ u.blocked := by
  simp only [undivided, Classical.not_imp, Bool.not_eq_false] at divided
  obtain ⟨offer, half⟩ := divided
  simp only [RequestBody.step, offer, handlerStep, closeStep, Option.map_some, Option.some.injEq] at moves
  unfold State.half at half
  split at half
  · rename_i bytes isLast at_
    have empty := roomy.offer bytes isLast at_ offer
    simp only [empty, List.length_nil, capacity, Nat.zero_lt_two, if_true] at moves
    refine .inr ⟨_, by simp [← moves, RequestBody.step, workerStep, at_, half, capacity]; rfl, ?_⟩
    simp [State.blocked, capacity]
  · rename_i at_
    have some : s.channel.queue ≠ [] := by simpa using half
    have one : s.channel.queue.length = 1 := by
      have := roomy.eof at_
      have := List.length_pos_iff.mpr some
      omega
    simp only [one, capacity, Nat.one_lt_two, if_true] at moves
    exact .inl ⟨.inr (by simp [← moves, at_]), by simp [← moves, one, capacity]⟩
  · contradiction

theorem unblocked_of_undivided (h : machine.ReachableVia undivided s) :
    ¬s.blocked ∧ ∀ accepted t, ¬undivided (.handler accepted) s → step (.handler accepted) s = some t →
      t.blocked ∨ ∃ u, step .worker t = some u ∧ u.blocked := by
  have roomy := roomy_of_undivided h
  exact ⟨roomy.unblocked, fun accepted t divided moves => roomy.blocked_of_divided divided moves⟩

/-- The last chunk is put and read while the handler closes. -/
def lastThenClose : List Action := List.flatten [
  [.deliver (some [65]) true, .worker, .worker, .worker, .read 8],
  List.replicate 7 (.handler true), .close :: List.replicate 4 (.handler true)]

def closedAfterLast : State := machine.runFromVia undivided lastThenClose freshState

theorem unblocked_closedAfterLast : (¬closedAfterLast.blocked ∧
    ∀ accepted t, ¬undivided (.handler accepted) closedAfterLast →
      step (.handler accepted) closedAfterLast = some t →
        t.blocked ∨ ∃ u, step .worker t = some u ∧ u.blocked) ∧ closedAfterLast.channel.closed = true :=
  ⟨unblocked_of_undivided ((Machine.ReachableVia.init rfl).runFromVia _), by decide +kernel⟩

/-- The handler closes between the check of `closed?` and the first put. -/
def closeInside : List Action := List.flatten [
  [.deliver (some [65]) true, .worker, .close], List.replicate 4 (.handler true), [.worker]]

def stuck : State := machine.runFrom closeInside freshState

theorem putWaits : machine.Reachable stuck ∧ stuck.channel.queue = [.eof, .chunk [65]] ∧
    stuck.handler = .idle ∧ stuck.blocked := by
  have state : stuck.worker = .putEof ∧ stuck.channel.queue = [.eof, .chunk [65]] ∧
      stuck.handler = .idle := by decide +kernel
  exact ⟨(Machine.Reachable.init rfl).runFrom _, state.2.1, state.2.2, .inr state.1, by rw [state.2.1]; rfl⟩

end Busker.RequestBody
