import Busker.ResponseQueue.Ownership

/-! The final chunk. `close` puts at most one, after every other chunk, and `send-vecs`
passes on its mark with the last send. -/

namespace Busker.ResponseQueue

open Interleaving

section OnlyLast

variable {α : Type*} {p : α → Bool} {l first rest : List α} {a : α}

/-- Only the last element may satisfy `p`. -/
def OnlyLast (p : α → Bool) (l : List α) : Prop :=
  ∀ first a rest, l = first ++ a :: rest → p a = true → rest = []

theorem OnlyLast.front (h : OnlyLast p (first ++ rest)) : OnlyLast p first := by
  rintro before a after rfl ha
  have := h before a (after ++ rest) (by simp) ha
  exact (List.append_eq_nil_iff.mp this).1

theorem OnlyLast.back (h : OnlyLast p (first ++ rest)) : OnlyLast p rest := by
  rintro before a after rfl ha
  exact h (first ++ before) a after (by simp) ha

theorem onlyLast_concat (h : ∀ x ∈ l, p x = false) : OnlyLast p (l ++ [a]) := by
  intro before x after eq hx
  by_contra more
  obtain ⟨init, last, rfl⟩ := List.eq_nil_or_concat after |>.resolve_left more
  have : l = before ++ x :: init := by
    have eq : l ++ [a] = (before ++ x :: init) ++ [last] := by simpa using eq
    exact List.append_inj_left' eq rfl
  exact absurd (h x (by simp [this])) (by simp [hx])

/-- An element that satisfies `p` ends the list. -/
theorem OnlyLast.ends (h : OnlyLast p (first ++ rest)) (mem : a ∈ first) (ha : p a = true) :
    rest = [] ∧ first.getLast? = some a := by
  obtain ⟨before, after, rfl⟩ := List.append_of_mem mem
  have := h before a (after ++ rest) (by simp) ha
  obtain ⟨rfl, rfl⟩ := List.append_eq_nil_iff.mp this
  simp

end OnlyLast

namespace Producer

/-- The chunk being put. -/
def putChunk : Producer → List Chunk
  | .put _ c _ => [c]
  | _ => []

/-- May still put a chunk that is not final without looking at `closing?_` again. -/
def mayPut : Producer → Bool
  | .writeCurrent _ | .writeBorrow _ | .writeSet _ _ | .writePut _ _ | .flushCurrent | .closeCurrent
  | .seal _ _ => true
  | .put _ _ sender => !sender.isFinal
  | .schedule _ (.write _) => true
  | _ => false

/-- Inside `close`, past its `compareAndSet` and before its chunk is queued. -/
def closes : Producer → Bool
  | .closeCurrent => true
  | .seal _ sender | .put _ _ sender => sender.isFinal
  | _ => false

end Producer

namespace Worker

/-- The chunks `bbq/drain` has taken and `h2o_sendvec` has not been given. -/
def acc : Worker → List Chunk
  | .drain _ acc | .send acc => acc
  | .account _ acc c | .release _ acc c => acc ++ [c]
  | _ => []

/-- Between the final send and the end of `send-vecs`. -/
def finishing : Worker → Bool
  | .setInFlight acc => lastFinal acc
  | .demote final => final
  | .finish => true
  | _ => false

end Worker

/-- The chunks on their way, in order. -/
def State.line (s : State) : List Chunk := s.worker.acc ++ s.writer.queue.items ++ s.producer.putChunk

/-- The final state has been passed to h2o. -/
def Writer.finalSent (w : Writer) : Prop := ∃ r ∈ w.sent, r.final = true

/-- What a producer step does to the chunks on their way. -/
structure LineSpec (w v : Writer) (p q : Producer) : Prop where
  sent : v.sent = w.sent
  closing : w.closing = true → v.closing = true
  line : v.queue.items ++ q.putChunk = w.queue.items ++ p.putChunk ∨
    (p.mayPut = true ∧ p.putChunk = [] ∧ v.queue.items = w.queue.items ∧ ∃ c, q.putChunk = [c] ∧
      (c.final = true → v.closing = true ∧ q.mayPut = false)) ∨
    q.putChunk = [] ∧ v.queue.items = w.queue.items
  mayPut : q.mayPut = true → p.mayPut = true ∨ w.closing = false
  closes : q.closes = true → v.closing = true
  marked : ∀ c ∈ q.putChunk, q.closes = true → c.final = true
  enqueued : v.finalEnqueued = true → w.finalEnqueued = true ∨ p = .markFinal
  marking : q = .markFinal → ∃ c ∈ v.queue.items, c.final = true
  items : w.queue.items <+: v.queue.items

theorem LineSpec.quiet {w v : Writer} {p q : Producer} (sent : v.sent = w.sent)
    (closing : w.closing = true → v.closing = true) (items : v.queue.items = w.queue.items)
    (enqueued : v.finalEnqueued = w.finalEnqueued) (chunk : q.putChunk = p.putChunk)
    (mayPut : q.mayPut = true → p.mayPut = true ∨ w.closing = false)
    (closes : q.closes = true → v.closing = true)
    (marked : ∀ c ∈ q.putChunk, q.closes = true → c.final = true) (marking : q ≠ .markFinal) :
    LineSpec w v p q where
  sent := sent
  closing := closing
  line := .inl (by rw [items, chunk])
  mayPut := mayPut
  closes := closes
  marked := marked
  enqueued := fun set => .inl (enqueued ▸ set)
  marking := fun at_ => absurd at_ marking
  items := items ▸ List.prefix_rfl

theorem scheduleStep_line {w v : Writer} {sender : Sender} {point : Schedule} {move : ProducerMove}
    {q : Producer} (h : scheduleStep w sender point move = some (v, q)) :
    LineSpec w v (.schedule point sender) q := by
  cases point <;> cases move <;>
    simp only [scheduleStep, reduceCtorEq, Option.some.injEq, Prod.mk.injEq] at h
  case activate.tick | signal.tick | post.reply =>
    split at h <;> obtain ⟨rfl, rfl⟩ := Prod.mk.inj (Option.some.inj h) <;> cases sender <;>
      exact .quiet rfl id rfl rfl rfl (by simp [Producer.mayPut, Sender.resume])
        (by simp [Producer.closes, Sender.resume]) (by simp [Producer.putChunk, Sender.resume])
        (by simp [Sender.resume])
  case track.tick inner =>
    rcases step : trackStep w inner with ⟨u, next⟩
    rw [step] at h
    obtain ⟨tracked, rfl⟩ := trackStep_frame step
    obtain ⟨rfl, rfl⟩ := h
    cases next <;> cases sender <;>
      exact .quiet rfl id rfl rfl rfl (by simp [Producer.mayPut]) (by simp [Producer.closes])
        (by simp [Producer.putChunk]) (by simp)
  all_goals
    obtain ⟨rfl, rfl⟩ := h
    cases sender <;>
      exact .quiet rfl id rfl rfl rfl (by simp [Producer.mayPut, Sender.resume])
        (by simp [Producer.closes, Sender.resume]) (by simp [Producer.putChunk, Sender.resume])
        (by simp [Sender.resume])

theorem putStep_line {cfg : Config} {w v : Writer} {c : Chunk} {sender : Sender} {point : Put}
    {move : ProducerMove} {q : Producer} (marked : sender.isFinal = true → c.final = true)
    (closing : sender.isFinal = true → w.closing = true)
    (h : producerStep cfg w (.put point c sender) move = some (v, q)) :
    LineSpec w v (.put point c sender) q := by
  obtain ⟨⟨r, result⟩, put, h⟩ := Option.map_eq_some_iff.mp h
  obtain ⟨⟨same, waits⟩ | ⟨items, rfl, rfl⟩, -⟩ := putMove_post put
  · cases result with
    | next point' =>
      obtain ⟨rfl, rfl⟩ := Prod.mk.inj h
      refine .quiet rfl id same rfl rfl .inl closing ?_ (by simp)
      intro d hd final
      exact List.mem_singleton.mp hd ▸ marked final
    | queued => contradiction
    | thrown =>
      obtain ⟨rfl, rfl⟩ := Prod.mk.inj h
      exact ⟨rfl, id, .inr (.inr ⟨rfl, same⟩), by simp [Producer.mayPut], by simp [Producer.closes],
        by simp [Producer.putChunk], .inl, by simp, same ▸ List.prefix_rfl⟩
  · obtain ⟨rfl, rfl⟩ := Prod.mk.inj h
    refine ⟨rfl, id, .inl ?_, ?_, ?_, ?_, .inl, ?_, ⟨[c], items.symm⟩⟩ <;> cases sender <;>
      simp_all [Producer.putChunk, Producer.mayPut, Producer.closes, Sender.queued, Sender.isFinal]

theorem producerStep_line {cfg : Config} {w v : Writer} {p q : Producer} {move : ProducerMove}
    (inStream : offered outStream move = true)
    (marked : ∀ c ∈ p.putChunk, p.closes = true → c.final = true) (closing : p.closes = true → w.closing = true)
    (h : producerStep cfg w p move = some (v, q)) : LineSpec w v p q := by
  cases p
  case put point c sender => exact putStep_line (marked c (by simp [Producer.putChunk])) closing h
  case schedule point sender => exact scheduleStep_line h
  all_goals
    cases move <;> simp only [producerStep, reduceCtorEq, Option.some.injEq, Prod.mk.injEq] at h
  case idle.call c =>
    cases c <;> obtain ⟨rfl, rfl⟩ := Prod.mk.inj (Option.some.inj h)
    case chunk => contradiction
    all_goals
      exact .quiet rfl id rfl rfl rfl (by simp [Producer.mayPut]) (by simp [Producer.closes])
        (by simp [Producer.putChunk]) (by simp)
  case writeBorrow.borrow rest source =>
    obtain ⟨⟨b, pool⟩, borrowed, h⟩ := Option.map_eq_some_iff.mp h
    obtain ⟨rfl, rfl⟩ := Prod.mk.inj h
    exact .quiet rfl id rfl rfl rfl (fun _ => .inl rfl) (by simp [Producer.closes])
      (by simp [Producer.putChunk]) (by simp)
  case writeClosing.tick | closeClosing.tick =>
    split at h <;> rename_i state <;> obtain ⟨rfl, rfl⟩ := Prod.mk.inj (Option.some.inj h)
    · exact .quiet rfl id rfl rfl rfl (by simp [Producer.mayPut]) (by simp [Producer.closes])
        (by simp [Producer.putChunk]) (by simp)
    · exact .quiet rfl (by simp [state]) rfl rfl rfl (fun _ => .inr (by simpa using state))
        (by simp [Producer.closes]) (by simp [Producer.putChunk]) (by simp)
  case flushClosing.tick =>
    obtain ⟨rfl, rfl⟩ := h
    refine .quiet rfl id rfl rfl ?_ ?_ ?_ ?_ ?_ <;> cases state : w.closing <;>
      simp [Producer.putChunk, Producer.mayPut, Producer.closes]
  case closeCurrent.tick =>
    obtain ⟨rfl, rfl⟩ := h
    have final : LineSpec w w .closeCurrent (.put .ensureOpen (sealChunk w.pool.heap [] true) .close) :=
      ⟨rfl, id, .inr (.inl ⟨rfl, rfl, rfl, _, rfl, fun _ => ⟨closing rfl, rfl⟩⟩), fun _ => .inl rfl,
        fun _ => closing rfl, fun c hc _ => List.mem_singleton.mp hc ▸ rfl, .inl, by simp, List.prefix_rfl⟩
    cases w.current with
    | none => exact final
    | some b =>
      dsimp only
      split_ifs
      · exact .quiet rfl id rfl rfl rfl (fun _ => .inl rfl) (fun _ => closing rfl)
          (by simp [Producer.putChunk]) (by simp)
      · exact final
  case seal.tick b sender =>
    obtain ⟨rfl, rfl⟩ := h
    refine ⟨rfl, id, .inr (.inl ⟨rfl, rfl, rfl, _, rfl, fun final => ⟨closing final, ?_⟩⟩), fun _ => .inl rfl,
      closing, fun c hc final => List.mem_singleton.mp hc ▸ final, .inl, by simp, List.prefix_rfl⟩
    exact (congrArg Bool.not final : _)
  case markFinal.tick =>
    obtain ⟨rfl, rfl⟩ := h
    exact ⟨rfl, id, .inl rfl, by simp [Producer.mayPut], by simp [Producer.closes],
      by simp [Producer.putChunk], fun _ => .inr rfl, by simp, List.prefix_rfl⟩
  case writeCurrent.tick rest =>
    obtain ⟨rfl, rfl⟩ := h
    refine .quiet rfl id rfl rfl ?_ (fun _ => .inl rfl) ?_ ?_ ?_ <;> split <;> cases w.current <;>
      simp [Producer.putChunk, Producer.closes]
  case closeStopped.tick =>
    obtain ⟨rfl, rfl⟩ := h
    refine .quiet rfl id rfl rfl ?_ ?_ ?_ ?_ ?_ <;> split <;> cases w.current <;>
      simp [Producer.putChunk, Producer.mayPut, Producer.closes]
  case flushCurrent.tick =>
    obtain ⟨rfl, rfl⟩ := h
    refine .quiet rfl id rfl rfl ?_ (fun _ => .inl rfl) ?_ ?_ ?_ <;> cases w.current <;>
      (try dsimp only) <;> (try split_ifs) <;> simp [Producer.putChunk, Producer.closes, Sender.isFinal]
  all_goals
    obtain ⟨rfl, rfl⟩ := h
    refine .quiet rfl ?_ rfl rfl ?_ ?_ ?_ ?_ ?_ <;> (repeat' split) <;>
      simp_all [Producer.putChunk, Producer.mayPut, Producer.closes, Sender.isFinal]

/-- What a worker step does to the chunks on their way. -/
structure SendLine (w v : Writer) (k l : Worker) : Prop where
  closing : v.closing = w.closing
  enqueued : v.finalEnqueued = w.finalEnqueued
  finishing : l.finishing = true → k.finishing = true ∨ v.finalSent
  line : v.sent = w.sent ∧ l.acc ++ v.queue.items = k.acc ++ w.queue.items ∨
    l.acc = [] ∧ v.queue.items = w.queue.items ∧ k.acc ≠ [] ∧
      ∃ bytes, v.sent = w.sent ++ [⟨bytes, lastFinal k.acc⟩]
  sending : ∀ acc, l = .send acc → acc ≠ []

theorem SendLine.quiet {w v : Writer} {k l : Worker} (closing : v.closing = w.closing)
    (enqueued : v.finalEnqueued = w.finalEnqueued) (sent : v.sent = w.sent)
    (items : v.queue.items = w.queue.items) (acc : l.acc = k.acc)
    (finishing : l.finishing = true → k.finishing = true) (sending : ∀ acc, l ≠ .send acc) :
    SendLine w v k l where
  closing := closing
  enqueued := enqueued
  finishing := fun on => .inl (finishing on)
  line := .inl ⟨sent, by rw [acc, items]⟩
  sending := fun acc at_ => absurd at_ (sending acc)

theorem package_line {w : Writer} (rem : ℕ) (acc : List Chunk) :
    SendLine w w (.drain rem acc) (package acc) := by
  unfold package
  split
  · rename_i empty
    exact .quiet rfl rfl rfl rfl (List.isEmpty_iff.mp empty).symm (by simp [Worker.finishing]) (by simp)
  · rename_i some
    exact ⟨rfl, rfl, by simp [Worker.finishing], .inl ⟨rfl, rfl⟩, by
      rintro _ same empty
      obtain rfl := Worker.send.inj same
      exact some (List.isEmpty_iff.mpr empty)⟩

theorem workerStep_line {cfg : Config} {w v : Writer} {k l : Worker} {move : WorkerMove}
    (sending : ∀ acc, k = .send acc → acc ≠ [])
    (fits : ∀ rem acc c, k = .release rem acc c → w.queue.permits + c.bytes < 2 ^ 31)
    (h : workerStep cfg w k move = some (v, l)) : SendLine w v k l := by
  cases k <;> cases move <;>
    simp only [workerStep, reduceCtorEq, Option.some.injEq, Prod.mk.injEq] at h
  case drain.tick rem acc =>
    split at h
    · rename_i c items queued
      split at h <;> obtain ⟨rfl, rfl⟩ := Prod.mk.inj (Option.some.inj h)
      · refine ⟨rfl, rfl, ?_, .inl ⟨rfl, ?_⟩, ?_⟩ <;> split_ifs <;>
          simp [Worker.finishing, Worker.acc, queued]
      · exact package_line rem acc
    · obtain ⟨rfl, rfl⟩ := Prod.mk.inj (Option.some.inj h)
      exact package_line rem acc
  case release.tick rem acc c =>
    rw [Queue.release, if_pos (fits rem acc c rfl)] at h
    obtain ⟨rfl, rfl⟩ := Prod.mk.inj (Option.some.inj h)
    exact .quiet rfl rfl rfl rfl rfl (by simp [Worker.finishing]) (by simp)
  case send.tick acc =>
    obtain ⟨rfl, rfl⟩ := h
    exact ⟨rfl, rfl, fun final => .inr ⟨_, List.mem_append_right _ (List.mem_singleton_self _), final⟩,
      .inr ⟨rfl, rfl, sending acc rfl, _, rfl⟩, by simp⟩
  case idle.proceed | releaseChunks.giveBack | releaseChunks.tick | stopClose.tick | idle.command |
      retireSwap.tick =>
    split at h <;> simp only [reduceCtorEq, Option.some.injEq, Prod.mk.injEq] at h <;>
      obtain ⟨rfl, rfl⟩ := h <;> exact .quiet rfl rfl rfl rfl rfl (by simp [Worker.finishing]) (by simp)
  case stopTake.tick =>
    obtain ⟨rfl, rfl⟩ := h
    cases w.current <;> exact .quiet rfl rfl rfl rfl rfl (by simp [Worker.finishing]) (by simp)
  case stopRelease.tick =>
    unfold Queue.release at h
    split_ifs at h <;> obtain ⟨rfl, rfl⟩ := h <;>
      exact .quiet rfl rfl rfl rfl rfl (by simp [Worker.finishing]) (by simp)
  case retire.tick point =>
    obtain ⟨⟨tracked, rfl⟩, rfl | ⟨next, rfl⟩⟩ := retireStep_frame h <;>
      exact .quiet rfl rfl rfl rfl rfl (by simp [Worker.finishing]) (by simp)
  all_goals
    obtain ⟨rfl, rfl⟩ := h
    refine .quiet rfl rfl rfl rfl ?_ ?_ ?_ <;> (repeat' split) <;>
      simp_all [Worker.acc, Worker.finishing]

/-- A final chunk is on its way or has been sent. -/
def State.finalPut (s : State) : Prop := (∃ c ∈ s.line, c.final = true) ∨ s.writer.finalSent

/-- The final chunk is the last one put and the last one sent, and once `close` has
queued it, it is not lost. -/
structure Finals (s : State) : Prop where
  ordered : OnlyLast Chunk.final s.line
  spent : s.writer.finalSent → s.line = []
  sent : OnlyLast Send.final s.writer.sent
  shut : s.finalPut → s.writer.closing = true ∧ s.producer.mayPut = false
  closing : s.producer.closes = true → s.writer.closing = true
  marked : ∀ c ∈ s.producer.putChunk, s.producer.closes = true → c.final = true
  kept : s.writer.finalEnqueued = true ∨ s.producer = .markFinal →
    (∃ c ∈ s.worker.acc ++ s.writer.queue.items, c.final = true) ∨ s.writer.finalSent
  finishing : s.worker.finishing = true → s.writer.finalSent
  sending : ∀ acc, s.worker = .send acc → acc ≠ []

theorem Finals.none_final {s : State} (h : Finals s)
    (mayPut : s.producer.mayPut = true ∨ s.writer.closing = false) : ∀ c ∈ s.line, c.final = false := by
  intro c hc
  by_contra final
  obtain ⟨closing, shut⟩ := h.shut (.inl ⟨c, hc, Bool.not_eq_false _ ▸ final⟩)
  simp [closing, shut] at mayPut

theorem Finals.none_sent {s : State} (h : Finals s)
    (mayPut : s.producer.mayPut = true ∨ s.writer.closing = false) : ¬s.writer.finalSent := fun sent => by
  obtain ⟨closing, shut⟩ := h.shut (.inr sent)
  simp [closing, shut] at mayPut

/-- A producer step keeps the line, puts a chunk at its end, or drops the one it was putting. -/
theorem LineSpec.line_cases {s : State} {w : Writer} {p : Producer}
    (spec : LineSpec s.writer w s.producer p) :
    let t : State := { s with writer := w, producer := p }
    t.line = s.line ∨
      (s.producer.mayPut = true ∧ ∃ c, t.line = s.line ++ [c] ∧
        (c.final = true → w.closing = true ∧ p.mayPut = false)) ∨
      ∃ dropped, s.line = t.line ++ dropped := by
  rcases spec.line with same | ⟨mayPut, empty, items, c, put, final⟩ | ⟨gone, items⟩
  · refine .inl ?_
    simp only [State.line, List.append_assoc, same]
  · refine .inr (.inl ⟨mayPut, c, ?_, final⟩)
    simp [State.line, empty, items, put]
  · refine .inr (.inr ⟨s.producer.putChunk, ?_⟩)
    simp [State.line, items, gone]

theorem Finals.producer {s : State} {w : Writer} {p : Producer} (h : Finals s)
    (spec : LineSpec s.writer w s.producer p) : Finals { s with writer := w, producer := p } := by
  have sent : w.finalSent ↔ s.writer.finalSent := by rw [Writer.finalSent, spec.sent]; rfl
  have after (final : s.finalPut) : w.closing = true ∧ p.mayPut = false := by
    obtain ⟨closing, shut⟩ := h.shut final
    refine ⟨spec.closing closing, Bool.eq_false_iff.mpr fun mayPut => ?_⟩
    rcases spec.mayPut mayPut with before | before
    · simp [before] at shut
    · simp [before] at closing
  refine ⟨?_, ?_, ?_, ?_, spec.closes, spec.marked, ?_, fun on => sent.mpr (h.finishing on), h.sending⟩
  · rcases spec.line_cases with same | ⟨mayPut, c, more, -⟩ | ⟨dropped, fewer⟩
    · exact same ▸ h.ordered
    · exact more ▸ onlyLast_concat (h.none_final (.inl mayPut))
    · exact (fewer ▸ h.ordered).front
  · intro final
    have final := sent.mp final
    rcases spec.line_cases with same | ⟨mayPut, -, -, -⟩ | ⟨dropped, fewer⟩
    · exact same.trans (h.spent final)
    · exact absurd final (h.none_sent (.inl mayPut))
    · exact (List.append_eq_nil_iff.mp (fewer.symm.trans (h.spent final))).1
  · exact spec.sent ▸ h.sent
  · rintro (⟨c, hc, final⟩ | final)
    · rcases spec.line_cases with same | ⟨mayPut, d, more, new⟩ | ⟨dropped, fewer⟩
      · exact after (.inl ⟨c, same ▸ hc, final⟩)
      · rw [more] at hc
        rcases List.mem_append.mp hc with old | added
        · exact absurd final (by simp [h.none_final (.inl mayPut) c old])
        · exact new (List.mem_singleton.mp added ▸ final)
      · exact after (.inl ⟨c, fewer ▸ List.mem_append_left _ hc, final⟩)
    · exact after (.inr (sent.mp final))
  · rintro (set | at_)
    · rcases h.kept ((spec.enqueued set).imp_right id) with ⟨c, hc, final⟩ | final
      · refine .inl ⟨c, ?_, final⟩
        exact List.mem_append.mpr ((List.mem_append.mp hc).imp_right fun old => spec.items.subset old)
      · exact .inr (sent.mpr final)
    · obtain ⟨c, hc, final⟩ := spec.marking at_
      exact .inl ⟨c, List.mem_append_right _ hc, final⟩

theorem lastFinal_of_getLast? {acc : List Chunk} {c : Chunk} (last : acc.getLast? = some c)
    (final : c.final = true) : lastFinal acc = true := by
  simp [lastFinal, last, final]

theorem final_of_lastFinal {acc : List Chunk} (h : lastFinal acc = true) :
    ∃ c ∈ acc, c.final = true := by
  unfold lastFinal at h
  cases last : acc.getLast? with
  | none => simp [last] at h
  | some c => exact ⟨c, List.mem_of_getLast? last, by simpa [last] using h⟩

theorem SendLine.finalSent_of_before {w v : Writer} {k l : Worker} (spec : SendLine w v k l)
    (sent : w.finalSent) : v.finalSent := by
  obtain ⟨r, hr, final⟩ := sent
  rcases spec.line with ⟨same, -⟩ | ⟨-, -, -, bytes, more⟩
  · exact ⟨r, same ▸ hr, final⟩
  · exact ⟨r, more ▸ List.mem_append_left _ hr, final⟩

/-- A send passes on the mark of the last chunk it takes. -/
theorem SendLine.finalSent_cases {w v : Writer} {k l : Worker} (spec : SendLine w v k l)
    (sent : v.finalSent) : w.finalSent ∨ l.acc = [] ∧ v.queue.items = w.queue.items ∧
      lastFinal k.acc = true := by
  rcases spec.line with ⟨same, -⟩ | ⟨empty, items, -, bytes, more⟩
  · exact .inl (by rwa [Writer.finalSent, same] at sent)
  · obtain ⟨r, hr, final⟩ := sent
    rw [more] at hr
    rcases List.mem_append.mp hr with old | new
    · exact .inl ⟨r, old, final⟩
    · rw [List.mem_singleton.mp new] at final
      exact .inr ⟨empty, items, final⟩

/-- A worker step makes no chunk final. -/
theorem SendLine.finalPut_before {s : State} {w : Writer} {k : Worker}
    (spec : SendLine s.writer w s.worker k)
    (put : State.finalPut { s with writer := w, worker := k }) : s.finalPut := by
  rcases put with ⟨c, hc, final⟩ | sent
  · refine .inl ⟨c, ?_, final⟩
    rcases spec.line with ⟨-, line⟩ | ⟨empty, items, -⟩
    · simpa only [State.line, line] using hc
    · simp only [State.line, empty, items, List.nil_append, List.append_assoc] at hc ⊢
      exact List.mem_append_right _ hc
  · rcases spec.finalSent_cases sent with before | ⟨-, -, last⟩
    · exact .inr before
    · obtain ⟨c, hc, final⟩ := final_of_lastFinal last
      exact .inl ⟨c, List.mem_append_left _ (List.mem_append_left _ hc), final⟩

theorem Finals.worker {s : State} {w : Writer} {k : Worker} (h : Finals s)
    (spec : SendLine s.writer w s.worker k) : Finals { s with writer := w, worker := k } := by
  have shut (put : State.finalPut { s with writer := w, worker := k }) :
      w.closing = true ∧ s.producer.mayPut = false :=
    spec.closing.symm ▸ h.shut (spec.finalPut_before put)
  have closing (on : s.producer.closes = true) : w.closing = true := spec.closing.trans (h.closing on)
  have finishing (on : k.finishing = true) : w.finalSent :=
    (spec.finishing on).elim (fun before => spec.finalSent_of_before (h.finishing before)) id
  rcases spec.line with ⟨sent, line⟩ | ⟨empty, items, nonempty, bytes, sent⟩
  · have same : State.line { s with writer := w, worker := k } = s.line := by
      simp only [State.line, line]
    have final : w.finalSent ↔ s.writer.finalSent := by rw [Writer.finalSent, sent]; rfl
    refine ⟨same ▸ h.ordered, fun spent => same.trans (h.spent (final.mp spent)), sent ▸ h.sent, shut,
      closing, h.marked, fun on => ?_, finishing, spec.sending⟩
    dsimp only at on ⊢
    rw [line, final]
    exact h.kept (spec.enqueued ▸ on)
  · -- The polled chunks leave the line, and the mark goes with the last of them.
    have line : s.line = s.worker.acc ++ State.line { s with writer := w, worker := k } := by
      simp [State.line, empty, items]
    have ordered := h.ordered
    rw [line] at ordered
    have unsent : ¬s.writer.finalSent := fun final => by
      have := h.spent final
      rw [line] at this
      exact nonempty (List.append_eq_nil_iff.mp this).1
    refine ⟨ordered.back, fun spent => ?_, ?_, shut, closing, h.marked, fun on => ?_, finishing, spec.sending⟩
    · obtain ⟨-, -, last⟩ := (spec.finalSent_cases spent).resolve_left unsent
      obtain ⟨c, hc, on⟩ := final_of_lastFinal last
      exact (ordered.ends hc on).1
    · exact sent ▸ onlyLast_concat fun r hr => Bool.eq_false_iff.mpr fun on => unsent ⟨r, hr, on⟩
    · rcases h.kept (spec.enqueued ▸ on) with ⟨c, hc, on⟩ | on
      · rcases List.mem_append.mp hc with taken | queued
        · have last := lastFinal_of_getLast? (ordered.ends taken on).2 on
          exact .inr ⟨_, sent ▸ List.mem_append_right _ (List.mem_singleton_self _), last⟩
        · exact .inl ⟨c, List.mem_append_right _ (items ▸ queued), on⟩
      · exact absurd on unsent

variable {cfg : Config} {s : State}

theorem finals_of_reachable (h : (machine cfg outStream).Reachable s) : Finals s := by
  refine h.invariant_of (I := Finals) (J := Budgeted cfg) (fun _ => budgeted_of_reachable) ?_ ?_
  · rintro _ ⟨pool, -, rfl⟩
    refine ⟨fun first a rest eq => ?_, ?_, fun first a rest eq => ?_, ?_, ?_, ?_, ?_, ?_, ?_⟩ <;>
      simp_all [freshState, State.line, State.finalPut, Writer.finalSent, Worker.acc, Queue.fresh,
        Producer.putChunk, Producer.closes, Worker.finishing]
  · intro a s t budget hs moves
    rcases step_cases moves with ⟨move, w, p, -, inStream, moved, rfl⟩ | ⟨move, w, k, -, moved, rfl⟩ |
      ⟨move, pool, -, -, rfl⟩
    · exact hs.producer (producerStep_line inStream hs.marked hs.closing moved)
    · exact hs.worker (workerStep_line hs.sending budget.fits_release moved)
    · exact ⟨hs.ordered, hs.spent, hs.sent, hs.shut, hs.closing, hs.marked, hs.kept, hs.finishing, hs.sending⟩

end Busker.ResponseQueue
