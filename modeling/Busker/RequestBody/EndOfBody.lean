import Busker.RequestBody.Channel

/-! Reads after the end of the body. The end and `close` share the flag that `read` throws
on, so a read that returned -1 is followed by reads that throw. -/
namespace Busker.RequestBody

open Interleaving

/-- How a read ends: with a count of bytes, with -1 or with an exception. -/
inductive Result
  | count
  | eof
  | closedChannel
  | failed
  deriving DecidableEq, Repr

/-- What the application sees: its reads end, and it begins to close. -/
inductive Event
  | returned (result : Result)
  | closed
  deriving DecidableEq, Repr

/-- The end of a read in a step of the handler's thread. A read that requests the next chunk
ends with that request. -/
def readEnd (accepted : Bool) (c : Channel) : Handler → Option Result
  | .readClosed _ => if c.closed then some .closedChannel else none
  | .readRemaining _ => if c.currentBuf.isNone then some .failed else none
  | .readEof _ => if c.closed then some .eof else none
  | .copy room =>
    match c.currentBuf with
    | none => some .failed
    | some bytes =>
      if 0 < min room bytes.length && (bytes.drop room).isEmpty then none
      else some .count
  | .proceed => some (if accepted then .count else .failed)
  | _ => none

/-- The events so far, in order. -/
def noteEvent : Action → State → List Event → List Event
  | .close, _, events => events ++ [.closed]
  | .handler accepted, s, events =>
    events ++ ((readEnd accepted s.channel s.handler).map Event.returned).toList
  | _, _, events => events

/-- The body channel with the events the application sees. -/
def observed : Machine (State × List Event) Action := machine.recording [] noteEvent

/-- A read has returned -1, and another ends before the application closes. -/
def LaterRead (events : List Event) (result : Result) : Prop :=
  ∃ before between after, events = before ++ .returned .eof :: between ++ .returned result :: after ∧
    Event.closed ∉ between

/-- After a read that returned -1 every read does, until the application closes. -/
def StableEnd (events : List Event) : Prop := ∀ result, LaterRead events result → result = .eof

/-- Between reads, or where a read looks at `closed?`. -/
def Handler.outside : Handler → Bool
  | .idle | .readClosed _ | .close _ => true
  | _ => false

/-- Once a read has returned -1 the channel is closed, and all reads after it throw. -/
structure Ended (s : State) (events : List Event) : Prop where
  closed : .returned .eof ∈ events → s.channel.closed = true ∧ s.handler.outside = true
  later : ∀ before rest, events = before ++ .returned .eof :: rest →
    ∀ result, .returned result ∈ rest → result = .closedChannel

theorem closeStep_closed (c : Channel) (p : Close) (closed : c.closed = true) :
    (closeStep c p).1.closed = true := by
  cases p with
  | set => rfl
  | offer =>
      unfold closeStep
      dsimp only
      split <;> exact closed
  | clear => exact closed
  | drop => exact closed

theorem workerStep_closed {c d : Channel} {k l : Worker} (moves : workerStep c k = some (d, l))
    (closed : c.closed = true) : d.closed = true := by
  cases k with
  | idle => cases moves
  | check chunk isLast =>
      obtain ⟨rfl, -⟩ := Prod.mk.inj (Option.some.inj moves)
      exact closed
  | putChunk bytes isLast =>
      simp only [workerStep, Option.ite_none_right_eq_some, Option.some.injEq, Prod.mk.injEq] at moves
      obtain ⟨-, rfl, -⟩ := moves
      exact closed
  | putEof =>
      simp only [workerStep, Option.ite_none_right_eq_some, Option.some.injEq, Prod.mk.injEq] at moves
      obtain ⟨-, rfl, -⟩ := moves
      exact closed
  | close p =>
      obtain ⟨rfl, -⟩ := Prod.mk.inj (Option.some.inj moves)
      exact closeStep_closed c p closed

theorem closeStep_outside (c : Channel) (p : Close) :
    ((closeStep c p).2.elim Handler.idle Handler.close).outside = true := by
  cases p <;> rfl

/-- A step of the handler outside a read, on a closed channel. -/
theorem handlerStep_closed {c d : Channel} {h k : Handler} (moves : handlerStep c h = some (d, k))
    (closed : c.closed = true) (outside : h.outside = true) :
    d.closed = true ∧ k.outside = true ∧
      ∀ accepted result, readEnd accepted c h = some result → result = .closedChannel := by
  cases h with
  | idle => cases moves
  | readClosed room =>
      obtain ⟨rfl, rfl⟩ := Prod.mk.inj (Option.some.inj moves)
      rw [if_pos closed]
      refine ⟨closed, rfl, ?_⟩
      intro accepted result ends
      rw [readEnd, if_pos closed] at ends
      exact (Option.some.inj ends).symm
  | close p =>
      obtain ⟨rfl, rfl⟩ := Prod.mk.inj (Option.some.inj moves)
      refine ⟨closeStep_closed c p closed, closeStep_outside c p, ?_⟩
      intro accepted result ends
      cases ends
  | readCurrent room => cases outside
  | readRemaining room => cases outside
  | take room => cases outside
  | store room entry => cases outside
  | readEof room => cases outside
  | copy room => cases outside
  | proceed => cases outside

/-- A read that returns -1 found the channel closed and is over. -/
theorem readEnd_eof {accepted : Bool} {c d : Channel} {h k : Handler}
    (moves : handlerStep c h = some (d, k)) (ends : readEnd accepted c h = some .eof) :
    d.closed = true ∧ k.outside = true := by
  cases h with
  | readEof room =>
      obtain ⟨rfl, rfl⟩ := Prod.mk.inj (Option.some.inj moves)
      have closed : c.closed = true := by simpa [readEnd] using ends
      rw [if_pos closed]
      exact ⟨closed, rfl⟩
  | readClosed room => simp [readEnd] at ends
  | readRemaining room => simp [readEnd] at ends
  | copy room =>
      dsimp only [readEnd] at ends
      split at ends
      · cases ends
      · split at ends <;> cases ends
  | proceed => cases accepted <;> cases ends
  | idle => cases ends
  | readCurrent room => cases ends
  | take room => cases ends
  | store room entry => cases ends
  | close p => cases ends

variable {s t : State} {events : List Event}

theorem Ended.unseen (ended : Ended s events)
    (kept : s.channel.closed = true → s.handler.outside = true →
      t.channel.closed = true ∧ t.handler.outside = true) : Ended t events := by
  refine ⟨fun mem => ?_, ended.later⟩
  obtain ⟨closed, outside⟩ := ended.closed mem
  exact kept closed outside

/-- After a -1 only exceptions are added. -/
theorem Ended.noted {event : Event} (ended : Ended s events)
    (state : .returned .eof ∈ events ∨ event = .returned .eof →
      t.channel.closed = true ∧ t.handler.outside = true)
    (result : .returned .eof ∈ events → ∀ result, event = .returned result →
      result = .closedChannel) : Ended t (events ++ [event]) := by
  constructor
  · intro mem
    apply state
    exact (List.mem_append.mp mem).imp id fun last => (List.mem_singleton.mp last).symm
  · intro before rest same later mem
    rcases List.eq_nil_or_concat rest with rfl | ⟨rest, last, rfl⟩
    · cases mem
    · rw [List.concat_eq_append] at same mem
      have split : events ++ [event] = (before ++ .returned .eof :: rest) ++ [last] := by
        rw [same, List.append_assoc, List.cons_append]
      obtain ⟨earlier, final⟩ := List.append_inj' split rfl
      obtain rfl := (List.cons.inj final).1
      rcases List.mem_append.mp mem with inside | newest
      · exact ended.later before rest earlier later inside
      · have seen : .returned .eof ∈ events := by
          rw [earlier]
          exact List.mem_append_right _ List.mem_cons_self
        exact result seen later (List.mem_singleton.mp newest).symm

theorem Ended.handler {accepted : Bool} {c : Channel} {h : Handler} (ended : Ended s events)
    (moves : handlerStep s.channel s.handler = some (c, h)) (outstanding : Bool) :
    Ended { s with channel := c, handler := h, outstanding := outstanding }
      (events ++ ((readEnd accepted s.channel s.handler).map Event.returned).toList) := by
  cases ends : readEnd accepted s.channel s.handler with
  | none =>
      rw [Option.map_none, Option.toList_none, List.append_nil]
      exact ended.unseen fun closed outside =>
        ⟨(handlerStep_closed moves closed outside).1, (handlerStep_closed moves closed outside).2.1⟩
  | some result =>
      apply ended.noted
      · rintro (mem | same)
        · obtain ⟨closed, outside⟩ := ended.closed mem
          have kept := handlerStep_closed moves closed outside
          exact ⟨kept.1, kept.2.1⟩
        · cases same
          exact readEnd_eof moves ends
      · rintro mem later ⟨⟩
        obtain ⟨closed, outside⟩ := ended.closed mem
        exact (handlerStep_closed moves closed outside).2.2 accepted result ends

theorem ended_of_reachable {r : State × List Event} (h : observed.Reachable r) : Ended r.1 r.2 := by
  apply h.invariant
  · rintro ⟨s, events⟩ ⟨_, rfl⟩
    refine ⟨fun mem => (List.not_mem_nil mem).elim, fun before rest same => ?_⟩
    simp at same
  · rintro a ⟨s, events⟩ r ended moves
    obtain ⟨t, moved, rfl⟩ := Option.map_eq_some_iff.mp moves
    cases a with
    | deliver chunk isLast =>
        simp only [machine, step, Option.ite_none_right_eq_some, Option.some.injEq] at moved
        obtain ⟨_, rfl⟩ := moved
        exact ended.unseen fun closed outside => ⟨closed, outside⟩
    | worker =>
        obtain ⟨⟨c, k⟩, worked, rfl⟩ := Option.map_eq_some_iff.mp moved
        exact ended.unseen fun closed outside => ⟨workerStep_closed worked closed, outside⟩
    | retire =>
        simp only [machine, step, Option.ite_none_right_eq_some, Option.some.injEq] at moved
        obtain ⟨_, rfl⟩ := moved
        exact ended.unseen fun closed outside => ⟨closed, outside⟩
    | read room =>
        simp only [machine, step, Option.ite_none_right_eq_some, Option.some.injEq] at moved
        obtain ⟨_, rfl⟩ := moved
        exact ended.unseen fun closed _ => ⟨closed, rfl⟩
    | close =>
        simp only [machine, step, Option.ite_none_right_eq_some, Option.some.injEq] at moved
        obtain ⟨_, rfl⟩ := moved
        apply ended.noted
        · rintro (mem | same)
          · exact ⟨(ended.closed mem).1, rfl⟩
          · cases same
        · rintro _ _ ⟨⟩
    | handler accepted =>
        obtain ⟨⟨c, h⟩, handled, rfl⟩ := Option.map_eq_some_iff.mp moved
        exact ended.handler handled _

/-- The end of the body is stable exactly in the runs without a read after it. -/
theorem stableEnd_iff {r : State × List Event} (h : observed.Reachable r) :
    StableEnd r.2 ↔ ∀ result, ¬ LaterRead r.2 result := by
  have throws : ∀ result, LaterRead r.2 result → result = .closedChannel := by
    rintro result ⟨before, between, after, same, _⟩
    rw [List.append_assoc, List.cons_append] at same
    exact (ended_of_reachable h).later before _ same result
      (List.mem_append_right _ List.mem_cons_self)
  constructor
  · intro stable result later
    have end_ := stable result later
    rw [throws result later] at end_
    contradiction
  · exact fun none result later => (none result later).elim

theorem observed_start : observed.Reachable (freshState, []) := Machine.Reachable.init ⟨rfl, rfl⟩

/-- An empty body is read, and the channel closed. -/
def emptyBody : List Action := List.flatten [
  [.deliver none true, .worker, .worker, .read 8], List.replicate 5 (.handler true)]

def readThenClosed : State × List Event :=
  observed.runFrom (emptyBody ++ [.close]) (freshState, [])

theorem readThenClosed_stable : StableEnd readThenClosed.2 := by
  apply (stableEnd_iff (observed_start.runFrom _)).mpr
  have seen : readThenClosed.2 = [.returned .eof, .closed] := by decide +kernel
  unfold readThenClosed at seen
  rw [seen]
  rintro result ⟨before, between, after, same, _⟩
  cases before with
  | nil =>
      cases between with
      | nil => simp at same
      | cons event rest => simp at same
  | cons event rest =>
      have length := congrArg List.length same
      simp only [List.length_cons, List.length_append, List.length_nil] at length
      omega

/-- An empty body is read twice. -/
def readTwice : State × List Event :=
  observed.runFrom (emptyBody ++ [.read 8, .handler true]) (freshState, [])

theorem readTwice_throws : observed.Reachable readTwice ∧
    readTwice.2 = [.returned .eof, .returned .closedChannel] ∧ ¬ StableEnd readTwice.2 := by
  have seen : readTwice.2 = [.returned .eof, .returned .closedChannel] := by decide +kernel
  refine ⟨observed_start.runFrom _, seen, ?_⟩
  intro stable
  have same := stable .closedChannel ⟨[], [], [], seen, List.not_mem_nil⟩
  contradiction

end Busker.RequestBody
