import Busker.Generation.Releases
import Mathlib.Data.List.Induction

/-! Whether `stop!` ever returns normally and leaves a generation half torn down. The
phase `:retiring` is left neither by a later call nor recorded, so a call that throws
after the join makes every later call return at once; the callbacks that encrypt
session tickets over HTTP/3 are never released; and what a worker's thread held when an
exception ended it nobody disposes of. -/

namespace Busker.Generation

open Unwinding Program

variable {g : GenerationState} {env : Environment} {s t : StopState}

/-- What every call leaves: releases are final, and what `stop!` itself never releases the
workers' threads have disposed of. -/
structure Grows (g : GenerationState) (env : Environment) (s t : StopState) : Prop where
  released : ∀ r ∈ s.released, r ∈ t.released
  spared : ∀ r, Spared g r → r ∈ t.released → r ∈ s.released ∨ r ∈ threadsDisposed g env

theorem Kept.grows (kept : Kept g s t) : Grows g env s t :=
  ⟨kept.released, fun r spared member => .inl (kept.spared r spared member)⟩

theorem Kept.andGrows {u : StopState} (first : Kept g s t) (second : Grows g env t u) : Grows g env s u :=
  ⟨fun r member => second.released r (first.released r member),
    fun r spared member => (second.spared r spared member).imp_left (first.spared r spared)⟩

theorem Grows.ofPhase {phase : Phase} (grows : Grows g env { s with phase := phase } t) : Grows g env s t :=
  ⟨grows.released, grows.spared⟩

/-- No ticket callback is released. -/
theorem Grows.tickets (grows : Grows g env s t) (idx : ℕ) (member : .encryptTicket idx ∈ t.released) :
    .encryptTicket idx ∈ s.released :=
  (grows.spared (.encryptTicket idx) trivial member).resolve_right fun disposed =>
    encryptTicket_not_thread g idx (mem_threadsDisposed.mp disposed).2.1

theorem anyM_alive (env : Environment) (workers : List ℕ) (s : StopState) :
    ((∀ worker ∈ workers, env (.isAlive worker) = .refused) ∧
      outcome (workers.anyM fun worker => ask env (.isAlive worker)) s = (.ok false, s)) ∨
    (¬ (∀ worker ∈ workers, env (.isAlive worker) = .refused) ∧
      (outcome (workers.anyM fun worker => ask env (.isAlive worker)) s = (.ok true, s) ∨
        ∃ e, outcome (workers.anyM fun worker => ask env (.isAlive worker)) s = (.error e, s))) := by
  induction workers with
  | nil => exact .inl ⟨fun _ member => absurd member List.not_mem_nil, rfl⟩
  | cons worker rest ih =>
    rw [List.anyM, outcome_bind, ask]
    cases answer : env (.isAlive worker) with
    | done => exact .inr ⟨by simp [answer], .inl rfl⟩
    | threw => exact .inr ⟨by simp [answer], .inr ⟨_, rfl⟩⟩
    | refused =>
      simp only [List.forall_mem_cons, answer, true_and]
      exact ih

/-- The join throws nothing and says whether all workers have ended. -/
theorem outcome_joinAll (g : GenerationState) (env : Environment) (s : StopState) :
    ∃ joined t, outcome (joinAll g env) s = (.ok joined, t) ∧ Kept g s t ∧
      (joined = true ↔ Joins g env) := by
  have joins := Frees.callAll (g := g) env g.workers .join (by simp) s
  unfold joinAll
  rw [outcome_tryCatch, outcome_bind]
  by_cases calm : ∀ worker ∈ g.workers, env (.join worker) ≠ .threw
  · obtain ⟨_, t, ended, kept, _⟩ := joins.completes calm
    rw [ended]
    simp only [outcome_bind]
    rcases anyM_alive env g.workers t with ⟨all, result⟩ | ⟨some, result | ⟨e, result⟩⟩
    · rw [result]
      exact ⟨true, t, rfl, kept, by simpa using ⟨calm, all⟩⟩
    · rw [result]
      refine ⟨false, t, rfl, kept, ?_⟩
      simpa using fun joins : Joins g env => some joins.ended
    · rw [result]
      refine ⟨false, t, rfl, kept, ?_⟩
      simpa using fun joins : Joins g env => some joins.ended
  · obtain ⟨e, t, thrown, kept⟩ := joins.throws calm
    rw [thrown]
    refine ⟨false, t, rfl, kept, ?_⟩
    simpa using fun joins : Joins g env => calm joins.joined

/-- The call gets from the phase `:running` or `:stopping` to the join. -/
structure Reaches (g : GenerationState) (env : Environment) (s : StopState) : Prop where
  phase : s.phase = .running ∨ s.phase = .stopping
  begins : s.phase = .running → Begins g env
  retires : Retires g env

/-- The phase and the failed retirements that a call of `stop!` leaves, and whether it
returns normally. -/
inductive StopEffect (g : GenerationState) (env : Environment) (s : StopState) :
    Except Thrown Unit → StopState → Prop
  | early {e : Thrown} {u : StopState} (before : s.phase = .running ∨ s.phase = .stopping)
      (not : ¬ Reaches g env s) (phase : u.phase = .running ∨ u.phase = .stopping)
      (failed : u.failedRetirements = s.failedRetirements) : StopEffect g env s (.error e) u
  | unjoined {u : StopState} (joining : Reaches g env s ∨ s.phase = .retirementFailed)
      (not : ¬ Joins g env) (phase : u.phase = .retirementFailed)
      (failed : u.failedRetirements = s.failedRetirements ++ [g.self]) :
      StopEffect g env s (.ok ()) u
  | slipped {e : Thrown} {u : StopState} (reaches : Reaches g env s) (joins : Joins g env)
      (not : ¬ TearsDown g env) (phase : u.phase = .retiring)
      (failed : u.failedRetirements = s.failedRetirements) : StopEffect g env s (.error e) u
  | again {e : Thrown} {u : StopState} (before : s.phase = .retirementFailed)
      (joins : Joins g env) (not : ¬ TearsDown g env) (phase : u.phase = .retirementFailed)
      (failed : u.failedRetirements = s.failedRetirements) : StopEffect g env s (.error e) u
  | tornDown {u : StopState} (joining : Reaches g env s ∨ s.phase = .retirementFailed)
      (joins : Joins g env) (tearsDown : TearsDown g env) (phase : u.phase = .stopped)
      (threads : Has (threadsDisposed g env) u)
      (failed : u.failedRetirements = s.failedRetirements.filter (· ≠ g.self)) :
      StopEffect g env s (.ok ()) u
  | nothing (before : s.phase = .retiring ∨ s.phase = .stopped) : StopEffect g env s (.ok ()) s

/-- What is released by the phase a generation is in. -/
structure Released (g : GenerationState) (s : StopState) : Prop where
  begun : s.phase ≠ .running → Has (beginResources g) s
  retired : s.phase ≠ .running → s.phase ≠ .stopping → Has (retireResources g) s
  tornDown : s.phase = .stopped → Has (tearDownResources g) s
  tickets : ∀ idx, .encryptTicket idx ∉ s.released

theorem Has.grows {L : List Resource} (has : Has L s) (grows : Grows g env s t) : Has L t :=
  fun r member => grows.released r (has r member)

/-- `begin-stop!` from the phase `:running`. -/
theorem outcome_beginStop (g : GenerationState) (env : Environment) (running : s.phase = .running) :
    (Begins g env ∧ ∃ t, outcome (beginStop g env) s = (.ok (), { t with phase := .stopping }) ∧
        Kept g s t ∧ Has (beginResources g) t) ∨
      (¬ Begins g env ∧ ∃ e t, outcome (beginStop g env) s = (.error e, t) ∧ Kept g s t) := by
  have calls := frees_shutDown g env s
  have unfolded : outcome (beginStop g env) s =
      outcome (shutDown g env >>= fun _ => setPhase .stopping) s := by
    rw [beginStop, outcome_bind, outcome_get]
    simp only [Program.when, if_pos running]
  rw [unfolded, outcome_bind]
  by_cases begins : Begins g env
  · obtain ⟨_, t, ended, kept, has⟩ := calls.completes begins
    refine .inl ⟨begins, t, ?_, kept, has⟩
    rw [ended]
    rfl
  · obtain ⟨e, t, thrown, kept⟩ := calls.throws begins
    refine .inr ⟨begins, e, t, ?_, kept⟩
    rw [thrown]

theorem outcome_beginStop_later (later : s.phase ≠ .running) :
    outcome (beginStop g env) s = (.ok (), s) := by
  rw [beginStop, outcome_bind, outcome_get]
  simp only [Program.when, if_neg later]
  rfl

/-- `stop!` from the join on. -/
inductive JoinEffect (g : GenerationState) (env : Environment) (s : StopState) :
    Except Thrown Unit → StopState → Prop
  | unjoined {u : StopState} (not : ¬ Joins g env) (phase : u.phase = .retirementFailed)
      (failed : u.failedRetirements = s.failedRetirements ++ [g.self]) :
      JoinEffect g env s (.ok ()) u
  | threw {e : Thrown} {u : StopState} (joins : Joins g env) (not : ¬ TearsDown g env)
      (phase : u.phase = s.phase) (failed : u.failedRetirements = s.failedRetirements) :
      JoinEffect g env s (.error e) u
  | tornDown {u : StopState} (joins : Joins g env) (tearsDown : TearsDown g env)
      (phase : u.phase = .stopped) (has : Has (tearDownResources g) u)
      (threads : Has (threadsDisposed g env) u)
      (failed : u.failedRetirements = s.failedRetirements.filter (· ≠ g.self)) :
      JoinEffect g env s (.ok ()) u

/-- The state once the workers' threads are known to have ended. -/
def StopState.joined (g : GenerationState) (env : Environment) (s : StopState) : StopState :=
  { s with released := threadsDisposed g env ++ s.released }

theorem joined_has (g : GenerationState) (env : Environment) (s : StopState) :
    Has (threadsDisposed g env) (s.joined g env) := fun _ => List.mem_append_left _

theorem joined_grows (kept : Kept g (s.joined g env) t) : Grows g env s t where
  released r member := kept.released r (List.mem_append_right _ member)
  spared r spared member := (List.mem_append.mp (kept.spared r spared member)).symm

theorem outcome_joinAndTearDown (g : GenerationState) (env : Environment) (s : StopState) :
    ∃ r t, outcome (joinAndTearDown g env) s = (r, t) ∧ JoinEffect g env s r t ∧ Grows g env s t := by
  obtain ⟨joined, t, result, kept, joins_iff⟩ := outcome_joinAll g env s
  unfold joinAndTearDown
  rw [outcome_bind, result]
  cases joined with
  | false =>
    have not : ¬ Joins g env := fun joins => Bool.false_ne_true (joins_iff.mpr joins)
    exact ⟨_, _, rfl, .unjoined not rfl (by rw [← kept.failed]), kept.released, kept.grows.spared⟩
  | true =>
    have joins := joins_iff.mp rfl
    have parts := frees_tearDown g env (t.joined g env)
    have noted : outcome (noteThreads g env) t = (.ok (), t.joined g env) := rfl
    simp only [if_true, outcome_bind, noted]
    by_cases tearsDown : TearsDown g env
    · obtain ⟨_, u, ended, later, has⟩ := parts.completes tearsDown
      have grows : Grows g env s u := kept.andGrows (joined_grows later)
      have threads := Has.mono g _ _ u later (joined_has g env t)
      have failed : u.failedRetirements = s.failedRetirements := later.failed.trans kept.failed
      rw [ended]
      exact ⟨_, _, rfl, .tornDown joins tearsDown rfl has threads (by rw [← failed]), grows.released,
        grows.spared⟩
    · obtain ⟨e, u, thrown, later⟩ := parts.throws tearsDown
      rw [thrown]
      exact ⟨_, _, rfl, .threw joins tearsDown (later.phase.trans kept.phase)
        (later.failed.trans kept.failed), kept.andGrows (joined_grows later)⟩

theorem outcome_stop_of_stopping (g : GenerationState) (env : Environment)
    (stopping : s.phase = .stopping) :
    (Retires g env ∧ ∃ u, Kept g s u ∧ Has (retireResources g) u ∧ outcome (stop g env) s =
        outcome (joinAndTearDown g env) { u with phase := .retiring }) ∨
      (¬ Retires g env ∧ ∃ e u, outcome (stop g env) s = (.error e, u) ∧ Kept g s u) := by
  have calls := frees_retireReceivers g env s
  have unfolded : outcome (stop g env) s = outcome (retireReceivers g env >>= fun _ =>
      setPhase .retiring >>= fun _ => joinAndTearDown g env) s := by
    rw [stop, outcome_bind, outcome_beginStop_later (by rw [stopping]; decide)]
    simp only [outcome_bind, outcome_get, Program.when, stopping, ne_eq, reduceCtorEq,
      not_false_eq_true, if_true, true_or]
    obtain ⟨r, u⟩ := outcome (retireReceivers g env) s
    cases r <;> rfl
  rw [unfolded, outcome_bind]
  by_cases retires : Retires g env
  · obtain ⟨_, u, ended, kept, has⟩ := calls.completes retires
    refine .inl ⟨retires, u, kept, has, ?_⟩
    rw [ended]
    rfl
  · obtain ⟨e, u, thrown, kept⟩ := calls.throws retires
    refine .inr ⟨retires, e, u, ?_, kept⟩
    rw [thrown]

theorem outcome_stop_of_begun (begun : outcome (beginStop g env) s = (.ok (), t)) (stopping : t.phase = .stopping) :
    outcome (stop g env) s = outcome (stop g env) t := by
  have later : outcome (beginStop g env) t = (.ok (), t) :=
    outcome_beginStop_later (by rw [stopping]; decide)
  rw [stop, outcome_bind, outcome_bind, begun, later]

theorem outcome_stop_of_failed (failed : s.phase = .retirementFailed) :
    outcome (stop g env) s = outcome (joinAndTearDown g env) s := by
  rw [stop, outcome_bind, outcome_beginStop_later (by rw [failed]; decide)]
  simp only [outcome_bind, outcome_get, Program.when, failed]
  rfl

theorem outcome_stop_of_ended (ended : s.phase = .retiring ∨ s.phase = .stopped) :
    outcome (stop g env) s = (.ok (), s) := by
  have later : s.phase ≠ .running := by
    rcases ended with phase | phase <;> rw [phase] <;> decide
  rw [stop, outcome_bind, outcome_beginStop_later later]
  rcases ended with phase | phase
  · simp [outcome_bind, Program.when, phase]
  · simp [outcome_bind, Program.when, phase]

/-- A call that gets to the join from the phase `:running` or `:stopping`. -/
theorem JoinEffect.reached {u : StopState} {r : Except Thrown Unit} (reaches : Reaches g env s)
    (kept : u.failedRetirements = s.failedRetirements)
    (moved : JoinEffect g env { u with phase := .retiring } r t) :
    StopEffect g env s r t := by
  cases moved with
  | unjoined not phase failed => exact .unjoined (.inl reaches) not phase (by rw [failed, ← kept])
  | threw joins not phase failed => exact .slipped reaches joins not phase (failed.trans kept)
  | tornDown joins tearsDown phase has threads failed =>
    exact .tornDown (.inl reaches) joins tearsDown phase threads (by rw [failed, ← kept])

theorem JoinEffect.released {r : Except Thrown Unit} (moved : JoinEffect g env s r t)
    (grows : Grows g env s t) (begun : Has (beginResources g) s) (retired : Has (retireResources g) s)
    (tickets : ∀ idx, .encryptTicket idx ∉ s.released) (before : s.phase ≠ .stopped) :
    Released g t where
  begun := fun _ => begun.grows grows
  retired := fun _ _ => retired.grows grows
  tornDown := by
    intro stopped
    cases moved with
    | unjoined not phase failed => cases phase.symm.trans stopped
    | threw joins not phase => exact absurd (phase.symm.trans stopped) before
    | tornDown joins tearsDown phase has => exact has
  tickets := fun idx member => tickets idx (grows.tickets idx member)

theorem stop_effect_of_stopping (env : Environment) (stopping : s.phase = .stopping)
    (h : Released g s) :
    ∃ r t, outcome (stop g env) s = (r, t) ∧ StopEffect g env s r t ∧ Released g t ∧
      Grows g env s t := by
  have not_running : s.phase ≠ .running := by
    rw [stopping]
    decide
  rcases outcome_stop_of_stopping g env stopping with
    ⟨retires, u, kept, has, result⟩ | ⟨not, e, u, result, kept⟩
  · have reaches : Reaches g env s :=
      ⟨.inr stopping, fun running => absurd running not_running, retires⟩
    obtain ⟨r, t, joined, moved, grows⟩ :=
      outcome_joinAndTearDown g env { u with phase := .retiring }
    have all : Grows g env s t := kept.andGrows grows.ofPhase
    refine ⟨r, t, result.trans joined, moved.reached reaches kept.failed, ?_, all⟩
    refine moved.released grows ?_ has ?_ nofun
    · exact fun r member => kept.released r (h.begun not_running r member)
    · exact fun idx member => h.tickets idx (kept.spared _ trivial member)
  · have early : ¬ Reaches g env s := fun reaches => not reaches.retires
    have phase := kept.phase.trans stopping
    have grows : Grows g env s u := kept.grows
    refine ⟨_, u, result, .early (.inr stopping) early (.inr phase) kept.failed, ?_, grows⟩
    refine ⟨fun _ => (h.begun not_running).grows grows,
      fun _ other => absurd phase other, ?_, ?_⟩
    · intro stopped
      cases phase.symm.trans stopped
    · exact fun idx member => h.tickets idx (kept.spared _ trivial member)

/-- The part of `stop!` after a `begin-stop!` that completed. -/
theorem StopEffect.begun {u : StopState} {r : Except Thrown Unit} (running : s.phase = .running)
    (begins : Begins g env) (stopping : u.phase = .stopping)
    (failed : u.failedRetirements = s.failedRetirements) (moved : StopEffect g env u r t) :
    StopEffect g env s r t := by
  have reaches : Reaches g env u ↔ Reaches g env s := by
    constructor
    · exact fun h => ⟨.inl running, fun _ => begins, h.retires⟩
    · exact fun h => ⟨.inr stopping, fun _ => begins, h.retires⟩
  have joining : Reaches g env u ∨ u.phase = .retirementFailed → Reaches g env s := by
    rintro (here | phase)
    · exact reaches.mp here
    · cases stopping.symm.trans phase
  cases moved with
  | early before not phase same =>
    exact .early (.inl running) (fun h => not (reaches.mpr h)) phase (same.trans failed)
  | unjoined here not phase same =>
    exact .unjoined (.inl (joining here)) not phase (by rw [same, failed])
  | slipped here joins not phase same =>
    exact .slipped (reaches.mp here) joins not phase (same.trans failed)
  | again before => cases stopping.symm.trans before
  | tornDown here joins tearsDown phase threads same =>
    exact .tornDown (.inl (joining here)) joins tearsDown phase threads (by rw [same, failed])
  | nothing before =>
    rcases before with before | before <;> cases stopping.symm.trans before

theorem stop_effect (env : Environment) (h : Released g s) : ∃ r t, outcome (stop g env) s = (r, t) ∧
    StopEffect g env s r t ∧ Released g t ∧ Grows g env s t := by
  cases phase : s.phase with
  | running =>
    rcases outcome_beginStop g env phase with
      ⟨begins, u, result, kept, has⟩ | ⟨not, e, u, result, kept⟩
    · have begun : Released g { u with phase := .stopping } := by
        refine ⟨fun _ => has, fun _ other => absurd rfl other, nofun, ?_⟩
        exact fun idx member => h.tickets idx (kept.spared _ trivial member)
      obtain ⟨r, t, stopped, moved, released, grows⟩ := stop_effect_of_stopping env rfl begun
      have effect : StopEffect g env s r t :=
        StopEffect.begun phase begins (by rfl) (by exact kept.failed) moved
      exact ⟨r, t, (outcome_stop_of_begun result rfl).trans stopped, effect, released,
        kept.andGrows grows.ofPhase⟩
    · have thrown : outcome (stop g env) s = (.error e, u) := by
        rw [stop, outcome_bind, result]
      have later := kept.phase.trans phase
      have early : ¬ Reaches g env s := fun reaches => not (reaches.begins phase)
      refine ⟨_, u, thrown, .early (.inl phase) early (.inl later) kept.failed, ?_, kept.grows⟩
      refine ⟨fun other => absurd later other, fun other => absurd later other, ?_, ?_⟩
      · intro stopped
        cases later.symm.trans stopped
      · exact fun idx member => h.tickets idx (kept.spared _ trivial member)
  | stopping => exact stop_effect_of_stopping env phase h
  | retiring =>
    exact ⟨_, s, outcome_stop_of_ended (.inl phase), .nothing (.inl phase), h, (Kept.refl g s).grows⟩
  | stopped =>
    exact ⟨_, s, outcome_stop_of_ended (.inr phase), .nothing (.inr phase), h, (Kept.refl g s).grows⟩
  | retirementFailed =>
    obtain ⟨r, t, joined, moved, grows⟩ := outcome_joinAndTearDown g env s
    refine ⟨r, t, (outcome_stop_of_failed phase).trans joined, ?_, ?_, grows⟩
    · cases moved with
      | unjoined not later failed => exact .unjoined (.inr phase) not later failed
      | threw joins not same failed => exact .again phase joins not (same.trans phase) failed
      | tornDown joins tearsDown later has threads failed =>
        exact .tornDown (.inr phase) joins tearsDown later threads failed
    · refine moved.released grows (h.begun ?_) (h.retired ?_ ?_) h.tickets ?_
      all_goals
        rw [phase]
        decide

/-- A generation is stopped with everything released, or recorded to be stopped again. -/
def Accounted (g : GenerationState) (s : StopState) : Prop :=
  s.phase = .stopped ∧ Has (owned g) s ∨ g.self ∈ s.failedRetirements

/-- Every call of `stop!` that returns normally accounts for the generation. -/
def NeverHalfTornDown (g : GenerationState) (ops : List Op) (s : StopState) : Prop :=
  ∀ before env after t, ops = before ++ .stop env :: after →
    outcome (stop g env) (afterCalls g before s) = (.ok (), t) → Accounted g t

/-- The call finds the workers joined on its way from the phase `:running` or `:stopping`,
and throws after that. -/
def Slips (g : GenerationState) (env : Environment) (s : StopState) : Prop :=
  Reaches g env s ∧ Joins g env ∧ ¬ TearsDown g env

/-- The call finds the workers joined and throws nowhere. -/
def Finishes (g : GenerationState) (env : Environment) (s : StopState) : Prop :=
  (Reaches g env s ∨ s.phase = .retirementFailed) ∧ Joins g env ∧ TearsDown g env

/-- What the workers' threads hold they have disposed of when the call finds them ended. -/
def Disposes (g : GenerationState) (env : Environment) (s : StopState) : Prop :=
  ∀ r ∈ threadResources g, r ∈ s.released ∨ r ∈ threadsDisposed g env

/-- No call of `stop!` follows one that slipped, and none finishes if there are ticket
callbacks or a thread has not disposed of what it held. -/
def Resumable (g : GenerationState) (ops : List Op) (s : StopState) : Prop :=
  ∀ before env after, ops = before ++ .stop env :: after →
    (Slips g env (afterCalls g before s) → ∀ later, .stop later ∉ after) ∧
    (Finishes g env (afterCalls g before s) →
      encryptTickets g = [] ∧ Disposes g env (afterCalls g before s))

/-- What holds between calls. -/
structure Sound (g : GenerationState) (s : StopState) : Prop where
  released : Released g s
  failed : g.self ∈ s.failedRetirements ↔ s.phase = .retirementFailed

theorem StopEffect.failed {r : Except Thrown Unit} (moved : StopEffect g env s r t)
    (h : g.self ∈ s.failedRetirements ↔ s.phase = .retirementFailed) :
    g.self ∈ t.failedRetirements ↔ t.phase = .retirementFailed := by
  have untouched : ∀ u : StopState, u.failedRetirements = s.failedRetirements →
      s.phase ≠ .retirementFailed → u.phase ≠ .retirementFailed →
      (g.self ∈ u.failedRetirements ↔ u.phase = .retirementFailed) := by
    intro u same before after
    rw [same, h]
    exact ⟨fun phase => absurd phase before, fun phase => absurd phase after⟩
  cases moved with
  | early before not phase same =>
    apply untouched t same
    · rcases before with before | before <;> rw [before] <;> decide
    · rcases phase with phase | phase <;> rw [phase] <;> decide
  | unjoined _ _ phase same => simp [phase, same]
  | slipped reaches _ _ phase same =>
    apply untouched t same
    · rcases reaches.phase with before | before <;> rw [before] <;> decide
    · rw [phase]
      decide
  | again before _ _ phase same => rw [same, h, before, phase]
  | tornDown _ _ _ phase _ same => simp [phase, same]
  | nothing => exact h

/-- What `begin-stop!` alone leaves. -/
theorem beginStop_effect (env : Environment) (h : Sound g s) : Sound g (outcome (beginStop g env) s).2 ∧
    ((outcome (beginStop g env) s).2 = s ∨ s.phase = .running ∧
      ((outcome (beginStop g env) s).2.phase = .running ∨
        (outcome (beginStop g env) s).2.phase = .stopping)) := by
  by_cases running : s.phase = .running
  · have not_failed : g.self ∉ s.failedRetirements := by
      rw [h.failed, running]
      decide
    rcases outcome_beginStop g env running with
      ⟨_, u, result, kept, has⟩ | ⟨_, e, u, result, kept⟩
    · rw [result]
      refine ⟨⟨⟨fun _ => has, fun _ other => absurd rfl other, nofun, ?_⟩, ?_⟩,
        .inr ⟨running, .inr rfl⟩⟩
      · exact fun idx member => h.released.tickets idx (kept.spared _ trivial member)
      · exact ⟨fun member => absurd (kept.failed ▸ member) not_failed, nofun⟩
    · rw [result]
      have phase := kept.phase.trans running
      refine ⟨⟨⟨fun other => absurd phase other, fun other => absurd phase other, ?_, ?_⟩, ?_⟩,
        .inr ⟨running, .inl phase⟩⟩
      · intro stopped
        cases phase.symm.trans stopped
      · exact fun idx member => h.released.tickets idx (kept.spared _ trivial member)
      · rw [kept.failed, kept.phase]
        exact h.failed
  · rw [outcome_beginStop_later running]
    exact ⟨h, .inl rfl⟩

theorem afterCalls_concat (ops : List Op) (op : Op) :
    afterCalls g (ops ++ [op]) s = (outcome (op.program g) (afterCalls g ops s)).2 := by
  simp [afterCalls]

/-- How a generation comes to be stuck, or stopped. -/
structure Explained (g : GenerationState) (ops : List Op) (s : StopState) : Prop where
  sound : Sound g (afterCalls g ops s)
  retiring : (afterCalls g ops s).phase = .retiring → ∃ before env after,
    ops = before ++ .stop env :: after ∧ Slips g env (afterCalls g before s)
  stopped : (afterCalls g ops s).phase = .stopped → ∃ before env after,
    ops = before ++ .stop env :: after ∧ Finishes g env (afterCalls g before s)

/-- A generation that nobody has begun to stop. -/
structure Fresh (g : GenerationState) (s : StopState) : Prop where
  running : s.phase = .running
  unrecorded : g.self ∉ s.failedRetirements
  unreleased : s.released = []

theorem Fresh.sound (fresh : Fresh g s) : Sound g s where
  released := by
    refine ⟨fun other => absurd fresh.running other, fun other => absurd fresh.running other, ?_, ?_⟩
    · intro stopped
      cases fresh.running.symm.trans stopped
    · rw [fresh.unreleased]
      exact fun _ => List.not_mem_nil
  failed := by
    rw [fresh.running]
    exact ⟨fun member => absurd member fresh.unrecorded, nofun⟩

theorem explained_of_fresh (fresh : Fresh g s) (ops : List Op) : Explained g ops s := by
  induction ops using List.reverseRecOn with
  | nil =>
    refine ⟨fresh.sound, fun phase => ?_, fun phase => ?_⟩ <;>
      cases fresh.running.symm.trans phase
  | append_singleton ops op ih =>
    have earlier : ∀ P : Environment → StopState → Prop,
        (∃ before env after, ops = before ++ .stop env :: after ∧ P env (afterCalls g before s)) →
        ∃ before env after, ops ++ [op] = before ++ .stop env :: after ∧
          P env (afterCalls g before s) := by
      rintro P ⟨before, env, after, rfl, holds⟩
      exact ⟨before, env, after ++ [op], by simp, holds⟩
    cases op with
    | beginStop env =>
      have step := beginStop_effect env ih.sound
      constructor
      · rw [afterCalls_concat]
        exact step.1
      · intro phase
        rw [afterCalls_concat] at phase
        apply earlier
        rcases step.2 with same | ⟨_, other | other⟩
        · exact ih.retiring ((congrArg StopState.phase same).symm.trans phase)
        · cases phase.symm.trans other
        · cases phase.symm.trans other
      · intro phase
        rw [afterCalls_concat] at phase
        apply earlier
        rcases step.2 with same | ⟨_, other | other⟩
        · exact ih.stopped ((congrArg StopState.phase same).symm.trans phase)
        · cases phase.symm.trans other
        · cases phase.symm.trans other
    | stop env =>
      obtain ⟨r, t, result, moved, released, -⟩ := stop_effect env ih.sound.released
      have now : afterCalls g (ops ++ [.stop env]) s = t := by
        rw [afterCalls_concat, Op.program, result]
      constructor
      · rw [now]
        exact ⟨released, moved.failed ih.sound.failed⟩
      · intro phase
        rw [now] at phase
        cases moved with
        | slipped reaches joins not => exact ⟨ops, env, [], rfl, reaches, joins, not⟩
        | nothing => exact earlier _ (ih.retiring phase)
        | early _ _ other => rcases other with other | other <;> cases phase.symm.trans other
        | unjoined _ _ other => cases phase.symm.trans other
        | again _ _ _ other => cases phase.symm.trans other
        | tornDown _ _ _ other => cases phase.symm.trans other
      · intro phase
        rw [now] at phase
        cases moved with
        | tornDown joining joins tearsDown => exact ⟨ops, env, [], rfl, joining, joins, tearsDown⟩
        | nothing => exact earlier _ (ih.stopped phase)
        | early _ _ other => rcases other with other | other <;> cases phase.symm.trans other
        | unjoined _ _ other => cases phase.symm.trans other
        | again _ _ _ other => cases phase.symm.trans other
        | slipped _ _ _ other => cases phase.symm.trans other

/-- A generation in the phase `:retiring` or `:stopped` between calls stays as it is. -/
theorem afterCalls_stuck (stuck : s.phase = .retiring ∨ s.phase = .stopped) (ops : List Op) :
    afterCalls g ops s = s := by
  induction ops with
  | nil => rfl
  | cons op rest ih =>
    have same : (outcome (op.program g) s).2 = s := by
      cases op with
      | beginStop env =>
        rw [Op.program, outcome_beginStop_later (by rcases stuck with stuck | stuck <;> simp [stuck])]
      | stop env => rw [Op.program, outcome_stop_of_ended stuck]
    show afterCalls g rest (outcome (op.program g) s).2 = s
    rw [same, ih]

theorem afterCalls_append (first rest : List Op) :
    afterCalls g (first ++ rest) s = afterCalls g rest (afterCalls g first s) := by
  simp [afterCalls]

theorem Sound.has_owned (h : Sound g s) (stopped : s.phase = .stopped) (none : encryptTickets g = [])
    (threads : Has (threadResources g) s) : Has (owned g) s := by
  intro r member
  rw [Generation.owned, none, List.append_nil] at member
  rcases List.mem_append.mp member with member | member
  swap
  · exact threads r member
  rcases List.mem_append.mp member with member | member
  · rcases List.mem_append.mp member with member | member
    · exact h.released.begun (by rw [stopped]; decide) r member
    · exact h.released.retired (by rw [stopped]; decide) (by rw [stopped]; decide) r member
  · exact h.released.tornDown stopped r member

theorem Sound.not_owned (h : Sound g s) (some : encryptTickets g ≠ []) : ¬ Has (owned g) s := by
  intro has
  obtain ⟨r, member⟩ := List.exists_mem_of_ne_nil _ some
  obtain ⟨idx, inside, rfl⟩ := List.mem_map.mp member
  exact h.released.tickets idx (has _ (List.mem_append_left _ (List.mem_append_right _ member)))

/-- A call that gets to the end leaves what the threads hold to the threads. -/
theorem StopEffect.has_threads (moved : StopEffect g env s (.ok ()) t) (grows : Grows g env s t)
    (finishes : Finishes g env s) : Has (threadResources g) t ↔ Disposes g env s := by
  have threads : Has (threadsDisposed g env) t := by
    obtain ⟨joining, joins, -⟩ := finishes
    cases moved with
    | unjoined _ other => exact absurd joins other
    | tornDown _ _ _ _ threads => exact threads
    | nothing ended =>
      rcases joining with reaches | failed
      · rcases ended with ended | ended <;> rcases reaches.phase with phase | phase <;>
          cases ended.symm.trans phase
      · rcases ended with ended | ended <;> cases ended.symm.trans failed
  constructor
  · exact fun has r member => grows.spared r (spared_of_thread member) (has r member)
  · exact fun disposes r member => (disposes r member).elim (grows.released r) (threads r)

theorem StopEffect.of_slips {r : Except Thrown Unit} (moved : StopEffect g env s r t)
    (slips : Slips g env s) : t.phase = .retiring := by
  obtain ⟨reaches, joins, not⟩ := slips
  cases moved with
  | early _ other => exact absurd reaches other
  | unjoined _ other => exact absurd joins other
  | slipped _ _ _ phase => exact phase
  | again before => rcases reaches.phase with phase | phase <;> cases before.symm.trans phase
  | tornDown _ _ tearsDown => exact absurd tearsDown not
  | nothing before =>
    rcases before with before | before <;> rcases reaches.phase with phase | phase <;>
      cases before.symm.trans phase

theorem StopEffect.of_finishes {r : Except Thrown Unit} (moved : StopEffect g env s r t)
    (finishes : Finishes g env s) : r = .ok () ∧ t.phase = .stopped := by
  obtain ⟨joining, joins, tearsDown⟩ := finishes
  have before : s.phase = .running ∨ s.phase = .stopping ∨ s.phase = .retirementFailed := by
    rcases joining with reaches | failed
    · exact reaches.phase.imp_right .inl
    · exact .inr (.inr failed)
  cases moved with
  | early phase other =>
    rcases joining with reaches | failed
    · exact absurd reaches other
    · rcases phase with phase | phase <;> cases failed.symm.trans phase
  | unjoined _ other => exact absurd joins other
  | slipped _ _ not => exact absurd tearsDown not
  | again _ _ not => exact absurd tearsDown not
  | tornDown _ _ _ phase => exact ⟨rfl, phase⟩
  | nothing ended =>
    rcases ended with ended | ended <;> rcases before with phase | phase | phase <;>
      cases ended.symm.trans phase

/-- Exactly when no call of `stop!` returns normally and leaves a generation half torn
down: no call of `stop!` is made after one that threw past the join, and if the
generation has ticket callbacks, or a thread has ended and left something, no call gets to the
end. -/
theorem neverHalfTornDown_iff (g : GenerationState) (s : StopState) (fresh : Fresh g s)
    (ops : List Op) : NeverHalfTornDown g ops s ↔ Resumable g ops s := by
  constructor
  · intro holds before env after split
    have known := (explained_of_fresh fresh before).sound
    obtain ⟨r, t, result, moved, released, grows⟩ := stop_effect env known.released
    have failed := moved.failed known.failed
    constructor
    · intro slips later member
      have stuck := moved.of_slips slips
      obtain ⟨between, rest, rfl⟩ := List.append_of_mem member
      have here : afterCalls g (before ++ .stop env :: between) s = t := by
        rw [afterCalls_append]
        show afterCalls g between (outcome (stop g env) (afterCalls g before s)).2 = t
        rw [result, afterCalls_stuck (.inl stuck)]
      have accounted := holds (before ++ .stop env :: between) later rest t (by rw [split]; simp)
        (by rw [here, outcome_stop_of_ended (.inl stuck)])
      rcases accounted with ⟨stopped, _⟩ | recorded
      · cases stuck.symm.trans stopped
      · cases stuck.symm.trans (failed.mp recorded)
    · intro finishes
      obtain ⟨rfl, stopped⟩ := moved.of_finishes finishes
      rcases holds before env after t split result with ⟨_, has⟩ | recorded
      · refine ⟨?_, (moved.has_threads grows finishes).mp fun r member => has r (List.mem_append_right _ member)⟩
        by_contra tickets
        exact (Sound.mk released failed).not_owned tickets has
      · cases stopped.symm.trans (failed.mp recorded)
  · intro resumable before env after t split result
    have known := explained_of_fresh fresh before
    obtain ⟨r, u, stopped, moved, released, grows⟩ := stop_effect env known.sound.released
    obtain ⟨rfl, rfl⟩ := Prod.mk.inj (result.symm.trans stopped)
    have sound : Sound g t := ⟨released, moved.failed known.sound.failed⟩
    cases moved with
    | unjoined _ _ _ failed => exact .inr (by rw [failed]; simp)
    | tornDown joining joins tearsDown phase threads failed =>
      have finishes : Finishes g env (afterCalls g before s) := ⟨joining, joins, tearsDown⟩
      obtain ⟨none, disposes⟩ := (resumable before env after split).2 finishes
      have moved : StopEffect g env (afterCalls g before s) (.ok ()) t :=
        .tornDown joining joins tearsDown phase threads failed
      exact .inl ⟨phase, sound.has_owned phase none ((moved.has_threads grows finishes).mpr disposes)⟩
    | nothing ended =>
      rcases ended with retiring | phase
      · obtain ⟨first, earlier, between, rfl, slips⟩ := known.retiring retiring
        have last := (resumable first earlier (between ++ .stop env :: after)
          (by rw [split]; simp)).1 slips env
        exact absurd (by simp) last
      · obtain ⟨first, earlier, between, rfl, finishes⟩ := known.stopped phase
        obtain ⟨none, disposes⟩ := (resumable first earlier (between ++ .stop env :: after)
          (by rw [split]; simp)).2 finishes
        obtain ⟨r, u, ended, moved, -, grows⟩ :=
          stop_effect earlier (explained_of_fresh fresh first).sound.released
        obtain ⟨rfl, stopped⟩ := moved.of_finishes finishes
        have same : afterCalls g (first ++ .stop earlier :: between) s = u := by
          rw [afterCalls_append]
          show afterCalls g between (outcome (stop g earlier) (afterCalls g first s)).2 = u
          rw [ended, afterCalls_stuck (.inr stopped)]
        have threads := (moved.has_threads grows finishes).mpr disposes
        exact .inl ⟨phase, sound.has_owned phase none (same ▸ threads)⟩

/-- A generation of one worker with a notifier, an arena and a listener of its own. -/
def oneWorker : GenerationState where
  self := 7
  handlerPtr := true
  keyManager := false
  executor := true
  workers := [0]
  wakeupReceivers := [true]
  responseReceivers := [true]
  wakeNotifier := true
  wakeNotifierOwned := some true
  closeCallbackExecutor := true
  http3Contexts := []
  nativeTicketMgr := false
  loops := 1
  contexts := 1
  http3WorkerContexts := [[false]]
  configPtr := true
  sslCtxPtrs := [false]
  bufferPool := true
  listenerClaims := 1
  arena := true

def running : StopState := ⟨.running, [], []⟩

theorem fresh_running : Fresh oneWorker running := ⟨rfl, List.not_mem_nil, rfl⟩

/-- Every call does what it is asked, and no worker is left. -/
def calm : Environment
  | .isAlive _ => .refused
  | _ => .done

/-- The same with one answer changed. -/
def except (call : Call) (answer : Answer) : Environment :=
  fun c => if c = call then answer else calm c

/-- The join is interrupted, and the next call of `stop!` finishes. -/
theorem interruptedJoin_neverHalfTornDown :
    NeverHalfTornDown oneWorker [.stop (except (.join 0) .threw), .stop calm] running := by
  apply (neverHalfTornDown_iff oneWorker running fresh_running _).mpr
  intro before env after split
  constructor
  swap
  · refine fun _ => ⟨rfl, fun r member => .inr (mem_threadsDisposed.mpr ⟨by decide, member, ?_⟩)⟩
    rcases before with _ | ⟨first, _ | ⟨second, rest⟩⟩
    · cases split
      rfl
    · cases split
      rfl
    · cases rest <;> cases split
  rintro ⟨_, joins, not⟩
  rcases before with _ | ⟨first, _ | ⟨second, rest⟩⟩
  · cases split
    exact absurd rfl (joins.joined 0 (List.mem_singleton_self 0))
  · cases split
    exact fun later => List.not_mem_nil
  · cases rest <;> cases split

/-- The notifier does not stop in time, `stop!` throws, and the next call returns with
nothing done. -/
theorem stuckNotifier_halfTornDown : ¬ NeverHalfTornDown oneWorker
    [.stop (except (.release .wakeNotifier) .refused), .stop calm] running := by
  intro holds
  rcases holds [.stop (except (.release .wakeNotifier) .refused)] calm [] _ rfl rfl with
    ⟨stopped, _⟩ | recorded
  · exact absurd stopped (by decide)
  · exact absurd recorded (by decide)

end Busker.Generation
