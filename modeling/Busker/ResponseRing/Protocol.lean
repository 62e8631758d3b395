import Busker.ResponseRing.Effects
import Busker.Interleaving.Exclusive
import Busker.Interleaving.Machine

/-! The slot protocol of the response ring: any number of claimants, one draining
thread, and a caller of `clj_h2o_mt_response_pending`, interleaved freely.
The pending count is read as its source writes it, `ring_claimed` and then
`ring_ready`, two loads with anything in between. -/

namespace Busker.ResponseRing

open Interleaving

/-- The caller of `clj_h2o_mt_response_pending`. After its first load it keeps what
it read; `quiet` records that no claim call has been in progress since. -/
inductive Observer
  | idle
  | loaded (claimed : ℕ) (quiet : Bool)
  deriving DecidableEq

structure State (g : Geometry) (ι : Type*) where
  ring : Receiver g
  claimants : ι → Claimant g
  drainer : Drainer g
  observer : Observer

inductive Action (ι : Type*)
  | claimant (i : ι) (move : Move)
  | drainer (move : DrainMove)
  | observe
  | closeAdmission

variable {g : Geometry} {ι : Type*}

/-- A claim call that starts now is seen by the observer. -/
def Observer.see (o : Observer) (starts : Bool) : Observer :=
  match o with
  | .idle => .idle
  | .loaded claimed quiet => .loaded claimed (quiet && !starts)

def step [Fintype ι] [DecidableEq ι] : Action ι → State g ι → Option (State g ι)
  | .claimant i move, s =>
    (claimantStep s.ring (s.claimants i) move).map fun (r, p) =>
      { s with
        ring := r
        claimants := Function.update s.claimants i p
        observer := s.observer.see p.claiming }
  | .drainer move, s =>
    (drainerStep s.ring s.drainer move).map fun (r, d) => { s with ring := r, drainer := d }
  | .observe, s =>
    match s.observer with
    | .idle =>
      some { s with
        observer := .loaded s.ring.ringClaimed (decide (∀ i, (s.claimants i).claiming = false)) }
    | .loaded _ _ => some { s with observer := .idle }
  | .closeAdmission, s => some { s with ring := { s.ring with acceptsResponses := false } }

def machine (g : Geometry) (ι : Type*) [Fintype ι] [DecidableEq ι] :
    Machine (State g ι) (Action ι) where
  init s := s.ring.Fresh ∧ (∀ i, s.claimants i = .idle) ∧ s.drainer = .idle ∧ s.observer = .idle
  step := step

/-- What `clj_h2o_mt_response_pending` returns if its second load is taken now. That
`ring_claimed` is loaded before `ring_ready` is an assumption on the compiler: C leaves the
order of the operands of `+` to it. -/
def pendingResult (s : State g ι) : Option ℕ :=
  match s.observer with
  | .idle => none
  | .loaded claimed _ => some (claimed + s.ring.ringReady)

/-- Who owns which slot. -/
structure Owned (s : State g ι) : Prop where
  exclusive : Exclusive fun i => (s.claimants i).slot
  claimed : ∀ t, s.ring.state t = .claimed ↔ ∃ i, (s.claimants i).slot = some t
  draining : ∀ t, s.ring.state t = .draining ↔ s.drainer.slot = some t
  ticketed : ∀ i, (s.claimants i).Ticketed s.ring

theorem Owned.sound {s : State g ι} (h : Owned s) (i : ι) : (s.claimants i).Sound s.ring :=
  ⟨fun t ht => (h.claimed t).mpr ⟨i, ht⟩, h.ticketed i⟩

theorem Owned.drainer {s : State g ι} (h : Owned s) (t : Fin g.capacity)
    (ht : s.drainer.slot = some t) : s.ring.state t = .draining := (h.draining t).mpr ht

/-- A ticket is not disturbed by writes to other slots. -/
theorem Claimant.Ticketed.frame {r r' : Receiver g} {p : Claimant g} (h : p.Ticketed r)
    (data : ∀ t, p.slot = some t → r'.data t = r.data t) : p.Ticketed r' := by
  cases p <;> simp only [Claimant.Ticketed, Claimant.slot] at *
  case stamp => exact h
  case count | publishReady | publishState | publishUndo =>
    exact ⟨h.1, h.2.1, by rw [data _ rfl]; exact h.2.2⟩
  case holding | publish | refused | abort =>
    obtain ⟨nonzero, i, named, token⟩ := h
    exact ⟨nonzero, i, named, by rw [data i named]; exact token⟩

theorem setState_state (r : Receiver g) (i t : Fin g.capacity) (x : SlotState) :
    (r.setState i x).state t = if t = i then x else r.state t := Function.update_apply ..

variable {s t : State g ι} {i : ι}

theorem Owned.not_claimed (h : Owned s) {k : Fin g.capacity} (hk : s.ring.state k ≠ .claimed)
    (j : ι) : (s.claimants j).slot ≠ some k := fun e => hk ((h.claimed k).mpr ⟨j, e⟩)

/-- A claimant moves: its holding, its slot's state and its ticket follow. -/
theorem Owned.claimant [DecidableEq ι] (h : Owned s) {r : Receiver g} {q : Claimant g}
    (spec : ClaimantSpec s.ring r (s.claimants i) q) (o : Observer) :
    Owned { s with ring := r, claimants := Function.update s.claimants i q, observer := o } := by
  have ticketed : ∀ j, (Function.update s.claimants i q j).Ticketed r := by
    intro j
    by_cases hj : j = i
    · subst hj
      rw [Function.update_self]
      exact spec.ticketed
    · rw [Function.update_of_ne hj]
      exact (h.ticketed j).frame fun k hk => spec.data k fun own => hj (h.exclusive hk own)
  have holders : ∀ {P : Option (Fin g.capacity) → Prop},
      (∃ j, P ((Function.update s.claimants i q j).slot)) ↔
        ∃ j, P (Function.update (fun j => (s.claimants j).slot) i q.slot j) := fun {P} =>
    exists_congr fun j => by
      rw [← congrFun (held_update Claimant.slot s.claimants i q) j]
  cases spec.effect with
  | keep state slot numbered occupant sequence history =>
    have same := held_update_same slot
    refine ⟨by simpa only [same] using h.exclusive, fun k => ?_, fun k => ?_, ticketed⟩
    · rw [state, h.claimed k]
      exact exists_congr fun j => by rw [← congrFun same j]
    · rw [state]
      exact h.draining k
  | acquire k was moves before slot numbered =>
    subst moves
    refine ⟨?_, fun l => ?_, fun l => ?_, ticketed⟩
    · simpa only [held_update, slot] using
        h.exclusive.acquire (h.not_claimed (by simp [was]))
    · rw [holders (P := (· = some l)), slot,
        held_acquire (fun j => (s.claimants j).slot) before, ← h.claimed l, setState_state]
      by_cases hl : l = k <;> simp [hl]
    · rw [setState_state, ← h.draining l]
      by_cases hl : l = k <;> simp [hl, was]
  | number k before unnumbered slot numbered moves =>
    subst moves
    have same := held_update_same (slot.trans before.symm)
    refine ⟨by simpa only [same] using h.exclusive, fun l => ?_, h.draining, ticketed⟩
    exact (h.claimed l).trans (exists_congr fun j => by rw [← congrFun same j])
  | publish k before numbered moves slot unnumbered
  | abort k before numbered moves slot unnumbered =>
    subst moves
    have own := (h.claimed k).mpr ⟨i, before⟩
    refine ⟨?_, fun l => ?_, fun l => ?_, ticketed⟩
    · simpa only [held_update, slot] using h.exclusive.release i
    · rw [holders (P := (· = some l)), slot, h.exclusive.held_release before, ← h.claimed l]
      simp only [Receiver.publish, Receiver.abort, setState_state]
      by_cases hl : l = k <;> simp [hl]
    · simp only [Receiver.publish, Receiver.abort, setState_state, ← h.draining l]
      by_cases hl : l = k <;> simp [hl, own]

theorem Owned.drains (h : Owned s) {r : Receiver g} {d : Drainer g}
    (spec : DrainerSpec s.ring r s.drainer d) : Owned { s with ring := r, drainer := d } := by
  have ticketed : ∀ j, (s.claimants j).Ticketed r := fun j =>
    (h.ticketed j).frame fun k _ => congrFun spec.data k
  cases spec.effect with
  | keep state slot published aborted drained issued =>
    refine ⟨h.exclusive, fun k => ?_, fun k => ?_, ticketed⟩
    · rw [state]
      exact h.claimed k
    · rw [state, slot]
      exact h.draining k
  | begin k was moves before slot =>
    subst moves
    refine ⟨h.exclusive, fun l => ?_, fun l => ?_, ticketed⟩
    · rw [← h.claimed l, setState_state]
      by_cases hl : l = k <;> simp [hl, was]
    · have idle := h.draining l
      rw [before] at idle
      rw [setState_state, slot]
      by_cases hl : l = k
      · simp [hl]
      · simpa [hl, Ne.symm hl] using idle
  | drain k before moves slot =>
    subst moves
    have own := h.drainer k before
    refine ⟨h.exclusive, fun l => ?_, fun l => ?_, ticketed⟩
    · rw [← h.claimed l]
      simp only [Receiver.drain, setState_state]
      by_cases hl : l = k <;> simp [hl, own]
    · have mine := h.draining l
      rw [before] at mine
      simp only [Receiver.drain, setState_state, slot]
      by_cases hl : l = k
      · simp [hl]
      · simpa [hl, Ne.symm hl] using mine

/-- What a step of the machine is, as contracts of its parts. -/
inductive StepSpec [DecidableEq ι] (s : State g ι) : Action ι → State g ι → Prop
  | claimant (i : ι) (move : Move) (r : Receiver g) (q : Claimant g)
      (moves : claimantStep s.ring (s.claimants i) move = some (r, q))
      (spec : ClaimantSpec s.ring r (s.claimants i) q) :
      StepSpec s (.claimant i move)
        { s with
          ring := r
          claimants := Function.update s.claimants i q
          observer := s.observer.see q.claiming }
  | drainer (move : DrainMove) (r : Receiver g) (d : Drainer g)
      (spec : DrainerSpec s.ring r s.drainer d) :
      StepSpec s (.drainer move) { s with ring := r, drainer := d }
  | load (quiet : Bool) (idle : s.observer = .idle)
      (all : quiet = true → ∀ i, (s.claimants i).claiming = false) :
      StepSpec s .observe { s with observer := .loaded s.ring.ringClaimed quiet }
  | answer : StepSpec s .observe { s with observer := .idle }
  | close : StepSpec s .closeAdmission { s with ring := { s.ring with acceptsResponses := false } }

variable [Fintype ι] [DecidableEq ι]

theorem Owned.step_spec {a : Action ι} (h : Owned s) (moves : step a s = some t) :
    StepSpec s a t := by
  cases a with
  | claimant i move =>
    obtain ⟨⟨r, q⟩, first, rfl⟩ := Option.map_eq_some_iff.mp moves
    exact .claimant i move r q first (claimant_spec (h.sound i) first)
  | drainer move =>
    obtain ⟨⟨r, d⟩, first, rfl⟩ := Option.map_eq_some_iff.mp moves
    exact .drainer move r d (drainer_spec h.drainer first)
  | observe =>
    simp only [step] at moves
    split at moves <;> obtain rfl := Option.some.inj moves
    · exact .load _ ‹_› fun quiet => of_decide_eq_true quiet
    · exact .answer
  | closeAdmission =>
    obtain rfl := Option.some.inj moves
    exact .close

theorem Owned.init (h : (machine g ι).init s) : Owned s := by
  obtain ⟨⟨free, -⟩, idle, rest, -⟩ := h
  refine ⟨?_, fun k => ?_, fun k => ?_, fun i => ?_⟩ <;>
    simp [Exclusive, Claimant.slot, Claimant.Ticketed, Drainer.slot, free, idle, rest]

theorem Owned.step {a : Action ι} (h : Owned s) (moves : step a s = some t) : Owned t := by
  cases h.step_spec moves with
  | claimant i move r q _ spec => exact h.claimant spec _
  | drainer move r d spec => exact h.drains spec
  | load | answer | close => exact ⟨h.exclusive, h.claimed, h.draining, h.ticketed⟩

theorem owned_of_reachable (h : (machine g ι).Reachable s) : Owned s :=
  h.invariant (fun _ => Owned.init) fun _ _ _ hs => hs.step

end Busker.ResponseRing
