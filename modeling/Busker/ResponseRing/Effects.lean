import Busker.ResponseRing.Shim
import Busker.Interleaving.Census

/-! What one atomic step of the response ring can do, said once. A step either
keeps every slot, or is one of the events of a slot's life: acquire, number,
publish, abort, start draining, drain. -/

namespace Busker.ResponseRing

open Interleaving

variable {g : Geometry} {r r' : Receiver g} {p q : Claimant g}

namespace Claimant

/-- The slot a claimant owns. -/
def slot : Claimant g → Option (Fin g.capacity)
  | .reset i | .sequence i | .stamp i _ | .count i _ => some i
  | .publishReady i _ | .publishState i _ | .publishUndo i _ | .abortState i => some i
  | .holding handle | .publish handle | .refused handle | .abort handle => decodeHandle g handle
  | .idle | .enter | .cursor | .attempt _ _ | .publishClaimed _ | .abortClaimed _ => none

/-- Inside `clj_h2o_response_try_claim`. -/
def claiming : Claimant g → Bool
  | .enter | .cursor | .attempt _ _ | .reset _ | .sequence _ | .stamp _ _ | .count _ _ => true
  | _ => false

/-- The claim it owns has its number. -/
def numbered : Claimant g → Bool
  | .idle | .enter | .cursor | .attempt _ _ | .reset _ | .sequence _ => false
  | .publishClaimed _ | .abortClaimed _ => false
  | _ => true

/-- The claim handle it carries from call to call. -/
def handle : Claimant g → Option ℕ
  | .stamp _ handle | .count _ handle | .publishReady _ handle | .publishState _ handle => some handle
  | .publishUndo _ handle | .holding handle | .publish handle | .refused handle => some handle
  | .abort handle => some handle
  | _ => none

/-- What it still has to take off `ring_claimed`. -/
def claimedWeight : Claimant g → ℕ
  | .holding _ | .publish _ | .publishReady _ _ | .publishState _ _ | .publishUndo _ _ => 1
  | .publishClaimed _ | .refused _ | .abort _ | .abortState _ | .abortClaimed _ => 1
  | _ => 0

/-- What it has put on `ring_ready` before its slot is READY. -/
def readyWeight : Claimant g → ℕ
  | .publishState _ _ | .publishUndo _ _ => 1
  | _ => 0

/-- Handles name the slot their holder owns, and the slot carries them. -/
def Ticketed (r : Receiver g) : Claimant g → Prop
  | .stamp i handle => handle ≠ 0 ∧ decodeHandle g handle = some i
  | .count i handle | .publishReady i handle | .publishState i handle | .publishUndo i handle =>
    handle ≠ 0 ∧ decodeHandle g handle = some i ∧ (r.data i).claimToken = handle
  | .holding handle | .publish handle | .refused handle | .abort handle =>
    handle ≠ 0 ∧ ∃ i, decodeHandle g handle = some i ∧ (r.data i).claimToken = handle
  | _ => True

end Claimant

/-- A claimant's own slot is CLAIMED and its handle names that slot. -/
structure Claimant.Sound (r : Receiver g) (p : Claimant g) : Prop where
  claimed : ∀ i, p.slot = some i → r.state i = .claimed
  ticketed : p.Ticketed r

/-- What a claimant's step does to the slots, their claims and the record. -/
inductive ClaimantEffect (r r' : Receiver g) (p q : Claimant g) : Prop
  | keep (state : r'.state = r.state) (slot : q.slot = p.slot) (numbered : q.numbered = p.numbered)
      (occupant : r'.occupant = r.occupant) (sequence : r'.claimSequence = r.claimSequence)
      (history : r'.history = r.history)
  | acquire (i : Fin g.capacity) (was : r.state i = .free) (moves : r' = r.setState i .claimed)
      (before : p.slot = none) (slot : q.slot = some i) (numbered : q.numbered = false)
  | number (i : Fin g.capacity) (before : p.slot = some i) (unnumbered : p.numbered = false)
      (slot : q.slot = some i) (numbered : q.numbered = true)
      (moves : r' = r.issue i (encodeHandle ((r.claimSequence + 1) &&& handleSequenceMask) i))
  | publish (i : Fin g.capacity) (before : p.slot = some i) (numbered : p.numbered = true)
      (moves : r' = r.publish i) (slot : q.slot = none) (unnumbered : q.numbered = false)
  | abort (i : Fin g.capacity) (before : p.slot = some i) (numbered : p.numbered = true)
      (moves : r' = r.abort i) (slot : q.slot = none) (unnumbered : q.numbered = false)

theorem slotFromHandle_of_ticket {handle : ℕ} {i : Fin g.capacity} (nonzero : handle ≠ 0)
    (named : decodeHandle g handle = some i) (token : (r.data i).claimToken = handle) :
    slotFromHandle r handle = some i := by
  simp [slotFromHandle, nonzero, named, token]

/-- What a slot adds to `ring_ready`. -/
def SlotState.weight : SlotState → ℕ
  | .ready | .draining => 1
  | .free | .claimed => 0

theorem weight_setState (r : Receiver g) (i : Fin g.capacity) (s : SlotState) :
    census SlotState.weight (r.setState i s).state + (r.state i).weight =
      census SlotState.weight r.state + s.weight :=
  census_update _ _ _ _

/-- The whole contract of one claimant step. -/
structure ClaimantSpec (r r' : Receiver g) (p q : Claimant g) : Prop where
  effect : ClaimantEffect r r' p q
  ticketed : q.Ticketed r'
  data : ∀ i, p.slot ≠ some i → r'.data i = r.data i
  accepts : r'.acceptsResponses = r.acceptsResponses
  claimed : p.claimedWeight ≤ r.ringClaimed →
    r'.ringClaimed + p.claimedWeight = r.ringClaimed + q.claimedWeight
  ready : p.readyWeight ≤ r.ringReady →
    r'.ringReady + p.readyWeight + census SlotState.weight r.state =
      r.ringReady + q.readyWeight + census SlotState.weight r'.state

theorem fetchSub_add_one {n : ℕ} (h : 1 ≤ n) : fetchSub n + 1 = n := by
  rw [fetchSub, if_neg (by omega)]
  omega

theorem Receiver.data_setData_ne {i j : Fin g.capacity} (d : SlotData) (h : some i ≠ some j) :
    (r.setData i d).data j = r.data j :=
  Function.update_of_ne (fun e => h (congrArg some e.symm)) _ _

/-- A sound claimant's step meets the contract. -/
theorem claimant_spec {move : Move} (sound : p.Sound r)
    (h : claimantStep r p move = some (r', q)) : ClaimantSpec r r' p q := by
  obtain ⟨claimed, ticketed⟩ := sound
  cases p <;> cases move <;>
    simp only [claimantStep, reduceCtorEq, Option.some.injEq, Prod.mk.injEq] at h
  case idle.claim | cursor.tick | publishReady.tick | refused.tick | holding.publish |
      holding.abandon =>
    obtain ⟨rfl, rfl⟩ := h
    exact ⟨.keep rfl rfl rfl rfl rfl rfl, ticketed, fun _ _ => rfl, rfl, fun _ => rfl,
      fun _ => rfl⟩
  case publishClaimed.tick | abortClaimed.tick =>
    obtain ⟨rfl, rfl⟩ := h
    exact ⟨.keep rfl rfl rfl rfl rfl rfl, trivial, fun _ _ => rfl, rfl,
      fun pos => fetchSub_add_one pos, fun _ => rfl⟩
  case enter.tick =>
    obtain ⟨rfl, rfl⟩ := h
    split <;> exact ⟨.keep rfl rfl rfl rfl rfl rfl, trivial, fun _ _ => rfl, rfl, fun _ => rfl,
      fun _ => rfl⟩
  case attempt.tick start k =>
    split at h
    · split at h <;> obtain ⟨rfl, rfl⟩ := Prod.mk.inj (Option.some.inj h)
      · rename_i free
        have weight := weight_setState r (claimIndex g start k) .claimed
        rw [free] at weight
        exact ⟨.acquire _ free rfl rfl rfl rfl, trivial, fun _ _ => rfl, rfl, fun _ => rfl,
          fun _ => by simp only [Claimant.readyWeight, Receiver.setState, SlotState.weight] at *; omega⟩
      · exact ⟨.keep rfl rfl rfl rfl rfl rfl, trivial, fun _ _ => rfl, rfl, fun _ => rfl,
          fun _ => rfl⟩
    · obtain ⟨rfl, rfl⟩ := Prod.mk.inj (Option.some.inj h)
      exact ⟨.keep rfl rfl rfl rfl rfl rfl, trivial, fun _ _ => rfl, rfl, fun _ => rfl,
        fun _ => rfl⟩
  case reset.tick i =>
    obtain ⟨rfl, rfl⟩ := h
    exact ⟨.keep rfl rfl rfl rfl rfl rfl, trivial, fun _ => Receiver.data_setData_ne _, rfl,
      fun _ => rfl, fun _ => rfl⟩
  case sequence.tick i =>
    obtain ⟨rfl, rfl⟩ := h
    exact ⟨.number i rfl rfl rfl rfl rfl, ⟨encodeHandle_ne_zero _ _, decodeHandle_encodeHandle _ _⟩,
      fun _ _ => rfl, rfl, fun _ => rfl, fun _ => rfl⟩
  case stamp.tick i handle =>
    obtain ⟨rfl, rfl⟩ := h
    exact ⟨.keep rfl rfl rfl rfl rfl rfl,
      ⟨ticketed.1, ticketed.2, by simp [Receiver.setData]⟩,
      fun _ => Receiver.data_setData_ne _, rfl, fun _ => rfl, fun _ => rfl⟩
  case count.tick i handle =>
    obtain ⟨rfl, rfl⟩ := h
    exact ⟨.keep rfl ticketed.2.1 rfl rfl rfl rfl, ⟨ticketed.1, i, ticketed.2⟩, fun _ _ => rfl,
      rfl, fun _ => rfl, fun _ => rfl⟩
  case holding.write handle d =>
    obtain ⟨i, named, h⟩ := Option.map_eq_some_iff.mp h
    obtain ⟨rfl, rfl⟩ := Prod.mk.inj h
    obtain ⟨nonzero, j, named', token⟩ := ticketed
    obtain rfl : i = j := Option.some.inj (named.symm.trans named')
    exact ⟨.keep rfl rfl rfl rfl rfl rfl,
      ⟨nonzero, i, named, by simpa [Receiver.setData] using token⟩,
      fun j other => Receiver.data_setData_ne _ (named ▸ other), rfl, fun _ => rfl, fun _ => rfl⟩
  case publish.tick handle =>
    obtain ⟨nonzero, i, named, token⟩ := ticketed
    rw [slotFromHandle_of_ticket nonzero named token] at h
    simp only at h
    split at h <;> obtain ⟨rfl, rfl⟩ := Prod.mk.inj (Option.some.inj h)
    · exact ⟨.keep rfl named.symm rfl rfl rfl rfl, ⟨nonzero, named, token⟩, fun _ _ => rfl, rfl,
        fun _ => rfl, fun _ => rfl⟩
    · exact ⟨.keep rfl rfl rfl rfl rfl rfl, ⟨nonzero, i, named, token⟩, fun _ _ => rfl, rfl,
        fun _ => rfl, fun _ => rfl⟩
  case publishState.tick i handle =>
    have own := claimed i rfl
    rw [if_pos own] at h
    obtain ⟨rfl, rfl⟩ := Prod.mk.inj (Option.some.inj h)
    have weight := weight_setState r i .ready
    rw [own] at weight
    exact ⟨.publish i rfl rfl rfl rfl rfl, trivial, fun _ _ => rfl, rfl, fun _ => rfl,
      fun _ => by simp only [Claimant.readyWeight, Receiver.publish, Receiver.setState,
        SlotState.weight] at *; omega⟩
  case publishUndo.tick i handle =>
    obtain ⟨rfl, rfl⟩ := h
    exact ⟨.keep rfl ticketed.2.1 rfl rfl rfl rfl, ⟨ticketed.1, i, ticketed.2⟩, fun _ _ => rfl,
      rfl, fun _ => rfl, fun pos => by
        have := fetchSub_add_one pos
        simp only [Claimant.readyWeight]
        omega⟩
  case abort.tick handle =>
    obtain ⟨nonzero, i, named, token⟩ := ticketed
    rw [slotFromHandle_of_ticket nonzero named token] at h
    obtain ⟨rfl, rfl⟩ := Prod.mk.inj (Option.some.inj h)
    exact ⟨.keep rfl named.symm rfl rfl rfl rfl, trivial, fun _ _ => rfl, rfl, fun _ => rfl,
      fun _ => rfl⟩
  case abortState.tick i =>
    have own := claimed i rfl
    rw [if_pos own] at h
    obtain ⟨rfl, rfl⟩ := Prod.mk.inj (Option.some.inj h)
    have weight := weight_setState r i .free
    rw [own] at weight
    exact ⟨.abort i rfl rfl rfl rfl rfl, trivial, fun _ _ => rfl, rfl, fun _ => rfl,
      fun _ => by simp only [Claimant.readyWeight, Receiver.abort, Receiver.setState,
        SlotState.weight] at *; omega⟩

/-- The handle a claimant carries is the one it carried before or a newly issued one. -/
theorem claimantStep_handle {move : Move} {handle : ℕ} (h : claimantStep r p move = some (r', q))
    (carries : q.handle = some handle) :
    p.handle = some handle ∨ handle ∈ r'.history.issued := by
  unfold claimantStep at h
  split at h
  case h_6 i =>
    obtain ⟨rfl, rfl⟩ := Prod.mk.inj (Option.some.inj h)
    obtain rfl := Option.some.inj carries
    exact .inr (by simp [Receiver.issue])
  all_goals grind [Claimant.handle, Option.map_eq_some_iff]

namespace Drainer

/-- The slot the draining thread owns. -/
def slot : Drainer g → Option (Fin g.capacity)
  | .send i | .release i => some i
  | .idle | .check | .scan _ | .count _ => none

/-- What it still has to take off `ring_ready` for a slot it has freed. -/
def readyWeight : Drainer g → ℕ
  | .count _ => 1
  | _ => 0

end Drainer

/-- What a step of the draining thread does to the slots and the record. -/
inductive DrainerEffect (r r' : Receiver g) (d e : Drainer g) : Prop
  | keep (state : r'.state = r.state) (slot : e.slot = d.slot) (published : r'.history.published =
      r.history.published) (aborted : r'.history.aborted = r.history.aborted)
      (drained : r'.history.drained = r.history.drained)
      (issued : r'.history.issued = r.history.issued)
  | begin (i : Fin g.capacity) (was : r.state i = .ready) (moves : r' = r.setState i .draining)
      (before : d.slot = none) (slot : e.slot = some i)
  | drain (i : Fin g.capacity) (before : d.slot = some i) (moves : r' = r.drain i)
      (slot : e.slot = none)

/-- The whole contract of one step of the draining thread. -/
structure DrainerSpec (r r' : Receiver g) (d e : Drainer g) : Prop where
  effect : DrainerEffect r r' d e
  data : r'.data = r.data
  accepts : r'.acceptsResponses = r.acceptsResponses
  occupant : r'.occupant = r.occupant
  sequence : r'.claimSequence = r.claimSequence
  claimed : r'.ringClaimed = r.ringClaimed
  ready : d.readyWeight ≤ r.ringReady →
    r'.ringReady + d.readyWeight + census SlotState.weight r.state =
      r.ringReady + e.readyWeight + census SlotState.weight r'.state

theorem drainer_spec {d e : Drainer g} {move : DrainMove}
    (own : ∀ i, d.slot = some i → r.state i = .draining)
    (h : drainerStep r d move = some (r', e)) : DrainerSpec r r' d e := by
  cases d <;> cases move <;>
    simp only [drainerStep, reduceCtorEq, Option.some.injEq, Prod.mk.injEq] at h
  case idle.drain =>
    obtain ⟨rfl, rfl⟩ := h
    exact ⟨.keep rfl rfl rfl rfl rfl rfl, rfl, rfl, rfl, rfl, rfl, fun _ => rfl⟩
  case check.tick =>
    obtain ⟨rfl, rfl⟩ := h
    split <;> exact ⟨.keep rfl rfl rfl rfl rfl rfl, rfl, rfl, rfl, rfl, rfl, fun _ => rfl⟩
  case scan.tick k =>
    split at h
    · split at h <;> obtain ⟨rfl, rfl⟩ := Prod.mk.inj (Option.some.inj h)
      · rename_i inside ready
        have weight := weight_setState r ⟨k, inside⟩ .draining
        rw [ready] at weight
        exact ⟨.begin _ ready rfl rfl rfl, rfl, rfl, rfl, rfl, rfl,
          fun _ => by simp only [Drainer.readyWeight, Receiver.setState, SlotState.weight] at *; omega⟩
      · exact ⟨.keep rfl rfl rfl rfl rfl rfl, rfl, rfl, rfl, rfl, rfl, fun _ => rfl⟩
    · obtain ⟨rfl, rfl⟩ := Prod.mk.inj (Option.some.inj h)
      exact ⟨.keep rfl rfl rfl rfl rfl rfl, rfl, rfl, rfl, rfl, rfl, fun _ => rfl⟩
  case send.send i live =>
    obtain ⟨rfl, rfl⟩ := h
    unfold Receiver.send
    split <;> exact ⟨.keep rfl rfl rfl rfl rfl rfl, rfl, rfl, rfl, rfl, rfl, fun _ => rfl⟩
  case release.tick i =>
    obtain ⟨rfl, rfl⟩ := h
    have weight := weight_setState r i .free
    rw [own i rfl] at weight
    exact ⟨.drain i rfl rfl rfl, rfl, rfl, rfl, rfl, rfl,
      fun _ => by simp only [Drainer.readyWeight, Receiver.drain, Receiver.setState,
        SlotState.weight] at *; omega⟩
  case count.tick i =>
    obtain ⟨rfl, rfl⟩ := h
    exact ⟨.keep rfl rfl rfl rfl rfl rfl, rfl, rfl, rfl, rfl, rfl, fun pos => by
      have := fetchSub_add_one pos
      simp only [Drainer.readyWeight]
      omega⟩

end Busker.ResponseRing
