import Busker.ResponseRing.Protocol
import Mathlib.Data.List.Count

/-! The two counters and the record of claims, as conservation laws. Each counter
equals what the threads and the slots still owe it; each claim number is, at any
time, held by one thread, aborted once, or published once, and a published one is
either drained once or queued in one slot. -/

namespace Busker.ResponseRing

open Interleaving

variable {g : Geometry} {ι : Type*} [Fintype ι] {s t : State g ι}

structure Counted (s : State g ι) : Prop where
  claimed : s.ring.ringClaimed = census Claimant.claimedWeight s.claimants
  ready : s.ring.ringReady = census Claimant.readyWeight s.claimants +
    census SlotState.weight s.ring.state + s.drainer.readyWeight

/-- Whether a claimant holds claim `c`. -/
def heldAs (r : Receiver g) (c : ℕ) (p : Claimant g) : ℕ :=
  if p.numbered = true ∧ p.slot.map r.occupant = some c then 1 else 0

/-- Whether claim `c` waits in slot `k` to be drained. -/
def queuedAs (r : Receiver g) (c : ℕ) (k : Fin g.capacity) : ℕ :=
  if r.occupant k = c then (r.state k).weight else 0

/-- One for a claim number already given out. -/
def made (n c : ℕ) : ℕ := if c < n then 1 else 0

structure Recorded (s : State g ι) : Prop where
  claims : ∀ c, s.ring.history.published.count c + s.ring.history.aborted.count c +
    census (heldAs s.ring c) s.claimants = made s.ring.claimSequence c
  queue : ∀ c, s.ring.history.published.count c =
    s.ring.history.drained.count c + census (queuedAs s.ring c) id
  numbers : s.ring.history.issued.length = s.ring.claimSequence
  handles : ∀ n handle, s.ring.history.issued[n]? = some handle →
    ∃ k : Fin g.capacity, handle = encodeHandle ((n + 1) &&& handleSequenceMask) k
  carried : ∀ i handle, (s.claimants i).handle = some handle → handle ∈ s.ring.history.issued

theorem heldAs_slot_none {r : Receiver g} {c : ℕ} {p : Claimant g} (h : p.slot = none) :
    heldAs r c p = 0 := by simp [heldAs, h]

theorem heldAs_unnumbered {r : Receiver g} {c : ℕ} {p : Claimant g} (h : p.numbered = false) :
    heldAs r c p = 0 := by simp [heldAs, h]

theorem heldAs_numbered {r : Receiver g} {c : ℕ} {p : Claimant g} {k : Fin g.capacity}
    (numbered : p.numbered = true) (slot : p.slot = some k) :
    heldAs r c p = if r.occupant k = c then 1 else 0 := by simp [heldAs, numbered, slot]

theorem heldAs_congr {r r' : Receiver g} {c : ℕ} {p q : Claimant g} (slot : q.slot = p.slot)
    (numbered : q.numbered = p.numbered) (occupant : r'.occupant = r.occupant) :
    heldAs r' c q = heldAs r c p := by simp only [heldAs, slot, numbered, occupant]

theorem count_concat (l : List ℕ) (a c : ℕ) :
    (l ++ [a]).count c = l.count c + if a = c then 1 else 0 := by
  simp [List.count_append, List.count_singleton]

theorem made_succ (n c : ℕ) : made (n + 1) c = made n c + if n = c then 1 else 0 := by
  unfold made
  split_ifs <;> omega

theorem queuedAs_setState (r : Receiver g) (c : ℕ) (k : Fin g.capacity) (x : SlotState) :
    census (queuedAs (r.setState k x) c) id + (if r.occupant k = c then (r.state k).weight else 0) =
      census (queuedAs r c) id + if r.occupant k = c then x.weight else 0 := by
  have moved := census_move (queuedAs r c) (queuedAs (r.setState k x) c) id id k fun l hl => by
    simp [queuedAs, Receiver.setState, hl]
  simpa [queuedAs, Receiver.setState] using moved

/-- Only the slot whose state changes moves in the queue. -/
theorem queuedAs_setState_same {r : Receiver g} {c : ℕ} {k : Fin g.capacity} {x : SlotState}
    (same : x.weight = (r.state k).weight) :
    census (queuedAs (r.setState k x) c) id = census (queuedAs r c) id := by
  have moved := queuedAs_setState r c k x
  rw [same] at moved
  omega

variable [DecidableEq ι]

theorem Counted.step {a : Action ι} (h : Counted s) (owned : Owned s)
    (moves : step a s = some t) : Counted t := by
  obtain ⟨claimed, ready⟩ := h
  cases owned.step_spec moves with
  | claimant i move r q _ spec =>
    have boundC := le_census Claimant.claimedWeight s.claimants i
    have boundR := le_census Claimant.readyWeight s.claimants i
    have movedC := census_update Claimant.claimedWeight s.claimants i q
    have movedR := census_update Claimant.readyWeight s.claimants i q
    have stepC := spec.claimed (by omega)
    have stepR := spec.ready (by omega)
    exact ⟨by simp only; omega, by simp only; omega⟩
  | drainer move r d spec =>
    have stepR := spec.ready (by omega)
    exact ⟨by simp only [spec.claimed]; exact claimed, by simp only; omega⟩
  | load | answer | close => exact ⟨claimed, ready⟩

/-- A claimant's step moves claims between the record, its hands and the queue. -/
theorem Recorded.claimant {i : ι} (h : Recorded s) (owned : Owned s) {r : Receiver g}
    {q : Claimant g} (spec : ClaimantSpec s.ring r (s.claimants i) q)
    (carried : ∀ handle, q.handle = some handle →
      (s.claimants i).handle = some handle ∨ handle ∈ r.history.issued) (o : Observer) :
    Recorded { s with ring := r, claimants := Function.update s.claimants i q, observer := o } := by
  have carriedBy : (∀ n ∈ s.ring.history.issued, n ∈ r.history.issued) →
      ∀ j handle, (Function.update s.claimants i q j).handle = some handle →
        handle ∈ r.history.issued := by
    intro grows j handle hj
    by_cases hji : j = i
    · subst hji
      rw [Function.update_self] at hj
      exact (carried handle hj).elim (fun own => grows _ (h.carried _ _ own)) id
    · rw [Function.update_of_ne hji] at hj
      exact grows _ (h.carried _ _ hj)
  have movedHeld := fun c (same : ∀ j, j ≠ i → heldAs r c (s.claimants j) =
      heldAs s.ring c (s.claimants j)) =>
    census_move (heldAs s.ring c) (heldAs r c) s.claimants (Function.update s.claimants i q) i
      fun j hj => by rw [Function.update_of_ne hj, same j hj]
  simp only [Function.update_self] at movedHeld
  cases spec.effect with
  | keep state slot numbered occupant sequence history =>
    refine ⟨fun c => ?_, fun c => ?_, by simpa [history, sequence] using h.numbers,
      by simpa [history] using h.handles, carriedBy (by simp [history])⟩
    · have moved := movedHeld c fun j _ => heldAs_congr rfl rfl occupant
      rw [heldAs_congr (r := s.ring) slot numbered occupant] at moved
      have before := h.claims c
      simp only [history, sequence]
      omega
    · simp only [history]
      rw [h.queue c]
      exact congrArg _ (census_congr fun k => by simp [queuedAs, state, occupant]).symm
  | acquire k was moves before slot numbered =>
    subst moves
    refine ⟨fun c => ?_, fun c => ?_, h.numbers, h.handles, carriedBy fun _ hn => hn⟩
    · have moved := movedHeld c fun j _ => rfl
      rw [heldAs_slot_none before, heldAs_unnumbered numbered] at moved
      exact (congrArg _ moved).trans (h.claims c)
    · rw [queuedAs_setState_same (by simp [was, SlotState.weight])]
      exact h.queue c
  | number k before unnumbered slot numbered moves =>
    have own := (owned.claimed k).mpr ⟨i, before⟩
    subst moves
    refine ⟨fun c => ?_, fun c => ?_, by simp [Receiver.issue, h.numbers], fun n handle => ?_,
      carriedBy (by simp +contextual [Receiver.issue])⟩
    · have moved := movedHeld c fun j hj => by
        cases held : (s.claimants j).slot with
        | none => rw [heldAs_slot_none held, heldAs_slot_none held]
        | some l =>
          have other : l ≠ k := by
            rintro rfl
            exact hj (owned.exclusive held before)
          simp [heldAs, held, Receiver.issue, other]
      rw [heldAs_unnumbered unnumbered, heldAs_numbered numbered slot] at moved
      have before := h.claims c
      simp only [Receiver.issue, Function.update_self, made_succ] at moved ⊢
      omega
    · refine (h.queue c).trans (congrArg (_ + ·) (census_congr fun l => ?_).symm)
      by_cases hl : l = k
      · simp [queuedAs, Receiver.issue, hl, own, SlotState.weight]
      · simp [queuedAs, Receiver.issue, hl]
    · intro at_n
      rcases Nat.lt_or_ge n s.ring.history.issued.length with old | new
      · exact h.handles n handle (by rwa [Receiver.issue, List.getElem?_append_left old] at at_n)
      · simp only [Receiver.issue] at at_n
        rw [List.getElem?_append_right new, List.getElem?_singleton] at at_n
        split at at_n
        · obtain rfl := Option.some.inj at_n
          exact ⟨k, by rw [show n = s.ring.claimSequence by rw [← h.numbers]; omega]⟩
        · contradiction
  | publish k before numbered moves slot unnumbered =>
    have own := (owned.claimed k).mpr ⟨i, before⟩
    subst moves
    refine ⟨fun c => ?_, fun c => ?_, h.numbers, h.handles, carriedBy fun _ hn => hn⟩
    · have moved := movedHeld c fun j _ => rfl
      rw [heldAs_slot_none slot, heldAs_numbered numbered before] at moved
      have claims := h.claims c
      simp only [Receiver.publish, Receiver.setState, count_concat] at moved ⊢
      omega
    · have moved := queuedAs_setState s.ring c k .ready
      have queue := h.queue c
      simp only [own, SlotState.weight, ite_self] at moved
      simp only [Receiver.publish, count_concat]
      exact (congrArg (· + _) queue).trans (by rw [Nat.add_assoc, ← moved, Nat.add_zero]; rfl)
  | abort k before numbered moves slot unnumbered =>
    have own := (owned.claimed k).mpr ⟨i, before⟩
    subst moves
    refine ⟨fun c => ?_, fun c => ?_, h.numbers, h.handles, carriedBy fun _ hn => hn⟩
    · have moved := movedHeld c fun j _ => rfl
      rw [heldAs_slot_none slot, heldAs_numbered numbered before] at moved
      have claims := h.claims c
      simp only [Receiver.abort, Receiver.setState, count_concat] at moved ⊢
      omega
    · exact (h.queue c).trans (congrArg (_ + ·) (queuedAs_setState_same (by simp [own, SlotState.weight])).symm)

omit [DecidableEq ι] in
theorem Recorded.drains (h : Recorded s) (owned : Owned s) {r : Receiver g} {d : Drainer g}
    (spec : DrainerSpec s.ring r s.drainer d) : Recorded { s with ring := r, drainer := d } := by
  have held : ∀ c, census (heldAs r c) s.claimants = census (heldAs s.ring c) s.claimants :=
    fun c => census_congr fun j => heldAs_congr rfl rfl spec.occupant
  cases spec.effect with
  | keep state slot published aborted drained issued =>
    refine ⟨fun c => ?_, fun c => ?_, by simpa [issued, spec.sequence] using h.numbers,
      by simpa [issued] using h.handles, by simpa [issued] using h.carried⟩
    · simpa [published, aborted, held c, spec.sequence] using h.claims c
    · simp only [published, drained]
      refine (h.queue c).trans (congrArg (_ + ·) (census_congr fun k => ?_).symm)
      simp [queuedAs, state, spec.occupant]
  | begin k was moves before slot =>
    subst moves
    exact ⟨h.claims, fun c => (h.queue c).trans (congrArg (_ + ·)
      (queuedAs_setState_same (by simp [was, SlotState.weight])).symm), h.numbers, h.handles,
      h.carried⟩
  | drain k before moves slot =>
    have own := owned.drainer k before
    subst moves
    refine ⟨h.claims, fun c => ?_, h.numbers, h.handles, h.carried⟩
    have moved := queuedAs_setState s.ring c k .free
    simp only [own, SlotState.weight, ite_self, Nat.add_zero] at moved
    simp only [Receiver.drain, count_concat]
    refine (h.queue c).trans ?_
    rw [← moved, Nat.add_assoc, Nat.add_comm (ite _ _ _)]
    rfl

theorem Recorded.step {a : Action ι} (h : Recorded s) (owned : Owned s)
    (moves : step a s = some t) : Recorded t := by
  cases owned.step_spec moves with
  | claimant i move r q first spec =>
    exact h.claimant owned spec (fun _ => claimantStep_handle first) _
  | drainer move r d spec => exact h.drains owned spec
  | load | answer | close => exact ⟨h.claims, h.queue, h.numbers, h.handles, h.carried⟩

/-- After a first load of zero with no claim call in progress, nobody is anywhere
near a slot until a claim call starts. -/
def Settled (s : State g ι) : Prop :=
  s.observer = .loaded 0 true → ∀ i, s.claimants i = .idle

omit [Fintype ι] [DecidableEq ι] in
theorem Claimant.eq_idle {p : Claimant g} (quiet : p.claiming = false)
    (owes : p.claimedWeight = 0) : p = .idle := by
  cases p <;> simp_all [Claimant.claiming, Claimant.claimedWeight]

theorem Settled.step {a : Action ι} (h : Settled s) (owned : Owned s) (counted : Counted s)
    (moves : step a s = some t) : Settled t := by
  cases owned.step_spec moves with
  | claimant i move r q first spec =>
    intro seen
    cases observer : s.observer with
    | idle => simp [Observer.see, observer] at seen
    | loaded claimed quiet =>
      simp only [Observer.see, observer, Observer.loaded.injEq, Bool.and_eq_true,
        Bool.not_eq_true'] at seen
      obtain ⟨rfl, rfl, starts⟩ := seen
      -- everybody was idle, so the only step there is would start a claim
      rw [h observer i] at first
      cases move <;> simp only [claimantStep, reduceCtorEq, Option.some.injEq, Prod.mk.injEq] at first
      obtain ⟨rfl, rfl⟩ := first
      simp [Claimant.claiming] at starts
  | load quiet idle all =>
    intro seen i
    obtain ⟨none, settled⟩ := Observer.loaded.inj seen
    exact Claimant.eq_idle (all settled i)
      (census_eq_zero.mp (counted.claimed.symm.trans none) i)
  | answer => rintro ⟨⟩
  | drainer | close => exact h

omit [DecidableEq ι] in
/-- With nobody inside and nothing READY, every slot is FREE. -/
theorem free_of_quiet (owned : Owned s) (counted : Counted s)
    (idle : ∀ i, s.claimants i = .idle) (none : s.ring.ringReady = 0) (k : Fin g.capacity) :
    s.ring.state k = .free := by
  have ready := counted.ready
  have weightless : census SlotState.weight s.ring.state = 0 := by omega
  have weight := census_eq_zero.mp weightless k
  cases state : s.ring.state k
  case free => rfl
  case claimed =>
    obtain ⟨i, own⟩ := (owned.claimed k).mp state
    simp [idle i, Claimant.slot] at own
  case ready | draining => simp [state, SlotState.weight] at weight

theorem ledger_of_reachable (h : (machine g ι).Reachable s) :
    Counted s ∧ Recorded s ∧ Settled s := by
  refine h.invariant_of (I := fun s => Counted s ∧ Recorded s ∧ Settled s) (J := Owned)
    (fun _ => owned_of_reachable) ?_ ?_
  · rintro s ⟨⟨free, claimed, ready, -, sequence, -, history⟩, idle, rest, observer⟩
    have slots : census SlotState.weight s.ring.state = 0 :=
      census_eq_zero.mpr fun k => by rw [free k]; rfl
    have held : ∀ w : Claimant g → ℕ, w .idle = 0 → census w s.claimants = 0 := fun w hw =>
      census_eq_zero.mpr fun i => by rw [idle i, hw]
    refine ⟨⟨?_, ?_⟩, ⟨fun c => ?_, fun c => ?_, ?_, ?_, ?_⟩, ?_⟩
    · rw [claimed, held _ rfl]
    · rw [ready, held _ rfl, slots, rest]
      rfl
    · rw [history, sequence, held _ (heldAs_slot_none rfl)]
      rfl
    · rw [history, census_eq_zero.mpr fun k => by simp [queuedAs, free, SlotState.weight]]
      rfl
    · rw [history, sequence]
      rfl
    · simp [history]
    · simp [idle, Claimant.handle]
    · simp [Settled, observer]
  · rintro a s t owned ⟨counted, recorded, settled⟩ moves
    exact ⟨counted.step owned moves, recorded.step owned moves,
      settled.step owned counted moves⟩

end Busker.ResponseRing
