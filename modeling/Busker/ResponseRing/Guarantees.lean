import Busker.ResponseRing.Ledger

/-! What the response ring promises its callers in every reachable state. -/

namespace Busker.ResponseRing

open Interleaving

variable {g : Geometry} {ι : Type*} [Fintype ι] [DecidableEq ι] {s t : State g ι}

omit [Fintype ι] [DecidableEq ι] in
/-- A carried handle is non-zero and decodes to the carrier's own slot. -/
theorem Claimant.Ticketed.decode {r : Receiver g} {p : Claimant g} {handle : ℕ}
    (h : p.Ticketed r) (carries : p.handle = some handle) :
    handle ≠ 0 ∧ ∃ k, decodeHandle g handle = some k ∧ p.slot = some k := by
  cases p <;> simp only [Claimant.handle, Option.some.injEq, reduceCtorEq] at carries
  case stamp => exact carries ▸ ⟨h.1, _, h.2, rfl⟩
  case count | publishReady | publishState | publishUndo =>
    exact carries ▸ ⟨h.1, _, h.2.1, rfl⟩
  case holding | publish | refused | abort =>
    obtain ⟨nonzero, k, named, -⟩ := h
    exact carries ▸ ⟨nonzero, k, named, named⟩

/-- Sequence numbers less than `2^48` claims apart differ after masking. -/
theorem sequence_ne {m n : ℕ} (later : m < n) (near : n - m < 2 ^ 48) :
    (m + 1) &&& handleSequenceMask ≠ (n + 1) &&& handleSequenceMask := by
  rw [handleSequenceMask, show 0xffffffffffff = 2 ^ 48 - 1 from rfl,
    Nat.and_two_pow_sub_one_eq_mod, Nat.and_two_pow_sub_one_eq_mod]
  omega

omit [DecidableEq ι] in
theorem Recorded.handles_ne (h : Recorded s) {m n a b : ℕ} (later : m < n)
    (near : n - m < 2 ^ 48) (first : s.ring.history.issued[m]? = some a)
    (second : s.ring.history.issued[n]? = some b) : a ≠ b := by
  obtain ⟨i, rfl⟩ := h.handles m a first
  obtain ⟨j, rfl⟩ := h.handles n b second
  exact fun same => sequence_ne later near (encodeHandle_injective same).1

omit [DecidableEq ι] in
theorem Recorded.published_le (h : Recorded s) (c : ℕ) :
    s.ring.history.published.count c + s.ring.history.aborted.count c ≤ 1 := by
  have claims := h.claims c
  have : made s.ring.claimSequence c ≤ 1 := by
    unfold made
    split <;> omega
  omega

omit [DecidableEq ι] in
theorem Recorded.drained_le (h : Recorded s) (c : ℕ) :
    s.ring.history.drained.count c ≤ s.ring.history.published.count c := by
  have queue := h.queue c
  omega

omit [DecidableEq ι] in
/-- A claim that was published but not drained waits in a slot. -/
theorem Recorded.drained_or_queued (h : Recorded s) {c : ℕ}
    (published : c ∈ s.ring.history.published) :
    s.ring.history.drained.count c = 1 ∨ ∃ k, s.ring.occupant k = c ∧
      (s.ring.state k = .ready ∨ s.ring.state k = .draining) := by
  have pos := List.count_pos_iff.mpr published
  have once := h.published_le c
  have queue := h.queue c
  by_cases waits : census (queuedAs s.ring c) id = 0
  · exact .inl (by omega)
  · right
    have ⟨k, hk⟩ := not_forall.mp (mt census_eq_zero.mpr waits)
    refine ⟨k, ?_⟩
    simp only [queuedAs, id] at hk
    cases state : s.ring.state k <;> simp_all [SlotState.weight]

omit [DecidableEq ι] in
/-- Zero pending, read while no claim call is in progress, means all slots are FREE. -/
theorem free_of_pending_zero (owned : Owned s) (counted : Counted s) (settled : Settled s)
    {claimed : ℕ} (loaded : s.observer = .loaded claimed true) (zero : pendingResult s = some 0)
    (k : Fin g.capacity) : s.ring.state k = .free := by
  simp only [pendingResult, loaded, Option.some.injEq, Nat.add_eq_zero_iff] at zero
  obtain ⟨rfl, none⟩ := zero
  exact free_of_quiet owned counted (settled loaded) none k

/-- `t` is reached from `s` by steps of the draining thread alone. -/
def Drains (s t : State g ι) : Prop :=
  ∃ moves : List DrainMove, (machine g ι).run (moves.map .drainer) s = some t

theorem Drains.refl (s : State g ι) : Drains s s := ⟨[], rfl⟩

theorem Drains.trans {u : State g ι} (h : Drains s t) (k : Drains t u) : Drains s u := by
  obtain ⟨first, hf⟩ := h
  obtain ⟨rest, hr⟩ := k
  exact ⟨first ++ rest, by rw [List.map_append, Machine.run_append, hf]; exact hr⟩

theorem Drains.step {r : Receiver g} {d : Drainer g} (move : DrainMove)
    (moves : drainerStep s.ring s.drainer move = some (r, d)) :
    Drains s { s with ring := r, drainer := d } :=
  ⟨[move], by simp [machine, ResponseRing.step, moves]⟩

theorem Drains.reachable (h : Drains s t) (hs : (machine g ι).Reachable s) :
    (machine g ι).Reachable t := h.elim fun _ moves => hs.run moves

theorem Drains.owned (h : Drains s t) (owned : Owned s) : Owned t := by
  obtain ⟨moves, h⟩ := h
  induction moves generalizing s with
  | nil => exact Option.some.inj h ▸ owned
  | cons move rest ih =>
    obtain ⟨u, first, h⟩ := Option.bind_eq_some_iff.mp h
    have first : ResponseRing.step (.drainer move) s = some u := first
    exact ih (owned.step first) h

/-- What the draining thread may change while nobody else moves. -/
structure DrainFrame (s t : State g ι) : Prop where
  published : t.ring.history.published = s.ring.history.published
  ready : ∀ k, t.ring.state k = .ready → s.ring.state k = .ready

omit [Fintype ι] [DecidableEq ι] in
theorem DrainFrame.trans {u : State g ι} (h : DrainFrame s t) (k : DrainFrame t u) :
    DrainFrame s u :=
  ⟨k.published.trans h.published, fun i hi => h.ready i (k.ready i hi)⟩

omit [Fintype ι] [DecidableEq ι] in
theorem DrainerSpec.frame {r : Receiver g} {d : Drainer g}
    (spec : DrainerSpec s.ring r s.drainer d) : DrainFrame s { s with ring := r, drainer := d } := by
  cases spec.effect with
  | keep state slot published aborted drained issued =>
    exact ⟨published, fun k hk => by simpa [state] using hk⟩
  | begin k was moves before slot
  | drain k before moves slot =>
    subst moves
    refine ⟨rfl, fun l hl => ?_⟩
    simp only [Receiver.drain, setState_state] at hl
    split at hl
    · contradiction
    · exact hl

theorem Drains.frame (owned : Owned s) (h : Drains s t) : DrainFrame s t := by
  obtain ⟨moves, h⟩ := h
  induction moves generalizing s with
  | nil => exact Option.some.inj h ▸ ⟨rfl, fun _ => id⟩
  | cons move rest ih =>
    obtain ⟨u, first, h⟩ := Option.bind_eq_some_iff.mp h
    have first : ResponseRing.step (.drainer move) s = some u := first
    have next := ih (owned.step first) h
    cases owned.step_spec first with
    | drainer _ r d spec => exact (DrainerSpec.frame spec).trans next

/-- The draining thread can leave the slot it is at. -/
theorem drains_slot {i : Fin g.capacity}
    (at_i : s.drainer = .send i ∨ s.drainer = .release i ∨ s.drainer = .count i) :
    ∃ t, Drains s t ∧ t.drainer = .scan (i + 1) ∧ (s.drainer = .send i → t.ring.state i ≠ .ready) := by
  rcases at_i with at_i | at_i | at_i
  · have send : drainerStep s.ring s.drainer (.send true) =
        some (s.ring.send i true, .release i) := by rw [at_i]; rfl
    exact ⟨_, (Drains.step _ send).trans ((Drains.step .tick rfl).trans (Drains.step .tick rfl)),
      rfl, fun _ => by simp [Receiver.drain, setState_state]⟩
  · have release : drainerStep s.ring s.drainer .tick = some (s.ring.drain i, .count i) := by
      rw [at_i]; rfl
    exact ⟨_, (Drains.step _ release).trans (Drains.step .tick rfl), rfl, by simp [at_i]⟩
  · have count : drainerStep s.ring s.drainer .tick = some
        ({ s.ring with ringReady := fetchSub s.ring.ringReady }, .scan (i + 1)) := by
      rw [at_i]; rfl
    exact ⟨_, Drains.step _ count, rfl, by simp [at_i]⟩

/-- The drain loop, left alone, ends with no READY slot from where it stood on. -/
theorem drains_scan (n k : ℕ) (left : g.capacity ≤ k + n) {s : State g ι} (owned : Owned s)
    (at_k : s.drainer = .scan k) :
    ∃ t, Drains s t ∧ t.drainer = .idle ∧ ∀ i, t.ring.state i = .ready → i.val < k := by
  induction n generalizing k s with
  | zero =>
    have done : drainerStep s.ring s.drainer .tick = some (s.ring, .idle) := by
      simp [at_k, drainerStep, show ¬k < g.capacity by omega]
    exact ⟨_, Drains.step .tick done, rfl, fun i _ => by omega⟩
  | succ n ih =>
    by_cases inside : k < g.capacity
    · obtain ⟨u, toU, at_next, gone⟩ : ∃ u, Drains s u ∧ u.drainer = .scan (k + 1) ∧
          u.ring.state ⟨k, inside⟩ ≠ .ready := by
        by_cases ready : s.ring.state ⟨k, inside⟩ = .ready
        · have begin : drainerStep s.ring s.drainer .tick =
              some (s.ring.setState ⟨k, inside⟩ .draining, .send ⟨k, inside⟩) := by
            simp [at_k, drainerStep, inside, ready]
          obtain ⟨u, toU, at_next, gone⟩ := drains_slot (s := { s with
            ring := s.ring.setState ⟨k, inside⟩ .draining, drainer := .send ⟨k, inside⟩ }) (.inl rfl)
          exact ⟨u, (Drains.step .tick begin).trans toU, at_next, gone rfl⟩
        · have skip : drainerStep s.ring s.drainer .tick = some (s.ring, .scan (k + 1)) := by
            simp [at_k, drainerStep, inside, ready]
          exact ⟨_, Drains.step .tick skip, rfl, ready⟩
      obtain ⟨t, toT, idle, below⟩ := ih (k + 1) (by omega) (toU.owned owned) at_next
      refine ⟨t, toU.trans toT, idle, fun i hi => ?_⟩
      have other : i.val ≠ k := by
        rintro rfl
        exact gone ((toT.frame (toU.owned owned)).ready i hi)
      have := below i hi
      omega
    · exact ih k (by omega) owned at_k

/-- The draining thread can finish the pass it is in. -/
theorem drains_idle (owned : Owned s) : ∃ t, Drains s t ∧ t.drainer = .idle := by
  have fromScan : ∀ {u : State g ι} {k}, Drains s u → u.drainer = .scan k →
      ∃ t, Drains s t ∧ t.drainer = .idle := by
    intro u k toU at_k
    obtain ⟨t, toT, idle, -⟩ := drains_scan g.capacity k (by omega) (toU.owned owned) at_k
    exact ⟨t, toU.trans toT, idle⟩
  cases at_d : s.drainer with
  | idle => exact ⟨s, .refl s, at_d⟩
  | scan k => exact fromScan (.refl s) at_d
  | check =>
    have looks : drainerStep s.ring s.drainer .tick =
        some (s.ring, if s.ring.ringReady = 0 then .idle else .scan 0) := by rw [at_d]; rfl
    by_cases none : s.ring.ringReady = 0
    · exact ⟨_, Drains.step .tick looks, if_pos none⟩
    · exact fromScan (Drains.step .tick looks) (if_neg none)
  | send i | release i | count i =>
    obtain ⟨u, toU, at_next, -⟩ := drains_slot (s := s) (i := i) (by simp [at_d])
    exact fromScan toU at_next

/-- Left alone, the draining thread drains everything that was published. -/
theorem drains_all (h : (machine g ι).Reachable s) :
    ∃ t, Drains s t ∧ t.ring.history.published = s.ring.history.published ∧
      ∀ c ∈ s.ring.history.published, t.ring.history.drained.count c = 1 := by
  obtain ⟨u, toU, idle⟩ := drains_idle (owned_of_reachable h)
  have ownedU := toU.owned (owned_of_reachable h)
  have start : drainerStep u.ring u.drainer .drain = some (u.ring, .check) := by rw [idle]; rfl
  obtain ⟨t, toT, rest, clear⟩ : ∃ t, Drains u t ∧ t.drainer = .idle ∧
      ∀ i, t.ring.state i ≠ .ready := by
    have looks : drainerStep u.ring .check .tick =
        some (u.ring, if u.ring.ringReady = 0 then .idle else .scan 0) := rfl
    have entered := (Drains.step _ start).trans (Drains.step .tick looks)
    by_cases none : u.ring.ringReady = 0
    · refine ⟨_, entered, if_pos none, fun i hi => ?_⟩
      have counted := (ledger_of_reachable (toU.reachable h)).1.ready
      have := le_census SlotState.weight u.ring.state i
      simp only at hi
      simp only [hi, SlotState.weight] at this
      omega
    · obtain ⟨t, toT, rest, below⟩ := drains_scan g.capacity 0 (by omega) (entered.owned ownedU)
        (if_neg none)
      exact ⟨t, entered.trans toT, rest, fun i hi => by simpa using below i hi⟩
  have all := toU.trans toT
  have same := (all.frame (owned_of_reachable h)).published
  refine ⟨t, all, same, fun c hc => ?_⟩
  have recorded := (ledger_of_reachable (all.reachable h)).2.1
  rcases recorded.drained_or_queued (same ▸ hc) with once | ⟨k, -, ready | draining⟩
  · exact once
  · exact absurd ready (clear k)
  · have own := ((all.owned (owned_of_reachable h)).draining k).mp draining
    simp [rest, Drainer.slot] at own

structure SlotProtocol (s : State g ι) : Prop where
  oneOwner : ∀ i j k, (s.claimants i).slot = some k → (s.claimants j).slot = some k → i = j
  claimed : ∀ k, s.ring.state k = .claimed ↔ ∃ i, (s.claimants i).slot = some k
  draining : ∀ k, s.ring.state k = .draining ↔ s.drainer.slot = some k
  claimedPos : ∀ i k, s.claimants i = .publishClaimed k ∨ s.claimants i = .abortClaimed k →
    0 < s.ring.ringClaimed
  readyPosUndo : ∀ i k handle, s.claimants i = .publishUndo k handle → 0 < s.ring.ringReady
  readyPosDrain : ∀ k, s.drainer = .count k → 0 < s.ring.ringReady
  publishedOnce : ∀ c, s.ring.history.published.count c ≤ 1
  drainedOnce : ∀ c, s.ring.history.drained.count c ≤ s.ring.history.published.count c
  queued : ∀ c ∈ s.ring.history.published, s.ring.history.drained.count c = 1 ∨
    ∃ k, s.ring.occupant k = c ∧ (s.ring.state k = .ready ∨ s.ring.state k = .draining)
  drains : ∃ t, Drains s t ∧ ∀ c ∈ s.ring.history.published, t.ring.history.drained.count c = 1
  abortedNever : ∀ c ∈ s.ring.history.aborted,
    c ∉ s.ring.history.published ∧ c ∉ s.ring.history.drained
  handle : ∀ i handle, (s.claimants i).handle = some handle →
    handle ∈ s.ring.history.issued ∧ handle ≠ 0 ∧
      ∃ k, decodeHandle g handle = some k ∧ (s.claimants i).slot = some k
  handlesDiffer : ∀ m n a b, m < n → n - m < 2 ^ 48 → s.ring.history.issued[m]? = some a →
    s.ring.history.issued[n]? = some b → a ≠ b
  pending : ∀ claimed, s.observer = .loaded claimed true → pendingResult s = some 0 →
    ∀ k, s.ring.state k = .free

/-- The slot protocol holds in every reachable state, for any number of claimants. -/
theorem slotProtocol_of_reachable (h : (machine g ι).Reachable s) : SlotProtocol s := by
  have owned := owned_of_reachable h
  obtain ⟨counted, recorded, settled⟩ := ledger_of_reachable h
  have once := recorded.published_le
  obtain ⟨t, drained, -, all⟩ := drains_all h
  refine
    { oneOwner := fun _ _ _ hi hj => owned.exclusive hi hj
      claimed := owned.claimed
      draining := owned.draining
      claimedPos := fun i k at_i => ?_
      readyPosUndo := fun i k handle at_i => ?_
      readyPosDrain := fun k at_d => ?_
      publishedOnce := fun c => by have := once c; omega
      drainedOnce := recorded.drained_le
      queued := fun _ => recorded.drained_or_queued
      drains := ⟨t, drained, all⟩
      abortedNever := fun c aborted => ?_
      handle := fun i handle carries =>
        ⟨recorded.carried i handle carries, (owned.ticketed i).decode carries⟩
      handlesDiffer := fun _ _ _ _ => recorded.handles_ne
      pending := fun _ => free_of_pending_zero owned counted settled }
  · have owes := le_census Claimant.claimedWeight s.claimants i
    have total := counted.claimed
    rcases at_i with at_i | at_i <;> simp only [at_i, Claimant.claimedWeight] at owes <;> omega
  · have owes := le_census Claimant.readyWeight s.claimants i
    have total := counted.ready
    simp only [at_i, Claimant.readyWeight] at owes
    omega
  · have total := counted.ready
    simp only [at_d, Drainer.readyWeight] at total
    omega
  · have pos := List.count_pos_iff.mpr aborted
    have one := once c
    have fewer := recorded.drained_le c
    exact ⟨List.count_eq_zero.mp (by omega), List.count_eq_zero.mp (by omega)⟩

def twoSlots : Geometry := ⟨2, 64, fun i => 4096 + i.val * 512, by decide, by decide⟩

def emptySlot : SlotData := ⟨0, 0, 0, 0, 0, 0, 0, 0, 0, 0, fun _ => ⟨0, 0, 0, 0⟩⟩

def freshRing (g : Geometry) : Receiver g :=
  ⟨fun _ => .free, fun _ => emptySlot, 0, 0, 0, 0, true, fun _ => 0, {}⟩

/-- Two claims, one published and drained, the other one refused and aborted. -/
def twoClaims : List (Action Bool) :=
  List.flatten [[.claimant false .claim, .claimant true .claim],
    List.replicate 6 (.claimant false .tick), List.replicate 7 (.claimant true .tick),
    [.claimant false .tick,
      .claimant false (.write { emptySlot with moduleId := 7, requestSeq := 1, status := 200 }),
      .claimant false .publish, .claimant false .tick, .claimant true .publish,
      .claimant true .tick],
    List.replicate 3 (.claimant false .tick), List.replicate 4 (.claimant true .tick),
    [.drainer .drain, .drainer .tick, .drainer .tick, .drainer (.send true), .drainer .tick]]

def idleState (g : Geometry) (ι : Type*) : State g ι :=
  ⟨freshRing g, fun _ => .idle, .idle, .idle⟩

theorem idleState_init : (machine g ι).init (idleState g ι) :=
  ⟨⟨fun _ => rfl, rfl, rfl, rfl, rfl, rfl, rfl⟩, fun _ => rfl, rfl, rfl⟩

def afterTwoClaims : State twoSlots Bool := (machine twoSlots Bool).runFrom twoClaims (idleState _ _)

theorem slotProtocol_twoClaims : afterTwoClaims.ring.history.drained = [0] ∧
    afterTwoClaims.ring.history.aborted = [1] ∧ SlotProtocol afterTwoClaims :=
  ⟨by decide +kernel, by decide +kernel,
    slotProtocol_of_reachable ((Machine.Reachable.init idleState_init).runFrom _)⟩

end Busker.ResponseRing
