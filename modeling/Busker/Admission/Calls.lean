import Busker.Admission.Bridge
import Busker.RequestTable.Registered

/-! What the calls on the dispatcher's table and on the shim's do to what the other reads. -/

namespace Busker.Admission

open RequestTable CallbackDispatch

theorem toNat_uint64 {n : ℤ} (low : 0 ≤ n) (high : n ≤ longMax) : (uint64 n).toNat = n.toNat := by
  have bound : n < 2 ^ 64 := by
    have : longMax < 2 ^ 64 := by decide
    omega
  rw [uint64, Int.emod_eq_of_lt low bound, UInt64.toNat_ofNat']
  omega

theorem uint64_inj {a b : ℤ} (low : 0 ≤ a) (high : a ≤ longMax) (low' : 0 ≤ b) (high' : b ≤ longMax)
    (same : uint64 a = uint64 b) : a = b := by
  have := congrArg UInt64.toNat same
  rw [toNat_uint64 low high, toNat_uint64 low' high'] at this
  omega

theorem uint64_ne_zero {n : ℤ} (low : 0 < n) (high : n ≤ longMax) : uint64 n ≠ 0 := by
  intro zero
  have := congrArg UInt64.toNat zero
  rw [toNat_uint64 low.le high, UInt64.toNat_zero] at this
  omega

theorem long_uint64 {n : ℤ} (low : 0 ≤ n) (high : n ≤ longMax) : long (uint64 n) = n := by
  have bound : n < 2 ^ 63 := by
    have : longMax < 2 ^ 63 := by decide
    omega
  rw [long, toNat_uint64 low high, if_pos (by omega)]
  omega

section table

variable {κ : Type} [DecidableEq κ] {receiver receiver' : Receiver κ} {ctx : κ} {fuel : ℕ}

theorem resize_ctx {capacity : ℕ} {allocated done : Bool}
    (resized : resizeResponseRequests fuel receiver capacity allocated = some (done, receiver')) :
    receiver'.ctx = receiver.ctx := by
  unfold resizeResponseRequests at resized
  split at resized
  · cases resized
    rfl
  · split at resized
    · cases resized
      rfl
    · obtain ⟨buckets, -, same⟩ := Option.bind_eq_some_iff.mp resized
      cases same
      rfl

theorem grow_ctx {allocated done : Bool}
    (grown : growResponseRequests fuel receiver allocated = some (done, receiver')) :
    receiver'.ctx = receiver.ctx := by
  unfold growResponseRequests at grown
  split at grown
  · split at grown
    · cases grown
      rfl
    · exact resize_ctx grown
  · cases grown
    rfl

theorem register_ctx {requestSeq : UInt64} {allocated done : Bool}
    (registered : registerResponseRequest fuel receiver ctx requestSeq allocated =
      some (done, receiver')) :
    receiver'.ctx = receiver.ctx := by
  unfold registerResponseRequest at registered
  obtain ⟨found, -, registered⟩ := Option.bind_eq_some_iff.mp registered
  split at registered
  · cases registered
    rfl
  · obtain ⟨⟨roomy, grown⟩, grow, registered⟩ := Option.bind_eq_some_iff.mp registered
    have same := grow_ctx grow
    simp only at registered
    split at registered <;> cases registered <;> exact same

theorem install_ctx {accepts allocated : Bool} {moduleId requestSeq : UInt64}
    (installed : installRequestDispatch fuel receiver ctx accepts moduleId requestSeq allocated =
      some (true, receiver')) :
    receiver'.ctx = Function.update receiver.ctx ctx
      ⟨moduleId, requestSeq, true, (receiver.ctx ctx).cleanup⟩ := by
  unfold installRequestDispatch at installed
  split at installed
  · cases installed
  · obtain ⟨⟨registered, after⟩, register, installed⟩ := Option.bind_eq_some_iff.mp installed
    simp only at installed
    split at installed <;> cases installed
    have same := register_ctx register
    simp [Receiver.setCtx, same]

theorem cleanup_ctx (cleaned : cleanupRequest fuel receiver ctx = some receiver') :
    receiver'.ctx = Function.update receiver.ctx ctx ⟨0, 0, false, true⟩ := by
  unfold cleanupRequest at cleaned
  obtain ⟨after, removed, cleaned⟩ := Option.bind_eq_some_iff.mp cleaned
  cases cleaned
  have same : after.ctx = receiver.ctx := by
    unfold unregisterResponseRequest at removed
    split at removed
    · cases removed
      rfl
    · obtain ⟨⟨buckets, found⟩, -, removed⟩ := Option.bind_eq_some_iff.mp removed
      cases removed
      rfl
  rw [Receiver.setCtx, same]

end table

section dispatcher

variable {τ ρ η : Type} [DecidableEq τ] {d : Dispatch τ ρ η} {worker : τ}

variable (d worker) in
/-- `allocate-identity!` throws, or takes the next number. -/
theorem allocateIdentity_cases :
    (.threw ∈ (d.allocateIdentity worker).2 ∧ (d.allocateIdentity worker).1 = d) ∨
    (.threw ∉ (d.allocateIdentity worker).2 ∧ d.nextRequestSeq ≠ longMax ∧
      (d.allocateIdentity worker).1 = { d with nextRequestSeq := d.nextRequestSeq + 1 }) := by
  unfold Dispatch.allocateIdentity
  split
  · unfold nextPositive
    by_cases full : d.nextRequestSeq = longMax
    · simp [full]
    · simp [full]
  · simp

/-- What a call leaves as it was. -/
structure SameDispatch (d d' : Dispatch τ ρ η) : Prop where
  moduleId : d'.moduleId = d.moduleId
  next : d'.nextRequestSeq = d.nextRequestSeq
  thread : d'.thread = d.thread
  closed : d'.phase = .closed ↔ d.phase = .closed
  accepting : d'.phase = .accepting → d.phase = .accepting

variable (d worker) in
/-- `register!` throws and leaves the table, or adds the entry to it. -/
theorem register_cases (moduleId requestSeq : ℤ) (entry : Entry ρ η) :
    SameDispatch d (d.register worker moduleId requestSeq entry).1 ∧
      ((.threw ∈ (d.register worker moduleId requestSeq entry).2 ∧
        ∀ q, (d.register worker moduleId requestSeq entry).1.entries.lookup q =
          d.entries.lookup q) ∨
      (.threw ∉ (d.register worker moduleId requestSeq entry).2 ∧
        d.entries.lookup requestSeq = none ∧
        ∀ q, (d.register worker moduleId requestSeq entry).1.entries.lookup q =
          if q = requestSeq then some entry else d.entries.lookup q)) := by
  unfold Dispatch.register
  split
  · cases before : d.entries.lookup requestSeq with
    | none =>
      refine ⟨⟨rfl, rfl, rfl, .rfl, id⟩, .inr ⟨by simp, rfl, fun q => ?_⟩⟩
      by_cases same : q = requestSeq
      · subst same
        simp
      · simp [same]
    | some previous =>
      refine ⟨⟨rfl, rfl, rfl, .rfl, id⟩, .inl ⟨by simp, fun q => ?_⟩⟩
      by_cases same : q = requestSeq
      · subst same
        simp [before]
      · simp [same]
  · exact ⟨⟨rfl, rfl, rfl, .rfl, id⟩, .inl ⟨by simp, fun _ => rfl⟩⟩

/-- `retire!` takes the entry out. -/
theorem retire_lookup (bound : d.thread = some worker) {requestSeq : ℤ}
    (positive : 0 < requestSeq) :
    SameDispatch d (d.retire worker d.moduleId requestSeq).1 ∧
      ∀ q, (d.retire worker d.moduleId requestSeq).1.entries.lookup q =
        if q = requestSeq then none else d.entries.lookup q := by
  have here : d.workerThread worker = true := by simp [Dispatch.workerThread, bound]
  unfold Dispatch.retire
  rw [if_neg (by simp [here]), if_neg (by simp [positive])]
  cases found : d.entries.lookup requestSeq with
  | none =>
    refine ⟨⟨rfl, rfl, rfl, .rfl, id⟩, fun q => ?_⟩
    by_cases same : q = requestSeq
    · subst same
      simpa [Dispatch.increment] using found
    · simp [same, Dispatch.increment]
  | some entry =>
    refine ⟨⟨rfl, rfl, rfl, .rfl, id⟩, fun q => ?_⟩
    by_cases same : q = requestSeq
    · subst same
      simp [Dispatch.increment]
    · simp [same, Dispatch.increment]

theorem retire_phase (moduleId requestSeq : ℤ) :
    (d.retire worker moduleId requestSeq).1.phase = d.phase := by
  unfold Dispatch.retire
  split
  · rfl
  · split
    · rfl
    · split <;> rfl

/-- A dispatcher that is not accepting gives out no number and registers nothing. -/
theorem refuses (draining : d.phase ≠ .accepting) (moduleId requestSeq : ℤ) (entry : Entry ρ η) :
    d.allocateIdentity worker = (d, [.threw]) ∧
      d.register worker moduleId requestSeq entry = (d, [.threw]) := by
  constructor
  · exact if_neg fun ready => draining ready.1
  · exact if_neg fun ready => draining ready.1

omit [DecidableEq τ] in
theorem beginDrain_lookup : SameDispatch d d.beginDrain.1 ∧ d.beginDrain.1.entries = d.entries := by
  unfold Dispatch.beginDrain
  split
  · exact ⟨⟨rfl, rfl, rfl, by simp [*], by simp⟩, rfl⟩
  · exact ⟨⟨rfl, rfl, rfl, .rfl, id⟩, rfl⟩

omit [DecidableEq τ] in
theorem finish_lookup : d.finish.1.phase = .closed ∧ d.finish.1.moduleId = d.moduleId ∧
    d.finish.1.nextRequestSeq = d.nextRequestSeq ∧ d.finish.1.thread = d.thread ∧
    ∀ q, d.finish.1.entries.lookup q = none := by
  unfold Dispatch.finish
  split
  · rename_i empty
    refine ⟨rfl, rfl, rfl, rfl, fun q => ?_⟩
    have nothing : d.entries.entries = [] := List.isEmpty_iff.mp empty
    show List.dlookup q d.entries.entries = none
    simp [nothing]
  · exact ⟨rfl, rfl, rfl, rfl, fun q => by simp⟩

end dispatcher

end Busker.Admission
