import Mathlib.Data.List.Nodup
import Mathlib.Data.Nat.Notation

/-! Services with several users where the last one to leave sees to it that the service is
stopped. Services are numbered as they are started; `closing k` are those party `k` has
undertaken to stop. -/

namespace Interleaving

variable {κ : Type*}

/-- No service is lost, none is stopped under its users and, if `sole`, none twice. -/
structure Custody (sole : Prop) (started : ℕ) (used : ℕ → Prop) (closing : κ → ℕ → Prop)
    (stopped : List ℕ) : Prop where
  known : ∀ i, used i ∨ (∃ k, closing k i) ∨ i ∈ stopped → i < started
  kept : ∀ i < started, used i ∨ (∃ k, closing k i) ∨ i ∈ stopped
  apart : ∀ i, used i → (∀ k, ¬closing k i) ∧ i ∉ stopped
  pending : sole → ∀ k i, closing k i → i ∉ stopped
  single : sole → ∀ k l i, closing k i → closing l i → k = l
  once : sole → stopped.Nodup

namespace Custody

variable {sole : Prop} {started : ℕ} {used used' : ℕ → Prop} {closing closing' : κ → ℕ → Prop}
  {stopped : List ℕ}

theorem empty : Custody sole 0 (fun _ => False) (fun (_ : κ) _ => False) [] where
  known := by simp
  kept := by simp
  apart := by simp
  pending := by simp
  single := by simp
  once := fun _ => List.nodup_nil

theorem congr (h : Custody sole started used closing stopped) (uses : ∀ i, used' i ↔ used i)
    (closes : ∀ k i, closing' k i ↔ closing k i) : Custody sole started used' closing' stopped := by
  obtain rfl : used' = used := funext fun i => propext (uses i)
  obtain rfl : closing' = closing := funext fun k => funext fun i => propext (closes k i)
  exact h

/-- A user starts a service. -/
theorem start (h : Custody sole started used closing stopped)
    (uses : ∀ i, used' i ↔ used i ∨ i = started) :
    Custody sole (started + 1) used' closing stopped where
  known i held := by
    rw [uses] at held
    rcases held with (held | rfl) | held
    · exact Nat.lt_succ_of_lt (h.known i (.inl held))
    · exact Nat.lt_succ_self _
    · exact Nat.lt_succ_of_lt (h.known i (.inr held))
  kept i below := by
    rw [uses]
    rcases Nat.lt_succ_iff_lt_or_eq.mp below with below | rfl
    · exact (h.kept i below).imp_left .inl
    · exact .inl (.inr rfl)
  apart i held := by
    rcases (uses i).mp held with held | rfl
    · exact h.apart i held
    · exact ⟨fun k closes => Nat.lt_irrefl _ (h.known _ (.inr (.inl ⟨k, closes⟩))),
        fun closed => Nat.lt_irrefl _ (h.known _ (.inr (.inr closed)))⟩
  pending := h.pending
  single := h.single
  once := h.once

/-- A user leaves, and `party` undertakes to stop what nobody uses any more. -/
theorem leave (h : Custody sole started used closing stopped) (party : κ) (uses : ∀ i, used' i → used i)
    (left : ∀ i, used i → used' i ∨ closing' party i) (closes : ∀ k i, closing k i → closing' k i)
    (undertaken : ∀ k i, closing' k i → closing k i ∨ k = party ∧ used i ∧ ¬used' i) :
    Custody sole started used' closing' stopped where
  known i := by
    rintro (held | ⟨k, closes⟩ | closed)
    · exact h.known i (.inl (uses i held))
    · rcases undertaken k i closes with closes | ⟨-, held, -⟩
      · exact h.known i (.inr (.inl ⟨k, closes⟩))
      · exact h.known i (.inl held)
    · exact h.known i (.inr (.inr closed))
  kept i below := by
    rcases h.kept i below with held | ⟨k, was⟩ | closed
    · exact (left i held).imp_right fun closes => .inl ⟨party, closes⟩
    · exact .inr (.inl ⟨k, closes k i was⟩)
    · exact .inr (.inr closed)
  apart i held := by
    obtain ⟨calm, running⟩ := h.apart i (uses i held)
    exact ⟨fun k closes => (undertaken k i closes).elim (calm k) fun ⟨_, _, gone⟩ => gone held, running⟩
  pending only k i closes :=
    (undertaken k i closes).elim (h.pending only k i) fun ⟨_, held, _⟩ => (h.apart i held).2
  single only k l i first second := by
    rcases undertaken k i first with was | ⟨rfl, held, -⟩ <;>
      rcases undertaken l i second with was' | ⟨rfl, held', -⟩
    · exact h.single only k l i was was'
    · exact absurd was ((h.apart i held').1 k)
    · exact absurd was' ((h.apart i held).1 l)
    · rfl
  once := h.once

/-- A party stops a service it has undertaken to stop. -/
theorem stop (h : Custody sole started used closing stopped) {k : κ} {j : ℕ} (its : closing k j)
    (uses : ∀ i, used' i ↔ used i) (fewer : ∀ l i, closing' l i → closing l i)
    (others : ∀ l i, closing l i → closing' l i ∨ i = j) (gone : ¬closing' k j) :
    Custody sole started used' closing' (stopped ++ [j]) where
  known i := by
    rintro (held | ⟨l, closes⟩ | closed)
    · exact h.known i (.inl ((uses i).mp held))
    · exact h.known i (.inr (.inl ⟨l, fewer l i closes⟩))
    · rcases List.mem_append.mp closed with closed | new
      · exact h.known i (.inr (.inr closed))
      · exact List.mem_singleton.mp new ▸ h.known j (.inr (.inl ⟨k, its⟩))
  kept i below := by
    rcases h.kept i below with held | ⟨l, closes⟩ | closed
    · exact .inl ((uses i).mpr held)
    · rcases others l i closes with closes | rfl
      · exact .inr (.inl ⟨l, closes⟩)
      · exact .inr (.inr (by simp))
    · exact .inr (.inr (List.mem_append_left _ closed))
  apart i held := by
    obtain ⟨calm, running⟩ := h.apart i ((uses i).mp held)
    refine ⟨fun l closes => calm l (fewer l i closes), fun closed => ?_⟩
    rcases List.mem_append.mp closed with closed | new
    · exact running closed
    · exact calm k (List.mem_singleton.mp new ▸ its)
  pending only l i closes closed := by
    rcases List.mem_append.mp closed with closed | new
    · exact h.pending only l i (fewer l i closes) closed
    · obtain rfl := List.mem_singleton.mp new
      obtain rfl := h.single only l k i (fewer l i closes) its
      exact gone closes
  single only l m i first second := h.single only l m i (fewer l i first) (fewer m i second)
  once only := by
    rw [List.nodup_append_comm]
    exact List.nodup_cons.mpr ⟨h.pending only k j its, h.once only⟩

/-- A party undertakes once more to stop a service without users. -/
theorem undertake (h : Custody sole started used closing stopped) (shared : ¬sole) {j : ℕ}
    (below : j < started) (free : ¬used j) (uses : ∀ i, used' i ↔ used i)
    (closes : ∀ l i, closing l i → closing' l i)
    (undertaken : ∀ l i, closing' l i → closing l i ∨ i = j) :
    Custody sole started used' closing' stopped where
  known i := by
    rintro (held | ⟨l, is⟩ | closed)
    · exact h.known i (.inl ((uses i).mp held))
    · rcases undertaken l i is with was | rfl
      · exact h.known i (.inr (.inl ⟨l, was⟩))
      · exact below
    · exact h.known i (.inr (.inr closed))
  kept i below := by
    rcases h.kept i below with held | ⟨l, was⟩ | closed
    · exact .inl ((uses i).mpr held)
    · exact .inr (.inl ⟨l, closes l i was⟩)
    · exact .inr (.inr closed)
  apart i held := by
    have held := (uses i).mp held
    obtain ⟨calm, running⟩ := h.apart i held
    exact ⟨fun l is => (undertaken l i is).elim (calm l) fun same => free (same ▸ held), running⟩
  pending only := absurd only shared
  single only := absurd only shared
  once only := absurd only shared

end Custody

end Interleaving
