import Mathlib.Data.List.Forall2

/-! Results that may be errors: what a bind returned from, and a list of calls. -/
namespace Unwinding

section
variable {ε α β : Type} {f : α → Except ε β} {x : Except ε α} {b : β} {l : List α} {l' : List β}

theorem bind_eq_ok : x >>= f = .ok b ↔ ∃ a, x = .ok a ∧ f a = .ok b := by
  cases x with
  | error e => simp [bind, Except.bind]
  | ok a => simp [bind, Except.bind]

/-- Calls one after the other return exactly if each does. -/
theorem mapM_eq_ok : l.mapM f = .ok l' ↔ List.Forall₂ (fun a b => f a = .ok b) l l' := by
  induction l generalizing l' with
  | nil =>
      rw [List.mapM_nil, List.forall₂_nil_left_iff]
      exact ⟨fun same => (Except.ok.inj same).symm, fun same => congrArg Except.ok same.symm⟩
  | cons a rest ih =>
      rw [List.mapM_cons, List.forall₂_cons_left_iff, bind_eq_ok]
      constructor
      · rintro ⟨b, first, others⟩
        obtain ⟨bs, later, same⟩ := bind_eq_ok.mp others
        exact ⟨b, bs, first, ih.mp later, (Except.ok.inj same).symm⟩
      · rintro ⟨b, bs, first, later, rfl⟩
        exact ⟨b, first, bind_eq_ok.mpr ⟨bs, ih.mpr later, rfl⟩⟩

/-- Related lists from elements that each have a partner. -/
theorem exists_forall₂ {R : α → β → Prop} (each : ∀ a ∈ l, ∃ b, R a b) :
    ∃ l', List.Forall₂ R l l' := by
  induction l with
  | nil => exact ⟨[], .nil⟩
  | cons a rest ih =>
      obtain ⟨first, others⟩ := List.forall_mem_cons.mp each
      obtain ⟨b, related⟩ := first
      obtain ⟨bs, later⟩ := ih others
      exact ⟨b :: bs, .cons related later⟩

theorem forall₂_right {R : α → β → Prop} (related : List.Forall₂ R l l') {a : α} (mem : a ∈ l) :
    ∃ b ∈ l', R a b := by
  induction related with
  | nil => cases mem
  | cons first later ih =>
      rcases List.mem_cons.mp mem with rfl | mem
      · exact ⟨_, List.mem_cons_self, first⟩
      · obtain ⟨b, mem', same⟩ := ih mem
        exact ⟨b, List.mem_cons_of_mem _ mem', same⟩

theorem forall₂_left {R : α → β → Prop} (related : List.Forall₂ R l l') {b : β} (mem : b ∈ l') :
    ∃ a ∈ l, R a b := forall₂_right related.flip mem

/-- Calls that return what a function gives. -/
theorem mapM_eq_map {g : α → β} (each : ∀ a ∈ l, f a = .ok (g a)) : l.mapM f = .ok (l.map g) := by
  rw [mapM_eq_ok, List.forall₂_map_right_iff, List.forall₂_same]
  exact each

end

end Unwinding
