import Mathlib.Data.List.Basic

/-! Programs that change a state and may throw, in which case the changes made so far
stay, and rules that decide when such a program completes. -/

namespace Unwinding

abbrev Program (σ ε : Type) := ExceptT ε (StateM σ)

namespace Program

variable {σ ε α β ι : Type}

/-- What a program returns or throws from a state, and the state it leaves. -/
def outcome (p : Program σ ε α) (s : σ) : Except ε α × σ := p.run.run s

@[simp] theorem outcome_pure (a : α) (s : σ) :
    outcome (pure a : Program σ ε α) s = (.ok a, s) := rfl

@[simp] theorem outcome_throw (e : ε) (s : σ) :
    outcome (throw e : Program σ ε α) s = (.error e, s) := rfl

@[simp] theorem outcome_get (s : σ) : outcome (get : Program σ ε σ) s = (.ok s, s) := rfl

@[simp] theorem outcome_modify (f : σ → σ) (s : σ) :
    outcome (modify f : Program σ ε Unit) s = (.ok (), f s) := rfl

theorem outcome_bind (p : Program σ ε α) (f : α → Program σ ε β) (s : σ) :
    outcome (p >>= f) s = match outcome p s with
      | (.ok a, t) => outcome (f a) t
      | (.error e, t) => (.error e, t) := by
  show (p.run >>= ExceptT.bindCont f).run s = _
  rw [StateT.run_bind]
  unfold outcome
  obtain ⟨result, t⟩ := p.run.run s
  cases result <;> rfl

theorem outcome_tryCatch (p : Program σ ε α) (handler : ε → Program σ ε α) (s : σ) :
    outcome (tryCatch p handler) s = match outcome p s with
      | (.ok a, t) => (.ok a, t)
      | (.error e, t) => outcome (handler e) t := by
  show (ExceptT.tryCatch p handler).run.run s = _
  unfold ExceptT.tryCatch outcome
  show (p.run >>= _ : StateM σ _).run s = _
  rw [StateT.run_bind]
  obtain ⟨result, t⟩ := p.run.run s
  cases result <;> rfl

/-- A step that is taken only if `b` holds. -/
def when (b : Prop) [Decidable b] (p : Program σ ε Unit) : Program σ ε Unit :=
  if b then p else pure ()

/-- From `s` the program completes, with a result `Q` holds of, exactly if `C` does;
otherwise it throws and leaves a state `R` holds of. -/
structure Decides (p : Program σ ε α) (s : σ) (C : Prop) (Q : α → σ → Prop) (R : σ → Prop) :
    Prop where
  completes : C → ∃ a t, outcome p s = (.ok a, t) ∧ Q a t
  throws : ¬ C → ∃ e t, outcome p s = (.error e, t) ∧ R t

section rules

variable {p : Program σ ε α} {f : α → Program σ ε β} {s : σ} {C D : Prop} {Q Q' : α → σ → Prop}
  {R R' : σ → Prop} {P : β → σ → Prop}

theorem Decides.pure {a : α} (holds : Q a s) : Decides (pure a : Program σ ε α) s True Q R :=
  ⟨fun _ => ⟨a, s, rfl, holds⟩, fun impossible => absurd trivial impossible⟩

theorem Decides.modify {f : σ → σ} {Q : Unit → σ → Prop} (holds : Q () (f s)) :
    Decides (modify f : Program σ ε Unit) s True Q R :=
  ⟨fun _ => ⟨(), f s, rfl, holds⟩, fun impossible => absurd trivial impossible⟩

theorem Decides.weaken (h : Decides p s C Q R) (same : C ↔ D) (normal : ∀ a t, Q a t → Q' a t)
    (thrown : ∀ t, R t → R' t) : Decides p s D Q' R' where
  completes := by
    intro completes
    obtain ⟨a, t, ended, holds⟩ := h.completes (same.mpr completes)
    exact ⟨a, t, ended, normal a t holds⟩
  throws := by
    intro throws
    obtain ⟨e, t, ended, holds⟩ := h.throws fun c => throws (same.mp c)
    exact ⟨e, t, ended, thrown t holds⟩

theorem Decides.bind (first : Decides p s C Q R)
    (second : ∀ a t, Q a t → Decides (f a) t D P R) : Decides (p >>= f) s (C ∧ D) P R where
  completes := by
    rintro ⟨c, d⟩
    obtain ⟨a, t, ended, holds⟩ := first.completes c
    obtain ⟨b, u, later, result⟩ := (second a t holds).completes d
    exact ⟨b, u, by rw [outcome_bind, ended]; exact later, result⟩
  throws := by
    intro not_both
    by_cases c : C
    · obtain ⟨a, t, ended, holds⟩ := first.completes c
      obtain ⟨e, u, later, result⟩ := (second a t holds).throws fun d => not_both ⟨c, d⟩
      exact ⟨e, u, by rw [outcome_bind, ended]; exact later, result⟩
    · obtain ⟨e, t, ended, holds⟩ := first.throws c
      exact ⟨e, t, by rw [outcome_bind, ended], holds⟩

end rules

/-- From every state the program completes exactly if `C` does and then brings `K` about,
and what it leaves is always related to the state before. -/
def Brings (related : σ → σ → Prop) (p : Program σ ε Unit) (C : Prop) (K : σ → Prop) : Prop :=
  ∀ s, Decides p s C (fun _ t => related s t ∧ K t) (related s)

section brings

variable {related : σ → σ → Prop} {p q : Program σ ε Unit} {C D : Prop} {K L : σ → Prop}

theorem Brings.nothing (refl : ∀ s, related s s) :
    Brings related (pure () : Program σ ε Unit) True fun _ => True :=
  fun s => .pure ⟨refl s, trivial⟩

theorem Brings.weaken (h : Brings related p C K) (same : C ↔ D) (less : ∀ t, K t → L t) :
    Brings related p D L :=
  fun s => (h s).weaken same (fun _ t => And.imp_right (less t)) fun _ => id

theorem Brings.andThen (trans : ∀ s t u, related s t → related t u → related s u)
    (stable : ∀ s t, related s t → K s → K t) (first : Brings related p C K)
    (second : Brings related q D L) :
    Brings related (p >>= fun _ => q) (C ∧ D) fun t => K t ∧ L t := by
  intro s
  apply (first s).bind
  rintro _ t ⟨moved, brought⟩
  refine (second t).weaken Iff.rfl ?_ fun u => trans s t u moved
  rintro _ u ⟨later, result⟩
  exact ⟨trans s t u moved later, stable t u later brought, result⟩

theorem Brings.forM (refl : ∀ s, related s s)
    (trans : ∀ s t u, related s t → related t u → related s u) {xs : List ι}
    {body : ι → Program σ ε Unit} {E : ι → Prop} {M : ι → σ → Prop}
    (stable : ∀ x s t, related s t → M x s → M x t)
    (each : ∀ x, Brings related (body x) (E x) (M x)) :
    Brings related (xs.forM body) (∀ x ∈ xs, E x) fun t => ∀ x ∈ xs, M x t := by
  induction xs with
  | nil =>
    refine (Brings.nothing refl).weaken ?_ ?_
    · simp
    · simp
  | cons x rest ih =>
    show Brings related (body x >>= fun _ => rest.forM body) _ _
    refine ((each x).andThen trans (stable x) ih).weaken ?_ ?_
    · simp
    · simp

theorem Brings.when (refl : ∀ s, related s s) (b : Prop) [Decidable b] (h : Brings related p C K) :
    Brings related (when b p) (b → C) fun t => b → K t := by
  unfold Program.when
  split
  · rename_i yes
    exact h.weaken (by simp [yes]) fun t brought _ => brought
  · rename_i no
    exact (Brings.nothing refl).weaken (by simp [no]) fun t _ yes => absurd yes no

end brings

end Program

end Unwinding
