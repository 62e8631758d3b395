import Busker.Unwinding.Program
import Mathlib.Data.List.Basic

/-! What holds after a program, whether it returns or throws, and the same for programs
that only add to a log. -/

namespace Unwinding.Program

variable {σ ε α β ι κ : Type}

/-- After `p` from `s`, `Q` holds of what it returned and `E` of what it threw, and of the
state it left. -/
structure Ends (p : Program σ ε α) (s : σ) (Q : α → σ → Prop) (E : ε → σ → Prop) : Prop where
  returns : ∀ a t, outcome p s = (.ok a, t) → Q a t
  throws : ∀ e t, outcome p s = (.error e, t) → E e t

section ends

variable {p : Program σ ε α} {f : α → Program σ ε β} {s : σ} {Q Q' : α → σ → Prop}
  {E E' F : ε → σ → Prop} {R : β → σ → Prop}

theorem Ends.pure {a : α} (holds : Q a s) : Ends (pure a : Program σ ε α) s Q E where
  returns := by
    rintro _ _ ⟨⟩
    exact holds
  throws := by
    rintro _ _ ⟨⟩

theorem Ends.throw {e : ε} (holds : E e s) : Ends (throw e : Program σ ε α) s Q E where
  returns := by
    rintro _ _ ⟨⟩
  throws := by
    rintro _ _ ⟨⟩
    exact holds

theorem Ends.modify {f : σ → σ} {Q : Unit → σ → Prop} (holds : Q () (f s)) :
    Ends (modify f : Program σ ε Unit) s Q E where
  returns := by
    rintro _ _ ⟨⟩
    exact holds
  throws := by
    rintro _ _ ⟨⟩

theorem Ends.get {Q : σ → σ → Prop} (holds : Q s s) : Ends (get : Program σ ε σ) s Q E where
  returns := by
    rintro _ _ ⟨⟩
    exact holds
  throws := by
    rintro _ _ ⟨⟩

theorem Ends.weaken (h : Ends p s Q E) (returns : ∀ a t, Q a t → Q' a t)
    (throws : ∀ e t, E e t → E' e t) : Ends p s Q' E' :=
  ⟨fun a t ended => returns a t (h.returns a t ended), fun e t ended => throws e t (h.throws e t ended)⟩

theorem Ends.bind (first : Ends p s Q E) (second : ∀ a t, Q a t → Ends (f a) t R E) :
    Ends (p >>= f) s R E := by
  cases ended : outcome p s with
  | mk result t =>
    cases result with
    | ok a =>
      have later := second a t (first.returns a t ended)
      constructor
      · intro b u result
        rw [outcome_bind, ended] at result
        exact later.returns b u result
      · intro e u result
        rw [outcome_bind, ended] at result
        exact later.throws e u result
    | error e =>
      constructor
      · intro b u result
        rw [outcome_bind, ended] at result
        cases result
      · intro e' u result
        rw [outcome_bind, ended] at result
        cases result
        exact first.throws e t ended

theorem Ends.tryCatch {handler : ε → Program σ ε α} (tried : Ends p s Q F)
    (caught : ∀ e t, F e t → Ends (handler e) t Q E) : Ends (tryCatch p handler) s Q E := by
  cases ended : outcome p s with
  | mk result t =>
    cases result with
    | ok a =>
      constructor
      · intro b u result
        rw [outcome_tryCatch, ended] at result
        cases result
        exact tried.returns a t ended
      · intro e u result
        rw [outcome_tryCatch, ended] at result
        cases result
    | error e =>
      have later := caught e t (tried.throws e t ended)
      constructor
      · intro b u result
        rw [outcome_tryCatch, ended] at result
        exact later.returns b u result
      · intro e' u result
        rw [outcome_tryCatch, ended] at result
        exact later.throws e' u result

theorem Ends.when {b : Prop} [Decidable b] {p : Program σ ε Unit} {Q : Unit → σ → Prop}
    (taken : b → Ends p s Q E) (skipped : ¬b → Q () s) : Ends (when b p) s Q E := by
  unfold Program.when
  split
  · exact taken ‹b›
  · exact .pure (skipped ‹¬b›)

/-- What the body keeps is kept by the loop. -/
theorem Ends.forM {xs : List ι} {body : ι → Program σ ε Unit} {I : List ι → σ → Prop}
    (each : ∀ x rest t, I (x :: rest) t → Ends (body x) t (fun _ => I rest) E) (start : I xs s) :
    Ends (xs.forM body) s (fun _ => I []) E := by
  induction xs generalizing s with
  | nil => exact .pure start
  | cons x rest ih =>
    show Ends (body x >>= fun _ => rest.forM body) s _ _
    exact (each x rest s start).bind fun _ t kept => ih kept

end ends

/-- Adding to a log a state carries. -/
structure Log (note : σ → List κ → σ) : Prop where
  nil : ∀ s, note s [] = s
  append : ∀ s m l, note (note s m) l = note s (m ++ l)

/-- The program only adds to the log: `Q` holds of what it returned and what it added, `E` of
what it threw and what it had added by then. -/
def Traces (note : σ → List κ → σ) (p : Program σ ε α) (Q : α → List κ → Prop)
    (E : ε → List κ → Prop) : Prop :=
  ∀ s, Ends p s (fun a t => ∃ m, t = note s m ∧ Q a m) fun e t => ∃ m, t = note s m ∧ E e m

section traces

variable {note : σ → List κ → σ} {p : Program σ ε α} {f : α → Program σ ε β}
  {Q Q' : α → List κ → Prop} {E E' : ε → List κ → Prop} {R : β → List κ → Prop}

theorem Traces.weaken (h : Traces note p Q E) (returns : ∀ a m, Q a m → Q' a m)
    (throws : ∀ e m, E e m → E' e m) : Traces note p Q' E' := fun s =>
  (h s).weaken (fun a _ ⟨m, same, holds⟩ => ⟨m, same, returns a m holds⟩)
    fun e _ ⟨m, same, holds⟩ => ⟨m, same, throws e m holds⟩

theorem Traces.add {m : List κ} {Q : Unit → List κ → Prop} (holds : Q () m) :
    Traces note (modify (note · m)) Q E :=
  fun _ => .modify ⟨m, rfl, holds⟩

variable (log : Log note)

include log

theorem Traces.pure {a : α} (holds : Q a []) : Traces note (pure a) Q E :=
  fun s => .pure ⟨[], (log.nil s).symm, holds⟩

theorem Traces.throw {e : ε} (holds : E e []) : Traces note (throw e : Program σ ε α) Q E :=
  fun s => .throw ⟨[], (log.nil s).symm, holds⟩

theorem Traces.bind (first : Traces note p Q E)
    (second : ∀ a m, Q a m →
      Traces note (f a) (fun b l => R b (m ++ l)) fun e l => E e (m ++ l)) :
    Traces note (p >>= f) R E := by
  intro s
  apply (first s).bind
  rintro a _ ⟨m, rfl, holds⟩
  apply (second a m holds (note s m)).weaken
  · rintro b _ ⟨l, rfl, holds⟩
    exact ⟨m ++ l, log.append s m l, holds⟩
  · rintro e _ ⟨l, rfl, holds⟩
    exact ⟨m ++ l, log.append s m l, holds⟩

theorem Traces.when {b : Prop} [Decidable b] {p : Program σ ε Unit} {Q : Unit → List κ → Prop}
    (taken : b → Traces note p Q E) (skipped : ¬b → Q () []) : Traces note (when b p) Q E :=
  fun s => .when (fun yes => taken yes s) fun no => ⟨[], (log.nil s).symm, skipped no⟩

end traces

end Unwinding.Program
