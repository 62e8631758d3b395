import Busker.Dispatch.DispatchChain
import Busker.Unwinding.Results
import Mathlib.Tactic.Common

/-! The documented meaning of a dispatch chain, in which a dispatcher is left out when an
earlier one that ran has the same group, and where the loop of the code differs from it. The
loop remembers groups, and `false` is not remembered. -/

namespace Busker.Dispatch

open Unwinding

section
variable {ε α ω σ ι γ φ : Type}

/-- The function that a reference names. -/
inductive RefersTo (requiringResolve : σ → Except ε (Option φ)) :
    FunctionRef φ σ → Option φ → Prop
  | nil : RefersTo requiringResolve .nil none
  | callable (function : φ) : RefersTo requiringResolve (.callable function) (some function)
  | symbol {name : σ} {function : φ} : requiringResolve name = .ok (some function) →
      RefersTo requiringResolve (.symbol name) (some function)

/-- The first entry of the middleware is wrapped around the handler, the next around that. -/
inductive Wrapped (env : Environment ε α ω σ ι) :
    List (MiddlewareEntry ε α ω σ) → Handler ε α → Handler ε α → Prop
  | nil (handler : Handler ε α) : Wrapped env [] handler handler
  | configured {wrapRef : FunctionRef (Wrap ε α ω) σ} {wrap : Wrap ε α ω} {opts : Option ω}
      {entries : List (MiddlewareEntry ε α ω σ)} {handler next last : Handler ε α} :
      RefersTo env.wraps wrapRef (some wrap) → wrap handler opts = .ok next →
      Wrapped env entries next last →
      Wrapped env (.configured wrapRef opts :: entries) handler last
  | direct {wrapRef : FunctionRef (Wrap ε α ω) σ} {wrap : Wrap ε α ω}
      {entries : List (MiddlewareEntry ε α ω σ)} {handler next last : Handler ε α} :
      RefersTo env.wraps wrapRef (some wrap) → wrap handler none = .ok next →
      Wrapped env entries next last → Wrapped env (.direct wrapRef :: entries) handler last

/-- What the options of a dispatcher mean. -/
structure Documented (env : Environment ε α ω σ ι) (options : DispatcherConfig ε α ω σ ι γ)
    (dispatcher : Dispatcher ε α ι γ) : Prop where
  entrypoints : dispatcher.entrypoints = options.entrypoints
  group : dispatcher.group = options.group
  terminal : dispatcher.terminal = options.terminal
  matches' : RefersTo env.matchFns options.match' dispatcher.matchFn
  handler : ∃ base, RefersTo env.handlers options.handler base ∧
    Wrapped env options.middleware (base.getD fun _ => .ok env.status200)
      dispatcher.compiledHandler

/-! Compiling a dispatcher resolves its references and wraps its handler. -/

theorem thrown_eq_ok {β : Type} {result : Except ε β} {value : β} :
    thrown result = .ok value ↔ result = .ok value := by
  cases result <;> simp [thrown]

theorem resolveFunctionRef_ok {requiringResolve : σ → Except ε (Option φ)} {kind : Kind}
    {ref : FunctionRef φ σ} {function : Option φ}
    (resolved : resolveFunctionRef requiringResolve kind ref = .ok function) :
    RefersTo requiringResolve ref function := by
  cases ref with
  | nil =>
      obtain rfl := Except.ok.inj resolved
      exact .nil
  | callable own =>
      obtain rfl := Except.ok.inj resolved
      exact .callable own
  | symbol name =>
      obtain ⟨found, asked, rest⟩ := bind_eq_ok.mp resolved
      cases found with
      | none => cases rest
      | some own =>
          obtain rfl := Except.ok.inj rest
          exact .symbol (thrown_eq_ok.mp asked)
  | other => cases resolved

theorem compileMiddlewareEntry_ok {env : Environment ε α ω σ ι}
    {entry : MiddlewareEntry ε α ω σ} {entries : List (MiddlewareEntry ε α ω σ)}
    {handler next last : Handler ε α}
    (compiled : compileMiddlewareEntry env handler entry = .ok next)
    (wrapped : Wrapped env entries next last) : Wrapped env (entry :: entries) handler last := by
  cases entry with
  | configured wrapRef opts =>
      obtain ⟨found, resolved, rest⟩ := bind_eq_ok.mp compiled
      cases found with
      | none => cases rest
      | some wrap =>
          exact .configured (resolveFunctionRef_ok resolved) (thrown_eq_ok.mp rest) wrapped
  | direct wrapRef =>
      cases wrapRef with
      | nil => cases compiled
      | other => cases compiled
      | _ =>
          obtain ⟨found, resolved, rest⟩ := bind_eq_ok.mp compiled
          cases found with
          | none => cases rest
          | some wrap =>
              exact .direct (resolveFunctionRef_ok resolved) (thrown_eq_ok.mp rest) wrapped

theorem foldlM_compileMiddlewareEntry {env : Environment ε α ω σ ι}
    {entries : List (MiddlewareEntry ε α ω σ)} {handler last : Handler ε α}
    (compiled : entries.foldlM (compileMiddlewareEntry env) handler = .ok last) :
    Wrapped env entries handler last := by
  induction entries generalizing handler with
  | nil =>
      obtain rfl := Except.ok.inj compiled
      exact .nil handler
  | cons entry entries ih =>
      rw [List.foldlM_cons] at compiled
      obtain ⟨next, first, rest⟩ := bind_eq_ok.mp compiled
      exact compileMiddlewareEntry_ok first (ih rest)

theorem compileDispatcher_ok {env : Environment ε α ω σ ι}
    {options : DispatcherConfig ε α ω σ ι γ} {dispatcher : Dispatcher ε α ι γ}
    (compiled : compileDispatcher env options = .ok dispatcher) :
    Documented env options dispatcher := by
  obtain ⟨matchFn, matched, compiled⟩ := bind_eq_ok.mp compiled
  obtain ⟨base, handled, compiled⟩ := bind_eq_ok.mp compiled
  obtain ⟨handler, wrapped, compiled⟩ := bind_eq_ok.mp compiled
  obtain rfl := Except.ok.inj compiled
  exact ⟨rfl, rfl, rfl, resolveFunctionRef_ok matched, base, resolveFunctionRef_ok handled,
    foldlM_compileMiddlewareEntry wrapped⟩

/-- The code's memory of groups: the keys of the dispatchers that ran. -/
def Remembers (matchedGroups : List (Group γ)) (earlier : List (Dispatcher ε α ι γ)) : Prop :=
  .nil ∉ matchedGroups ∧ .boolFalse ∉ matchedGroups ∧
    ∀ key, .key key ∈ matchedGroups ↔ ∃ other ∈ earlier, other.group = .key key

theorem Remembers.conjGroup {matchedGroups : List (Group γ)} {earlier : List (Dispatcher ε α ι γ)}
    (remembers : Remembers matchedGroups earlier) (dispatcher : Dispatcher ε α ι γ) :
    Remembers (conjGroup dispatcher.group matchedGroups) (dispatcher :: earlier) := by
  obtain ⟨noNil, noFalse, keys⟩ := remembers
  cases group : dispatcher.group with
  | key own =>
      refine ⟨by simpa [Dispatch.conjGroup] using noNil,
        by simpa [Dispatch.conjGroup] using noFalse, fun key => ?_⟩
      simp [Dispatch.conjGroup, keys, group, eq_comm]
  | _ =>
      refine ⟨noNil, noFalse, fun key => ?_⟩
      simp [Dispatch.conjGroup, keys, group]

variable [DecidableEq γ]

/-- No earlier dispatcher that ran has the group of this one, or it has none. -/
def Dispatcher.vacant (dispatcher : Dispatcher ε α ι γ) (earlier : List (Dispatcher ε α ι γ)) :
    Bool :=
  decide (dispatcher.group = .nil) || earlier.all fun other => other.group != dispatcher.group

/-- The code asks for the group as documented, but takes `false` for free. -/
theorem Remembers.available {matchedGroups : List (Group γ)} {earlier : List (Dispatcher ε α ι γ)}
    (remembers : Remembers matchedGroups earlier) (dispatcher : Dispatcher ε α ι γ) :
    groupAvailable dispatcher.group matchedGroups =
      (decide (dispatcher.group = .boolFalse) || dispatcher.vacant earlier) := by
  obtain ⟨noNil, noFalse, keys⟩ := remembers
  unfold groupAvailable Dispatcher.vacant
  cases group : dispatcher.group with
  | nil => simp
  | boolFalse => simp [noFalse]
  | key own =>
      apply Bool.eq_iff_iff.mpr
      simp [keys]

variable [DecidableEq ι]

/-- The documented meaning, with the dispatchers that ran before. -/
def interpret (env : Environment ε α ω σ ι) (earlier : List (Dispatcher ε α ι γ)) (current : α)
    (position : ℕ) : List (Dispatcher ε α ι γ) → Outcome ε α
  | [] => ([], .ok (if earlier.isEmpty then env.status200 else current))
  | dispatcher :: more =>
      match dispatcher.accepts current with
      | .error error => ([], .error error)
      | .ok accepts =>
          if dispatcher.bound (env.entrypoint current) && dispatcher.vacant earlier && accepts then
            match dispatcher.compiledHandler current with
            | .error error => ([(position, current)], .error error)
            | .ok result =>
                if dispatcher.terminal then ([(position, current)], .ok result)
                else (interpret env (dispatcher :: earlier) result (position + 1) more).after
                  position current
          else interpret env earlier current (position + 1) more

/-- No dispatcher with the group `false` comes up, its entrypoint and match function accepting
the current value, after another with the group `false` has run. -/
def FalseGroupOnce (env : Environment ε α ω σ ι) (earlier : List (Dispatcher ε α ι γ))
    (current : α) : List (Dispatcher ε α ι γ) → Prop
  | [] => True
  | dispatcher :: more =>
      match dispatcher.accepts current with
      | .error _ => True
      | .ok accepts =>
          if dispatcher.bound (env.entrypoint current) && accepts then
            if dispatcher.vacant earlier then
              match dispatcher.compiledHandler current with
              | .error _ => True
              | .ok result => dispatcher.terminal = true ∨
                  FalseGroupOnce env (dispatcher :: earlier) result more
            else dispatcher.group ≠ .boolFalse ∧ FalseGroupOnce env earlier current more
          else FalseGroupOnce env earlier current more

/-- What is interpreted from a position on runs at no earlier position. -/
theorem interpret_positions (env : Environment ε α ω σ ι) (earlier : List (Dispatcher ε α ι γ))
    (current : α) (position : ℕ) (dispatchers : List (Dispatcher ε α ι γ)) :
    ∀ ran ∈ (interpret env earlier current position dispatchers).1, position ≤ ran.1 := by
  induction dispatchers generalizing earlier current position with
  | nil => simp [interpret]
  | cons dispatcher more ih =>
      unfold interpret
      cases dispatcher.accepts current with
      | error error => simp
      | ok accepts =>
          dsimp only
          by_cases runs : (dispatcher.bound (env.entrypoint current) && dispatcher.vacant earlier &&
              accepts) = true
          · rw [if_pos runs]
            cases dispatcher.compiledHandler current with
            | error error => simp
            | ok result =>
                dsimp only
                by_cases terminal : dispatcher.terminal = true
                · simp [terminal]
                · rw [if_neg terminal]
                  intro ran inside
                  rcases List.mem_cons.mp inside with rfl | later
                  · exact Nat.le_refl position
                  · have := ih (dispatcher :: earlier) result (position + 1) ran later
                    omega
          · rw [if_neg runs]
            intro ran inside
            have := ih earlier current (position + 1) ran inside
            omega

theorem Outcome.after_inj {position : ℕ} {value : α} {later other : Outcome ε α} :
    later.after position value = other.after position value ↔ later = other := by
  constructor
  · intro same
    obtain ⟨ran, result⟩ := Prod.mk.inj same
    exact Prod.ext (List.cons.inj ran).2 result
  · exact fun same => same ▸ rfl

/-- The loop and the interpretation agree exactly while `false` is not met twice. -/
theorem dispatch_eq_interpret_iff (env : Environment ε α ω σ ι)
    {matchedGroups : List (Group γ)} {earlier : List (Dispatcher ε α ι γ)}
    (remembers : Remembers matchedGroups earlier) (current : α) (position : ℕ)
    (dispatchers : List (Dispatcher ε α ι γ)) :
    dispatch env current matchedGroups (!earlier.isEmpty) position dispatchers =
        interpret env earlier current position dispatchers ↔
      FalseGroupOnce env earlier current dispatchers := by
  induction dispatchers generalizing matchedGroups earlier current position with
  | nil =>
      cases earlier with
      | nil => simp [dispatch, interpret, FalseGroupOnce]
      | cons other earlier => simp [dispatch, interpret, FalseGroupOnce]
  | cons dispatcher more ih =>
      have skipped := ih remembers current (position + 1)
      have taken (result : α) := ih (remembers.conjGroup dispatcher) result (position + 1)
      have later := interpret_positions env earlier current (position + 1) more
      unfold dispatch interpret FalseGroupOnce
      rw [remembers.available]
      cases dispatcher.accepts current with
      | error error => simp
      | ok accepts =>
          dsimp only
          cases accepts with
          | false => simpa using skipped
          | true =>
              cases dispatcher.bound (env.entrypoint current) with
              | false => simpa using skipped
              | true =>
                  simp only [Bool.true_and, Bool.and_true, Bool.or_eq_true, decide_eq_true_eq,
                    if_true]
                  cases dispatcher.vacant earlier with
                  | true =>
                      simp only [or_true, if_true]
                      cases dispatcher.compiledHandler current with
                      | error error => simp
                      | ok result =>
                          dsimp only
                          cases dispatcher.terminal with
                          | true => simp
                          | false =>
                              simp only [Bool.false_eq_true, if_false, false_or]
                              rw [Outcome.after_inj]
                              exact taken result
                  | false =>
                      simp only [Bool.false_eq_true, or_false, if_false]
                      by_cases isFalse : dispatcher.group = .boolFalse
                      · simp only [isFalse, if_true, ne_eq, not_true_eq_false, false_and, iff_false]
                        -- The code runs it here; the interpretation runs nothing before the next.
                        intro same
                        have here (outcome : Outcome ε α)
                            (equal : outcome = interpret env earlier current (position + 1) more) :
                            (position, current) ∉ outcome.1 := by
                          subst equal
                          intro inside
                          have := later _ inside
                          omega
                        apply here _ same
                        cases dispatcher.compiledHandler current with
                        | error error => simp
                        | ok result => cases dispatcher.terminal <;> simp [Outcome.after]
                      · rw [if_neg isFalse]
                        simpa [isFalse] using skipped

theorem buildDispatchHandler_ok {env : Environment ε α ω σ ι}
    {config : List (DispatcherConfig ε α ω σ ι γ)} {handler : α → Outcome ε α}
    (built : buildDispatchHandler env config = .ok handler) :
    ∃ dispatchers : List (Dispatcher ε α ι γ),
      List.Forall₂ (Documented env) config dispatchers ∧
        handler = fun req => dispatch env
          (env.withEntrypoint req (env.resolveEntrypoint req)) [] false 0 dispatchers := by
  obtain ⟨dispatchers, compiled, rest⟩ := bind_eq_ok.mp built
  refine ⟨dispatchers, ?_, (Except.ok.inj rest).symm⟩
  exact (mapM_eq_ok.mp compiled).imp fun _ _ done => compileDispatcher_ok done

/-- At most one dispatcher with the group `false` is enough. -/
theorem falseGroupOnce_of_single (env : Environment ε α ω σ ι)
    {earlier dispatchers : List (Dispatcher ε α ι γ)}
    (single : (earlier ++ dispatchers).countP (·.group = .boolFalse) ≤ 1) (current : α) :
    FalseGroupOnce env earlier current dispatchers := by
  induction dispatchers generalizing earlier current with
  | nil => trivial
  | cons dispatcher more ih =>
      rw [List.countP_append, List.countP_cons] at single
      have skipped : FalseGroupOnce env earlier current more :=
        ih (by rw [List.countP_append]; omega) current
      have taken (result : α) : FalseGroupOnce env (dispatcher :: earlier) result more :=
        ih (by rw [List.cons_append, List.countP_cons, List.countP_append]; omega) result
      unfold FalseGroupOnce
      cases dispatcher.accepts current with
      | error error => trivial
      | ok accepts =>
          dsimp only
          split
          · split
            · cases dispatcher.compiledHandler current with
              | error error => trivial
              | ok result => exact .inr (taken result)
            · rename_i occupied
              refine ⟨fun isFalse => ?_, skipped⟩
              have other : 0 < earlier.countP (·.group = .boolFalse) := by
                rw [List.countP_pos_iff]
                simpa [Dispatcher.vacant, isFalse] using occupied
              rw [if_pos (by simpa using isFalse)] at single
              omega
          · exact skipped

end

/-- Values are lists of numbers; no symbols are resolved. -/
def listEnvironment : Environment Unit (List ℕ) Unit Unit Unit where
  matchFns _ := .error ()
  handlers _ := .error ()
  wraps _ := .error ()
  entrypoint _ := ()
  withEntrypoint value _ := value
  resolveEntrypoint _ := ()
  status200 := [200]

/-- A dispatcher that puts a number in front. -/
def pushing (group : Group ℕ) (number : ℕ) : DispatcherConfig Unit (List ℕ) Unit Unit Unit ℕ where
  entrypoints := none
  group := group
  match' := .nil
  handler := .callable fun value => .ok (number :: value)
  middleware := []
  terminal := false

end Busker.Dispatch
