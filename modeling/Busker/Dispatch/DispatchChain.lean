import Mathlib.Data.Nat.Notation

/-! The dispatch chain as it is compiled from the configuration: functions and symbols are
resolved, handlers are wrapped, and a request goes through the dispatchers in order. -/

namespace Busker.Dispatch

/-- The value of `:group`. A key is any value that is neither `nil` nor `false`. -/
inductive Group (γ : Type)
  | nil
  | boolFalse
  | key (group : γ)
  deriving DecidableEq, Repr

/-- A value where a function reference is expected. -/
inductive FunctionRef (φ σ : Type)
  | nil
  | callable (function : φ)
  | symbol (name : σ)
  | other

inductive Kind
  | matcher
  | handler
  | middleware
  deriving DecidableEq, Repr

inductive CompileError (ε : Type)
  | notCallable (kind : Kind)
  | notFunction (kind : Kind)
  | invalidMiddleware
  | nullPointer
  | thrown (error : ε)

section
variable (ε α ω : Type)

/-- A function of the current value. -/
abbrev Handler := α → Except ε α

abbrev MatchFn := α → Except ε Bool

/-- A middleware function, called with options or without. -/
abbrev Wrap := Handler ε α → Option ω → Except ε (Handler ε α)

end

/-- An entry of `:middleware`: a vector of a reference and options, or a reference. -/
inductive MiddlewareEntry (ε α ω σ : Type)
  | configured (wrapRef : FunctionRef (Wrap ε α ω) σ) (opts : Option ω)
  | direct (wrapRef : FunctionRef (Wrap ε α ω) σ)

/-- An entry of `:dispatch`. -/
structure DispatcherConfig (ε α ω σ ι γ : Type) where
  entrypoints : Option (List ι)
  group : Group γ
  match' : FunctionRef (MatchFn ε α) σ
  handler : FunctionRef (Handler ε α) σ
  middleware : List (MiddlewareEntry ε α ω σ)
  terminal : Bool

structure Dispatcher (ε α ι γ : Type) where
  entrypoints : Option (List ι)
  group : Group γ
  matchFn : Option (MatchFn ε α)
  compiledHandler : Handler ε α
  terminal : Bool

/-- What the configuration is compiled in: `requiring-resolve` for each kind of function, and
the values that are dispatched. -/
structure Environment (ε α ω σ ι : Type) where
  matchFns : σ → Except ε (Option (MatchFn ε α))
  handlers : σ → Except ε (Option (Handler ε α))
  wraps : σ → Except ε (Option (Wrap ε α ω))
  entrypoint : α → ι
  withEntrypoint : α → ι → α
  resolveEntrypoint : α → ι
  status200 : α

section
variable {ε α ω σ ι γ φ : Type}

def thrown {β : Type} : Except ε β → Except (CompileError ε) β
  | .ok value => .ok value
  | .error error => .error (.thrown error)

/-- `resolve-function-ref`; what `requiring-resolve` returns may not be callable. -/
def resolveFunctionRef (requiringResolve : σ → Except ε (Option φ)) (kind : Kind) :
    FunctionRef φ σ → Except (CompileError ε) (Option φ)
  | .nil => .ok none
  | .callable function => .ok (some function)
  | .symbol name => do
      match ← thrown (requiringResolve name) with
      | some function => return some function
      | none => .error (.notCallable kind)
  | .other => .error (.notFunction kind)

/-- `compile-middleware-entry`, and the function it returns called with a handler. -/
def compileMiddlewareEntry (env : Environment ε α ω σ ι) (handler : Handler ε α) :
    MiddlewareEntry ε α ω σ → Except (CompileError ε) (Handler ε α)
  | .configured wrapRef opts => do
      match ← resolveFunctionRef env.wraps .middleware wrapRef with
      | some wrap => thrown (wrap handler opts)
      | none => .error .nullPointer
  | .direct .nil => .error .invalidMiddleware
  | .direct .other => .error .invalidMiddleware
  | .direct wrapRef => do
      match ← resolveFunctionRef env.wraps .middleware wrapRef with
      | some wrap => thrown (wrap handler none)
      | none => .error .nullPointer

def compileDispatcher (env : Environment ε α ω σ ι) (dispatcher : DispatcherConfig ε α ω σ ι γ) :
    Except (CompileError ε) (Dispatcher ε α ι γ) := do
  let matchFn ← resolveFunctionRef env.matchFns .matcher dispatcher.match'
  let baseHandler ← resolveFunctionRef env.handlers .handler dispatcher.handler
  let handler ← dispatcher.middleware.foldlM (compileMiddlewareEntry env)
    (baseHandler.getD fun _ => .ok env.status200)
  return ⟨dispatcher.entrypoints, dispatcher.group, matchFn, handler, dispatcher.terminal⟩

/-- The positions of the dispatchers that ran with the values they were given, and the value
that is returned or thrown. -/
abbrev Outcome (ε α : Type) := List (ℕ × α) × Except ε α

def Outcome.after (position : ℕ) (value : α) (later : Outcome ε α) : Outcome ε α :=
  ((position, value) :: later.1, later.2)

section
variable [DecidableEq ι] [DecidableEq γ]

def Dispatcher.bound (dispatcher : Dispatcher ε α ι γ) (entrypointId : ι) : Bool :=
  match dispatcher.entrypoints with
  | some entrypoints => decide (entrypointId ∈ entrypoints)
  | none => true

/-- No match function accepts every value. -/
def Dispatcher.accepts (dispatcher : Dispatcher ε α ι γ) (current : α) : Except ε Bool :=
  match dispatcher.matchFn with
  | some matchFn => matchFn current
  | none => .ok true

def groupAvailable (group : Group γ) (matchedGroups : List (Group γ)) : Bool :=
  decide (group = .nil) || !decide (group ∈ matchedGroups)

/-- `(cond-> matched-groups group (conj group))` -/
def conjGroup (group : Group γ) (matchedGroups : List (Group γ)) : List (Group γ) :=
  match group with
  | .key key => .key key :: matchedGroups
  | _ => matchedGroups

/-- The loop of `build-dispatch-handler`; `position` counts the dispatchers. -/
def dispatch (env : Environment ε α ω σ ι) (current : α) (matchedGroups : List (Group γ))
    (matched : Bool) (position : ℕ) : List (Dispatcher ε α ι γ) → Outcome ε α
  | [] => ([], .ok (if matched then current else env.status200))
  | dispatcher :: more =>
      match dispatcher.accepts current with
      | .error error => ([], .error error)
      | .ok accepts =>
          if dispatcher.bound (env.entrypoint current) &&
              groupAvailable dispatcher.group matchedGroups && accepts then
            match dispatcher.compiledHandler current with
            | .error error => ([(position, current)], .error error)
            | .ok result =>
                if dispatcher.terminal then ([(position, current)], .ok result)
                else
                  (dispatch env result (conjGroup dispatcher.group matchedGroups) true
                    (position + 1) more).after position current
          else dispatch env current matchedGroups matched (position + 1) more

/-- `build-dispatch-handler` -/
def buildDispatchHandler (env : Environment ε α ω σ ι)
    (config : List (DispatcherConfig ε α ω σ ι γ)) :
    Except (CompileError ε) (α → Outcome ε α) := do
  let dispatchers ← config.mapM (compileDispatcher env)
  return fun req =>
    dispatch env (env.withEntrypoint req (env.resolveEntrypoint req)) [] false 0 dispatchers

end

end

end Busker.Dispatch
