import Busker.Interleaving.Monitor
import Busker.ListenerPool.Pool

/-! What one step of `acquire-claim` or `release!` does to the pool, to its lock and to
the moving thread's share in the pool's counts. -/

namespace Busker.ListenerPool

open Interleaving

/-- Inside the lock of the pool. -/
def inMonitor : Caller → Bool
  | .acquireGet _ | .openOther _ | .openLstat .. | .openUnlink .. | .openSocket .. | .openBind ..
  | .openListen .. | .openCleanup .. | .acquireAssoc _ | .acquireFailed _ | .acquireUnlock .. => true
  | .releaseUpdate _ | .releaseUnlock .. => true
  | .idle | .acquireLock _ | .releaseSwap _ | .releaseLock _ | .closeResource .. | .closeLstat _
  | .closeUnlink _ => false

/-- The key whose resource is being opened. -/
def opening : Caller → Option ListenerKey
  | .openOther key | .openLstat key _ | .openUnlink key _ | .openSocket key _ | .openBind key _
  | .openListen key _ | .openCleanup key _ | .acquireAssoc key => some key
  | _ => none

/-- The key and resource of a claim the pool counts but the caller has not yet got. -/
def granted : Caller → Option (ListenerKey × ℕ)
  | .acquireUnlock key resource => some (key, resource)
  | _ => none

/-- The key of a released claim that the pool still counts. -/
def returning : Caller → Option ListenerKey
  | .releaseLock key | .releaseUpdate key => some key
  | _ => none

/-- The resource, out of the pool, that a release has still to close. -/
def closing : Caller → Option ℕ
  | .releaseUnlock _ toClose => toClose
  | .closeResource _ resource => some resource
  | _ => none

def granting (key : ListenerKey) (p : Caller) : ℕ := if (granted p).map Prod.fst = some key then 1 else 0

def givingBack (key : ListenerKey) (p : Caller) : ℕ := if returning p = some key then 1 else 0

def closingOf (resource : ℕ) (p : Caller) : ℕ := if closing p = some resource then 1 else 0

def Claim.unreleasedOn (key : ListenerKey) (c : Claim) : Bool := !c.released && c.key == key

variable {ι φ : Type*}

namespace Store

/-- The pool, its claims and its resources, without the lock and the directory. -/
structure SamePool (s t : Store ι φ) : Prop where
  state : t.state = s.state
  claims : t.claims = s.claims
  opened : t.opened = s.opened
  closes : t.closes = s.closes

theorem SamePool.refl (s : Store ι φ) : SamePool s s := ⟨rfl, rfl, rfl, rfl⟩

end Store

theorem effect_of_lockStep {i : ι} {s t : Store ι φ} {q next : Caller}
    (moves : lockStep i s next = some (t, q)) : s.SamePool t ∧ q = next := by
  unfold lockStep at moves
  split at moves
  · obtain ⟨rfl, rfl⟩ := Prod.mk.inj (Option.some.inj moves)
    exact ⟨⟨rfl, rfl, rfl, rfl⟩, rfl⟩
  · contradiction

theorem lockMove_of_lockStep {i : ι} {s t : Store ι φ} {p q next : Caller}
    (moves : lockStep i s next = some (t, q)) (outside : inMonitor p = false)
    (inside : inMonitor next = true) :
    LockMove i s.lock (inMonitor p) t.lock (inMonitor q) := by
  unfold lockStep at moves
  split at moves
  · rename_i free
    obtain ⟨rfl, rfl⟩ := Prod.mk.inj (Option.some.inj moves)
    rw [free, outside, inside]
    exact .enter
  · contradiction

/-- What a step does to the pool, and what it makes of the thread's share in it. -/
inductive Effect (s : Store ι φ) : Caller → Store ι φ → Caller → Prop
  | keep {t : Store ι φ} {p q : Caller} (same : s.SamePool t) (granted_eq : granted q = granted p)
      (returning_eq : returning q = returning p) (closing_eq : closing q = closing p)
      (opens : ∀ key, opening q = some key → opening p = some key ∨ s.state key = none) :
      Effect s p t q
  | found (key : ListenerKey) (entry : Entry) (here : s.state key = some entry) :
      Effect s (.acquireGet key)
        (s.setState key (some { entry with refCount := entry.refCount + 1 }))
        (.acquireUnlock key entry.resource)
  | opened (key : ListenerKey) :
      Effect s (.acquireAssoc key)
        { s.setState key (some ⟨s.opened.length, 1⟩) with opened := s.opened ++ [key] }
        (.acquireUnlock key s.opened.length)
  | claimed (key : ListenerKey) (resource : ℕ) :
      Effect s (.acquireUnlock key resource)
        { s with lock := none, claims := s.claims ++ [⟨key, resource, false⟩] } .idle
  | swapped (claim : ℕ) (c : Claim) (here : s.claims[claim]? = some c)
      (unreleased : c.released = false) :
      Effect s (.releaseSwap claim)
        { s with claims := s.claims.set claim { c with released := true } } (.releaseLock c.key)
  | dropped (key : ListenerKey) (entry : Entry) (here : s.state key = some entry)
      (more : 1 < entry.refCount) :
      Effect s (.releaseUpdate key)
        (s.setState key (some { entry with refCount := entry.refCount - 1 }))
        (.releaseUnlock key none)
  | last (key : ListenerKey) (entry : Entry) (here : s.state key = some entry)
      (none_left : ¬1 < entry.refCount) :
      Effect s (.releaseUpdate key) (s.setState key none) (.releaseUnlock key (some entry.resource))
  | missing (key : ListenerKey) (here : s.state key = none) :
      Effect s (.releaseUpdate key) s (.releaseUnlock key none)
  | closed (key : ListenerKey) (resource : ℕ) :
      Effect s (.closeResource key resource) { s with closes := s.closes ++ [resource] }
        (afterClose key)

variable {file : String → φ} {i : ι} {s t : Store ι φ} {p q : Caller} {move : Move}

theorem opening_openResource (key : ListenerKey) :
    granted (openResource key) = none ∧ returning (openResource key) = none ∧
      closing (openResource key) = none ∧ ∀ k, opening (openResource key) = some k → k = key := by
  unfold openResource
  split
  · split <;> simp [granted, returning, closing, opening]
  all_goals simp [granted, returning, closing, opening]

theorem afterClose_idle (key : ListenerKey) :
    granted (afterClose key) = none ∧ returning (afterClose key) = none ∧
      closing (afterClose key) = none ∧ opening (afterClose key) = none ∧
      inMonitor (afterClose key) = false := by
  unfold afterClose
  cases key.socketPath <;> simp [granted, returning, closing, opening, inMonitor]

theorem effect_of_step [DecidableEq φ] (moves : callerStep file i s p move = some (t, q)) : Effect s p t q := by
  cases p <;> cases move <;> simp only [callerStep, reduceCtorEq, Option.some.injEq] at moves
  case acquireLock.tick key =>
    obtain ⟨same, rfl⟩ := effect_of_lockStep moves
    exact .keep same rfl rfl rfl fun _ h => .inl h
  case releaseLock.tick key =>
    obtain ⟨same, rfl⟩ := effect_of_lockStep moves
    exact .keep same rfl rfl rfl fun _ h => .inl h
  case idle.release claim =>
    split at moves
    · obtain ⟨rfl, rfl⟩ := Prod.mk.inj (Option.some.inj moves)
      exact .keep (.refl s) rfl rfl rfl fun _ h => .inl h
    · contradiction
  case acquireGet.tick key =>
    unfold acquireGet at moves
    split at moves
    · obtain ⟨rfl, rfl⟩ := Prod.mk.inj moves
      exact .found key _ ‹_›
    · rename_i none_here
      obtain ⟨rfl, rfl⟩ := Prod.mk.inj moves
      obtain ⟨hg, hr, hc, ho⟩ := opening_openResource key
      exact .keep (.refl s) hg hr hc fun k h => .inr (ho k h ▸ none_here)
  case openLstat.tick key path =>
    obtain ⟨rfl, rfl⟩ := Prod.mk.inj moves
    unfold openLstat
    split <;> exact .keep (.refl s) rfl rfl rfl fun _ h => by simp_all [opening]
  case openBind.tick key path =>
    unfold openBind at moves
    split at moves
    all_goals
      obtain ⟨rfl, rfl⟩ := Prod.mk.inj moves
      exact .keep ⟨rfl, rfl, rfl, rfl⟩ rfl rfl rfl fun _ h => .inl h
  case releaseSwap.tick claim =>
    unfold releaseSwap at moves
    split at moves
    · split at moves
      · obtain ⟨rfl, rfl⟩ := Prod.mk.inj moves
        exact .keep (.refl s) rfl rfl rfl fun _ h => .inl h
      · obtain ⟨rfl, rfl⟩ := Prod.mk.inj moves
        exact .swapped claim _ ‹_› (eq_false_of_ne_true ‹_›)
    · obtain ⟨rfl, rfl⟩ := Prod.mk.inj moves
      exact .keep (.refl s) rfl rfl rfl fun _ h => .inl h
  case releaseUpdate.tick key =>
    unfold releaseUpdate at moves
    split at moves
    · obtain ⟨rfl, rfl⟩ := Prod.mk.inj moves
      exact .missing key ‹_›
    · split at moves
      · obtain ⟨rfl, rfl⟩ := Prod.mk.inj moves
        exact .dropped key _ ‹_› ‹_›
      · obtain ⟨rfl, rfl⟩ := Prod.mk.inj moves
        exact .last key _ ‹_› ‹_›
  case closeLstat.tick path =>
    obtain ⟨rfl, rfl⟩ := Prod.mk.inj moves
    unfold closeLstat
    split <;> exact .keep (.refl s) rfl rfl rfl fun _ h => by simp_all [opening]
  case releaseUnlock.tick key toClose =>
    obtain ⟨rfl, rfl⟩ := Prod.mk.inj moves
    cases toClose <;> exact .keep ⟨rfl, rfl, rfl, rfl⟩ rfl rfl rfl fun _ h => by simp_all [opening]
  case acquireAssoc.tick key =>
    obtain ⟨rfl, rfl⟩ := Prod.mk.inj moves
    exact .opened key
  case acquireUnlock.tick key resource =>
    obtain ⟨rfl, rfl⟩ := Prod.mk.inj moves
    exact .claimed key resource
  case closeResource.tick key resource =>
    obtain ⟨rfl, rfl⟩ := Prod.mk.inj moves
    exact .closed key resource
  all_goals
    obtain ⟨rfl, rfl⟩ := Prod.mk.inj moves
    exact .keep ⟨rfl, rfl, rfl, rfl⟩ rfl rfl rfl fun _ h => by simp_all [opening]

theorem inMonitor_openResource (key : ListenerKey) : inMonitor (openResource key) = true := by
  unfold openResource
  split
  · split <;> rfl
  all_goals rfl

theorem lockMove_of_step [DecidableEq φ] (moves : callerStep file i s p move = some (t, q)) :
    LockMove i s.lock (inMonitor p) t.lock (inMonitor q) := by
  cases p <;> cases move <;> simp only [callerStep, reduceCtorEq, Option.some.injEq] at moves
  case acquireLock.tick key => exact lockMove_of_lockStep moves rfl rfl
  case releaseLock.tick key => exact lockMove_of_lockStep moves rfl rfl
  case idle.release claim =>
    split at moves
    · obtain ⟨rfl, rfl⟩ := Prod.mk.inj (Option.some.inj moves)
      exact .stay ..
    · contradiction
  case acquireGet.tick key =>
    unfold acquireGet at moves
    split at moves
    all_goals obtain ⟨rfl, rfl⟩ := Prod.mk.inj moves
    · exact .stay ..
    · rw [inMonitor_openResource]
      exact .stay ..
  case openLstat.tick key path =>
    obtain ⟨rfl, rfl⟩ := Prod.mk.inj moves
    unfold openLstat
    split <;> exact .stay ..
  case openBind.tick key path =>
    unfold openBind at moves
    split at moves
    all_goals
      obtain ⟨rfl, rfl⟩ := Prod.mk.inj moves
      exact .stay ..
  case releaseSwap.tick claim =>
    unfold releaseSwap at moves
    split at moves
    · split at moves
      all_goals
        obtain ⟨rfl, rfl⟩ := Prod.mk.inj moves
        exact .stay ..
    · obtain ⟨rfl, rfl⟩ := Prod.mk.inj moves
      exact .stay ..
  case releaseUpdate.tick key =>
    unfold releaseUpdate at moves
    split at moves
    · obtain ⟨rfl, rfl⟩ := Prod.mk.inj moves
      exact .stay ..
    · split at moves
      all_goals
        obtain ⟨rfl, rfl⟩ := Prod.mk.inj moves
        exact .stay ..
  case closeLstat.tick path =>
    obtain ⟨rfl, rfl⟩ := Prod.mk.inj moves
    unfold closeLstat
    split <;> exact .stay ..
  case closeResource.tick key resource =>
    obtain ⟨rfl, rfl⟩ := Prod.mk.inj moves
    rw [(afterClose_idle key).2.2.2.2]
    exact .stay ..
  case releaseUnlock.tick key toClose =>
    obtain ⟨rfl, rfl⟩ := Prod.mk.inj moves
    cases toClose <;> exact .leave _
  all_goals obtain ⟨rfl, rfl⟩ := Prod.mk.inj moves
  case acquireFailed.tick key => exact .leave _
  case acquireUnlock.tick key resource => exact .leave _
  all_goals exact .stay ..

end Busker.ListenerPool
