import Busker.ListenerPool.Counting

/-! Whether the path of a claimed file-system socket names the socket the claim holds.
`release!` unlinks the path of a last claim after it has left the lock, when the same
key may have been opened again; so may opening a key whose path is another spelling of
a claimed one. Both are steps that remove a directory entry. -/

namespace Busker.ListenerPool

open Interleaving

/-- While a claim on a file-system socket is not released, its path names the socket
of its resource. -/
def PathsLive {ι φ : Type*} (file : String → φ) (s : State ι φ) : Prop :=
  ∀ c ∈ s.store.claims, c.released = false → ∀ path, c.key.socketPath = some path →
    s.store.files (file path) = .socket (some c.resource)

/-- The path whose directory entry the step removes. -/
def removing : Caller → Move → Option String
  | .openUnlink _ path, .tick | .openCleanup _ path, .tick | .closeUnlink path, .tick => some path
  | _, _ => none

/-- The key that a thread has bound, is about to get a claim on, or gives one back on. -/
def concerns : Caller → Option ListenerKey
  | .openListen key _ | .acquireAssoc key | .acquireUnlock key _ | .releaseLock key
  | .releaseUpdate key => some key
  | _ => none

/-- The key whose socket has its directory entry but is not in the pool yet. -/
def bound : Caller → Option ListenerKey
  | .openListen key _ | .acquireAssoc key => some key
  | _ => none

/-- A caller that opens a path opens the path of its key. -/
def Keyed : Caller → Prop
  | .openOther key => key.socketPath = none
  | .openLstat key path | .openUnlink key path | .openSocket key path | .openBind key path
  | .openListen key path | .openCleanup key path => key.socketPath = some path
  | _ => True

variable {ι φ : Type*} [DecidableEq φ]

def onFile (file : String → φ) (f : φ) (key : ListenerKey) : Bool := key.socketPath.map file == some f

/-- Nobody has or is making a claim on the directory entry. -/
def Unclaimed (file : String → φ) (s : State ι φ) (f : φ) : Prop :=
  (∀ c ∈ s.store.claims, c.released = false → onFile file f c.key = false) ∧
    ∀ j, (concerns (s.callers j)).all (fun key => !onFile file f key) = true

/-- A step removes no directory entry that is claimed. -/
def Undisturbed (file : String → φ) (a : ι × Move) (s : State ι φ) : Prop :=
  (removing (s.callers a.1) a.2).elim True fun path => Unclaimed file s (file path)

/-- What a step does to the directory. -/
inductive FileEffect (file : String → φ) (s : Store ι φ) : Caller → Move → Store ι φ → Caller → Prop
  | keep {t : Store ι φ} {p q : Caller} {move : Move} (same : t.files = s.files)
      (still : ∀ key, bound q = some key → bound p = some key ∨ key.socketPath = none) :
      FileEffect file s p move t q
  | bound (key : ListenerKey) (path : String) (absent : s.files (file path) = .absent) (move : Move) :
      FileEffect file s (.openBind key path) move
        (s.setFile (file path) (.socket (some s.opened.length))) (.openListen key path)
  | removed {p q : Caller} {move : Move} (path : String) (here : removing p move = some path)
      (unbound : bound q = none) : FileEffect file s p move (s.setFile (file path) .absent) q

variable {file : String → φ} {i : ι} {s t : Store ι φ} {p q : Caller} {move : Move}

theorem keyed_openResource (key : ListenerKey) :
    Keyed (openResource key) ∧ bound (openResource key) = none := by
  unfold openResource
  split
  · split <;> simp_all [Keyed, bound, ListenerKey.socketPath]
  all_goals simp [Keyed, bound, ListenerKey.socketPath]

theorem keyed_afterClose (key : ListenerKey) : Keyed (afterClose key) ∧ bound (afterClose key) = none := by
  unfold afterClose
  cases key.socketPath <;> simp [Keyed, bound]

omit [DecidableEq φ] in
theorem files_of_lockStep {next : Caller} (moves : lockStep i s next = some (t, q)) :
    t.files = s.files ∧ q = next := by
  unfold lockStep at moves
  split at moves
  · obtain ⟨rfl, rfl⟩ := Prod.mk.inj (Option.some.inj moves)
    exact ⟨rfl, rfl⟩
  · contradiction

theorem fileEffect_of_step (keyed : Keyed p) (moves : callerStep file i s p move = some (t, q)) :
    FileEffect file s p move t q ∧ Keyed q := by
  have unbound : ∀ {t : Store ι φ} {q : Caller} {move : Move}, t.files = s.files → bound q = none →
      FileEffect file s p move t q := by
    intro t q move same hq
    exact .keep same fun key h => by simp [hq] at h
  cases p <;> cases move <;> simp only [callerStep, reduceCtorEq, Option.some.injEq] at moves
  case acquireLock.tick key =>
    obtain ⟨same, rfl⟩ := files_of_lockStep moves
    exact ⟨unbound same rfl, trivial⟩
  case releaseLock.tick key =>
    obtain ⟨same, rfl⟩ := files_of_lockStep moves
    exact ⟨unbound same rfl, trivial⟩
  case idle.release claim =>
    split at moves
    · obtain ⟨rfl, rfl⟩ := Prod.mk.inj (Option.some.inj moves)
      exact ⟨unbound rfl rfl, trivial⟩
    · contradiction
  case acquireGet.tick key =>
    unfold acquireGet at moves
    split at moves
    all_goals obtain ⟨rfl, rfl⟩ := Prod.mk.inj moves
    · exact ⟨unbound rfl rfl, trivial⟩
    · exact ⟨unbound rfl (keyed_openResource key).2, (keyed_openResource key).1⟩
  case openOther.tick key =>
    obtain ⟨rfl, rfl⟩ := Prod.mk.inj moves
    refine ⟨.keep rfl fun k h => .inr ?_, trivial⟩
    obtain rfl := Option.some.inj h
    exact keyed
  case openLstat.tick key path =>
    obtain ⟨rfl, rfl⟩ := Prod.mk.inj moves
    unfold openLstat
    split
    · exact ⟨unbound rfl rfl, keyed⟩
    · exact ⟨unbound rfl rfl, keyed⟩
    · exact ⟨unbound rfl rfl, trivial⟩
  case openUnlink.tick key path =>
    obtain ⟨rfl, rfl⟩ := Prod.mk.inj moves
    exact ⟨.removed path rfl rfl, keyed⟩
  case openBind.tick key path =>
    unfold openBind at moves
    split at moves
    all_goals obtain ⟨rfl, rfl⟩ := Prod.mk.inj moves
    · exact ⟨.bound key path ‹_› _, keyed⟩
    · exact ⟨unbound rfl rfl, keyed⟩
    · exact ⟨unbound rfl rfl, keyed⟩
  case openListen.tick key path =>
    obtain ⟨rfl, rfl⟩ := Prod.mk.inj moves
    exact ⟨.keep rfl fun k h => .inl h, trivial⟩
  case openCleanup.tick key path =>
    obtain ⟨rfl, rfl⟩ := Prod.mk.inj moves
    exact ⟨.removed path rfl rfl, trivial⟩
  case closeUnlink.tick path =>
    obtain ⟨rfl, rfl⟩ := Prod.mk.inj moves
    exact ⟨.removed path rfl rfl, trivial⟩
  case releaseSwap.tick claim =>
    unfold releaseSwap at moves
    split at moves
    · split at moves
      all_goals
        obtain ⟨rfl, rfl⟩ := Prod.mk.inj moves
        exact ⟨unbound rfl rfl, trivial⟩
    · obtain ⟨rfl, rfl⟩ := Prod.mk.inj moves
      exact ⟨unbound rfl rfl, trivial⟩
  case releaseUpdate.tick key =>
    unfold releaseUpdate at moves
    split at moves
    · obtain ⟨rfl, rfl⟩ := Prod.mk.inj moves
      exact ⟨unbound rfl rfl, trivial⟩
    · split at moves
      all_goals
        obtain ⟨rfl, rfl⟩ := Prod.mk.inj moves
        exact ⟨unbound rfl rfl, trivial⟩
  case releaseUnlock.tick key toClose =>
    obtain ⟨rfl, rfl⟩ := Prod.mk.inj moves
    cases toClose <;> exact ⟨unbound rfl rfl, trivial⟩
  case closeResource.tick key resource =>
    obtain ⟨rfl, rfl⟩ := Prod.mk.inj moves
    exact ⟨unbound rfl (keyed_afterClose key).2, (keyed_afterClose key).1⟩
  case closeLstat.tick path =>
    obtain ⟨rfl, rfl⟩ := Prod.mk.inj moves
    unfold closeLstat
    split <;> exact ⟨unbound rfl rfl, trivial⟩
  all_goals
    obtain ⟨rfl, rfl⟩ := Prod.mk.inj moves
    exact ⟨unbound rfl rfl, by simp_all [Keyed]⟩

/-- What the pool and the openings under way know of the directory. -/
structure Tracked (file : String → φ) (s : State ι φ) : Prop where
  keyed : ∀ j, Keyed (s.callers j)
  entries : ∀ key r path, s.store.Holds key r → key.socketPath = some path →
    s.store.files (file path) = .socket (some r)
  binding : ∀ j key path, bound (s.callers j) = some key → key.socketPath = some path →
    s.store.files (file path) = .socket (some s.store.opened.length)

theorem inMonitor_of_bound {key : ListenerKey} (h : bound p = some key) : inMonitor p = true := by
  cases p <;> simp_all [bound, inMonitor]

omit [DecidableEq φ] in
theorem opened_of_effect (moved : Effect s p t q) :
    t.opened = s.opened ∨ inMonitor p = true ∧ bound q = none := by
  cases moved with
  | keep same => exact .inl same.opened
  | opened => exact .inr ⟨rfl, rfl⟩
  | _ => exact .inl rfl

omit [DecidableEq φ] in
/-- A resource in the pool was there before, or has just been opened. -/
theorem holds_of_effect {key : ListenerKey} {r : ℕ} (moved : Effect s p t q) (holds : t.Holds key r) :
    s.Holds key r ∨ p = .acquireAssoc key ∧ r = s.opened.length := by
  cases moved with
  | keep same => exact .inl ((Store.holds_iff_of_state same.state key r).mp holds)
  | found k entry here => exact .inl ((Store.holds_recount here _ key r).mp holds)
  | opened k =>
    change (s.setState k _).Holds key r at holds
    rw [Store.holds_setState] at holds
    split at holds
    · subst key
      exact .inr ⟨rfl, (Option.some.inj holds).symm⟩
    · exact .inl holds
  | dropped k entry here => exact .inl ((Store.holds_recount here _ key r).mp holds)
  | last k entry here =>
    rw [Store.holds_setState] at holds
    split at holds
    · contradiction
    · exact .inl holds
  | _ => exact .inl holds

section step

variable [Fintype ι] {s : State ι φ} {key : ListenerKey} {path : String}

/-- An entry of the pool is on nobody's file only if its key is. -/
theorem Consistent.unclaimed_entry (h : Consistent s) {r : ℕ} {f : φ}
    (unclaimed : Unclaimed file s f) (holds : s.store.Holds key r)
    (hpath : key.socketPath = some path) : file path ≠ f := by
  rintro rfl
  have on : onFile file (file path) key = true := by simp [onFile, hpath]
  have some_left : 0 < outstanding s key := by
    rw [← h.present]
    obtain ⟨entry, here, -⟩ := Option.map_eq_some_iff.mp holds
    rw [here]
    rfl
  have not_concerned : ∀ j, concerns (s.callers j) ≠ some key := by
    intro j hj
    have away := unclaimed.2 j
    rw [hj] at away
    simp [on] at away
  have no_claims : s.store.claims.countP (Claim.unreleasedOn key) = 0 := by
    rw [List.countP_eq_zero]
    intro c mem hc
    simp only [Claim.unreleasedOn, Bool.and_eq_true, Bool.not_eq_true', beq_iff_eq] at hc
    have away := unclaimed.1 c mem hc.1
    rw [hc.2, on] at away
    contradiction
  have no_grants : census (granting key) s.callers = 0 := by
    refine census_eq_zero.mpr fun j => if_neg fun hj => not_concerned j ?_
    cases hc : s.callers j <;> simp_all [granted, concerns]
  have no_returns : census (givingBack key) s.callers = 0 := by
    refine census_eq_zero.mpr fun j => if_neg fun hj => not_concerned j ?_
    cases hc : s.callers j <;> simp_all [returning, concerns]
  rw [outstanding, no_claims, no_grants, no_returns] at some_left
  exact lt_irrefl 0 some_left

variable {t : Store ι φ}

/-- A step leaves the directory entry of an entry of the pool as it is. -/
theorem files_of_entry (h : Consistent s) (k : Tracked file s)
    (allowed : Undisturbed file (i, move) s)
    (onFiles : FileEffect file s.store (s.callers i) move t q) {r : ℕ}
    (holds : s.store.Holds key r) (hpath : key.socketPath = some path) :
    t.files (file path) = .socket (some r) := by
  have before := k.entries key r path holds hpath
  unfold Undisturbed at allowed
  generalize hp : s.callers i = p at onFiles allowed
  cases onFiles with
  | keep same => rw [same, before]
  | bound k' path' absent =>
    have other : file path ≠ file path' := fun same => by simp [← same, before] at absent
    exact (Function.update_of_ne other ..).trans before
  | removed path' here =>
    rw [here] at allowed
    exact (Function.update_of_ne (h.unclaimed_entry allowed holds hpath) ..).trans before

theorem tracked_step [DecidableEq ι] (h : Consistent s) (k : Tracked file s) (allowed : Undisturbed file (i, move) s)
    (moves : callerStep file i s.store (s.callers i) move = some (t, q)) :
    Tracked file ⟨t, Function.update s.callers i q⟩ := by
  have moved := effect_of_step moves
  obtain ⟨onFiles, keyed⟩ := fileEffect_of_step (k.keyed i) moves
  refine ⟨forall_update (P := fun _ p => Keyed p) k.keyed keyed, ?_, ?_⟩
  · intro key r path holds hpath
    rcases holds_of_effect moved holds with before | ⟨hp, rfl⟩
    · exact files_of_entry h k allowed onFiles before hpath
    · have before := k.binding i key path (by rw [hp]; rfl) hpath
      rw [hp] at onFiles
      cases onFiles with
      | keep same => exact (congrFun same _).trans before
      | removed path' here => simp [removing] at here
  · intro j key path hb hpath
    by_cases hj : j = i
    · subst hj
      have bound_now : bound q = some key := by simpa using hb
      have opened : t.opened = s.store.opened :=
        (opened_of_effect moved).resolve_right fun ⟨_, none_now⟩ => by simp [none_now] at bound_now
      generalize hp : s.callers j = p at onFiles
      cases onFiles with
      | keep same still =>
        have before := (still key bound_now).resolve_right fun none_now => by simp [hpath] at none_now
        change t.files (file path) = .socket (some t.opened.length)
        rw [same, opened]
        exact k.binding j key path (by rw [hp, before]) hpath
      | bound k' path' absent =>
        obtain rfl := Option.some.inj bound_now
        have same : k'.socketPath = some path' := by
          have keyed := k.keyed j
          rwa [hp] at keyed
        obtain rfl := Option.some.inj (hpath.symm.trans same)
        exact Function.update_self ..
      | removed path' here unbound => simp [unbound] at bound_now
    · have before : bound (s.callers j) = some key := by simpa [hj] using hb
      have was := k.binding j key path before hpath
      have outside := h.guarded.others (inMonitor_of_bound before) (Ne.symm hj)
      have opened : t.opened = s.store.opened :=
        (opened_of_effect moved).resolve_right fun ⟨within, _⟩ => by simp [within] at outside
      change t.files (file path) = .socket (some t.opened.length)
      rw [opened]
      unfold Undisturbed at allowed
      generalize hp : s.callers i = p at onFiles allowed outside
      cases onFiles with
      | keep same => rw [same, was]
      | bound k' path' absent => simp [inMonitor] at outside
      | removed path' here =>
        rw [here] at allowed
        have away := allowed.2 j
        have concerned : concerns (s.callers j) = some key := by
          cases hc : s.callers j <;> simp_all [bound, concerns]
        have other : file path ≠ file path' := by
          intro same
          simp [concerned, onFile, hpath, same] at away
        exact (Function.update_of_ne other ..).trans was

end step

variable [DecidableEq ι] [Fintype ι] {s : State ι φ}

omit [DecidableEq φ] [DecidableEq ι] [Fintype ι] in
theorem tracked_openPool (files : φ → Node) : Tracked file (openPool (ι := ι) files) where
  keyed _ := trivial
  entries _ _ _ holds := by simp [openPool, Store.Holds] at holds
  binding _ _ _ h := by simp [openPool, bound] at h

theorem tracked_of_reachable (h : (machine file).ReachableVia (Undisturbed file) s) : Tracked file s := by
  apply h.invariant_of fun s hs => consistent_of_reachable hs.reachable
  · rintro _ ⟨files, rfl⟩
    exact tracked_openPool files
  · intro a s t consistent tracked allowed moves
    obtain ⟨u, q, moved, rfl⟩ := stepFn_eq moves
    exact tracked_step consistent tracked allowed moved

omit [Fintype ι] in
theorem step_of_removing {a : ι × Move} {t : State ι φ} {path : String}
    (here : removing (s.callers a.1) a.2 = some path) (moves : stepFn file a s = some t) :
    t.store = s.store.setFile (file path) .absent := by
  obtain ⟨u, q, moved, rfl⟩ := stepFn_eq moves
  generalize s.callers a.1 = p at here moved
  generalize a.2 = move at here moved
  cases p <;> cases move <;> simp only [removing, reduceCtorEq] at here
  all_goals
    obtain rfl := Option.some.inj here
    simp only [callerStep, Option.some.injEq] at moved
    exact (Prod.mk.inj moved).1.symm

/-- No claim that is not released is on the directory entry that the step removes. -/
def KeepsClaimed (file : String → φ) (a : ι × Move) (s : State ι φ) : Prop :=
  ∀ path, removing (s.callers a.1) a.2 = some path →
    ∀ c ∈ s.store.claims, c.released = false → onFile file (file path) c.key = false

theorem pathsLive_of_reachable (h : (machine file).ReachableVia (Undisturbed file) s) :
    PathsLive file s := by
  intro c mem unreleased path hpath
  have holds := (consistent_of_reachable h.reachable).claims c mem unreleased
  exact (tracked_of_reachable h).entries c.key c.resource path holds hpath

/-- As long as no step removes a claimed directory entry, claimed paths are live, and
the first step to remove one ends that. -/
theorem pathsLive_of_undisturbed (h : (machine file).ReachableVia (Undisturbed file) s) :
    PathsLive file s ∧
      ∀ a t, stepFn file a s = some t → (PathsLive file t ↔ KeepsClaimed file a s) := by
  have live := pathsLive_of_reachable h
  refine ⟨live, fun a t moves => ?_⟩
  cases here : removing (s.callers a.1) a.2 with
  | none =>
    have allowed : Undisturbed file a s := by
      rw [Undisturbed, here]
      trivial
    exact iff_of_true (pathsLive_of_reachable (h.step allowed moves)) fun path hp => by
      simp [here] at hp
  | some path =>
    have removed := step_of_removing here moves
    constructor
    · intro after path' hp c mem unreleased
      obtain rfl := Option.some.inj (here.symm.trans hp)
      by_contra on
      obtain ⟨own, hown, same⟩ : ∃ own, c.key.socketPath = some own ∧ file own = file path := by
        simpa [onFile] using on
      have still := after c (by rw [removed]; exact mem) unreleased own hown
      rw [removed, same, Store.setFile_files_self] at still
      contradiction
    · intro keeps c mem unreleased own hown
      have was := live c (by rw [removed] at mem; exact mem) unreleased own hown
      have away := keeps path here c (by rw [removed] at mem; exact mem) unreleased
      have other : file own ≠ file path := by
        intro same
        simp [onFile, hown, same] at away
      rw [removed]
      exact (Function.update_of_ne other ..).trans was

instance decidableElim {α : Type*} (o : Option α) (P : α → Prop) [DecidablePred P] :
    Decidable (o.elim True P) :=
  match o with
  | none => .isTrue trivial
  | some a => inferInstanceAs (Decidable (P a))

instance (f : φ) : Decidable (Unclaimed file s f) := inferInstanceAs (Decidable (_ ∧ _))

instance (a : ι × Move) : Decidable (Undisturbed file a s) :=
  inferInstanceAs (Decidable ((removing _ _).elim True _))

/-- `handover` reached by steps that remove no claimed directory entry. -/
def undisturbedHandover : State Bool String :=
  (machine id).runFromVia (Undisturbed id) handoverSchedule (openPool fun _ => .absent)

example : undisturbedHandover.store.claims = handover.store.claims := by decide +kernel

theorem handover_pathsLive : PathsLive id undisturbedHandover ∧
    ∀ a t, stepFn id a undisturbedHandover = some t →
      (PathsLive id t ↔ KeepsClaimed id a undisturbedHandover) :=
  pathsLive_of_undisturbed (.runFromVia _ (.init ⟨_, rfl⟩))

/-- And after it: the new claim's path is gone. -/
def unlinked : State Bool String :=
  (machine id).runFrom (handoverSchedule ++ [(false, .tick), (false, .tick)])
    (openPool fun _ => .absent)

theorem unlinked_not_pathsLive : (machine id).Reachable unlinked ∧ ¬PathsLive id unlinked := by
  refine ⟨.runFrom _ (.init ⟨_, rfl⟩), fun live => ?_⟩
  have claimed : unlinked.store.claims[1]? = some ⟨.unix .tcp "/run/busker.sock", 1, false⟩ := by
    decide +kernel
  have gone : unlinked.store.files "/run/busker.sock" = .absent := by decide +kernel
  have still := live _ (List.mem_of_getElem? claimed) rfl "/run/busker.sock" (by decide +kernel)
  rw [id, gone] at still
  contradiction

end Busker.ListenerPool
