import Busker.Generation.HalfTornDown
import Busker.Generation.StartTraces

/-! What a failed `start!` has released, and what `stop!` gives back of what a successful one
acquired. -/

namespace Busker.Generation

open Unwinding Program

/-- No call of `stop!` throws, and the notifier stops. -/
structure Calm (env : Environment) : Prop where
  calls : ∀ call, env call ≠ .threw
  notifier : env (.release .wakeNotifier) = .done

section stopping

variable (env : Environment)

/-- The program releases the resources in this order, or throws before a listener claim is
released. -/
def Stops (p : Stop Unit) (resources : List Resource) : Prop :=
  ∀ s, Ends p s
    (fun _ t => t.released = resources.reverse ++ s.released ∧ t.phase = s.phase)
    fun _ t => ¬Calm env ∧ ∀ idx, .listenerClaim idx ∈ t.released → .listenerClaim idx ∈ s.released

theorem stops_nothing : Stops env (pure ()) [] := fun _ => .pure ⟨rfl, rfl⟩

variable {env}

theorem Stops.andThen {p q : Stop Unit} {first second : List Resource} (left : Stops env p first)
    (right : Stops env q second) (early : ∀ idx, .listenerClaim idx ∉ first) :
    Stops env (p >>= fun _ => q) (first ++ second) := by
  intro s
  refine (left s).bind ?_
  rintro _ t ⟨released, phase⟩
  refine (right t).weaken ?_ ?_
  · rintro _ u ⟨later, same⟩
    exact ⟨by rw [later, released, List.reverse_append, List.append_assoc], same.trans phase⟩
  · rintro _ u ⟨disturbed, claims⟩
    refine ⟨disturbed, fun idx member => ?_⟩
    have := claims idx member
    rw [released, List.mem_append, List.mem_reverse] at this
    exact this.resolve_left (early idx)

theorem Stops.when {p : Stop Unit} {resources : List Resource} (b : Bool) (h : Stops env p resources) :
    Stops env (when b p) (if b then resources else []) := by
  cases b
  · exact stops_nothing env
  · exact h

variable (env)

theorem stops_perform (resource : Resource) : Stops env (perform env (.release resource)) [resource] := by
  intro s
  unfold perform
  split
  · exact .throw ⟨fun calm => calm.calls _ ‹_›, fun _ => id⟩
  · exact .modify ⟨rfl, rfl⟩

theorem stops_awaitTermination (await : Bool → Call) (shutdownNow : Call)
    (stops : ∀ r, shutdownNow ≠ .release r) : Stops env (awaitTermination env await shutdownNow) [] := by
  have asked (call : Call) (s : StopState) : Ends (ask env call) s (fun _ t => t = s) fun _ t =>
      ¬Calm env ∧ t = s := by
    unfold ask
    split
    · exact .throw ⟨fun calm => calm.calls _ ‹_›, rfl⟩
    · exact .pure rfl
  intro s
  refine ((asked _ s).weaken (fun _ _ => id) ?_).bind ?_
  · rintro _ _ ⟨disturbed, rfl⟩
    exact ⟨disturbed, fun _ => id⟩
  rintro ended t rfl
  refine .when (fun _ => ?_) fun _ => ⟨rfl, rfl⟩
  unfold perform
  split
  · exact .bind (.throw (Q := fun _ _ => False) ⟨fun calm => calm.calls _ ‹_›, fun _ => id⟩)
      fun _ _ => False.elim
  · have same : StopState.record shutdownNow t = t := by
      cases shutdownNow <;> first | rfl | exact absurd rfl (stops _)
    refine .bind (.modify (Q := fun _ u => u = t) same) ?_
    rintro _ _ rfl
    refine ((asked _ _).weaken (fun _ _ => id) ?_).bind ?_
    · rintro _ _ ⟨disturbed, rfl⟩
      exact ⟨disturbed, fun _ => id⟩
    rintro _ _ rfl
    exact .pure ⟨rfl, rfl⟩

theorem stops_stopNotifier : Stops env (tearDown.stopNotifier env) [.wakeNotifier] := by
  intro s
  unfold tearDown.stopNotifier ask
  split
  · exact .bind (.throw (Q := fun _ _ => False) ⟨fun calm => calm.calls _ ‹_›, fun _ => id⟩)
      fun _ _ => False.elim
  · refine .bind (.pure (Q := fun stopped t => stopped = (env (.release .wakeNotifier) == .done) ∧ t = s)
      ⟨rfl, rfl⟩) ?_
    rintro _ t ⟨rfl, rfl⟩
    refine .bind (Q := fun _ u => u = t) (.when (fun refused => .throw ?_) fun _ => rfl) ?_
    · exact ⟨fun calm => by simp [calm.notifier] at refused, fun _ => id⟩
    · rintro _ _ rfl
      exact .modify ⟨rfl, rfl⟩

/-- The claims, whose release does not throw. -/
theorem stops_claims (n : ℕ) (claims : ∀ idx, env (.release (.listenerClaim idx)) ≠ .threw) :
    ∀ s, Ends ((List.range n).forM fun idx => perform env (.release (.listenerClaim idx))) s
      (fun _ t => t.released = ((List.range n).map .listenerClaim).reverse ++ s.released ∧
        t.phase = s.phase) fun _ _ => False := by
  induction List.range n with
  | nil => exact fun _ => .pure ⟨rfl, rfl⟩
  | cons idx rest ih =>
    intro s
    show Ends (perform env _ >>= fun _ => rest.forM _) s _ _
    unfold perform
    rw [if_neg (claims idx)]
    refine .bind (.modify (Q := fun _ t => t = s.record (.release (.listenerClaim idx))) rfl) ?_
    rintro _ _ rfl
    refine (ih _).weaken ?_ fun _ _ => id
    rintro _ t ⟨released, phase⟩
    exact ⟨by simp [released, StopState.record], phase⟩

variable (g : Setup) (executors : Bool)

/-- What `stop!` of a generation that did not start releases before the claims. -/
def releasedEarly : List Resource :=
  (if executors then [.executor] else []) ++
  ((if executors && g.wakeNotifierOwned then [.wakeNotifier] else []) ++
    ((if executors then [.closeCallbackExecutor] else []) ++ if g.bufferPool then [.bufferPool] else []))

def releasedUnstarted : List Resource :=
  releasedEarly g executors ++ (List.range (claimKeys g.listeners).length).map .listenerClaim

theorem early_claim (idx : ℕ) : .listenerClaim idx ∉ releasedEarly g executors := by
  unfold releasedEarly
  cases executors <;> cases g.wakeNotifierOwned <;> cases g.bufferPool <;> simp

/-- `begin-stop!` and the wait for the requests, of a map without workers. -/
theorem stops_cleanup_requests :
    Stops env (shutDown (cleanupState g executors) env) (if executors then [.executor] else []) ∧
      Stops env (retireReceivers (cleanupState g executors) env) (if executors then [] else []) := by
  have down : shutDown (cleanupState g executors) env =
      when executors (perform env (.release .executor)) := by
    cases executors <;> simp [shutDown, broadcastWake, cleanupState, Program.when]
  have retire : retireReceivers (cleanupState g executors) env =
      when executors (awaitTermination env .awaitExecutor .shutdownNowExecutor) := by
    cases executors <;> simp [retireReceivers, broadcastWake, cleanupState, Program.when, places]
  rw [down, retire]
  exact ⟨(stops_perform env _).when executors,
    (stops_awaitTermination env _ _ (by simp)).when executors⟩

/-- The rest of `stop!`, which gives back the claims last. -/
theorem ends_cleanup_tearDown (claims : ∀ idx, env (.release (.listenerClaim idx)) ≠ .threw)
    (s : StopState) : Ends (tearDown (cleanupState g executors) env) s
      (fun _ t => t.released = (((if executors && g.wakeNotifierOwned then [.wakeNotifier] else []) ++
        ((if executors then [.closeCallbackExecutor] else []) ++
          ((if g.bufferPool then [.bufferPool] else []) ++
          (List.range (claimKeys g.listeners).length).map .listenerClaim))) :
            List Resource).reverse ++ s.released ∧
        t.phase = s.phase)
      fun _ t => ¬Calm env ∧ ∀ idx, .listenerClaim idx ∈ t.released → .listenerClaim idx ∈ s.released := by
  have only : tearDown (cleanupState g executors) env = (do
      when (executors && g.wakeNotifierOwned) (tearDown.stopNotifier env)
      when executors do
        perform env (.release .closeCallbackExecutor)
        awaitTermination env .awaitCloseCallbacks .shutdownNowCloseCallbacks
      when g.bufferPool (perform env (.release .bufferPool))
      (List.range (claimKeys g.listeners).length).forM fun idx =>
        perform env (.release (.listenerClaim idx))) := by
    cases executors <;> cases owned : g.wakeNotifierOwned <;>
      simp [tearDown, freeHttp3Contexts, cleanupState, Program.when, places, owned]
  rw [only]
  have last : Stops env ((List.range (claimKeys g.listeners).length).forM fun idx =>
      perform env (.release (.listenerClaim idx)))
      ((List.range (claimKeys g.listeners).length).map .listenerClaim) :=
    fun t => (stops_claims env _ claims t).weaken (fun _ _ => id) fun _ _ => False.elim
  have close := (stops_perform env .closeCallbackExecutor).andThen
    (stops_awaitTermination env .awaitCloseCallbacks .shutdownNowCloseCallbacks (by simp)) (by simp)
  exact ((stops_stopNotifier env).when _).andThen
    ((close.when executors).andThen (((stops_perform env .bufferPool).when _).andThen last (by simp))
      (by cases executors <;> simp)) (by cases executors && g.wakeNotifierOwned <;> simp) s

/-- `stop!` of the map that `cleanup-state_` holds. -/
theorem ends_stop_cleanup (claims : ∀ idx, env (.release (.listenerClaim idx)) ≠ .threw) :
    Ends (stop (cleanupState g executors) env) ⟨.running, [], []⟩
      (fun _ t => t.released = (releasedUnstarted g executors).reverse)
      fun _ t => ¬Calm env ∧ ∀ idx, .listenerClaim idx ∉ t.released := by
  obtain ⟨down, retire⟩ := stops_cleanup_requests env g executors
  have early : ∀ idx, .listenerClaim idx ∉ (if executors then [Resource.executor] else []) := by
    cases executors <;> simp
  have begun : Ends (beginStop (cleanupState g executors) env) ⟨.running, [], []⟩
      (fun _ t => t.released = (if executors then [.executor] else []) ∧ t.phase = .stopping)
      fun _ t => ¬Calm env ∧ ∀ idx, .listenerClaim idx ∉ t.released := by
    refine .bind (.get (Q := fun a t => a = t ∧ t = ⟨.running, [], []⟩) ⟨rfl, rfl⟩) ?_
    rintro _ _ ⟨rfl, rfl⟩
    refine .when (fun _ => ?_) fun not => absurd rfl not
    refine .bind ((down _).weaken (fun _ _ => id) fun _ _ ⟨disturbed, claims⟩ =>
      ⟨disturbed, fun idx member => List.not_mem_nil (claims idx member)⟩) ?_
    rintro _ t ⟨released, -⟩
    refine .modify ⟨?_, rfl⟩
    cases executors <;> simp [released]
  refine .bind begun ?_
  rintro _ t ⟨released, stopping⟩
  refine .bind (.get (Q := fun a u => a = t ∧ u = t) ⟨rfl, rfl⟩) ?_
  rintro a u ⟨now, here⟩
  subst a u
  refine .when (fun _ => .when (fun _ => ?_) fun not => absurd (.inl stopping) not) fun not =>
    absurd (by rw [stopping]; decide) not
  have waited : Ends (when (t.phase = .stopping) (do
      retireReceivers (cleanupState g executors) env
      setPhase .retiring)) t (fun _ u => u.released = if executors then [.executor] else [])
      fun _ u => ¬Calm env ∧ ∀ idx, .listenerClaim idx ∉ u.released := by
    refine .when (fun _ => ?_) fun not => absurd stopping not
    refine .bind ((retire _).weaken (fun _ _ => id) fun _ _ ⟨disturbed, claims⟩ =>
      ⟨disturbed, fun idx member => early idx (released ▸ claims idx member)⟩) ?_
    rintro _ u ⟨same, -⟩
    refine .modify ?_
    cases executors <;> simpa [same] using released
  refine .bind waited fun _ u before => ?_
  have joined : Ends (joinAll (cleanupState g executors) env) u (fun all t => all = true ∧ t = u)
      fun _ t => ¬Calm env ∧ ∀ idx, .listenerClaim idx ∉ t.released :=
    .pure ⟨rfl, rfl⟩
  refine .bind joined ?_
  rintro all v ⟨found, here⟩
  subst all v
  rw [if_pos rfl]
  refine .bind (.modify (Q := fun _ w => w = u) rfl) ?_
  rintro _ _ rfl
  refine .bind ((ends_cleanup_tearDown env g executors claims _).weaken (fun _ _ => id)
    fun _ _ ⟨disturbed, claims⟩ => ⟨disturbed, fun idx member => early idx (before ▸ claims idx member)⟩) ?_
  rintro _ v ⟨after, -⟩
  refine .bind (.modify (Q := fun _ w => w.released = v.released) rfl) ?_
  rintro _ w same
  refine .modify ?_
  show w.released = _
  rw [same, after, before]
  cases executors <;> simp [releasedUnstarted, releasedEarly]

end stopping

section starting

variable (g : Setup) (env : StartEnvironment) (stopEnv : Environment)

def claims (n : ℕ) : List Held := (List.range n).map .claim

/-- `start!` threw `e` after adding `m` to the log: while it prepared the base state, while it
created the executors, or in a stage. The flag tells which map `cleanup-state_` holds. -/
inductive Tried : Failure → Option Bool → List Event → Prop
  | preparing : Tried (.byCall .dispatchHandler) none []
  | executor : Tried (.byCall (.acquire (.owned .executor))) (some false) []
  | closeCallbackExecutor : Tried (.byCall (.acquire (.owned .closeCallbackExecutor))) (some false)
      [.acquired (.owned .executor)]
  | stage {e : Failure} {m : List Event} (failed : StageFailed g env e m) : Tried e (some true)
      ([.acquired (.owned .executor), .acquired (.owned .closeCallbackExecutor)] ++ m)

/-- The log of a `start!` that returned `state`. -/
def Started (state : GenerationState) (log : List Event) : Prop :=
  ∃ (receivers : Receivers) (new : List Held), state = startedState g receivers ∧
    log = (claims (claimKeys g.listeners).length ++
      ([Held.owned .executor, .owned .closeCallbackExecutor] ++ new)).map .acquired ∧
    ∀ held ∈ new, Handed g receivers held

theorem ends_attemptStart {s : StartState} (before : s.cleanup = none)
    (claimed : s.log = (claims (claimKeys g.listeners).length).map .acquired) :
    Ends (attemptStart g env) s (fun state t => Started g state t.log) fun e t =>
      ∃ executors m, Tried g env e executors m ∧ t.cleanup = executors.map (cleanupState g) ∧
        t.log = s.log ++ m := by
  have dispatch : Ends (call env .dispatchHandler) s (fun _ t => t = s) fun e t =>
      ∃ executors m, Tried g env e executors m ∧ t.cleanup = executors.map (cleanupState g) ∧
        t.log = s.log ++ m := by
    unfold call
    split
    · exact .throw ⟨none, [], .preparing, before, (List.append_nil _).symm⟩
    · exact .pure rfl
  refine .bind dispatch ?_
  intro _ t same
  subst t
  refine .bind (.modify (Q := fun _ t => t.log = s.log ∧ t.cleanup = some (cleanupState g false))
    ⟨rfl, rfl⟩) ?_
  rintro _ t ⟨base, cleanup⟩
  have requests : Ends (create env (.owned .executor)) t
      (fun _ u => u = t.note [.acquired (.owned .executor)]) fun e u =>
      ∃ executors m, Tried g env e executors m ∧ u.cleanup = executors.map (cleanupState g) ∧
        u.log = s.log ++ m := by
    unfold create
    split
    · exact .throw ⟨some false, [], .executor, cleanup, by rw [base, List.append_nil]⟩
    · exact .modify rfl
  refine .bind requests ?_
  intro _ u same
  subst u
  have callbacks : Ends (create env (.owned .closeCallbackExecutor)) (t.note [.acquired (.owned .executor)])
      (fun _ u => u.log = s.log ++ [.acquired (.owned .executor), .acquired (.owned .closeCallbackExecutor)])
      fun e u => ∃ executors m, Tried g env e executors m ∧
        u.cleanup = executors.map (cleanupState g) ∧ u.log = s.log ++ m := by
    unfold create
    split
    · exact .throw ⟨some false, _, .closeCallbackExecutor, cleanup, by simp [StartState.note, base]⟩
    · exact .modify (by simp [StartState.note, base])
  refine .bind callbacks fun _ u both => ?_
  refine .bind (.modify (Q := fun _ v => v.log = u.log ∧ v.cleanup = some (cleanupState g true))
    ⟨rfl, rfl⟩) ?_
  rintro _ v ⟨same, ready⟩
  refine (traces_stages g env v).weaken ?_ ?_
  · rintro state _ ⟨_, rfl, receivers, new, rfl, rfl, handed⟩
    exact ⟨receivers, new, rfl, by simp [StartState.note, same, both, claimed], handed⟩
  · rintro e _ ⟨m, rfl, failed⟩
    exact ⟨some true, _, .stage failed, ready, by simp [StartState.note, same, both]⟩

/-- The stages release nothing that they did not acquire. -/
theorem StageFailed.late {g : Setup} {env : StartEnvironment} {e : Failure} {m : List Event}
    (failed : StageFailed g env e m) {held : Held} (released : .released held ∈ m) :
    held.late = true := by
  rcases failed with later | ⟨-, receivers, rfl⟩
  · rcases later.gone with ⟨-, none⟩ | ⟨idx, new, -, rfl, none⟩
    · exact absurd released (none held)
    · rcases List.mem_append.mp released with early | last
      · exact absurd early (none held)
      · cases List.mem_singleton.mp last
        rfl
  · rcases List.mem_append.mp released with acquired | unwound
    · exact absurd acquired (not_released_acquired _ held)
    · simp only [Generation.unwound, List.mem_map, List.mem_filter, List.mem_reverse,
        Event.released.injEq] at unwound
      obtain ⟨_, ⟨member, -⟩, rfl⟩ := unwound
      exact core_late g receivers _ member

theorem Tried.late {g : Setup} {env : StartEnvironment} {e : Failure} {executors : Option Bool}
    {m : List Event} (tried : Tried g env e executors m) {held : Held} (released : .released held ∈ m) :
    held.late = true := by
  cases tried with
  | preparing => cases released
  | executor => cases released
  | closeCallbackExecutor => simp at released
  | stage failed => exact failed.late (by simpa using released)

/-- The log of a `start!` that threw. -/
inductive Failed : Failure → List Event → Prop
  | claim (idx : ℕ) : Failed (.byCall (.acquire (.claim idx)))
      ((claims idx).map .acquired ++ (claims idx).map .released)
  | unwound {e : Failure} {executors : Option Bool} {m : List Event} {early : List Resource}
      (tried : Tried g env e executors m) (none : ∀ idx, .listenerClaim idx ∉ early)
      (calm : Calm stopEnv → early = executors.elim [] (releasedEarly g)) :
      Failed e ((claims (claimKeys g.listeners).length).map .acquired ++ m ++
        early.map (.released ∘ .owned) ++ (claims (claimKeys g.listeners).length).map .released)

section claims

variable (releases : ∀ idx, env (.release (.claim idx)) ≠ .threw)

include releases

theorem ends_releaseClaims {xs : List ℕ} (distinct : xs.Nodup) {s : StartState}
    (held : ∀ idx ∈ xs, .released (.claim idx) ∉ s.log) :
    Ends (xs.forM (releaseClaim env)) s
      (fun _ t => t = s.note (xs.map fun idx => .released (.claim idx))) fun _ _ => False := by
  induction xs generalizing s with
  | nil => exact .pure (noting.nil s).symm
  | cons idx rest ih =>
    obtain ⟨apart, distinct⟩ := List.nodup_cons.mp distinct
    have first : Ends (releaseClaim env idx) s (fun _ t => t = s.note [.released (.claim idx)])
        fun _ _ => False := by
      refine .bind (.get (Q := fun a t => a = s ∧ t = s) ⟨rfl, rfl⟩) ?_
      rintro a t ⟨now, here⟩
      subst a t
      refine .when (fun _ => ?_) fun released => absurd (held idx List.mem_cons_self) released
      unfold release
      rw [if_neg (releases idx)]
      exact .modify rfl
    show Ends (releaseClaim env idx >>= fun _ => rest.forM (releaseClaim env)) s _ _
    refine .bind first ?_
    intro _ t same
    subst t
    refine (ih distinct fun j inside => ?_).weaken ?_ fun _ _ => id
    · have other : j ≠ idx := fun same => apart (same ▸ inside)
      simpa [StartState.note, Held.claim, other] using held j (List.mem_cons_of_mem _ inside)
    · rintro _ _ rfl
      exact noting.append ..

theorem ends_releaseListenerClaims (n : ℕ) {s : StartState}
    (held : ∀ idx, .released (.claim idx) ∉ s.log) :
    Ends (releaseListenerClaims env n) s (fun _ t => t = s.note ((claims n).map .released))
      fun _ _ => False := by
  refine (ends_releaseClaims env releases List.nodup_range fun idx _ => held idx).weaken ?_ fun _ _ => id
  rintro _ _ rfl
  rw [claims, List.map_map]
  rfl

/-- The claims are all acquired, or those acquired before the one that fails are given back. -/
theorem ends_acquireListenerClaims (n : ℕ) : Ends (acquireListenerClaims env n) .fresh
    (fun _ t => t = StartState.fresh.note ((claims n).map .acquired)) fun e t =>
      ∃ idx, e = .byCall (.acquire (.claim idx)) ∧
        t = StartState.fresh.note ((claims idx).map .acquired ++ (claims idx).map .released) := by
  induction n with
  | zero => exact .pure rfl
  | succ n ih =>
    have last : acquireListenerClaims env (n + 1) =
        acquireListenerClaims env n >>= fun _ => acquireListenerClaim env n := by
      simp only [acquireListenerClaims, List.forM_eq_forM, List.range_succ, List.forM_append]
      simp
    rw [last]
    refine .bind ih ?_
    intro _ t same
    subst t
    refine .tryCatch (F := fun e t => e = .byCall (.acquire (.claim n)) ∧
      t = StartState.fresh.note ((claims n).map .acquired)) ?_ ?_
    · unfold create
      split
      · exact .throw ⟨rfl, rfl⟩
      · exact .modify (by simp [noting.append, claims, List.range_succ])
    · rintro e t ⟨rfl, rfl⟩
      refine .bind ((ends_releaseListenerClaims env releases n
        (by simp [StartState.note, StartState.fresh])).weaken
        (fun _ _ => id) fun _ _ => False.elim) ?_
      rintro _ _ rfl
      exact .throw ⟨n, rfl, noting.append ..⟩

variable (stopReleases : ∀ idx, stopEnv (.release (.listenerClaim idx)) ≠ .threw)

include stopReleases

omit releases in
theorem ends_stopUnstarted (executors : Bool) (s : StartState) :
    Ends (stopUnstarted stopEnv (cleanupState g executors)) s
      (fun _ t => t = s.note ((releasedUnstarted g executors).map (.released ∘ .owned)))
      fun _ t => ¬Calm stopEnv ∧ ∃ early : List Resource,
        t = s.note (early.map (.released ∘ .owned)) ∧ ∀ idx, .listenerClaim idx ∉ early := by
  have stopped := ends_stop_cleanup stopEnv g executors stopReleases
  cases ended : outcome (stop (cleanupState g executors) stopEnv) ⟨.running, [], []⟩ with
  | mk result t =>
    unfold stopUnstarted
    rw [ended]
    refine .bind (.modify (Q := fun _ u => u = s.note (t.released.reverse.map (.released ∘ .owned))) rfl) ?_
    intro _ u same
    subst u
    cases result with
    | ok _ => exact .pure (by rw [stopped.returns _ _ ended, List.reverse_reverse])
    | error thrown =>
      obtain ⟨disturbed, none⟩ := stopped.throws _ _ ended
      exact .throw ⟨disturbed, _, rfl, fun idx => by simpa using none idx⟩

/-- The handler gives back the claims, and with a calm `stop!` all that the map in
`cleanup-state_` holds. -/
theorem ends_unwindStart (e : Failure) {executors : Option Bool} {s : StartState}
    (cleanup : s.cleanup = executors.map (cleanupState g))
    (held : ∀ idx, .released (.claim idx) ∉ s.log) :
    Ends (unwindStart g env stopEnv e) s (fun _ _ => False) fun thrown t => thrown = e ∧
      ∃ early : List Resource, t.log = s.log ++ early.map (.released ∘ .owned) ++
          (claims (claimKeys g.listeners).length).map .released ∧
        (∀ idx, .listenerClaim idx ∉ early) ∧
        (Calm stopEnv → early = executors.elim [] (releasedEarly g)) := by
  refine .bind (.get (Q := fun a t => a = s ∧ t = s) ⟨rfl, rfl⟩) ?_
  rintro a t ⟨now, here⟩
  subst a t
  refine .bind (Q := fun _ t => ∃ early : List Resource, t.log = s.log ++ early.map (.released ∘ .owned) ++
      (claims (claimKeys g.listeners).length).map .released ∧ (∀ idx, .listenerClaim idx ∉ early) ∧
      (Calm stopEnv → early = executors.elim [] (releasedEarly g))) ?_ fun _ t done => .throw ⟨rfl, done⟩
  cases executors with
  | none =>
    rw [cleanup]
    refine .tryCatch (F := fun _ _ => False) ?_ fun _ _ => False.elim
    refine (ends_releaseListenerClaims env releases _ held).weaken ?_ fun _ _ => id
    rintro _ _ rfl
    exact ⟨[], by simp [StartState.note], fun _ => List.not_mem_nil, fun _ => rfl⟩
  | some executors =>
    rw [cleanup]
    refine .tryCatch ((ends_stopUnstarted g stopEnv stopReleases executors s).weaken ?_ fun _ _ => id) ?_
    · rintro _ _ rfl
      refine ⟨releasedEarly g executors, ?_, early_claim g executors, fun _ => rfl⟩
      simp [StartState.note, releasedUnstarted, claims, Held.claim, Function.comp_def]
    · rintro _ _ ⟨disturbed, early, rfl, none⟩
      have still (idx : ℕ) : .released (.claim idx) ∉ (s.note (early.map (.released ∘ .owned))).log := by
        have before : .released (.owned (.listenerClaim idx)) ∉ s.log := held idx
        simpa [StartState.note, before, Held.claim] using none idx
      refine (ends_releaseListenerClaims env releases _ still).weaken ?_ fun _ _ => False.elim
      rintro _ _ rfl
      exact ⟨early, rfl, none, fun calm => absurd calm disturbed⟩

theorem ends_start : Ends (start g env stopEnv) .fresh (fun state t => Started g state t.log)
    fun e t => Failed g env stopEnv e t.log := by
  refine .bind ((ends_acquireListenerClaims env releases _).weaken (fun _ _ => id) ?_) ?_
  · rintro _ _ ⟨idx, rfl, rfl⟩
    exact .claim idx
  intro _ s same
  subst s
  refine .tryCatch (ends_attemptStart g env rfl rfl) ?_
  rintro e t ⟨executors, m, tried, cleanup, log⟩
  have held (idx : ℕ) : .released (.claim idx) ∉ t.log := by
    rw [log, List.mem_append, not_or]
    refine ⟨by simp [StartState.note, StartState.fresh], fun released => ?_⟩
    cases tried.late released
  refine (ends_unwindStart g env stopEnv releases stopReleases e cleanup held).weaken
    (fun _ _ => False.elim) ?_
  rintro _ u ⟨rfl, early, same, none, calm⟩
  rw [same, log]
  exact .unwound tried none calm

end claims

end starting

end Busker.Generation
