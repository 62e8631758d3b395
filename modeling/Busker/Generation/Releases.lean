import Busker.Generation.Retirement

/-! When each part of stopping a generation completes, and what it has released then. A
part that throws leaves the phase and the failed retirements as they were. -/

namespace Busker.Generation

open Unwinding Program

/-- What `stop!` itself never releases. -/
def Spared (g : GenerationState) : Resource → Prop
  | .encryptTicket _ | .context _ | .socket _ _ | .http3Context _ _ => True
  | .wakeupReceiver _ | .responseReceiver _ => g.workers ≠ []
  | _ => False

/-- What the calls of `stop!` do to the state on their own. -/
structure Kept (g : GenerationState) (s t : StopState) : Prop where
  phase : t.phase = s.phase
  failed : t.failedRetirements = s.failedRetirements
  released : ∀ r ∈ s.released, r ∈ t.released
  spared : ∀ r, Spared g r → r ∈ t.released → r ∈ s.released

theorem Kept.refl (g : GenerationState) (s : StopState) : Kept g s s :=
  ⟨rfl, rfl, fun _ => id, fun _ _ => id⟩

theorem Kept.trans (g : GenerationState) (s t u : StopState) (first : Kept g s t) (second : Kept g t u) :
    Kept g s u :=
  ⟨second.phase.trans first.phase, second.failed.trans first.failed,
    fun r member => second.released r (first.released r member),
    fun r spared member => first.spared r spared (second.spared r spared member)⟩

def Has (resources : List Resource) (s : StopState) : Prop := ∀ r ∈ resources, r ∈ s.released

theorem Has.mono (g : GenerationState) (resources : List Resource) (s t : StopState) (kept : Kept g s t)
    (has : Has resources s) : Has resources t := fun r member => kept.released r (has r member)

/-- The program completes exactly if `C` does, and has then released the resources. -/
def Frees (g : GenerationState) (p : Stop Unit) (C : Prop) (resources : List Resource) : Prop :=
  Brings (Kept g) p C (Has resources)

section rules

variable {g : GenerationState} {p q : Stop Unit} {C D : Prop} {L M : List Resource} {ι : Type}

theorem Frees.nothing : Frees g (pure ()) True [] :=
  (Brings.nothing (Kept.refl g)).weaken Iff.rfl fun _ _ _ member => absurd member List.not_mem_nil

theorem Frees.andThen (first : Frees g p C L) (second : Frees g q D M) :
    Frees g (p >>= fun _ => q) (C ∧ D) (L ++ M) := by
  apply (Brings.andThen (Kept.trans g) (Has.mono g L) first second).weaken Iff.rfl
  rintro t ⟨left, right⟩ r member
  exact (List.mem_append.mp member).elim (left r) (right r)

theorem Frees.forM {xs : List ι} {body : ι → Stop Unit} {E : ι → Prop} {N : ι → List Resource}
    (each : ∀ x, Frees g (body x) (E x) (N x)) :
    Frees g (xs.forM body) (∀ x ∈ xs, E x) (xs.flatMap N) := by
  apply (Brings.forM (Kept.refl g) (Kept.trans g) (fun x => Has.mono g (N x)) each).weaken Iff.rfl
  intro t all r member
  obtain ⟨x, inside, member⟩ := List.mem_flatMap.mp member
  exact all x inside r member

theorem Frees.when (b : Prop) [Decidable b] (h : Frees g p C L) :
    Frees g (when b p) (b → C) (if b then L else []) := by
  apply (Brings.when (Kept.refl g) b h).weaken Iff.rfl
  intro t brought
  split
  · exact brought ‹b›
  · exact fun _ member => absurd member List.not_mem_nil

theorem Frees.throw (e : Thrown) (L : List Resource) : Frees g (throw e) False L :=
  fun s => ⟨False.elim, fun _ => ⟨e, s, rfl, Kept.refl g s⟩⟩

theorem Frees.weaken (h : Frees g p C L) (same : C ↔ D) (less : ∀ r ∈ M, r ∈ L) : Frees g p D M :=
  Brings.weaken h same fun _ has r member => has r (less r member)

theorem Frees.update {f : StopState → StopState} (kept : ∀ s, Kept g s (f s))
    (has : ∀ s, Has L (f s)) : Frees g (modify f) True L :=
  fun s => .modify ⟨kept s, has s⟩

theorem Frees.recording (r : Resource) (other : ¬ Spared g r) :
    Frees g (modify (StopState.record (.release r))) True [r] := by
  apply Frees.update
  · intro s
    refine ⟨rfl, rfl, fun _ => List.mem_cons_of_mem _, ?_⟩
    intro x spared member
    exact (List.mem_cons.mp member).resolve_left fun same => other (same ▸ spared)
  · intro s x member
    rw [List.mem_singleton.mp member]
    exact List.mem_cons_self

variable (env : Environment)

theorem Frees.perform {call : Call} (h : Frees g (modify (StopState.record call)) True L) :
    Frees g (perform env call) (env call ≠ .threw) L := by
  unfold Generation.perform
  split
  · rename_i threw
    exact (Frees.throw _ L).weaken (by simp [threw]) fun _ => id
  · rename_i calm
    exact h.weaken (by simp [calm]) fun _ => id

theorem Frees.release (r : Resource) (other : ¬ Spared g r) :
    Frees g (Generation.perform env (.release r)) (env (.release r) ≠ .threw) [r] :=
  .perform env (.recording r other)

/-- A call that releases nothing. -/
theorem Frees.call (call : Call) (releases : ∀ r, call ≠ .release r) :
    Frees g (Generation.perform env call) (env call ≠ .threw) [] := by
  apply Frees.perform
  cases call with
  | release r => exact absurd rfl (releases r)
  | _ => exact .update (Kept.refl g) fun _ _ member => absurd member List.not_mem_nil

theorem Frees.ask {call : Call} {f : Bool → Stop Unit} (h : Frees g (f (env call == .done)) C L) :
    Frees g (ask env call >>= f) (env call ≠ .threw ∧ C) L := by
  unfold Generation.ask
  split
  · rename_i threw
    exact (Frees.throw _ L).weaken (by simp [threw]) fun _ => id
  · rename_i calm
    exact h.weaken (by simp [calm]) fun _ => id

theorem Frees.releaseAll (xs : List ι) (r : ι → Resource)
    (other : ∀ x, ¬ Spared g (r x)) :
    Frees g (xs.forM fun x => Generation.perform env (.release (r x)))
      (∀ x ∈ xs, env (.release (r x)) ≠ .threw) (xs.map r) := by
  apply (Frees.forM fun x => Frees.release env (r x) (other x)).weaken Iff.rfl
  intro resource member
  obtain ⟨x, inside, rfl⟩ := List.mem_map.mp member
  exact List.mem_flatMap.mpr ⟨x, inside, List.mem_singleton_self _⟩

theorem Frees.callAll (xs : List ι) (call : ι → Call)
    (releases : ∀ x r, call x ≠ .release r) :
    Frees g (xs.forM fun x => Generation.perform env (call x)) (∀ x ∈ xs, env (call x) ≠ .threw) [] :=
  (Frees.forM fun x => Frees.call env (call x) (releases x)).weaken Iff.rfl
    fun _ member => absurd member List.not_mem_nil

end rules

def whenOwned (b : Prop) [Decidable b] (r : Resource) : List Resource := if b then [r] else []

/-- What `begin-stop!` releases. -/
def beginResources (g : GenerationState) : List Resource :=
  whenOwned g.keyManager .keyManager ++ whenOwned g.executor .executor

/-- What is released before the join; the workers destroy their own receivers. -/
def retireResources (g : GenerationState) : List Resource :=
  if g.workers ≠ [] then []
  else (places g.wakeupReceivers).map .wakeupReceiver ++
    (places g.responseReceivers).map .responseReceiver

/-- What is released once the workers are joined. -/
def tearDownResources (g : GenerationState) : List Resource :=
  whenOwned (g.wakeNotifierOwned ≠ some false ∧ g.wakeNotifier) .wakeNotifier ++
    (g.workers.map .callbackDispatch ++
    (whenOwned g.closeCallbackExecutor .closeCallbackExecutor ++
    ((places (g.http3Contexts.map Http3Context.quiclyCtx)).map .quiclyCtx ++
      (places (g.http3Contexts.map Http3Context.ptlsCtx)).map .ptlsCtx ++
    (whenOwned g.nativeTicketMgr .nativeTicketMgr ++
    ((List.range g.loops).map .loop ++
    (whenOwned g.configPtr .configPtr ++
    ((places g.sslCtxPtrs).map .sslCtx ++
    (whenOwned g.bufferPool .bufferPool ++
    ((List.range g.listenerClaims).map .listenerClaim ++
    whenOwned g.arena .arena)))))))))

/-- The callbacks that encrypt the session tickets of the HTTP/3 listeners. -/
def encryptTickets (g : GenerationState) : List Resource :=
  (places (g.http3Contexts.map Http3Context.encryptTicket)).map .encryptTicket

def owned (g : GenerationState) : List Resource :=
  beginResources g ++ retireResources g ++ tearDownResources g ++ encryptTickets g ++ threadResources g

theorem spared_of_thread {g : GenerationState} {r : Resource} (member : r ∈ threadResources g) :
    Spared g r := by
  simp only [threadResources, List.mem_append, List.mem_map, List.mem_flatMap] at member
  rcases member with receiver | ⟨_, -, rfl⟩ | ⟨_, -, _, -, rfl⟩ | ⟨_, -, _, -, rfl⟩
  · split at receiver
    · rename_i some_workers
      simp only [List.mem_append, List.mem_map] at receiver
      rcases receiver with ⟨_, -, rfl⟩ | ⟨_, -, rfl⟩ <;> exact some_workers
    · exact absurd receiver List.not_mem_nil
  · trivial
  · trivial
  · trivial

theorem encryptTicket_not_thread (g : GenerationState) (idx : ℕ) : .encryptTicket idx ∉ threadResources g := by
  simp only [threadResources, List.mem_append, List.mem_map, List.mem_flatMap]
  split <;> simp

theorem mem_threadsDisposed {g : GenerationState} {env : Environment} {r : Resource} :
    r ∈ threadsDisposed g env ↔ g.workers ≠ [] ∧ r ∈ threadResources g ∧ env (.dispose r) = .done := by
  unfold threadsDisposed
  split <;> simp [*]

/-- Waiting for an executor does not throw. -/
structure Waits (env : Environment) (await : Bool → Call) (shutdownNow : Call) : Prop where
  first : env (await false) ≠ .threw
  forced : env (await false) ≠ .done → env shutdownNow ≠ .threw ∧ env (await true) ≠ .threw

/-- No call of `begin-stop!` throws. -/
structure Begins (g : GenerationState) (env : Environment) : Prop where
  handler : g.handlerPtr → env .handlerSetShuttingDown ≠ .threw
  keyManager : g.keyManager → env (.release .keyManager) ≠ .threw
  drains : ∀ worker ∈ g.workers, env (.beginDrain worker) ≠ .threw
  wakes : ∀ worker ∈ g.workers, env (.wake worker) ≠ .threw
  executor : g.executor → env (.release .executor) ≠ .threw

/-- No call between the phases `:stopping` and `:retiring` throws, and all workers accept
to retire their wake receiver. -/
structure Retires (g : GenerationState) (env : Environment) : Prop where
  executor : g.executor → Waits env .awaitExecutor .shutdownNowExecutor
  wakes : ∀ worker ∈ g.workers, env (.wake worker) ≠ .threw
  workers : ∀ worker ∈ g.workers, env (.retireWakeupReceiver worker) = .done
  wakeupReceivers : g.workers = [] → ∀ idx ∈ places g.wakeupReceivers,
    env (.release (.wakeupReceiver idx)) ≠ .threw
  responseReceivers : g.workers = [] → ∀ idx ∈ places g.responseReceivers,
    env (.release (.responseReceiver idx)) ≠ .threw

/-- All workers are found joined. -/
structure Joins (g : GenerationState) (env : Environment) : Prop where
  joined : ∀ worker ∈ g.workers, env (.join worker) ≠ .threw
  ended : ∀ worker ∈ g.workers, env (.isAlive worker) = .refused

/-- No call after the join throws, and the notifier stops. -/
structure TearsDown (g : GenerationState) (env : Environment) : Prop where
  wakeNotifier : g.wakeNotifierOwned ≠ some false ∧ g.wakeNotifier →
    env (.release .wakeNotifier) = .done
  dispatches : ∀ worker ∈ g.workers, env (.release (.callbackDispatch worker)) ≠ .threw
  closeCallbacks : g.closeCallbackExecutor → env (.release .closeCallbackExecutor) ≠ .threw ∧
    Waits env .awaitCloseCallbacks .shutdownNowCloseCallbacks
  quiclyCtxs : ∀ idx ∈ places (g.http3Contexts.map Http3Context.quiclyCtx),
    env (.release (.quiclyCtx idx)) ≠ .threw
  ptlsCtxs : ∀ idx ∈ places (g.http3Contexts.map Http3Context.ptlsCtx),
    env (.release (.ptlsCtx idx)) ≠ .threw
  nativeTicketMgr : g.nativeTicketMgr → env (.release .nativeTicketMgr) ≠ .threw
  loops : ∀ idx < g.loops, env (.release (.loop idx)) ≠ .threw
  configPtr : g.configPtr → env (.release .configPtr) ≠ .threw
  sslCtxPtrs : ∀ idx ∈ places g.sslCtxPtrs, env (.release (.sslCtx idx)) ≠ .threw
  bufferPool : g.bufferPool → env (.release .bufferPool) ≠ .threw
  listenerClaims : ∀ idx < g.listenerClaims, env (.release (.listenerClaim idx)) ≠ .threw
  arena : g.arena → env (.release .arena) ≠ .threw

section parts

variable (g : GenerationState) (env : Environment)

theorem frees_awaitTermination (await : Bool → Call) (shutdownNow : Call)
    (stops : ∀ r, shutdownNow ≠ .release r) :
    Frees g (awaitTermination env await shutdownNow) (Waits env await shutdownNow) [] := by
  have again : Frees g (ask env (await true) >>= fun _ => pure ())
      (env (await true) ≠ .threw ∧ True) [] := .ask env Frees.nothing
  refine (Frees.ask env (.when _ ((Frees.call env shutdownNow stops).andThen again))).weaken ?_ ?_
  · constructor
    · rintro ⟨first, forced⟩
      refine ⟨first, fun other => ?_⟩
      have ⟨now, wait, _⟩ := forced (by simpa using other)
      exact ⟨now, wait⟩
    · rintro ⟨first, forced⟩
      refine ⟨first, fun other => ?_⟩
      have ⟨now, wait⟩ := forced (by simpa using other)
      exact ⟨now, wait, trivial⟩
  · exact fun _ member => absurd member List.not_mem_nil

theorem frees_requestWakeupReceiverRetirement (worker : ℕ) :
    Frees g (requestWakeupReceiverRetirement env worker)
      (env (.retireWakeupReceiver worker) = .done) [] := by
  refine (Frees.ask env (.when _ (.throw _ []))).weaken ?_ ?_
  · cases env (.retireWakeupReceiver worker) <;> simp
  · exact fun _ member => absurd member List.not_mem_nil

theorem frees_stopNotifier : Frees g (tearDown.stopNotifier env)
    (env (.release .wakeNotifier) = .done) [.wakeNotifier] := by
  have recorded := Frees.recording (g := g) .wakeNotifier id
  refine (Frees.ask env ((Frees.when _ (.throw _ [])).andThen recorded)).weaken ?_ ?_
  · cases env (.release .wakeNotifier) <;> simp
  · exact fun _ member => List.mem_append_right _ member

theorem frees_broadcastWake :
    Frees g (broadcastWake g env) (∀ worker ∈ g.workers, env (.wake worker) ≠ .threw) [] :=
  .callAll env _ _ (by simp)

theorem frees_shutDown : Frees g (shutDown g env) (Begins g env) (beginResources g) := by
  have parts :=
    (Frees.when g.handlerPtr (Frees.call env .handlerSetShuttingDown (by simp))).andThen
    ((Frees.when g.keyManager (Frees.release env .keyManager id)).andThen
    ((Frees.callAll env g.workers .beginDrain (by simp)).andThen
    ((frees_broadcastWake g env).andThen
    (Frees.when g.executor (Frees.release env .executor id)))))
  refine parts.weaken ?_ ?_
  · constructor
    · rintro ⟨handler, keyManager, drains, wakes, executor⟩
      exact ⟨handler, keyManager, drains, wakes, executor⟩
    · rintro ⟨handler, keyManager, drains, wakes, executor⟩
      exact ⟨handler, keyManager, drains, wakes, executor⟩
  · intro r member
    rcases List.mem_append.mp member with member | member
    · exact List.mem_append_right _ (List.mem_append_left _ member)
    · exact List.mem_append_right _ (List.mem_append_right _ member)

theorem frees_retireReceivers :
    Frees g (retireReceivers g env) (Retires g env) (retireResources g) := by
  have executor := Frees.when g.executor
    (frees_awaitTermination g env .awaitExecutor .shutdownNowExecutor (by simp))
  have wakes := frees_broadcastWake g env
  have workers : Frees g (g.workers.forM (requestWakeupReceiverRetirement env)) _ _ :=
    .forM (frees_requestWakeupReceiverRetirement g env)
  unfold retireReceivers retireResources
  split
  · rename_i some_workers
    refine (executor.andThen (wakes.andThen workers)).weaken ?_
      fun _ member => absurd member List.not_mem_nil
    constructor
    · rintro ⟨executor, wakes, workers⟩
      exact ⟨executor, wakes, workers, fun none => absurd none some_workers,
        fun none => absurd none some_workers⟩
    · rintro ⟨executor, wakes, workers, _, _⟩
      exact ⟨executor, wakes, workers⟩
  · rename_i no_workers
    have no_workers := not_not.mp no_workers
    have wakeups := Frees.releaseAll (g := g) env (places g.wakeupReceivers) .wakeupReceiver
      fun _ some_workers => some_workers no_workers
    have responses := Frees.releaseAll (g := g) env (places g.responseReceivers) .responseReceiver
      fun _ some_workers => some_workers no_workers
    refine (executor.andThen (wakes.andThen (wakeups.andThen responses))).weaken ?_ ?_
    · constructor
      · rintro ⟨executor, wakes, wakeup, response⟩
        refine ⟨executor, wakes, ?_, fun _ => wakeup, fun _ => response⟩
        simp [no_workers]
      · rintro ⟨executor, wakes, _, wakeup, response⟩
        exact ⟨executor, wakes, wakeup no_workers, response no_workers⟩
    · intro r member
      exact List.mem_append_right _ (List.mem_append_right _ member)

theorem mem_places {pointers : List Bool} {idx : ℕ} (member : idx ∈ places pointers) :
    idx < pointers.length := List.mem_range.mp (List.mem_filter.mp member).1

theorem frees_freeHttp3Contexts : Frees g (freeHttp3Contexts g env)
    ((∀ idx ∈ places (g.http3Contexts.map Http3Context.quiclyCtx),
        env (.release (.quiclyCtx idx)) ≠ .threw) ∧
      ∀ idx ∈ places (g.http3Contexts.map Http3Context.ptlsCtx),
        env (.release (.ptlsCtx idx)) ≠ .threw)
    ((places (g.http3Contexts.map Http3Context.quiclyCtx)).map .quiclyCtx ++
      (places (g.http3Contexts.map Http3Context.ptlsCtx)).map .ptlsCtx) := by
  have quicly := fun idx => Frees.when
    (idx ∈ places (g.http3Contexts.map Http3Context.quiclyCtx))
    (Frees.release (g := g) env (.quiclyCtx idx) id)
  have ptls := fun idx => Frees.when
    (idx ∈ places (g.http3Contexts.map Http3Context.ptlsCtx))
    (Frees.release (g := g) env (.ptlsCtx idx) id)
  have inRange : ∀ (part : Http3Context → Bool) idx, idx ∈ places (g.http3Contexts.map part) →
      idx ∈ List.range g.http3Contexts.length := by
    intro part idx member
    simpa using mem_places member
  refine (Frees.forM fun idx => (quicly idx).andThen (ptls idx)).weaken ?_ ?_
  · constructor
    · intro calm
      exact ⟨fun idx member => (calm idx (inRange _ idx member)).1 member,
        fun idx member => (calm idx (inRange _ idx member)).2 member⟩
    · rintro ⟨quicly, ptls⟩ idx _
      exact ⟨quicly idx, ptls idx⟩
  · intro r member
    rw [List.mem_flatMap]
    rcases List.mem_append.mp member with member | member
    · obtain ⟨idx, inside, rfl⟩ := List.mem_map.mp member
      exact ⟨idx, inRange _ idx inside, List.mem_append_left _ (by simp [inside])⟩
    · obtain ⟨idx, inside, rfl⟩ := List.mem_map.mp member
      exact ⟨idx, inRange _ idx inside, List.mem_append_right _ (by simp [inside])⟩

theorem frees_closeCallbacks : Frees g
    (perform env (.release .closeCallbackExecutor) >>= fun _ =>
      awaitTermination env .awaitCloseCallbacks .shutdownNowCloseCallbacks)
    (env (.release .closeCallbackExecutor) ≠ .threw ∧
      Waits env .awaitCloseCallbacks .shutdownNowCloseCallbacks)
    [.closeCallbackExecutor] :=
  ((Frees.release env .closeCallbackExecutor id).andThen
    (frees_awaitTermination g env .awaitCloseCallbacks .shutdownNowCloseCallbacks (by simp))).weaken
    Iff.rfl fun _ => List.mem_append_left _

theorem frees_tearDown : Frees g (tearDown g env) (TearsDown g env) (tearDownResources g) := by
  have parts :=
    (Frees.when (g.wakeNotifierOwned ≠ some false ∧ g.wakeNotifier)
      (frees_stopNotifier g env)).andThen
    ((Frees.releaseAll env g.workers .callbackDispatch fun _ => id).andThen
    ((Frees.when g.closeCallbackExecutor (frees_closeCallbacks g env)).andThen
    ((frees_freeHttp3Contexts g env).andThen
    ((Frees.when g.nativeTicketMgr (Frees.release env .nativeTicketMgr id)).andThen
    ((Frees.releaseAll env (List.range g.loops) .loop fun _ => id).andThen
    ((Frees.when g.configPtr (Frees.release env .configPtr id)).andThen
    ((Frees.releaseAll env (places g.sslCtxPtrs) .sslCtx fun _ => id).andThen
    ((Frees.when g.bufferPool (Frees.release env .bufferPool id)).andThen
    ((Frees.releaseAll env (List.range g.listenerClaims) .listenerClaim fun _ => id).andThen
    (Frees.when g.arena (Frees.release env .arena id)))))))))))
  refine parts.weaken ?_ fun _ => id
  simp only [List.mem_range]
  constructor
  · rintro ⟨notifier, dispatches, callbacks, ⟨quicly, ptls⟩, tickets, loops, config, ssl, pool,
      claims, arena⟩
    exact ⟨notifier, dispatches, callbacks, quicly, ptls, tickets, loops, config, ssl, pool,
      claims, arena⟩
  · rintro ⟨notifier, dispatches, callbacks, quicly, ptls, tickets, loops, config, ssl, pool,
      claims, arena⟩
    exact ⟨notifier, dispatches, callbacks, ⟨quicly, ptls⟩, tickets, loops, config, ssl, pool,
      claims, arena⟩

end parts

end Busker.Generation
