import Busker.Generation.StartUnwinding
import Mathlib.Data.List.Count
import Mathlib.Data.List.Nodup

/-! Which resources a failed `start!` gives back, and that `stop!` of a started generation
gives back all of them. -/

namespace Busker.Generation

open Unwinding Program

variable {g : Setup} {env : StartEnvironment} {stopEnv : Environment}

/-- Whether a `start!` that throws `e` gives the resource back: the claims and the executors
always, but for an executor that is not in `cleanup-state_` yet; what the stages acquired only
if a response receiver is null, and the first context of a listener whose second is null. -/
def unwinds (e : Failure) : Held → Bool
  | .owned (.listenerClaim _) => true
  | .owned .executor => e ≠ .byCall (.acquire (.owned .closeCallbackExecutor))
  | .owned .closeCallbackExecutor => true
  | .owned (.ptlsCtx idx) => e = nullReceiver ∨ e = nullQuicly idx
  | _ => e = nullReceiver

theorem unwinds_nullReceiver (held : Held) : unwinds nullReceiver held = true := by
  cases held with
  | owned resource => cases resource <;> rfl
  | _ => rfl

theorem unwinds_nullQuicly {held : Held} (late : held.late = true) (idx : ℕ) :
    unwinds (nullQuicly idx) held = decide (held = .owned (.ptlsCtx idx)) := by
  cases held with
  | owned resource =>
    cases resource <;> first | exact absurd late Bool.false_ne_true | simp [unwinds, nullQuicly, nullReceiver, eq_comm]
  | _ => simp [unwinds, nullQuicly, nullReceiver]

theorem unwinds_plain {e : Failure} (plain : e.Plain) {held : Held} (late : held.late = true) :
    unwinds e held = false := by
  cases held with
  | owned resource =>
    cases resource <;> first | exact absurd late Bool.false_ne_true | simp [unwinds, plain.receiver, plain.quicly]
  | _ => simp [unwinds, plain.receiver]

theorem count_released (acquired released : List Held) (held : Held) :
    (acquired.map Event.acquired).count (.released held) = 0 ∧
      (released.map Event.released).count (.released held) = released.count held := by
  refine ⟨List.count_eq_zero.mpr (not_released_acquired acquired held), ?_⟩
  exact List.count_map_of_injective _ _ (fun _ _ => Event.released.inj) _

theorem nodup_claims (n : ℕ) : (claims n).Nodup := by
  refine List.Nodup.map ?_ List.nodup_range
  intro i j same
  simpa [Held.claim] using same

theorem count_claims {n : ℕ} {held : Held} (member : held ∈ claims n) : (claims n).count held = 1 :=
  List.count_eq_one_of_mem (nodup_claims n) member

theorem nodup_places (bs : List Bool) : (places bs).Nodup := List.nodup_range.filter _

theorem nodup_core (g : Setup) (receivers : Receivers) : (coreResources g receivers).Nodup := by
  have loops : ((List.range g.nWorkers).map (Held.owned ∘ .loop)).Nodup :=
    List.nodup_range.map fun i j same => by simpa using same
  have contexts : ((List.range g.nWorkers).map (Held.owned ∘ .context)).Nodup :=
    List.nodup_range.map fun i j same => by simpa using same
  have wakeups : ((places receivers.wakeup).map (Held.owned ∘ .wakeupReceiver)).Nodup :=
    (nodup_places _).map fun i j same => by simpa using same
  have responses : ((places receivers.response).map (Held.owned ∘ .responseReceiver)).Nodup :=
    (nodup_places _).map fun i j same => by simpa using same
  simp only [coreResources, List.nodup_append, loops, contexts, wakeups, responses]
  simp only [List.mem_append, List.mem_map, List.mem_cons, List.not_mem_nil, or_false, Function.comp_apply]
  refine ⟨⟨⟨⟨by simp, trivial, ?_⟩, trivial, ?_⟩, trivial, ?_⟩, trivial, ?_⟩
  · rintro _ (rfl | rfl) _ ⟨_, _, rfl⟩ <;> simp
  · rintro _ ((rfl | rfl) | ⟨_, _, rfl⟩) _ ⟨_, _, rfl⟩ <;> simp
  · rintro _ (((rfl | rfl) | ⟨_, _, rfl⟩) | ⟨_, _, rfl⟩) _ ⟨_, _, rfl⟩ <;> simp
  · rintro _ ((((rfl | rfl) | ⟨_, _, rfl⟩) | ⟨_, _, rfl⟩) | ⟨_, _, rfl⟩) _ ⟨_, _, rfl⟩ <;> simp

/-- The log of a `start!` whose unwinding is over. -/
def unwoundLog (n : ℕ) (m : List Event) (early : List Resource) : List Event :=
  (claims n).map .acquired ++ m ++ early.map (.released ∘ .owned) ++ (claims n).map .released

theorem count_unwoundLog (n : ℕ) (m : List Event) (early : List Resource) (held : Held) :
    (unwoundLog n m early).count (.released held) =
      m.count (.released held) + (early.map Held.owned).count held + (claims n).count held := by
  have owned : early.map (Event.released ∘ Held.owned) = (early.map Held.owned).map .released := by simp
  rw [unwoundLog, List.count_append, List.count_append, List.count_append, owned,
    (count_released (claims n) [] held).1, (count_released [] (early.map Held.owned) held).2,
    (count_released [] (claims n) held).2, Nat.zero_add]

theorem acquired_unwoundLog {n : ℕ} {m : List Event} {early : List Resource} {held : Held}
    (member : .acquired held ∈ unwoundLog n m early) : held ∈ claims n ∨ .acquired held ∈ m := by
  simpa [unwoundLog] using member

theorem StageFailed.acquired_late {e : Failure} {m : List Event} (failed : StageFailed g env e m)
    {held : Held} (acquired : .acquired held ∈ m) : held.late = true := by
  rcases failed with later | ⟨-, receivers, rfl⟩
  · exact later.late held acquired
  · have member : held ∈ coreResources g receivers := by simpa [unwound] using acquired
    exact core_late g receivers held member

theorem Tried.not_claim {e : Failure} {executors : Option Bool} {m : List Event}
    (tried : Tried g env e executors m) (idx : ℕ) :
    .acquired (.claim idx) ∉ m ∧ m.count (.released (.claim idx)) = 0 := by
  refine ⟨fun acquired => ?_, List.count_eq_zero.mpr fun released => by cases tried.late released⟩
  cases tried with
  | preparing => cases acquired
  | executor => cases acquired
  | closeCallbackExecutor => simp [Held.claim] at acquired
  | stage failed =>
    have member := (List.mem_append.mp acquired).resolve_left (by simp [Held.claim])
    cases failed.acquired_late member

theorem Failed.count_claim {e : Failure} {log : List Event} (failed : Failed g env stopEnv e log) {idx : ℕ}
    (acquired : .acquired (.claim idx) ∈ log) : log.count (.released (.claim idx)) = 1 := by
  cases failed with
  | claim last =>
    have member : Held.claim idx ∈ claims last := by simpa using acquired
    rw [List.count_append, (count_released _ [] _).1, (count_released [] _ _).2, count_claims member]
  | @unwound _ _ m early tried none calm =>
    have member := (acquired_unwoundLog acquired).resolve_right (tried.not_claim idx).1
    have early : (early.map Held.owned).count (.claim idx) = 0 :=
      List.count_eq_zero.mpr (by simpa [Held.claim] using none idx)
    exact (count_unwoundLog ..).trans (by rw [(tried.not_claim idx).2, early, count_claims member])

/-- What a stage acquired it releases as its failure says. -/
theorem StageFailed.count {e : Failure} {m : List Event} (failed : StageFailed g env e m)
    (calm : ∀ held, env (.release held) ≠ .threw) {held : Held} (acquired : .acquired held ∈ m) :
    m.count (.released held) = if unwinds e held then 1 else 0 := by
  have late := failed.acquired_late acquired
  rcases failed with later | ⟨rfl, receivers, rfl⟩
  · rcases later.gone with ⟨plain, none⟩ | ⟨idx, new, rfl, rfl, none⟩
    · rw [List.count_eq_zero.mpr (none held), unwinds_plain plain late]
      rfl
    · rw [List.count_append, List.count_eq_zero.mpr (none held), unwinds_nullQuicly late, Nat.zero_add,
        List.count_singleton]
      by_cases same : held = .owned (.ptlsCtx idx)
      · subst same
        simp
      · simp [same, Ne.symm same]
  · have member : held ∈ coreResources g receivers := by simpa [unwound] using acquired
    have all : unwound env (coreResources g receivers).reverse =
        (coreResources g receivers).reverse.map .released := by
      rw [unwound, List.filter_eq_self.mpr fun held _ => by simpa using calm held]
    rw [List.count_append, (count_released _ [] _).1, all, (count_released [] _ _).2, unwinds_nullReceiver,
      List.count_reverse, List.count_eq_one_of_mem (nodup_core g receivers) member]
    rfl

theorem StageFailed.executor {e : Failure} {m : List Event} (failed : StageFailed g env e m) :
    e ≠ .byCall (.acquire (.owned .closeCallbackExecutor)) := by
  rcases failed with later | ⟨rfl, -⟩
  · rcases later.gone with ⟨plain, -⟩ | ⟨idx, new, rfl, -⟩
    · exact plain.executor
    · rintro ⟨⟩
  · rintro ⟨⟩

theorem count_claims_of_ne {n : ℕ} {held : Held} (other : ∀ idx, held ≠ .claim idx) :
    (claims n).count held = 0 := by
  refine List.count_eq_zero.mpr fun member => ?_
  obtain ⟨idx, -, same⟩ := List.mem_map.mp member
  exact other idx same.symm

theorem count_early_executors (g : Setup) {held : Held}
    (executor : held = .owned .executor ∨ held = .owned .closeCallbackExecutor) :
    ((releasedEarly g true).map Held.owned).count held = 1 := by
  cases owned : g.wakeNotifierOwned <;> cases pool : g.bufferPool <;> rcases executor with rfl | rfl <;>
    simp [releasedEarly, owned, pool]

theorem early_not_late {g : Setup} {resource : Resource} (member : resource ∈ releasedEarly g true) :
    (Held.owned resource).late = false := by
  cases owned : g.wakeNotifierOwned <;> cases pool : g.bufferPool <;>
    simp only [releasedEarly, owned, pool, if_true, Bool.true_and, Bool.false_eq_true, if_false,
      List.mem_append, List.mem_singleton, List.not_mem_nil, or_false, false_or] at member <;>
    grind [Held.late]

theorem Failed.count {e : Failure} {log : List Event} (failed : Failed g env stopEnv e log)
    (calm : ∀ held, env (.release held) ≠ .threw) (stops : Calm stopEnv) {held : Held}
    (acquired : .acquired held ∈ log) :
    log.count (.released held) = if unwinds e held then 1 else 0 := by
  by_cases claimed : ∃ idx, held = .claim idx
  · obtain ⟨idx, rfl⟩ := claimed
    exact failed.count_claim acquired
  have other : ∀ idx, held ≠ .claim idx := not_exists.mp claimed
  cases failed with
  | claim last =>
    have member : held ∈ claims last := by simpa using acquired
    obtain ⟨idx, -, same⟩ := List.mem_map.mp member
    exact absurd same.symm (other idx)
  | @unwound _ executors m early tried none exact_ =>
    obtain rfl := exact_ stops
    have member := (acquired_unwoundLog acquired).resolve_left fun member => by
      obtain ⟨idx, -, same⟩ := List.mem_map.mp member
      exact other idx same.symm
    refine (count_unwoundLog ..).trans ?_
    rw [count_claims_of_ne other, Nat.add_zero]
    cases tried with
    | preparing => cases member
    | executor => cases member
    | closeCallbackExecutor =>
      obtain rfl : held = .owned .executor := by simpa using member
      cases pool : g.bufferPool <;> simp [releasedEarly, unwinds, pool]
    | stage failed =>
      have started : [Event.acquired (.owned .executor), .acquired (.owned .closeCallbackExecutor)].count
          (.released held) = 0 := List.count_eq_zero.mpr (by simp)
      rw [List.count_append, started, Nat.zero_add]
      simp only [List.mem_append, List.mem_cons, List.not_mem_nil, or_false, Event.acquired.injEq] at member
      rcases member with (rfl | rfl) | acquired
      · rw [List.count_eq_zero.mpr fun released => by cases failed.late released]
        simp [count_early_executors g (.inl rfl), unwinds, failed.executor]
      · rw [List.count_eq_zero.mpr fun released => by cases failed.late released]
        simp [count_early_executors g (.inr rfl), unwinds]
      · have late := failed.acquired_late acquired
        have apart : held ∉ (releasedEarly g true).map .owned := fun member => by
          obtain ⟨resource, inside, rfl⟩ := List.mem_map.mp member
          exact absurd (early_not_late inside) (by rw [late]; decide)
        rw [Option.elim_some, List.count_eq_zero.mpr apart]
        exact failed.count calm acquired

/-- One worker and a TLS listener without HTTP/3. -/
def site : Setup where
  self := 7
  listeners := [⟨⟨none, none, some "0.0.0.0", 443⟩, true, false⟩]
  nWorkers := 1
  tlsCallbackRequired := true
  sessionTickets := ⟨false, false⟩
  memoryTicketService := false
  bufferPool := true
  wakeNotifierOwned := false
  activateHttp3Transports := true

/-- The socket of the first worker cannot be created. -/
def noSocket : StartEnvironment := fun c => if c = .acquire (.owned (.socket 0 0)) then .threw else .done

def unwoundSite (stopEnv : Environment) : StartState := (outcome (start site noSocket stopEnv) .fresh).2

theorem noSocket_releases (held : Held) : noSocket (.release held) ≠ .threw := by simp [noSocket]

theorem calm_calm : Calm calm where
  calls call := by cases call <;> simp [calm]
  notifier := rfl

/-- Every listener claim that a failing `start!` acquired it has released exactly once, whatever
else its unwinding meets. -/
theorem start_releases_claims (releases : ∀ idx, env (.release (.claim idx)) ≠ .threw)
    (stopReleases : ∀ idx, stopEnv (.release (.listenerClaim idx)) ≠ .threw) {e : Failure} {t : StartState}
    (failed : outcome (start g env stopEnv) .fresh = (.error e, t)) {idx : ℕ}
    (acquired : .acquired (.claim idx) ∈ t.log) : t.log.count (.released (.claim idx)) = 1 :=
  ((ends_start g env stopEnv releases stopReleases).throws e t failed).count_claim acquired

/-- The wait for the requests is interrupted while the start is undone. -/
theorem start_releases_claims_interrupted :
    (unwoundSite (except (.awaitExecutor false) .threw)).log.count (.released (.claim 0)) = 1 :=
  @start_releases_claims site noSocket (except (.awaitExecutor false) .threw) (fun _ => noSocket_releases _)
    (fun idx => by simp [except, calm]) (.byCall (.acquire (.owned (.socket 0 0)))) _ rfl 0 (by decide)

/-- What a failing `start!` acquired it has released once or not at all, as `unwinds` says. -/
theorem start_leaves (calm : ∀ held, env (.release held) ≠ .threw) (stops : Calm stopEnv) {e : Failure}
    {t : StartState} (failed : outcome (start g env stopEnv) .fresh = (.error e, t)) {held : Held}
    (acquired : .acquired held ∈ t.log) : t.log.count (.released held) = if unwinds e held then 1 else 0 :=
  ((ends_start g env stopEnv (fun _ => calm _) fun _ => stops.calls _).throws e t failed).count calm stops
    acquired

/-- The event loop of the first worker is not destroyed. -/
theorem start_leaves_loop : (unwoundSite calm).log.count (.released (.owned (.loop 0))) = 0 :=
  @start_leaves site noSocket calm noSocket_releases calm_calm (.byCall (.acquire (.owned (.socket 0 0)))) _ rfl
    (.owned (.loop 0)) (by decide)

theorem threadOwned_of_thread {state : GenerationState} {resource : Resource}
    (member : resource ∈ threadResources state) : (Held.owned resource).threadOwned = true := by
  have spared := spared_of_thread member
  cases resource with
  | encryptTicket idx => exact absurd member (encryptTicket_not_thread state idx)
  | wakeupReceiver | responseReceiver | context | socket | http3Context => rfl
  | _ => exact spared.elim

/-- Once calls of `begin-stop!` and `stop!`, in whatever order and with whatever answers, have
stopped a generation that `start!` returned, all that `start!` had acquired is given back but
for the ticket callbacks of HTTP/3 and what the workers' threads dispose of. -/
theorem started_given_back (releases : ∀ idx, env (.release (.claim idx)) ≠ .threw)
    (stopReleases : ∀ idx, stopEnv (.release (.listenerClaim idx)) ≠ .threw) {state : GenerationState}
    {t : StartState} (returned : outcome (start g env stopEnv) .fresh = (.ok state, t)) {s : StopState}
    (fresh : Fresh state s) {ops : List Op} (stopped : (afterCalls state ops s).phase = .stopped)
    {held : Held} (acquired : .acquired held ∈ t.log) :
    held.threadOwned = true ∨ (∃ idx, held = .owned (.encryptTicket idx)) ∨
      ∃ resource ∈ (afterCalls state ops s).released, held = .owned resource := by
  obtain ⟨receivers, new, rfl, log, handed⟩ :=
    (ends_start g env stopEnv releases stopReleases).returns state t returned
  have released := (explained_of_fresh fresh ops).sound.released
  have begun := released.begun (by rw [stopped]; decide)
  have tornDown := released.tornDown stopped
  have member : held ∈ claims (claimKeys g.listeners).length ++
      ([Held.owned .executor, .owned .closeCallbackExecutor] ++ new) := by
    simpa [log] using acquired
  simp only [List.mem_append, List.mem_cons, List.not_mem_nil, or_false] at member
  rcases member with claim | (rfl | rfl) | new
  · obtain ⟨idx, inside, rfl⟩ := List.mem_map.mp claim
    refine .inr (.inr ⟨_, tornDown (.listenerClaim idx) ?_, rfl⟩)
    simp [tearDownResources, startedState, List.mem_range.mp inside]
  · exact .inr (.inr ⟨_, begun .executor (by simp [beginResources, startedState, whenOwned]), rfl⟩)
  · refine .inr (.inr ⟨_, tornDown .closeCallbackExecutor ?_, rfl⟩)
    simp [tearDownResources, startedState, whenOwned]
  · rcases handed held new with thread | ⟨resource, owned, rfl⟩
    · exact .inl thread
    · rcases List.mem_append.mp owned with other | thread
      swap
      · exact .inl (threadOwned_of_thread thread)
      rcases List.mem_append.mp other with rest | ticket
      · refine .inr (.inr ⟨resource, ?_, rfl⟩)
        rcases List.mem_append.mp rest with early | late
        · exact (List.mem_append.mp early).elim (begun resource)
            (released.retired (by rw [stopped]; decide) (by rw [stopped]; decide) resource)
        · exact tornDown resource late
      · obtain ⟨idx, -, rfl⟩ := List.mem_map.mp ticket
        exact .inr (.inl ⟨idx, rfl⟩)

def started : GenerationState := startedState site ⟨[true], [true]⟩

theorem started_given_back_arena :
    Held.threadOwned (.owned .arena) = true ∨ (∃ idx, Held.owned .arena = .owned (.encryptTicket idx)) ∨
      ∃ resource ∈ (afterCalls started [.stop calm] running).released, Held.owned .arena = .owned resource :=
  @started_given_back site (fun _ => .done) calm (fun _ => by rintro ⟨⟩) (fun _ => by simp [calm]) started
    (outcome (start site (fun _ => .done) calm) .fresh).2 rfl running ⟨rfl, List.not_mem_nil, rfl⟩
    [.stop calm] rfl (.owned .arena) (by decide)

end Busker.Generation
