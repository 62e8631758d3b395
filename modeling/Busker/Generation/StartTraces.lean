import Busker.Generation.Releases
import Busker.Generation.Startup
import Mathlib.Data.List.Induction

/-! What each stage of `start!` has acquired when it returns or throws. -/

namespace Busker.Generation

open Unwinding Program

theorem noting : Log StartState.note where
  nil s := by simp [StartState.note]
  append s m l := by simp [StartState.note]

/-- What the stages acquire, and not `start!` before them or the caller. -/
def Held.late : Held → Bool
  | .owned (.listenerClaim _) => false
  | .owned .executor => false
  | .owned .closeCallbackExecutor => false
  | .owned .wakeNotifier => false
  | .owned .bufferPool => false
  | _ => true

/-- The failures of stages that release nothing. -/
structure Failure.Plain (e : Failure) : Prop where
  receiver : e ≠ nullReceiver
  quicly : ∀ idx, e ≠ nullQuicly idx
  executor : e ≠ .byCall (.acquire (.owned .closeCallbackExecutor))

theorem plain_byCall {c : StartCall} (other : c ≠ .acquire (.owned .closeCallbackExecutor)) :
    (Failure.byCall c).Plain :=
  ⟨by rintro ⟨⟩, by rintro _ ⟨⟩, fun same => other (Failure.byCall.inj same)⟩

theorem plain_acquire {held : Held} (late : held.late = true) :
    (Failure.byCall (.acquire held)).Plain := by
  apply plain_byCall
  rintro ⟨⟩
  contradiction

theorem plain_exInfo {message : String} {place : Option ℕ}
    (receiver : message ≠ "Could not create native response receiver")
    (quicly : message ≠ "Failed to create quicly context for HTTP/3") :
    (Failure.exInfo message place).Plain :=
  ⟨fun same => receiver (Failure.exInfo.inj same).1, fun _ same => quicly (Failure.exInfo.inj same).1,
    by rintro ⟨⟩⟩

/-- What a stage leaves that throws: nothing released, except for the context of a listener
whose next one is null. -/
structure Later (e : Failure) (m : List Event) : Prop where
  late : ∀ held, .acquired held ∈ m → held.late = true
  gone : e.Plain ∧ (∀ held, .released held ∉ m) ∨ ∃ idx new,
    e = nullQuicly idx ∧ m = new ++ [.released (.owned (.ptlsCtx idx))] ∧ ∀ held, .released held ∉ new

theorem Failure.Plain.later {e : Failure} (plain : e.Plain) : Later e [] :=
  ⟨fun _ member => absurd member List.not_mem_nil, .inl ⟨plain, fun _ => List.not_mem_nil⟩⟩

theorem not_released_acquired (new : List Held) (held : Held) :
    .released held ∉ new.map Event.acquired := by simp

theorem Later.after {e : Failure} {m : List Event} (h : Later e m) {new : List Held}
    (late : ∀ held ∈ new, held.late = true) : Later e (new.map .acquired ++ m) where
  late held member := by
    rcases List.mem_append.mp member with first | rest
    · exact late held (by simpa using first)
    · exact h.late held rest
  gone := by
    refine h.gone.imp (And.imp_right fun none held member => ?_) ?_
    · exact (List.mem_append.mp member).elim (not_released_acquired new held) (none held)
    · rintro ⟨idx, before, same, rfl, none⟩
      refine ⟨idx, new.map .acquired ++ before, same, by rw [List.append_assoc], fun held member => ?_⟩
      exact (List.mem_append.mp member).elim (not_released_acquired new held) (none held)

/-- The program only acquires: `R` relates what it returns to what it has acquired. -/
def Acquires {α : Type} (p : Start α) (R : α → List Held → Prop) : Prop :=
  Traces StartState.note p
    (fun a m => ∃ new, m = new.map .acquired ∧ (∀ held ∈ new, held.late = true) ∧ R a new) Later

section rules

variable {α β ι : Type} {p : Start α} {f : α → Start β} {R R' : α → List Held → Prop}
  {S : β → List Held → Prop}

theorem Acquires.weaken (h : Acquires p R) (more : ∀ a new, R a new → R' a new) : Acquires p R' :=
  Traces.weaken h (fun a _ ⟨new, same, late, holds⟩ => ⟨new, same, late, more a new holds⟩)
    fun _ _ => id

theorem Acquires.pure {a : α} (holds : R a []) : Acquires (pure a) R :=
  Traces.pure noting ⟨[], rfl, List.forall_mem_nil _, holds⟩

theorem Acquires.throw {e : Failure} (plain : e.Plain) : Acquires (throw e) R :=
  Traces.throw noting plain.later

theorem Acquires.bind (first : Acquires p R)
    (second : ∀ a new, R a new → Acquires (f a) fun b more => S b (new ++ more)) :
    Acquires (p >>= f) S := by
  apply Traces.bind noting first
  rintro a _ ⟨new, rfl, late, holds⟩
  apply Traces.weaken (second a new holds)
  · rintro b _ ⟨more, rfl, later, holds⟩
    exact ⟨new ++ more, by rw [List.map_append],
      fun held member => (List.mem_append.mp member).elim (late held) (later held), holds⟩
  · exact fun e m thrown => thrown.after late

theorem Acquires.when {b : Prop} [Decidable b] {p : Start Unit} {R : Unit → List Held → Prop}
    (taken : b → Acquires p R) (skipped : ¬b → R () []) : Acquires (when b p) R :=
  Traces.when noting taken fun no => ⟨[], rfl, List.forall_mem_nil _, skipped no⟩

theorem Acquires.forM {xs : List ι} {body : ι → Start Unit} {L : ι → List Held}
    (each : ∀ x, Acquires (body x) fun _ new => new = L x) :
    Acquires (xs.forM body) fun _ new => new = xs.flatMap L := by
  induction xs with
  | nil => exact .pure rfl
  | cons x rest ih =>
    show Acquires (body x >>= fun _ => rest.forM body) _
    apply (each x).bind
    rintro _ _ rfl
    exact ih.weaken fun _ new same => by rw [same, List.flatMap_cons]

/-- Whatever the body acquires has a property. -/
theorem Acquires.forM_all {xs : List ι} {body : ι → Start Unit} {P : Held → Prop}
    (each : ∀ x ∈ xs, Acquires (body x) fun _ new => ∀ held ∈ new, P held) :
    Acquires (xs.forM body) fun _ new => ∀ held ∈ new, P held := by
  induction xs with
  | nil => exact .pure (List.forall_mem_nil _)
  | cons x rest ih =>
    show Acquires (body x >>= fun _ => rest.forM body) _
    apply (each x List.mem_cons_self).bind
    intro _ new first
    apply (ih fun y member => each y (List.mem_cons_of_mem x member)).weaken
    exact fun _ more later held member => (List.mem_append.mp member).elim (first held) (later held)

theorem Acquires.mapM {xs : List ι} {body : ι → Start Bool} {L : ι → Bool → List Held}
    (each : ∀ x, Acquires (body x) fun b new => new = L x b) :
    Acquires (xs.mapM body) fun bs new =>
      bs.length = xs.length ∧ new = (xs.zip bs).flatMap fun (x, b) => L x b := by
  induction xs with
  | nil => exact .pure ⟨rfl, rfl⟩
  | cons x rest ih =>
    rw [List.mapM_cons]
    apply (each x).bind
    rintro b _ rfl
    apply ih.bind
    rintro bs _ ⟨same, rfl⟩
    exact .pure ⟨congrArg (· + 1) same, by simp⟩

end rules

section calls

variable (env : StartEnvironment)

theorem acquires_call {c : StartCall} (other : c ≠ .acquire (.owned .closeCallbackExecutor)) :
    Acquires (call env c) fun _ new => new = [] := by
  unfold call
  split
  · exact .throw (plain_byCall other)
  · exact .pure rfl

theorem acquires_create {held : Held} (late : held.late = true) :
    Acquires (create env held) fun _ new => new = [held] := by
  unfold create
  split
  · exact .throw (plain_acquire late)
  · exact Traces.add ⟨[held], rfl, by simpa using late, rfl⟩

theorem acquires_acquire {held : Held} (late : held.late = true) :
    Acquires (acquire env held) fun b new => new = if b then [held] else [] := by
  unfold acquire
  split
  · exact .throw (plain_acquire late)
  · split
    · exact .pure rfl
    · have add : Acquires (modify (·.note [.acquired held])) fun (_ : Unit) new => new = [held] :=
        Traces.add ⟨[held], rfl, by simpa using late, rfl⟩
      apply add.bind
      rintro _ _ rfl
      exact .pure rfl

theorem acquires_acquireOr {held : Held} (late : held.late = true) {failure : Failure}
    (plain : failure.Plain) : Acquires (acquireOr env held failure) fun _ new => new = [held] := by
  apply (acquires_acquire env late).bind
  rintro b _ rfl
  apply Acquires.when fun _ => .throw plain
  intro found
  simp only [Bool.not_eq_true, Bool.not_eq_false] at found
  simp [found]

theorem acquires_createAll (n : ℕ) {f : ℕ → Held} (late : ∀ idx, (f idx).late = true) :
    Acquires ((List.range n).forM fun idx => create env (f idx)) fun _ new =>
      new = (List.range n).map f :=
  (Acquires.forM fun idx => acquires_create env (late idx)).weaken fun _ new same => by
    rw [same, List.map_eq_flatMap]

/-- Acquiring pointers and noting which are null. -/
theorem acquires_acquireAll (n : ℕ) {f : ℕ → Held} (late : ∀ idx, (f idx).late = true) :
    Acquires ((List.range n).mapM fun idx => acquire env (f idx)) fun bs new =>
      bs.length = n ∧ new = (places bs).map f := by
  apply (Acquires.mapM fun idx => acquires_acquire env (late idx)).weaken
  rintro bs _ ⟨length, rfl⟩
  rw [List.length_range] at length
  exact ⟨length, flatMap_places f length⟩
where
  flatMap_places {n : ℕ} {bs : List Bool} (f : ℕ → Held) (length : bs.length = n) :
      (((List.range n).zip bs).flatMap fun x => if x.2 then [f x.1] else []) = (places bs).map f := by
    induction bs using List.reverseRecOn generalizing n with
    | nil => subst length; rfl
    | append_singleton bs b ih =>
      subst length
      rw [List.length_append, List.length_singleton, List.range_succ, List.zip_append (by simp),
        List.flatMap_append, ih rfl]
      have before : ((List.range bs.length).filter fun idx => (bs ++ [b])[idx]? = some true) =
          places bs := by
        apply List.filter_congr
        intro idx inside
        rw [List.getElem?_append_left (List.mem_range.mp inside)]
      have after : places (bs ++ [b]) = places bs ++ if b then [bs.length] else [] := by
        rw [places, List.length_append, List.length_singleton, List.range_succ, List.filter_append, before]
        cases b <;> simp
      rw [after, List.map_append]
      cases b <;> simp

end calls

section stages

variable (g : Setup) (env : StartEnvironment)

theorem acquires_createContexts : Acquires (createContexts g env) fun _ new =>
    new = (List.range g.nWorkers).map (.owned ∘ .context) := by
  have nonempty : Acquires (when (g.nWorkers = 0) (throw (.exInfo "Assert failed: (seq loops)" none)))
      fun (_ : Unit) new => new = [] :=
    .when (fun _ => .throw (plain_exInfo (by decide) (by decide))) fun _ => rfl
  apply nonempty.bind
  rintro _ _ rfl
  exact acquires_createAll env g.nWorkers fun _ => rfl

theorem acquires_createCore : Acquires (createCore g env) fun receivers new =>
    receivers.response.length = g.nWorkers ∧ new = coreResources g receivers := by
  refine .bind (acquires_create env rfl) ?_
  rintro _ _ rfl
  refine .bind (acquires_call env (by rintro ⟨⟩)) ?_
  rintro _ _ rfl
  refine .bind (acquires_create env rfl) ?_
  rintro _ _ rfl
  refine .bind (acquires_call env (by rintro ⟨⟩)) ?_
  rintro _ _ rfl
  refine .bind (acquires_call env (by rintro ⟨⟩)) ?_
  rintro _ _ rfl
  refine .bind (acquires_createAll env g.nWorkers fun _ => rfl) ?_
  rintro _ _ rfl
  refine .bind (acquires_createContexts g env) ?_
  rintro _ _ rfl
  refine .bind (acquires_acquireAll env g.nWorkers fun _ => rfl) ?_
  rintro wakeup _ ⟨-, rfl⟩
  refine .bind (acquires_acquireAll env g.nWorkers fun _ => rfl) ?_
  rintro response _ ⟨length, rfl⟩
  refine .pure ⟨length, ?_⟩
  simp [coreResources, Function.comp_def]

/-- What a worker's thread holds and disposes of. -/
def Held.threadOwned : Held → Bool
  | .owned (.wakeupReceiver _) => true
  | .owned (.responseReceiver _) => true
  | .owned (.context _) => true
  | .owned (.socket _ _) => true
  | .owned (.http3Context _ _) => true
  | .owned _ => false
  | _ => true

/-- What the workers do not own is what `stop!` of the started generation releases. -/
def Handed (receivers : Receivers) (held : Held) : Prop :=
  held.threadOwned = true ∨ ∃ resource ∈ owned (startedState g receivers), held = .owned resource

theorem mem_places_iff {bs : List Bool} {idx : ℕ} : idx ∈ places bs ↔ bs[idx]? = some true := by
  rw [places, List.mem_filter, List.mem_range, decide_eq_true_iff]
  exact ⟨And.right, fun found => ⟨(List.getElem?_eq_some_iff.mp found).1, found⟩⟩

variable {g} in
theorem mem_places_map {listener : ListenerConfig} {idx : ℕ} (f : ListenerConfig → Bool)
    (at_ : (listener, idx) ∈ g.listeners.zipIdx) (holds : f listener = true) :
    idx ∈ places (g.listeners.map f) := by
  rw [mem_places_iff, List.getElem?_map, List.mem_zipIdx_iff_getElem?.mp at_, Option.map_some, holds]

variable {g} in
theorem handed_of_tearDown {receivers : Receivers} {resource : Resource}
    (member : resource ∈ tearDownResources (startedState g receivers)) :
    Handed g receivers (.owned resource) :=
  .inr ⟨resource, List.mem_append_left _ (List.mem_append_left _ (List.mem_append_right _ member)), rfl⟩

theorem handed_sslCtx (receivers : Receivers) {listener : ListenerConfig} {idx : ℕ}
    (at_ : (listener, idx) ∈ g.listeners.zipIdx) (tls : listener.tls = true) :
    Handed g receivers (.owned (.sslCtx idx)) := by
  apply handed_of_tearDown
  simp [tearDownResources, startedState, mem_places_map ListenerConfig.tls at_ tls]

theorem handed_http3 (receivers : Receivers) {listener : ListenerConfig} {idx : ℕ}
    (at_ : (listener, idx) ∈ g.listeners.zipIdx) (http3 : listener.http3Enabled = true) :
    Handed g receivers (.owned (.ptlsCtx idx)) ∧ Handed g receivers (.owned (.quiclyCtx idx)) ∧
      (g.issuesTickets = true → Handed g receivers (.owned (.encryptTicket idx))) := by
  have place := mem_places_map (fun l => l.http3Enabled) at_ http3
  refine ⟨handed_of_tearDown ?_, handed_of_tearDown ?_, fun tickets => ?_⟩
  · simp [tearDownResources, startedState, Function.comp_def, place]
  · simp [tearDownResources, startedState, Function.comp_def, place]
  · refine .inr ⟨_, List.mem_append_left _ (List.mem_append_right _ ?_), rfl⟩
    simp [encryptTickets, startedState, Function.comp_def, tickets, place]

theorem acquires_initListenerState (receivers : Receivers) :
    Acquires (initListenerState g env) fun _ new => ∀ held ∈ new, Handed g receivers held := by
  apply Acquires.forM_all
  rintro ⟨listener, idx⟩ at_
  have ssl : Acquires (createSslContext env idx listener) fun _ new =>
      ∀ held ∈ new, Handed g receivers held := by
    refine .when (fun tls => ?_) fun _ => List.forall_mem_nil _
    refine (acquires_acquireOr env rfl (plain_exInfo (by decide) (by decide))).weaken ?_
    rintro _ _ rfl held member
    rw [List.mem_singleton.mp member]
    exact handed_sslCtx g receivers at_ tls
  refine .bind ssl fun _ first handed => ?_
  have claimed : Acquires (when (listener.key ∉ claimKeys g.listeners)
      (throw (.exInfo "Missing TCP listener claim" none))) fun (_ : Unit) new => new = [] :=
    .when (fun _ => .throw (plain_exInfo (by decide) (by decide))) fun _ => rfl
  refine .bind claimed ?_
  rintro _ _ rfl
  refine .bind (acquires_createAll env g.nWorkers fun _ => rfl) ?_
  rintro _ _ rfl
  have thread (worker : ℕ) : Acquires (do
      call env (.createAcceptCtx idx worker)
      call env (.createAcceptCallback idx worker)
      create env (.owned (.socket idx worker))
      call env (.socketReadStart idx worker)) fun _ new => new = [.owned (.socket idx worker)] := by
    refine .bind (acquires_call env (by rintro ⟨⟩)) ?_
    rintro _ _ rfl
    refine .bind (acquires_call env (by rintro ⟨⟩)) ?_
    rintro _ _ rfl
    refine .bind (acquires_create env rfl) ?_
    rintro _ _ rfl
    refine .weaken (acquires_call env (by rintro ⟨⟩)) ?_
    rintro _ _ rfl
    rfl
  refine (Acquires.forM thread).weaken ?_
  rintro _ _ rfl held member
  simp only [List.nil_append, List.mem_append, List.mem_map, List.mem_flatMap, List.mem_singleton] at member
  rcases member with early | ⟨worker, -, rfl⟩ | ⟨worker, -, rfl⟩
  · exact handed held early
  · exact .inl rfl
  · exact .inl rfl

theorem handed_tickets (receivers : Receivers) (tickets : g.issuesTickets = true) :
    Handed g receivers (.owned .nativeTicketMgr) ∧ Handed g receivers (.owned .keyManager) := by
  refine ⟨handed_of_tearDown ?_, .inr ⟨_, List.mem_append_left _ (List.mem_append_left _
    (List.mem_append_left _ (List.mem_append_left _ (List.mem_append_left _ ?_)))), rfl⟩⟩
  · simp [tearDownResources, startedState, whenOwned, tickets]
  · simp [startedState, whenOwned, tickets]

theorem acquires_startKeyManager : Acquires (startKeyManager g env) fun _ new =>
    ∀ held ∈ new, held = .owned .keyManager := by
  refine .when (fun _ => ?_) fun _ => List.forall_mem_nil _
  refine .bind (acquires_call env (by rintro ⟨⟩)) ?_
  rintro _ _ rfl
  refine .bind (acquires_create env rfl) ?_
  rintro _ _ rfl
  refine .weaken (acquires_call env (by rintro ⟨⟩)) ?_
  rintro _ _ rfl
  simp

/-- The contexts of one HTTP/3 listener; if the second is null, the first is freed. -/
theorem traces_createHttp3Context (receivers : Receivers) {listener : ListenerConfig} {idx : ℕ}
    (at_ : (listener, idx) ∈ g.listeners.zipIdx) (http3 : listener.http3Enabled = true) :
    Acquires (createHttp3Context g env idx) fun _ new => ∀ held ∈ new, Handed g receivers held := by
  obtain ⟨ptls, quic, ticket⟩ := handed_http3 g receivers at_ http3
  refine .bind (acquires_acquireOr env rfl (plain_exInfo (by decide) (by decide))) ?_
  rintro _ _ rfl
  have tickets : Acquires (when g.issuesTickets (do
      create env (.owned (.encryptTicket idx))
      call env (.ptlsSetTickets idx))) fun _ new => ∀ held ∈ new, Handed g receivers held := by
    refine .when (fun issues => ?_) fun _ => List.forall_mem_nil _
    refine .bind (acquires_create env rfl) ?_
    rintro _ _ rfl
    refine .weaken (acquires_call env (by rintro ⟨⟩)) ?_
    rintro _ _ rfl held member
    rw [List.append_nil, List.mem_singleton] at member
    exact member ▸ ticket issues
  refine .bind tickets fun _ encrypt handed => ?_
  refine .bind (acquires_acquire env rfl) ?_
  rintro found _ rfl
  have undone : Acquires (when (¬found) (do
      release env (.owned (.ptlsCtx idx))
      throw (nullQuicly idx))) fun (_ : Unit) new => new = [] ∧ found = true := by
    refine .when (fun _ => ?_) fun found => ⟨rfl, by simpa using found⟩
    unfold release
    split
    · exact .bind (.throw (R := fun _ _ => False) (plain_byCall (by rintro ⟨⟩))) fun _ _ => False.elim
    · exact Traces.bind noting (.add (Q := fun _ m => m = [.released (.owned (.ptlsCtx idx))]) rfl)
        fun _ m same =>
        .throw noting ⟨by simp [same], .inr ⟨idx, [], rfl, by simp [same], fun _ => List.not_mem_nil⟩⟩
  refine .bind undone ?_
  rintro _ _ ⟨rfl, rfl⟩
  have tag : Acquires (when g.issuesTickets (call env (.setQuicTag idx))) fun _ new => new = [] :=
    .when (fun _ => acquires_call env (by rintro ⟨⟩)) fun _ => rfl
  refine .weaken tag ?_
  rintro _ _ rfl held member
  simp only [List.mem_append, List.mem_singleton, List.not_mem_nil, or_false, if_true] at member
  rcases member with rfl | encrypt | rfl
  · exact ptls
  · exact handed held encrypt
  · exact quic

theorem acquires_createHttp3WorkerContexts : Acquires (createHttp3WorkerContexts g env) fun _ new =>
    ∀ held ∈ new, held.threadOwned = true := by
  refine .bind (acquires_call env (by rintro ⟨⟩)) ?_
  rintro _ _ rfl
  refine .forM_all fun worker _ => .forM_all ?_
  rintro ⟨listener, idx⟩ -
  refine .when (fun _ => ?_) fun _ => List.forall_mem_nil _
  have claimed : Acquires (when (listener.udpKey ∉ claimKeys g.listeners)
      (throw (.exInfo "Missing UDP listener claim" none))) fun (_ : Unit) new => new = [] :=
    .when (fun _ => .throw (plain_exInfo (by decide) (by decide))) fun _ => rfl
  refine .bind claimed ?_
  rintro _ _ rfl
  refine .weaken (acquires_acquireOr env rfl (plain_exInfo (by decide) (by decide))) ?_
  rintro _ _ rfl held member
  rw [List.nil_append, List.mem_singleton] at member
  exact member ▸ rfl

theorem acquires_initTlsHttp3State (receivers : Receivers) :
    Acquires (initTlsHttp3State g env) fun _ new => ∀ held ∈ new, Handed g receivers held := by
  have tickets : Acquires (when g.issuesTickets (do
      when g.sessionTickets.storage (call env .storageTicketStore)
      create env (.owned .nativeTicketMgr)
      startKeyManager g env
      g.listeners.zipIdx.forM fun x => when x.1.tls (call env (.setTickets x.2))))
      fun _ new => ∀ held ∈ new, Handed g receivers held := by
    refine .when (fun issues => ?_) fun _ => List.forall_mem_nil _
    obtain ⟨manager, keys⟩ := handed_tickets g receivers issues
    have store : Acquires (when g.sessionTickets.storage (call env .storageTicketStore))
        fun _ new => new = [] :=
      .when (fun _ => acquires_call env (by rintro ⟨⟩)) fun _ => rfl
    refine .bind store ?_
    rintro _ _ rfl
    refine .bind (acquires_create env rfl) ?_
    rintro _ _ rfl
    refine .bind (acquires_startKeyManager g env) fun _ started key => ?_
    have set : Acquires (g.listeners.zipIdx.forM fun x => when x.1.tls (call env (.setTickets x.2)))
        fun _ new => ∀ held ∈ new, False := by
      refine .forM_all fun x _ => .when (fun _ => ?_) fun _ => List.forall_mem_nil _
      refine .weaken (acquires_call env (by rintro ⟨⟩)) ?_
      rintro _ _ rfl
      exact List.forall_mem_nil _
    refine .weaken set fun _ nothing none held member => ?_
    simp only [List.mem_append, List.mem_singleton, List.nil_append] at member
    rcases member with rfl | rotation | absent
    · exact manager
    · exact key held rotation ▸ keys
    · exact (none held absent).elim
  refine .bind tickets fun _ first handed => ?_
  have http3 : Acquires (createHttp3Contexts g env) fun _ new => ∀ held ∈ new, Handed g receivers held := by
    refine .forM_all ?_
    rintro ⟨listener, idx⟩ at_
    exact .when (traces_createHttp3Context g env receivers at_) fun _ => List.forall_mem_nil _
  refine .bind http3 fun _ second others => ?_
  refine .weaken (acquires_createHttp3WorkerContexts g env) fun _ third threads held member => ?_
  rcases List.mem_append.mp member with early | later
  · exact handed held early
  · rcases List.mem_append.mp later with contexts | attached
    · exact others held contexts
    · exact .inl (threads held attached)

theorem acquires_initWorkerState (receivers : Receivers) :
    Acquires (initWorkerState g env) fun _ new => ∀ held ∈ new, Handed g receivers held := by
  refine .forM_all fun worker inside => ?_
  have dispatch : Handed g receivers (.owned (.callbackDispatch worker)) := by
    apply handed_of_tearDown
    simp [tearDownResources, startedState, List.mem_range.mp inside]
  refine .bind (acquires_create env rfl) ?_
  rintro _ _ rfl
  refine .weaken (acquires_create env rfl) ?_
  rintro _ _ rfl held member
  simp only [List.mem_append, List.mem_singleton] at member
  rcases member with rfl | rfl
  · exact dispatch
  · exact .inl rfl

theorem acquires_activateHttp3Transports : Acquires (activateHttp3Transports g env) fun _ new =>
    ∀ held ∈ new, False := by
  refine .forM_all fun x _ => .when (fun _ => ?_) fun _ => List.forall_mem_nil _
  refine .weaken (acquires_call env (by rintro ⟨⟩)) ?_
  rintro _ _ rfl
  exact List.forall_mem_nil _

theorem core_late (receivers : Receivers) : ∀ held ∈ coreResources g receivers, held.late = true := by
  intro held member
  simp only [coreResources, List.mem_append, List.mem_map, List.mem_cons, List.not_mem_nil, or_false,
    Function.comp_apply] at member
  rcases member with ((((rfl | rfl) | ⟨_, _, rfl⟩) | ⟨_, _, rfl⟩) | ⟨_, _, rfl⟩) | ⟨_, _, rfl⟩ <;> rfl

theorem handed_core (receivers : Receivers) : ∀ held ∈ coreResources g receivers,
    Handed g receivers held := by
  have released {resource : Resource} (member : resource ∈ tearDownResources (startedState g receivers)) :
      Handed g receivers (.owned resource) := handed_of_tearDown member
  intro held member
  simp only [coreResources, List.mem_append, List.mem_map, List.mem_cons, List.not_mem_nil, or_false,
    Function.comp_apply] at member
  rcases member with ((((rfl | rfl) | ⟨idx, inside, rfl⟩) | ⟨idx, -, rfl⟩) | ⟨idx, -, rfl⟩) | ⟨idx, -, rfl⟩
  · exact released (by simp [tearDownResources, startedState, whenOwned])
  · exact released (by simp [tearDownResources, startedState, whenOwned])
  · exact released (by simp [tearDownResources, startedState, List.mem_range.mp inside])
  · exact .inl rfl
  · exact .inl rfl
  · exact .inl rfl

/-- What `unwind-core-state!` has released. -/
def unwound (resources : List Held) : List Event :=
  (resources.filter fun held => env (.release held) ≠ .threw).map .released

/-- The program releases the resources, except for those whose release throws. -/
def Unwinds (p : Start Unit) (resources : List Held) : Prop :=
  Traces StartState.note p (fun _ m => m = unwound env resources) fun _ _ => False

theorem Unwinds.andThen {p q : Start Unit} {first second : List Held} (left : Unwinds env p first)
    (right : Unwinds env q second) : Unwinds env (p >>= fun _ => q) (first ++ second) := by
  refine Traces.bind noting left ?_
  rintro _ _ rfl
  refine Traces.weaken right ?_ fun _ _ => False.elim
  rintro _ _ rfl
  simp [unwound]

theorem unwinds_attempt (held : Held) : Unwinds env (attemptCoreUnwind env held) [held] := by
  intro s
  refine .tryCatch (F := fun _ t => t = s ∧ env (.release held) = .threw) ?_ ?_
  · unfold release
    split
    · exact .throw ⟨rfl, ‹_›⟩
    · exact .modify ⟨_, rfl, by simp [unwound, ‹_›]⟩
  · rintro e _ ⟨rfl, threw⟩
    exact .pure ⟨[], (noting.nil _).symm, by simp [unwound, threw]⟩

theorem unwinds_forM (xs : List ℕ) (f : ℕ → Held) :
    Unwinds env (xs.forM fun idx => attemptCoreUnwind env (f idx)) (xs.map f) := by
  induction xs with
  | nil => exact Traces.pure noting rfl
  | cons x rest ih => exact (unwinds_attempt env (f x)).andThen env ih

/-- The resources are released in the reverse of the order they were acquired in. -/
theorem unwinds_core (receivers : Receivers) :
    Unwinds env (unwindCoreState g env receivers) (coreResources g receivers).reverse := by
  have unwinds := (unwinds_forM env (places receivers.response).reverse fun idx =>
      .owned (.responseReceiver idx)).andThen env <|
    (unwinds_forM env (places receivers.wakeup).reverse fun idx =>
      .owned (.wakeupReceiver idx)).andThen env <|
    (unwinds_forM env (List.range g.nWorkers).reverse fun idx => .owned (.context idx)).andThen env <|
    (unwinds_forM env (List.range g.nWorkers).reverse fun idx => .owned (.loop idx)).andThen env <|
    (unwinds_attempt env (.owned .configPtr)).andThen env <| unwinds_attempt env (.owned .arena)
  have order : (coreResources g receivers).reverse =
      (places receivers.response).reverse.map (fun idx => .owned (.responseReceiver idx)) ++
      ((places receivers.wakeup).reverse.map (fun idx => .owned (.wakeupReceiver idx)) ++
      ((List.range g.nWorkers).reverse.map (fun idx => .owned (.context idx)) ++
      ((List.range g.nWorkers).reverse.map (fun idx => .owned (.loop idx)) ++
      ([.owned .configPtr] ++ [.owned .arena])))) := by
    simp [coreResources, Function.comp_def]
  rw [order]
  exact unwinds

/-- `init-core-state` found a null response receiver and undid what it had done. -/
def CoreUnwound (e : Failure) (m : List Event) : Prop :=
  e = nullReceiver ∧ ∃ receivers, m = (coreResources g receivers).map .acquired ++
    unwound env (coreResources g receivers).reverse

/-- What the stages leave that throw. -/
def StageFailed (e : Failure) (m : List Event) : Prop := Later e m ∨ CoreUnwound g env e m

theorem traces_initCoreState : Traces StartState.note (initCoreState g env)
    (fun receivers m => m = (coreResources g receivers).map .acquired) (StageFailed g env) := by
  refine Traces.bind noting (Traces.weaken (acquires_createCore g env) (fun _ _ => id) fun _ _ => .inl) ?_
  rintro receivers _ ⟨_, rfl, -, -, rfl⟩
  have null : Traces StartState.note (when (false ∈ receivers.response) (do
      unwindCoreState g env receivers
      throw nullReceiver)) (fun _ m => m = []) fun e m =>
        StageFailed g env e ((coreResources g receivers).map .acquired ++ m) := by
    refine .when noting (fun _ => ?_) fun _ => rfl
    refine .bind noting (Traces.weaken (unwinds_core g env receivers) (fun _ _ => id) fun _ _ =>
      False.elim) ?_
    rintro _ _ rfl
    exact .throw noting (.inr ⟨rfl, receivers, by rw [List.append_nil]⟩)
  refine .bind noting null ?_
  rintro _ _ rfl
  have rest : Acquires (do
      call env .responseSlots
      call env .createCloseCallback
      pure receivers) fun a new => a = receivers ∧ new = [] := by
    refine .bind (acquires_call env (by rintro ⟨⟩)) ?_
    rintro _ _ rfl
    refine .bind (acquires_call env (by rintro ⟨⟩)) ?_
    rintro _ _ rfl
    exact .pure ⟨rfl, rfl⟩
  refine Traces.weaken rest ?_ fun e m thrown => .inl (thrown.after (core_late g receivers))
  rintro _ _ ⟨_, rfl, -, rfl, rfl⟩
  rw [List.map_nil, List.append_nil, List.append_nil]

/-- The stages after `init-core-state`. -/
theorem acquires_rest (receivers : Receivers) : Acquires (do
    initListenerState g env
    initTlsHttp3State g env
    initWorkerState g env
    when g.activateHttp3Transports (activateHttp3Transports g env)
    pure (startedState g receivers)) fun state new =>
      state = startedState g receivers ∧ ∀ held ∈ new, Handed g receivers held := by
  refine .bind (acquires_initListenerState g env receivers) fun _ listeners handed => ?_
  refine .bind (acquires_initTlsHttp3State g env receivers) fun _ tls secured => ?_
  refine .bind (acquires_initWorkerState g env receivers) fun _ workers working => ?_
  have activated : Acquires (when g.activateHttp3Transports (activateHttp3Transports g env))
      fun _ new => ∀ held ∈ new, False :=
    .when (fun _ => acquires_activateHttp3Transports g env) fun _ => List.forall_mem_nil _
  refine .bind activated fun _ nothing none => .pure ⟨rfl, fun held member => ?_⟩
  simp only [List.mem_append, List.not_mem_nil, or_false] at member
  rcases member with socket | context | worker | absent
  · exact handed held socket
  · exact secured held context
  · exact working held worker
  · exact (none held absent).elim

/-- What the stages hand to the started generation. -/
theorem traces_stages : Traces StartState.note (stages g env)
    (fun state m => ∃ (receivers : Receivers) (new : List Held), state = startedState g receivers ∧
      m = new.map .acquired ∧ ∀ held ∈ new, Handed g receivers held) (StageFailed g env) := by
  have lookup : Acquires (initTlsLookupState g env) fun _ new => new = [] :=
    .when (fun _ => acquires_call env (by rintro ⟨⟩)) fun _ => rfl
  refine .bind noting (Traces.weaken lookup (fun _ _ => id) fun _ _ => .inl) ?_
  rintro _ _ ⟨_, rfl, -, rfl⟩
  refine .bind noting (traces_initCoreState g env) ?_
  rintro receivers _ rfl
  refine Traces.weaken (acquires_rest g env receivers) ?_ fun e m thrown =>
    .inl (thrown.after (core_late g receivers))
  rintro state _ ⟨new, rfl, -, rfl, handed⟩
  refine ⟨receivers, coreResources g receivers ++ new, rfl, by simp, fun held member => ?_⟩
  exact (List.mem_append.mp member).elim (handed_core g receivers held) (handed held)

end stages

end Busker.Generation
