import Busker.CallbackDispatch.Effects
import Busker.Interleaving.Order

/-! Callbacks reach only the request they carry the identity of. The law is about the
record of a table, and holds after every sequence of calls, by whatever threads. -/

namespace Busker.CallbackDispatch

open Interleaving

variable {τ ρ η : Type*} [DecidableEq τ]

/-- The entry was registered under this identity and has not been closed since. -/
def Live (history : List (Event τ ρ η)) (moduleId requestSeq : ℤ) (entry : Entry ρ η) : Prop :=
  ∃ before after, history = before ++ .registered moduleId requestSeq entry :: after ∧
    ∀ e calls, .closed requestSeq e calls ∉ after

def allocations : List (Event τ ρ η) → List (ℤ × ℤ) :=
  List.filterMap fun
    | .allocated moduleId requestSeq => some (moduleId, requestSeq)
    | _ => none

def registrations : List (Event τ ρ η) → List (ℤ × Entry ρ η) :=
  List.filterMap fun
    | .registered _ requestSeq entry => some (requestSeq, entry)
    | _ => none

def closings : List (Event τ ρ η) → List (ℤ × Entry ρ η) :=
  List.filterMap fun
    | .closed requestSeq entry _ => some (requestSeq, entry)
    | _ => none

section lawful

/-- A callback reaches an entry that is live then, on the worker thread. -/
def ReachesLive (thread : Option τ) (moduleId : ℤ) (front : List (Event τ ρ η)) : Event τ ρ η → Prop
  | .reached current moduleId' requestSeq entry _ =>
    thread = some current ∧ moduleId' = moduleId ∧ Live front moduleId requestSeq entry
  | _ => True

def inTable (entries : AList fun _ : ℤ => Entry ρ η) : List (ℤ × Entry ρ η) :=
  entries.entries.map fun e => (e.1, e.2)

structure Lawful (m : Module τ ρ η) : Prop where
  unbound : m.dispatch.phase = .initializing → m.dispatch.thread = none
  live : ∀ requestSeq entry, m.dispatch.entries.lookup requestSeq = some entry →
    Live m.history m.dispatch.moduleId requestSeq entry
  reached : EachAfter (ReachesLive m.dispatch.thread m.dispatch.moduleId) m.history
  allocated : ∀ id ∈ allocations m.history,
    id.1 = m.dispatch.moduleId ∧ id.2 ≤ m.dispatch.nextRequestSeq
  identities : (allocations m.history).Nodup
  closed : (registrations m.history).Perm (closings m.history ++ inTable m.dispatch.entries)
  finished : m.dispatch.phase = .closed → m.dispatch.entries = ∅

omit [DecidableEq τ] in
theorem Live.append {l r : List (Event τ ρ η)} {moduleId requestSeq : ℤ} {entry : Entry ρ η}
    (h : Live l moduleId requestSeq entry) (others : ∀ e calls, .closed requestSeq e calls ∉ r) :
    Live (l ++ r) moduleId requestSeq entry := by
  obtain ⟨before, after, rfl, still⟩ := h
  refine ⟨before, after ++ r, by simp, fun e calls => ?_⟩
  rw [List.mem_append, not_or]
  exact ⟨still e calls, others e calls⟩

theorem inTable_insert {entries : AList fun _ : ℤ => Entry ρ η} {requestSeq : ℤ} {entry : Entry ρ η}
    (fresh : entries.lookup requestSeq = none) :
    inTable (entries.insert requestSeq entry) = (requestSeq, entry) :: inTable entries := by
  rw [inTable, AList.entries_insert_of_notMem (AList.lookup_eq_none.mp fresh), List.map_cons, inTable]

theorem inTable_erase {entries : AList fun _ : ℤ => Entry ρ η} {requestSeq : ℤ} {entry : Entry ρ η}
    (held : entries.lookup requestSeq = some entry) :
    (inTable entries).Perm ((requestSeq, entry) :: inTable (entries.erase requestSeq)) := by
  have present : requestSeq ∈ entries.entries.keys :=
    AList.mem_keys.mp (AList.lookup_isSome.mp (by rw [held]; rfl))
  obtain ⟨e, left, right, absent, whole, rest⟩ := List.exists_of_kerase present
  have same : e = entry := by
    have := AList.mem_lookup_iff.mpr (show ⟨requestSeq, e⟩ ∈ entries.entries by simp [whole])
    rw [held] at this
    exact (Option.some.inj this).symm
  subst same
  have erased : (entries.erase requestSeq).entries = left ++ right := rest
  rw [inTable, inTable, erased, whole, List.map_append, List.map_append, List.map_cons]
  exact List.perm_middle

/-- Putting an entry back leaves the table as it was. -/
theorem inTable_putBack {entries : AList fun _ : ℤ => Entry ρ η} {requestSeq : ℤ} {entry : Entry ρ η}
    (held : entries.lookup requestSeq = some entry) :
    (inTable (entries.insert requestSeq entry)).Perm (inTable entries) := by
  refine List.Perm.trans ?_ (inTable_erase held).symm
  rw [inTable, AList.entries_insert, List.map_cons]
  exact List.Perm.refl _

theorem lookup_putBack {entries : AList fun _ : ℤ => Entry ρ η} {requestSeq : ℤ} {entry : Entry ρ η}
    (held : entries.lookup requestSeq = some entry) (other : ℤ) :
    (entries.insert requestSeq entry).lookup other = entries.lookup other := by
  by_cases same : other = requestSeq
  · rw [same, AList.lookup_insert, held]
  · exact AList.lookup_insert_ne same

variable {d d' : Dispatch τ ρ η} {current : τ} {history events : List (Event τ ρ η)}

omit [DecidableEq τ] in
/-- A table binds its thread once, so callbacks that ran on it still did. -/
theorem ReachesLive.mono {thread : Option τ} {moduleId : ℤ} (bound : d.thread = none ∨ d.thread = thread)
    (h : EachAfter (ReachesLive d.thread moduleId) history) :
    EachAfter (ReachesLive thread moduleId) history := by
  refine h.mono fun front event => ?_
  cases event <;> simp only [ReachesLive, imp_self]
  rintro ⟨worker, rest⟩
  rcases bound with unbound | same
  · simp [unbound] at worker
  · exact ⟨same ▸ worker, rest⟩

omit [DecidableEq τ] in
theorem lawful_quiet (h : Lawful ⟨d, history⟩) (moduleId : d'.moduleId = d.moduleId)
    (nextRequestSeq : d'.nextRequestSeq = d.nextRequestSeq)
    (bound : d.thread = none ∨ d.thread = d'.thread)
    (unbound : d'.phase = .initializing → d.phase = .initializing ∧ d'.thread = d.thread)
    (finished : d'.phase = .closed → d.phase = .closed)
    (lookup : ∀ q, d'.entries.lookup q = d.entries.lookup q)
    (perm : (inTable d'.entries).Perm (inTable d.entries)) (quiet : events = [] ∨ events = [.threw]) :
    Lawful ⟨d', history ++ events⟩ := by
  have kept : allocations (history ++ events) = allocations history ∧
      registrations (history ++ events) = registrations history ∧
      closings (history ++ events) = closings history := by
    rcases quiet with rfl | rfl <;> simp [allocations, registrations, closings]
  refine ⟨fun starting => ?_, fun q entry held => ?_, ?_, ?_, ?_, ?_, fun closed => ?_⟩
  · obtain ⟨before, same⟩ := unbound starting
    exact same.trans (h.unbound before)
  · have before := h.live q entry ((lookup q).symm.trans held)
    rw [moduleId]
    exact before.append fun e calls => by rcases quiet with rfl | rfl <;> simp
  · rw [moduleId]
    refine (ReachesLive.mono bound h.reached).append ?_
    rcases quiet with rfl | rfl
    · exact eachAfter_nil
    · exact eachAfter_singleton trivial
  · rw [kept.1, moduleId, nextRequestSeq]
    exact h.allocated
  · rw [kept.1]
    exact h.identities
  · rw [kept.2.1, kept.2.2]
    exact h.closed.trans (perm.symm.append_left _)
  · refine AList.ext (List.map_eq_nil_iff.mp (List.Perm.eq_nil (l := inTable d'.entries) ?_))
    have empty := h.finished (finished closed)
    rw [empty] at perm
    exact perm

omit [DecidableEq τ] in
theorem lawful_of_effect (h : Lawful ⟨d, history⟩) (effect : Effect current d d' events) :
    Lawful ⟨d', history ++ events⟩ := by
  cases effect with
  | count counters =>
    exact lawful_quiet h rfl rfl (.inr rfl) (fun p => ⟨p, rfl⟩) id (fun _ => rfl) (.refl _) (.inl rfl)
  | refuse counters =>
    exact lawful_quiet h rfl rfl (.inr rfl) (fun p => ⟨p, rfl⟩) id (fun _ => rfl) (.refl _) (.inr rfl)
  | bind thread unbound =>
    exact lawful_quiet h rfl rfl (.inl (h.unbound unbound)) (fun p => by simp at p) (fun p => by simp at p)
      (fun _ => rfl) (.refl _) (.inl rfl)
  | drain accepting =>
    exact lawful_quiet h rfl rfl (.inr rfl) (fun p => by simp at p) (fun p => by simp at p)
      (fun _ => rfl) (.refl _) (.inl rfl)
  | collide requestSeq previous held =>
    exact lawful_quiet h rfl rfl (.inr rfl) (fun p => ⟨p, rfl⟩) id (lookup_putBack held)
      (inTable_putBack held) (.inr rfl)
  | allocate accepting room =>
    have kept : registrations (history ++ [.allocated d.moduleId (d.nextRequestSeq + 1)]) =
        registrations history ∧
        closings (history ++ [.allocated d.moduleId (d.nextRequestSeq + 1)]) = closings history := by
      simp [registrations, closings]
    have grown : allocations (history ++ [.allocated d.moduleId (d.nextRequestSeq + 1)]) =
        allocations history ++ [(d.moduleId, d.nextRequestSeq + 1)] := by simp [allocations]
    refine ⟨fun p => by simp_all, fun q entry held => (h.live q entry held).append (by simp),
      h.reached.append (eachAfter_singleton trivial), fun id known => ?_, ?_, ?_, h.finished⟩
    · rw [grown, List.mem_append, List.mem_singleton] at known
      rcases known with before | rfl
      · obtain ⟨same, bound⟩ := h.allocated id before
        exact ⟨same, Int.le_trans bound (Int.le_add_one (Int.le_refl _))⟩
      · exact ⟨rfl, Int.le_refl _⟩
    · rw [grown]
      refine List.nodup_append.mpr ⟨h.identities, List.nodup_singleton _, fun id known id' new => ?_⟩
      rw [List.mem_singleton.mp new]
      rintro rfl
      have bound := (h.allocated _ known).2
      dsimp only at bound
      omega
    · rw [kept.1, kept.2]
      exact h.closed
  | register requestSeq entry accepting fresh =>
    have kept : allocations (history ++ [.registered d.moduleId requestSeq entry]) = allocations history ∧
        closings (history ++ [.registered d.moduleId requestSeq entry]) = closings history := by
      simp [allocations, closings]
    have grown : registrations (history ++ [.registered d.moduleId requestSeq entry]) =
        registrations history ++ [(requestSeq, entry)] := by simp [registrations]
    refine ⟨fun p => by simp_all, fun q e held => ?_, h.reached.append (eachAfter_singleton trivial),
      kept.1 ▸ h.allocated, kept.1 ▸ h.identities, ?_, fun p => by simp_all⟩
    · by_cases same : q = requestSeq
      · subst same
        rw [AList.lookup_insert, Option.some.injEq] at held
        subst held
        exact ⟨history, [], rfl, by simp⟩
      · rw [AList.lookup_insert_ne same] at held
        exact (h.live q e held).append (by simp)
    · rw [grown, kept.2, inTable_insert fresh]
      exact (List.perm_append_singleton _ _).trans ((h.closed.cons _).trans List.perm_middle.symm)
  | reach requestSeq entry call counters live worker held =>
    have kept : allocations (history ++ [.reached current d.moduleId requestSeq entry call]) =
          allocations history ∧
        registrations (history ++ [.reached current d.moduleId requestSeq entry call]) =
          registrations history ∧
        closings (history ++ [.reached current d.moduleId requestSeq entry call]) = closings history := by
      simp [allocations, registrations, closings]
    refine ⟨h.unbound, fun q e found => (h.live q e found).append (by simp),
      h.reached.append (eachAfter_singleton ⟨worker, rfl, ?_⟩), kept.1 ▸ h.allocated,
      kept.1 ▸ h.identities, ?_, h.finished⟩
    · rw [List.append_nil]
      exact h.live requestSeq entry held
    · rw [kept.2.1, kept.2.2]
      exact h.closed
  | retire requestSeq entry counters held =>
    have kept : allocations (history ++ [.closed requestSeq entry (closeEntry entry)]) =
          allocations history ∧
        registrations (history ++ [.closed requestSeq entry (closeEntry entry)]) =
          registrations history := by
      simp [allocations, registrations]
    have grown : closings (history ++ [.closed requestSeq entry (closeEntry entry)]) =
        closings history ++ [(requestSeq, entry)] := by simp [closings]
    refine ⟨h.unbound, fun q e found => ?_, h.reached.append (eachAfter_singleton trivial),
      kept.1 ▸ h.allocated, kept.1 ▸ h.identities, ?_, fun p => ?_⟩
    · by_cases same : q = requestSeq
      · subst same
        rw [AList.lookup_erase] at found
        contradiction
      · rw [AList.lookup_erase_ne same] at found
        exact (h.live q e found).append (by simp [same])
    · rw [kept.2, grown, List.append_assoc]
      exact h.closed.trans ((inTable_erase held).append_left _)
    · have empty := h.finished p
      dsimp only at empty
      rw [empty, AList.lookup_empty] at held
      contradiction
  | finish counters =>
    have kept : allocations (history ++ d.entries.entries.map fun e => .closed e.1 e.2 (closeEntry e.2)) =
          allocations history ∧
        registrations (history ++ d.entries.entries.map fun e => .closed e.1 e.2 (closeEntry e.2)) =
          registrations history := by
      simp [allocations, registrations, List.filterMap_map]
    have grown : closings (history ++ d.entries.entries.map fun e => .closed e.1 e.2 (closeEntry e.2)) =
        closings history ++ inTable d.entries := by
      simp [closings, inTable, List.filterMap_map]
    refine ⟨fun p => by simp at p, fun q e found => by simp at found,
      h.reached.append (eachAfter_of_forall fun front event made => ?_), kept.1 ▸ h.allocated,
      kept.1 ▸ h.identities, ?_, fun _ => rfl⟩
    · obtain ⟨e, -, rfl⟩ := List.mem_map.mp made
      exact trivial
    · rw [kept.2, grown]
      exact h.closed.trans (by simp [inTable])

theorem lawful_call {m : Module τ ρ η} (h : Lawful m) (current : τ) (op : Op τ ρ η) :
    Lawful (m.call current op) :=
  lawful_of_effect h (effect_of_apply op)

omit [DecidableEq τ] in
theorem lawful_create (moduleId : ℤ) : Lawful (create moduleId : Module τ ρ η) where
  unbound _ := rfl
  live _ _ held := by simp [create] at held
  reached := eachAfter_nil
  allocated _ known := by simp [create, allocations] at known
  identities := List.nodup_nil
  closed := .refl _
  finished closed := by simp [create] at closed

end lawful

/-- What the record of a table says of the requests registered in it. -/
structure Isolated (m : Module τ ρ η) : Prop where
  reached : EachAfter (ReachesLive m.dispatch.thread m.dispatch.moduleId) m.history
  identities : (allocations m.history).Nodup
  closedOnce : (closings m.history).Subperm (registrations m.history)
  finished : m.dispatch.phase = .closed → (registrations m.history).Perm (closings m.history)

omit [DecidableEq τ] in
theorem Lawful.isolated {m : Module τ ρ η} (h : Lawful m) : Isolated m where
  reached := h.reached
  identities := h.identities
  closedOnce := (List.sublist_append_left _ _).subperm.trans h.closed.symm.subperm
  finished phase := by simpa [h.finished phase, inTable] using h.closed

section program

variable {a : Label τ ρ η} {p q : Program τ ρ η}

structure Separate (p : Program τ ρ η) : Prop where
  lawful : ∀ m ∈ p.modules, Lawful m
  distinct : (p.modules.map fun m => m.dispatch.moduleId).Nodup
  bound : ∀ m ∈ p.modules, m.dispatch.moduleId ≤ p.nextModuleId

theorem separate_step (h : Separate p) (moves : stepFn a p = some q) : Separate q := by
  cases a with
  | create =>
    unfold stepFn at moves
    dsimp only at moves
    split at moves
    · rename_i moduleId next
      obtain rfl := nextPositive_eq_some next
      obtain rfl := Option.some.inj moves
      refine ⟨fun m known => ?_, ?_, fun m known => ?_⟩
      · rcases List.mem_append.mp known with before | new
        · exact h.lawful m before
        · rw [List.mem_singleton.mp new]
          exact lawful_create _
      · rw [List.map_append]
        refine List.nodup_append.mpr ⟨h.distinct, List.nodup_singleton _, fun id known id' new => ?_⟩
        obtain ⟨m, old, rfl⟩ := List.mem_map.mp known
        obtain rfl := List.mem_singleton.mp new
        have bound := h.bound m old
        dsimp only [create]
        omega
      · rcases List.mem_append.mp known with before | new
        · have bound := h.bound m before
          dsimp only
          omega
        · rw [List.mem_singleton.mp new]
          exact Int.le_refl _
    · obtain rfl := Option.some.inj moves
      exact h
  | call index current op =>
    obtain ⟨m, here, rfl⟩ := Option.map_eq_some_iff.mp moves
    have member : m ∈ p.modules := List.mem_of_getElem? here
    have changed : ∀ n ∈ p.modules.set index (m.call current op), n ∈ p.modules ∨ n = m.call current op :=
      fun n known => List.mem_or_eq_of_mem_set known
    have same : (p.modules.set index (m.call current op)).map (fun m => m.dispatch.moduleId) =
        p.modules.map fun m => m.dispatch.moduleId := by
      apply List.ext_getElem?
      intro i
      by_cases hi : index = i
      · subst hi
        obtain ⟨inside, rfl⟩ := List.getElem?_eq_some_iff.mp here
        simp [inside, call_moduleId]
      · simp [hi]
    refine ⟨fun n known => ?_, same ▸ h.distinct, fun n known => ?_⟩
    · rcases changed n known with before | rfl
      · exact h.lawful n before
      · exact lawful_call (h.lawful m member) current op
    · rcases changed n known with before | rfl
      · exact h.bound n before
      · rw [call_moduleId]
        exact h.bound m member

theorem separate_of_reachable (h : (machine (τ := τ) (ρ := ρ) (η := η)).Reachable p) : Separate p := by
  apply h.invariant
  · rintro _ rfl
    exact ⟨by simp [start], by simp [start], by simp [start]⟩
  · exact fun a p q hp moves => separate_step hp moves

end program

/-- A registration that finds its identity taken throws and changes no entry. -/
theorem collision_keeps (d : Dispatch τ ρ η) (current : τ) (moduleId requestSeq : ℤ)
    (entry previous : Entry ρ η) (held : d.entries.lookup requestSeq = some previous) :
    (d.register current moduleId requestSeq entry).2 = [.threw] ∧
      ∀ q, (d.register current moduleId requestSeq entry).1.entries.lookup q = d.entries.lookup q := by
  unfold Dispatch.register
  split
  · simp only [held, AList.insert_insert]
    exact ⟨trivial, lookup_putBack held⟩
  · exact ⟨rfl, fun _ => rfl⟩

/-- One request of two is retired, the other is left to `finish!`. -/
def forcedSchedule : List (Label Bool ℕ Unit) :=
  let entry (request : ℕ) : Entry ℕ Unit := ⟨request, true, some ()⟩
  [.create, .call 0 false (.bindThread true), .call 0 true .allocateIdentity,
    .call 0 true (.register 1 1 (entry 10)), .call 0 true (.body 1 1 (some [7]) 0 false),
    .call 0 true (.register 1 2 (entry 20)), .call 0 true (.register 1 2 (entry 30)),
    .call 0 false (.proceed 1 2 true false), .call 0 true (.retire 1 1),
    .call 0 true (.stop 1 1 0 true false), .call 0 false .beginDrain, .call 0 false .finish]

def forced : Program Bool ℕ Unit := machine.runFrom forcedSchedule start

end Busker.CallbackDispatch
