import Busker.Admission.Agreement

/-! Every step of a worker keeps the agreement of the two tables. -/

namespace Busker.Admission

open Interleaving RequestTable CallbackDispatch

variable {τ κ : Type} {s s' : State τ κ} {worker : τ} {request : Request κ}
  {moduleId requestSeq : ℤ}

theorem Moves.fresh (moves : Moves s s') (tasks : s'.tasks = s.tasks)
    (answer : s'.answer request.ctx = s.answer request.ctx) (fresh : s.Fresh request) :
    s'.Fresh request where
  current := moves.current.mpr fresh.current
  unanswered := answer.trans fresh.unanswered
  earlier := moves.count ▸ fresh.earlier
  new := tasks ▸ fresh.new

theorem Moves.allocated (moves : Moves s s') (tasks : s'.tasks = s.tasks)
    (allocated : s.Allocated moduleId requestSeq) : s'.Allocated moduleId requestSeq where
  module := allocated.module.trans moves.module.symm
  positive := allocated.positive
  known := allocated.known.trans moves.next.1
  new := tasks ▸ allocated.new

theorem Moves.bare (moves : Moves s s') (bare : s.Bare request) : s'.Bare request := by
  unfold State.Bare
  rw [moves.receiver]
  exact bare

/-- What `on-request` has done stays done. -/
theorem Moves.place (moves : Moves s s') (tasks : s'.tasks = s.tasks)
    (answer : s'.answer = s.answer) (entered : ∀ r q, s.Entered r q → s'.Entered r q)
    (place : Place κ) (done : s.At place) :
    s'.At place := by
  have fresh {r : Request κ} (fresh : s.Fresh r) : s'.Fresh r :=
    moves.fresh tasks (congrFun answer r.ctx) fresh
  cases place with
  | idle => trivial
  | allocating r =>
    obtain ⟨new, bare⟩ := done
    exact ⟨fresh new, moves.bare bare⟩
  | creating r m q =>
    obtain ⟨new, bare, allocated⟩ := done
    exact ⟨fresh new, moves.bare bare, moves.allocated tasks allocated⟩
  | registering r m q =>
    obtain ⟨new, bare, allocated⟩ := done
    exact ⟨fresh new, moves.bare bare, moves.allocated tasks allocated⟩
  | installing r m q =>
    obtain ⟨new, bare, allocated, known⟩ := done
    exact ⟨fresh new, moves.bare bare, moves.allocated tasks allocated, entered r q known⟩
  | executing r m q =>
    obtain ⟨new, serves, allocated, known⟩ := done
    exact ⟨fresh new, moves.serves.mpr serves, moves.allocated tasks allocated, entered r q known⟩
  | retiring r m q code =>
    obtain ⟨new, allocated, known, refused⟩ := done
    exact ⟨fresh new, moves.allocated tasks allocated, entered r q known, refused⟩

/-- A step that goes on to the next point of `on-request`. -/
theorem State.Agreed.goOn (h : s.Agreed worker) (moves : Moves s s') (answer : s'.answer = s.answer)
    (tasks : s'.tasks = s.tasks)
    (entries : ∀ q entry, s'.dispatch.entries.lookup q = some entry →
      s.dispatch.entries.lookup q = some entry ∧ s.place.registered ≠ some (entry.req, q) ∨
        s'.place.registered = some (entry.req, q))
    (place : s'.At s'.place) : s'.Agreed worker := by
  apply h.move moves
  · intro q entry found
    rw [tasks]
    rcases entries q entry found with ⟨before, elsewhere⟩ | here
    · exact .inl ((h.entries q entry before).resolve_right elsewhere)
    · exact .inr here
  · intro task member
    exact .inl (tasks ▸ member)
  · intro ctx live ok
    rw [tasks]
    exact h.admitted ctx live (answer ▸ ok)
  · exact tasks ▸ h.distinct
  · exact tasks ▸ h.identities
  · exact place

variable [DecidableEq κ]

/-- `on-request` returns without having handed the request over. -/
theorem State.Agreed.refuse (h : s.Agreed worker) {d : Dispatch τ (Request κ) ℕ} {code : Code}
    (fresh : s.Fresh request) (refused : code ≠ .ok) (same : SameDispatch s.dispatch d)
    (entry : ∀ task ∈ s.tasks,
      d.entries.lookup task.requestSeq = s.dispatch.entries.lookup task.requestSeq)
    (entries : ∀ q entry, d.entries.lookup q = some entry →
      s.dispatch.entries.lookup q = some entry ∧ s.place.registered ≠ some (entry.req, q)) :
    State.Agreed ({ s with dispatch := d }.returns request.ctx code) worker := by
  have moves : Moves s ({ s with dispatch := d }.returns request.ctx code) := {
    receiver := rfl
    number := rfl
    count := rfl
    thread := same.thread
    module := same.moduleId
    closed := same.closed
    next := ⟨same.next.ge, same.next.trans_le h.range.2⟩
    answer := fun task member current => Function.update_of_ne (fresh.apart member current) _ _
    entry := entry }
  apply h.move moves
  · intro q e found
    obtain ⟨before, elsewhere⟩ := entries q e found
    exact .inl ((h.entries q e before).resolve_right elsewhere)
  · exact fun task member => .inl member
  · intro ctx live ok
    apply h.admitted ctx live
    by_cases here : ctx = request.ctx
    · subst here
      simp only [State.returns, Function.update_self, Option.some.injEq] at ok
      exact absurd ok refused
    · simpa only [State.returns, Function.update_of_ne here] using ok
  · exact h.distinct
  · exact h.identities
  · trivial

variable [DecidableEq τ]

omit [DecidableEq κ] [DecidableEq τ] in
theorem State.Agreed.beginDrain (h : s.Agreed worker) :
    State.Agreed { s with dispatch := s.dispatch.beginDrain.1 } worker := by
  obtain ⟨same, entries⟩ := beginDrain_lookup (d := s.dispatch)
  have moves : Moves s { s with dispatch := s.dispatch.beginDrain.1 } := {
    receiver := rfl
    number := rfl
    count := rfl
    thread := same.thread
    module := same.moduleId
    closed := same.closed
    next := ⟨same.next.ge, same.next.trans_le h.range.2⟩
    answer := fun _ _ _ => rfl
    entry := fun task _ => by rw [entries] }
  have entered {r : Request κ} {q : ℤ} (entered : s.Entered r q) :
      State.Entered { s with dispatch := s.dispatch.beginDrain.1 } r q := by
    unfold State.Entered
    rw [entries]
    exact entered
  apply h.move moves
  · intro q entry found
    rw [entries] at found
    exact h.entries q entry found
  · exact fun task member => .inl member
  · exact h.admitted
  · exact h.distinct
  · exact h.identities
  · exact moves.place rfl rfl (fun _ _ => entered) s.place h.place

omit [DecidableEq τ] in
theorem State.Agreed.create (h : s.Agreed worker) (outcome : Outcome)
    (here : s.place = .creating request moduleId requestSeq) :
    State.Agreed (if outcome = .returns
      then { s with place := .registering request moduleId requestSeq }
      else s.returns request.ctx outcome.code) worker := by
  obtain ⟨fresh, bare, allocated⟩ : s.Fresh request ∧ s.Bare request ∧
      s.Allocated moduleId requestSeq := by
    have done := h.place
    rwa [here] at done
  have away : s.place.registered = none := congrArg Place.registered here
  split
  · have moves : Moves s { s with place := .registering request moduleId requestSeq } :=
      ⟨rfl, rfl, rfl, rfl, rfl, .rfl, ⟨le_rfl, h.range.2⟩, fun _ _ _ => rfl, fun _ _ => rfl⟩
    apply h.goOn moves rfl rfl
    · intro q entry found
      exact .inl ⟨found, by simp [away]⟩
    · exact ⟨moves.fresh rfl rfl fresh, moves.bare bare, moves.allocated rfl allocated⟩
  · have refused : outcome.code ≠ .ok := by cases outcome <;> decide
    exact h.refuse fresh refused ⟨rfl, rfl, rfl, .rfl, id⟩ (fun _ _ => rfl)
      fun q entry found => ⟨found, by simp [away]⟩

theorem State.Agreed.allocate (h : s.Agreed worker) (here : s.place = .allocating request) :
    State.Agreed (s.dispatched (s.dispatch.allocateIdentity worker) request.ctx
      (.creating request s.dispatch.moduleId
        (s.dispatch.allocateIdentity worker).1.nextRequestSeq)) worker := by
  obtain ⟨fresh, bare⟩ : s.Fresh request ∧ s.Bare request := by
    have done := h.place
    rwa [here] at done
  have away : s.place.registered = none := congrArg Place.registered here
  unfold State.dispatched
  rcases allocateIdentity_cases s.dispatch worker with
    ⟨threw, same⟩ | ⟨fine, room, same⟩
  · rw [if_pos threw, same]
    exact h.refuse fresh (by decide) ⟨rfl, rfl, rfl, .rfl, id⟩ (fun _ _ => rfl)
      fun q entry found => ⟨found, by simp [away]⟩
  · rw [if_neg fine, same]
    obtain ⟨low, high⟩ := h.range
    generalize eq : { s with
      dispatch := { s.dispatch with nextRequestSeq := s.dispatch.nextRequestSeq + 1 }
      place := .creating request s.dispatch.moduleId (s.dispatch.nextRequestSeq + 1) } = t
    have moves : Moves s t := by
      subst eq
      exact ⟨rfl, rfl, rfl, rfl, rfl, .rfl, ⟨by show _ ≤ s.dispatch.nextRequestSeq + 1; omega,
        by show s.dispatch.nextRequestSeq + 1 ≤ _; omega⟩, fun _ _ _ => rfl, fun _ _ => rfl⟩
    show t.Agreed worker
    have tasks : t.tasks = s.tasks := by rw [← eq]
    apply h.goOn moves (by rw [← eq]) tasks
    · intro q entry found
      rw [← eq] at found
      exact .inl ⟨found, by simp [away]⟩
    · have place : t.place =
          .creating request s.dispatch.moduleId (s.dispatch.nextRequestSeq + 1) := by
        rw [← eq]
      have next : t.dispatch.nextRequestSeq = s.dispatch.nextRequestSeq + 1 := by rw [← eq]
      rw [place]
      refine ⟨moves.fresh tasks (by rw [← eq]) fresh, moves.bare bare,
        moves.module.symm, by omega, next.ge, ?_⟩
      intro task member taken
      rw [tasks] at member
      have := (h.tasks task member).known
      omega

theorem State.Agreed.register (h : s.Agreed worker)
    (here : s.place = .registering request moduleId requestSeq) :
    State.Agreed (s.dispatched
      (s.dispatch.register worker moduleId requestSeq (State.entry request)) request.ctx
      (.installing request moduleId requestSeq)) worker := by
  obtain ⟨fresh, bare, allocated⟩ : s.Fresh request ∧ s.Bare request ∧
      s.Allocated moduleId requestSeq := by
    have done := h.place
    rwa [here] at done
  have away : s.place.registered = none := congrArg Place.registered here
  obtain ⟨same, ⟨threw, entries⟩ | ⟨fine, vacant, entries⟩⟩ :=
    register_cases s.dispatch worker moduleId requestSeq (State.entry request)
  · unfold State.dispatched
    rw [if_pos threw]
    exact h.refuse fresh (by decide) same (fun task _ => entries _)
      fun q entry found => ⟨entries q ▸ found, by simp [away]⟩
  · unfold State.dispatched
    rw [if_neg fine]
    generalize s.dispatch.register worker moduleId requestSeq (State.entry request) = result
      at same entries
    have moves : Moves s { s with
        dispatch := result.1
        place := .installing request moduleId requestSeq } := {
      receiver := rfl
      number := rfl
      count := rfl
      thread := same.thread
      module := same.moduleId
      closed := same.closed
      next := ⟨same.next.ge, same.next.trans_le h.range.2⟩
      answer := fun _ _ _ => rfl
      entry := fun task member => by
        show result.1.entries.lookup task.requestSeq = _
        rw [entries, if_neg (allocated.new task member)] }
    apply h.goOn moves rfl rfl
    · intro q entry found
      change result.1.entries.lookup q = some entry at found
      rw [entries] at found
      split at found
      · rename_i own
        subst own
        cases found
        exact .inr rfl
      · exact .inl ⟨found, by simp [away]⟩
    · refine ⟨moves.fresh rfl rfl fresh, moves.bare bare, moves.allocated rfl allocated,
        State.entry request, ?_, rfl⟩
      show result.1.entries.lookup requestSeq = _
      rw [entries, if_pos rfl]

theorem State.Agreed.retire (h : s.Agreed worker) {code : Code}
    (here : s.place = .retiring request moduleId requestSeq code) :
    State.Agreed ({ s with dispatch := (s.dispatch.retire worker moduleId requestSeq).1 }.returns
      request.ctx code) worker := by
  obtain ⟨fresh, allocated, -, refused⟩ : s.Fresh request ∧ s.Allocated moduleId requestSeq ∧
      s.Entered request requestSeq ∧ code ≠ .ok := by
    have done := h.place
    rwa [here] at done
  obtain ⟨same, entries⟩ := retire_lookup h.thread allocated.positive
  rw [← allocated.module] at same entries
  apply h.refuse fresh refused same
  · intro task member
    rw [entries, if_neg (allocated.new task member)]
  · intro q entry found
    rw [entries] at found
    split at found
    · cases found
    · rename_i other
      refine ⟨found, ?_⟩
      rw [here, Place.registered]
      intro both
      injection both with both
      injection both with _ number
      exact other number.symm

omit [DecidableEq τ] in
/-- `execute` takes the task, and `on-request` answers that it has. -/
theorem State.Agreed.handOver (h : s.Agreed worker)
    (here : s.place = .executing request moduleId requestSeq) :
    State.Agreed { s.returns request.ctx .ok with
      tasks := s.tasks ++ [⟨request, moduleId, requestSeq⟩] } worker := by
  obtain ⟨fresh, serves, allocated, entered⟩ : s.Fresh request ∧ s.Serves request requestSeq ∧
      s.Allocated moduleId requestSeq ∧ s.Entered request requestSeq := by
    have done := h.place
    rwa [here] at done
  have moves : Moves s { s.returns request.ctx .ok with
      tasks := s.tasks ++ [⟨request, moduleId, requestSeq⟩] } :=
    ⟨rfl, rfl, rfl, rfl, rfl, .rfl, ⟨le_rfl, h.range.2⟩,
      fun task member current => Function.update_of_ne (fresh.apart member current) _ _,
      fun _ _ => rfl⟩
  apply h.move moves
  · intro q entry found
    rcases h.entries q entry found with ⟨task, member, own, number, current⟩ | registered
    · exact .inl ⟨task, List.mem_append_left _ member, own, number, current⟩
    · rw [here, Place.registered] at registered
      cases registered
      exact .inl ⟨_, List.mem_append_right _ (List.mem_singleton_self _), rfl, rfl, fresh.current⟩
  · intro task member
    rcases List.mem_append.mp member with old | new
    · exact .inl old
    · rw [List.mem_singleton.mp new]
      refine .inr ⟨allocated.module, allocated.positive, allocated.known, fresh.earlier, ?_,
        fun _ => ?_⟩
      · intro ctx installed number
        have own := h.one installed serves.installed (number.trans serves.requestSeq.symm)
        exact ⟨own, own ▸ fresh.current.number⟩
      · exact ⟨moves.serves.mpr serves, Function.update_self _ _ _, fun _ => entered⟩
  · intro ctx live ok
    by_cases own : ctx = request.ctx
    · subst own
      exact ⟨_, List.mem_append_right _ (List.mem_singleton_self _), rfl, fresh.current.number.symm⟩
    · have before : s.answer ctx = some .ok := by
        simpa only [State.returns, Function.update_of_ne own] using ok
      obtain ⟨task, member, found⟩ := h.admitted ctx live before
      exact ⟨task, List.mem_append_left _ member, found⟩
  · rw [List.map_append, List.nodup_append]
    refine ⟨h.distinct, List.nodup_singleton _, ?_⟩
    rintro n old _ new rfl
    obtain ⟨task, member, rfl⟩ := List.mem_map.mp old
    exact fresh.new task member (List.mem_singleton.mp new)
  · rw [List.map_append, List.nodup_append]
    refine ⟨h.identities, List.nodup_singleton _, ?_⟩
    rintro n old _ new rfl
    obtain ⟨task, member, rfl⟩ := List.mem_map.mp old
    exact allocated.new task member (List.mem_singleton.mp new)
  · trivial

omit [DecidableEq κ] [DecidableEq τ] in
/-- The request is to be retired. -/
theorem State.Agreed.fail (h : s.Agreed worker) {code : Code}
    (here : s.place = .executing request moduleId requestSeq) (refused : code ≠ .ok) :
    State.Agreed { s with place := .retiring request moduleId requestSeq code } worker := by
  obtain ⟨fresh, -, allocated, entered⟩ : s.Fresh request ∧ s.Serves request requestSeq ∧
      s.Allocated moduleId requestSeq ∧ s.Entered request requestSeq := by
    have done := h.place
    rwa [here] at done
  have moves : Moves s { s with place := .retiring request moduleId requestSeq code } :=
    ⟨rfl, rfl, rfl, rfl, rfl, .rfl, ⟨le_rfl, h.range.2⟩, fun _ _ _ => rfl, fun _ _ => rfl⟩
  apply h.goOn moves rfl rfl
  · intro q entry found
    by_cases elsewhere : s.place.registered = some (entry.req, q)
    · rw [here] at elsewhere
      exact .inr elsewhere
    · exact .inl ⟨found, elsewhere⟩
  · exact ⟨moves.fresh rfl rfl fresh, moves.allocated rfl allocated, entered, refused⟩

/-- `on-request` goes on, or answers. -/
theorem State.Agreed.tick (h : s.Agreed worker) {outcome : Outcome}
    (moves : s.tick worker outcome s.place = some s') : s'.Agreed worker := by
  cases here : s.place with
  | idle =>
    rw [here] at moves
    cases moves
  | allocating r =>
    rw [here] at moves
    cases moves
    exact h.allocate here
  | creating r m q =>
    rw [here, State.tick] at moves
    have next := h.create outcome here
    split at moves <;> cases moves <;> simpa only [*, if_true, if_false] using next
  | registering r m q =>
    rw [here] at moves
    cases moves
    exact h.register here
  | installing r m q =>
    rw [here] at moves
    cases moves
  | executing r m q =>
    rw [here] at moves
    cases outcome with
    | returns =>
      cases moves
      exact h.handOver here
    | rejected =>
      cases moves
      exact h.fail here (by decide)
    | interrupted =>
      cases moves
      exact h.fail here (by decide)
    | throws =>
      cases moves
      exact h.fail here (by decide)
  | retiring r m q code =>
    rw [here] at moves
    cases moves
    exact h.retire here

omit [DecidableEq κ] [DecidableEq τ] in
/-- A step that writes one context, which is of no task that was handed out, or not any more. -/
structure Touches (ctx : κ) (s s' : State τ κ) : Prop where
  kept : ∃ table entries, Kept table s'.receiver entries
  receiver : ∀ c ≠ ctx, s'.receiver.ctx c = s.receiver.ctx c
  number : ∀ c ≠ ctx, s'.number c = s.number c
  answer : ∀ c ≠ ctx, s'.answer c = s.answer c
  count : s.count ≤ s'.count
  tasks : s'.tasks = s.tasks
  same : s'.dispatch.thread = s.dispatch.thread ∧ s'.dispatch.moduleId = s.dispatch.moduleId ∧
    s'.dispatch.nextRequestSeq = s.dispatch.nextRequestSeq
  closed : s.dispatch.phase = .closed → s'.dispatch.phase = .closed
  gone : ∀ task ∈ s.tasks, task.request.ctx = ctx → ¬s'.Current task.request
  installed : (s'.receiver.ctx ctx).responseReceiver = true →
    (s'.receiver.ctx ctx).dispatchModuleId = uint64 s.dispatch.moduleId ∧
      ∃ q, 0 < q ∧ q ≤ s.dispatch.nextRequestSeq ∧
        (s'.receiver.ctx ctx).dispatchRequestSeq = uint64 q ∧
        ∀ task ∈ s.tasks, task.requestSeq ≠ q
  blank : (s'.receiver.ctx ctx).responseReceiver = false →
    (s'.receiver.ctx ctx).dispatchRequestSeq = 0
  admitted : (s'.receiver.ctx ctx).cleanup = false → s'.answer ctx ≠ some .ok
  entry : ∀ task ∈ s.tasks, task.request.ctx ≠ ctx → s.Current task.request →
    s'.dispatch.phase ≠ .closed →
    s'.dispatch.entries.lookup task.requestSeq = s.dispatch.entries.lookup task.requestSeq

omit [DecidableEq κ] [DecidableEq τ] in
theorem Touches.current {ctx : κ} (touches : Touches ctx s s') (apart : request.ctx ≠ ctx) :
    s'.Current request ↔ s.Current request := by
  have number := touches.number request.ctx apart
  have receiver := touches.receiver request.ctx apart
  constructor
  · rintro ⟨own, live⟩
    exact ⟨number ▸ own, receiver ▸ live⟩
  · rintro ⟨own, live⟩
    exact ⟨number ▸ own, receiver ▸ live⟩

omit [DecidableEq κ] [DecidableEq τ] in
theorem Touches.handed {ctx : κ} (touches : Touches ctx s s') (h : s.Agreed worker) {task : Task κ}
    (member : task ∈ s.tasks) : s'.Handed task where
  module := (h.tasks task member).module.trans touches.same.2.1.symm
  positive := (h.tasks task member).positive
  known := (h.tasks task member).known.trans touches.same.2.2.ge
  earlier := (h.tasks task member).earlier.trans_le touches.count
  own c installed number := by
    have handed := h.tasks task member
    by_cases here : c = ctx
    · -- the number that the shim has the context under is of no task
      subst here
      obtain ⟨-, q, positive, known, own, new⟩ := touches.installed installed
      have same := uint64_inj handed.positive.le (handed.known.trans h.range.2) positive.le
        (known.trans h.range.2) (number.symm.trans own)
      exact absurd same (new task member)
    · rw [touches.receiver c here] at installed number
      rw [touches.number c here]
      exact handed.own c installed number
  current now := by
    have apart : task.request.ctx ≠ ctx := fun here => touches.gone task member here now
    have before := (touches.current apart).mp now
    have receiver := touches.receiver _ apart
    obtain ⟨⟨installed, number⟩, ok, entered⟩ := (h.tasks task member).current before
    refine ⟨⟨receiver ▸ installed, receiver ▸ number⟩, (touches.answer _ apart).trans ok,
      fun opened => ?_⟩
    obtain ⟨entry, found, own⟩ := entered fun closed => opened (touches.closed closed)
    exact ⟨entry, (touches.entry task member apart before opened).trans found, own⟩

omit [DecidableEq κ] [DecidableEq τ] in
theorem State.Agreed.touch {ctx : κ} (h : s.Agreed worker) (touches : Touches ctx s s')
    (entries : ∀ q entry, s'.dispatch.entries.lookup q = some entry →
      (∃ task ∈ s.tasks, task.request = entry.req ∧ task.requestSeq = q ∧ task.request.ctx ≠ ctx ∧
        s.Current task.request) ∨ s'.place.registered = some (entry.req, q))
    (place : s'.At s'.place) : s'.Agreed worker where
  kept := touches.kept
  thread := touches.same.1.trans h.thread
  module := touches.same.2.1 ▸ h.module
  range := touches.same.2.2 ▸ h.range
  installed c installed := by
    rw [touches.same.2.1, touches.same.2.2]
    by_cases here : c = ctx
    · subst here
      obtain ⟨module, q, positive, known, own, -⟩ := touches.installed installed
      exact ⟨module, q, positive, known, own⟩
    · rw [touches.receiver c here] at installed ⊢
      exact h.installed c installed
  blank c bare := by
    by_cases here : c = ctx
    · subst here
      exact touches.blank bare
    · rw [touches.receiver c here] at bare ⊢
      exact h.blank c bare
  entries q entry found := by
    rw [touches.tasks]
    refine (entries q entry found).imp_left ?_
    rintro ⟨task, member, own, number, apart, current⟩
    exact ⟨task, member, own, number, (touches.current apart).mpr current⟩
  tasks task member := touches.handed h (touches.tasks ▸ member)
  admitted c live ok := by
    rw [touches.tasks]
    by_cases here : c = ctx
    · subst here
      exact absurd ok (touches.admitted live)
    · rw [touches.receiver c here] at live
      rw [touches.answer c here] at ok
      rw [touches.number c here]
      exact h.admitted c live ok
  distinct := touches.tasks ▸ h.distinct
  identities := touches.tasks ▸ h.identities
  place := place

omit [DecidableEq τ] in
theorem State.Agreed.install (h : s.Agreed worker)
    (here : s.place = .installing request moduleId requestSeq)
    {accepts room : Bool} (moves : s.install request moduleId requestSeq accepts room = some s') :
    s'.Agreed worker := by
  obtain ⟨fresh, bare, allocated, entered⟩ : s.Fresh request ∧ s.Bare request ∧
      s.Allocated moduleId requestSeq ∧ s.Entered request requestSeq := by
    have done := h.place
    rwa [here] at done
  obtain ⟨table, contexts, kept⟩ := h.kept
  have enough : contexts.card < s.fuel := by
    rw [State.fuel, kept.size]
    omega
  have promised : Promised s.receiver
      (.install request.ctx accepts (uint64 moduleId) (uint64 requestSeq) room) :=
    ⟨fresh.current.live, fun set => absurd set (by rw [bare]; decide)⟩
  obtain ⟨registered, receiver, done, ⟨-, unchanged⟩, contexts', kept', -⟩ :=
    kept.install enough promised
  obtain ⟨_, done', moves⟩ := Option.bind_eq_some_iff.mp moves
  cases Option.some.inj (done.symm.trans done')
  cases registered with
  | false =>
    cases unchanged rfl
    cases moves
    have moves : Moves s { s with place := .retiring request moduleId requestSeq .overloaded } :=
      ⟨rfl, rfl, rfl, rfl, rfl, .rfl, ⟨le_rfl, h.range.2⟩, fun _ _ _ => rfl, fun _ _ => rfl⟩
    apply h.goOn moves rfl rfl
    · intro q entry found
      by_cases elsewhere : s.place.registered = some (entry.req, q)
      · rw [here] at elsewhere
        exact .inr elsewhere
      · exact .inl ⟨found, elsewhere⟩
    · exact ⟨moves.fresh rfl rfl fresh, moves.allocated rfl allocated, entered, by decide⟩
  | true =>
    cases moves
    have ctx := install_ctx done
    have own : receiver.ctx request.ctx = ⟨uint64 moduleId, uint64 requestSeq, true, false⟩ := by
      rw [ctx, Function.update_self, fresh.current.live]
    apply @touch _ _ _ _ _ request.ctx h
    · exact {
        kept := ⟨_, _, kept'⟩
        receiver := fun c apart => by
          show receiver.ctx c = _
          rw [ctx, Function.update_of_ne apart]
        number := fun _ _ => rfl
        answer := fun _ _ => rfl
        count := le_rfl
        tasks := rfl
        same := ⟨rfl, rfl, rfl⟩
        closed := id
        gone := fun task member same now => fresh.new task member
          (now.1.symm.trans ((congrArg s.number same).trans fresh.current.number))
        installed := fun _ => by
          show (receiver.ctx request.ctx).dispatchModuleId = _ ∧ ∃ q, 0 < q ∧
              q ≤ s.dispatch.nextRequestSeq ∧
            (receiver.ctx request.ctx).dispatchRequestSeq = uint64 q ∧ _
          rw [own]
          exact ⟨congrArg uint64 allocated.module, requestSeq, allocated.positive,
            allocated.known, rfl,
            allocated.new⟩
        blank := fun unset => by
          change (receiver.ctx request.ctx).responseReceiver = false at unset
          rw [own] at unset
          cases unset
        admitted := fun _ ok => by
          rw [fresh.unanswered] at ok
          cases ok
        entry := fun _ _ _ _ _ => rfl }
    · intro q entry found
      rcases h.entries q entry found with ⟨task, member, its, number, now⟩ | registered
      · exact .inl ⟨task, member, its, number, fresh.apart member now, now⟩
      · rw [here] at registered
        exact .inr registered
    · refine ⟨⟨⟨fresh.current.number, ?_⟩, fresh.unanswered, fresh.earlier, fresh.new⟩, ⟨?_, ?_⟩,
        ⟨allocated.module, allocated.positive, allocated.known, allocated.new⟩, entered⟩
      · exact congrArg Context.cleanup own
      · exact congrArg Context.responseReceiver own
      · exact congrArg Context.dispatchRequestSeq own

omit [DecidableEq τ] in
/-- The context of a new request is cleared. -/
theorem State.Agreed.enter (h : s.Agreed worker) (idle : s.place = .idle) {ctx : κ} (hasBody : Bool)
    (free : (s.receiver.ctx ctx).cleanup = true) :
    State.Agreed { s.enter ctx with place := .allocating ⟨ctx, s.count, hasBody⟩ } worker := by
  obtain ⟨table, contexts, kept⟩ := h.kept
  have outside : ctx ∉ contexts := fun inside => by
    rw [(kept.live ctx inside).1] at free
    cases free
  have own : (s.enter ctx).receiver.ctx ctx = ⟨0, 0, false, false⟩ := Function.update_self _ _ _
  have number : (s.enter ctx).number ctx = s.count := Function.update_self _ _ _
  have unanswered : (s.enter ctx).answer ctx = none := Function.update_self _ _ _
  apply @touch _ _ _ _ _ ctx h
  · exact {
      kept := ⟨_, _, kept.setCtx outside rfl⟩
      receiver := fun c apart => Function.update_of_ne apart _ _
      number := fun c apart => Function.update_of_ne apart _ _
      answer := fun c apart => Function.update_of_ne apart _ _
      count := Nat.le_succ _
      tasks := rfl
      same := ⟨rfl, rfl, rfl⟩
      closed := id
      gone := fun task member same now => by
        have earlier := (h.tasks task member).earlier
        have taken : (s.enter ctx).number task.request.ctx = task.request.number := now.1
        rw [same, number] at taken
        omega
      installed := fun set => by
        change ((s.enter ctx).receiver.ctx ctx).responseReceiver = true at set
        rw [own] at set
        cases set
      blank := fun _ => congrArg Context.dispatchRequestSeq own
      admitted := fun _ ok => by
        change (s.enter ctx).answer ctx = _ at ok
        rw [unanswered] at ok
        cases ok
      entry := fun _ _ _ _ _ => rfl }
  · intro q entry found
    rcases h.entries q entry found with ⟨task, member, its, own, now⟩ | registered
    · refine .inl ⟨task, member, its, own, ?_, now⟩
      rintro rfl
      rw [now.live] at free
      cases free
    · rw [idle] at registered
      cases registered
  · refine ⟨⟨⟨number, congrArg Context.cleanup own⟩, unanswered, Nat.lt_succ_self _, ?_⟩,
      congrArg Context.responseReceiver own⟩
    intro task member
    exact (h.tasks task member).earlier.ne

omit [DecidableEq κ] in
/-- What `on-request-cleanup` takes out of the dispatcher's table is the entry under the number
that the shim has the context under. -/
theorem State.Agreed.retired (h : s.Agreed worker) (idle : s.place = .idle) (ctx : κ) :
    let context := s.receiver.ctx ctx
    let d := if context.dispatchModuleId = 0 ∨ context.dispatchRequestSeq = 0 then s.dispatch
      else (s.dispatch.retire worker (long context.dispatchModuleId)
        (long context.dispatchRequestSeq)).1
    SameDispatch s.dispatch d ∧ ∀ q,
      (∀ entry, d.entries.lookup q = some entry → s.dispatch.entries.lookup q = some entry ∧
        ¬(context.responseReceiver = true ∧ context.dispatchRequestSeq = uint64 q)) ∧
      (¬(context.responseReceiver = true ∧ context.dispatchRequestSeq = uint64 q) →
        d.entries.lookup q = s.dispatch.entries.lookup q) := by
  intro context d
  cases set : context.responseReceiver with
  | false =>
    have zero : context.dispatchRequestSeq = 0 := h.blank ctx set
    have same : d = s.dispatch := if_pos (.inr zero)
    rw [same]
    exact ⟨⟨rfl, rfl, rfl, .rfl, id⟩, fun q => ⟨fun entry found => ⟨found, by simp⟩, fun _ => rfl⟩⟩
  | true =>
    obtain ⟨module, r, positive, known, number⟩ := h.installed ctx set
    have bound := h.range.2
    have retires : d = (s.dispatch.retire worker s.dispatch.moduleId r).1 := by
      have modules : context.dispatchModuleId ≠ 0 := module ▸ uint64_ne_zero h.module.1 h.module.2
      have numbers : context.dispatchRequestSeq ≠ 0 :=
        number ▸ uint64_ne_zero positive (known.trans bound)
      have first : long context.dispatchModuleId = s.dispatch.moduleId := by
        rw [module, long_uint64 h.module.1.le h.module.2]
      have second : long context.dispatchRequestSeq = r := by
        rw [number, long_uint64 positive.le (known.trans bound)]
      show (if _ then _ else _) = _
      rw [if_neg (by simp [modules, numbers]), first, second]
    obtain ⟨same, entries⟩ := retire_lookup h.thread positive
    rw [retires]
    refine ⟨same, fun q => ⟨fun entry found => ?_, fun other => ?_⟩⟩
    · rw [entries] at found
      split at found
      · cases found
      · rename_i apart
        refine ⟨found, fun ⟨_, taken⟩ => apart ?_⟩
        rcases h.entries q entry found with ⟨task, member, -, its, -⟩ | registered
        · have handed := h.tasks task member
          exact uint64_inj (its ▸ handed.positive.le) (its ▸ handed.known.trans bound) positive.le
            (known.trans bound) (taken.symm.trans number)
        · rw [idle] at registered
          cases registered
    · rw [entries, if_neg]
      rintro rfl
      exact other ⟨rfl, number⟩

/-- A request leaves both tables. -/
theorem State.Agreed.cleanup (h : s.Agreed worker) (idle : s.place = .idle) {ctx : κ}
    (moves : s.cleanup worker ctx = some s') : s'.Agreed worker := by
  obtain ⟨table, contexts, kept⟩ := h.kept
  have enough : contexts.card < s.fuel := by
    rw [State.fuel, kept.size]
    omega
  obtain ⟨receiver, contexts', done, kept', -⟩ := kept.cleanup enough ctx
  obtain ⟨_, done', moves⟩ := Option.bind_eq_some_iff.mp moves
  cases Option.some.inj (done.symm.trans done')
  cases moves
  have ctxs := cleanup_ctx done
  have own : receiver.ctx ctx = ⟨0, 0, false, true⟩ := by
    rw [ctxs, Function.update_self]
  generalize eq : (if (s.receiver.ctx ctx).dispatchModuleId = 0 ∨ (s.receiver.ctx ctx).dispatchRequestSeq = 0
    then s.dispatch else (s.dispatch.retire worker (long (s.receiver.ctx ctx).dispatchModuleId)
      (long (s.receiver.ctx ctx).dispatchRequestSeq)).1) = d
  obtain ⟨same, entries⟩ := h.retired idle ctx
  rw [eq] at same entries
  apply @touch _ _ _ _ _ ctx h
  · exact {
      kept := ⟨_, _, kept'⟩
      receiver := fun c apart => by
        show receiver.ctx c = _
        rw [ctxs, Function.update_of_ne apart]
      number := fun _ _ => rfl
      answer := fun _ _ => rfl
      count := le_rfl
      tasks := rfl
      same := ⟨same.thread, same.moduleId, same.next⟩
      closed := same.closed.mpr
      gone := fun task member its now => by
        have live : (receiver.ctx task.request.ctx).cleanup = false := now.live
        rw [its, own] at live
        cases live
      installed := fun set => by
        change (receiver.ctx ctx).responseReceiver = true at set
        rw [own] at set
        cases set
      blank := fun _ => congrArg Context.dispatchRequestSeq own
      admitted := fun live => by
        change (receiver.ctx ctx).cleanup = false at live
        rw [own] at live
        cases live
      entry := fun task member apart current _ => (entries task.requestSeq).2 fun serves => by
        have handed := h.tasks task member
        exact apart (handed.own ctx serves.1 serves.2).1.symm }
  · intro q entry found
    obtain ⟨before, other⟩ := (entries q).1 entry found
    rcases h.entries q entry before with ⟨task, member, its, number, now⟩ | registered
    · refine .inl ⟨task, member, its, number, ?_, now⟩
      rintro rfl
      exact other (number ▸ ⟨((h.tasks task member).current now).1.1,
        ((h.tasks task member).current now).1.2⟩)
    · rw [idle] at registered
      cases registered
  · show State.At _ s.place
    rw [idle]
    trivial

omit [DecidableEq κ] [DecidableEq τ] in
/-- Whatever is left in the dispatcher's table is forced out of it. -/
theorem State.Agreed.finish (h : s.Agreed worker) (idle : s.place = .idle) :
    State.Agreed { s with dispatch := s.dispatch.finish.1 } worker := by
  obtain ⟨closed, module, next, thread, entries⟩ := finish_lookup (d := s.dispatch)
  exact {
    kept := h.kept
    thread := thread.trans h.thread
    module := by
      show 0 < s.dispatch.finish.1.moduleId ∧ s.dispatch.finish.1.moduleId ≤ longMax
      rw [module]
      exact h.module
    range := by
      show 0 ≤ s.dispatch.finish.1.nextRequestSeq ∧ s.dispatch.finish.1.nextRequestSeq ≤ longMax
      rw [next]
      exact h.range
    installed := fun ctx set => by
      show _ = uint64 s.dispatch.finish.1.moduleId ∧ ∃ q, 0 < q ∧
          q ≤ s.dispatch.finish.1.nextRequestSeq ∧ _
      rw [module, next]
      exact h.installed ctx set
    blank := h.blank
    entries := fun q entry found => by
      rw [entries] at found
      cases found
    tasks := fun task member => by
      have handed := h.tasks task member
      refine ⟨handed.module.trans module.symm, handed.positive, handed.known.trans next.ge,
        handed.earlier,
        handed.own, fun current => ?_⟩
      obtain ⟨serves, ok, -⟩ := handed.current ⟨current.1, current.2⟩
      exact ⟨⟨serves.1, serves.2⟩, ok, fun opened => absurd closed opened⟩
    admitted := h.admitted
    distinct := h.distinct
    identities := h.identities
    place := by
      show State.At _ s.place
      rw [idle]
      trivial }

omit [DecidableEq κ] in
theorem agreed_start {module : ℤ} (positive : 0 < module) (bounded : module ≤ longMax) :
    (start (κ := κ) worker module).Agreed worker where
  kept := ⟨_, _, kept_create⟩
  thread := rfl
  module := ⟨positive, bounded⟩
  range := by
    show (0 : ℤ) ≤ 0 ∧ (0 : ℤ) ≤ longMax
    decide
  installed _ set := by cases set
  blank _ _ := rfl
  entries q entry found := by
    change AList.lookup q (∅ : AList fun _ : ℤ => Entry (Request κ) ℕ) = some entry at found
    simp at found
  tasks _ member := by cases member
  admitted _ live := by cases live
  distinct := List.nodup_nil
  identities := List.nodup_nil
  place := trivial

theorem State.Agreed.step (h : s.Agreed worker) {a : Action κ} (moves : step worker a s = some s') :
    s'.Agreed worker := by
  unfold Admission.step at moves
  split at moves
  case h_1 ctx hasBody running idle =>
    split at moves
    · cases moves
    · rename_i free
      have free : (s.receiver.ctx ctx).cleanup = true := by simpa using free
      have entered := h.enter idle hasBody free
      split at moves
      · cases moves
        exact entered
      · cases moves
        exact entered.refuse entered.place.1 (by decide) ⟨rfl, rfl, rfl, .rfl, id⟩ (fun _ _ => rfl)
          fun q entry found => ⟨found, by simp [Place.registered]⟩
  case h_2 outcome => exact h.tick moves
  case h_3 accepts room r m q here => exact h.install here moves
  case h_4 ctx idle =>
    split at moves
    · cases moves
    · exact h.cleanup idle moves
  case h_5 =>
    cases moves
    exact h.beginDrain
  case h_6 idle =>
    cases moves
    exact h.finish idle
  case h_7 => cases moves

/-- The two tables agree in every run. -/
theorem agreed_of_reachable {module : ℤ} (positive : 0 < module) (bounded : module ≤ longMax)
    (reached : (machine (κ := κ) worker module).Reachable s) : s.Agreed worker := by
  apply reached.invariant
  · rintro _ rfl
    exact agreed_start positive bounded
  · exact fun a s t h moves => h.step moves

end Busker.Admission
