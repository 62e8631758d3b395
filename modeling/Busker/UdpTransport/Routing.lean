import Busker.UdpTransport.Attachments
import Mathlib.Data.List.Nodup

/-! What holds of the shared UDP transport after any calls: no two attachments are under
one generation and thread, a lookup finds the attachment it asks for or falls back within
the generation, only the active generation accepts, and a context takes away its own
attachment only. -/

namespace Busker.UdpTransport

open Interleaving SlotArray

/-- What an attachment is looked up by. -/
def Attachment.key (a : Attachment) : UInt64 × UInt32 := (a.nodeId, a.threadId)

/-- The attachment a context is registered with. -/
def Http3Ctx.attachment (c : Http3Ctx) : Attachment :=
  ⟨c.nodeId, c.threadId, c.forwardFd, some c.address⟩

/-- The attachments are those of live contexts, and only the active generation's accept. -/
structure Attached (t : Transport) : Prop where
  addresses : (t.contexts.map Http3Ctx.address).Nodup
  forwardFds : (t.contexts.map Http3Ctx.forwardFd).Nodup
  descriptor : ∀ c ∈ t.contexts, 0 ≤ c.forwardFd
  unique : (t.attachments.contents.map Attachment.key).Nodup
  live : ∀ a ∈ t.attachments.contents, ∃ c ∈ t.contexts, c.attachment = a
  accepting : ∀ c ∈ t.contexts, c.attachment ∈ t.attachments.contents →
    c.acceptor ≠ none → c.nodeId = t.activeNodeId

theorem isAt_iff {nodeId : UInt64} {threadId : UInt32} {a : Attachment} :
    a.isAt nodeId threadId = true ↔ a.key = (nodeId, threadId) := by
  simp [Attachment.isAt, Attachment.key]

section attach

variable {realloc : Bool} {attachments registered : Slots Attachment} {new : Attachment}

/-- A new attachment takes the place of the one under its generation and thread, or
becomes the last one. -/
theorem registerAttachment_contents
    (done : registerAttachment realloc attachments new = some registered) :
    (∃ slot old, attachments.contents[slot]? = some old ∧ old.key = new.key ∧
        registered.contents = attachments.contents.set slot new) ∨
      (∀ a ∈ attachments.contents, a.key ≠ new.key) ∧
        registered.contents = attachments.contents ++ [new] := by
  unfold registerAttachment at done
  split at done
  · rename_i slot found
    have ⟨used, here⟩ := Slots.firstIndex_eq_some found
    refine .inl ⟨slot, attachments.slot slot, ?_, isAt_iff.mp here, ?_⟩
    · rw [Slots.getElem?_contents, if_pos used]
    · rw [← Option.some.inj done, Slots.contents_store]
  · rename_i missed
    have absent : ∀ a ∈ attachments.contents, a.key ≠ new.key := by
      intro a member same
      have other := Slots.firstIndex_eq_none missed a member
      rw [isAt_iff.mpr same] at other
      contradiction
    refine .inr ⟨absent, ?_⟩
    split at done
    · split at done
      · rw [← Option.some.inj done]
        exact Slots.contents_extend_store (attachments.grow _ _) _ new
      · contradiction
    · rw [← Option.some.inj done]
      exact Slots.contents_extend_store attachments _ new

theorem registerAttachment_keys
    (done : registerAttachment realloc attachments new = some registered)
    (unique : (attachments.contents.map Attachment.key).Nodup) :
    (registered.contents.map Attachment.key).Nodup := by
  rcases registerAttachment_contents done with ⟨slot, old, here, same, result⟩ | ⟨absent, result⟩
  · have kept : (attachments.contents.map Attachment.key).set slot new.key =
        attachments.contents.map Attachment.key := by
      obtain ⟨inside, rfl⟩ := List.getElem?_eq_some_iff.mp here
      have used : slot < (attachments.contents.map Attachment.key).length := by
        simpa using inside
      have there : new.key = (attachments.contents.map Attachment.key)[slot] := by
        rw [List.getElem_map, same]
      rw [there]
      exact List.set_getElem_self _
    rwa [result, List.map_set, kept]
  · rw [result, List.map_append, List.map_singleton]
    apply List.Nodup.append unique (List.nodup_singleton _)
    intro key member last
    obtain ⟨a, inside, rfl⟩ := List.mem_map.mp member
    exact absent a inside (List.mem_singleton.mp last)

theorem registerAttachment_mem
    (done : registerAttachment realloc attachments new = some registered) {a : Attachment}
    (member : a ∈ registered.contents) : a = new ∨ a ∈ attachments.contents := by
  rcases registerAttachment_contents done with ⟨slot, old, _, _, result⟩ | ⟨_, result⟩
  · rw [result] at member
    exact (List.mem_or_eq_of_mem_set member).symm
  · rw [result] at member
    rcases List.mem_append.mp member with inside | last
    · exact .inr inside
    · exact .inl (List.mem_singleton.mp last)

end attach

section lookup

variable {nodeId : UInt64} {threadId : UInt32} {allowThreadFallback : Bool}
  {attachments : Slots Attachment}

theorem forwardFdStep_passes {a : Attachment} (other : a.key ≠ (nodeId, threadId))
    (fd fallbackFd : ℤ) :
    ∃ next, forwardFdStep nodeId threadId allowThreadFallback a (fd, fallbackFd) =
        .yield (fd, next) ∧
      (next = fallbackFd ∨ a.nodeId = nodeId ∧ next = a.forwardFd) := by
  by_cases node : a.nodeId = nodeId
  · have thread : a.threadId ≠ threadId := fun same => other (Prod.ext node same)
    refine ⟨if allowThreadFallback && fallbackFd == -1 then a.forwardFd else fallbackFd,
      by simp only [forwardFdStep, if_pos node, if_neg thread], ?_⟩
    split
    · exact .inr ⟨node, rfl⟩
    · exact .inl rfl
  · exact ⟨fallbackFd, if_neg node, .inl rfl⟩

/-- The loop takes a fallback from the generation it looks in only. -/
theorem walk_fallback (fd fallbackFd : ℤ) {list : List Attachment}
    (absent : ∀ a ∈ list, a.key ≠ (nodeId, threadId)) :
    ∃ last, Slots.walk (forwardFdStep nodeId threadId allowThreadFallback) list
        (fd, fallbackFd) = (fd, last) ∧
      (last = fallbackFd ∨ ∃ a ∈ list, a.nodeId = nodeId ∧ last = a.forwardFd) := by
  induction list generalizing fallbackFd with
  | nil => exact ⟨fallbackFd, rfl, .inl rfl⟩
  | cons a rest ih =>
    obtain ⟨next, passes, chosen⟩ := forwardFdStep_passes
      (absent a List.mem_cons_self) fd fallbackFd
    rw [Slots.walk_yield passes]
    obtain ⟨last, result, found⟩ := ih next fun b member =>
      absent b (List.mem_cons_of_mem a member)
    refine ⟨last, result, ?_⟩
    rcases found with same | ⟨b, member, found⟩
    · rw [same]
      exact chosen.imp_right fun here => ⟨a, List.mem_cons_self, here⟩
    · exact .inr ⟨b, List.mem_cons_of_mem a member, found⟩

theorem walk_found {list : List Attachment} {fd fallbackFd : ℤ} {a : Attachment}
    (member : a ∈ list) (unique : (list.map Attachment.key).Nodup)
    (here : a.key = (nodeId, threadId)) :
    (Slots.walk (forwardFdStep nodeId threadId allowThreadFallback) list (fd, fallbackFd)).1 =
      a.forwardFd := by
  induction list generalizing fallbackFd with
  | nil => cases member
  | cons b rest ih =>
    rw [List.map_cons, List.nodup_cons] at unique
    rcases List.mem_cons.mp member with rfl | inside
    · rw [Attachment.key, Prod.mk.injEq] at here
      rw [Slots.walk_done (by rw [forwardFdStep, if_pos here.1, if_pos here.2])]
    · have other : b.key ≠ (nodeId, threadId) := by
        intro same
        exact unique.1 (same ▸ here ▸ List.mem_map_of_mem inside)
      obtain ⟨next, passes, _⟩ := forwardFdStep_passes
        other fd fallbackFd
      rw [Slots.walk_yield passes]
      exact ih inside unique.2

end lookup

section contexts

variable {address : ℕ} {acceptor : Option Acceptor} {nodeId : UInt64} {c : Http3Ctx}

@[simp] theorem attachment_setAcceptor (c : Http3Ctx) :
    (setAcceptor address acceptor c).attachment = c.attachment := by
  unfold setAcceptor
  split <;> rfl

/-- What one attachment makes of a context when a generation is activated. -/
def activatedBy (nodeId : UInt64) (a : Attachment) (c : Http3Ctx) : Http3Ctx :=
  match a.ctx with
  | none => c
  | some address =>
    setAcceptor address (if a.nodeId = nodeId then some .onHttp3Accept else none) c

@[simp] theorem attachment_activatedBy (a : Attachment) :
    (activatedBy nodeId a c).attachment = c.attachment := by
  unfold activatedBy
  split
  · rfl
  · exact attachment_setAcceptor c

theorem activatedBy_own : activatedBy nodeId c.attachment c =
    { c with acceptor := if c.nodeId = nodeId then some .onHttp3Accept else none } := if_pos rfl

theorem activatedBy_other {a : Attachment} (other : a.ctx ≠ some c.address) :
    activatedBy nodeId a c = c := by
  unfold activatedBy
  split
  · rfl
  · rename_i address ctx
    apply if_neg
    intro same
    exact other (by rw [ctx, same])

theorem walk_activate (nodeId : UInt64) (list : List Attachment) (contexts : List Http3Ctx) :
    Slots.walk (activateStep nodeId) list contexts =
      contexts.map fun c => list.foldl (fun c a => activatedBy nodeId a c) c := by
  induction list generalizing contexts with
  | nil => exact (List.map_id _).symm
  | cons a rest ih =>
    cases ctx : a.ctx with
    | none =>
      rw [Slots.walk_yield (by rw [activateStep, ctx]), ih]
      apply List.map_congr_left
      intro c _
      simp [activatedBy, ctx]
    | some address =>
      rw [Slots.walk_yield (by rw [activateStep, ctx]), ih, List.map_map]
      apply List.map_congr_left
      intro c _
      simp [activatedBy, ctx]

theorem attachment_activated (list : List Attachment) :
    (list.foldl (fun c a => activatedBy nodeId a c) c).attachment = c.attachment := by
  induction list generalizing c with
  | nil => rfl
  | cons a rest ih =>
    rw [List.foldl_cons, ih, attachment_activatedBy]

/-- A context whose attachments are its own accepts after an activation only if its
generation is the activated one. -/
theorem acceptor_activated {list : List Attachment}
    (own : ∀ a ∈ list, a.ctx = some c.address → a = c.attachment)
    (attached : c.attachment ∈ list ∨ (c.acceptor ≠ none → c.nodeId = nodeId))
    (accepts : (list.foldl (fun c a => activatedBy nodeId a c) c).acceptor ≠ none) :
    c.nodeId = nodeId := by
  induction list generalizing c with
  | nil => exact (attached.resolve_left List.not_mem_nil) accepts
  | cons a rest ih =>
    have later : ∀ b ∈ rest, b.ctx = some c.address → b = c.attachment :=
      fun b member => own b (List.mem_cons_of_mem a member)
    rw [List.foldl_cons] at accepts
    by_cases mine : a = c.attachment
    · rw [mine, activatedBy_own] at accepts
      by_contra other
      rw [if_neg other] at accepts
      exact other (ih (c := { c with acceptor := none }) later
        (.inr fun accepting => absurd rfl accepting) accepts)
    · have passes : activatedBy nodeId a c = c :=
        activatedBy_other fun same => mine (own a List.mem_cons_self same)
      rw [passes] at accepts
      refine ih later ?_ accepts
      exact attached.imp_left fun member => (List.mem_cons.mp member).resolve_left (Ne.symm mine)

end contexts

/-- The contexts keep their attachments when each is changed in its acceptor only. -/
theorem map_of_attachment {γ : Type*} {f : Http3Ctx → Http3Ctx} {g : Http3Ctx → γ}
    (kept : ∀ c, (f c).attachment = c.attachment)
    (determined : ∀ c d, c.attachment = d.attachment → g c = g d) (contexts : List Http3Ctx) :
    (contexts.map f).map g = contexts.map g := by
  rw [List.map_map]
  apply List.map_congr_left
  intro c _
  exact determined _ _ (kept c)

theorem Http3Ctx.address_of_attachment {c d : Http3Ctx} (same : c.attachment = d.attachment) :
    c.address = d.address := Option.some.inj (congrArg Attachment.ctx same)

theorem Http3Ctx.forwardFd_of_attachment {c d : Http3Ctx} (same : c.attachment = d.attachment) :
    c.forwardFd = d.forwardFd := congrArg Attachment.forwardFd same

variable {t : Transport}

/-- A call that changes acceptors only. -/
theorem Attached.accept (h : Attached t) {f : Http3Ctx → Http3Ctx} {activeNodeId : UInt64}
    (kept : ∀ c, (f c).attachment = c.attachment)
    (accepting : ∀ c ∈ t.contexts, c.attachment ∈ t.attachments.contents →
      (f c).acceptor ≠ none → c.nodeId = activeNodeId) :
    Attached { t with activeNodeId := activeNodeId, contexts := t.contexts.map f } where
  addresses := by
    rw [map_of_attachment kept fun c d => Http3Ctx.address_of_attachment]
    exact h.addresses
  forwardFds := by
    rw [map_of_attachment kept fun c d => Http3Ctx.forwardFd_of_attachment]
    exact h.forwardFds
  descriptor := by
    intro d member
    obtain ⟨c, inside, rfl⟩ := List.mem_map.mp member
    rw [Http3Ctx.forwardFd_of_attachment (kept c)]
    exact h.descriptor c inside
  unique := h.unique
  live := by
    intro a member
    obtain ⟨c, inside, same⟩ := h.live a member
    exact ⟨f c, List.mem_map_of_mem inside, (kept c).trans same⟩
  accepting := by
    intro d member attached accepts
    obtain ⟨c, inside, rfl⟩ := List.mem_map.mp member
    rw [kept c] at attached
    rw [show (f c).nodeId = c.nodeId from congrArg Attachment.nodeId (kept c)]
    exact accepting c inside attached accepts

theorem Attached.same_of_address (h : Attached t) {c d : Http3Ctx} (left : c ∈ t.contexts)
    (right : d ∈ t.contexts) (same : c.address = d.address) : c = d :=
  List.inj_on_of_nodup_map h.addresses left right same

theorem Attached.same_of_forwardFd (h : Attached t) {c d : Http3Ctx} (left : c ∈ t.contexts)
    (right : d ∈ t.contexts) (same : c.forwardFd = d.forwardFd) : c = d :=
  List.inj_on_of_nodup_map h.forwardFds left right same

/-- An attachment that names a live context is the one the context is registered with. -/
theorem Attached.own (h : Attached t) {c : Http3Ctx} (member : c ∈ t.contexts) {a : Attachment}
    (attached : a ∈ t.attachments.contents) (names : a.ctx = some c.address) :
    a = c.attachment := by
  obtain ⟨d, inside, rfl⟩ := h.live a attached
  rw [h.same_of_address inside member (Option.some.inj names)]

theorem Attached.activate (h : Attached t) (nodeId : UInt64) :
    Attached (activateGeneration t nodeId) := by
  unfold activateGeneration
  rw [Slots.forEach_contents, walk_activate]
  apply h.accept (fun c => attachment_activated _)
  intro c member attached accepts
  exact acceptor_activated (fun a inside => h.own member inside) (.inl attached) accepts

theorem Attached.stopAccepting (h : Attached t) (ctx : Http3Ctx) :
    Attached (stopAccepting t ctx) := by
  apply h.accept attachment_setAcceptor
  intro c member attached accepts
  apply h.accepting c member attached
  unfold setAcceptor at accepts
  split at accepts
  · contradiction
  · exact accepts

/-- An attach that succeeds adds a context with its attachment and no acceptor. -/
theorem attachUdpTransport_cases (t : Transport) (nodeId : UInt64) (threadId : UInt32)
    (supplies : Supplies) :
    (attachUdpTransport t nodeId threadId supplies).1 = t ∨
      ∃ address forwardFd attachments, supplies.workerCtx = some address ∧
        supplies.forwardFds = some forwardFd ∧
        registerAttachment supplies.realloc t.attachments
          ⟨nodeId, threadId, forwardFd, some address⟩ = some attachments ∧
        (attachUdpTransport t nodeId threadId supplies).1 =
          { t with
            attachments := attachments
            contexts := ⟨address, nodeId, threadId, forwardFd, none⟩ :: t.contexts } := by
  unfold attachUdpTransport
  cases supplies.cidKeySet
  · exact .inl rfl
  cases supplies.workerFd
  · exact .inl rfl
  cases supplies.workerCtx with
  | none => exact .inl rfl
  | some address =>
    cases supplies.forwardFds with
    | none => exact .inl rfl
    | some forwardFd =>
      cases supplies.fdFlagsSet
      · exact .inl rfl
      cases supplies.forwardedSock
      · exact .inl rfl
      simp only [Bool.not_true, Bool.false_eq_true, if_false]
      cases registered : registerAttachment supplies.realloc t.attachments
          ⟨nodeId, threadId, forwardFd, some address⟩ with
      | none => exact .inl rfl
      | some attachments => exact .inr ⟨address, forwardFd, attachments, rfl, rfl, registered, rfl⟩

theorem Attached.attach (h : Attached t) (nodeId : UInt64) (threadId : UInt32)
    {supplies : Supplies} (fresh : supplies.Fresh t.contexts) :
    Attached (attachUdpTransport t nodeId threadId supplies).1 := by
  obtain ⟨unused, descriptor⟩ := fresh
  obtain same | ⟨address, forwardFd, attachments, workerCtx, forwardFds, registered, result⟩ :=
    attachUdpTransport_cases t nodeId threadId supplies
  · rwa [same]
  rw [result]
  have otherAddress : ∀ c ∈ t.contexts, c.address ≠ address := by
    intro c member same
    exact (unused c member).1 (by rw [workerCtx, same])
  have otherFd : ∀ c ∈ t.contexts, c.forwardFd ≠ forwardFd := by
    intro c member same
    exact (unused c member).2 (by rw [forwardFds, same])
  constructor
  · rw [List.map_cons, List.nodup_cons]
    refine ⟨?_, h.addresses⟩
    intro member
    obtain ⟨c, inside, same⟩ := List.mem_map.mp member
    exact otherAddress c inside same
  · rw [List.map_cons, List.nodup_cons]
    refine ⟨?_, h.forwardFds⟩
    intro member
    obtain ⟨c, inside, same⟩ := List.mem_map.mp member
    exact otherFd c inside same
  · intro c member
    rcases List.mem_cons.mp member with rfl | inside
    · exact descriptor forwardFd forwardFds
    · exact h.descriptor c inside
  · exact registerAttachment_keys registered h.unique
  · intro a member
    rcases registerAttachment_mem registered member with rfl | inside
    · exact ⟨_, List.mem_cons_self, rfl⟩
    · obtain ⟨c, live, same⟩ := h.live a inside
      exact ⟨c, List.mem_cons_of_mem _ live, same⟩
  · intro c member attached accepts
    rcases List.mem_cons.mp member with rfl | inside
    · contradiction
    · apply h.accepting c inside _ accepts
      rcases registerAttachment_mem registered attached with same | old
      · exact absurd (Option.some.inj (congrArg Attachment.ctx same)) (otherAddress c inside)
      · exact old

/-- Taking out the one element a test picks. -/
theorem eraseIdx_eq_filter {list : List Attachment} {idx : ℕ} {picked : Attachment}
    {keeps : Attachment → Bool} (here : list[idx]? = some picked) (drops : keeps picked = false)
    (only : ∀ a ∈ list, keeps a = false → a = picked) (once : list.Nodup) :
    list.eraseIdx idx = list.filter keeps := by
  obtain ⟨inside, rfl⟩ := List.getElem?_eq_some_iff.mp here
  have whole : list = list.take idx ++ list[idx] :: list.drop (idx + 1) := by
    rw [← List.drop_eq_getElem_cons inside, List.take_append_drop]
  rw [whole, List.nodup_middle, List.nodup_cons, List.mem_append, not_or] at once
  have stays : ∀ part : List Attachment, (∀ a ∈ part, a ∈ list) → list[idx] ∉ part →
      part.filter keeps = part := by
    intro part sub without
    apply List.filter_eq_self.mpr
    intro a member
    by_contra other
    exact without (only a (sub a member) (Bool.eq_false_iff.mpr other) ▸ member)
  rw [List.eraseIdx_eq_take_drop_succ]
  conv_rhs => rw [whole, List.filter_append, List.filter_cons, if_neg (by rw [drops]; decide)]
  rw [stays _ (fun a => List.mem_of_mem_take) once.1.1,
    stays _ (fun a => List.mem_of_mem_drop) once.1.2]

/-- Detaching a context takes away the attachment it is registered with, if that one has
not been replaced. -/
theorem Attached.unregistered (h : Attached t) {c : Http3Ctx} (member : c ∈ t.contexts) :
    (detachUdpTransport t c).attachments.contents =
      t.attachments.contents.filter fun a => a.ctx ≠ some c.address := by
  have descriptor : c.forwardFd ≠ -1 := by
    have := h.descriptor c member
    omega
  have matches_iff : ∀ a ∈ t.attachments.contents,
      (a.isAt c.nodeId c.threadId && a.forwardFd == c.forwardFd) = true ↔
        a.ctx = some c.address := by
    intro a attached
    constructor
    · intro hit
      obtain ⟨d, inside, rfl⟩ := h.live a attached
      rw [Bool.and_eq_true, beq_iff_eq] at hit
      rw [h.same_of_forwardFd inside member hit.2]
      rfl
    · intro names
      rw [h.own member attached names]
      simp [Attachment.isAt, Http3Ctx.attachment]
  simp only [detachUdpTransport, if_pos descriptor, unregisterAttachment]
  split
  · rename_i idx found
    have ⟨used, hit⟩ := Slots.firstIndex_eq_some found
    have place : t.attachments.contents[idx]? = some (t.attachments.slot idx) := by
      rw [Slots.getElem?_contents, if_pos used]
    have attached := Slots.slot_mem t.attachments used
    have names := (matches_iff _ attached).mp hit
    rw [Slots.contents_remove _ used]
    apply eraseIdx_eq_filter place
    · simpa using names
    · intro a inside dropped
      rw [h.own member inside (by simpa using dropped), h.own member attached names]
    · exact h.unique.of_map
  · rename_i missed
    symm
    apply List.filter_eq_self.mpr
    intro a attached
    rw [decide_eq_true_eq]
    intro names
    have hit := (matches_iff a attached).mpr names
    rw [Slots.firstIndex_eq_none missed a attached] at hit
    contradiction

theorem Attached.detach (h : Attached t) {c : Http3Ctx} (member : c ∈ t.contexts) :
    Attached (detachUdpTransport t c) where
  addresses := h.addresses.sublist (List.filter_sublist.map _)
  forwardFds := h.forwardFds.sublist (List.filter_sublist.map _)
  descriptor := fun d inside => h.descriptor d (List.mem_of_mem_filter inside)
  unique := by
    rw [h.unregistered member]
    exact h.unique.sublist (List.filter_sublist.map _)
  live := by
    intro a attached
    rw [h.unregistered member, List.mem_filter, decide_eq_true_eq] at attached
    obtain ⟨d, inside, rfl⟩ := h.live a attached.1
    refine ⟨d, List.mem_filter.mpr ⟨inside, ?_⟩, rfl⟩
    rw [decide_eq_true_eq]
    intro same
    exact attached.2 (congrArg some same)
  accepting := by
    intro d inside attached accepts
    rw [h.unregistered member] at attached
    exact h.accepting d (List.mem_of_mem_filter inside) (List.mem_of_mem_filter attached) accepts

theorem mem_of_findCtx {contexts : List Http3Ctx} {address : ℕ} {c : Http3Ctx}
    (found : findCtx contexts address = some c) : c ∈ contexts ∧ c.address = address := by
  have here := List.find?_some found
  exact ⟨List.mem_of_find?_eq_some found, of_decide_eq_true here⟩

theorem Attached.step {op : Op} {after : Transport} (h : Attached t)
    (moves : step op t = some after) : Attached after := by
  cases op with
  | attach nodeId threadId supplies =>
    simp only [UdpTransport.step] at moves
    split at moves
    · rename_i fresh
      rw [← Option.some.inj moves]
      exact h.attach nodeId threadId fresh
    · contradiction
  | activate nodeId =>
    rw [← Option.some.inj moves]
    exact h.activate nodeId
  | stopAccepting ctx =>
    cases ctx with
    | none => rwa [← Option.some.inj moves]
    | some address =>
      obtain ⟨c, _, rfl⟩ := Option.map_eq_some_iff.mp moves
      exact h.stopAccepting c
  | detach ctx =>
    cases ctx with
    | none => rwa [← Option.some.inj moves]
    | some address =>
      obtain ⟨c, found, rfl⟩ := Option.map_eq_some_iff.mp moves
      exact h.detach (mem_of_findCtx found).1

theorem attached_openUdpTransport : Attached openUdpTransport where
  addresses := List.nodup_nil
  forwardFds := List.nodup_nil
  descriptor := fun _ member => absurd member List.not_mem_nil
  unique := List.nodup_nil
  live := fun _ member => absurd member List.not_mem_nil
  accepting := fun _ member => absurd member List.not_mem_nil

theorem attached_of_reachable (reached : transport.Reachable t) : Attached t := by
  apply reached.invariant
  · rintro s rfl
    exact attached_openUdpTransport
  · intro op s after h moves
    exact h.step moves

/-- The routing table of the transport does what its users rely on. -/
structure Routes (t : Transport) : Prop where
  unique : t.attachments.contents.Pairwise fun a b =>
    (a.nodeId, a.threadId) ≠ (b.nodeId, b.threadId) ∧ a.forwardFd ≠ b.forwardFd ∧ a.ctx ≠ b.ctx
  found : ∀ a ∈ t.attachments.contents, ∀ allowThreadFallback,
    getForwardFd t.attachments a.nodeId a.threadId allowThreadFallback = a.forwardFd
  fallback : ∀ nodeId threadId allowThreadFallback,
    (∀ a ∈ t.attachments.contents, (a.nodeId, a.threadId) ≠ (nodeId, threadId)) →
      getForwardFd t.attachments nodeId threadId allowThreadFallback = -1 ∨
        ∃ a ∈ t.attachments.contents, a.nodeId = nodeId ∧
          getForwardFd t.attachments nodeId threadId allowThreadFallback = a.forwardFd
  accepting : ∀ a ∈ t.attachments.contents, ∃ c ∈ t.contexts, a.ctx = some c.address ∧
    (c.acceptor ≠ none → a.nodeId = t.activeNodeId)
  detached : ∀ c ∈ t.contexts, step (.detach (some c.address)) t = some (detachUdpTransport t c) ∧
    (detachUdpTransport t c).attachments.contents =
      t.attachments.contents.filter (fun a => a.ctx ≠ some c.address) ∧
    (detachUdpTransport t c).contexts = t.contexts.filter (fun d => d.address ≠ c.address) ∧
    (detachUdpTransport t c).activeNodeId = t.activeNodeId

theorem Attached.getForwardFd_found (h : Attached t) {a : Attachment}
    (attached : a ∈ t.attachments.contents) (allowThreadFallback : Bool) :
    getForwardFd t.attachments a.nodeId a.threadId allowThreadFallback = a.forwardFd := by
  obtain ⟨c, inside, rfl⟩ := h.live a attached
  have descriptor := h.descriptor c inside
  unfold getForwardFd
  rw [Slots.forEach_contents, chooseFd, walk_found attached h.unique rfl, if_pos]
  simp only [Http3Ctx.attachment]
  omega

theorem getForwardFd_fallback {attachments : Slots Attachment} {nodeId : UInt64}
    {threadId : UInt32} (allowThreadFallback : Bool)
    (absent : ∀ a ∈ attachments.contents, a.key ≠ (nodeId, threadId)) :
    getForwardFd attachments nodeId threadId allowThreadFallback = -1 ∨
      ∃ a ∈ attachments.contents, a.nodeId = nodeId ∧
        getForwardFd attachments nodeId threadId allowThreadFallback = a.forwardFd := by
  unfold getForwardFd
  rw [Slots.forEach_contents]
  obtain ⟨last, result, chosen⟩ := walk_fallback (-1) (-1) absent
  rw [result]
  exact chosen

theorem Attached.apart (h : Attached t) : t.attachments.contents.Pairwise fun a b =>
    (a.nodeId, a.threadId) ≠ (b.nodeId, b.threadId) ∧ a.forwardFd ≠ b.forwardFd ∧
      a.ctx ≠ b.ctx := by
  have keys := List.pairwise_map.mp h.unique
  refine keys.imp_of_mem ?_
  intro a b left right other
  obtain ⟨c, first, rfl⟩ := h.live a left
  obtain ⟨d, second, rfl⟩ := h.live b right
  refine ⟨other, ?_, ?_⟩
  · intro same
    rw [h.same_of_forwardFd first second same] at other
    exact other rfl
  · intro same
    rw [h.same_of_address first second (Option.some.inj same)] at other
    exact other rfl

theorem Attached.findCtx (h : Attached t) {c : Http3Ctx} (member : c ∈ t.contexts) :
    findCtx t.contexts c.address = some c := by
  cases found : UdpTransport.findCtx t.contexts c.address with
  | none => exact absurd (decide_eq_true rfl) (List.find?_eq_none.mp found c member)
  | some d =>
    have ⟨inside, same⟩ := mem_of_findCtx found
    rw [h.same_of_address inside member same]

/-- After any calls of attach, activate, stop accepting and detach. -/
theorem routes_of_reachable (t : Transport) (reached : transport.Reachable t) : Routes t := by
  have h := attached_of_reachable reached
  refine ⟨h.apart, fun a => h.getForwardFd_found, ?_, ?_, ?_⟩
  · intro nodeId threadId allowThreadFallback absent
    exact getForwardFd_fallback allowThreadFallback absent
  · intro a attached
    obtain ⟨c, inside, rfl⟩ := h.live a attached
    exact ⟨c, inside, rfl, h.accepting c inside attached⟩
  · intro c member
    refine ⟨?_, h.unregistered member, rfl, rfl⟩
    rw [UdpTransport.step, h.findCtx member]
    rfl

/-- Every call inside an attach succeeds. -/
def supplied (address : ℕ) (forwardFd : ℤ) : Supplies :=
  ⟨true, true, some address, some forwardFd, true, true, true⟩

/-- A reload of a generation of two workers, whose first worker is attached again. -/
def reloaded : List Op :=
  [.attach 1 0 (supplied 1 10), .attach 1 1 (supplied 2 11), .activate 1,
    .attach 2 0 (supplied 3 12), .attach 2 1 (supplied 4 13), .activate 2,
    .stopAccepting (some 1), .attach 2 0 (supplied 5 14), .detach (some 1), .detach (some 3)]

theorem reloaded_routes : Routes (transport.runFrom reloaded openUdpTransport) ∧
    ((transport.runFrom reloaded openUdpTransport).contexts.map fun c => (c.address, c.acceptor)) =
      [(5, none), (4, some .onHttp3Accept), (2, none)] :=
  ⟨routes_of_reachable _ (Machine.Reachable.runFrom reloaded (.init rfl)), by decide⟩

end Busker.UdpTransport
