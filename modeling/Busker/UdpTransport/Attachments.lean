import Busker.Interleaving.Machine
import Busker.SlotArray.Slots
import Mathlib.Data.Int.Notation

/-! The UDP transport that the HTTP/3 workers of all generations share
(`clj_http3_udp_transport_t`): each worker's context is attached under its generation
(`node_id`) and thread, datagrams for another worker are forwarded to the descriptor of
its attachment, and activating a generation hands it the acceptor. The transport's mutex
is a plain one, so locking it does not fail. -/

namespace Busker.UdpTransport

open Interleaving SlotArray

inductive Acceptor
  | onHttp3Accept
  deriving DecidableEq, Repr

/-- `clj_http3_transport_attachment_t`; a context is referred to by its address. -/
structure Attachment where
  nodeId : UInt64
  threadId : UInt32
  forwardFd : ℤ
  ctx : Option ℕ
  deriving DecidableEq, Repr

/-- What an attached `clj_http3_ctx_t` holds of its attachment, and its acceptor. -/
structure Http3Ctx where
  address : ℕ
  nodeId : UInt64
  threadId : UInt32
  forwardFd : ℤ
  acceptor : Option Acceptor
  deriving DecidableEq, Repr

/-- The transport and the contexts that are attached to it and not yet freed. -/
structure Transport where
  attachments : Slots Attachment
  activeNodeId : UInt64
  contexts : List Http3Ctx

/-- `clj_h2o_http3_open_udp_transport` clears all fields. -/
def openUdpTransport : Transport where
  attachments := ⟨fun _ => ⟨0, 0, 0, none⟩, 0, 0, Nat.le_refl 0⟩
  activeNodeId := 0
  contexts := []

def Attachment.isAt (nodeId : UInt64) (threadId : UInt32) (attachment : Attachment) : Bool :=
  attachment.nodeId == nodeId && attachment.threadId == threadId

def newCapacity (capacity : ℕ) : ℕ := if capacity = 0 then 8 else capacity * 2

theorem lt_newCapacity (capacity : ℕ) : capacity < newCapacity capacity := by
  unfold newCapacity
  split <;> omega

/-- `clj_http3_transport_register_attachment`, where `realloc` says whether there is memory. -/
def registerAttachment (realloc : Bool) (attachments : Slots Attachment) (new : Attachment) :
    Option (Slots Attachment) :=
  match attachments.firstIndex (Attachment.isAt new.nodeId new.threadId) with
  | some slot => some (attachments.store slot new)
  | none =>
    if full : attachments.length = attachments.capacity then
      if realloc then
        have larger := full ▸ lt_newCapacity attachments.capacity
        let grown := attachments.grow (newCapacity attachments.capacity) (Nat.le_of_lt larger)
        some ((grown.extend larger).store attachments.length new)
      else none
    else
      let extended := attachments.extend (Nat.lt_of_le_of_ne attachments.fits full)
      some (extended.store attachments.length new)

/-- The loop of `clj_http3_transport_get_forward_fd`, on `fd` and `fallback_fd`. -/
def forwardFdStep (nodeId : UInt64) (threadId : UInt32) (allowThreadFallback : Bool)
    (attachment : Attachment) : ℤ × ℤ → ForInStep (ℤ × ℤ)
  | (fd, fallbackFd) =>
    if attachment.nodeId = nodeId then
      let fallbackFd :=
        if allowThreadFallback && fallbackFd == -1 then attachment.forwardFd else fallbackFd
      if attachment.threadId = threadId then .done (attachment.forwardFd, fallbackFd)
      else .yield (fd, fallbackFd)
    else .yield (fd, fallbackFd)

def chooseFd : ℤ × ℤ → ℤ
  | (fd, fallbackFd) => if fd ≠ -1 then fd else fallbackFd

/-- `clj_http3_transport_get_forward_fd` -/
def getForwardFd (attachments : Slots Attachment) (nodeId : UInt64) (threadId : UInt32)
    (allowThreadFallback : Bool) : ℤ :=
  chooseFd (Slots.forEach (forwardFdStep nodeId threadId allowThreadFallback)
    attachments.slot attachments.length 0 (-1, -1))

/-- `clj_http3_transport_unregister_attachment` -/
def unregisterAttachment (attachments : Slots Attachment) (nodeId : UInt64) (threadId : UInt32)
    (forwardFd : ℤ) : Slots Attachment :=
  match attachments.firstIndex fun a => a.isAt nodeId threadId && a.forwardFd == forwardFd with
  | some idx => attachments.remove idx
  | none => attachments

/-- What the calls inside an attach give: an address for the context, a descriptor to
forward to, and whether the others succeed. -/
structure Supplies where
  cidKeySet : Bool
  workerFd : Bool
  workerCtx : Option ℕ
  forwardFds : Option ℤ
  fdFlagsSet : Bool
  forwardedSock : Bool
  realloc : Bool
  deriving DecidableEq, Repr

/-- Memory and descriptors are handed out to one context at a time. -/
def Supplies.Fresh (supplies : Supplies) (contexts : List Http3Ctx) : Prop :=
  (∀ c ∈ contexts, supplies.workerCtx ≠ some c.address ∧ supplies.forwardFds ≠ some c.forwardFd) ∧
    ∀ fd ∈ supplies.forwardFds, 0 ≤ fd

instance (supplies : Supplies) (contexts : List Http3Ctx) : Decidable (supplies.Fresh contexts) :=
  inferInstanceAs (Decidable (_ ∧ _))

/-- `clj_h2o_http3_attach_udp_transport`; a new context has no acceptor. -/
def attachUdpTransport (t : Transport) (nodeId : UInt64) (threadId : UInt32)
    (supplies : Supplies) : Transport × Option ℕ :=
  if !supplies.cidKeySet then (t, none)
  else if !supplies.workerFd then (t, none)
  else match supplies.workerCtx with
    | none => (t, none)
    | some address => match supplies.forwardFds with
      | none => (t, none)
      | some forwardFd =>
        if !supplies.fdFlagsSet then (t, none)
        else if !supplies.forwardedSock then (t, none)
        else
          let new : Attachment := ⟨nodeId, threadId, forwardFd, some address⟩
          match registerAttachment supplies.realloc t.attachments new with
          | none => (t, none)
          | some attachments =>
            let ctx : Http3Ctx := ⟨address, nodeId, threadId, forwardFd, none⟩
            ({ t with attachments := attachments, contexts := ctx :: t.contexts }, some address)

def setAcceptor (address : ℕ) (acceptor : Option Acceptor) (c : Http3Ctx) : Http3Ctx :=
  if c.address = address then { c with acceptor := acceptor } else c

/-- The loop of `clj_h2o_http3_activate_udp_transport_generation`. -/
def activateStep (nodeId : UInt64) (attachment : Attachment) (contexts : List Http3Ctx) :
    ForInStep (List Http3Ctx) :=
  match attachment.ctx with
  | none => .yield contexts
  | some address =>
    .yield (contexts.map (setAcceptor address
      (if attachment.nodeId = nodeId then some .onHttp3Accept else none)))

/-- `clj_h2o_http3_activate_udp_transport_generation` -/
def activateGeneration (t : Transport) (nodeId : UInt64) : Transport :=
  { t with
    activeNodeId := nodeId
    contexts := Slots.forEach (activateStep nodeId) t.attachments.slot t.attachments.length 0
      t.contexts }

/-- `clj_h2o_http3_stop_accepting` -/
def stopAccepting (t : Transport) (ctx : Http3Ctx) : Transport :=
  { t with contexts := t.contexts.map (setAcceptor ctx.address none) }

/-- `clj_h2o_http3_detach_udp_transport`, which frees the context. -/
def detachUdpTransport (t : Transport) (ctx : Http3Ctx) : Transport :=
  { t with
    attachments :=
      if ctx.forwardFd ≠ -1 then
        unregisterAttachment t.attachments ctx.nodeId ctx.threadId ctx.forwardFd
      else t.attachments
    contexts := t.contexts.filter fun c => c.address ≠ ctx.address }

/-- A call on the transport; `none` is the null pointer for a context. -/
inductive Op
  | attach (nodeId : UInt64) (threadId : UInt32) (supplies : Supplies)
  | activate (nodeId : UInt64)
  | stopAccepting (ctx : Option ℕ)
  | detach (ctx : Option ℕ)
  deriving DecidableEq, Repr

def findCtx (contexts : List Http3Ctx) (address : ℕ) : Option Http3Ctx :=
  contexts.find? fun c => c.address = address

def step : Op → Transport → Option Transport
  | .attach nodeId threadId supplies, t =>
    if supplies.Fresh t.contexts then some (attachUdpTransport t nodeId threadId supplies).1
    else none
  | .activate nodeId, t => some (activateGeneration t nodeId)
  | .stopAccepting none, t => some t
  | .stopAccepting (some address), t => (findCtx t.contexts address).map (stopAccepting t)
  | .detach none, t => some t
  | .detach (some address), t => (findCtx t.contexts address).map (detachUdpTransport t)

def transport : Machine Transport Op where
  init t := t = openUdpTransport
  step := step

end Busker.UdpTransport
