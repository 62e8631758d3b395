import Busker.Interleaving.Machine
import Mathlib.Logic.Function.Basic

/-! The pool of listener resources that generations share (`ol.busker.listen`), one
program point for each monitor entry, pool update and system call. The pool's lock
covers the update of its state and, inside it, the opening of a resource; a resource
is closed, and its socket path unlinked, after the lock is left. `ι` names the calling
threads and `φ` the directory entries that paths resolve to. -/

namespace Busker.ListenerPool

open Interleaving

inductive Transport
  | tcp | udp
  | other (name : String)
  deriving DecidableEq, Repr

structure Listener where
  transport : Option Transport
  unix : Option String
  host : Option String
  port : ℕ
  deriving DecidableEq, Repr

inductive ListenerKey
  | unix (transport : Transport) (path : String)
  | inet (transport : Transport) (host : String) (port : ℕ)
  deriving DecidableEq, Repr

def listenerKey (listener : Listener) : ListenerKey :=
  match listener.unix with
  | some path => .unix (listener.transport.getD .tcp) path
  | none => .inet (listener.transport.getD .tcp) (listener.host.getD "0.0.0.0") listener.port

/-- A key as `acquire-claim` receives it, which takes its `listener-key` again. -/
def ListenerKey.listener : ListenerKey → Listener
  | .unix transport path => ⟨some transport, some path, none, 0⟩
  | .inet transport host port => ⟨some transport, none, some host, port⟩

@[simp] theorem listenerKey_listener (key : ListenerKey) : listenerKey key.listener = key := by
  cases key <;> rfl

def isAbstract (path : String) : Bool := path.toList.head? == some '@'

/-- The file-system path a key's socket is bound to, if there is one. -/
def ListenerKey.socketPath : ListenerKey → Option String
  | .unix _ path => if isAbstract path then none else some path
  | .inet .. => none

/-- An entry of the pool's `state`. A resource is named by its place in `opened`, as
descriptor numbers are used again. -/
structure Entry where
  resource : ℕ
  refCount : ℕ
  deriving DecidableEq, Repr

structure Claim where
  key : ListenerKey
  resource : ℕ
  released : Bool
  deriving DecidableEq, Repr

/-- What a directory entry is; `socket none` is a socket this pool did not bind. -/
inductive Node
  | absent
  | socket (resource : Option ℕ)
  | other
  deriving DecidableEq, Repr

/-- The pool and the directory. `opened` and `closes` record the resources that were
opened, with their keys, and the calls that closed one. -/
structure Store (ι φ : Type*) where
  lock : Option ι
  state : ListenerKey → Option Entry
  claims : List Claim
  files : φ → Node
  opened : List ListenerKey
  closes : List ℕ

/-- Where a calling thread stands: in `acquire-claim` and inside it `open-resource`, for
file-system sockets `clj_h2o_open_unix_listener`, or in `release!` and after it
`close-resource!`. -/
inductive Caller
  | idle
  | acquireLock (key : ListenerKey)
  | acquireGet (key : ListenerKey)
  | openOther (key : ListenerKey)
  | openLstat (key : ListenerKey) (path : String)
  | openUnlink (key : ListenerKey) (path : String)
  | openSocket (key : ListenerKey) (path : String)
  | openBind (key : ListenerKey) (path : String)
  | openListen (key : ListenerKey) (path : String)
  | openCleanup (key : ListenerKey) (path : String)
  | acquireAssoc (key : ListenerKey)
  | acquireFailed (key : ListenerKey)
  | acquireUnlock (key : ListenerKey) (resource : ℕ)
  | releaseSwap (claim : ℕ)
  | releaseLock (key : ListenerKey)
  | releaseUpdate (key : ListenerKey)
  | releaseUnlock (key : ListenerKey) (resourceToClose : Option ℕ)
  | closeResource (key : ListenerKey) (resource : ℕ)
  | closeLstat (path : String)
  | closeUnlink (path : String)
  deriving DecidableEq, Repr

/-- `fail` is a system call that does not succeed. -/
inductive Move
  | acquireClaim (listener : Listener)
  | release (claim : ℕ)
  | tick
  | fail
  deriving DecidableEq, Repr

/-- `open-resource`: which native call opens a key, none for an unsupported transport. -/
def openResource : ListenerKey → Caller
  | .unix transport path =>
    if isAbstract path then .openOther (.unix transport path)
    else .openLstat (.unix transport path) path
  | .inet .tcp host port => .openOther (.inet .tcp host port)
  | .inet .udp host port => .openOther (.inet .udp host port)
  | .inet (.other name) host port => .acquireFailed (.inet (.other name) host port)

variable {ι φ : Type*}

namespace Store

def setState (s : Store ι φ) (key : ListenerKey) (entry : Option Entry) : Store ι φ :=
  { s with state := Function.update s.state key entry }

@[simp] theorem setState_state_self (s : Store ι φ) (key : ListenerKey) (entry : Option Entry) :
    (s.setState key entry).state key = entry := Function.update_self ..

theorem setState_state_of_ne (s : Store ι φ) {key k : ListenerKey} (other : k ≠ key)
    (entry : Option Entry) : (s.setState key entry).state k = s.state k :=
  Function.update_of_ne other ..

def setFile [DecidableEq φ] (s : Store ι φ) (f : φ) (node : Node) : Store ι φ :=
  { s with files := Function.update s.files f node }

@[simp] theorem setFile_files_self [DecidableEq φ] (s : Store ι φ) (f : φ) (node : Node) :
    (s.setFile f node).files f = node := Function.update_self ..

def refCount (s : Store ι φ) (key : ListenerKey) : ℕ := (s.state key).elim 0 Entry.refCount

end Store

variable [DecidableEq φ]

def lockStep (i : ι) (s : Store ι φ) (next : Caller) : Option (Store ι φ × Caller) :=
  match s.lock with
  | none => some ({ s with lock := some i }, next)
  | some _ => none

/-- The update of `release!` under the lock: an entry that others still hold loses one
reference, the last one is taken out and its resource is to be closed. -/
def releaseUpdate (s : Store ι φ) (key : ListenerKey) : Store ι φ × Caller :=
  match s.state key with
  | none => (s, .releaseUnlock key none)
  | some entry =>
    if 1 < entry.refCount then
      (s.setState key (some { entry with refCount := entry.refCount - 1 }), .releaseUnlock key none)
    else (s.setState key none, .releaseUnlock key (some entry.resource))

/-- The update of `acquire-claim` under the lock when the key has an entry already. -/
def acquireGet (s : Store ι φ) (key : ListenerKey) : Store ι φ × Caller :=
  match s.state key with
  | some entry =>
    (s.setState key (some { entry with refCount := entry.refCount + 1 }),
      .acquireUnlock key entry.resource)
  | none => (s, openResource key)

/-- `lstat` before `bind`: a socket left behind is unlinked, anything else is kept. -/
def openLstat (key : ListenerKey) (path : String) : Node → Caller
  | .absent => .openSocket key path
  | .socket _ => .openUnlink key path
  | .other => .acquireFailed key

/-- `bind` makes the socket's directory entry, if there is none. -/
def openBind (s : Store ι φ) (f : φ) (key : ListenerKey) (path : String) : Store ι φ × Caller :=
  match s.files f with
  | .absent => (s.setFile f (.socket (some s.opened.length)), .openListen key path)
  | .socket _ => (s, .openCleanup key path)
  | .other => (s, .openCleanup key path)

/-- `clj_h2o_unlink_unix_socket_if_still_socket` looks before it unlinks. -/
def closeLstat (path : String) : Node → Caller
  | .socket _ => .closeUnlink path
  | .absent => .idle
  | .other => .idle

/-- The compare-and-set of a claim's `released?`: only the first release goes on. -/
def releaseSwap (s : Store ι φ) (claim : ℕ) : Store ι φ × Caller :=
  match s.claims[claim]? with
  | some c =>
    if c.released then (s, .idle)
    else ({ s with claims := s.claims.set claim { c with released := true } }, .releaseLock c.key)
  | none => (s, .idle)

def afterClose (key : ListenerKey) : Caller := key.socketPath.elim .idle .closeLstat

/-- One atomic step of a calling thread; `file` resolves a path to a directory entry. -/
def callerStep (file : String → φ) (i : ι) (s : Store ι φ) :
    Caller → Move → Option (Store ι φ × Caller)
  | .idle, .acquireClaim listener => some (s, .acquireLock (listenerKey listener))
  | .idle, .release claim => if claim < s.claims.length then some (s, .releaseSwap claim) else none
  | .acquireLock key, .tick => lockStep i s (.acquireGet key)
  | .acquireGet key, .tick => some (acquireGet s key)
  | .openOther key, .tick => some (s, .acquireAssoc key)
  | .openOther key, .fail => some (s, .acquireFailed key)
  | .openLstat key path, .tick => some (s, openLstat key path (s.files (file path)))
  | .openLstat key path, .fail => some (s, .openSocket key path)
  -- the result of this unlink is not looked at
  | .openUnlink key path, .tick => some (s.setFile (file path) .absent, .openSocket key path)
  | .openUnlink key path, .fail => some (s, .openSocket key path)
  | .openSocket key path, .tick => some (s, .openBind key path)
  | .openSocket key _, .fail => some (s, .acquireFailed key)
  | .openBind key path, .tick => some (openBind s (file path) key path)
  | .openBind key path, .fail => some (s, .openCleanup key path)
  | .openListen key _, .tick => some (s, .acquireAssoc key)
  | .openListen key path, .fail => some (s, .openCleanup key path)
  | .openCleanup key path, .tick => some (s.setFile (file path) .absent, .acquireFailed key)
  | .openCleanup key _, .fail => some (s, .acquireFailed key)
  | .acquireAssoc key, .tick =>
    some ({ s.setState key (some ⟨s.opened.length, 1⟩) with opened := s.opened ++ [key] },
      .acquireUnlock key s.opened.length)
  | .acquireFailed _, .tick => some ({ s with lock := none }, .idle)
  | .acquireUnlock key resource, .tick =>
    some ({ s with lock := none, claims := s.claims ++ [⟨key, resource, false⟩] }, .idle)
  | .releaseSwap claim, .tick => some (releaseSwap s claim)
  | .releaseLock key, .tick => lockStep i s (.releaseUpdate key)
  | .releaseUpdate key, .tick => some (releaseUpdate s key)
  | .releaseUnlock key toClose, .tick =>
    some ({ s with lock := none }, toClose.elim .idle (.closeResource key))
  | .closeResource key resource, .tick =>
    some ({ s with closes := s.closes ++ [resource] }, afterClose key)
  | .closeLstat path, .tick => some (s, closeLstat path (s.files (file path)))
  | .closeUnlink path, .tick => some (s.setFile (file path) .absent, .idle)
  -- lstat() or unlink() failing throws out of release!
  | .closeLstat _, .fail => some (s, .idle)
  | .closeUnlink _, .fail => some (s, .idle)
  | _, _ => none

structure State (ι φ : Type*) where
  store : Store ι φ
  callers : ι → Caller

variable [DecidableEq ι]

def stepFn (file : String → φ) (a : ι × Move) (s : State ι φ) : Option (State ι φ) :=
  (callerStep file a.1 s.store (s.callers a.1) a.2).map fun next =>
    ⟨next.1, Function.update s.callers a.1 next.2⟩

theorem stepFn_eq {file : String → φ} {a : ι × Move} {s t : State ι φ}
    (moves : stepFn file a s = some t) :
    ∃ u q, callerStep file a.1 s.store (s.callers a.1) a.2 = some (u, q) ∧
      t = ⟨u, Function.update s.callers a.1 q⟩ := by
  obtain ⟨⟨u, q⟩, moved, rfl⟩ := Option.map_eq_some_iff.mp moves
  exact ⟨u, q, moved, rfl⟩

/-- `open-pool` over any directory. -/
def openPool (files : φ → Node) : State ι φ :=
  ⟨⟨none, fun _ => none, [], files, [], []⟩, fun _ => .idle⟩

def machine (file : String → φ) : Machine (State ι φ) (ι × Move) where
  init s := ∃ files, s = openPool files
  step := stepFn file

end Busker.ListenerPool
