import Mathlib.Data.List.Induction
import Busker.Addresses.AuthorityExact
import Busker.Addresses.Conflicts

/-! The entrypoint a request is resolved to, which is inferred from the port its client names. -/
namespace Busker.Addresses
open Busker.FixedFinal (JavaString ascii)

/-- An entrypoint of the configuration, and whether its `:tls` is a map. -/
structure Entrypoint (ε : Type) where
  id : ε
  bind : BindValue
  tls : Bool

/-- A listener; one on a Unix path has no port. -/
structure Listener (ε : Type) where
  entrypoint : ε
  host : Option JavaString
  port : Option ℕ
  unix : Option JavaString
  deriving DecidableEq

section
variable {ε : Type}

/-- `entrypoint->listeners` -/
def Entrypoint.listeners (entrypoint : Entrypoint ε) : Except Thrown (List (Listener ε)) := do
  let parsed ← ((bindValues entrypoint.bind).getD []).mapM parseElement
  return parsed.flatMap fun bind =>
    let hosts := match unixOf bind with
      | some _ => [none]
      | none => (listenerHosts (addressOf bind)).map some
    hosts.map fun host => ⟨entrypoint.id, host, portOf bind, unixOf bind⟩

/-- `config->listeners` -/
def configListeners (entrypoints : List (Entrypoint ε)) : Except Thrown (List (Listener ε)) := do
  let listeners ← entrypoints.mapM Entrypoint.listeners
  return listeners.flatten

/-- `entrypoint-scheme` -/
def Entrypoint.scheme (entrypoint : Entrypoint ε) : String :=
  if entrypoint.tls then "https" else "http"

/-- What the resolver reads of a Ring request. -/
structure RingRequest where
  serverName : JavaString
  serverPort : ℕ
  scheme : String
  deriving DecidableEq, Repr

def defaultServerPort (scheme : Option String) : ℕ := if scheme = some "https" then 443 else 80

/-- `assemble-ring-request`, from the scheme and the authority. -/
def assembleRingRequest (ipStringToBytes : ParseIp) (scheme : Option String)
    (authority : Option JavaString) : Except Thrown RingRequest := do
  let parsed ← parseAuthority ipStringToBytes authority (defaultServerPort scheme)
  return ⟨parsed.serverName, parsed.serverPort, scheme.getD "http"⟩

/-- The map from ports to entrypoints; of several listeners on a port the last counts. -/
def byPort (listeners : List (Listener ε)) : ℕ → Option ε :=
  listeners.foldl (fun entries listener port =>
    if listener.port = some port then some listener.entrypoint else entries port) fun _ => none

/-- The entrypoint that is alone with its scheme. -/
def singleton (entrypoints : List (Entrypoint ε)) (scheme : String) : Option ε :=
  match entrypoints.filter fun entrypoint => entrypoint.scheme = scheme with
  | [entrypoint] => some entrypoint.id
  | _ => none

/-- The function `build-entrypoint-resolver` returns. Requests come without an entrypoint. -/
def resolveEntrypoint (entrypoints : List (Entrypoint ε)) (listeners : List (Listener ε))
    (req : RingRequest) : Option ε :=
  let fallback := entrypoints.head?.map Entrypoint.id
  if entrypoints.length = 1 then fallback
  else byPort listeners req.serverPort <|> singleton entrypoints req.scheme <|> fallback

/-- The entrypoint a request with a scheme and an authority is dispatched with. -/
def requestEntrypoint (ipStringToBytes : ParseIp) (entrypoints : List (Entrypoint ε))
    (scheme : Option String) (authority : Option JavaString) : Except Thrown (Option ε) := do
  let listeners ← configListeners entrypoints
  let req ← assembleRingRequest ipStringToBytes scheme authority
  return resolveEntrypoint entrypoints listeners req

/-- Listeners on one port belong to one entrypoint, and every listener has a port. -/
def DistinguishableByPort (listeners : List (Listener ε)) : Prop :=
  ∀ x ∈ listeners, x.port ≠ none ∧ ∀ y ∈ listeners, x.port = y.port → x.entrypoint = y.entrypoint

/-- The port a client asks for: the one in its authority, or the default. -/
inductive RequestedPort (s : JavaString) (defaultPort : ℕ) : ℕ → Prop
  | named {host port} (valid : Authority s host (some port)) : RequestedPort s defaultPort port
  | unnamed (portless : ¬ ∃ host port, Authority s host (some port)) :
      RequestedPort s defaultPort defaultPort

/-- The port a client asks for leads to an entrypoint: it is a port of that entrypoint, or of
none and the entrypoint is alone with the scheme, or the first and none is alone with it. -/
structure LeadsTo (entrypoints : List (Entrypoint ε)) (listeners : List (Listener ε))
    (scheme : Option String) (authority : Option JavaString) (entrypoint : ε) : Prop where
  within : ¬ PortBeyondLong (authority.getD [])
  port : ∀ port, RequestedPort (authority.getD []) (defaultServerPort scheme) port →
    (∃ l ∈ listeners, l.port = some port ∧ l.entrypoint = entrypoint) ∨
      (∀ l ∈ listeners, l.port ≠ some port) ∧
        (singleton entrypoints (scheme.getD "http") = some entrypoint ∨
          singleton entrypoints (scheme.getD "http") = none ∧
            entrypoints.head?.map Entrypoint.id = some entrypoint)

theorem byPort_concat (listeners : List (Listener ε)) (last : Listener ε) (port : ℕ) :
    byPort (listeners ++ [last]) port =
      if last.port = some port then some last.entrypoint else byPort listeners port := by
  unfold byPort
  rw [List.foldl_append]
  rfl

theorem byPort_eq_none {listeners : List (Listener ε)} {port : ℕ} :
    byPort listeners port = none ↔ ∀ l ∈ listeners, l.port ≠ some port := by
  induction listeners using List.reverseRecOn with
  | nil => simp [byPort]
  | append_singleton listeners last ih =>
      rw [byPort_concat]
      by_cases same : last.port = some port
      · rw [if_pos same]
        simp only [reduceCtorEq, false_iff, not_forall]
        exact ⟨last, by simp, not_not.mpr same⟩
      · rw [if_neg same, ih]
        constructor
        · intro others l mem
          rcases List.mem_append.mp mem with earlier | final
          · exact others l earlier
          · rwa [List.mem_singleton.mp final]
        · exact fun all l mem => all l (List.mem_append_left _ mem)

theorem mem_of_byPort {listeners : List (Listener ε)} {port : ℕ} {entrypoint : ε}
    (found : byPort listeners port = some entrypoint) :
    ∃ l ∈ listeners, l.port = some port ∧ l.entrypoint = entrypoint := by
  induction listeners using List.reverseRecOn with
  | nil => cases found
  | append_singleton listeners last ih =>
      rw [byPort_concat] at found
      split at found
      · rename_i same
        exact ⟨last, by simp, same, Option.some.inj found⟩
      · obtain ⟨l, mem, same⟩ := ih found
        exact ⟨l, List.mem_append_left _ mem, same⟩

/-- With ports told apart, the map from ports has the entrypoint of any listener on a port. -/
theorem byPort_of_mem {listeners : List (Listener ε)} (distinct : DistinguishableByPort listeners)
    {l : Listener ε} {port : ℕ} (mem : l ∈ listeners) (same : l.port = some port) :
    byPort listeners port = some l.entrypoint := by
  cases found : byPort listeners port with
  | none => exact (byPort_eq_none.mp found l mem same).elim
  | some entrypoint =>
      obtain ⟨other, mem', same', rfl⟩ := mem_of_byPort found
      rw [(distinct other mem').2 l mem (same'.trans same.symm)]

theorem resolveEntrypoint_iff {entrypoints : List (Entrypoint ε)} {listeners : List (Listener ε)}
    (several : entrypoints.length ≠ 1) (distinct : DistinguishableByPort listeners)
    (req : RingRequest) (entrypoint : ε) :
    resolveEntrypoint entrypoints listeners req = some entrypoint ↔
      (∃ l ∈ listeners, l.port = some req.serverPort ∧ l.entrypoint = entrypoint) ∨
        (∀ l ∈ listeners, l.port ≠ some req.serverPort) ∧
          (singleton entrypoints req.scheme = some entrypoint ∨
            singleton entrypoints req.scheme = none ∧
              entrypoints.head?.map Entrypoint.id = some entrypoint) := by
  unfold resolveEntrypoint
  rw [if_neg several]
  cases found : byPort listeners req.serverPort with
  | some other =>
      obtain ⟨l, mem, same, rfl⟩ := mem_of_byPort found
      have taken : ¬ ∀ l ∈ listeners, l.port ≠ some req.serverPort := fun none => none l mem same
      simp only [taken, false_and, or_false]
      constructor
      · intro chosen
        exact ⟨l, mem, same, Option.some.inj chosen⟩
      · rintro ⟨l', mem', same', rfl⟩
        rw [← found, byPort_of_mem distinct mem' same']
        rfl
  | none =>
      have free := byPort_eq_none.mp found
      have untaken : ¬ ∃ l ∈ listeners, l.port = some req.serverPort ∧ l.entrypoint = entrypoint := by
        rintro ⟨l, mem, same, -⟩
        exact free l mem same
      rw [or_iff_right untaken, and_iff_right free]
      cases singleton entrypoints req.scheme with
      | some alone => simp
      | none => simp

/-- The port of the result is the one the client asks for. -/
theorem RequestedPort.unique {s : JavaString} {defaultPort port : ℕ} {result : AuthorityResult}
    (denoted : Denoted s defaultPort result) (requested : RequestedPort s defaultPort port) :
    port = result.serverPort := by
  cases requested with
  | named valid => rw [denoted.split _ _ valid]; rfl
  | unnamed portless =>
      by_cases valid : ∃ host port, Authority s host port
      · obtain ⟨host, port, valid⟩ := valid
        cases port with
        | none => rw [denoted.split _ _ valid]; rfl
        | some port => exact (portless ⟨host, port, valid⟩).elim
      · cases ink : isBlank s with
        | true => rw [denoted.blank ink]
        | false => rw [denoted.unsplit ink valid]

theorem RequestedPort.serverPort {s : JavaString} {defaultPort : ℕ} {result : AuthorityResult}
    (denoted : Denoted s defaultPort result) : RequestedPort s defaultPort result.serverPort := by
  by_cases named : ∃ host port, Authority s host (some port)
  · obtain ⟨host, port, valid⟩ := named
    rw [denoted.split _ _ valid]
    exact .named valid
  · rw [← (RequestedPort.unnamed named).unique denoted]
    exact .unnamed named

/-- The request of a client is dispatched with an entrypoint exactly if its port leads there. -/
theorem requestEntrypoint_iff {ipStringToBytes : ParseIp}
    (ipv6 : ∀ s, unit ':' ∈ s → unit '%' ∉ s → ((ipStringToBytes s).isSome ↔ Ipv6Text s))
    {entrypoints : List (Entrypoint ε)} {listeners : List (Listener ε)}
    (several : entrypoints.length ≠ 1) (configured : configListeners entrypoints = .ok listeners)
    (distinct : DistinguishableByPort listeners) (scheme : Option String)
    (authority : Option JavaString) (entrypoint : ε) :
    requestEntrypoint ipStringToBytes entrypoints scheme authority = .ok (some entrypoint) ↔
      LeadsTo entrypoints listeners scheme authority entrypoint := by
  unfold requestEntrypoint assembleRingRequest
  rw [configured]
  rcases parseAuthority_cases ipv6 authority (defaultServerPort scheme) with
    ⟨result, parsed, denoted⟩ | ⟨thrown, beyond⟩
  · rw [parsed]
    have evaluated : (do
        let req ← (do
          let parsed ← Except.ok result
          return ⟨parsed.serverName, parsed.serverPort, scheme.getD "http"⟩ : Except Thrown RingRequest)
        return resolveEntrypoint entrypoints listeners req) = .ok (some entrypoint) ↔
          resolveEntrypoint entrypoints listeners
            ⟨result.serverName, result.serverPort, scheme.getD "http"⟩ = some entrypoint :=
      ⟨Except.ok.inj, congrArg Except.ok⟩
    apply evaluated.trans
    rw [resolveEntrypoint_iff several distinct]
    constructor
    · intro leads
      refine ⟨?_, ?_⟩
      · intro beyond
        rw [parseAuthority_beyond beyond] at parsed
        cases parsed
      · intro port requested
        rw [requested.unique denoted]
        exact leads
    · exact fun leads => leads.port _ (RequestedPort.serverPort denoted)
  · rw [thrown]
    constructor
    · intro resolved
      cases resolved
    · exact fun leads => (leads.within beyond).elim

/-- Whatever two clients of a listener send, both requests are dispatched with its entrypoint
exactly if the port each asks for leads there. -/
theorem entrypointOfListener_iff {ipStringToBytes : ParseIp}
    (ipv6 : ∀ s, unit ':' ∈ s → unit '%' ∉ s → ((ipStringToBytes s).isSome ↔ Ipv6Text s))
    {entrypoints : List (Entrypoint ε)} {listeners : List (Listener ε)}
    (several : entrypoints.length ≠ 1) (configured : configListeners entrypoints = .ok listeners)
    (distinct : DistinguishableByPort listeners) (listener : Listener ε) (_ : listener ∈ listeners)
    (scheme : Option String) (authority authority' : Option JavaString) :
    requestEntrypoint ipStringToBytes entrypoints scheme authority = .ok (some listener.entrypoint) ∧
        requestEntrypoint ipStringToBytes entrypoints scheme authority' =
          .ok (some listener.entrypoint) ↔
      LeadsTo entrypoints listeners scheme authority listener.entrypoint ∧
        LeadsTo entrypoints listeners scheme authority' listener.entrypoint :=
  and_congr (requestEntrypoint_iff ipv6 several configured distinct scheme authority _)
    (requestEntrypoint_iff ipv6 several configured distinct scheme authority' _)

end

/-- A public and an administrative entrypoint, on ports 80 and 8080. -/
def twoEntrypoints : List (Entrypoint ℕ) :=
  [⟨0, .text (ascii "1.2.3.4:80"), false⟩, ⟨1, .text (ascii "1.2.3.4:8080"), false⟩]

def theirListeners : List (Listener ℕ) :=
  [⟨0, some (ascii "1.2.3.4"), some 80, none⟩, ⟨1, some (ascii "1.2.3.4"), some 8080, none⟩]

theorem theirListeners_configured : configListeners twoEntrypoints = .ok theirListeners := by
  decide +kernel

theorem theirListeners_distinct : DistinguishableByPort theirListeners := by
  unfold DistinguishableByPort theirListeners
  decide

theorem publicListener_leads :
    LeadsTo twoEntrypoints theirListeners (some "http") (some (ascii "a.example")) 0 ∧
      LeadsTo twoEntrypoints theirListeners (some "http") (some (ascii "a.example:80")) 0 :=
  (entrypointOfListener_iff (fun s _ _ => ipv6Only_isSome s) (by decide) theirListeners_configured
    theirListeners_distinct ⟨0, some (ascii "1.2.3.4"), some 80, none⟩ List.mem_cons_self
    (some "http") (some (ascii "a.example")) (some (ascii "a.example:80"))).mp
      ⟨by decide +kernel, by decide +kernel⟩

/-- A client of the public listener that names the other port reaches the other entrypoint. -/
theorem namedPort_chooses :
    configListeners twoEntrypoints = .ok theirListeners ∧ DistinguishableByPort theirListeners ∧
      requestEntrypoint ipv6Only twoEntrypoints (some "http") (some (ascii "a.example")) =
        .ok (some 0) ∧
      requestEntrypoint ipv6Only twoEntrypoints (some "http") (some (ascii "a.example:8080")) =
        .ok (some 1) :=
  ⟨theirListeners_configured, theirListeners_distinct, by decide +kernel, by decide +kernel⟩

end Busker.Addresses
