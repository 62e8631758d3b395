import Busker.Interleaving.Machine
import Busker.Interleaving.Threads
import Busker.Tickets.Keys
import Mathlib.Data.Fintype.Basic

/-! Services that share one ticket store. Each refreshes its snapshot: a first load, then,
under the store's lock, a second load, a rotation and a store. -/

namespace Busker.Tickets.SharedStore

open Interleaving

variable {ι : Type*}

/-- `:lifetime-ms` and `:max-keys` of a service. -/
structure Settings where
  lifetimeMs : ℤ
  maxKeys : ℕ

/-- The `:status` of `load-keys-result`. -/
inductive Status
  | ok
  | missing
  | corrupt
  | storageError
  deriving DecidableEq

/-- The snapshot `refresh-snapshot!` keeps of the one it starts from. -/
def winner (settings : Settings) (random : Random) (nowMs : ℤ) (base : Option Snapshot) :
    Option Snapshot := do
  if ← snapshotNeedsRotation base nowMs settings.lifetimeMs then
    rotateSnapshot random base nowMs settings.lifetimeMs settings.maxKeys
  else match base with
    | some snapshot => return snapshot
    | none => rotateSnapshot random none nowMs settings.lifetimeMs settings.maxKeys

/-- A snapshot on its way to the store, with what it was made of. -/
structure Draft where
  nowMs : ℤ
  random : Random
  base : Option Snapshot
  result : Snapshot

/-- Where a service stands in `refresh-snapshot!`. `adopt` has its result. -/
inductive Refresh
  | idle
  | load (nowMs : ℤ)
  | lock (nowMs : ℤ)
  | loadLocked (nowMs : ℤ)
  | store (draft : Draft)
  | unlock (result : Snapshot)
  | adopt (result : Snapshot)

def Refresh.isIdle : Refresh → Bool
  | .idle => true
  | _ => false

/-- What a store did to the keys. -/
structure Change where
  nowMs : ℤ
  maxKeys : ℕ
  before : List Key
  base : List Key
  fresh : Key
  after : List Key
  deriving DecidableEq

/-- `stored` is what the store holds, `lock` who holds its lock, `current` the services'
own snapshots. `changes` is history. -/
structure State (ι : Type*) where
  stored : Option Snapshot
  lock : Option ι
  current : ι → Snapshot
  refresh : ι → Refresh
  changes : List Change

def State.storedKeys (s : State ι) : List Key := (s.stored.map (·.keys)).getD []

/-- `loaded` is the result of a load, with the random bytes for a key; `fail` an exception
of the lock or of the store. -/
inductive Move
  | refresh (nowMs : ℤ)
  | loaded (status : Status) (random : Random)
  | tick
  | fail

/-- `create` is a service that starts, with `initialize-snapshot`. -/
inductive Action (ι : Type*)
  | service (i : ι) (move : Move)
  | create (i : ι) (nowMs : ℤ) (random : Random)

def change (settings : Settings) (s : State ι) (d : Draft) : Change where
  nowMs := d.nowMs
  maxKeys := settings.maxKeys
  before := s.storedKeys
  base := (d.base.map (·.keys)).getD []
  fresh := freshKey d.random d.nowMs settings.lifetimeMs
  after := d.result.keys

/-- Newer keys take all the room. -/
structure Change.PushedOut (c : Change) (k : Key) : Prop where
  base : k ∈ c.base
  full : c.after.length = c.maxKeys
  newer : ∀ w ∈ c.after, w = c.fresh ∨ Precedes w k c.base

/-- A store drops the expired keys, those past the newest `max-keys` and those that newer
ones push out. -/
def Change.Lossless (c : Change) : Prop :=
  ∀ k ∈ c.before, k ∉ c.after → k.notAfter < c.nowMs ∨ k ∉ c.before.take c.maxKeys ∨ c.PushedOut k

/-- The keys of a winner: those of the base, or these rotated. -/
theorem winner_keys {settings : Settings} {random : Random} {nowMs : ℤ} {base : Option Snapshot}
    {result : Snapshot} (made : winner settings random nowMs base = some result) :
    result.keys = (base.map (·.keys)).getD [] ∨
      rotateKeys random ((base.map (·.keys)).getD []) nowMs settings.lifetimeMs settings.maxKeys =
        some result.keys := by
  obtain ⟨due, -, kept⟩ := Option.bind_eq_some_iff.mp made
  cases due with
  | true => exact .inr (rotateSnapshot_keys kept)
  | false =>
    cases base with
    | none => exact .inr (@rotateSnapshot_keys random none _ _ _ _ kept)
    | some snapshot =>
      obtain rfl := Option.some.inj kept
      exact .inl rfl

/-- The draft holds the winner of its base. -/
def Draft.Made (settings : Settings) (d : Draft) : Prop :=
  winner settings d.random d.nowMs d.base = some d.result

/-- What the base has of the stored keys is enough: a store that starts from it loses
nothing else. -/
def Covers (settings : Settings) (stored : List Key) (d : Draft) : Prop :=
  ∀ k ∈ stored.take settings.maxKeys, d.nowMs ≤ k.notAfter → k ∈ (d.base.map (·.keys)).getD []

theorem change_lossless {settings : Settings} {s : State ι} {d : Draft} (made : d.Made settings)
    (covers : Covers settings s.storedKeys d) : (change settings s d).Lossless := by
  intro k stored lost
  by_cases live : d.nowMs ≤ k.notAfter
  · by_cases newest : k ∈ s.storedKeys.take settings.maxKeys
    · have mem := covers k newest live
      simp only [change] at lost
      rcases winner_keys made with same | rotated
      · rw [same] at lost
        exact absurd mem lost
      · rcases rotateKeys_keeps rotated mem live with kept | ⟨full, newer⟩
        · exact absurd kept lost
        · exact .inr (.inr ⟨mem, full, newer⟩)
    · exact .inr (.inl newest)
  · exact .inl (not_le.mp live)

/-- A newest live key that the base does not have is lost. -/
theorem change_lossy {settings : Settings} {s : State ι} {d : Draft} {k : Key} (made : d.Made settings)
    (newest : k ∈ s.storedKeys.take settings.maxKeys) (live : d.nowMs ≤ k.notAfter)
    (absent : k ∉ (d.base.map (·.keys)).getD []) (old : k ≠ freshKey d.random d.nowMs settings.lifetimeMs) :
    ¬(change settings s d).Lossless := by
  intro lossless
  have lost : k ∉ d.result.keys := by
    intro mem
    rcases winner_keys made with same | rotated
    · exact absent (same ▸ mem)
    · exact (rotateKeys_subset rotated mem).elim old absent
  rcases lossless k (List.mem_of_mem_take newest) lost with expired | late | pushed
  · exact absurd live (not_le.mpr expired)
  · exact late newest
  · exact absent pushed.base

variable [DecidableEq ι] (settings : ι → Settings)

def State.goto (s : State ι) (i : ι) (p : Refresh) : State ι :=
  { s with refresh := Function.update s.refresh i p }

/-- `store-snapshot!` of the draft's winner. -/
def State.store (s : State ι) (i : ι) (d : Draft) : State ι :=
  { s with
    stored := some d.result
    changes := s.changes ++ [change (settings i) s d] }

/-- An exception of the locked body releases the lock, and `refresh-snapshot!` catches it. -/
def State.giveUp (s : State ι) (i : ι) : State ι := { s.goto i .idle with lock := none }

/-- Under the lock: the base snapshot is the stored one, or the service's own where the
load did not give one. -/
def loadedLocked (s : State ι) (i : ι) (nowMs : ℤ) (status : Status) (random : Random) : State ι :=
  let base := if status = .ok then s.stored else some (s.current i)
  match winner (settings i) random nowMs base with
  | none => s.giveUp i
  | some result =>
    if status ≠ .ok ∨ base ≠ some result then s.goto i (.store ⟨nowMs, random, base, result⟩)
    else s.goto i (.unlock result)

/-- Before the lock: a storage error ends the refresh, and so does a stored snapshot that is
not due. An exception reaches the rotation loop, which catches it. -/
def loaded (s : State ι) (i : ι) (nowMs : ℤ) : Status → Option (State ι)
  | .storageError => some (s.goto i .idle)
  | .ok =>
    s.stored.map fun snapshot =>
      s.goto i (match snapshotNeedsRotation (some snapshot) nowMs (settings i).lifetimeMs with
        | none => .idle
        | some true => .lock nowMs
        | some false => .adopt snapshot)
  | .missing | .corrupt => some (s.goto i (.lock nowMs))

def serviceStep (s : State ι) (i : ι) : Refresh → Move → Option (State ι)
  | .idle, .refresh nowMs => some (s.goto i (.load nowMs))
  | .load nowMs, .loaded status _ => loaded settings s i nowMs status
  | .lock nowMs, .tick =>
    if s.lock.isNone then some { s.goto i (.loadLocked nowMs) with lock := some i } else none
  | .lock _, .fail => some (s.goto i .idle)
  | .loadLocked nowMs, .loaded status random =>
    if status = .ok ∧ s.stored.isNone then none else some (loadedLocked settings s i nowMs status random)
  | .store d, .tick => some ((s.store settings i d).goto i (.unlock d.result))
  | .store _, .fail => some (s.giveUp i)
  | .unlock result, .tick => some { s.goto i (.adopt result) with lock := none }
  | .adopt result, .tick => some { s.goto i .idle with current := Function.update s.current i result }
  | _, _ => none

def step : Action ι → State ι → Option (State ι)
  | .service i move, s => serviceStep settings s i (s.refresh i) move
  | .create i nowMs random, s =>
    if (s.refresh i).isIdle ∧ s.lock.isNone then
      (winner (settings i) random nowMs s.stored).map fun result =>
        let t := if s.stored ≠ some result then s.store settings i ⟨nowMs, random, s.stored, result⟩ else s
        { t with current := Function.update t.current i result }
    else none

def machine : Machine (State ι) (Action ι) where
  init s := s.lock = none ∧ (∀ i, s.refresh i = .idle) ∧ s.changes = []
  step := step settings

variable {settings : ι → Settings} {s t : State ι} {a : Action ι}

/-- Inside the store's lock. -/
def Refresh.locked : Refresh → Bool
  | .loadLocked _ | .store _ | .unlock _ => true
  | _ => false

/-- A refresh that is going to store its own snapshot, rotated, has every live key of the
newest stored ones in it. -/
def State.covered (settings : ι → Settings) (s : State ι) (i : ι) (status : Status) : Refresh → Prop
  | .loadLocked nowMs => status = .ok ∨
      ∀ k ∈ s.storedKeys.take (settings i).maxKeys, nowMs ≤ k.notAfter → k ∈ (s.current i).keys
  | _ => True

def covering (settings : ι → Settings) : Action ι → State ι → Prop
  | .service i (.loaded status _), s => s.covered settings i status (s.refresh i)
  | _, _ => True

/-- Every key that was stored is still stored, or some store took it out. -/
def State.accounted (s : State ι) : Prop :=
  ∀ c ∈ s.changes, ∀ k, k ∈ c.before ∨ k ∈ c.after →
    k ∈ s.storedKeys ∨ ∃ d ∈ s.changes, k ∈ d.before ∧ k ∉ d.after

/-- One service at a time is inside the lock, and what it stores covers the stored keys. -/
structure Serialized (settings : ι → Settings) (s : State ι) : Prop where
  holder : ∀ i, (s.refresh i).locked = true → s.lock = some i
  covers : ∀ i d, s.refresh i = .store d → d.Made (settings i) ∧ Covers (settings i) s.storedKeys d
  lossless : ∀ c ∈ s.changes, c.Lossless
  accounted : s.accounted

omit [DecidableEq ι] in
theorem Serialized.alone {i j : ι} (h : Serialized settings s) (hi : (s.refresh i).locked = true)
    (hj : (s.refresh j).locked = true) : j = i :=
  Option.some.inj ((h.holder j hj).symm.trans (h.holder i hi))

/-- A service moves and the store stays. -/
theorem Serialized.move {i : ι} {p : Refresh} {lock : Option ι} {current : ι → Snapshot}
    (h : Serialized settings s) (locks : p.locked = true → lock = some i)
    (others : ∀ j, j ≠ i → (s.refresh j).locked = true → lock = some j)
    (covers : ∀ d, p = .store d → d.Made (settings i) ∧ Covers (settings i) s.storedKeys d) :
    Serialized settings
      { s with lock := lock, current := current, refresh := Function.update s.refresh i p } where
  holder j on := by
    dsimp only at *
    by_cases hj : j = i
    · subst hj
      exact locks (by rwa [Function.update_self] at on)
    · exact others j hj (by rwa [Function.update_of_ne hj] at on)
  covers j d at_ := by
    dsimp only at at_
    by_cases hj : j = i
    · subst hj
      exact covers d (by rwa [Function.update_self] at at_)
    · exact h.covers j d (by rwa [Function.update_of_ne hj] at at_)
  lossless := h.lossless
  accounted := h.accounted

theorem Serialized.goto {i : ι} {p : Refresh} (h : Serialized settings s)
    (locks : p.locked = true → (s.refresh i).locked = true)
    (covers : ∀ d, p = .store d → d.Made (settings i) ∧ Covers (settings i) s.storedKeys d) :
    Serialized settings (s.goto i p) :=
  h.move (fun on => h.holder i (locks on)) (fun j _ on => h.holder j on) covers

omit [DecidableEq ι] in
theorem accounted_store {i : ι} {d : Draft} (h : s.accounted) : (s.store settings i d).accounted := by
  intro c mem k stored
  have now : k ∈ s.storedKeys → k ∈ (s.store settings i d).storedKeys ∨
      ∃ d' ∈ (s.store settings i d).changes, k ∈ d'.before ∧ k ∉ d'.after := by
    intro before
    by_cases after : k ∈ (change (settings i) s d).after
    · exact .inl after
    · exact .inr ⟨_, List.mem_append_right _ (List.mem_singleton_self _), before, after⟩
  rcases List.mem_append.mp mem with old | new
  · rcases h c old k stored with before | ⟨d', past, lost⟩
    · exact now before
    · exact .inr ⟨d', List.mem_append_left _ past, lost⟩
  · obtain rfl := List.mem_singleton.mp new
    exact stored.elim now .inl

/-- The store of a snapshot that covers the stored keys. -/
theorem Serialized.store {i : ι} {d : Draft} (h : Serialized settings s) (made : d.Made (settings i))
    (covers : Covers (settings i) s.storedKeys d)
    (others : ∀ j, j ≠ i → (s.refresh j).locked = false) (here : ∀ d, s.refresh i ≠ .store d) :
    Serialized settings (s.store settings i d) where
  holder := h.holder
  covers j d' at_ := by
    by_cases hj : j = i
    · exact absurd (hj ▸ at_) (here d')
    · have outside := others j hj
      simp [show s.refresh j = _ from at_, Refresh.locked] at outside
  lossless c mem := by
    rcases List.mem_append.mp mem with old | new
    · exact h.lossless c old
    · obtain rfl := List.mem_singleton.mp new
      exact change_lossless made covers
  accounted := accounted_store h.accounted

theorem Serialized.giveUp {i : ι} (h : Serialized settings s) (here : (s.refresh i).locked = true) :
    Serialized settings (s.giveUp i) :=
  h.move (by simp [Refresh.locked]) (fun j hj on => absurd (h.alone here on) hj) (by simp)

omit [DecidableEq ι] in
theorem covers_loaded {i : ι} {nowMs : ℤ} {status : Status} {random : Random} {result : Snapshot}
    (fair : s.covered settings i status (.loadLocked nowMs)) : Covers (settings i) s.storedKeys
      ⟨nowMs, random, if status = .ok then s.stored else some (s.current i), result⟩ := by
  intro k newest live
  split
  · exact List.mem_of_mem_take newest
  · rename_i refused
    exact fair.resolve_left refused k newest live

theorem Serialized.service {i : ι} {move : Move} (h : Serialized settings s)
    (fair : covering settings (.service i move) s) (moves : step settings (.service i move) s = some t) :
    Serialized settings t := by
  simp only [SharedStore.step] at moves
  cases at_ : s.refresh i <;> cases move <;> simp only [at_, serviceStep, reduceCtorEq, Option.some.injEq] at moves
  case idle.refresh nowMs =>
    subst moves
    exact h.goto (by simp [Refresh.locked]) (by simp)
  case load.loaded nowMs status random =>
    cases status with
    | storageError =>
      obtain rfl := Option.some.inj moves
      exact h.goto (by simp [Refresh.locked]) (by simp)
    | missing | corrupt =>
      obtain rfl := Option.some.inj moves
      exact h.goto (by simp [Refresh.locked]) (by simp)
    | ok =>
      obtain ⟨snapshot, -, rfl⟩ := Option.map_eq_some_iff.mp moves
      split <;> exact h.goto (by simp [Refresh.locked]) (by simp)
  case lock.tick nowMs =>
    simp only [Option.ite_none_right_eq_some, Option.isNone_iff_eq_none, Option.some.injEq] at moves
    obtain ⟨free, rfl⟩ := moves
    refine h.move (fun _ => rfl) (fun j _ on => ?_) (by simp)
    simp [h.holder j on] at free
  case lock.fail nowMs =>
    subst moves
    exact h.goto (by simp [Refresh.locked]) (by simp)
  case loadLocked.loaded nowMs status random =>
    simp only [Option.ite_none_left_eq_some, Option.some.injEq] at moves
    obtain ⟨-, rfl⟩ := moves
    simp only [covering, at_] at fair
    have covers (result : Snapshot) : Covers (settings i) s.storedKeys ⟨nowMs, random, _, result⟩ :=
      covers_loaded fair
    have inside : (s.refresh i).locked = true := by simp [at_, Refresh.locked]
    unfold loadedLocked
    generalize (if status = .ok then s.stored else some (s.current i)) = base at covers ⊢
    dsimp only
    split
    · exact h.giveUp inside
    · rename_i result made
      split
      · refine h.goto (fun _ => inside) fun d same => ?_
        obtain rfl := Refresh.store.inj same
        exact ⟨made, covers result⟩
      · exact h.goto (fun _ => inside) (by simp)
  case store.tick d =>
    subst moves
    obtain ⟨made, covers⟩ := h.covers i d at_
    have next : Serialized settings (s.goto i (.unlock d.result)) :=
      h.goto (by simp [at_, Refresh.locked]) (by simp)
    have here : (s.refresh i).locked = true := by simp [at_, Refresh.locked]
    refine next.store made covers (fun j hj => ?_) (by simp [State.goto])
    refine Bool.eq_false_iff.mpr fun on => hj (h.alone here ?_)
    simpa [State.goto, Function.update_of_ne hj] using on
  case store.fail d =>
    subst moves
    exact h.giveUp (by simp [at_, Refresh.locked])
  case unlock.tick result =>
    subst moves
    have here : (s.refresh i).locked = true := by simp [at_, Refresh.locked]
    exact h.move (by simp [Refresh.locked]) (fun j hj on => absurd (h.alone here on) hj) (by simp)
  case adopt.tick result =>
    subst moves
    exact h.move (by simp [Refresh.locked]) (fun j _ on => h.holder j on) (by simp)

theorem Serialized.create {i : ι} {nowMs : ℤ} {random : Random} (h : Serialized settings s)
    (moves : step settings (.create i nowMs random) s = some t) : Serialized settings t := by
  simp only [SharedStore.step, Option.ite_none_right_eq_some, Option.map_eq_some_iff] at moves
  obtain ⟨⟨idle, free⟩, result, made, rfl⟩ := moves
  rw [Option.isNone_iff_eq_none] at free
  have outside (j : ι) : (s.refresh j).locked = false := Bool.eq_false_iff.mpr fun on => by
    simp [h.holder j on] at free
  split
  · have stored : Serialized settings (s.store settings i ⟨nowMs, random, s.stored, result⟩) := by
      refine h.store made (fun k newest _ => List.mem_of_mem_take newest) (fun j _ => outside j) fun d at_ => ?_
      have out := outside i
      simp [at_, Refresh.locked] at out
    exact ⟨stored.holder, stored.covers, stored.lossless, stored.accounted⟩
  · exact ⟨h.holder, h.covers, h.lossless, h.accounted⟩

theorem serialized_of_covering (h : (machine settings).ReachableVia (covering settings) s) :
    Serialized settings s := by
  refine h.invariant ?_ fun a s t hs fair moves => ?_
  · rintro s ⟨free, idle, none⟩
    constructor <;> simp [idle, none, Refresh.locked, State.accounted]
  · cases a with
    | service i move => exact hs.service fair moves
    | create i nowMs random => exact hs.create moves

/-- No store loses a live key. -/
structure KeepsKeys (s : State ι) : Prop where
  lossless : ∀ c ∈ s.changes, c.Lossless
  accounted : s.accounted

/-- A refresh that is not covered and does not throw loses a key in its next step, unless the
key is generated anew. -/
theorem loses_uncovered {i : ι} {nowMs : ℤ} {status : Status} {random : Random} {k : Key}
    {result : Snapshot} (at_ : s.refresh i = .loadLocked nowMs) (refused : status ≠ .ok)
    (made : winner (settings i) random nowMs (some (s.current i)) = some result)
    (newest : k ∈ s.storedKeys.take (settings i).maxKeys) (live : nowMs ≤ k.notAfter)
    (absent : k ∉ (s.current i).keys) (old : k ≠ freshKey random nowMs (settings i).lifetimeMs) :
    ∃ t u, step settings (.service i (.loaded status random)) s = some t ∧
      step settings (.service i .tick) t = some u ∧ ¬KeepsKeys u := by
  have first : step settings (.service i (.loaded status random)) s =
      some (s.goto i (.store ⟨nowMs, random, some (s.current i), result⟩)) := by
    simp [SharedStore.step, at_, serviceStep, loadedLocked, refused, made]
  refine ⟨_, _, first, by simp [SharedStore.step, State.goto, serviceStep]; rfl, fun keeps => ?_⟩
  refine change_lossy (d := ⟨nowMs, random, some (s.current i), result⟩) made newest live absent old ?_
  exact keeps.lossless _ (List.mem_append_right s.changes (List.mem_singleton_self _))

theorem keepsKeys_of_covering (h : (machine settings).ReachableVia (covering settings) s) : KeepsKeys s := by
  have serialized := serialized_of_covering h
  exact ⟨serialized.lossless, serialized.accounted⟩

instance (i : ι) (status : Status) (p : Refresh) : Decidable (s.covered settings i status p) :=
  match p with
  | .loadLocked nowMs => inferInstanceAs (Decidable (status = .ok ∨
      ∀ k ∈ s.storedKeys.take (settings i).maxKeys, nowMs ≤ k.notAfter → k ∈ (s.current i).keys))
  | .idle | .load _ | .lock _ | .store _ | .unlock _ | .adopt _ => .isTrue trivial

instance (a : Action ι) (s : State ι) : Decidable (covering settings a s) :=
  match a with
  | .service i (.loaded status _) => inferInstanceAs (Decidable (s.covered settings i status (s.refresh i)))
  | .service _ (.refresh _) | .service _ .tick | .service _ .fail | .create _ _ _ => .isTrue trivial

def hundred : Settings := ⟨100, 4⟩

def bytes (name : UInt8) : Random := ⟨[name], [], []⟩

def firstKey : Snapshot := ⟨[freshKey (bytes 0) 0 100], some 0, some 25⟩

/-- Two services have adopted the stored snapshot. -/
def shared : State Bool := ⟨some firstKey, none, fun _ => firstKey, fun _ => .idle, []⟩

theorem shared_init : (machine fun _ : Bool => hundred).init shared := ⟨rfl, fun _ => rfl, rfl⟩

/-- A refresh that finds the stored snapshot due. -/
def refreshAt (i : Bool) (nowMs : ℤ) (status : Status) (name : UInt8) : List (Action Bool) :=
  List.map (.service i) [.refresh nowMs, .loaded .ok (bytes name), .tick, .loaded status (bytes name), .tick,
    .tick, .tick]

/-- The second service adopts the new keys, and later cannot read them under the lock. -/
def refreshed : State Bool := (machine fun _ => hundred).runFromVia (covering fun _ => hundred)
  (List.flatten [refreshAt true 30 .ok 1, List.map (.service false) [.refresh 30, .loaded .ok (bytes 2), .tick],
    refreshAt false 60 .storageError 2]) shared

theorem keepsKeys_refreshed : KeepsKeys refreshed ∧ refreshed.storedKeys =
    [freshKey (bytes 2) 60 100, freshKey (bytes 1) 30 100, freshKey (bytes 0) 0 100] :=
  ⟨keepsKeys_of_covering ((Machine.ReachableVia.init shared_init).runFromVia _), by decide +kernel⟩

/-- Both services find the first key due. The second gets the lock after the first has
stored a new key, and cannot read it. -/
def overwriting : List (Action Bool) := List.flatten [
  List.map (.service false) [.refresh 30, .loaded .ok (bytes 2)], refreshAt true 30 .ok 1,
  List.map (.service false) [.tick, .loaded .storageError (bytes 2), .tick]]

def overwritten : State Bool := (machine fun _ => hundred).runFrom overwriting shared

/-- The store that drops the new key. -/
def dropped : Change where
  nowMs := 30
  maxKeys := 4
  before := [freshKey (bytes 1) 30 100, freshKey (bytes 0) 0 100]
  base := [freshKey (bytes 0) 0 100]
  fresh := freshKey (bytes 2) 30 100
  after := [freshKey (bytes 2) 30 100, freshKey (bytes 0) 0 100]

theorem newKeyLost : (machine fun _ : Bool => hundred).Reachable overwritten ∧
    dropped ∈ overwritten.changes ∧ overwritten.storedKeys = dropped.after ∧ ¬KeepsKeys overwritten := by
  have lost : dropped ∈ overwritten.changes ∧ overwritten.storedKeys = dropped.after := by decide +kernel
  refine ⟨(Machine.Reachable.init shared_init).runFrom _, lost.1, lost.2, fun keeps => ?_⟩
  rcases keeps.lossless dropped lost.1 (freshKey (bytes 1) 30 100) (by decide) (by decide) with
    expired | late | pushed
  · exact absurd expired (by decide)
  · exact late (by decide)
  · exact absurd pushed.base (by decide)

end Busker.Tickets.SharedStore
