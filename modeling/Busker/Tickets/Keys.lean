import Mathlib.Algebra.Order.Ring.Int
import Mathlib.Data.List.Basic
import Busker.FixedFinal.Response

/-! Session-ticket keys and their rotation. `none` is the `ArithmeticException` of an integer
overflow. -/

namespace Busker.Tickets

open Busker.FixedFinal (IsLong)

/-- Arithmetic on two longs throws where no long holds the result. Any other integer is a
BigInt, and so is what is computed from it. -/
def checked (a b result : ℤ) : Option ℤ :=
  if IsLong a ∧ IsLong b ∧ ¬IsLong result then none else some result

def plus (a b : ℤ) : Option ℤ := checked a b (a + b)

def minus (a b : ℤ) : Option ℤ := checked a b (a - b)

theorem checked_eq_none {a b result : ℤ} :
    checked a b result = none ↔ IsLong a ∧ IsLong b ∧ ¬IsLong result := by
  unfold checked
  split <;> simp [*]

theorem checked_eq_some {a b result n : ℤ} :
    checked a b result = some n ↔ result = n ∧ (IsLong a → IsLong b → IsLong result) := by
  unfold checked
  split
  · rename_i overflows
    simp only [reduceCtorEq, false_iff]
    exact fun fits => overflows.2.2 (fits.2 overflows.1 overflows.2.1)
  · rename_i fits
    simp only [Option.some.injEq, iff_self_and]
    exact fun _ ha hb => not_not.mp fun long => fits ⟨ha, hb, long⟩

structure Key where
  name : List UInt8
  aesKey : List UInt8
  hmacKey : List UInt8
  notBefore : ℤ
  notAfter : ℤ
  deriving DecidableEq

/-- The keys are ordered newest first. -/
structure Snapshot where
  keys : List Key
  lastRotationMs : Option ℤ
  nextRotationMs : Option ℤ
  deriving DecidableEq

/-- What `generate-random-bytes` gives for a key. -/
structure Random where
  name : List UInt8
  aesKey : List UInt8
  hmacKey : List UInt8

def generateKey (random : Random) (notBeforeMs lifetimeMs : ℤ) : Option Key := do
  let sum ← plus notBeforeMs lifetimeMs
  let notAfterMs ← plus sum (-1)
  return ⟨random.name, random.aesKey, random.hmacKey, notBeforeMs, notAfterMs⟩

def pruneExpiredKeys (keys : List Key) (nowMs : ℤ) : List Key := keys.filter fun key => nowMs ≤ key.notAfter

def retainMaxKeys (keys : List Key) (maxKeys : ℕ) : List Key := keys.take maxKeys

def rotationIntervalMs (lifetimeMs : ℤ) : ℤ := max 1 (lifetimeMs.tdiv 4)

def activeKey (key : Key) (nowMs : ℤ) : Bool := key.notBefore ≤ nowMs && nowMs < key.notAfter

/-- The newest key has reached a quarter, a ratio in the source, of its lifetime. -/
def needsNewKey (keys : List Key) (nowMs lifetimeMs : ℤ) : Option Bool :=
  match keys with
  | [] => some true
  | newest :: _ => (minus nowMs newest.notBefore).map fun age => lifetimeMs ≤ 4 * age

def snapshotNeedsRotation (snapshot : Option Snapshot) (nowMs lifetimeMs : ℤ) : Option Bool :=
  let validKeys := pruneExpiredKeys ((snapshot.map (·.keys)).getD []) nowMs
  if validKeys.all fun key => !activeKey key nowMs then some true
  else match snapshot.bind (·.nextRotationMs) with
    | some next => some (next ≤ nowMs)
    | none => needsNewKey validKeys nowMs lifetimeMs

/-- Keys with the new one in front, if it is time for one. -/
def rotateKeys (random : Random) (keys : List Key) (nowMs lifetimeMs : ℤ) (maxKeys : ℕ) :
    Option (List Key) := do
  let validKeys := retainMaxKeys (pruneExpiredKeys keys nowMs) maxKeys
  if ← needsNewKey validKeys nowMs lifetimeMs then
    let newKey ← generateKey random nowMs lifetimeMs
    return retainMaxKeys (newKey :: validKeys) maxKeys
  else
    return validKeys

def snapshotWithKeys (keys : List Key) (nowMs lifetimeMs : ℤ) : Option Snapshot := do
  let next ← plus nowMs (rotationIntervalMs lifetimeMs)
  return ⟨keys, some nowMs, some next⟩

def rotateSnapshot (random : Random) (snapshot : Option Snapshot) (nowMs lifetimeMs : ℤ) (maxKeys : ℕ) :
    Option Snapshot := do
  let keys ← rotateKeys random ((snapshot.map (·.keys)).getD []) nowMs lifetimeMs maxKeys
  if snapshot.map (·.keys) = some keys then snapshot else snapshotWithKeys keys nowMs lifetimeMs

/-- The key that `generate-key` makes, if it does not throw. -/
def freshKey (random : Random) (notBeforeMs lifetimeMs : ℤ) : Key :=
  ⟨random.name, random.aesKey, random.hmacKey, notBeforeMs, notBeforeMs + lifetimeMs - 1⟩

theorem generateKey_eq_some {random : Random} {notBeforeMs lifetimeMs : ℤ} {key : Key}
    (made : generateKey random notBeforeMs lifetimeMs = some key) :
    key = freshKey random notBeforeMs lifetimeMs := by
  obtain ⟨sum, summed, rest⟩ := Option.bind_eq_some_iff.mp made
  obtain ⟨notAfterMs, last, same⟩ := Option.bind_eq_some_iff.mp rest
  obtain ⟨rfl, -⟩ := checked_eq_some.mp summed
  obtain ⟨rfl, -⟩ := checked_eq_some.mp last
  exact (Option.some.inj same).symm

theorem rotateKeys_eq_some {random : Random} {keys after : List Key} {nowMs lifetimeMs : ℤ} {maxKeys : ℕ} :
    rotateKeys random keys nowMs lifetimeMs maxKeys = some after ↔
      (needsNewKey ((pruneExpiredKeys keys nowMs).take maxKeys) nowMs lifetimeMs = some true ∧
        ∃ newKey, generateKey random nowMs lifetimeMs = some newKey ∧
          (newKey :: (pruneExpiredKeys keys nowMs).take maxKeys).take maxKeys = after) ∨
      (needsNewKey ((pruneExpiredKeys keys nowMs).take maxKeys) nowMs lifetimeMs = some false ∧
        (pruneExpiredKeys keys nowMs).take maxKeys = after) := by
  simp only [rotateKeys, retainMaxKeys]
  cases needsNewKey ((pruneExpiredKeys keys nowMs).take maxKeys) nowMs lifetimeMs with
  | none => simp
  | some due => cases due <;> cases generateKey random nowMs lifetimeMs <;> simp

theorem rotateSnapshot_keys {random : Random} {snapshot : Option Snapshot} {after : Snapshot}
    {nowMs lifetimeMs : ℤ} {maxKeys : ℕ}
    (rotated : rotateSnapshot random snapshot nowMs lifetimeMs maxKeys = some after) :
    rotateKeys random ((snapshot.map (·.keys)).getD []) nowMs lifetimeMs maxKeys = some after.keys := by
  obtain ⟨keys, made, kept⟩ := Option.bind_eq_some_iff.mp rotated
  rw [made]
  split at kept
  · rename_i same
    subst kept
    exact same.symm
  · obtain ⟨next, -, same⟩ := Option.bind_eq_some_iff.mp kept
    obtain rfl := Option.some.inj same
    rfl

/-- `w` comes before `k`, so it is newer. -/
def Precedes (w k : Key) (keys : List Key) : Prop := [w, k].Sublist keys

theorem precedes_take {keys : List Key} {n : ℕ} {w k : Key} (hw : w ∈ keys.take n) (hk : k ∈ keys.drop n) :
    Precedes w k keys := by
  have both := (List.singleton_sublist.mpr hw).append (List.singleton_sublist.mpr hk)
  rwa [List.take_append_drop] at both

/-- Of the first `n` keys none is missing, or `n` come before it. -/
theorem mem_take_or_precedes {keys : List Key} {k : Key} (n : ℕ) (mem : k ∈ keys) :
    k ∈ keys.take n ∨ (keys.take n).length = n ∧ ∀ w ∈ keys.take n, Precedes w k keys := by
  rw [← List.take_append_drop n keys, List.mem_append] at mem
  refine mem.imp_right fun later => ⟨?_, fun w hw => precedes_take hw later⟩
  have := List.length_pos_of_mem later
  rw [List.length_drop] at this
  rw [List.length_take]
  omega

theorem rotateKeys_cases {random : Random} {keys after : List Key} {nowMs lifetimeMs : ℤ} {maxKeys : ℕ}
    (rotated : rotateKeys random keys nowMs lifetimeMs maxKeys = some after) :
    after = (freshKey random nowMs lifetimeMs ::
        (pruneExpiredKeys keys nowMs).take maxKeys).take maxKeys ∨
      after = (pruneExpiredKeys keys nowMs).take maxKeys := by
  rcases rotateKeys_eq_some.mp rotated with ⟨-, newKey, made, rfl⟩ | ⟨-, rfl⟩
  · rw [generateKey_eq_some made]
    exact .inl rfl
  · exact .inr rfl

/-- A rotation keeps a live key, or newer keys take all the room. -/
theorem rotateKeys_keeps {random : Random} {keys after : List Key} {k : Key} {nowMs lifetimeMs : ℤ}
    {maxKeys : ℕ} (rotated : rotateKeys random keys nowMs lifetimeMs maxKeys = some after)
    (mem : k ∈ keys) (live : nowMs ≤ k.notAfter) :
    k ∈ after ∨ after.length = maxKeys ∧
      ∀ w ∈ after, w = freshKey random nowMs lifetimeMs ∨ Precedes w k keys := by
  have valid : k ∈ pruneExpiredKeys keys nowMs := List.mem_filter.mpr ⟨mem, by simpa using live⟩
  have order {w : Key} (h : Precedes w k (pruneExpiredKeys keys nowMs)) : Precedes w k keys :=
    h.trans List.filter_sublist
  rcases rotateKeys_cases rotated with rfl | rfl
  · cases maxKeys with
    | zero => simp
    | succ n =>
      rw [List.take_succ_cons, List.take_take, Nat.min_eq_left (Nat.le_succ n)]
      refine (mem_take_or_precedes n valid).imp (List.mem_cons_of_mem _) fun ⟨full, newer⟩ => ⟨?_, ?_⟩
      · rw [List.length_cons, full]
      · intro w hw
        exact (List.mem_cons.mp hw).imp_right fun old => order (newer w old)
  · exact (mem_take_or_precedes maxKeys valid).imp_right fun ⟨full, newer⟩ =>
      ⟨full, fun w hw => .inr (order (newer w hw))⟩

theorem rotateKeys_subset {random : Random} {keys after : List Key} {k : Key} {nowMs lifetimeMs : ℤ}
    {maxKeys : ℕ} (rotated : rotateKeys random keys nowMs lifetimeMs maxKeys = some after)
    (mem : k ∈ after) : k = freshKey random nowMs lifetimeMs ∨ k ∈ keys := by
  have old {k : Key} (h : k ∈ (pruneExpiredKeys keys nowMs).take maxKeys) : k ∈ keys :=
    (List.mem_filter.mp (List.mem_of_mem_take h)).1
  rcases rotateKeys_cases rotated with rfl | rfl
  · exact (List.mem_cons.mp (List.mem_of_mem_take mem)).imp_right old
  · exact .inr (old mem)

end Busker.Tickets
