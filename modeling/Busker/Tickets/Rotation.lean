import Mathlib.Algebra.Order.Ring.Int
import Mathlib.Data.List.Basic
import Mathlib.Tactic.Linarith
import Busker.FixedFinal.Response
import Busker.Tickets.Keys

/-! What a rotation makes of a list of keys, and when it leaves one to encrypt with. -/
namespace Busker.Tickets
open Busker.FixedFinal (IsLong)

section
variable {random : Random} {keys : List Key} {nowMs lifetimeMs : ℤ} {maxKeys : ℕ}

/-- Newest first, by the start of validity. -/
def NewestFirst (keys : List Key) : Prop := keys.Pairwise fun a b => b.notBefore ≤ a.notBefore

/-- The first `max-keys` keys that have not expired. -/
def retained (keys : List Key) (nowMs : ℤ) (maxKeys : ℕ) : List Key :=
  retainMaxKeys (pruneExpiredKeys keys nowMs) maxKeys

theorem retained_sublist : (retained keys nowMs maxKeys).Sublist keys :=
  (List.take_sublist _ _).trans List.filter_sublist

theorem retained_unexpired {key : Key} (mem : key ∈ retained keys nowMs maxKeys) :
    nowMs ≤ key.notAfter := by
  simpa using (List.mem_filter.mp (List.mem_of_mem_take mem)).2

/-- Pruning and capping change nothing of keys that are few and not expired. -/
theorem retained_eq_self (short : keys.length ≤ maxKeys)
    (unexpired : ∀ key ∈ keys, nowMs ≤ key.notAfter) : retained keys nowMs maxKeys = keys := by
  have pruned : pruneExpiredKeys keys nowMs = keys := by
    apply List.filter_eq_self.mpr
    intro key mem
    simpa using unexpired key mem
  unfold retained retainMaxKeys
  rw [pruned]
  exact List.take_of_length_le short

/-- A rotation of room for some keys prepends one to the retained keys, or returns them. -/
theorem rotateKeys_succ (random : Random) {after : List Key} :
    rotateKeys random keys nowMs lifetimeMs (maxKeys + 1) = some after ↔
      (needsNewKey (retained keys nowMs (maxKeys + 1)) nowMs lifetimeMs = some true ∧
        ∃ newKey, generateKey random nowMs lifetimeMs = some newKey ∧
          newKey :: (retained keys nowMs (maxKeys + 1)).take maxKeys = after) ∨
      (needsNewKey (retained keys nowMs (maxKeys + 1)) nowMs lifetimeMs = some false ∧
        retained keys nowMs (maxKeys + 1) = after) :=
  rotateKeys_eq_some

theorem needsNewKey_cons {key : Key} {rest : List Key} {due : Bool} :
    needsNewKey (key :: rest) nowMs lifetimeMs = some due ↔
      (IsLong nowMs → IsLong key.notBefore → IsLong (nowMs - key.notBefore)) ∧
        decide (lifetimeMs ≤ 4 * (nowMs - key.notBefore)) = due := by
  simp only [needsNewKey, Option.map_eq_some_iff, minus, checked_eq_some]
  constructor
  · rintro ⟨age, ⟨rfl, fits⟩, same⟩
    exact ⟨fits, same⟩
  · rintro ⟨fits, same⟩
    exact ⟨_, ⟨rfl, fits⟩, same⟩

/-- A key that is just generated needs no other. -/
theorem needsNewKey_fresh {rest : List Key} (positive : 1 ≤ lifetimeMs) :
    needsNewKey (freshKey random nowMs lifetimeMs :: rest) nowMs lifetimeMs = some false := by
  rw [needsNewKey_cons, decide_eq_false_iff_not]
  have now : nowMs - (freshKey random nowMs lifetimeMs).notBefore = 0 := sub_self nowMs
  rw [now]
  exact ⟨fun _ _ => by decide, by linarith⟩

/-- A long time and a long lifetime make a key exactly if a long holds their sum. -/
theorem generateKey_returns (random : Random) (time : IsLong nowMs) (long : IsLong lifetimeMs)
    (positive : 1 ≤ lifetimeMs) :
    generateKey random nowMs lifetimeMs = some (freshKey random nowMs lifetimeMs) ↔
      IsLong (nowMs + lifetimeMs) := by
  constructor
  · intro made
    obtain ⟨sum, summed, -⟩ := Option.bind_eq_some_iff.mp made
    exact (checked_eq_some.mp summed).2 time long
  · intro fits
    refine Option.bind_eq_some_iff.mpr ⟨_, checked_eq_some.mpr ⟨rfl, fun _ _ => fits⟩, ?_⟩
    refine Option.bind_eq_some_iff.mpr ⟨_, checked_eq_some.mpr ⟨rfl, fun _ _ => ?_⟩, rfl⟩
    unfold IsLong at *
    omega

theorem generateKey_throws (random : Random) (time : IsLong nowMs) (long : IsLong lifetimeMs)
    (positive : 1 ≤ lifetimeMs) :
    generateKey random nowMs lifetimeMs = none ↔ ¬IsLong (nowMs + lifetimeMs) := by
  rw [← generateKey_returns random time long positive, Option.eq_none_iff_forall_ne_some]
  constructor
  · exact fun thrown => thrown _
  · intro refused key made
    rw [made, generateKey_eq_some made] at refused
    exact refused rfl

/-- No long holds the age of the newest key. -/
def AgeOverflows (keys : List Key) (nowMs : ℤ) : Prop :=
  ∃ newest ∈ keys.head?, IsLong newest.notBefore ∧ ¬IsLong (nowMs - newest.notBefore)

theorem needsNewKey_throws (lifetimeMs : ℤ) (time : IsLong nowMs) :
    needsNewKey keys nowMs lifetimeMs = none ↔ AgeOverflows keys nowMs := by
  cases keys with
  | nil => simp [needsNewKey, AgeOverflows]
  | cons newest rest => simp [needsNewKey, AgeOverflows, minus, checked_eq_none, time]

/-- A rotation throws where an age or the end of a new key overflows, and nowhere else. -/
theorem rotateKeys_throws (random : Random) (keys : List Key) (time : IsLong nowMs)
    (long : IsLong lifetimeMs) (positive : 1 ≤ lifetimeMs) :
    rotateKeys random keys nowMs lifetimeMs maxKeys = none ↔
      AgeOverflows (retained keys nowMs maxKeys) nowMs ∨
        needsNewKey (retained keys nowMs maxKeys) nowMs lifetimeMs = some true ∧
          ¬IsLong (nowMs + lifetimeMs) := by
  rw [← needsNewKey_throws lifetimeMs time,
    ← generateKey_throws random time long positive]
  simp only [rotateKeys]
  change (needsNewKey (retained keys nowMs maxKeys) nowMs lifetimeMs).bind _ = none ↔ _
  cases needsNewKey (retained keys nowMs maxKeys) nowMs lifetimeMs with
  | none => simp
  | some due => cases due <;> cases generateKey random nowMs lifetimeMs <;> simp

/-- What holds of the keys after a rotation. -/
structure Rotated (keys : List Key) (nowMs lifetimeMs : ℤ) (maxKeys : ℕ) (after : List Key) :
    Prop where
  sorted : NewestFirst after
  capped : after.length ≤ maxKeys
  unexpired : ∀ key ∈ after, nowMs ≤ key.notAfter
  source : after = retained keys nowMs maxKeys ∨ ∃ random newKey older,
    generateKey random nowMs lifetimeMs = some newKey ∧ newKey.notBefore = nowMs ∧
      after = newKey :: older ∧ older <+: retained keys nowMs maxKeys

/-- A key that is due comes after every retained one. -/
theorem notBefore_le_of_due {key : Key} (sorted : NewestFirst keys) (positive : 1 ≤ lifetimeMs)
    (due : needsNewKey keys nowMs lifetimeMs = some true) (mem : key ∈ keys) : key.notBefore ≤ nowMs := by
  cases keys with
  | nil => cases mem
  | cons newest rest =>
      have aged := of_decide_eq_true (needsNewKey_cons.mp due).2
      have bound : key.notBefore ≤ newest.notBefore := by
        rcases List.mem_cons.mp mem with rfl | mem
        · exact le_refl _
        · exact List.rel_of_pairwise_cons sorted mem
      linarith

theorem rotated_rotateKeys {after : List Key} (sorted : NewestFirst keys) (positive : 1 ≤ lifetimeMs)
    (some_keys : 1 ≤ maxKeys) (returned : rotateKeys random keys nowMs lifetimeMs maxKeys = some after) :
    Rotated keys nowMs lifetimeMs maxKeys after := by
  obtain ⟨n, rfl⟩ := Nat.exists_eq_add_of_le' some_keys
  have kept : NewestFirst (retained keys nowMs (n + 1)) := sorted.sublist retained_sublist
  rcases (rotateKeys_succ random).mp returned with ⟨due, newKey, made, rfl⟩ | ⟨-, rfl⟩
  · have start : newKey.notBefore = nowMs := by rw [generateKey_eq_some made, freshKey]
    constructor
    · apply List.pairwise_cons.mpr
      refine ⟨fun key mem => ?_, kept.sublist (List.take_sublist _ _)⟩
      rw [start]
      exact notBefore_le_of_due kept positive due (List.mem_of_mem_take mem)
    · rw [List.length_cons]
      exact Nat.succ_le_succ (List.length_take_le _ _)
    · intro key mem
      rcases List.mem_cons.mp mem with rfl | mem
      · rw [generateKey_eq_some made]
        simp only [freshKey]
        linarith
      · exact retained_unexpired (List.mem_of_mem_take mem)
    · exact .inr ⟨random, newKey, _, made, start, rfl, List.take_prefix _ _⟩
  · exact ⟨kept, List.length_take_le _ _, fun key mem => retained_unexpired mem, .inl rfl⟩

/-- Rotating again at the same time changes nothing, whatever the random bytes. -/
theorem rotateKeys_idempotent {after : List Key} (again : Random) (positive : 1 ≤ lifetimeMs)
    (some_keys : 1 ≤ maxKeys) (returned : rotateKeys random keys nowMs lifetimeMs maxKeys = some after) :
    rotateKeys again after nowMs lifetimeMs maxKeys = some after := by
  obtain ⟨n, rfl⟩ := Nat.exists_eq_add_of_le' some_keys
  rcases (rotateKeys_succ random).mp returned with ⟨due, newKey, made, rfl⟩ | ⟨fresh, rfl⟩
  · obtain rfl := generateKey_eq_some made
    have same : retained (freshKey random nowMs lifetimeMs ::
        (retained keys nowMs (n + 1)).take n) nowMs (n + 1) =
          freshKey random nowMs lifetimeMs :: (retained keys nowMs (n + 1)).take n := by
      apply retained_eq_self
      · rw [List.length_cons]
        exact Nat.succ_le_succ (List.length_take_le _ _)
      · intro key mem
        rcases List.mem_cons.mp mem with rfl | mem
        · simp only [freshKey]
          linarith
        · exact retained_unexpired (List.mem_of_mem_take mem)
    apply (rotateKeys_succ again).mpr
    rw [same]
    exact .inr ⟨needsNewKey_fresh positive, rfl⟩
  · have same : retained (retained keys nowMs (n + 1)) nowMs (n + 1) = retained keys nowMs (n + 1) :=
      retained_eq_self (List.length_take_le _ _) fun key mem => retained_unexpired mem
    apply (rotateKeys_succ again).mpr
    rw [same]
    exact .inr ⟨fresh, rfl⟩

/-- A rotation throws exactly where longs overflow. One that returns keeps the keys sorted,
capped and unexpired, adds at most a fresh one, and does nothing when repeated. -/
theorem rotateKeys_invariant (random again : Random) (keys : List Key) (nowMs lifetimeMs : ℤ)
    (maxKeys : ℕ) (sorted : NewestFirst keys) (time : IsLong nowMs) (long : IsLong lifetimeMs)
    (positive : 1 ≤ lifetimeMs) (some_keys : 1 ≤ maxKeys) :
    (rotateKeys random keys nowMs lifetimeMs maxKeys = none ↔
      AgeOverflows (retained keys nowMs maxKeys) nowMs ∨
        needsNewKey (retained keys nowMs maxKeys) nowMs lifetimeMs = some true ∧
          ¬IsLong (nowMs + lifetimeMs)) ∧
      ∀ after, rotateKeys random keys nowMs lifetimeMs maxKeys = some after →
        Rotated keys nowMs lifetimeMs maxKeys after ∧
          rotateKeys again after nowMs lifetimeMs maxKeys = some after :=
  ⟨rotateKeys_throws random keys time long positive, fun _ returned =>
    ⟨rotated_rotateKeys sorted positive some_keys returned,
      rotateKeys_idempotent again positive some_keys returned⟩⟩

/-- No bytes at all. -/
def noBytes : Random := ⟨[], [], []⟩

theorem rotateKeys_two :
    Rotated [freshKey noBytes 50 100, freshKey noBytes 0 100] 80 100 2
        [freshKey noBytes 80 100, freshKey noBytes 50 100] ∧
      rotateKeys noBytes [freshKey noBytes 80 100, freshKey noBytes 50 100] 80 100 2 =
        some [freshKey noBytes 80 100, freshKey noBytes 50 100] :=
  (rotateKeys_invariant noBytes noBytes [freshKey noBytes 50 100, freshKey noBytes 0 100] 80 100 2
    (by unfold NewestFirst; decide) (by decide) (by decide) (by decide) (by decide)).2 _ (by decide)

/-- A key valid from the beginning of Java's time. -/
def ancientKey : Key := ⟨[], [], [], -9223372036854775808, 1000000⟩

/-- The age of such a key overflows at any time after the epoch. -/
theorem ancientKey_throws :
    ¬ ∀ (random again : Random) (keys : List Key) (nowMs lifetimeMs : ℤ) (maxKeys : ℕ),
      NewestFirst keys → IsLong nowMs → IsLong lifetimeMs → 1 ≤ lifetimeMs → 1 ≤ maxKeys →
        ∃ after, rotateKeys random keys nowMs lifetimeMs maxKeys = some after ∧
          Rotated keys nowMs lifetimeMs maxKeys after ∧
            rotateKeys again after nowMs lifetimeMs maxKeys = some after := by
  intro invariant
  obtain ⟨after, returned, -⟩ := invariant noBytes noBytes [ancientKey] 30000 100000 4
    (List.pairwise_singleton _ _) (by decide) (by decide) (by decide) (by decide)
  have thrown : rotateKeys noBytes [ancientKey] 30000 100000 4 = none := by decide
  rw [thrown] at returned
  cases returned

/-- A `long` as the C code reads it. -/
def asUnsigned (time : ℤ) : ℤ := time % 18446744073709551616

/-- The test of `clj_ticket_key_callback` for a key to encrypt with. -/
def nativelyActive (nowMs : ℤ) (key : Key) : Bool :=
  asUnsigned key.notBefore ≤ asUnsigned nowMs && asUnsigned nowMs < asUnsigned key.notAfter

/-- The key the ticket encryptor finds. -/
def encryptionKey (keys : List Key) (nowMs : ℤ) : Option Key := keys.find? (nativelyActive nowMs)

/-- Some key is valid, and the ticket encryptor finds one. -/
structure Usable (keys : List Key) (nowMs : ℤ) : Prop where
  active : ∃ key ∈ keys, key.notBefore ≤ nowMs ∧ nowMs < key.notAfter
  found : ∃ key, encryptionKey keys nowMs = some key

instance : Decidable (Usable keys nowMs) :=
  decidable_of_iff ((∃ key ∈ keys, key.notBefore ≤ nowMs ∧ nowMs < key.notAfter) ∧
      (encryptionKey keys nowMs).isSome)
    ⟨fun h => ⟨h.1, Option.isSome_iff_exists.mp h.2⟩,
      fun h => ⟨h.active, Option.isSome_iff_exists.mpr h.found⟩⟩

theorem nativelyActive_fresh (random : Random) (time : IsLong nowMs) (lifetime : 1000 ≤ lifetimeMs)
    (fits : IsLong (nowMs + lifetimeMs)) :
    nativelyActive nowMs (freshKey random nowMs lifetimeMs) = true ↔ 0 ≤ nowMs ∨ nowMs + lifetimeMs ≤ 0 := by
  unfold IsLong at *
  rw [nativelyActive, Bool.and_eq_true, decide_eq_true_iff, decide_eq_true_iff]
  simp only [freshKey, asUnsigned]
  omega

/-- A new key is valid. The ticket encryptor finds it unless it begins before the epoch and
ends after, and then it may find another. -/
theorem usable_fresh_iff {rest : List Key} (time : IsLong nowMs) (lifetime : 1000 ≤ lifetimeMs)
    (fits : IsLong (nowMs + lifetimeMs)) :
    Usable (freshKey random nowMs lifetimeMs :: rest) nowMs ↔
      0 ≤ nowMs ∨ nowMs + lifetimeMs ≤ 0 ∨ ∃ key ∈ rest, nativelyActive nowMs key = true := by
  have active : ∃ key ∈ freshKey random nowMs lifetimeMs :: rest,
      key.notBefore ≤ nowMs ∧ nowMs < key.notAfter := by
    refine ⟨_, List.mem_cons_self, le_refl _, ?_⟩
    simp only [freshKey]
    linarith
  have found : (∃ key, encryptionKey (freshKey random nowMs lifetimeMs :: rest) nowMs = some key) ↔
      0 ≤ nowMs ∨ nowMs + lifetimeMs ≤ 0 ∨ ∃ key ∈ rest, nativelyActive nowMs key = true := by
    rw [← or_assoc, ← nativelyActive_fresh random time lifetime fits,
      ← Option.isSome_iff_exists, encryptionKey, List.find?_isSome, List.exists_mem_cons_iff]
  exact ⟨fun usable => found.mp usable.found, fun either => ⟨active, found.mpr either⟩⟩

theorem rotationIntervalMs_bounds (lifetime : 1000 ≤ lifetimeMs) :
    1 ≤ rotationIntervalMs lifetimeMs ∧ rotationIntervalMs lifetimeMs ≤ lifetimeMs := by
  unfold rotationIntervalMs
  rw [Int.tdiv_eq_ediv_of_nonneg (by linarith)]
  omega

/-- Rotated keys make a snapshot if they are the old ones or a long holds the time of the next
rotation. -/
theorem rotateSnapshot_returns {snapshot : Option Snapshot} {after : List Key} (time : IsLong nowMs)
    (long : IsLong lifetimeMs) (lifetime : 1000 ≤ lifetimeMs)
    (rotated : rotateKeys random ((snapshot.map (·.keys)).getD []) nowMs lifetimeMs maxKeys = some after) :
    (∃ next, rotateSnapshot random snapshot nowMs lifetimeMs maxKeys = some next) ↔
      snapshot.map (·.keys) = some after ∨ IsLong (nowMs + rotationIntervalMs lifetimeMs) := by
  have interval := rotationIntervalMs_bounds lifetime
  unfold rotateSnapshot
  rw [rotated]
  by_cases same : snapshot.map (·.keys) = some after
  · obtain ⟨old, held, rfl⟩ := Option.map_eq_some_iff.mp same
    simp [held]
  · have unfolded : (∃ next, snapshotWithKeys after nowMs lifetimeMs = some next) ↔
        IsLong (nowMs + rotationIntervalMs lifetimeMs) := by
      constructor
      · rintro ⟨next, made⟩
        obtain ⟨sum, summed, -⟩ := Option.bind_eq_some_iff.mp made
        refine (checked_eq_some.mp summed).2 time ?_
        unfold IsLong at *
        omega
      · intro fits
        exact ⟨_, Option.bind_eq_some_iff.mpr ⟨_, checked_eq_some.mpr ⟨rfl, fun _ _ => fits⟩, rfl⟩⟩
    rw [or_iff_right same, ← unfolded]
    change (∃ next, (if snapshot.map (·.keys) = some after then snapshot
      else snapshotWithKeys after nowMs lifetimeMs) = some next) ↔ _
    rw [if_neg same]

/-- A rotation makes a key that longs hold and the encryptor can find, or leaves one among the
retained. -/
def LeavesUsable (snapshot : Option Snapshot) (nowMs lifetimeMs : ℤ) (maxKeys : ℕ) : Prop :=
  let keys := (snapshot.map (·.keys)).getD []
  let kept := retained keys nowMs maxKeys
  (needsNewKey kept nowMs lifetimeMs = some true ∧ IsLong (nowMs + lifetimeMs) ∧
    (0 ≤ nowMs ∨ nowMs + lifetimeMs ≤ 0 ∨
      ∃ key ∈ kept.take (maxKeys - 1), nativelyActive nowMs key = true)) ∨
  (needsNewKey kept nowMs lifetimeMs = some false ∧ Usable kept nowMs ∧
    (snapshot.map (·.keys) = some kept ∨ IsLong (nowMs + rotationIntervalMs lifetimeMs)))

/-- A rotation that is due leaves a key to encrypt with exactly if it makes one that can be
found, or one is among the retained. -/
theorem rotateSnapshot_usable_iff (random : Random) (snapshot : Option Snapshot)
    (nowMs lifetimeMs : ℤ) (maxKeys : ℕ) (time : IsLong nowMs) (long : IsLong lifetimeMs)
    (lifetime : 1000 ≤ lifetimeMs) (some_keys : 1 ≤ maxKeys) :
    (snapshotNeedsRotation snapshot nowMs lifetimeMs = some true →
        ∃ after, rotateSnapshot random snapshot nowMs lifetimeMs maxKeys = some after ∧
          Usable after.keys nowMs) ↔
      (snapshotNeedsRotation snapshot nowMs lifetimeMs = some true →
        LeavesUsable snapshot nowMs lifetimeMs maxKeys) := by
  apply forall_congr'
  intro _
  obtain ⟨n, rfl⟩ := Nat.exists_eq_add_of_le' some_keys
  have positive : 1 ≤ lifetimeMs := le_trans (by decide) lifetime
  constructor
  · rintro ⟨after, returned, usable⟩
    have rotated := rotateSnapshot_keys returned
    rcases (rotateKeys_succ random).mp rotated with ⟨due, newKey, made, same⟩ | ⟨young, same⟩
    · obtain rfl := generateKey_eq_some made
      have fits := (generateKey_returns random time long positive).mp made
      rw [← same, usable_fresh_iff time lifetime fits] at usable
      exact .inl ⟨due, fits, usable⟩
    · have room := (rotateSnapshot_returns time long lifetime rotated).mp ⟨after, returned⟩
      rw [← same] at usable room
      exact .inr ⟨young, usable, room⟩
  · rintro (⟨due, fits, found⟩ | ⟨young, usable, room⟩)
    · have rotated := (rotateKeys_succ random).mpr
        (.inl ⟨due, _, (generateKey_returns random time long positive).mpr fits, rfl⟩)
      have interval := rotationIntervalMs_bounds lifetime
      have room : IsLong (nowMs + rotationIntervalMs lifetimeMs) := by
        unfold IsLong at *
        omega
      obtain ⟨after, returned⟩ := (rotateSnapshot_returns time long lifetime rotated).mpr (.inr room)
      refine ⟨after, returned, ?_⟩
      have same := rotateSnapshot_keys returned
      rw [rotated, Option.some.injEq] at same
      rw [← same]
      exact (usable_fresh_iff time lifetime fits).mpr found
    · have rotated := (rotateKeys_succ random).mpr (.inr ⟨young, rfl⟩)
      obtain ⟨after, returned⟩ := (rotateSnapshot_returns time long lifetime rotated).mpr room
      refine ⟨after, returned, ?_⟩
      have same := rotateSnapshot_keys returned
      rw [rotated, Option.some.injEq] at same
      rwa [← same]

end

/-- A key of the distant past and one whose validity begins later. -/
def aheadOfTime : Snapshot :=
  ⟨[freshKey noBytes 50000 100000, freshKey noBytes 0 2000], none, none⟩

theorem agedKey_replaced :
    ∃ after, rotateSnapshot noBytes (some ⟨[freshKey noBytes 0 100000], none, none⟩) 30000 100000
      4 = some after ∧ Usable after.keys 30000 :=
  (rotateSnapshot_usable_iff noBytes (some ⟨[freshKey noBytes 0 100000], none, none⟩) 30000 100000
    4 (by decide) (by decide) (by decide) (by decide)).mpr
      (fun _ => .inl ⟨by decide, by decide, .inl (by decide)⟩) (by decide)

/-- The only unexpired key is not valid yet, and young enough not to get a successor. -/
theorem aheadOfTime_unusable :
    ¬ ∀ (random : Random) (snapshot : Option Snapshot) (nowMs lifetimeMs : ℤ) (maxKeys : ℕ),
      NewestFirst ((snapshot.map (·.keys)).getD []) → IsLong nowMs → IsLong lifetimeMs →
        1000 ≤ lifetimeMs → 1 ≤ maxKeys → snapshotNeedsRotation snapshot nowMs lifetimeMs = some true →
          ∃ after, rotateSnapshot random snapshot nowMs lifetimeMs maxKeys = some after ∧
            Usable after.keys nowMs := by
  intro usable
  have sorted : NewestFirst aheadOfTime.keys := by
    unfold NewestFirst aheadOfTime
    decide
  obtain ⟨after, returned, left⟩ := usable noBytes (some aheadOfTime) 10000 100000 4 sorted (by decide)
    (by decide) (by decide) (by decide) (by decide)
  have same : rotateSnapshot noBytes (some aheadOfTime) 10000 100000 4 =
      some ⟨[freshKey noBytes 50000 100000], some 10000, some 35000⟩ := by decide
  rw [same] at returned
  obtain rfl := Option.some.inj returned
  revert left
  decide

end Busker.Tickets
