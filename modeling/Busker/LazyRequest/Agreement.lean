import Busker.LazyRequest.OverlayRequest
import Mathlib.Data.List.TakeWhile

/-! After any operations the lazy request has the entries of the ordinary map. Its metadata is
another matter: it begins with none, and `cons` takes that of the base map. -/

namespace Busker.LazyRequest

section
variable {κ ν μ : Type*}

def Operation.isConj : Operation κ ν μ → Bool
  | .conj _ => true
  | _ => false

def Operation.newMeta : Operation κ ν μ → Option (Option μ)
  | .withMeta metadata => some metadata
  | _ => none

/-- The metadata that the last `with-meta` gives, if there is one. -/
def lastMeta (operations : List (Operation κ ν μ)) : Option (Option μ) :=
  (operations.filterMap Operation.newMeta).getLast?

/-- After the first `conj` comes a `with-meta`, or what stood before it left the metadata of
the base map; without `conj` there is a `with-meta`, or the base map has no metadata. -/
def MetadataKept (base : Option μ) (operations : List (Operation κ ν μ)) : Prop :=
  match operations.dropWhile (!·.isConj) with
  | [] => (lastMeta operations).isSome ∨ base = none
  | _ :: later => (lastMeta later).isSome ∨
      (lastMeta (operations.takeWhile (!·.isConj))).getD base = base

theorem lastMeta_cons (operation : Operation κ ν μ) (operations : List (Operation κ ν μ))
    (old : Option μ) :
    (lastMeta (operation :: operations)).getD old =
      (lastMeta operations).getD (operation.newMeta.getD old) := by
  unfold lastMeta
  cases given : operation.newMeta with
  | none => rw [List.filterMap_cons_none given]; rfl
  | some metadata =>
      rw [List.filterMap_cons_some given, List.getLast?_cons]
      cases (operations.filterMap Operation.newMeta).getLast? <;> rfl

theorem lastMeta_append (operations later : List (Operation κ ν μ)) (old : Option μ) :
    (lastMeta (operations ++ later)).getD old =
      (lastMeta later).getD ((lastMeta operations).getD old) := by
  induction operations generalizing old with
  | nil => rfl
  | cons operation operations ih => rw [List.cons_append, lastMeta_cons, ih, lastMeta_cons]

variable [DecidableEq κ]

theorem lookup_insert (entries : Entries κ ν) (key other : κ) (value : ν) :
    (entries.insert key value).lookup other =
      if other = key then some value else entries.lookup other := by
  by_cases same : other = key
  · rw [if_pos same, same, Finmap.lookup_insert]
  · rw [if_neg same, Finmap.lookup_insert_of_ne _ same]

theorem lookup_erase (entries : Entries κ ν) (key other : κ) :
    (entries.erase key).lookup other = if other = key then none else entries.lookup other := by
  by_cases same : other = key
  · rw [if_pos same, same, Finmap.lookup_erase]
  · rw [if_neg same, Finmap.lookup_erase_ne same]

theorem lookup_union (entries other : Entries κ ν) (key : κ) :
    (entries ∪ other).lookup key = (entries.lookup key).or (other.lookup key) := by
  by_cases inside : key ∈ entries
  · obtain ⟨value, found⟩ := Finmap.mem_iff.mp inside
    rw [Finmap.lookup_union_left inside, found]
    rfl
  · rw [Finmap.lookup_union_right inside, Finmap.lookup_eq_none.mpr inside]
    rfl

theorem foldl_dissoc (map : PersistentMap κ ν μ) (removed : List κ) :
    (removed.foldl PersistentMap.dissoc map).metadata = map.metadata ∧
      ∀ key, (removed.foldl PersistentMap.dissoc map).entries.lookup key =
        if key ∈ removed then none else map.entries.lookup key := by
  induction removed generalizing map with
  | nil => exact ⟨rfl, fun key => by simp⟩
  | cons first removed ih =>
      obtain ⟨metadata, entries⟩ := ih (map.dissoc first)
      refine ⟨metadata, fun key => ?_⟩
      rw [List.foldl_cons, entries]
      unfold PersistentMap.dissoc
      rw [lookup_erase]
      by_cases same : key = first
      · simp [same]
      · simp [same]

theorem foldl_conj (map : PersistentMap κ ν μ) (entries : List (κ × ν)) :
    (map.conj entries).metadata = map.metadata := by
  unfold PersistentMap.conj
  induction entries generalizing map with
  | nil => rfl
  | cons entry entries ih => exact ih _

theorem conj_entries {map other : PersistentMap κ ν μ} (same : map.entries = other.entries)
    (entries : List (κ × ν)) : (map.conj entries).entries = (other.conj entries).entries := by
  unfold PersistentMap.conj
  induction entries generalizing map other with
  | nil => exact same
  | cons entry entries ih =>
      apply ih
      show map.entries.insert entry.1 entry.2 = other.entries.insert entry.1 entry.2
      rw [same]

namespace OverlayLazyRingRequest

/-- A key that was taken out is gone; else the overlay wins. -/
theorem lookup_force (r : OverlayLazyRingRequest κ ν μ) (key : κ) :
    r.force.entries.lookup key =
      if key ∈ r.removed then none
      else (r.overlay.lookup key).or (r.request.entries.lookup key) := by
  unfold force
  rw [(foldl_dissoc _ _).2]
  unfold PersistentMap.merge
  rw [lookup_union]

theorem force_metadata (r : OverlayLazyRingRequest κ ν μ) :
    r.force.metadata = r.request.metadata :=
  (foldl_dissoc _ _).1

theorem containsKey_eq (r : OverlayLazyRingRequest κ ν μ) (key : κ) :
    r.containsKey key = (r.force.entries.lookup key).isSome := by
  unfold containsKey
  rw [lookup_force]
  by_cases gone : key ∈ r.removed
  · simp [gone]
  · rw [if_neg gone, Option.isSome_or, Bool.eq_iff_iff]
    simp [gone, Finmap.lookup_isSome]

theorem valAtOr_eq (nil : ν) (r : OverlayLazyRingRequest κ ν μ) (key : κ) (notFound : ν) :
    r.valAtOr nil key notFound = (r.force.entries.lookup key).getD notFound := by
  unfold valAtOr
  rw [lookup_force]
  by_cases gone : key ∈ r.removed
  · rw [if_pos gone, if_pos gone]
    rfl
  rw [if_neg gone, if_neg gone]
  by_cases inside : key ∈ r.overlay
  · obtain ⟨value, found⟩ := Finmap.mem_iff.mp inside
    rw [if_pos inside, found]
    rfl
  · rw [if_neg inside, Finmap.lookup_eq_none.mpr inside]
    rfl

theorem valAt_eq (nil : ν) (r : OverlayLazyRingRequest κ ν μ) (key : κ) :
    r.valAt nil key = (r.force.entries.lookup key).getD nil :=
  valAtOr_eq nil r key nil

theorem entryAt_eq (nil : ν) (r : OverlayLazyRingRequest κ ν μ) (key : κ) :
    r.entryAt nil key = (r.force.entries.lookup key).map fun value => (key, value) := by
  unfold entryAt
  rw [containsKey_eq, valAt_eq]
  cases r.force.entries.lookup key with
  | none => rfl
  | some value => rfl

theorem force_assoc (r : OverlayLazyRingRequest κ ν μ) (key : κ) (value : ν) :
    (r.assoc key value).force.entries = r.force.entries.insert key value := by
  apply Finmap.ext_lookup
  intro other
  rw [lookup_insert, lookup_force, lookup_force]
  unfold assoc
  dsimp only
  rw [lookup_insert]
  by_cases same : other = key
  · simp [same]
  · simp [same]

theorem force_without (r : OverlayLazyRingRequest κ ν μ) (key : κ) :
    (r.without key).force.entries = r.force.entries.erase key := by
  apply Finmap.ext_lookup
  intro other
  rw [lookup_erase, lookup_force, lookup_force]
  unfold without
  dsimp only
  rw [lookup_erase]
  by_cases same : other = key
  · simp [same]
  · simp [same]

end OverlayLazyRingRequest

/-- The ordinary map that a request is seen as. -/
def Request.map : Request κ ν μ → PersistentMap κ ν μ
  | overlaid r => { r.force with metadata := r.metadata }
  | plain map => map

/-- Every accessor of a request is the accessor of its map. -/
theorem Request.view_map (nil : ν) (same : ν → ν → Bool) (hashUnordered : Entries κ ν → ℤ)
    (request : Request κ ν μ) :
    request.view nil same hashUnordered = request.map.view nil same hashUnordered := by
  cases request with
  | plain map => rfl
  | overlaid r =>
      have get : r.valAt nil = fun key => (r.force.entries.lookup key).getD nil := by
        funext key
        exact r.valAt_eq nil key
      have getOr : r.valAtOr nil = fun key => (r.force.entries.lookup key).getD := by
        funext key notFound
        exact r.valAtOr_eq nil key notFound
      have contains : r.containsKey = fun key => (r.force.entries.lookup key).isSome := by
        funext key
        exact r.containsKey_eq key
      have find : r.entryAt nil =
          fun key => (r.force.entries.lookup key).map fun value => (key, value) := by
        funext key
        exact r.entryAt_eq nil key
      show r.view nil same hashUnordered = _
      unfold OverlayLazyRingRequest.view OverlayLazyRingRequest.mapObject
      rw [get, getOr, contains, find]
      rfl

/-- The entries follow the ordinary map, operation by operation. -/
theorem Request.apply_entries {request : Request κ ν μ} {map : PersistentMap κ ν μ}
    (same : request.map.entries = map.entries) (operation : Operation κ ν μ) :
    (request.apply operation).map.entries = (map.apply operation).entries := by
  cases request with
  | plain own =>
      cases operation with
      | assoc key value => exact congrArg (Finmap.insert key value) same
      | dissoc key => exact congrArg (Finmap.erase key) same
      | conj entries => exact conj_entries same entries
      | withMeta metadata => exact same
  | overlaid r =>
      cases operation with
      | assoc key value =>
          exact (r.force_assoc key value).trans (congrArg (Finmap.insert key value) same)
      | dissoc key => exact (r.force_without key).trans (congrArg (Finmap.erase key) same)
      | conj entries =>
          have forced : r.force.entries = map.entries := same
          exact conj_entries forced entries
      | withMeta metadata => exact same

theorem foldl_entries {request : Request κ ν μ} {map : PersistentMap κ ν μ}
    (same : request.map.entries = map.entries) (operations : List (Operation κ ν μ)) :
    (operations.foldl Request.apply request).map.entries =
      (operations.foldl PersistentMap.apply map).entries := by
  induction operations generalizing request map with
  | nil => exact same
  | cons operation operations ih => exact ih (request.apply_entries same operation)

theorem foldl_metadata (map : PersistentMap κ ν μ) (operations : List (Operation κ ν μ)) :
    (operations.foldl PersistentMap.apply map).metadata =
      (lastMeta operations).getD map.metadata := by
  induction operations generalizing map with
  | nil => rfl
  | cons operation operations ih =>
      rw [List.foldl_cons, ih, lastMeta_cons]
      congr 1
      cases operation with
      | conj entries => exact foldl_conj map entries
      | _ => rfl

/-- As long as there is no `conj`, the request keeps its base map and counts its own metadata. -/
theorem foldl_overlaid {operations : List (Operation κ ν μ)}
    (none' : ∀ operation ∈ operations, operation.isConj = false)
    (r : OverlayLazyRingRequest κ ν μ) :
    ∃ r' : OverlayLazyRingRequest κ ν μ,
      operations.foldl Request.apply (.overlaid r) = .overlaid r' ∧
        r'.request = r.request ∧ r'.metadata = (lastMeta operations).getD r.metadata := by
  induction operations generalizing r with
  | nil => exact ⟨r, rfl, rfl, rfl⟩
  | cons operation operations ih =>
      have later := fun other inside => none' other (List.mem_cons_of_mem operation inside)
      rw [List.foldl_cons, lastMeta_cons]
      cases operation with
      | assoc key value => exact ih later (r.assoc key value)
      | dissoc key => exact ih later (r.without key)
      | conj entries => exact absurd (none' _ List.mem_cons_self) (by simp [Operation.isConj])
      | withMeta metadata => exact ih later { r with metadata }

theorem foldl_plain (map : PersistentMap κ ν μ) (operations : List (Operation κ ν μ)) :
    operations.foldl Request.apply (.plain map) =
      .plain (operations.foldl PersistentMap.apply map) := by
  induction operations generalizing map with
  | nil => rfl
  | cons operation operations ih =>
      rw [List.foldl_cons, List.foldl_cons, ← ih]
      cases operation <;> rfl

/-- The metadata agrees exactly under the condition. -/
theorem metadata_iff (base : PersistentMap κ ν μ) (overlay : Entries κ ν)
    (operations : List (Operation κ ν μ)) :
    (operations.foldl Request.apply (overlayLazyRingRequest base overlay)).map.metadata =
        (operations.foldl PersistentMap.apply (base.merge overlay)).metadata ↔
      MetadataKept base.metadata operations := by
  rw [foldl_metadata]
  unfold MetadataKept
  have split : operations = operations.takeWhile (!·.isConj) ++ operations.dropWhile (!·.isConj) :=
    List.takeWhile_append_dropWhile.symm
  have none' : ∀ operation ∈ operations.takeWhile (!·.isConj), operation.isConj = false := by
    intro operation inside
    simpa using List.mem_takeWhile_imp inside
  have first : ∀ operation ∈ (operations.dropWhile (!·.isConj)).head?, operation.isConj = true := by
    intro operation inside
    have found := List.head?_dropWhile_not (!·.isConj) operations
    rw [inside] at found
    simpa using found
  generalize operations.takeWhile (!·.isConj) = before at split none' ⊢
  generalize operations.dropWhile (!·.isConj) = rest at split first ⊢
  subst split
  obtain ⟨r, ran, request, metadata⟩ := foldl_overlaid none' ⟨base, overlay, [], none⟩
  have begun : before.foldl Request.apply (overlayLazyRingRequest base overlay) = .overlaid r := ran
  rw [List.foldl_append, begun]
  cases rest with
  | nil =>
      rw [List.append_nil]
      show r.metadata = (lastMeta before).getD base.metadata ↔ _
      rw [metadata]
      cases lastMeta before with
      | none => simp [eq_comm]
      | some given => simp
  | cons operation later =>
      cases operation with
      | conj entries =>
          have forced : (r.force.conj entries).metadata = base.metadata := by
            rw [foldl_conj, r.force_metadata, request]
          show ((later.foldl Request.apply (.plain (r.force.conj entries))).map.metadata = _) ↔ _
          rw [foldl_plain]
          show (later.foldl PersistentMap.apply (r.force.conj entries)).metadata = _ ↔ _
          rw [foldl_metadata, forced, lastMeta_append, lastMeta_cons]
          show (lastMeta later).getD base.metadata =
              (lastMeta later).getD ((lastMeta before).getD base.metadata) ↔
            (lastMeta later).isSome ∨ (lastMeta before).getD base.metadata = base.metadata
          cases lastMeta later with
          | none =>
              exact ⟨fun same => .inr same.symm, fun same => (same.resolve_left (by simp)).symm⟩
          | some given => simp
      | _ => simpa [Operation.isConj] using first _ rfl

/-- After any operations the entries are those of the ordinary map. -/
theorem overlayRequest_entries (base : PersistentMap κ ν μ) (overlay : Entries κ ν)
    (operations : List (Operation κ ν μ)) :
    (operations.foldl Request.apply (overlayLazyRingRequest base overlay)).map.entries =
      (operations.foldl PersistentMap.apply (base.merge overlay)).entries := by
  have start : (overlayLazyRingRequest base overlay).map.entries =
      (base.merge overlay).entries := rfl
  exact foldl_entries start operations

/-- After any operations the request is seen as the ordinary map is, metadata included, exactly
under the condition on the metadata. -/
theorem overlayRequest_agrees_iff (nil : ν) (same : ν → ν → Bool)
    (hashUnordered : Entries κ ν → ℤ) (base : PersistentMap κ ν μ) (overlay : Entries κ ν)
    (operations : List (Operation κ ν μ)) :
    (operations.foldl Request.apply (overlayLazyRingRequest base overlay)).view
          nil same hashUnordered =
        (operations.foldl PersistentMap.apply (base.merge overlay)).view nil same hashUnordered ↔
      MetadataKept base.metadata operations := by
  rw [← metadata_iff base overlay operations, Request.view_map]
  constructor
  · exact congrArg View.metadata
  · intro metadata
    have entries := overlayRequest_entries base overlay operations
    congr 1
    generalize operations.foldl Request.apply (overlayLazyRingRequest base overlay) = request
      at metadata entries
    generalize operations.foldl PersistentMap.apply (base.merge overlay) = map at metadata entries
    cases map
    exact congrArg₂ PersistentMap.mk entries metadata

end

/-- Metadata that was put on a request is gone after a `conj`. -/
theorem conj_dropsMetadata :
    let operations : List (Operation ℕ ℕ ℕ) := [.withMeta (some 1), .conj [(0, 0)]]
    (operations.foldl Request.apply (overlayLazyRingRequest ⟨∅, none⟩ ∅)).view
        0 (· == ·) (fun _ => 0) ≠
      (operations.foldl PersistentMap.apply (PersistentMap.merge ⟨∅, none⟩ ∅)).view
        0 (· == ·) fun _ => 0 := by
  intro operations agree
  have metadata := congrArg View.metadata agree
  exact absurd metadata (by decide)

end Busker.LazyRequest
