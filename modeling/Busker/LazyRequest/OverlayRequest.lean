import Mathlib.Data.Finmap

/-! The lazy Ring request: a base map that is not looked at before it must be, the entries put
over it and the keys taken out. The map it stands for is compared with the ordinary map on
which the same operations were made. -/

namespace Busker.LazyRequest

/-- The entries of a map. -/
abbrev Entries (κ ν : Type*) := Finmap fun _ : κ => ν

/-- An ordinary persistent map with its metadata. -/
structure PersistentMap (κ ν μ : Type*) where
  entries : Entries κ ν
  metadata : Option μ

structure OverlayLazyRingRequest (κ ν μ : Type*) where
  request : PersistentMap κ ν μ
  overlay : Entries κ ν
  removed : List κ
  metadata : Option μ

/-- The value that the operations return: `cons` makes an ordinary map of the request. -/
inductive Request (κ ν μ : Type*)
  | overlaid (request : OverlayLazyRingRequest κ ν μ)
  | plain (map : PersistentMap κ ν μ)

/-- The operations; `conj` puts entries into the map, those of an entry, of a map or of `nil`. -/
inductive Operation (κ ν μ : Type*)
  | assoc (key : κ) (value : ν)
  | dissoc (key : κ)
  | conj (entries : List (κ × ν))
  | withMeta (metadata : Option μ)

/-- What `APersistentMap.equiv` asks of the map it is compared with. -/
structure MapObject (κ ν : Type*) where
  size : ℕ
  containsKey : κ → Bool
  get : κ → ν

/-- What is seen of a map. Equality with another map is asked from either side. -/
structure View (κ ν μ : Type*) where
  get : κ → ν
  getOr : κ → ν → ν
  contains : κ → Bool
  find : κ → Option (κ × ν)
  count : ℕ
  seq : Multiset (Σ _ : κ, ν)
  equals : MapObject κ ν → Bool
  equalsThis : Entries κ ν → Bool
  hash : ℤ
  metadata : Option μ

section
variable {κ ν μ : Type*} [DecidableEq κ]

namespace PersistentMap

def assoc (map : PersistentMap κ ν μ) (key : κ) (value : ν) : PersistentMap κ ν μ :=
  { map with entries := map.entries.insert key value }

def dissoc (map : PersistentMap κ ν μ) (key : κ) : PersistentMap κ ν μ :=
  { map with entries := map.entries.erase key }

def conj (map : PersistentMap κ ν μ) (entries : List (κ × ν)) : PersistentMap κ ν μ :=
  entries.foldl (fun map entry => map.assoc entry.1 entry.2) map

/-- `merge`: the entries of the second map win, the metadata is the first map's. -/
def merge (map : PersistentMap κ ν μ) (other : Entries κ ν) : PersistentMap κ ν μ :=
  { map with entries := other ∪ map.entries }

end PersistentMap

namespace OverlayLazyRingRequest

/-- `force-overlay-request` -/
def force (r : OverlayLazyRingRequest κ ν μ) : PersistentMap κ ν μ :=
  r.removed.foldl PersistentMap.dissoc (r.request.merge r.overlay)

def assoc (r : OverlayLazyRingRequest κ ν μ) (key : κ) (value : ν) :
    OverlayLazyRingRequest κ ν μ :=
  { r with overlay := r.overlay.insert key value, removed := r.removed.filter (· ≠ key) }

def without (r : OverlayLazyRingRequest κ ν μ) (key : κ) : OverlayLazyRingRequest κ ν μ :=
  { r with overlay := r.overlay.erase key, removed := r.removed.insert key }

def containsKey (r : OverlayLazyRingRequest κ ν μ) (key : κ) : Bool :=
  !(decide (key ∈ r.removed)) && (decide (key ∈ r.overlay) || decide (key ∈ r.request.entries))

variable (nil : ν)

def valAt (r : OverlayLazyRingRequest κ ν μ) (key : κ) : ν :=
  if key ∈ r.removed then nil
  else if key ∈ r.overlay then (r.overlay.lookup key).getD nil
  else (r.request.entries.lookup key).getD nil

def valAtOr (r : OverlayLazyRingRequest κ ν μ) (key : κ) (notFound : ν) : ν :=
  if key ∈ r.removed then notFound
  else if key ∈ r.overlay then (r.overlay.lookup key).getD nil
  else (r.request.entries.lookup key).getD notFound

def entryAt (r : OverlayLazyRingRequest κ ν μ) (key : κ) : Option (κ × ν) :=
  if r.containsKey key then some (key, r.valAt nil key) else none

end OverlayLazyRingRequest

namespace Request

def assoc (request : Request κ ν μ) (key : κ) (value : ν) : Request κ ν μ :=
  match request with
  | overlaid r => overlaid (r.assoc key value)
  | plain map => plain (map.assoc key value)

def dissoc (request : Request κ ν μ) (key : κ) : Request κ ν μ :=
  match request with
  | overlaid r => overlaid (r.without key)
  | plain map => plain (map.dissoc key)

def conj (request : Request κ ν μ) (entries : List (κ × ν)) : Request κ ν μ :=
  match request with
  | overlaid r => plain (r.force.conj entries)
  | plain map => plain (map.conj entries)

def withMeta (request : Request κ ν μ) (metadata : Option μ) : Request κ ν μ :=
  match request with
  | overlaid r => overlaid { r with metadata }
  | plain map => plain { map with metadata }

end Request

/-- The operation on the request. -/
def Request.apply (request : Request κ ν μ) : Operation κ ν μ → Request κ ν μ
  | .assoc key value => request.assoc key value
  | .dissoc key => request.dissoc key
  | .conj entries => request.conj entries
  | .withMeta metadata => request.withMeta metadata

/-- The operation on an ordinary map. -/
def PersistentMap.apply (map : PersistentMap κ ν μ) : Operation κ ν μ → PersistentMap κ ν μ
  | .assoc key value => map.assoc key value
  | .dissoc key => map.dissoc key
  | .conj entries => map.conj entries
  | .withMeta metadata => { map with metadata }

/-- `overlay-lazy-ring-request` -/
def overlayLazyRingRequest (request : PersistentMap κ ν μ) (overlay : Entries κ ν) :
    Request κ ν μ :=
  .overlaid ⟨request, overlay, [], none⟩

section
/- The value `nil`, the equality of values that is asked for, and the hash of entries in any
order. -/
variable (nil : ν) (same : ν → ν → Bool) (hashUnordered : Entries κ ν → ℤ)

/-- `APersistentMap.equiv` -/
def equiv (entries : Entries κ ν) (other : MapObject κ ν) : Bool :=
  other.size == entries.keys.card &&
    entries.all fun key value => other.containsKey key && same value (other.get key)

def PersistentMap.mapObject (map : PersistentMap κ ν μ) : MapObject κ ν where
  size := map.entries.keys.card
  containsKey key := (map.entries.lookup key).isSome
  get key := (map.entries.lookup key).getD nil

def PersistentMap.view (map : PersistentMap κ ν μ) : View κ ν μ where
  get := (map.mapObject nil).get
  getOr key notFound := (map.entries.lookup key).getD notFound
  contains := (map.mapObject nil).containsKey
  find key := (map.entries.lookup key).map fun value => (key, value)
  count := (map.mapObject nil).size
  seq := map.entries.entries
  equals other := equiv same map.entries other
  equalsThis other := equiv same other (map.mapObject nil)
  hash := hashUnordered map.entries
  metadata := map.metadata

def OverlayLazyRingRequest.mapObject (r : OverlayLazyRingRequest κ ν μ) : MapObject κ ν where
  size := r.force.entries.keys.card
  containsKey := r.containsKey
  get := r.valAt nil

def OverlayLazyRingRequest.view (r : OverlayLazyRingRequest κ ν μ) : View κ ν μ where
  get := r.valAt nil
  getOr := r.valAtOr nil
  contains := r.containsKey
  find := r.entryAt nil
  count := r.force.entries.keys.card
  seq := r.force.entries.entries
  equals other := equiv same r.force.entries other
  equalsThis other := equiv same other (r.mapObject nil)
  hash := hashUnordered r.force.entries
  metadata := r.metadata

def Request.view : Request κ ν μ → View κ ν μ
  | overlaid r => r.view nil same hashUnordered
  | plain map => map.view nil same hashUnordered

end

end

end Busker.LazyRequest
