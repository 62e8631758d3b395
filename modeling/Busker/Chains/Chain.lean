import Mathlib.Data.Finset.Card
import Mathlib.Data.Finset.Insert
import Mathlib.Data.List.Basic
import Mathlib.Data.List.Nodup

/-! Chains of an intrusive hash table: every element carries the link to the next one of its
bucket, and the table keeps the first of each. A place that holds a link is an entry. A walk
follows at most `fuel` links, and is `none` when these do not bring it to its end. -/

namespace Busker.Chains

section
variable {κ : Type*}

/-- The links from `head` lead through `xs` and end there. -/
def Chain (next : κ → Option κ) : Option κ → List κ → Prop
  | head, [] => head = none
  | head, x :: xs => head = some x ∧ Chain next (next x) xs

theorem Chain.of_agree {next next' : κ → Option κ} {head : Option κ} {xs : List κ}
    (chain : Chain next head xs) (agree : ∀ x ∈ xs, next' x = next x) :
    Chain next' head xs := by
  induction xs generalizing head with
  | nil => exact chain
  | cons x xs ih =>
      refine ⟨chain.1, ?_⟩
      rw [agree x List.mem_cons_self]
      exact ih chain.2 fun y inside => agree y (List.mem_cons_of_mem x inside)

theorem Chain.unique {next : κ → Option κ} {head : Option κ} {xs ys : List κ}
    (chain : Chain next head xs) (other : Chain next head ys) : xs = ys := by
  induction xs generalizing head ys with
  | nil =>
      cases ys with
      | nil => rfl
      | cons y ys => simp [Chain] at chain other; simp [chain] at other
  | cons x xs ih =>
      cases ys with
      | nil => simp [Chain] at chain other; simp [other] at chain
      | cons y ys =>
          obtain rfl := Option.some.inj (chain.1.symm.trans other.1)
          rw [ih chain.2 other.2]

theorem Chain.after {next : κ → Option κ} {head : Option κ} {front xs : List κ} {x : κ}
    (chain : Chain next head (front ++ x :: xs)) : Chain next (next x) xs := by
  induction front generalizing head with
  | nil => exact chain.2
  | cons y front ih => exact ih chain.2

/-- A chain that ends has no cycle. -/
theorem Chain.nodup {next : κ → Option κ} {head : Option κ} {xs : List κ}
    (chain : Chain next head xs) : xs.Nodup := by
  induction xs generalizing head with
  | nil => exact List.nodup_nil
  | cons x xs ih =>
      refine List.nodup_cons.mpr ⟨fun again => ?_, ih chain.2⟩
      obtain ⟨front, rest, rfl⟩ := List.append_of_mem again
      have same := congrArg List.length (chain.2.unique chain.2.after)
      simp only [List.length_append, List.length_cons] at same
      omega

/-- The first element that satisfies `p`. -/
def walk (next : κ → Option κ) (p : κ → Bool) : ℕ → Option κ → Option (Option κ)
  | 0, _ => none
  | _ + 1, none => some none
  | fuel + 1, some x => if p x then some (some x) else walk next p fuel (next x)

theorem Chain.walk {next : κ → Option κ} {head : Option κ} {xs : List κ}
    (chain : Chain next head xs) (p : κ → Bool) {fuel : ℕ} (enough : xs.length < fuel) :
    walk next p fuel head = some (xs.find? p) := by
  induction xs generalizing head fuel with
  | nil =>
      obtain ⟨fuel, rfl⟩ := Nat.exists_eq_succ_of_ne_zero (Nat.ne_of_gt enough)
      rw [chain]
      rfl
  | cons x xs ih =>
      obtain ⟨fuel, rfl⟩ := Nat.exists_eq_succ_of_ne_zero (Nat.ne_of_gt (Nat.zero_lt_of_lt enough))
      rw [chain.1, Chains.walk, List.find?_cons]
      cases p x with
      | true => rfl
      | false => exact ih chain.2 (by simpa using enough)

end

/-- The first elements of the buckets, and the link of every element. -/
structure Links (κ : Type*) where
  heads : List (Option κ)
  next : κ → Option κ

inductive Entry (κ : Type*)
  | bucket (index : ℕ)
  | next (of : κ)

namespace Links

section
variable {κ : Type*} [DecidableEq κ]

def read (links : Links κ) : Entry κ → Option κ
  | .bucket index => links.heads[index]?.join
  | .next x => links.next x

def write (links : Links κ) (entry : Entry κ) (link : Option κ) : Links κ :=
  match entry with
  | .bucket index => { links with heads := links.heads.set index link }
  | .next x => { links with next := Function.update links.next x link }

/-- `x` becomes the first of a bucket. -/
def push (links : Links κ) (index : ℕ) (x : κ) : Links κ :=
  (links.write (.next x) (links.read (.bucket index))).write (.bucket index) (some x)

/-- `x` is looked for from `entry` on and taken out of the chain; whether it was there. -/
def unlink (x : κ) : ℕ → Links κ → Entry κ → Option (Links κ × Bool)
  | 0, _, _ => none
  | fuel + 1, links, entry =>
      match links.read entry with
      | none => some (links, false)
      | some y =>
          if y = x then some ((links.write entry (links.next x)).write (.next x) none, true)
          else unlink x fuel links (.next y)

/-- Every element of a chain of other buckets is pushed into these. -/
def relinkChain (bucket : κ → ℕ) : ℕ → Links κ → Option κ → Option (Links κ)
  | 0, _, _ => none
  | _ + 1, links, none => some links
  | fuel + 1, links, some x => relinkChain bucket fuel (links.push (bucket x) x) (links.next x)

/-- The buckets `old` are emptied into new ones one after the other. -/
def relink (bucket : κ → ℕ) (fuel : ℕ) (old : List (Option κ)) (links : Links κ) :
    Option (Links κ) :=
  old.foldlM (relinkChain bucket fuel) links

@[simp] theorem push_next (links : Links κ) (index : ℕ) (x : κ) :
    (links.push index x).next = Function.update links.next x (links.read (.bucket index)) :=
  rfl

@[simp] theorem push_heads (links : Links κ) (index : ℕ) (x : κ) :
    (links.push index x).heads = links.heads.set index (some x) :=
  rfl

/-- The entry holds a link that no element of `xs` keeps. -/
def Outside (links : Links κ) (xs : List κ) : Entry κ → Prop
  | .bucket index => index < links.heads.length
  | .next owner => owner ∉ xs

theorem read_write {links : Links κ} {xs : List κ} {entry : Entry κ}
    (outside : links.Outside xs entry) (link : Option κ) :
    (links.write entry link).read entry = link := by
  cases entry with
  | bucket index =>
      show (links.heads.set index link)[index]?.join = link
      rw [List.getElem?_set_self outside]
      rfl
  | next owner => exact Function.update_self owner link links.next

theorem read_write_next {links : Links κ} {xs : List κ} {entry : Entry κ} {x : κ}
    (outside : links.Outside xs entry) (inside : x ∈ xs) (link : Option κ) :
    (links.write (.next x) link).read entry = links.read entry := by
  cases entry with
  | bucket index => rfl
  | next owner =>
      have apart : owner ≠ x := fun same => outside (same ▸ inside)
      exact Function.update_of_ne apart link links.next

theorem write_next_of_outside {links : Links κ} {xs : List κ} {entry : Entry κ} {y : κ}
    (outside : links.Outside xs entry) (inside : y ∈ xs) (link : Option κ) :
    (links.write entry link).next y = links.next y := by
  cases entry with
  | bucket index => rfl
  | next owner =>
      have apart : y ≠ owner := fun same => outside (same ▸ inside)
      exact Function.update_of_ne apart link links.next

/-- What a search may change: the entry it begins at and the links of the chain. -/
structure Frame (links links' : Links κ) (xs : List κ) (entry : Entry κ) : Prop where
  next (y : κ) : y ∉ xs → entry ≠ .next y → links'.next y = links.next y
  heads (i : ℕ) : entry ≠ .bucket i → links'.heads[i]? = links.heads[i]?
  length : links'.heads.length = links.heads.length

/-- A search from an entry outside the chain it holds takes `x` out and leaves the rest. -/
theorem unlink_chain {x : κ} {xs : List κ} {fuel : ℕ} {links : Links κ} {entry : Entry κ}
    (chain : Chain links.next (links.read entry) xs) (inside : x ∈ xs)
    (outside : links.Outside xs entry) (enough : xs.length < fuel) :
    ∃ links', unlink x fuel links entry = some (links', true) ∧
      Chain links'.next (links'.read entry) (xs.erase x) ∧ Frame links links' xs entry := by
  induction xs generalizing fuel links entry with
  | nil => cases inside
  | cons y xs ih =>
      obtain ⟨fuel, rfl⟩ := Nat.exists_eq_succ_of_ne_zero (Nat.ne_of_gt (Nat.zero_lt_of_lt enough))
      have fresh : y ∉ xs := (List.nodup_cons.mp chain.nodup).1
      have first := chain.1
      unfold unlink
      rw [first]
      dsimp only
      by_cases same : y = x
      · subst same
        rw [if_pos rfl, List.erase_cons_head]
        refine ⟨_, rfl, ?_, ?_, ?_, ?_⟩
        · have kept : (links.write entry (links.next y)).Outside (y :: xs) entry := by
            cases entry with
            | bucket index => simpa [Outside, write] using outside
            | next owner => exact outside
          rw [read_write_next kept List.mem_cons_self, read_write outside]
          apply chain.2.of_agree
          intro z inside'
          have other : z ≠ y := fun same => fresh (same ▸ inside')
          show Function.update (links.write entry (links.next y)).next y none z = links.next z
          rw [Function.update_of_ne other]
          exact write_next_of_outside outside (List.mem_cons_of_mem y inside') _
        · intro z away apart
          have other : z ≠ y := fun same => away (same ▸ List.mem_cons_self)
          show Function.update (links.write entry (links.next y)).next y none z = links.next z
          rw [Function.update_of_ne other]
          cases entry with
          | bucket index => rfl
          | next owner =>
              have elsewhere : z ≠ owner := fun same => apart (same ▸ rfl)
              exact Function.update_of_ne elsewhere _ links.next
        · intro i apart
          cases entry with
          | bucket index =>
              have elsewhere : index ≠ i := fun same => apart (same ▸ rfl)
              exact List.getElem?_set_ne elsewhere
          | next owner => rfl
        · cases entry with
          | bucket index => exact List.length_set
          | next owner => rfl
      · rw [if_neg same]
        have inside' : x ∈ xs := (List.mem_cons.mp inside).resolve_left fun eq => same eq.symm
        have outside' : links.Outside xs (.next y) := fresh
        obtain ⟨links', found, chain', frame⟩ :=
          ih chain.2 inside' outside' (by simpa using enough)
        have away (z : κ) (apart : z ∉ y :: xs) : links'.next z = links.next z :=
          frame.next z (fun inside => apart (List.mem_cons_of_mem y inside))
            fun same => apart (Entry.next.inj same ▸ List.mem_cons_self)
        refine ⟨links', found, ?_, ?_, ?_, frame.length⟩
        · rw [List.erase_cons_tail (by simpa using same)]
          refine ⟨?_, chain'⟩
          rw [← first]
          cases entry with
          | bucket index => exact congrArg Option.join (frame.heads index (by simp))
          | next owner => exact away owner outside
        · intro z apart _
          exact away z apart
        · intro i _
          exact frame.heads i (by simp)

end

end Links

end Busker.Chains
