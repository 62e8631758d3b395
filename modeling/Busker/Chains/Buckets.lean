import Busker.Chains.Chain
import Mathlib.Data.Finset.Filter
import Mathlib.Data.Finset.Union
import Mathlib.Data.Finset.Lattice.Lemmas

/-! Buckets as a whole: each holds one chain of exactly the elements that belong to it. The
walks then need no more links than there are elements. -/

namespace Busker.Chains

variable {κ : Type*}

/-- The chains of `heads`, which are the buckets from `offset` on, hold the elements of
`entries` that belong to them. -/
def Placed (next : κ → Option κ) (bucket : κ → ℕ) (offset : ℕ) (heads : List (Option κ))
    (entries : Finset κ) : Prop :=
  ∀ j head, heads[j]? = some head →
    ∃ xs, Chain next head xs ∧ ∀ x, x ∈ xs ↔ x ∈ entries ∧ bucket x = offset + j

/-- The buckets of `links` hold `entries`. -/
def Links.Holds (links : Links κ) (bucket : κ → ℕ) (entries : Finset κ) : Prop :=
  Placed links.next bucket 0 links.heads entries

theorem Chain.length_le [DecidableEq κ] {next : κ → Option κ} {head : Option κ} {xs : List κ}
    {entries : Finset κ} (chain : Chain next head xs) (inside : ∀ x ∈ xs, x ∈ entries) :
    xs.length ≤ entries.card := by
  rw [← List.toFinset_card_of_nodup chain.nodup]
  apply Finset.card_le_card
  intro x member
  exact inside x (List.mem_toFinset.mp member)

namespace Links

theorem read_bucket (links : Links κ) (index : ℕ) :
    links.read (.bucket index) = links.heads[index]?.join :=
  rfl

theorem holds_empty (next : κ → Option κ) (bucket : κ → ℕ) (capacity : ℕ) :
    Holds ⟨List.replicate capacity none, next⟩ bucket ∅ := by
  intro j head at'
  refine ⟨[], ?_, by simp⟩
  exact (List.mem_replicate.mp (List.mem_of_getElem? at')).2

variable {links : Links κ} {bucket : κ → ℕ} {entries : Finset κ}

theorem Holds.chain (holds : links.Holds bucket entries) {i : ℕ}
    (inRange : i < links.heads.length) :
    ∃ xs, Chain links.next (links.read (.bucket i)) xs ∧
      ∀ x, x ∈ xs ↔ x ∈ entries ∧ bucket x = i := by
  obtain ⟨xs, chain, members⟩ := holds i _ (List.getElem?_eq_getElem inRange)
  refine ⟨xs, ?_, fun x => by simpa using members x⟩
  rwa [read_bucket, List.getElem?_eq_getElem inRange]

/-- Where there is nothing to hold every bucket is empty. -/
theorem Holds.heads_empty (holds : links.Holds bucket ∅) {head : Option κ} (listed : head ∈ links.heads) :
    head = none := by
  obtain ⟨j, at'⟩ := List.getElem?_of_mem listed
  obtain ⟨xs, chain, members⟩ := holds j head at'
  obtain rfl : xs = [] := List.eq_nil_iff_forall_not_mem.mpr fun x inside => by simpa using (members x).mp inside
  exact chain

theorem Holds.congr (holds : links.Holds bucket entries) {bucket' : κ → ℕ}
    (same : ∀ x ∈ entries, bucket' x = bucket x) : links.Holds bucket' entries := by
  intro j head at'
  obtain ⟨xs, chain, members⟩ := holds j head at'
  refine ⟨xs, chain, fun x => (members x).trans ?_⟩
  apply and_congr_right
  intro inside
  rw [same x inside]

variable [DecidableEq κ]

/-- A search of a bucket finds an element of it that satisfies `p`, if there is one. -/
theorem Holds.walk (holds : links.Holds bucket entries) {i : ℕ} (inRange : i < links.heads.length)
    (p : κ → Bool) {fuel : ℕ} (enough : entries.card < fuel) :
    ∃ found, walk links.next p fuel (links.read (.bucket i)) = some found ∧
      (∀ x, found = some x → x ∈ entries ∧ p x) ∧
      (found = none → ∀ x ∈ entries, bucket x = i → p x = false) := by
  obtain ⟨xs, chain, members⟩ := holds.chain inRange
  have short := chain.length_le fun x inside => ((members x).mp inside).1
  refine ⟨xs.find? p, chain.walk p (by omega), fun x found => ?_, fun missed x inside own => ?_⟩
  · exact ⟨((members x).mp (List.mem_of_find?_eq_some found)).1, List.find?_some found⟩
  · simpa using List.find?_eq_none.mp missed x ((members x).mpr ⟨inside, own⟩)

theorem Holds.push (holds : links.Holds bucket entries) {x : κ} (absent : x ∉ entries)
    (inRange : bucket x < links.heads.length) :
    (links.push (bucket x) x).Holds bucket (insert x entries) := by
  intro j head at'
  rw [push_heads, List.getElem?_set] at at'
  rw [push_next]
  by_cases own : bucket x = j
  · rw [if_pos own, if_pos inRange] at at'
    obtain rfl := Option.some.inj at'
    obtain ⟨xs, chain, members⟩ := holds.chain inRange
    have fresh : x ∉ xs := fun inside => absent ((members x).mp inside).1
    refine ⟨x :: xs, ⟨rfl, ?_⟩, fun y => ?_⟩
    · rw [Function.update_self]
      apply chain.of_agree
      intro y inside
      have other : y ≠ x := fun same => fresh (same ▸ inside)
      exact Function.update_of_ne other _ _
    · rw [List.mem_cons, members, Finset.mem_insert, ← own]
      constructor
      · rintro (rfl | ⟨inside, same⟩)
        · exact ⟨.inl rfl, (Nat.zero_add _).symm⟩
        · exact ⟨.inr inside, by omega⟩
      · rintro ⟨rfl | inside, same⟩
        · exact .inl rfl
        · exact .inr ⟨inside, by omega⟩
  · rw [if_neg own] at at'
    obtain ⟨xs, chain, members⟩ := holds j head at'
    refine ⟨xs, ?_, fun y => ?_⟩
    · apply chain.of_agree
      intro y inside
      have other : y ≠ x := fun same => absent (same ▸ ((members y).mp inside).1)
      exact Function.update_of_ne other _ _
    · rw [members, Finset.mem_insert]
      constructor
      · exact fun ⟨inside, same⟩ => ⟨.inr inside, same⟩
      · rintro ⟨rfl | inside, same⟩
        · omega
        · exact ⟨inside, same⟩

theorem Holds.unlink (holds : links.Holds bucket entries) {x : κ} (inside : x ∈ entries)
    (inRange : bucket x < links.heads.length) {fuel : ℕ} (enough : entries.card < fuel) :
    ∃ links', unlink x fuel links (.bucket (bucket x)) = some (links', true) ∧
      links'.Holds bucket (entries.erase x) ∧ links'.heads.length = links.heads.length := by
  obtain ⟨xs, chain, members⟩ := holds.chain inRange
  have short := chain.length_le fun y member => ((members y).mp member).1
  have own : x ∈ xs := (members x).mpr ⟨inside, rfl⟩
  have outside : links.Outside xs (.bucket (bucket x)) := inRange
  obtain ⟨links', found, chain', frame⟩ :=
    unlink_chain chain own outside (show xs.length < fuel by omega)
  refine ⟨links', found, ?_, frame.length⟩
  intro j head at'
  by_cases same : bucket x = j
  · subst same
    rw [read_bucket, at'] at chain'
    refine ⟨xs.erase x, chain', fun y => ?_⟩
    rw [chain.nodup.mem_erase_iff, members, Finset.mem_erase]
    constructor
    · exact fun ⟨other, inside, same⟩ => ⟨⟨other, inside⟩, by omega⟩
    · exact fun ⟨⟨other, inside⟩, same⟩ => ⟨other, inside, by omega⟩
  · rw [frame.heads j (fun eq => same (Entry.bucket.inj eq))] at at'
    obtain ⟨ys, chain'', members'⟩ := holds j head at'
    refine ⟨ys, ?_, fun y => ?_⟩
    · apply chain''.of_agree
      intro y member
      apply frame.next y ?_ (by simp)
      intro elsewhere
      have := ((members y).mp elsewhere).2
      have := ((members' y).mp member).2
      omega
    · rw [members', Finset.mem_erase]
      constructor
      · exact fun ⟨inside, eq⟩ => ⟨⟨fun other => same (by rw [← other]; omega), inside⟩, eq⟩
      · exact fun ⟨⟨_, inside⟩, eq⟩ => ⟨inside, eq⟩

/-- The chain is pushed element by element; the links of other elements stay. -/
theorem Holds.relinkChain {links : Links κ} {entries : Finset κ}
    (holds : links.Holds bucket entries) {head : Option κ} {xs : List κ}
    (chain : Chain links.next head xs) (apart : ∀ x ∈ xs, x ∉ entries)
    (inRange : ∀ x, bucket x < links.heads.length) {fuel : ℕ} (enough : xs.length < fuel) :
    ∃ links', relinkChain bucket fuel links head = some links' ∧
      links'.Holds bucket (entries ∪ xs.toFinset) ∧
      (∀ y, y ∉ xs → links'.next y = links.next y) ∧
      links'.heads.length = links.heads.length := by
  induction xs generalizing links entries head fuel with
  | nil =>
      obtain ⟨fuel, rfl⟩ := Nat.exists_eq_succ_of_ne_zero (Nat.ne_of_gt enough)
      obtain rfl := chain
      exact ⟨links, rfl, by simpa using holds, fun _ _ => rfl, rfl⟩
  | cons x xs ih =>
      obtain ⟨fuel, rfl⟩ := Nat.exists_eq_succ_of_ne_zero (Nat.ne_of_gt (Nat.zero_lt_of_lt enough))
      obtain ⟨rfl, rest⟩ := chain
      have fresh : x ∉ xs := (List.nodup_cons.mp (Chain.nodup ⟨rfl, rest⟩)).1
      have pushed := holds.push (apart x List.mem_cons_self) (inRange x)
      have rest' : Chain (links.push (bucket x) x).next (links.next x) xs := by
        apply rest.of_agree
        intro y inside
        have other : y ≠ x := fun same => fresh (same ▸ inside)
        exact Function.update_of_ne other _ _
      have apart' (y : κ) (inside : y ∈ xs) : y ∉ insert x entries := by
        rw [Finset.mem_insert]
        rintro (rfl | old)
        · exact fresh inside
        · exact apart y (List.mem_cons_of_mem x inside) old
      obtain ⟨links', done, holds', kept, length⟩ :=
        ih pushed rest' apart' (by simpa using inRange) (by simpa using enough)
      refine ⟨links', done, ?_, fun y away => ?_, by simpa using length⟩
      · rwa [List.toFinset_cons, Finset.union_insert, ← Finset.insert_union]
      · rw [List.mem_cons, not_or] at away
        rw [kept y away.2]
        exact Function.update_of_ne away.1 _ _

/-- After the buckets before `i` the new ones hold the elements that were in them. -/
theorem relink_placed {links : Links κ} {oldBucket : κ → ℕ} {heads : List (Option κ)} {i : ℕ}
    (placed : Placed links.next oldBucket i heads entries)
    (done : links.Holds bucket (entries.filter (oldBucket · < i)))
    (inRange : ∀ x, bucket x < links.heads.length) {fuel : ℕ} (enough : entries.card < fuel) :
    ∃ links', relink bucket fuel heads links = some links' ∧
      links'.Holds bucket (entries.filter (oldBucket · < i + heads.length)) ∧
      links'.heads.length = links.heads.length := by
  induction heads generalizing links i with
  | nil => exact ⟨links, rfl, done, rfl⟩
  | cons head heads ih =>
      obtain ⟨xs, chain, members⟩ := placed 0 head rfl
      have short := chain.length_le fun x inside => ((members x).mp inside).1
      have apart (x : κ) (inside : x ∈ xs) : x ∉ entries.filter (oldBucket · < i) := by
        have own := ((members x).mp inside).2
        rw [Finset.mem_filter]
        omega
      obtain ⟨links', pushed, holds, kept, length⟩ :=
        done.relinkChain chain apart inRange (show xs.length < fuel by omega)
      have more : entries.filter (oldBucket · < i) ∪ xs.toFinset =
          entries.filter (oldBucket · < i + 1) := by
        ext x
        simp only [Finset.mem_union, Finset.mem_filter, List.mem_toFinset, members]
        constructor
        · rintro (⟨inside, before⟩ | ⟨inside, own⟩) <;> exact ⟨inside, by omega⟩
        · rintro ⟨inside, before⟩
          by_cases own : oldBucket x = i
          · exact .inr ⟨inside, own⟩
          · exact .inl ⟨inside, by omega⟩
      rw [more] at holds
      have placed' : Placed links'.next oldBucket (i + 1) heads entries := by
        intro j head' at'
        obtain ⟨ys, chain', members'⟩ := placed (j + 1) head' at'
        refine ⟨ys, chain'.of_agree fun y inside => kept y fun own => ?_, fun x => ?_⟩
        · have := ((members y).mp own).2
          have := ((members' y).mp inside).2
          omega
        · rw [members', Nat.add_assoc, Nat.add_comm 1 j]
      obtain ⟨last, relinked, holds', length'⟩ := ih placed' holds (by rwa [length])
      refine ⟨last, ?_, ?_, length'.trans length⟩
      · show (head :: heads).foldlM (Links.relinkChain bucket fuel) links = some last
        rw [List.foldlM_cons, pushed]
        exact relinked
      · rw [List.length_cons, Nat.add_comm heads.length 1, ← Nat.add_assoc]
        exact holds'

/-- All elements of the old buckets are in the new ones. -/
theorem Holds.relink (holds : links.Holds bucket entries)
    (inRange : ∀ x, bucket x < links.heads.length) {newBucket : κ → ℕ} {capacity : ℕ}
    (newRange : ∀ x, newBucket x < capacity) {fuel : ℕ} (enough : entries.card < fuel) :
    ∃ links', relink newBucket fuel links.heads ⟨List.replicate capacity none, links.next⟩ =
        some links' ∧
      links'.Holds newBucket entries ∧ links'.heads.length = capacity := by
  have none' : entries.filter (bucket · < 0) = ∅ := by simp
  have all : entries.filter (bucket · < 0 + links.heads.length) = entries := by
    rw [Nat.zero_add, Finset.filter_true_of_mem fun x _ => inRange x]
  have start := holds_empty links.next newBucket capacity
  rw [← none'] at start
  have old : Placed (Links.mk (List.replicate capacity none) links.next).next bucket 0
      links.heads entries := holds
  obtain ⟨links', relinked, holds', length⟩ :=
    relink_placed old start (by simpa using newRange) enough
  rw [all] at holds'
  exact ⟨links', relinked, holds', by simpa using length⟩

end Links

end Busker.Chains
