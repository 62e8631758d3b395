import Busker.Interleaving.Census
import Busker.ListenerPool.Effects

/-! Reference counting over every run of `acquire-claim` and `release!`: the pool has an
entry for a key as long as a claim on it is outstanding, its count is the number of
those claims, all of them hold the entry's resource, and a resource is closed once,
after its last claim was released. -/

namespace Busker.ListenerPool

open Interleaving

variable {ι φ : Type*}

namespace Store

/-- The key has an entry, and this is the resource in it. -/
def Holds (s : Store ι φ) (key : ListenerKey) (resource : ℕ) : Prop :=
  (s.state key).map Entry.resource = some resource

instance (s : Store ι φ) (key : ListenerKey) (resource : ℕ) : Decidable (s.Holds key resource) :=
  inferInstanceAs (Decidable (_ = _))

theorem refCount_setState (s : Store ι φ) (key k : ListenerKey) (entry : Option Entry) :
    (s.setState key entry).refCount k =
      if k = key then entry.elim 0 Entry.refCount else s.refCount k := by
  unfold refCount setState
  by_cases h : k = key
  · subst h
    simp
  · simp [h]

theorem holds_setState (s : Store ι φ) (key k : ListenerKey) (entry : Option Entry) (r : ℕ) :
    (s.setState key entry).Holds k r ↔
      if k = key then entry.map Entry.resource = some r else s.Holds k r := by
  unfold Holds setState
  by_cases h : k = key
  · subst h
    simp
  · simp [h]

/-- Changing an entry's count leaves its resource where it is. -/
theorem holds_recount {s : Store ι φ} {key : ListenerKey} {entry : Entry}
    (here : s.state key = some entry) (n : ℕ) (k : ListenerKey) (r : ℕ) :
    (s.setState key (some { entry with refCount := n })).Holds k r ↔ s.Holds k r := by
  rw [holds_setState]
  split
  · subst k
    rw [Holds, here]
    rfl
  · rfl

theorem holds_iff_of_state {s t : Store ι φ} (same : t.state = s.state) (key : ListenerKey) (r : ℕ) :
    t.Holds key r ↔ s.Holds key r := by
  rw [Holds, Holds, same]

end Store

variable [DecidableEq ι] [Fintype ι]

/-- The claims on a key that the pool has to count: those not released, those being
given back and those not yet handed to their caller. -/
def outstanding (s : State ι φ) (key : ListenerKey) : ℕ :=
  s.store.claims.countP (Claim.unreleasedOn key) + census (granting key) s.callers +
    census (givingBack key) s.callers

/-- Every opened resource is in the pool, on its way to be closed, or closed. -/
def whereabouts (s : State ι φ) (key : ListenerKey) (r : ℕ) : ℕ :=
  s.store.closes.count r + census (closingOf r) s.callers + if s.store.Holds key r then 1 else 0

structure Consistent (s : State ι φ) : Prop where
  guarded : Guarded s.store.lock inMonitor s.callers
  unopened : ∀ i key, opening (s.callers i) = some key → s.store.state key = none
  counted : ∀ key, s.store.refCount key = outstanding s key
  entries : ∀ key entry, s.store.state key = some entry →
    0 < entry.refCount ∧ s.store.opened[entry.resource]? = some key
  claims : ∀ c ∈ s.store.claims, c.released = false → s.store.Holds c.key c.resource
  grants : ∀ i key r, granted (s.callers i) = some (key, r) → s.store.Holds key r
  closings : ∀ i r, closing (s.callers i) = some r → r < s.store.opened.length
  closes : ∀ r ∈ s.store.closes, r < s.store.opened.length
  once : ∀ r key, s.store.opened[r]? = some key → whereabouts s key r = 1

section step

variable {s : State ι φ} {i : ι} {t : Store ι φ} {q : Caller}

theorem inMonitor_of_opening {p : Caller} {key : ListenerKey} (h : opening p = some key) :
    inMonitor p = true := by
  cases p <;> simp_all [opening, inMonitor]

omit [DecidableEq ι] in
/-- The other threads open nothing while one is inside the lock. -/
theorem Consistent.none_opening (h : Consistent s) (inside : inMonitor (s.callers i) = true) {j : ι}
    (other : j ≠ i) (key : ListenerKey) : opening (s.callers j) ≠ some key := by
  intro ho
  have outside := h.guarded.others inside other
  rw [inMonitor_of_opening ho] at outside
  contradiction

theorem unopened_step (h : Consistent s) (moved : Effect s.store (s.callers i) t q) :
    ∀ j key, opening (Function.update s.callers i q j) = some key → t.state key = none := by
  intro j key
  generalize hp : s.callers i = p at moved
  by_cases hj : j = i
  · subst hj
    rw [Function.update_self]
    intro ho
    cases moved with
    | keep same _ _ _ opens =>
      rw [same.state]
      exact (opens key ho).elim (fun before => h.unopened j key (hp ▸ before)) id
    | closed key' r => simp [(afterClose_idle key').2.2.2.1] at ho
    | _ => simp [opening] at ho
  · rw [Function.update_of_ne hj]
    intro ho
    have before := h.unopened j key ho
    cases moved with
    | keep same => rw [same.state, before]
    | claimed => exact before
    | swapped => exact before
    | missing => exact before
    | closed => exact before
    | _ => exact absurd ho (h.none_opening (hp ▸ rfl) hj key)

theorem counted_step (h : Consistent s) (moved : Effect s.store (s.callers i) t q) (key : ListenerKey) :
    t.refCount key = outstanding ⟨t, Function.update s.callers i q⟩ key := by
  have before := h.counted key
  have grants := census_update (granting key) s.callers i q
  have returns := census_update (givingBack key) s.callers i q
  unfold outstanding at before
  change _ = t.claims.countP (Claim.unreleasedOn key) +
    census (granting key) (Function.update s.callers i q) +
    census (givingBack key) (Function.update s.callers i q)
  generalize hp : s.callers i = p at moved grants returns
  cases moved with
  | keep same hg hr =>
    have count : t.refCount key = s.store.refCount key :=
      congrArg (Option.elim · 0 Entry.refCount) (congrFun same.state key)
    have granting_eq : granting key q = granting key p := by rw [granting, hg, granting]
    have givingBack_eq : givingBack key q = givingBack key p := by rw [givingBack, hr, givingBack]
    rw [count, same.claims]
    omega
  | found k entry here =>
    simp only [granting, givingBack, granted, returning, Option.map_none, Option.map_some,
      reduceCtorEq, if_false, Option.some.injEq] at grants returns
    have count : s.store.refCount k = entry.refCount := by rw [Store.refCount, here]; rfl
    rw [Store.refCount_setState]
    change _ = s.store.claims.countP _ + _ + _
    by_cases hk : k = key
    · subst hk
      simp only [if_true, Option.elim_some] at grants ⊢
      omega
    · simp only [hk, Ne.symm hk, if_false] at grants ⊢
      omega
  | opened k =>
    simp only [granting, givingBack, granted, returning, Option.map_none, Option.map_some,
      reduceCtorEq, if_false, Option.some.injEq] at grants returns
    have count : s.store.refCount k = 0 := by
      rw [Store.refCount, h.unopened i k (by rw [hp]; rfl)]
      rfl
    change (s.store.setState k _).refCount key = s.store.claims.countP _ + _ + _
    rw [Store.refCount_setState]
    by_cases hk : k = key
    · subst hk
      simp only [if_true, Option.elim_some] at grants ⊢
      omega
    · simp only [hk, Ne.symm hk, if_false] at grants ⊢
      omega
  | claimed k r =>
    simp only [granting, givingBack, granted, returning, Option.map_none, Option.map_some,
      reduceCtorEq, if_false, Option.some.injEq] at grants returns
    change s.store.refCount key = (s.store.claims ++ [_]).countP _ + _ + _
    rw [List.countP_append]
    by_cases hk : k = key
    · simp [Claim.unreleasedOn, hk] at grants ⊢
      omega
    · simp [Claim.unreleasedOn, hk] at grants ⊢
      omega
  | swapped claim c here unreleased =>
    obtain ⟨bound, rfl⟩ := List.getElem?_eq_some_iff.mp here
    simp only [granting, givingBack, granted, returning, Option.map_none, reduceCtorEq, if_false,
      Option.some.injEq] at grants returns
    change s.store.refCount key = (s.store.claims.set claim _).countP _ + _ + _
    rw [List.countP_set bound]
    have one_of : Claim.unreleasedOn key s.store.claims[claim] = true →
        0 < s.store.claims.countP (Claim.unreleasedOn key) :=
      fun h => List.countP_pos_iff.mpr ⟨_, List.getElem_mem bound, h⟩
    by_cases hk : s.store.claims[claim].key = key
    · have counted_one := one_of (by simp [Claim.unreleasedOn, hk, unreleased])
      simp [Claim.unreleasedOn, hk, unreleased] at returns grants ⊢
      omega
    · simp [Claim.unreleasedOn, hk, unreleased] at returns grants ⊢
      omega
  | dropped k entry here more =>
    simp only [granting, givingBack, granted, returning, Option.map_none, reduceCtorEq, if_false,
      Option.some.injEq] at grants returns
    have count : s.store.refCount k = entry.refCount := by rw [Store.refCount, here]; rfl
    rw [Store.refCount_setState]
    change _ = s.store.claims.countP _ + _ + _
    by_cases hk : k = key
    · subst hk
      simp only [if_true, Option.elim_some] at returns ⊢
      omega
    · simp only [hk, Ne.symm hk, if_false] at returns ⊢
      omega
  | last k entry here none_left =>
    simp only [granting, givingBack, granted, returning, Option.map_none, reduceCtorEq, if_false,
      Option.some.injEq] at grants returns
    have count : s.store.refCount k = entry.refCount := by rw [Store.refCount, here]; rfl
    have positive := (h.entries k entry here).1
    rw [Store.refCount_setState]
    change _ = s.store.claims.countP _ + _ + _
    by_cases hk : k = key
    · subst hk
      simp only [if_true, Option.elim_none] at returns ⊢
      omega
    · simp only [hk, Ne.symm hk, if_false] at returns ⊢
      omega
  | missing k here =>
    simp only [granting, givingBack, granted, returning, Option.map_none, reduceCtorEq, if_false,
      Option.some.injEq] at grants returns
    have own := le_census (givingBack key) s.callers i
    have count : s.store.refCount k = 0 := by rw [Store.refCount, here]; rfl
    rw [hp] at own
    by_cases hk : k = key
    · subst hk
      simp only [givingBack, returning, if_true] at own
      omega
    · simp only [hk, if_false] at returns
      omega
  | closed k r =>
    obtain ⟨hg, hr, -⟩ := afterClose_idle k
    have granting_eq : granting key (afterClose k) = 0 := by rw [granting, hg]; rfl
    have givingBack_eq : givingBack key (afterClose k) = 0 := by rw [givingBack, hr]; rfl
    simp only [granting_eq, givingBack_eq] at grants returns
    change s.store.refCount key = s.store.claims.countP _ + _ + _
    simp only [granting, givingBack, granted, returning, Option.map_none, reduceCtorEq,
      if_false] at grants returns
    omega

omit [DecidableEq ι] in
theorem entries_step (h : Consistent s) (moved : Effect s.store (s.callers i) t q) (key : ListenerKey)
    (entry : Entry) (here : t.state key = some entry) :
    0 < entry.refCount ∧ t.opened[entry.resource]? = some key := by
  generalize hp : s.callers i = p at moved
  have kept : ∀ {k new}, (s.store.setState k new).state key = some entry → key ≠ k →
      s.store.state key = some entry := by
    intro k new here other
    rwa [Store.setState_state_of_ne _ other] at here
  cases moved with
  | keep same =>
    rw [same.opened]
    exact h.entries key entry (same.state ▸ here)
  | found k old before =>
    by_cases hk : key = k
    · subst hk
      rw [Store.setState_state_self] at here
      obtain rfl := Option.some.inj here
      exact ⟨Nat.succ_pos _, (h.entries key old before).2⟩
    · exact h.entries key entry (kept here hk)
  | opened k =>
    by_cases hk : key = k
    · subst hk
      change (s.store.setState key _).state key = some entry at here
      rw [Store.setState_state_self] at here
      obtain rfl := Option.some.inj here
      exact ⟨Nat.one_pos, List.getElem?_concat_length⟩
    · have old := h.entries key entry (kept here hk)
      have bound := (List.getElem?_eq_some_iff.mp old.2).1
      exact ⟨old.1, (List.getElem?_append_left bound).trans old.2⟩
  | dropped k old before more =>
    by_cases hk : key = k
    · subst hk
      rw [Store.setState_state_self] at here
      obtain rfl := Option.some.inj here
      exact ⟨Nat.sub_pos_of_lt more, (h.entries key old before).2⟩
    · exact h.entries key entry (kept here hk)
  | last k old before =>
    by_cases hk : key = k
    · subst hk
      rw [Store.setState_state_self] at here
      contradiction
    · exact h.entries key entry (kept here hk)
  | claimed => exact h.entries key entry here
  | swapped => exact h.entries key entry here
  | missing => exact h.entries key entry here
  | closed => exact h.entries key entry here

omit [DecidableEq ι] in
/-- Only taking out the last entry of a key makes the pool lose its resource. -/
theorem holds_step {key : ListenerKey} {r : ℕ} (h : Consistent s)
    (moved : Effect s.store (s.callers i) t q) (holds : s.store.Holds key r)
    (others : s.callers i = .releaseUpdate key → 1 < s.store.refCount key) : t.Holds key r := by
  generalize hp : s.callers i = p at moved
  cases moved with
  | keep same => exact (Store.holds_iff_of_state same.state key r).mpr holds
  | found k entry here => exact (Store.holds_recount here _ key r).mpr holds
  | opened k =>
    refine (Store.holds_setState ..).mpr ?_
    split
    · subst key
      rw [Store.Holds, h.unopened i k (by rw [hp]; rfl)] at holds
      contradiction
    · exact holds
  | dropped k entry here => exact (Store.holds_recount here _ key r).mpr holds
  | last k entry here none_left =>
    refine (Store.holds_setState ..).mpr ?_
    split
    · subst key
      have more := others hp
      rw [Store.refCount, here] at more
      exact absurd more none_left
    · exact holds
  | claimed => exact holds
  | swapped => exact holds
  | missing => exact holds
  | closed => exact holds

omit [DecidableEq ι] in
theorem claims_step (h : Consistent s) (moved : Effect s.store (s.callers i) t q) (c : Claim)
    (mem : c ∈ t.claims) (unreleased : c.released = false) : t.Holds c.key c.resource := by
  have old : c ∈ s.store.claims → t.Holds c.key c.resource := by
    intro mem
    refine holds_step h moved (h.claims c mem unreleased) fun hp => ?_
    have own := le_census (givingBack c.key) s.callers i
    have one : 0 < s.store.claims.countP (Claim.unreleasedOn c.key) :=
      List.countP_pos_iff.mpr ⟨c, mem, by simp [Claim.unreleasedOn, unreleased]⟩
    have count := h.counted c.key
    have weight : givingBack c.key (s.callers i) = 1 := by rw [givingBack, hp]; exact if_pos rfl
    unfold outstanding at count
    omega
  generalize hp : s.callers i = p at moved
  cases moved with
  | keep same => exact old (same.claims ▸ mem)
  | claimed key r =>
    rcases List.mem_append.mp mem with mem | mem
    · exact old mem
    · obtain rfl := List.mem_singleton.mp mem
      exact h.grants i key r (by rw [hp]; rfl)
  | swapped claim d here =>
    rcases List.mem_or_eq_of_mem_set mem with mem | rfl
    · exact old mem
    · contradiction
  | _ => exact old mem

theorem grants_step (h : Consistent s) (moved : Effect s.store (s.callers i) t q) (j : ι)
    (key : ListenerKey) (r : ℕ) (has : granted (Function.update s.callers i q j) = some (key, r)) :
    t.Holds key r := by
  by_cases hj : j = i
  · subst hj
    rw [Function.update_self] at has
    generalize hp : s.callers j = p at moved
    cases moved with
    | keep same hg =>
      refine (Store.holds_iff_of_state same.state key r).mpr (h.grants j key r ?_)
      rw [hp, ← hg, has]
    | found k entry here =>
      obtain ⟨rfl, rfl⟩ := Prod.mk.inj (Option.some.inj has)
      exact (Store.holds_setState ..).mpr (by simp)
    | opened k =>
      obtain ⟨rfl, rfl⟩ := Prod.mk.inj (Option.some.inj has)
      exact (Store.holds_setState ..).mpr (by simp)
    | closed k => simp [(afterClose_idle k).1] at has
    | _ => simp [granted] at has
  · rw [Function.update_of_ne hj] at has
    refine holds_step h moved (h.grants j key r has) fun hp => ?_
    have inside : inMonitor (s.callers i) = true := by rw [hp]; rfl
    have outside := h.guarded.others inside hj
    cases hc : s.callers j <;> simp_all [granted, inMonitor]

theorem closings_step (h : Consistent s) (moved : Effect s.store (s.callers i) t q) (j : ι) (r : ℕ)
    (has : closing (Function.update s.callers i q j) = some r) : r < t.opened.length := by
  have grows : s.store.opened.length ≤ t.opened.length := by
    generalize s.callers i = p at moved
    cases moved with
    | keep same => rw [same.opened]
    | opened k => simp
    | _ => exact le_rfl
  by_cases hj : j = i
  · subst hj
    rw [Function.update_self] at has
    generalize hp : s.callers j = p at moved
    cases moved with
    | keep same _ _ hc =>
      refine (h.closings j r ?_).trans_le grows
      rw [hp, ← hc, has]
    | last k entry here =>
      obtain rfl := Option.some.inj has
      exact (List.getElem?_eq_some_iff.mp (h.entries k entry here).2).1
    | closed k => simp [(afterClose_idle k).2.2.1] at has
    | _ => simp [closing] at has
  · rw [Function.update_of_ne hj] at has
    exact (h.closings j r has).trans_le grows

omit [DecidableEq ι] in
theorem closes_step (h : Consistent s) (moved : Effect s.store (s.callers i) t q) (r : ℕ)
    (mem : r ∈ t.closes) : r < t.opened.length := by
  generalize hp : s.callers i = p at moved
  cases moved with
  | keep same =>
    rw [same.opened]
    exact h.closes r (same.closes ▸ mem)
  | opened k =>
    have bound := h.closes r mem
    simp only [List.length_append]
    exact Nat.lt_succ_of_lt bound
  | closed k r' =>
    rcases List.mem_append.mp mem with mem | mem
    · exact h.closes r mem
    · obtain rfl := List.mem_singleton.mp mem
      exact h.closings i r (by rw [hp]; rfl)
  | _ => exact h.closes r mem

theorem once_step (h : Consistent s) (moved : Effect s.store (s.callers i) t q) (r : ℕ)
    (key : ListenerKey) (here : t.opened[r]? = some key) :
    whereabouts ⟨t, Function.update s.callers i q⟩ key r = 1 := by
  have shares := census_update (closingOf r) s.callers i q
  have before := fun old => h.once r key old
  unfold whereabouts at before
  change t.closes.count r + census (closingOf r) (Function.update s.callers i q) +
    (if t.Holds key r then 1 else 0) = 1
  generalize hp : s.callers i = p at moved shares
  have idle : ∀ {p}, closing p = none → closingOf r p = 0 := by
    intro p hc
    rw [closingOf, hc]
    rfl
  cases moved with
  | keep same _ _ hc =>
    have weight : closingOf r q = closingOf r p := by rw [closingOf, hc, closingOf]
    have old := before (same.opened ▸ here)
    simp only [same.closes, Store.holds_iff_of_state same.state]
    omega
  | found k entry present =>
    have old := before here
    rw [idle rfl, idle rfl] at shares
    simp only [Store.holds_recount present]
    change s.store.closes.count r + _ + _ = 1
    omega
  | opened k =>
    rw [idle rfl, idle rfl] at shares
    change s.store.closes.count r + _ + (if (s.store.setState k _).Holds key r then 1 else 0) = 1
    have absent := h.unopened i k (by rw [hp]; rfl)
    by_cases new : r = s.store.opened.length
    · subst new
      obtain rfl : k = key := by
        rw [List.getElem?_concat_length] at here
        exact Option.some.inj here
      have unclosed : s.store.closes.count s.store.opened.length = 0 :=
        List.count_eq_zero.mpr fun mem => lt_irrefl _ (h.closes _ mem)
      have none_closing : census (closingOf s.store.opened.length) s.callers = 0 :=
        census_eq_zero.mpr fun j => if_neg fun has => lt_irrefl _ (h.closings j _ has)
      have holds : (s.store.setState k (some ⟨s.store.opened.length, 1⟩)).Holds k
          s.store.opened.length := (Store.holds_setState ..).mpr (by simp)
      rw [if_pos holds]
      omega
    · have bound : r < s.store.opened.length := by
        have := (List.getElem?_eq_some_iff.mp here).1
        simp at this
        omega
      have old := before ((List.getElem?_append_left bound).symm.trans here)
      have same : (s.store.setState k (some ⟨s.store.opened.length, 1⟩)).Holds key r ↔
          s.store.Holds key r := by
        rw [Store.holds_setState]
        split
        · subst key
          simp [Store.Holds, absent, Ne.symm new]
        · rfl
      simp only [same]
      omega
  | last k entry present =>
    have old := before here
    have only := (h.entries k entry present).2
    rw [idle rfl] at shares
    simp only [closingOf, closing, Option.some.injEq] at shares
    simp only [Store.holds_setState]
    change s.store.closes.count r + _ + _ = 1
    by_cases hk : key = k
    · subst hk
      simp only [Store.Holds, present, Option.map_some, Option.map_none, Option.some.injEq,
        if_true, reduceCtorEq, if_false] at old ⊢
      omega
    · have other : entry.resource ≠ r := by
        rintro rfl
        exact hk (Option.some.inj (here.symm.trans only))
      simp only [other, hk, if_false] at shares ⊢
      omega
  | dropped k entry present =>
    have old := before here
    rw [idle rfl, idle rfl] at shares
    simp only [Store.holds_recount present]
    change s.store.closes.count r + _ + _ = 1
    omega
  | closed k r' =>
    have old := before here
    rw [idle (afterClose_idle k).2.2.1] at shares
    simp only [closingOf, closing, Option.some.injEq] at shares
    change (s.store.closes ++ [r']).count r + _ + (if s.store.Holds key r then 1 else 0) = 1
    rw [List.count_append, List.count_singleton]
    simp only [beq_iff_eq]
    omega
  | claimed k r' =>
    have old := before here
    rw [idle rfl, idle rfl] at shares
    change s.store.closes.count r + _ + (if s.store.Holds key r then 1 else 0) = 1
    omega
  | swapped claim c present =>
    have old := before here
    rw [idle rfl, idle rfl] at shares
    change s.store.closes.count r + _ + (if s.store.Holds key r then 1 else 0) = 1
    omega
  | missing k absent =>
    have old := before here
    rw [idle rfl, idle rfl] at shares
    omega

theorem consistent_step (h : Consistent s) (moved : Effect s.store (s.callers i) t q)
    (locked : LockMove i s.store.lock (inMonitor (s.callers i)) t.lock (inMonitor q)) :
    Consistent ⟨t, Function.update s.callers i q⟩ where
  guarded := h.guarded.step locked
  unopened := unopened_step h moved
  counted := counted_step h moved
  entries := entries_step h moved
  claims := claims_step h moved
  grants := grants_step h moved
  closings := closings_step h moved
  closes := closes_step h moved
  once := once_step h moved

end step

variable [DecidableEq φ] {file : String → φ} {s t : State ι φ}

omit [DecidableEq ι] [DecidableEq φ] in
theorem consistent_openPool (files : φ → Node) : Consistent (openPool (ι := ι) files) where
  guarded := guarded_outside rfl
  unopened _ _ h := by simp [openPool, opening] at h
  counted key := by
    simp [openPool, outstanding, Store.refCount, granting, givingBack, granted, returning, census]
  entries _ _ h := by simp [openPool] at h
  claims _ h := by simp [openPool] at h
  grants _ _ _ h := by simp [openPool, granted] at h
  closings _ _ h := by simp [openPool, closing] at h
  closes _ h := by simp [openPool] at h
  once _ _ h := by simp [openPool] at h

theorem consistent_of_reachable (h : (machine (ι := ι) file).Reachable s) : Consistent s := by
  apply h.invariant
  · rintro _ ⟨files, rfl⟩
    exact consistent_openPool files
  · intro a s t hs moves
    obtain ⟨u, q, moved, rfl⟩ := stepFn_eq moves
    exact consistent_step hs (effect_of_step moved) (lockMove_of_step moved)

/-- The law of the pool. `settled` is what it says when no call is under way. -/
structure CountsClaims (s : State ι φ) : Prop where
  counted : ∀ key, s.store.refCount key = outstanding s key
  present : ∀ key, (s.store.state key).isSome = true ↔ 0 < outstanding s key
  shared : ∀ c ∈ s.store.claims, c.released = false → s.store.Holds c.key c.resource
  closedOnce : ∀ r, s.store.closes.count r ≤ 1
  closedLast : ∀ r, (r ∈ s.store.closes ∨ ∃ i, closing (s.callers i) = some r) →
    ∀ c ∈ s.store.claims, c.resource = r → c.released = true
  settled : (∀ i, s.callers i = .idle) → ∀ key,
    outstanding s key = s.store.claims.countP (Claim.unreleasedOn key) ∧
      ∀ r, s.store.opened[r]? = some key →
        (s.store.closes.count r = 1 ↔ ∀ c ∈ s.store.claims, c.resource = r → c.released = true)

omit [DecidableEq ι] [DecidableEq φ] in
theorem Consistent.present (h : Consistent s) (key : ListenerKey) :
    (s.store.state key).isSome = true ↔ 0 < outstanding s key := by
  rw [← h.counted key, Store.refCount]
  cases here : s.store.state key with
  | none => simp
  | some entry => simpa using (h.entries key entry here).1

omit [DecidableEq ι] [DecidableEq φ] in
theorem Consistent.closedOnce (h : Consistent s) (r : ℕ) : s.store.closes.count r ≤ 1 := by
  by_cases mem : r ∈ s.store.closes
  · have once := h.once r _ (List.getElem?_eq_getElem (h.closes r mem))
    unfold whereabouts at once
    omega
  · rw [List.count_eq_zero.mpr mem]
    exact Nat.zero_le 1

omit [DecidableEq ι] [DecidableEq φ] in
theorem Consistent.closedLast (h : Consistent s) (r : ℕ)
    (gone : r ∈ s.store.closes ∨ ∃ i, closing (s.callers i) = some r) (c : Claim)
    (mem : c ∈ s.store.claims) (on : c.resource = r) : c.released = true := by
  by_contra unreleased
  have holds := h.claims c mem (eq_false_of_ne_true unreleased)
  rw [on] at holds
  obtain ⟨entry, here, rfl⟩ := Option.map_eq_some_iff.mp holds
  have once := h.once _ _ (h.entries c.key entry here).2
  unfold whereabouts at once
  rw [if_pos holds] at once
  rcases gone with mem | ⟨i, has⟩
  · have counted := List.count_pos_iff.mpr mem
    omega
  · have counted := le_census (closingOf entry.resource) s.callers i
    rw [closingOf, if_pos has] at counted
    omega

omit [DecidableEq ι] [DecidableEq φ] in
theorem Consistent.settled (h : Consistent s) (idle : ∀ i, s.callers i = .idle) (key : ListenerKey) :
    outstanding s key = s.store.claims.countP (Claim.unreleasedOn key) ∧
      ∀ r, s.store.opened[r]? = some key →
        (s.store.closes.count r = 1 ↔ ∀ c ∈ s.store.claims, c.resource = r → c.released = true) := by
  have none_of : ∀ w : Caller → ℕ, w .idle = 0 → census w s.callers = 0 := by
    intro w hw
    exact census_eq_zero.mpr fun i => by rw [idle i, hw]
  have counts : outstanding s key = s.store.claims.countP (Claim.unreleasedOn key) := by
    rw [outstanding, none_of (granting key) rfl, none_of (givingBack key) rfl]
    rfl
  refine ⟨counts, fun r here => ⟨fun once => ?_, fun all => ?_⟩⟩
  · exact h.closedLast r (.inl (List.count_pos_iff.mp (by omega)))
  · have once := h.once r key here
    rw [whereabouts, none_of (closingOf r) rfl] at once
    by_cases holds : s.store.Holds key r
    · obtain ⟨entry, present, rfl⟩ := Option.map_eq_some_iff.mp holds
      have some_left : 0 < s.store.claims.countP (Claim.unreleasedOn key) := by
        rw [← counts, ← h.present, present]
        rfl
      obtain ⟨c, mem, on⟩ := List.countP_pos_iff.mp some_left
      simp only [Claim.unreleasedOn, Bool.and_eq_true, Bool.not_eq_true', beq_iff_eq] at on
      have same := h.claims c mem on.1
      rw [Store.Holds, on.2, present] at same
      have released := all c mem (Option.some.inj same).symm
      rw [on.1] at released
      contradiction
    · rw [if_neg holds] at once
      exact once

/-- While a resource is being opened, the pool changes only by that opening succeeding. -/
def KeepsPool (file : String → φ) (s : State ι φ) : Prop :=
  ∀ a t key j, stepFn file a s = some t → opening (s.callers j) = some key →
    (j = a.1 → ∀ r, t.callers j ≠ .acquireUnlock key r) →
    t.store.state = s.store.state ∧ t.store.opened = s.store.opened

theorem Consistent.keepsPool (h : Consistent s) : KeepsPool file s := by
  intro a t key j moves opens fails
  obtain ⟨u, q, moved, rfl⟩ := stepFn_eq moves
  have effect := effect_of_step moved
  by_cases hj : j = a.1
  · subst hj
    have unchanged := fails rfl
    simp only [Function.update_self] at unchanged
    generalize s.callers a.1 = p at opens effect
    cases effect with
    | keep same => exact ⟨same.state, same.opened⟩
    | opened k =>
      obtain rfl := Option.some.inj opens
      exact absurd rfl (unchanged _)
    | _ => simp [opening] at opens
  · have outside := h.guarded.others (inMonitor_of_opening opens) (Ne.symm hj)
    generalize s.callers a.1 = p at outside effect
    cases effect with
    | keep same => exact ⟨same.state, same.opened⟩
    | claimed => exact ⟨rfl, rfl⟩
    | swapped => exact ⟨rfl, rfl⟩
    | missing => exact ⟨rfl, rfl⟩
    | closed => exact ⟨rfl, rfl⟩
    | _ => simp [inMonitor] at outside

/-- Two generations, the old one `false`, with one socket between them: the new one
acquires its claim when the old one has closed its socket and not yet unlinked it. -/
def handoverSchedule : List (Bool × Move) :=
  let listener : Listener := ⟨none, some "/run/busker.sock", none, 0⟩
  let ticks (i : Bool) (n : ℕ) : List (Bool × Move) := List.replicate n (i, .tick)
  (false, .acquireClaim listener) :: ticks false 8 ++ (false, .release 0) :: ticks false 5 ++
    (true, .acquireClaim listener) :: ticks true 9

/-- The handover before the old generation unlinks the path. -/
def handover : State Bool String :=
  (machine id).runFrom handoverSchedule (openPool fun _ => .absent)

end Busker.ListenerPool
