import Mathlib.Data.List.Basic
import Mathlib.Tactic.Basic

/-! Order in a history that grows at its end and a queue that is taken from its front. -/

namespace Interleaving

variable {α : Type*} {p q : α → Prop} {l front back : List α} {a x : α}

/-- Every element that satisfies `p` has one before it that satisfies `q`. -/
def Preceded (p q : α → Prop) (l : List α) : Prop :=
  ∀ front a back, l = front ++ a :: back → p a → ∃ b ∈ front, q b

/-- Nothing that satisfies `q` comes after an element that satisfies `p`. -/
def NoneAfter (p q : α → Prop) (l : List α) : Prop :=
  ∀ front a back, l = front ++ a :: back → p a → ∀ b ∈ back, ¬q b

theorem split_concat (h : l ++ [x] = front ++ a :: back) :
    (front = l ∧ a = x ∧ back = []) ∨ ∃ rest, back = rest ++ [x] ∧ l = front ++ a :: rest := by
  rcases List.eq_nil_or_concat back with rfl | ⟨rest, y, rfl⟩
  · obtain ⟨rfl, same⟩ := List.append_inj' h rfl
    exact .inl ⟨rfl, (List.singleton_inj.mp same).symm, rfl⟩
  · have split : l ++ [x] = (front ++ a :: rest) ++ [y] := by simpa using h
    obtain ⟨rfl, same⟩ := List.append_inj' split rfl
    obtain rfl := List.singleton_inj.mp same
    exact .inr ⟨rest, List.concat_eq_append, rfl⟩

theorem preceded_nil : Preceded p q [] := by
  intro front a back split
  simp at split

theorem Preceded.concat (h : Preceded p q l) (hx : p x → ∃ b ∈ l, q b) : Preceded p q (l ++ [x]) := by
  intro front a back split ha
  rcases split_concat split with ⟨rfl, rfl, -⟩ | ⟨rest, -, before⟩
  · exact hx ha
  · exact h front a rest before ha

theorem Preceded.tail (h : Preceded p q (x :: l)) (hx : ¬q x) : Preceded p q l := by
  intro front a back split ha
  obtain ⟨b, hb, early⟩ := h (x :: front) a back (by rw [split, List.cons_append]) ha
  rcases List.mem_cons.mp hb with rfl | hb
  · exact absurd early hx
  · exact ⟨b, hb, early⟩

theorem Preceded.head (h : Preceded p q (x :: l)) : ¬p x := by
  intro hx
  obtain ⟨b, hb, -⟩ := h [] x l rfl hx
  simp at hb

theorem noneAfter_nil : NoneAfter p q [] := by
  intro front a back split
  simp at split

theorem NoneAfter.concat (h : NoneAfter p q l) (hx : q x → ∀ a ∈ l, ¬p a) : NoneAfter p q (l ++ [x]) := by
  intro front a back split ha b hb
  rcases split_concat split with ⟨-, -, rfl⟩ | ⟨rest, rfl, before⟩
  · simp at hb
  · rcases List.mem_append.mp hb with hb | hb
    · exact h front a rest before ha b hb
    · obtain rfl := List.mem_singleton.mp hb
      exact fun hq => hx hq a (by simp [before]) ha

theorem NoneAfter.tail (h : NoneAfter p q (x :: l)) : NoneAfter p q l := by
  intro front a back split
  exact h (x :: front) a back (by rw [split, List.cons_append])

theorem NoneAfter.head (h : NoneAfter p q (x :: l)) (hx : p x) : ∀ b ∈ l, ¬q b := h [] x l rfl hx

section eachAfter

variable {P Q : List α → α → Prop} {r : List α}

/-- Every element stands in the given relation to what was there before it. -/
def EachAfter (P : List α → α → Prop) (l : List α) : Prop :=
  ∀ front a back, l = front ++ a :: back → P front a

theorem eachAfter_nil : EachAfter P [] := by
  intro front a back split
  simp at split

theorem EachAfter.mono (weaker : ∀ front a, P front a → Q front a) (h : EachAfter P l) : EachAfter Q l :=
  fun front a back split => weaker front a (h front a back split)

theorem EachAfter.append (h : EachAfter P l) (more : EachAfter (fun front => P (l ++ front)) r) :
    EachAfter P (l ++ r) := by
  intro front a back split
  rcases List.append_eq_append_iff.mp split with ⟨mid, rfl, later⟩ | ⟨mid, before, rest⟩
  · exact more mid a back later
  · cases mid with
    | nil =>
      rw [List.append_nil] at before
      have here : P (l ++ []) a := more [] a back rest.symm
      rwa [List.append_nil, before] at here
    | cons b mid =>
      obtain ⟨rfl, -⟩ := List.cons_eq_cons.mp rest
      exact h front a mid before

theorem eachAfter_singleton (h : P [] x) : EachAfter P [x] := by
  intro front a back split
  obtain ⟨rfl, rfl, -⟩ | ⟨rest, -, impossible⟩ := split_concat (l := []) split
  · exact h
  · simp at impossible

theorem eachAfter_of_forall (h : ∀ front, ∀ a ∈ l, P front a) : EachAfter P l := by
  intro front a back split
  exact h front a (by simp [split])

end eachAfter

end Interleaving
