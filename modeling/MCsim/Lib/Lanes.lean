import Mathlib.Algebra.BigOperators.Group.Finset.Piecewise
import Mathlib.Algebra.Order.BigOperators.Group.Finset

/-!
# Lanes

A row of queues, seen as lanes: a lane is found by its queue and an owner. A queue that does not tell
its owners apart shows the same list in every lane. Elements join at the back and leave from the head
of the lane of their owner.

`Conserved` is the law of such queues: what left and what waits was put in, each element as often. It
gives that the elements that left are among those put in, each once (`Conserved.subperm`).
-/

namespace Lib.Lanes

variable {α : Type}

/-- The lists, by queue and owner. -/
abbrev Row (α : Type) := Nat → Nat → List α

/-- An element joins lanes of one queue, or none. -/
def Joins (k : Nat) (a : α) (l l' : Row α) : Prop :=
  ∀ i id, l' i id = l i id ∨ i = k ∧ l' i id = l i id ++ [a]

/-- An element leaves the lanes that show it, its owner's among them, and was the head of that one. -/
structure Takes (owner : α → Nat) (shows : Nat → Nat → Bool) (k : Nat) (a : α) (l l' : Row α) :
    Prop where
  own : shows k (owner a) = true
  head : (l k (owner a)).head? = some a
  rest : ∀ i id, l' i id = if shows i id then (l i id).tail else l i id

/-- Nothing leaves where nothing changes. -/
theorem not_takes_self {owner : α → Nat} {shows : Nat → Nat → Bool} {k : Nat} {a : α} {l : Row α} :
    ¬ Takes owner shows k a l l := by
  rintro ⟨own, head, rest⟩
  have here := rest k (owner a)
  obtain ⟨later, cons⟩ := List.head?_eq_some_iff.mp head
  rw [if_pos own, cons] at here
  exact absurd (congrArg List.length here) (by simp)

variable [DecidableEq α] {owner : α → Nat} {n : Nat} {l l' : Row α}

/-- The elements equal to `a` that wait, over all queues. -/
def waitingFor (owner : α → Nat) (n : Nat) (l : Row α) (a : α) : Nat :=
  ∑ i ∈ Finset.range n, (l i (owner a)).count a

theorem waitingFor_joins {k : Nat} {a : α} (joins : Joins k a l l') (b : α) :
    waitingFor owner n l' b ≤ waitingFor owner n l b + [a].count b := by
  have each : ∀ i ∈ Finset.range n,
      (l' i (owner b)).count b ≤ (l i (owner b)).count b + if k = i then [a].count b else 0 := by
    intro i _
    rcases joins i (owner b) with same | ⟨here, same⟩
    · rw [same]
      exact Nat.le_add_right _ _
    · rw [same, List.count_append, if_pos here.symm]
  calc waitingFor owner n l' b
      ≤ ∑ i ∈ Finset.range n, ((l i (owner b)).count b + if k = i then [a].count b else 0) :=
        Finset.sum_le_sum each
    _ = waitingFor owner n l b + if k ∈ Finset.range n then [a].count b else 0 := by
        rw [Finset.sum_add_distrib, Finset.sum_ite_eq]
        rfl
    _ ≤ waitingFor owner n l b + [a].count b := by
        split <;> omega

theorem waitingFor_takes {shows : Nat → Nat → Bool} {k : Nat} {a : α} (bound : k < n)
    (takes : Takes owner shows k a l l') (b : α) :
    [a].count b + waitingFor owner n l' b ≤ waitingFor owner n l b := by
  have fewer : ∀ i ∈ Finset.range n, (l' i (owner b)).count b ≤ (l i (owner b)).count b := by
    intro i _
    rw [takes.rest]
    split
    · exact (List.tail_sublist _).count_le b
    · exact Nat.le_refl _
  by_cases same : a = b
  · subst same
    obtain ⟨rest, cons⟩ := List.head?_eq_some_iff.mp takes.head
    have one : (l' k (owner a)).count a < (l k (owner a)).count a := by
      rw [takes.rest, if_pos takes.own, cons, List.tail_cons, List.count_cons_self]
      exact Nat.lt_succ_self _
    have less : waitingFor owner n l' a < waitingFor owner n l a :=
      Finset.sum_lt_sum fewer ⟨k, Finset.mem_range.mpr bound, one⟩
    rw [List.count_singleton_self]
    omega
  · rw [List.count_singleton, if_neg (by simpa using same), Nat.zero_add]
    exact Finset.sum_le_sum fewer

/-- What left and what waits was put in. -/
def Conserved (owner : α → Nat) (n : Nat) (putIn left : List α) (l : Row α) : Prop :=
  ∀ a, left.count a + waitingFor owner n l a ≤ putIn.count a

variable {putIn left : List α}

theorem conserved_nil (empty : ∀ i id, l i id = []) : Conserved owner n [] [] l := by
  intro a
  simp [waitingFor, empty]

theorem Conserved.congr (conserved : Conserved owner n putIn left l)
    (same : ∀ i id, l' i id = l i id) : Conserved owner n putIn left l' := by
  obtain rfl : l' = l := funext fun i => funext (same i)
  exact conserved

theorem Conserved.joins {k : Nat} {a : α} (conserved : Conserved owner n putIn left l)
    (joins : Joins k a l l') : Conserved owner n (putIn ++ [a]) left l' := by
  intro b
  have more : waitingFor owner n l' b ≤ _ := waitingFor_joins joins b
  have before := conserved b
  rw [List.count_append]
  omega

theorem Conserved.takes {shows : Nat → Nat → Bool} {k : Nat} {a : α}
    (conserved : Conserved owner n putIn left l) (bound : k < n)
    (takes : Takes owner shows k a l l') : Conserved owner n putIn (left ++ [a]) l' := by
  intro b
  have less := waitingFor_takes bound takes b
  have before := conserved b
  rw [List.count_append]
  omega

/-- **What left was put in, each element once.** -/
theorem Conserved.subperm (conserved : Conserved owner n putIn left l) : left.Subperm putIn := by
  rw [List.subperm_ext_iff]
  exact fun a _ => Nat.le_trans (Nat.le_add_right _ _) (conserved a)

end Lib.Lanes
