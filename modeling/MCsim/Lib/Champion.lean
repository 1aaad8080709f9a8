import Mathlib.Order.Lattice
import Mathlib.Data.List.Basic
import Mathlib.Data.List.Induction

/-!
# A tournament

A list is walked once, with a champion and its position. A challenger takes the place only where its key
is strictly smaller. `champion_first` says who is champion at the end: the first element with the least
key.
-/

namespace Lib.Champion

variable {α β : Type} [LinearOrder β] (key : α → β)

/-- One challenge. -/
def challenge (holder next : α × Nat) : α × Nat := if key next.1 < key holder.1 then next else holder

/-- The champion of a list from a first element on. -/
def champion (first : α) (rest : List α) : α × Nat := (rest.zipIdx 1).foldl (challenge key) (first, 0)

/-- The first element of a list with the least key, by position. -/
structure First (l : List α) (i : Nat) (a : α) : Prop where
  here : l[i]? = some a
  least : ∀ x ∈ l, key a ≤ key x
  before : ∀ j < i, ∀ x, l[j]? = some x → key a < key x

variable {key}

/-- A challenge at the end of a list. -/
theorem First.challenge {l : List α} {holder : α × Nat} (first : First key l holder.2 holder.1) (x : α) :
    First key (l ++ [x]) (challenge key holder (x, l.length)).2 (challenge key holder (x, l.length)).1 := by
  obtain ⟨here, least, before⟩ := first
  have inside : holder.2 < l.length := (List.getElem?_eq_some_iff.mp here).1
  unfold Champion.challenge
  split
  · next smaller =>
    refine ⟨by simp, fun y hy => ?_, fun j hj y hy => ?_⟩
    · rcases List.mem_append.mp hy with hy | hy
      · exact (smaller.trans_le (least y hy)).le
      · rw [List.mem_singleton.mp hy]
    · rw [List.getElem?_append_left hj] at hy
      exact smaller.trans_le (least y (List.mem_of_getElem? hy))
  · next kept =>
    refine ⟨?_, fun y hy => ?_, fun j hj y hy => ?_⟩
    · rw [List.getElem?_append_left inside]
      exact here
    · rcases List.mem_append.mp hy with hy | hy
      · exact least y hy
      · rw [List.mem_singleton.mp hy]
        exact not_lt.mp kept
    · rw [List.getElem?_append_left (hj.trans inside)] at hy
      exact before j hj y hy

/-- **The champion is the first element with the least key.** -/
theorem champion_first (first : α) (rest : List α) :
    First key (first :: rest) (champion key first rest).2 (champion key first rest).1 := by
  suffices walked : ∀ (done rest : List α) (holder : α × Nat), First key done holder.2 holder.1 →
      First key (done ++ rest) ((rest.zipIdx done.length).foldl (Champion.challenge key) holder).2
        ((rest.zipIdx done.length).foldl (Champion.challenge key) holder).1 by
    refine walked [first] rest (first, 0) ⟨rfl, fun x hx => ?_, fun j hj => absurd hj (Nat.not_lt_zero j)⟩
    rw [List.mem_singleton.mp hx]
  intro done rest
  induction rest generalizing done with
  | nil =>
    intro holder h
    simpa using h
  | cons x rest ih =>
    intro holder h
    have later := ih (done ++ [x]) _ (h.challenge x)
    simpa using later

/-! ## From no champion -/

variable (key)

/-- One challenge where there may be no holder yet. -/
def contest (holder : Option α) (next : α) : Option α :=
  match holder with
  | none => some next
  | some a => if key next < key a then some next else some a

/-- The champion of a list, if it has any element. -/
def winner (l : List α) : Option α := l.foldl (contest key) none

theorem winner_concat (l : List α) (x : α) : winner key (l ++ [x]) = contest key (winner key l) x := by
  rw [winner, List.foldl_append]
  rfl

variable {key}

/-- **The winner is the first element with the least key**, and only an empty list has none. -/
theorem winner_first (l : List α) :
    (winner key l = none ↔ l = []) ∧ ∀ a, winner key l = some a → ∃ i, First key l i a := by
  induction l using List.reverseRecOn with
  | nil => exact ⟨⟨fun _ => rfl, fun _ => rfl⟩, fun a h => by cases h⟩
  | append_singleton l x ih =>
    rw [winner_concat]
    cases before : winner key l with
    | none =>
      obtain rfl := ih.1.mp before
      refine ⟨⟨fun h => (by cases h), fun h => (by simp at h)⟩, ?_⟩
      rintro a ⟨⟩
      exact ⟨0, rfl, by simp, fun j hj => absurd hj (Nat.not_lt_zero j)⟩
    | some b =>
      obtain ⟨i, first⟩ := ih.2 b before
      have next : First key (l ++ [x]) (challenge key (b, i) (x, l.length)).2
          (challenge key (b, i) (x, l.length)).1 := First.challenge first x
      have kept : contest key (some b) x = some (challenge key (b, i) (x, l.length)).1 := by
        unfold contest challenge
        dsimp only
        split <;> rfl
      rw [kept]
      refine ⟨⟨fun h => (by cases h), fun h => (by simp at h)⟩, ?_⟩
      rintro a ⟨⟩
      exact ⟨_, next⟩

end Lib.Champion
