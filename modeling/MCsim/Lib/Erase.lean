import Mathlib.Data.List.Basic
import Mathlib.Tactic.Common

/-!
# Erasing from the middle of a list

A queue that is not served strictly from its front is a list from whose middle an element is erased.
What such an erasure does to the elements of one kind, which keep their order, depends only on whether
the erased element is of that kind and the first of it.
-/

namespace Lib

variable {α : Type} {l : List α} {i : Nat} {a : α} {f : α → Bool}

/-- An element of another kind was erased. -/
theorem filter_eraseIdx_of_neg (at_ : l[i]? = some a) (ha : f a = false) :
    (l.eraseIdx i).filter f = l.filter f := by
  induction l generalizing i with
  | nil => cases at_
  | cons b l ih =>
    cases i with
    | zero =>
      obtain rfl : b = a := by simpa using at_
      simp [ha]
    | succ i =>
      have rest := ih (i := i) (by simpa using at_)
      simp only [List.eraseIdx_cons_succ, List.filter_cons, rest]

/-- The first element of its kind was erased. -/
theorem filter_eq_cons_eraseIdx (at_ : l[i]? = some a) (ha : f a = true)
    (before : ∀ j b, j < i → l[j]? = some b → f b = false) :
    l.filter f = a :: (l.eraseIdx i).filter f := by
  induction l generalizing i with
  | nil => cases at_
  | cons b l ih =>
    cases i with
    | zero =>
      obtain rfl : b = a := by simpa using at_
      simp [ha]
    | succ i =>
      have first : f b = false := before 0 b (by omega) (by simp)
      have rest := ih (i := i) (by simpa using at_) fun j c hj hc =>
        before (j + 1) c (by omega) (by simpa using hc)
      simpa [List.filter_cons, first] using rest

/-- The first position of a kind, by `findIdx?`. -/
theorem findIdx_eq_some_first (h : l.findIdx? f = some i) :
    ∃ a, l[i]? = some a ∧ f a = true ∧ ∀ j b, j < i → l[j]? = some b → f b = false := by
  obtain ⟨bound, here, before⟩ := List.findIdx?_eq_some_iff_getElem.mp h
  refine ⟨l[i], List.getElem?_eq_getElem bound, here, fun j b hj hb => ?_⟩
  obtain ⟨_, rfl⟩ := List.getElem?_eq_some_iff.mp hb
  exact Bool.eq_false_iff.mpr (before j hj)

/-- What is left is part of what was there. -/
theorem mem_of_eraseIdx {b : α} (h : b ∈ l.eraseIdx i) : b ∈ l := List.mem_of_mem_eraseIdx h

end Lib
