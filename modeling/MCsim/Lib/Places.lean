import Mathlib.Data.List.Flatten
import Mathlib.Data.List.Perm.Basic
import Mathlib.Tactic.Common

/-!
# What a row of places holds

A row of places, each holding some elements: buffers, or registers that hold one or none. Replacing what
one place holds changes what the row holds by the difference, whatever the order of the places.
-/

namespace Lib.Places

variable {α β : Type} {f : α → List β} {l : List α} {i : Nat} {x y : α}

/-- **Replacing a place**: the row lost what the place held and gained what it holds now. -/
theorem flatMap_set_perm (at_ : l[i]? = some x) (y : α) :
    (f x ++ (l.set i y).flatMap f).Perm (f y ++ l.flatMap f) := by
  obtain ⟨bound, rfl⟩ := List.getElem?_eq_some_iff.mp at_
  obtain ⟨before, after, split, -, set⟩ := @List.exists_of_set α i y l bound
  rw [set]
  nth_rewrite 2 [split]
  simp only [List.flatMap_append, List.flatMap_cons]
  -- Both sides hold the two places' elements and those before and after them.
  refine (List.perm_append_comm_assoc _ _ _).trans (.trans ?_ (List.perm_append_comm_assoc _ _ _))
  exact .append_left _ (List.perm_append_comm_assoc _ _ _)

/-- One element joined a place. -/
theorem flatMap_set_join (at_ : l[i]? = some x) {b : β} (joined : (f y).Perm (f x ++ [b])) :
    ((l.set i y).flatMap f).Perm (b :: l.flatMap f) := by
  have moved := (flatMap_set_perm (f := f) at_ y).trans (joined.append_right _)
  rw [List.append_assoc] at moved
  exact (List.perm_append_left_iff _).mp moved

/-- One element left a place. -/
theorem flatMap_set_leave (at_ : l[i]? = some x) {b : β} (left : (f x).Perm (b :: f y)) :
    (l.flatMap f).Perm (b :: (l.set i y).flatMap f) := by
  have moved := (left.append_right _).symm.trans (flatMap_set_perm (f := f) at_ y)
  rw [List.cons_append] at moved
  exact ((List.perm_append_left_iff _).mp (List.perm_middle.trans moved)).symm

end Lib.Places
