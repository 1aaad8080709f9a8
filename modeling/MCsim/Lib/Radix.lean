import Mathlib.Algebra.BigOperators.Group.List.Basic
import Mathlib.Algebra.Order.BigOperators.Group.List
import Mathlib.Tactic.Ring

/-!
# Mixed radix numbers

A number written in mixed radix over a list of places, the lowest place first: each place has a radix
and a digit. `Peeled` says that the digits are what repeated division leaves. Then the digits are below
their radices, and their value is the number up to the product of the radices: a number below the
product is determined by its digits.
-/

namespace Lib.Radix

variable {ι : Type} {radix digit digit' : ι → Nat}

/-- The number that the digits of some places stand for. -/
def value (radix digit : ι → Nat) : List ι → Nat
  | [] => 0
  | i :: l => digit i + radix i * value radix digit l

/-- The digits of some places are what dividing a number by one radix after the other leaves. -/
def Peeled (radix digit : ι → Nat) : List ι → Nat → Prop
  | [], _ => True
  | i :: l, n => digit i = n % radix i ∧ Peeled radix digit l (n / radix i)

/-- Only the digits of the places matter. -/
theorem Peeled.congr {l : List ι} {n : Nat} (h : Peeled radix digit l n)
    (same : ∀ i ∈ l, digit' i = digit i) : Peeled radix digit' l n := by
  induction l generalizing n with
  | nil => trivial
  | cons i l ih =>
    refine ⟨(same i List.mem_cons_self).trans h.1, ih h.2 fun j hj => ?_⟩
    exact same j (List.mem_cons_of_mem i hj)

theorem Peeled.digit_lt {l : List ι} {n : Nat} (h : Peeled radix digit l n)
    (positive : ∀ i, 0 < radix i) {i : ι} (listed : i ∈ l) : digit i < radix i := by
  induction l generalizing n with
  | nil => cases listed
  | cons j l ih =>
    rcases List.mem_cons.mp listed with rfl | later
    · rw [h.1]
      exact Nat.mod_lt n (positive i)
    · exact ih h.2 later

/-- A number has one digit at a place. -/
theorem Peeled.unique {l : List ι} {n : Nat} (h : Peeled radix digit l n)
    (h' : Peeled radix digit' l n) {i : ι} (listed : i ∈ l) : digit i = digit' i := by
  induction l generalizing n with
  | nil => cases listed
  | cons j l ih =>
    rcases List.mem_cons.mp listed with rfl | later
    · rw [h.1, h'.1]
    · exact ih h.2 h'.2 later

/-- **The value of what was peeled off** is the number, up to the product of the radices. -/
theorem Peeled.value_eq {l : List ι} {n : Nat} (h : Peeled radix digit l n) :
    value radix digit l = n % (l.map radix).prod := by
  induction l generalizing n with
  | nil => simp [value, Nat.mod_one]
  | cons i l ih =>
    rw [value, h.1, ih h.2, List.map_cons, List.prod_cons, Nat.mod_mul]

/-- Digits that agree have one value. -/
theorem value_congr {l : List ι} (same : ∀ i ∈ l, digit i = digit' i) :
    value radix digit l = value radix digit' l := by
  induction l with
  | nil => rfl
  | cons i l ih =>
    rw [value, value, same i List.mem_cons_self, ih fun j hj => same j (List.mem_cons_of_mem i hj)]

end Lib.Radix
