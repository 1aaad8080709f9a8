import Mathlib.Data.List.Rotate
import Mathlib.Tactic.Common

/-!
# A rotating pointer

A pointer visits the positions below a size in turn and wraps at the end. `Ahead place a b` says that,
going on from `place`, position `a` comes before position `b`. It does not mention the size: positions
may be added at the end while the pointer is under way, and what was ahead stays ahead. `Scan` is a
pointer that moves on to the first position with something waiting, or gives up on the way.
-/

namespace Lib.Rotation

/-- The position after a position. -/
def next (size place : Nat) : Nat := if place + 1 = size then 0 else place + 1

/-- From `place` on, `a` is reached before `b`. -/
def Ahead (place a b : Nat) : Prop :=
  (place ≤ a ∧ a < b) ∨ (b < place ∧ place ≤ a) ∨ (a < b ∧ b < place)

variable {size place a b : Nat}

theorem next_lt (h : place < size) : next size place < size := by
  unfold next
  split <;> omega

/-- Where the pointer stands after a number of steps. -/
theorem next_mod (h : 0 < size) (place steps : Nat) :
    next size ((place + steps) % size) = (place + (steps + 1)) % size := by
  unfold next
  have small : (place + steps) % size < size := Nat.mod_lt _ h
  have split := Nat.add_mod (place + steps) 1 size
  rw [← Nat.add_assoc, split]
  by_cases one : size = 1
  · subst one
    simp [Nat.mod_one]
  · rw [Nat.mod_eq_of_lt (show 1 < size by omega)]
    split
    · next wraps => rw [wraps, Nat.mod_self]
    · exact (Nat.mod_eq_of_lt (by omega)).symm

/-- A round from a position, taken one position at a time: the element there, and a round from the next
position. -/
theorem take_rotate_next {α : Type} {l : List α} {x : α} {steps : Nat} (here : l[place]? = some x)
    (few : steps + 1 ≤ l.length) :
    (l.rotate place).take (steps + 1) = x :: (l.rotate (next l.length place)).take steps := by
  obtain ⟨small, rfl⟩ := List.getElem?_eq_some_iff.mp here
  rw [List.rotate_eq_drop_append_take (Nat.le_of_lt small), List.drop_eq_getElem_cons small,
    List.cons_append, List.take_succ_cons]
  congr 1
  unfold next
  split
  · next wraps =>
    rw [List.rotate_zero, wraps, List.drop_length, List.nil_append, List.take_take,
      Nat.min_eq_left (by omega)]
  · next stays =>
    rw [List.rotate_eq_drop_append_take (by omega), List.take_succ_eq_append_getElem small,
      ← List.append_assoc]
    have long : steps ≤ (l.drop (place + 1) ++ l.take place).length := by
      simp only [List.length_append, List.length_drop, List.length_take]
      omega
    rw [List.take_append_of_le_length long]

/-- Every position is reached within one round. -/
theorem exists_steps (hp : place < size) (ha : a < size) : ∃ steps < size, (place + steps) % size = a := by
  by_cases ahead : place ≤ a
  · exact ⟨a - place, by omega, by rw [Nat.add_sub_cancel' ahead, Nat.mod_eq_of_lt ha]⟩
  · refine ⟨a + size - place, by omega, ?_⟩
    rw [show place + (a + size - place) = a + size by omega, Nat.add_mod_right, Nat.mod_eq_of_lt ha]

/-- Right after a position, every other one is reached before it. -/
theorem ahead_next (other : a ≠ b) (ha : a < size) : Ahead (next size b) a b := by
  unfold Ahead next
  split <;> omega

/-- The position that is reached later is not the one the pointer stands at. -/
theorem Ahead.ne (h : Ahead place a b) : place ≠ b := by
  unfold Ahead at h
  omega

/-- As long as the pointer does not stand at the nearer position, moving on keeps it nearer. -/
theorem Ahead.step (h : Ahead place a b) (other : place ≠ a) (ha : a < size) (hb : b < size) :
    Ahead (next size place) a b := by
  unfold Ahead next at *
  split <;> omega

/-- The pointer moves on from a position, past positions where nothing waits, until it finds one where
something does and steps behind it, or gives up. -/
inductive Scan (size : Nat) (waits : Nat → Prop) : Nat → Option Nat → Nat → Prop
  | stop {place : Nat} : Scan size waits place none place
  | found {place : Nat} (here : waits place) : Scan size waits place (some place) (next size place)
  | skip {place ends : Nat} {found : Option Nat} (empty : ¬ waits place)
      (rest : Scan size waits (next size place) found ends) : Scan size waits place found ends

variable {waits : Nat → Prop} {ends : Nat} {found : Option Nat}

theorem Scan.lt (h : Scan size waits place found ends) (small : place < size) : ends < size := by
  induction h with
  | stop => exact small
  | found => exact next_lt small
  | skip _ _ ih => exact ih (next_lt small)

/-- A scan stops at the position where it found something, or before. -/
theorem Scan.ends_eq (h : Scan size waits place (some b) ends) : ends = next size b := by
  generalize e : some b = found at h
  induction h with
  | stop => cases e
  | found => cases e; rfl
  | skip _ _ ih => exact ih e

/-- **A scan does not pass a waiting position**: what lies behind one is not found, and unless the
waiting position itself is, it is still ahead afterwards. -/
theorem Scan.ahead (h : Scan size waits place found ends) (ahead : Ahead place a b) (waiting : waits a)
    (ha : a < size) (hb : b < size) : found ≠ some b ∧ (found ≠ some a → Ahead ends a b) := by
  induction h with
  | stop => exact ⟨nofun, fun _ => ahead⟩
  | found here =>
    refine ⟨fun e => ahead.ne (Option.some.inj e), fun other => ?_⟩
    exact ahead.step (fun e => other (e ▸ rfl)) ha hb
  | skip empty _ ih =>
    refine ih (ahead.step ?_ ha hb)
    rintro rfl
    exact empty waiting

end Lib.Rotation
