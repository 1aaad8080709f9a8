import Mathlib.Data.List.DropRight

/-!
# The last few of a sequence

A device that remembers the last `n` of what happened keeps a list of that length, the latest first, and
fills it up at the start. `latest` says what that list is for a sequence; a further event is put at its
front and the oldest entry leaves (`latest_concat`). What lies `k` or more back are the elements of
`List.rdrop`, and a further event moves the one that is now exactly `k` back among them
(`mem_rdrop_concat`): the place `k` of the list names it.

`through` is the part of a list up to the first element of a kind, that element included.
-/

namespace Lib.Window

variable {α β : Type}

/-! ## The latest -/

/-- The last `n` of a sequence, the latest first, filled up. -/
def latest (n : Nat) (fill : α) (seq : List α) : List α := (seq.reverse ++ List.replicate n fill).take n

theorem latest_nil (n : Nat) (fill : α) : latest n fill [] = List.replicate n fill := by
  simp [latest]

@[simp] theorem length_latest (n : Nat) (fill : α) (seq : List α) : (latest n fill seq).length = n := by
  simp [latest]

theorem latest_eq_nil {n : Nat} {fill : α} {seq : List α} : latest n fill seq = [] ↔ n = 0 := by
  rw [← List.length_eq_zero_iff, length_latest]

/-- **The newest comes to the front**, and the oldest leaves. -/
theorem latest_concat {n : Nat} (positive : n ≠ 0) (fill : α) (seq : List α) (a : α) :
    latest n fill (seq ++ [a]) = a :: (latest n fill seq).dropLast := by
  obtain ⟨m, rfl⟩ := Nat.exists_eq_succ_of_ne_zero positive
  have shorter : (latest (m + 1) fill seq).dropLast =
      (seq.reverse ++ List.replicate (m + 1) fill).take m := by
    rw [List.dropLast_eq_take, length_latest, latest, List.take_take]
    congr 1
    omega
  rw [shorter, latest, List.reverse_append, List.reverse_singleton, List.append_assoc,
    List.singleton_append, List.take_succ_cons]

/-- The place `k` names what is `k` back. -/
theorem getElem?_latest {n k : Nat} (inside : k < n) (fill : α) (seq : List α) :
    (latest n fill seq)[k]? = some ((seq.reverse[k]?).getD fill) := by
  rw [latest, List.getElem?_take_of_lt inside]
  by_cases old : k < seq.length
  · rw [List.getElem?_append_left (by simpa using old), List.getElem?_eq_getElem (by simpa using old)]
    rfl
  · have none : seq.reverse[k]? = none := List.getElem?_eq_none (by simpa using old)
    rw [none, List.getElem?_append_right (by simpa using old), List.getElem?_replicate, if_pos (by omega)]
    rfl

/-- What has `k` others after it is `k` or more back. -/
theorem mem_rdrop_of_sublist {k : Nat} {a : α} {later l : List α} (sub : (a :: later).Sublist l)
    (long : later.length = k) : a ∈ l.rdrop k := by
  obtain ⟨front, back, rfl, first, rest⟩ := List.append_sublist_iff.mp
    (show ([a] ++ later).Sublist l from sub)
  have enough : k ≤ back.length := long ▸ rest.length_le
  have whole : front.take ((front ++ back).length - k) = front :=
    List.take_of_length_le (by rw [List.length_append]; omega)
  rw [List.rdrop, List.take_append, whole]
  exact List.mem_append_left _ (List.singleton_sublist.mp first)

/-- **What is `k` or more back after one more**: what was so before, and the one that is `k` back now. -/
theorem mem_rdrop_concat {k : Nat} {seq : List α} {a x : α} :
    x ∈ (seq ++ [a]).rdrop k ↔ x ∈ seq.rdrop k ∨ (seq ++ [a]).reverse[k]? = some x := by
  rw [List.rdrop_eq_reverse_drop_reverse, List.rdrop_eq_reverse_drop_reverse, List.mem_reverse,
    List.mem_reverse, List.reverse_append, List.reverse_singleton, List.singleton_append]
  cases k with
  | zero => simp [eq_comm, or_comm]
  | succ k =>
    rw [List.drop_succ_cons, List.getElem?_cons_succ]
    by_cases old : k < seq.reverse.length
    · rw [List.drop_eq_getElem_cons old, List.mem_cons, List.getElem?_eq_getElem old, or_comm,
        Option.some.injEq, eq_comm]
    · rw [List.drop_eq_nil_of_le (by omega), List.drop_eq_nil_of_le (by omega),
        List.getElem?_eq_none (by omega)]
      simp

/-! ## Up to the first -/

/-- The part of a list up to the first element of a kind, that one included. -/
def through (p : α → Bool) : List α → List α
  | [] => []
  | a :: l => if p a then [a] else a :: through p l

theorem through_sublist (p : α → Bool) (l : List α) : (through p l).Sublist l := by
  induction l with
  | nil => exact List.Sublist.refl []
  | cons a l ih =>
    rw [through]
    split
    · exact List.Sublist.cons_cons a (List.nil_sublist l)
    · exact ih.cons_cons a

theorem map_through (f : α → β) (p : β → Bool) (l : List α) :
    (through (fun a => p (f a)) l).map f = through p (l.map f) := by
  induction l with
  | nil => rfl
  | cons a l ih =>
    rw [through, List.map_cons, through]
    split
    · rfl
    · rw [List.map_cons, ih]

end Lib.Window
