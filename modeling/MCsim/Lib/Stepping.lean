import Mathlib.Data.List.Range
import Mathlib.Algebra.Group.Nat.Even

/-!
# Removing while stepping on

A loop walks over a vector by an index that it raises at every turn, and removes the element at the
index where the element meets a test. The element behind a removed one moves up into its place and is
stepped over. `taken` are the elements such a loop removes, `left` those it leaves; `alternate` and
`alternateLeft` are the same for a loop that removes at every turn and stops after a number of them.

Which positions those are depends on the runs of elements that meet the test: `taken` has those that
stand at an even place of their run (`taken_range`).
-/

namespace Lib.Stepping

variable {α β : Type}

/-- What the loop removes. -/
def taken (p : α → Bool) : List α → List α
  | [] => []
  | [a] => if p a then [a] else []
  | a :: b :: l => if p a then a :: taken p l else taken p (b :: l)

/-- What the loop leaves. -/
def left (p : α → Bool) : List α → List α
  | [] => []
  | [a] => if p a then [] else [a]
  | a :: b :: l => if p a then b :: left p l else a :: left p (b :: l)

/-- What is removed in a number of turns that each remove. -/
def alternate : Nat → List α → List α
  | 0, _ => []
  | _ + 1, [] => []
  | _ + 1, [a] => [a]
  | n + 1, a :: _ :: l => a :: alternate n l

/-- What those turns leave. -/
def alternateLeft : Nat → List α → List α
  | 0, l => l
  | _ + 1, [] => []
  | _ + 1, [_] => []
  | n + 1, _ :: b :: l => b :: alternateLeft n l

/-! ## Seen through a function -/

theorem taken_map (p : β → Bool) (f : α → β) (l : List α) :
    taken p (l.map f) = (taken (fun a => p (f a)) l).map f := by
  fun_induction taken (fun a => p (f a)) l <;> grind [taken]

theorem left_map (p : β → Bool) (f : α → β) (l : List α) :
    left p (l.map f) = (left (fun a => p (f a)) l).map f := by
  fun_induction left (fun a => p (f a)) l <;> grind [left]

theorem alternate_map (f : α → β) (n : Nat) (l : List α) :
    alternate n (l.map f) = (alternate n l).map f := by
  fun_induction alternate n l <;> grind [alternate]

theorem alternateLeft_map (f : α → β) (n : Nat) (l : List α) :
    alternateLeft n (l.map f) = (alternateLeft n l).map f := by
  fun_induction alternateLeft n l <;> grind [alternateLeft]

/-! ## What is removed and what is left -/

theorem taken_perm (p : α → Bool) (l : List α) : (taken p l ++ left p l).Perm l := by
  fun_induction taken p l with
  | case1 => exact List.Perm.refl _
  | case2 a pa => simp [left, pa]
  | case3 a pa => simp [left, pa]
  | case4 a b l pa ih =>
    simp only [left, pa, if_true, List.cons_append]
    exact (List.perm_middle.trans (ih.cons b)).cons a
  | case5 a b l pa ih =>
    simp only [left, pa]
    exact List.perm_middle.trans (ih.cons a)

theorem mem_taken {p : α → Bool} {l : List α} {a : α} (h : a ∈ taken p l) : p a = true := by
  fun_induction taken p l <;> grind

theorem alternate_perm (n : Nat) (l : List α) : (alternate n l ++ alternateLeft n l).Perm l := by
  fun_induction alternate n l with
  | case1 => exact List.Perm.refl _
  | case2 => exact List.Perm.refl _
  | case3 => exact List.Perm.refl _
  | case4 n a b l ih =>
    simp only [alternateLeft, List.cons_append]
    exact (List.perm_middle.trans (ih.cons b)).cons a

/-- There is an element for a turn as long as less than half of them were removed. -/
theorem alternate_length {n : Nat} {l : List α} (enough : 2 * n ≤ l.length + 1) :
    (alternate n l).length = n := by
  fun_induction alternate n l with
  | case1 => rfl
  | case2 n =>
    rw [List.length_nil] at enough
    omega
  | case3 n a =>
    simp at enough ⊢
    omega
  | case4 n a b l ih =>
    simp only [List.length_cons] at enough ⊢
    rw [ih (by omega)]

/-! ## Runs -/

/-- How many positions right before one meet the test. -/
def run (p : Nat → Bool) : Nat → Nat
  | 0 => 0
  | i + 1 => if p i then run p i + 1 else 0

/-- The position meets the test at an even place of its run. -/
def inTurn (p : Nat → Bool) (i : Nat) : Bool := p i && run p i % 2 == 0

/-- **The loop removes whoever is in turn**, and leaves the others. It stands at a position that is at
an even place. -/
theorem taken_range (p : Nat → Bool) (len k : Nat) (even : run p k % 2 = 0) :
    taken p (List.range' k len) = (List.range' k len).filter (inTurn p) ∧
      left p (List.range' k len) = (List.range' k len).filter fun i => !inTurn p i := by
  match len with
  | 0 => exact ⟨rfl, rfl⟩
  | 1 => cases here : p k <;> simp [List.range'_succ, taken, left, inTurn, here, even]
  | len + 2 =>
    have split : List.range' k (len + 2) = k :: (k + 1) :: List.range' (k + 2) len := by
      simp [List.range'_succ]
    cases here : p k with
    | true =>
      -- the next position is at an odd place, so the one after it is at an even one
      have odd : run p (k + 1) % 2 = 1 := by simp only [run, here, if_true]; omega
      have next : run p (k + 2) % 2 = 0 := by
        show (if p (k + 1) then run p (k + 1) + 1 else 0) % 2 = 0
        split <;> omega
      obtain ⟨ht, hl⟩ := taken_range p len (k + 2) next
      have first : inTurn p k = true := by simp [inTurn, here, even]
      have second : inTurn p (k + 1) = false := by simp [inTurn, odd]
      rw [split]
      simp [taken, left, here, ht, hl, first, second]
    | false =>
      have next : run p (k + 1) % 2 = 0 := by simp [run, here]
      obtain ⟨ht, hl⟩ := taken_range p (len + 1) (k + 1) next
      have first : inTurn p k = false := by simp [inTurn, here]
      have rest : List.range' (k + 1) (len + 1) = (k + 1) :: List.range' (k + 2) len := by
        simp [List.range'_succ]
      rw [rest] at ht hl
      rw [split]
      simp only [taken, left, here, Bool.false_eq_true, if_false, ht, hl]
      simp [first]

/-- The turns that each remove take the even positions. -/
theorem alternate_range (n len k : Nat) :
    alternate n (List.range' (2 * k) len) =
        (List.range' (2 * k) len).filter (fun i => i % 2 == 0 && i / 2 < k + n) ∧
      alternateLeft n (List.range' (2 * k) len) =
        (List.range' (2 * k) len).filter fun i => !(i % 2 == 0 && i / 2 < k + n) := by
  match n, len with
  | 0, len =>
    have late : ∀ i ∈ List.range' (2 * k) len, (i % 2 == 0 && decide (i / 2 < k + 0)) = false := by
      intro i hi
      obtain ⟨j, _, rfl⟩ := List.mem_range'.mp hi
      simp
      omega
    refine ⟨(List.filter_eq_nil_iff.mpr fun i hi => ?_).symm,
      (List.filter_eq_self.mpr fun i hi => ?_).symm⟩
    · rw [late i hi]
      exact Bool.false_ne_true
    · rw [late i hi]
      rfl
  | n + 1, 0 => exact ⟨rfl, rfl⟩
  | n + 1, 1 => simp [List.range'_succ, alternate, alternateLeft]
  | n + 1, len + 2 =>
    have split : List.range' (2 * k) (len + 2) =
        2 * k :: (2 * k + 1) :: List.range' (2 * (k + 1)) len := by
      simp [List.range'_succ, Nat.mul_succ]
    obtain ⟨ht, hl⟩ := alternate_range n len (k + 1)
    have same : k + 1 + n = k + (n + 1) := by omega
    have odd : (2 * k + 1) % 2 = 1 := by omega
    rw [same] at ht hl
    rw [split]
    simp [alternate, alternateLeft, ht, hl, odd]

/-! ## Picking positions -/

/-- The elements at the positions that meet a test, in order. -/
def picked (P : Nat → Bool) (l : List α) : List α :=
  ((List.range l.length).filter P).filterMap (l[·]?)

theorem map_some_eq (l : List α) : l.map some = (List.range l.length).map (l[·]?) := by
  apply List.ext_getElem (by simp)
  intro i h₁ h₂
  simp at h₁
  simp [h₁]

/-- What is picked is given by the positions alone. -/
theorem eq_picked {P : Nat → Bool} {l m : List α}
    (h : m.map some = ((List.range l.length).filter P).map (l[·]?)) : m = picked P l := by
  calc m = (m.map some).filterMap id := by simp
    _ = picked P l := by rw [h, List.filterMap_map]; rfl

/-- The positions of a list at which the loop removes. -/
def turns (p : α → Bool) (l : List α) (i : Nat) : Bool := inTurn (fun i => (l[i]?).any p) i

/-- **What the loop removes and leaves, by position.** -/
theorem taken_eq_picked (p : α → Bool) (l : List α) :
    taken p l = picked (turns p l) l ∧ left p l = picked (fun i => !turns p l i) l := by
  obtain ⟨ht, hl⟩ := taken_range (fun i => (l[i]?).any p) l.length 0 rfl
  rw [← List.range_eq_range'] at ht hl
  constructor
  · have mapped := taken_map (Option.any p) some l
    rw [map_some_eq, taken_map, ht] at mapped
    exact eq_picked mapped.symm
  · have mapped := left_map (Option.any p) some l
    rw [map_some_eq, left_map, hl] at mapped
    exact eq_picked mapped.symm

/-- **What a number of removing turns removes and leaves, by position.** -/
theorem alternate_eq_picked (n : Nat) (l : List α) :
    alternate n l = picked (fun i => i % 2 == 0 && i / 2 < n) l ∧
      alternateLeft n l = picked (fun i => !(i % 2 == 0 && i / 2 < n)) l := by
  obtain ⟨ht, hl⟩ := alternate_range n l.length 0
  rw [Nat.mul_zero, ← List.range_eq_range'] at ht hl
  simp only [Nat.zero_add] at ht hl
  constructor
  · have mapped := alternate_map some n l
    rw [map_some_eq, alternate_map, ht] at mapped
    exact eq_picked mapped.symm
  · have mapped := alternateLeft_map some n l
    rw [map_some_eq, alternateLeft_map, hl] at mapped
    exact eq_picked mapped.symm

theorem mem_picked {P : Nat → Bool} {l : List α} {i : Nat} {a : α} (here : l[i]? = some a)
    (meets : P i = true) : a ∈ picked P l := by
  obtain ⟨bound, _⟩ := List.getElem?_eq_some_iff.mp here
  exact List.mem_filterMap.mpr ⟨i, List.mem_filter.mpr ⟨List.mem_range.mpr bound, meets⟩, here⟩

/-! ## Order -/

/-- A list in which nobody who meets a test comes behind one who does not is split by it. -/
theorem filter_append_not {P : α → Bool} {l : List α}
    (first : l.Pairwise fun a b => P b = true → P a = true) :
    l.filter P ++ l.filter (fun a => !P a) = l := by
  induction l with
  | nil => rfl
  | cons a l ih =>
    obtain ⟨head, tail⟩ := List.pairwise_cons.mp first
    cases meets : P a with
    | true => simp [meets, ih tail]
    | false =>
      have none : ∀ b ∈ l, P b = false := by
        intro b hb
        cases later : P b with
        | false => rfl
        | true => rw [head b hb later] at meets; cases meets
      have empty : l.filter P = [] := List.filter_eq_nil_iff.mpr fun b hb => by simp [none b hb]
      have all : l.filter (fun b => !P b) = l := List.filter_eq_self.mpr fun b hb => by simp [none b hb]
      simp [meets, empty, all]

/-- **Whoever is picked overtakes nobody of its kind**: then the kind keeps its order. -/
theorem picked_order {P : Nat → Bool} {K : α → Bool} {l : List α}
    (order : ∀ i j a b, i < j → l[i]? = some a → l[j]? = some b → K a = true → K b = true →
      P j = true → P i = true) :
    l.filter K = (picked P l).filter K ++ (picked (fun i => !P i) l).filter K := by
  -- the positions of the kind, in order
  have kind : ∀ Q : List Nat, (Q.filterMap (l[·]?)).filter K =
      (Q.filter fun i => (l[i]?).any K).filterMap (l[·]?) := by
    intro Q
    induction Q with
    | nil => rfl
    | cons i Q ih =>
      cases here : l[i]? with
      | none => simp [here, ih]
      | some a => cases k : K a <;> simp [here, k, ih]
  have whole : l = (List.range l.length).filterMap (l[·]?) := by
    calc l = (l.map some).filterMap id := by simp
      _ = _ := by rw [map_some_eq, List.filterMap_map]; rfl
  have sorted : ((List.range l.length).filter fun i => (l[i]?).any K).Pairwise
      fun i j => P j = true → P i = true := by
    refine List.Pairwise.imp_of_mem ?_ (List.pairwise_lt_range.filter _)
    intro i j hi hj less meets
    obtain ⟨a, ha, ka⟩ := (Option.any_eq_true _ _).mp (List.mem_filter.mp hi).2
    obtain ⟨b, hb, kb⟩ := (Option.any_eq_true _ _).mp (List.mem_filter.mp hj).2
    exact order i j a b less ha hb ka kb meets
  have split := filter_append_not sorted
  calc l.filter K = ((List.range l.length).filterMap (l[·]?)).filter K := by rw [← whole]
    _ = ((List.range l.length).filter fun i => (l[i]?).any K).filterMap (l[·]?) := kind _
    _ = _ := by
      rw [← split, List.filterMap_append, picked, picked, kind, kind, List.filter_comm P,
        List.filter_comm fun i => !P i]

/-- Two elements of a list in their order. -/
theorem pair_sublist {l : List α} {i j : Nat} {a b : α} (less : i < j) (ha : l[i]? = some a)
    (hb : l[j]? = some b) : [a, b].Sublist l := by
  obtain ⟨bound, rfl⟩ := List.getElem?_eq_some_iff.mp ha
  have later : b ∈ l.drop (i + 1) := by
    refine List.mem_of_getElem? (i := j - (i + 1)) ?_
    rw [List.getElem?_drop]
    convert hb using 2
    omega
  have parts : l.drop i = l[i] :: l.drop (i + 1) := List.drop_eq_getElem_cons bound
  have tail : [l[i], b].Sublist (l.drop i) := by
    rw [parts]
    exact (List.singleton_sublist.mpr later).cons_cons l[i]
  exact tail.trans (List.drop_sublist i l)

/-- In a list without repetition, what comes first does not come later. -/
theorem not_overtaken {l before after : List α} {a b : α} (once : l.Nodup)
    (split : l = before ++ after) (pair : [a, b].Sublist l) (first : b ∈ before) : a ∉ after := by
  intro later
  rw [split] at once pair
  obtain ⟨_, _, apart⟩ := List.nodup_append.mp once
  obtain ⟨xs, ys, same, hx, hy⟩ := List.sublist_append_iff.mp pair
  match xs, same with
  | [], same =>
    rw [List.nil_append] at same
    exact apart b first b (hy.subset (by simp [← same])) rfl
  | x :: xs, same =>
    obtain ⟨rfl, _⟩ := List.cons.inj same
    exact apart a (hx.subset List.mem_cons_self) a later rfl

end Lib.Stepping
