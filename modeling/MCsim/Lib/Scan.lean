import Mathlib.Data.List.Basic
import Mathlib.Tactic.Common

/-!
# Scans with a blocking kind

An arbiter scans a list for the first element that can go. Elements of the blocking kind keep their
order: once one of them was refused, the others of the kind are passed over, while elements of any
other kind may still go. `firstFree` is that scan; without a blocking kind it is the plain search for
the first element that can go.

`firstFree_split` is all there is to know of a scan that found something: where the element stands,
that it can go, and that nothing of the blocking kind stands before it if it is of that kind. So
erasing it keeps the order of the blocking kind (`Stops.filter_eq`).
-/

namespace Lib.Scan

variable {α : Type}

/-- The scan from a position on; `blocked` says whether one of the blocking kind was refused. -/
def freeFrom (blocks can : α → Bool) : Bool → Nat → List α → Option (Nat × α)
  | _, _, [] => none
  | blocked, n, a :: as =>
    if blocks a && blocked then freeFrom blocks can blocked (n + 1) as
    else if can a then some (n, a)
    else freeFrom blocks can (blocked || blocks a) (n + 1) as

/-- The position and the value of the first element that can go. -/
def firstFree (blocks can : α → Bool) (l : List α) : Option (Nat × α) :=
  freeFrom blocks can false 0 l

/-- The plain search: nothing blocks. -/
abbrev firstThat (can : α → Bool) (l : List α) : Option (Nat × α) :=
  firstFree (fun _ => false) can l

/-- Where a scan stops: the element can go, and an element of the blocking kind has none of its kind
before it. -/
structure Stops (blocks can : α → Bool) (l : List α) (i : Nat) (a : α) (before after : List α) :
    Prop where
  split : l = before ++ a :: after
  length : before.length = i
  can : can a = true
  first : blocks a = true → ∀ x ∈ before, blocks x = false

theorem freeFrom_split {blocks can : α → Bool} {blocked : Bool} {n i : Nat} {l : List α} {a : α}
    (h : freeFrom blocks can blocked n l = some (i, a)) :
    (blocks a = true → blocked = false) ∧
      ∃ before after, n ≤ i ∧ Stops blocks can l (i - n) a before after := by
  induction l generalizing blocked n with
  | nil => simp [freeFrom] at h
  | cons b bs ih =>
    unfold freeFrom at h
    split at h
    · next passed =>
      obtain ⟨free, before, after, le, stops⟩ := ih h
      obtain ⟨kind, refused⟩ := Bool.and_eq_true_iff.mp passed
      refine ⟨free, b :: before, after, by omega, by rw [stops.split]; rfl,
        by rw [List.length_cons, stops.length]; omega, stops.can, fun blocks => ?_⟩
      exact absurd (free blocks) (by simp [refused])
    · next open_ =>
      split at h
      · next goes =>
        obtain ⟨rfl, rfl⟩ : n = i ∧ b = a := by simpa using h
        refine ⟨fun kind => ?_, [], bs, Nat.le_refl n, rfl, by simp, goes, by simp⟩
        simpa [kind] using open_
      · obtain ⟨free, before, after, le, stops⟩ := ih h
        refine ⟨fun kind => (Bool.or_eq_false_iff.mp (free kind)).1, b :: before, after, by omega,
          by rw [stops.split]; rfl, by rw [List.length_cons, stops.length]; omega, stops.can,
          fun kind x hx => ?_⟩
        rcases List.mem_cons.mp hx with rfl | hx
        · exact (Bool.or_eq_false_iff.mp (free kind)).2
        · exact stops.first kind x hx

/-- **A scan that found something, taken apart.** -/
theorem firstFree_split {blocks can : α → Bool} {l : List α} {i : Nat} {a : α}
    (h : firstFree blocks can l = some (i, a)) :
    ∃ before after, Stops blocks can l i a before after := by
  obtain ⟨_, before, after, _, stops⟩ := freeFrom_split h
  exact ⟨before, after, by simpa using stops⟩

/-- The element found leaves what stood before and after it. -/
theorem Stops.eraseIdx {blocks can : α → Bool} {l before after : List α} {i : Nat} {a : α}
    (stops : Stops blocks can l i a before after) : l.eraseIdx i = before ++ after := by
  rw [stops.split, ← stops.length, List.eraseIdx_append_of_length_le (Nat.le_refl _)]
  simp

/-- What is found and what is left are the list. -/
theorem Stops.perm {blocks can : α → Bool} {l before after : List α} {i : Nat} {a : α}
    (stops : Stops blocks can l i a before after) : l.Perm (a :: l.eraseIdx i) := by
  rw [stops.eraseIdx, stops.split]
  exact List.perm_middle

theorem Stops.mem {blocks can : α → Bool} {l before after : List α} {i : Nat} {a : α}
    (stops : Stops blocks can l i a before after) : a ∈ l := by
  rw [stops.split]
  simp

/-- **The blocking kind keeps its order**: the element found and what is left, as far as they are of
the blocking kind, are what was there. -/
theorem Stops.filter_eq {blocks can : α → Bool} {l before after : List α} {i : Nat} {a : α}
    (stops : Stops blocks can l i a before after) :
    l.filter blocks = [a].filter blocks ++ (l.eraseIdx i).filter blocks := by
  rw [stops.eraseIdx, stops.split]
  cases kind : blocks a with
  | false => simp [kind]
  | true =>
    have none : before.filter blocks = [] :=
      List.filter_eq_nil_iff.mpr fun x hx => by simp [stops.first kind x hx]
    simp [kind, none]

/-- **An element of another kind overtakes**: it is found wherever nothing before it can go. -/
theorem firstFree_overtakes (blocks can : α → Bool) {before : List α} (after : List α) {a : α}
    (goes : can a = true) (other : blocks a = false) (refused : ∀ x ∈ before, can x = false) :
    firstFree blocks can (before ++ a :: after) = some (before.length, a) := by
  have from_ : ∀ blocked n, freeFrom blocks can blocked n (before ++ a :: after) =
      some (n + before.length, a) := by
    induction before with
    | nil =>
      intro blocked n
      simp [freeFrom, other, goes]
    | cons b bs ih =>
      intro blocked n
      have tail := ih fun x hx => refused x (List.mem_cons_of_mem b hx)
      simp only [List.cons_append, freeFrom, refused b List.mem_cons_self, tail,
        List.length_cons, Bool.false_eq_true, if_false, ite_self]
      congr 2
      omega
  simpa [firstFree] using from_ false 0

/-! ## Parallel lists

Two lists of one length that are appended to together and erased at one position stay in step; their
pairs are `zip`. -/

variable {β : Type}

/-- Where an element of the first list stands, the second list has its partner, and erasing both
leaves the other pairs. -/
theorem zip_split {l before after : List α} {m : List β} {i : Nat} {a : α}
    (same : l.length = m.length) (split : l = before ++ a :: after) (length : before.length = i) :
    ∃ b left right, m[i]? = some b ∧ l.zip m = left ++ (a, b) :: right ∧
      (l.eraseIdx i).zip (m.eraseIdx i) = left ++ right ∧
      (l.eraseIdx i).length = (m.eraseIdx i).length := by
  have bound : i < m.length := by
    rw [← same, split, ← length]
    simp
  have parts : m = m.take i ++ m[i] :: m.drop (i + 1) := by simp
  have first : before.length = (m.take i).length := by
    rw [length, List.length_take]
    omega
  refine ⟨m[i], before.zip (m.take i), after.zip (m.drop (i + 1)),
    List.getElem?_eq_getElem bound, ?_, ?_, ?_⟩
  · conv_lhs => rw [split, parts]
    rw [List.zip_append first, List.zip_cons_cons]
  · have erased : l.eraseIdx i = before ++ after := by
      rw [split, ← length, List.eraseIdx_append_of_length_le (Nat.le_refl _)]
      simp
    rw [erased, List.eraseIdx_eq_take_drop_succ, List.zip_append first]
  · rw [List.length_eraseIdx, List.length_eraseIdx, same]

end Lib.Scan
