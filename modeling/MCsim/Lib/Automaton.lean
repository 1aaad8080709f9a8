import Mathlib.Data.List.Basic
import Mathlib.Tactic.Common

/-!
# Guarded automata

An automaton here is a total transition function and a guard: a letter may be *read* in any state,
and the guard says where it may be read *legally*. A word is accepted from a state when every letter
of it meets the guard at the state the letters before it lead to.

The laws are those of words in series: what an appended word has to meet is the guard at the state
the first word leads to.
-/

namespace Lib

variable {σ α β : Type}

/-- A guard and a transition function over the letters `α`. -/
structure Automaton (σ α : Type) where
  ok : σ → α → Prop
  next : σ → α → σ

namespace Automaton

variable (A : Automaton σ α)

/-- The state a word leads to. -/
def after (s : σ) (w : List α) : σ := w.foldl A.next s

/-- Every letter of the word meets the guard where it stands. -/
def Accepts : σ → List α → Prop
  | _, [] => True
  | s, a :: w => A.ok s a ∧ Accepts (A.next s a) w

/-- A decidable guard decides words. -/
def decidableAccepts [∀ s a, Decidable (A.ok s a)] : ∀ s w, Decidable (A.Accepts s w)
  | _, [] => isTrue trivial
  | s, a :: w =>
    haveI := decidableAccepts (A.next s a) w
    decidable_of_iff (A.ok s a ∧ A.Accepts (A.next s a) w) Iff.rfl

instance [∀ s a, Decidable (A.ok s a)] (s : σ) (w : List α) : Decidable (A.Accepts s w) :=
  A.decidableAccepts s w

@[simp] theorem after_nil (s : σ) : A.after s [] = s := rfl

@[simp] theorem after_cons (s : σ) (a : α) (w : List α) :
    A.after s (a :: w) = A.after (A.next s a) w := rfl

@[simp] theorem after_append (s : σ) (v w : List α) :
    A.after s (v ++ w) = A.after (A.after s v) w := List.foldl_append

@[simp] theorem accepts_nil (s : σ) : A.Accepts s [] := trivial

@[simp] theorem accepts_cons (s : σ) (a : α) (w : List α) :
    A.Accepts s (a :: w) ↔ A.ok s a ∧ A.Accepts (A.next s a) w := Iff.rfl

@[simp] theorem accepts_append (s : σ) (v w : List α) :
    A.Accepts s (v ++ w) ↔ A.Accepts s v ∧ A.Accepts (A.after s v) w := by
  induction v generalizing s with
  | nil => simp
  | cons a v ih => simp only [List.cons_append, accepts_cons, ih, after_cons, and_assoc]

/-- A word of letters that meet the guard in a state and keep that state. -/
theorem accepts_of_stay {s : σ} {w : List α} (h : ∀ a ∈ w, A.ok s a ∧ A.next s a = s) :
    A.Accepts s w ∧ A.after s w = s := by
  induction w with
  | nil => exact ⟨trivial, rfl⟩
  | cons a w ih =>
    obtain ⟨ok, stay⟩ := h a List.mem_cons_self
    have rest := ih fun b hb => h b (List.mem_cons_of_mem _ hb)
    rw [accepts_cons, after_cons, stay]
    exact ⟨⟨ok, rest.1⟩, rest.2⟩

/-- Relabelling the letters changes nothing where guard and transition cannot tell. -/
theorem map_invariant {f : α → α} (hok : ∀ s a, A.ok s (f a) ↔ A.ok s a)
    (hnext : ∀ s a, A.next s (f a) = A.next s a) (s : σ) (w : List α) :
    (A.Accepts s (w.map f) ↔ A.Accepts s w) ∧ A.after s (w.map f) = A.after s w := by
  induction w generalizing s with
  | nil => exact ⟨Iff.rfl, rfl⟩
  | cons a w ih =>
    rw [List.map_cons, accepts_cons, accepts_cons, after_cons, after_cons, hok, hnext]
    exact ⟨and_congr Iff.rfl (ih _).1, (ih _).2⟩

/-- A weaker guard over the same transitions accepts more. -/
theorem accepts_of_imp {A B : Automaton σ α} (next : A.next = B.next)
    (ok : ∀ s a, A.ok s a → B.ok s a) {s : σ} {w : List α} (h : A.Accepts s w) : B.Accepts s w := by
  induction w generalizing s with
  | nil => trivial
  | cons a w ih => exact ⟨ok s a h.1, ih (next ▸ h.2)⟩

end Automaton
end Lib
