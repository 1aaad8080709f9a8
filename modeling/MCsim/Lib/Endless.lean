import MCsim.Lib.Machine
import Mathlib.Order.Monotone.Basic

/-!
# Behaviours

A machine that is fed for ever. `Behaviour` says that a sequence of states follows the machine on a
stream of inputs; where every step from the states of an invariant is defined, there is one
(`exists_behaviour`), and each of its prefixes is a run (`Behaviour.run`).

What must happen along a behaviour is argued with measures. `settles` is the rule: a measure that never
grows, and that drops again and again while it is not 0, is 0 from some point on. `settles_within` says
from when on, where it drops in every stretch of some length. `counts_down` reads a counter that goes down
by one at each step.
-/

namespace Lib.Endless

open Lib.Machine

variable {σ ι ο : Type} {step : Step σ ι ο} {feed : Nat → ι} {trace : Nat → σ}

/-- A sequence of states that the machine goes through on a stream of inputs. -/
def Behaviour (step : Step σ ι ο) (feed : Nat → ι) (trace : Nat → σ) : Prop :=
  ∀ n, ∃ o, step (trace n) (feed n) = some (trace (n + 1), o)

/-- The first inputs of a stream. -/
def inputs (feed : Nat → ι) (n : Nat) : List ι := (List.range n).map feed

theorem inputs_succ (feed : Nat → ι) (n : Nat) : inputs feed (n + 1) = inputs feed n ++ [feed n] := by
  simp [inputs, List.range_succ]

/-- **A behaviour exists** where the machine never gets stuck. -/
theorem exists_behaviour (step : Step σ ι ο) (feed : Nat → ι) (Inv : σ → Prop)
    (progress : ∀ {s} n, Inv s → ∃ s' o, step s (feed n) = some (s', o) ∧ Inv s') {s : σ}
    (start : Inv s) : ∃ trace, trace 0 = s ∧ Behaviour step feed trace ∧ ∀ n, Inv (trace n) := by
  have next : ∀ n, ∀ s : { s // Inv s }, ∃ t : { s // Inv s }, ∃ o, step s.1 (feed n) = some (t.1, o) := by
    intro n s
    obtain ⟨t, o, stepped, inv⟩ := progress n s.2
    exact ⟨⟨t, inv⟩, o, stepped⟩
  choose after stepped using next
  let path : Nat → { s // Inv s } := fun n => Nat.rec ⟨s, start⟩ (fun n t => after n t) n
  exact ⟨fun n => (path n).1, rfl, fun n => stepped n (path n), fun n => (path n).2⟩

/-- What a behaviour went through is a run. -/
theorem Behaviour.run (behaviour : Behaviour step feed trace) (n : Nat) :
    ∃ os, Machine.run step (trace 0) (inputs feed n) = some (trace n, os) := by
  induction n with
  | zero => exact ⟨[], rfl⟩
  | succ n ih =>
    obtain ⟨os, ran⟩ := ih
    obtain ⟨o, stepped⟩ := behaviour n
    refine ⟨os ++ [o], ?_⟩
    rw [inputs_succ, run_append_eq_some]
    exact ⟨trace n, os, [o], ran, run_cons_eq_some.mpr ⟨trace (n + 1), o, [], stepped, rfl, rfl⟩, rfl⟩

/-- What every step keeps holds from any point on where it holds. -/
theorem always {P : Nat → Prop} {n : Nat} (start : P n) (keep : ∀ m, n ≤ m → P m → P (m + 1)) :
    ∀ m, n ≤ m → P m := by
  intro m later
  induction m, later using Nat.le_induction with
  | base => exact start
  | succ m later ih => exact keep m later ih

/-- **A measure settles at 0** that never grows and, while it is not 0, becomes smaller at some time. -/
theorem settles {μ : Nat → Nat} {start : Nat} (falls : ∀ n, start ≤ n → μ (n + 1) ≤ μ n)
    (drops : ∀ n, start ≤ n → 0 < μ n → ∃ m, n ≤ m ∧ μ m < μ n) :
    ∃ N, start ≤ N ∧ ∀ n, N ≤ n → μ n = 0 := by
  have reach : ∀ k n, start ≤ n → μ n = k → ∃ N, start ≤ N ∧ ∀ m, N ≤ m → μ m = 0 := by
    intro k
    induction k using Nat.strongRecOn with
    | ind k ih =>
      intro n later size
      rcases Nat.eq_zero_or_pos (μ n) with zero | positive
      · exact ⟨n, later, always zero fun m hm zero => by have := falls m (by omega); omega⟩
      · obtain ⟨m, after, less⟩ := drops n later positive
        exact ih (μ m) (size ▸ less) m (by omega) rfl
  exact reach (μ start) start (Nat.le_refl start) rfl

/-- **A measure settles in time** that drops in every stretch of `k` steps while it is not 0. Nothing is
asked of the stretches that end after the horizon. -/
theorem settles_within {μ : Nat → Nat} {start : Nat} (k horizon : Nat) (falls : ∀ n, start ≤ n → μ (n + 1) ≤ μ n)
    (drops : ∀ n, start ≤ n → n + k ≤ horizon → 0 < μ n → μ (n + k) < μ n)
    (room : start + k * μ start ≤ horizon) : ∀ n, start + k * μ start ≤ n → μ n = 0 := by
  have later : ∀ n m, start ≤ n → n ≤ m → μ m ≤ μ n := fun n m from_ le =>
    always (P := fun m => μ m ≤ μ n) (Nat.le_refl _) (fun m hm le => (falls m (by omega)).trans le) m le
  have lower : ∀ j, j ≤ μ start → μ (start + k * j) ≤ μ start - j := by
    intro j
    induction j with
    | zero => exact fun _ => by simp
    | succ j ih =>
      intro small
      have before := ih (by omega)
      have inside : k * (j + 1) ≤ k * μ start := Nat.mul_le_mul_left k small
      rw [Nat.mul_succ] at inside ⊢
      rcases Nat.eq_zero_or_pos (μ (start + k * j)) with zero | positive
      · have := later (start + k * j) (start + (k * j + k)) (by omega) (by omega)
        omega
      · have := drops (start + k * j) (by omega) (by omega) positive
        rw [← Nat.add_assoc]
        omega
  intro n le
  have zero := lower (μ start) (Nat.le_refl _)
  have := later (start + k * μ start) n (by omega) le
  omega

/-- A counter that goes down by one at each step. -/
theorem counts_down {μ : Nat → Nat} {n : Nat} (down : ∀ m, n ≤ m → μ (m + 1) = μ m - 1) (k : Nat) :
    μ (n + k) = μ n - k := by
  induction k with
  | zero => rfl
  | succ k ih => rw [← Nat.add_assoc, down (n + k) (Nat.le_add_right n k), ih, Nat.sub_sub]

end Lib.Endless
