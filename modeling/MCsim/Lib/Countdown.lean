import Mathlib.Order.Lattice
import Mathlib.Tactic.Common

/-!
# Counters that count down

A counter holds back until several delays are over, each of which started at its own time. It keeps one
number: a new delay is merged by `max`, and every unit of time takes one away, down to 0. `remaining` is
what the whole history asks for, and `remaining_raise` and `remaining_tick` say that one number is
enough to keep it.
-/

namespace Lib.Countdown

/-- The delays so far, each with the time at which it started. -/
abbrev Delays := List (Nat × Nat)

/-- What is left of the longest of the delays. -/
def remaining (now : Nat) (delays : Delays) : Nat :=
  (delays.map fun e => e.2 - (now - e.1)).foldr max 0

variable {now : Nat} {delays : Delays}

/-- Nothing is left exactly if every delay is over. -/
theorem remaining_eq_zero_iff : remaining now delays = 0 ↔ ∀ e ∈ delays, e.2 ≤ now - e.1 := by
  induction delays with
  | nil => simp [remaining]
  | cons e delays ih =>
    have split : remaining now (e :: delays) = max (e.2 - (now - e.1)) (remaining now delays) := rfl
    rw [split, List.forall_mem_cons, ← ih]
    omega

/-- A delay that starts now. -/
theorem remaining_raise (delays : Delays) (delay : Nat) :
    remaining now (delays ++ [(now, delay)]) = max (remaining now delays) delay := by
  induction delays with
  | nil => simp [remaining]
  | cons e delays ih =>
    calc remaining now (e :: delays ++ [(now, delay)])
        = max (e.2 - (now - e.1)) (remaining now (delays ++ [(now, delay)])) := rfl
      _ = max (remaining now (e :: delays)) delay := by rw [ih, ← max_assoc]; rfl

/-- A unit of time. -/
theorem remaining_tick (started : ∀ e ∈ delays, e.1 ≤ now) :
    remaining (now + 1) delays = remaining now delays - 1 := by
  induction delays with
  | nil => rfl
  | cons e delays ih =>
    obtain ⟨here, rest⟩ := List.forall_mem_cons.mp started
    have split : ∀ t, remaining t (e :: delays) = max (e.2 - (t - e.1)) (remaining t delays) :=
      fun _ => rfl
    rw [split, split, ih rest]
    omega

end Lib.Countdown
