import Mathlib.Tactic.Common

/-!
# Loops that test first

A `while` loop whose end is not visible in its code: `loop` gives it fuel, and nothing where the fuel
runs out. `loop_total` is the rule of total correctness: an invariant that the body keeps and a variant
that it lowers, and the loop ends with more fuel than the variant says, in the invariant and with its
test refused.
-/

namespace Lib.While

variable {σ : Type}

/-- `while (test) body`, with fuel for every test. -/
def loop (test : σ → Bool) (body : σ → σ) : Nat → σ → Option σ
  | 0, _ => none
  | fuel + 1, s => if test s then loop test body fuel (body s) else some s

/-- **Total correctness of a loop.** -/
theorem loop_total (test : σ → Bool) (body : σ → σ) (Inv : σ → Prop) (variant : σ → Nat)
    (turn : ∀ s, Inv s → test s = true → Inv (body s) ∧ variant (body s) < variant s)
    {s : σ} {fuel : Nat} (start : Inv s) (enough : variant s < fuel) :
    ∃ t, loop test body fuel s = some t ∧ Inv t ∧ test t = false := by
  induction fuel generalizing s with
  | zero => cases enough
  | succ fuel ih =>
    unfold loop
    cases tested : test s with
    | false => exact ⟨s, by simp, start, tested⟩
    | true =>
      obtain ⟨kept, lower⟩ := turn s start tested
      simpa using ih kept (by omega)

end Lib.While
