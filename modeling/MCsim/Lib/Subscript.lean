import Mathlib.Tactic.Common

/-!
# Maps whose subscript enters

A map by what it finds under a key. Reading through the subscript enters a default value where there is
none, so a read can change what a later search finds; it never changes what a later subscript reads.
-/

namespace Lib.Subscript

/-- What is found under each key. -/
abbrev Table (κ α : Type) := κ → Option α

variable {κ α : Type} [DecidableEq κ]

def empty : Table κ α := fun _ => none

def enter (m : Table κ α) (key : κ) (value : α) : Table κ α :=
  fun k => if k = key then some value else m k

/-- `m[key]`: the value, and the map with the default entered if there was none. -/
def subscript (default : α) (m : Table κ α) (key : κ) : α × Table κ α :=
  match m key with
  | some value => (value, m)
  | none => (default, enter m key default)

@[simp] theorem enter_same (m : Table κ α) (key : κ) (value : α) : enter m key value key = some value := by
  simp [enter]

theorem enter_other (m : Table κ α) {key k : κ} (value : α) (h : k ≠ key) :
    enter m key value k = m k := by
  simp [enter, h]

/-- Entering what is there already changes nothing. -/
theorem enter_found {m : Table κ α} {key : κ} {value : α} (h : m key = some value) :
    enter m key value = m := by
  funext k
  by_cases same : k = key
  · rw [same, enter_same, h]
  · exact enter_other m value same

/-- A subscript that finds something is a plain read. -/
theorem subscript_found (default : α) {m : Table κ α} {key : κ} {value : α} (h : m key = some value) :
    subscript default m key = (value, m) := by
  simp [subscript, h]

theorem subscript_missing (default : α) {m : Table κ α} {key : κ} (h : m key = none) :
    subscript default m key = (default, enter m key default) := by
  simp [subscript, h]

end Lib.Subscript
