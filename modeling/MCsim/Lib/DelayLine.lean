import Mathlib.Data.List.ReduceOption
import Mathlib.Tactic.Common

/-!
# Delay lines

A shift register of `n` slots delays a stream by `n` steps: in each step something, or nothing, enters
behind the slots and what stands in front of them leaves (`window_append`, `head_window`).

A line of counters is a register of which only the taken slots are kept: the items in their order, and
beside them the positions of their slots (`Keeps`). Entering is a push, a step of the register takes one
from every counter, and the item whose counter is 0 can only be the front.
-/

namespace Lib.DelayLine

variable {α : Type} {n offset : Nat} {ins : List (Option α)} {o : Option α} {x : α}

/-- What a stream carries in a step, after a delay of `n` steps. -/
def delayed (n : Nat) (ins : List (Option α)) (t : Nat) : Option α :=
  if n ≤ t then (ins[t - n]?).join else none

/-- The register of `n` slots after a stream, the front first. -/
def window (n : Nat) (ins : List (Option α)) : List (Option α) :=
  (List.replicate n none ++ ins).drop ins.length

@[simp] theorem length_window (n : Nat) (ins : List (Option α)) : (window n ins).length = n := by
  simp [window]

@[simp] theorem window_nil (n : Nat) : window n ([] : List (Option α)) = List.replicate n none := by
  simp [window]

/-- Something enters behind the slots, and the front leaves. -/
theorem window_append (n : Nat) (ins : List (Option α)) (o : Option α) :
    window n (ins ++ [o]) = (window n ins ++ [o]).tail := by
  have bound : ins.length ≤ (List.replicate n none ++ ins).length := by simp
  rw [window, window, List.length_append, List.length_singleton, ← List.append_assoc,
    ← List.drop_append_of_le_length bound, List.tail_drop]

/-- A stream that goes on is delayed as before. -/
theorem delayed_append {t : Nat} (past : t < ins.length) (more : List (Option α)) :
    delayed n (ins ++ more) t = delayed n ins t := by
  unfold delayed
  rw [List.getElem?_append_left (by omega)]

/-- A slot holds what leaves once the slots before it are gone. -/
theorem getElem?_window {i : Nat} (bound : i < n) :
    (window n ins)[i]? = some (delayed n ins (ins.length + i)) := by
  rw [window, List.getElem?_drop]
  unfold delayed
  split
  · next late =>
    have there : ins.length + i - n < ins.length := by omega
    rw [List.getElem?_append_right (by simpa using late), List.length_replicate,
      List.getElem?_eq_getElem there]
    rfl
  · next early =>
    rw [List.getElem?_append_left (by simpa using early), List.getElem?_replicate, if_pos (by omega)]

/-- **What leaves is the stream, delayed.** -/
theorem head_window (n : Nat) (ins : List (Option α)) (o : Option α) :
    (window n ins ++ [o]).head? = some (delayed n (ins ++ [o]) ins.length) := by
  rw [List.head?_eq_getElem?]
  by_cases slots : 0 < n
  · rw [List.getElem?_append_left (by simpa using slots), getElem?_window slots, Nat.add_zero]
    unfold delayed
    split
    · rw [List.getElem?_append_left (by omega)]
    · rfl
  · obtain rfl : n = 0 := by omega
    simp [window, delayed]

/-- **A step of the register**: what leaves, and what is left. -/
theorem window_shift (n : Nat) (ins : List (Option α)) (o : Option α) :
    window n ins ++ [o] = delayed n (ins ++ [o]) ins.length :: window n (ins ++ [o]) := by
  have head := head_window n ins o
  rw [window_append]
  cases whole : window n ins ++ [o] with
  | nil => simp at whole
  | cons a l =>
    rw [whole] at head
    rw [← Option.some.inj head]
    rfl

/-- What is in the register is what entered in the last `n` steps. -/
theorem reduceOption_window (n : Nat) (ins : List (Option α)) :
    (window n ins).reduceOption = (ins.drop (ins.length - n)).reduceOption := by
  rw [window, List.drop_append, List.drop_replicate, List.length_replicate, List.reduceOption_append,
    List.reduceOption_replicate_none, List.nil_append]

/-! ## Counters -/

/-- The positions of the slots taken, counted from an offset. -/
def positions : Nat → List (Option α) → List Nat
  | _, [] => []
  | offset, none :: reg => positions (offset + 1) reg
  | offset, some _ :: reg => offset :: positions (offset + 1) reg

theorem positions_append (offset : Nat) (reg more : List (Option α)) :
    positions offset (reg ++ more) = positions offset reg ++ positions (offset + reg.length) more := by
  induction reg generalizing offset with
  | nil => rfl
  | cons o reg ih =>
    have later : offset + 1 + reg.length = offset + (o :: reg).length := by
      rw [List.length_cons]
      omega
    cases o with
    | none => rw [List.cons_append, positions, positions, ih, later]
    | some x => rw [List.cons_append, positions, positions, ih, later, List.cons_append]

theorem positions_succ (offset : Nat) (reg : List (Option α)) :
    positions (offset + 1) reg = (positions offset reg).map (· + 1) := by
  induction reg generalizing offset with
  | nil => rfl
  | cons o reg ih => cases o <;> simp [positions, ih]

theorem le_of_mem_positions {reg : List (Option α)} {k : Nat} (h : k ∈ positions offset reg) :
    offset ≤ k ∧ k < offset + reg.length := by
  induction reg generalizing offset with
  | nil => cases h
  | cons o reg ih =>
    rw [List.length_cons]
    cases o with
    | none =>
      have := ih h
      omega
    | some x =>
      rcases List.mem_cons.mp h with rfl | h
      · omega
      · have := ih h
        omega

/-- Where the first slot is free, no counter is 0. -/
theorem head_positions (reg : List (Option α)) : ¬ (positions 0 (none :: reg)).head? = some 0 := by
  intro head
  have later : 0 ∈ positions 1 reg := List.mem_of_head? head
  exact Nat.not_succ_le_zero 0 (le_of_mem_positions later).1

theorem pairwise_positions (offset : Nat) (reg : List (Option α)) :
    (positions offset reg).Pairwise (· < ·) := by
  induction reg generalizing offset with
  | nil => exact .nil
  | cons o reg ih =>
    cases o with
    | none => exact ih (offset + 1)
    | some x => exact .cons (fun k h => (le_of_mem_positions h).1) (ih (offset + 1))

/-- Items and counters are the taken slots of a register. -/
structure Keeps (offset : Nat) (reg : List (Option α)) (items : List α) (counters : List Nat) : Prop where
  items : items = reg.reduceOption
  counters : counters = positions offset reg

namespace Keeps

variable {reg : List (Option α)} {items : List α} {counters : List Nat}

theorem free (offset n : Nat) : Keeps offset (List.replicate n none) ([] : List α) [] := by
  induction n generalizing offset with
  | zero => exact ⟨rfl, rfl⟩
  | succ n ih => exact ⟨(ih offset).items, (ih (offset + 1)).counters⟩

/-- Something, or nothing, enters behind the slots. -/
theorem enter (keeps : Keeps offset reg items counters) (o : Option α) :
    Keeps offset (reg ++ [o]) (items ++ o.toList)
      (counters ++ (o.map fun _ => offset + reg.length).toList) := by
  obtain ⟨rfl, rfl⟩ := keeps
  constructor
  · rw [List.reduceOption_append]
    cases o <;> rfl
  · rw [positions_append]
    cases o <;> rfl

/-- One is taken from every counter. -/
theorem down (keeps : Keeps (offset + 1) reg items counters) :
    Keeps offset reg items (counters.map (· - 1)) := by
  obtain ⟨rfl, rfl⟩ := keeps
  refine ⟨rfl, ?_⟩
  rw [positions_succ, List.map_map]
  exact List.map_id _

/-- The front counter is 0 exactly if the first slot is taken. -/
theorem leaving (keeps : Keeps 0 (o :: reg) items counters) :
    (if counters.head? = some 0 then items.head? else none) = o := by
  obtain ⟨rfl, rfl⟩ := keeps
  cases o with
  | none => rw [if_neg (head_positions reg)]
  | some x => rfl

/-- What is left once the first slot is gone. -/
theorem rest (keeps : Keeps 0 (o :: reg) items counters) :
    Keeps 1 reg (if counters.head? = some 0 then items.tail else items)
      (if counters.head? = some 0 then counters.tail else counters) := by
  obtain ⟨rfl, rfl⟩ := keeps
  cases o with
  | none =>
    rw [if_neg (head_positions reg), if_neg (head_positions reg)]
    exact ⟨rfl, rfl⟩
  | some x => exact ⟨rfl, rfl⟩

/-- **A step of a line whose front leaves when its counter reaches 0**: something, or nothing, enters, one is
taken from every counter, and the front whose counter is 0 goes. -/
theorem step {n : Nat} {ins : List (Option α)} (keeps : Keeps 1 (window n ins) items counters)
    (o : Option α) {left : List Nat}
    (entered : left = (counters ++ (o.map fun _ => n + 1).toList).map (· - 1)) :
    ∃ items', Keeps 1 (window n (ins ++ [o])) items'
      (if left.head? = some 0 then left.tail else left) := by
  have enters := keeps.enter o
  rw [length_window, Nat.add_comm 1 n] at enters
  have counted := enters.down
  rw [window_shift, ← entered] at counted
  exact ⟨_, counted.rest⟩

/-- Where nothing enters, the counters of a step later are smaller. -/
theorem falls (keeps : Keeps offset reg items counters) {items' : List α} {counters' : List Nat}
    (later : Keeps offset (reg ++ [none]).tail items' counters') {b : Nat}
    (below : ∀ k ∈ counters, k < b) : ∀ k ∈ counters', k < b - 1 := by
  obtain ⟨_, rfl⟩ := keeps
  obtain ⟨_, rfl⟩ := later
  cases reg with
  | nil => exact fun k h => absurd h List.not_mem_nil
  | cons o reg =>
    intro k h
    rw [List.cons_append, List.tail_cons, positions_append] at h
    have here : k ∈ positions offset reg := by simpa [positions] using h
    have next : k + 1 ∈ positions offset (o :: reg) := by
      have up : k + 1 ∈ positions (offset + 1) reg := by
        rw [positions_succ]
        exact List.mem_map_of_mem here
      cases o with
      | none => exact up
      | some x => exact List.mem_cons_of_mem offset up
    have := below (k + 1) next
    omega

theorem strict (keeps : Keeps offset reg items counters) : counters.Pairwise (· < ·) :=
  keeps.counters ▸ pairwise_positions offset reg

theorem bounds (keeps : Keeps offset reg items counters) :
    ∀ k ∈ counters, offset ≤ k ∧ k < offset + reg.length := by
  intro k h
  rw [keeps.counters] at h
  exact le_of_mem_positions h

theorem length_eq (keeps : Keeps offset reg items counters) : items.length = counters.length := by
  obtain ⟨rfl, rfl⟩ := keeps
  induction reg generalizing offset with
  | nil => rfl
  | cons o reg ih =>
    cases o with
    | none => exact ih
    | some x => exact congrArg (· + 1) ih

/-- Each item stands beside the position of its slot. -/
theorem mem_zip (keeps : Keeps offset reg items counters) {k : Nat} (h : (x, k) ∈ items.zip counters) :
    offset ≤ k ∧ reg[k - offset]? = some (some x) := by
  obtain ⟨rfl, rfl⟩ := keeps
  induction reg generalizing offset k with
  | nil => cases h
  | cons o reg ih =>
    have step : ∀ {k}, (x, k) ∈ reg.reduceOption.zip (positions (offset + 1) reg) →
        offset ≤ k ∧ (o :: reg)[k - offset]? = some (some x) := by
      intro k h
      obtain ⟨le, at_⟩ := ih h
      obtain ⟨j, rfl⟩ := Nat.exists_eq_add_of_le le
      refine ⟨by omega, ?_⟩
      rw [show offset + 1 + j - offset = j + 1 by omega, List.getElem?_cons_succ]
      rwa [Nat.add_sub_cancel_left] at at_
    cases o with
    | none => exact step h
    | some y =>
      rcases List.mem_cons.mp h with e | h
      · obtain ⟨rfl, rfl⟩ := Prod.mk.inj e
        exact ⟨Nat.le_refl _, by simp⟩
      · exact step h

end Keeps
end Lib.DelayLine
