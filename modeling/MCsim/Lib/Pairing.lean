import Mathlib.Data.List.Perm.Basic
import Mathlib.Tactic.Common

/-!
# Arrivals and departures paired by key

Things arrive under keys and leave in any order. A ledger that knows a departure only by its key pairs
it with the oldest arrival of that key that it has not paired yet (`records`); who has really left is
another matter (`inside`, `left`). The n-th departure of a key is so paired with its n-th arrival
(`Turn`), and the spans of these pairs are never longer than the longest real stay (`Turn.le_stay`).

The reason is a count: up to any time, at least as many arrivals of a key are really inside as are
recorded (`Valid.counted`). A departure takes away the oldest record and an arbitrary arrival, which
keeps this true; so when a record is paired, something at least as old is still inside, and its stay
will be at least as long.
-/

namespace Lib.Pairing

variable {κ : Type} [DecidableEq κ]

/-- The times of a key. -/
def timesOf (k : κ) (l : List (κ × Nat)) : List Nat := (l.filter fun x => x.1 = k).map (·.2)

@[simp] theorem timesOf_append (k : κ) (l l' : List (κ × Nat)) :
    timesOf k (l ++ l') = timesOf k l ++ timesOf k l' := by
  simp [timesOf]

theorem timesOf_cons (k : κ) (x : κ × Nat) (l : List (κ × Nat)) :
    timesOf k (x :: l) = if x.1 = k then x.2 :: timesOf k l else timesOf k l := by
  by_cases same : x.1 = k
  · simp [timesOf, same]
  · simp [timesOf, same]

theorem mem_timesOf {k : κ} {t : Nat} {l : List (κ × Nat)} : t ∈ timesOf k l ↔ (k, t) ∈ l := by
  simp [timesOf]

/-- The first entry of a key is its oldest time. -/
theorem timesOf_eraseP (k k' : κ) (l : List (κ × Nat)) :
    timesOf k' (l.eraseP fun x => x.1 = k) = if k = k' then (timesOf k' l).tail else timesOf k' l := by
  induction l with
  | nil => simp [timesOf]
  | cons x l ih =>
    by_cases here : x.1 = k
    · subst here
      by_cases same : x.1 = k'
      · simp [timesOf_cons, same]
      · simp [timesOf_cons, same]
    · rw [List.eraseP_cons_of_neg (by simpa using here), timesOf_cons, timesOf_cons, ih]
      by_cases same : k = k'
      · subst same
        simp [here]
      · simp [same]

/-- What stood at a position is one more time of its key. -/
theorem timesOf_eraseIdx {l : List (κ × Nat)} {index : Nat} {x : κ × Nat} (at_ : l[index]? = some x)
    (k : κ) : (timesOf k l).Perm (if x.1 = k then x.2 :: timesOf k (l.eraseIdx index)
      else timesOf k (l.eraseIdx index)) := by
  obtain ⟨bound, rfl⟩ := List.getElem?_eq_some_iff.mp at_
  have moved := ((List.getElem_cons_eraseIdx_perm bound).filter fun x => x.1 = k).map (·.2)
  rw [← timesOf_cons]
  exact moved.symm

/-- Up to any time, there are no more of the one than of the other. -/
def Dominates (few many : List Nat) : Prop :=
  few.length = many.length ∧ ∀ t, few.countP (· ≤ t) ≤ many.countP (· ≤ t)

theorem Dominates.concat {few many : List Nat} (h : Dominates few many) (t : Nat) :
    Dominates (few ++ [t]) (many ++ [t]) := by
  refine ⟨by simp [h.1], ?_⟩
  intro u
  have := h.2 u
  simp only [List.countP_append]
  omega

theorem Dominates.congr {few many many' : List Nat} (h : Dominates few many)
    (same : many.Perm many') : Dominates few many' := by
  refine ⟨h.1.trans same.length_eq, ?_⟩
  intro t
  rw [← same.countP_eq]
  exact h.2 t

/-- The oldest of the one goes, and any of the other. -/
theorem Dominates.drop {few many : List Nat} {old any : Nat} (h : Dominates (old :: few) (any :: many))
    (sorted : (old :: few).Pairwise (· ≤ ·)) : Dominates few many := by
  refine ⟨by simpa using h.1, ?_⟩
  intro t
  have counts := h.2 t
  simp only [List.countP_cons, decide_eq_true_eq] at counts
  by_cases late : old ≤ t
  · rw [if_pos late] at counts
    split at counts <;> omega
  · -- nothing is recorded up to a time before the oldest
    have none : few.countP (· ≤ t) = 0 := by
      rw [List.countP_eq_zero]
      intro u hu
      have := (List.pairwise_cons.mp sorted).1 u hu
      simp only [decide_eq_true_eq]
      omega
    omega

/-- For what is recorded, something at least as old is inside. -/
theorem Dominates.exists_le {few many : List Nat} {old : Nat} (h : Dominates (old :: few) many) :
    ∃ t ∈ many, t ≤ old := by
  have positive : 0 < many.countP (· ≤ old) := by
    have counts := h.2 old
    simp only [List.countP_cons, Nat.le_refl, decide_true, if_true] at counts
    omega
  obtain ⟨t, ht, le⟩ := List.countP_pos_iff.mp positive
  exact ⟨t, ht, by simpa using le⟩

/-- A real stay: its key, the time of arrival and the time of departure. -/
structure Stay (κ : Type) where
  key : κ
  arrival : Nat
  departure : Nat
  deriving DecidableEq, Repr

def Stay.span (x : Stay κ) : Nat := x.departure - x.arrival

structure Ledger (κ : Type) where
  now : Nat
  arrived : List (κ × Nat) := []
  records : List (κ × Nat) := []
  inside : List (κ × Nat) := []
  left : List (Stay κ) := []

namespace Ledger

variable {l l' : Ledger κ} {k : κ}

/-- The times at which things of a key have left. -/
def departures (l : Ledger κ) (k : κ) : List Nat :=
  timesOf k (l.left.map fun x => (x.key, x.departure))

/-- Time passes. -/
def tick (l : Ledger κ) : Ledger κ := { l with now := l.now + 1 }

/-- Something arrives. -/
def arrive (l : Ledger κ) (k : κ) : Ledger κ :=
  { l with
    arrived := l.arrived ++ [(k, l.now)]
    records := l.records ++ [(k, l.now)]
    inside := l.inside ++ [(k, l.now)] }

/-- What stands at a position inside leaves, and the oldest record of its key goes. -/
def leave (l : Ledger κ) (index : Nat) : Option (Ledger κ) :=
  (l.inside[index]?).map fun x =>
    { l with
      records := l.records.eraseP fun r => r.1 = x.1
      inside := l.inside.eraseIdx index
      left := l.left ++ [{ key := x.1, arrival := x.2, departure := l.now }] }

/-- The n-th arrival of a key and its n-th departure. -/
def Turn (l : Ledger κ) (k : κ) (n arrival departure : Nat) : Prop :=
  (timesOf k l.arrived)[n]? = some arrival ∧ (l.departures k)[n]? = some departure

/-- The law of a ledger. -/
structure Valid (l : Ledger κ) : Prop where
  few : ∀ k, (l.departures k).length ≤ (timesOf k l.arrived).length
  recorded : ∀ k, timesOf k l.records = (timesOf k l.arrived).drop (l.departures k).length
  sorted : ∀ k, (timesOf k l.arrived).Pairwise (· ≤ ·)
  past : ∀ x ∈ l.arrived, x.2 ≤ l.now
  counted : ∀ k, Dominates (timesOf k l.records) (timesOf k l.inside)
  covered : ∀ {k n s c}, l.Turn k n s c → (∃ x ∈ l.left, c - s ≤ x.span) ∨
    ∃ x ∈ l.inside, c - s ≤ l.now - x.2

theorem Valid.start (now : Nat) : Valid ({ now := now } : Ledger κ) := by
  refine ⟨?_, ?_, ?_, ?_, ?_, ?_⟩ <;> simp [timesOf, departures, Dominates, Turn]

theorem Valid.tick (valid : Valid l) : Valid l.tick := by
  refine ⟨valid.few, valid.recorded, valid.sorted, ?_, valid.counted, ?_⟩
  · intro x hx
    exact Nat.le_succ_of_le (valid.past x hx)
  · intro k n s c turn
    rcases valid.covered turn with left | ⟨x, hx, le⟩
    · exact .inl left
    · refine .inr ⟨x, hx, ?_⟩
      show c - s ≤ l.now + 1 - x.2
      omega

theorem timesOf_arrived_le (valid : Valid l) {t : Nat} (ht : t ∈ timesOf k l.arrived) : t ≤ l.now :=
  valid.past (k, t) (mem_timesOf.mp ht)

/-- A pair stays one when something arrives. -/
theorem Turn.arrive {k' : κ} {n s c : Nat} (turn : l.Turn k n s c) : (l.arrive k').Turn k n s c := by
  refine ⟨?_, turn.2⟩
  show (timesOf k (l.arrived ++ [(k', l.now)]))[n]? = some s
  rw [timesOf_append, List.getElem?_append_left (List.getElem?_eq_some_iff.mp turn.1).1]
  exact turn.1

/-- What arrives is not paired yet. -/
theorem Turn.of_arrive {k' : κ} {n s c : Nat} (valid : Valid l) (turn : (l.arrive k').Turn k n s c) :
    l.Turn k n s c := by
  obtain ⟨arrival, departure⟩ := turn
  have bound := (List.getElem?_eq_some_iff.mp departure).1
  have small : n < (timesOf k l.arrived).length := Nat.lt_of_lt_of_le bound (valid.few k)
  refine ⟨?_, departure⟩
  rw [← arrival]
  show _ = (timesOf k (l.arrived ++ [(k', l.now)]))[n]?
  rw [timesOf_append, List.getElem?_append_left small]

theorem Valid.arrive (valid : Valid l) (k : κ) : Valid (l.arrive k) := by
  refine ⟨?_, ?_, ?_, ?_, ?_, ?_⟩
  · intro k'
    have := valid.few k'
    simp only [Ledger.arrive, timesOf_append, List.length_append, departures] at this ⊢
    omega
  · intro k'
    show timesOf k' (l.records ++ [(k, l.now)]) =
      (timesOf k' (l.arrived ++ [(k, l.now)])).drop (l.departures k').length
    rw [timesOf_append, timesOf_append, List.drop_append_of_le_length (valid.few k'),
      valid.recorded k']
  · intro k'
    show (timesOf k' (l.arrived ++ [(k, l.now)])).Pairwise (· ≤ ·)
    rw [timesOf_append]
    refine List.pairwise_append.mpr ⟨valid.sorted k', ?_, ?_⟩
    · rw [timesOf_cons]
      split <;> simp [timesOf]
    · intro t ht u hu
      have new : u = l.now := by
        have : (k', u) ∈ [(k, l.now)] := mem_timesOf.mp hu
        simp at this
        exact this.2
      rw [new]
      exact timesOf_arrived_le valid ht
  · intro x hx
    rcases List.mem_append.mp hx with old | new
    · exact valid.past x old
    · rw [List.mem_singleton.mp new]
      exact Nat.le_refl _
  · intro k'
    show Dominates (timesOf k' (l.records ++ [(k, l.now)])) (timesOf k' (l.inside ++ [(k, l.now)]))
    rw [timesOf_append, timesOf_append, timesOf_cons]
    split
    · exact (valid.counted k').concat l.now
    · simpa [timesOf] using valid.counted k'
  · intro k' n s c turn
    rcases valid.covered (turn.of_arrive valid) with left | ⟨x, hx, le⟩
    · exact .inl left
    · exact .inr ⟨x, List.mem_append_left _ hx, le⟩

/-! ## Departures -/

/-- The oldest record of what leaves, and everything else that is recorded of its key. -/
theorem Valid.oldest (valid : Valid l) {index : Nat} {x : κ × Nat} (at_ : l.inside[index]? = some x) :
    ∃ old rest, timesOf x.1 l.records = old :: rest ∧
      (timesOf x.1 l.arrived)[(l.departures x.1).length]? = some old := by
  have moved := timesOf_eraseIdx at_ x.1
  rw [if_pos rfl] at moved
  cases records : timesOf x.1 l.records with
  | nil =>
    have none := (valid.counted x.1).1
    rw [records, moved.length_eq] at none
    simp at none
  | cons old rest =>
    refine ⟨old, rest, rfl, ?_⟩
    have dropped := valid.recorded x.1
    rw [records] at dropped
    rw [← List.head?_drop, ← dropped]
    rfl

theorem departures_leave {index : Nat} {x : κ × Nat} (at_ : l.inside[index]? = some x)
    (h : l.leave index = some l') (k : κ) :
    l'.departures k = if x.1 = k then l.departures k ++ [l.now] else l.departures k := by
  simp only [leave, at_, Option.map_some, Option.some.injEq] at h
  subst h
  simp only [departures, List.map_append, timesOf_append, List.map_cons, List.map_nil, timesOf_cons]
  split <;> simp [timesOf]

/-- The pairs after a departure: those before it, and the departure with the oldest record. -/
theorem Turn.of_leave {index n s c : Nat} {x : κ × Nat} (at_ : l.inside[index]? = some x)
    (h : l.leave index = some l') (turn : l'.Turn k n s c) :
    l.Turn k n s c ∨ k = x.1 ∧ n = (l.departures x.1).length ∧ c = l.now ∧
      (timesOf x.1 l.arrived)[(l.departures x.1).length]? = some s := by
  obtain ⟨arrival, departure⟩ := turn
  have arrived : l'.arrived = l.arrived := by
    simp only [Ledger.leave, at_, Option.map_some, Option.some.injEq] at h
    subst h
    rfl
  rw [arrived] at arrival
  rw [departures_leave at_ h] at departure
  by_cases own : x.1 = k
  · subst own
    rw [if_pos rfl, List.getElem?_append] at departure
    split at departure
    · exact .inl ⟨arrival, departure⟩
    · next late =>
      have place : n - (l.departures x.1).length = 0 := by
        have := (List.getElem?_eq_some_iff.mp departure).1
        simp at this
        omega
      have here : n = (l.departures x.1).length := by omega
      subst here
      refine .inr ⟨rfl, rfl, ?_, arrival⟩
      simpa using departure.symm
  · rw [if_neg own] at departure
    exact .inl ⟨arrival, departure⟩

/-- A pair stays one when something leaves. -/
theorem Turn.leave {index n s c : Nat} {x : κ × Nat} (at_ : l.inside[index]? = some x)
    (h : l.leave index = some l') (turn : l.Turn k n s c) : l'.Turn k n s c := by
  have departed := departures_leave at_ h k
  simp only [Ledger.leave, at_, Option.map_some, Option.some.injEq] at h
  subst h
  refine ⟨turn.1, ?_⟩
  rw [departed]
  split
  · rw [List.getElem?_append_left (List.getElem?_eq_some_iff.mp turn.2).1]
    exact turn.2
  · exact turn.2

/-- What leaves makes a pair with the oldest record of its key. -/
theorem Turn.of_oldest {index old : Nat} {x : κ × Nat} (at_ : l.inside[index]? = some x)
    (h : l.leave index = some l')
    (first : (timesOf x.1 l.arrived)[(l.departures x.1).length]? = some old) :
    l'.Turn x.1 (l.departures x.1).length old l.now := by
  have departed := departures_leave at_ h x.1
  simp only [Ledger.leave, at_, Option.map_some, Option.some.injEq] at h
  subst h
  refine ⟨first, ?_⟩
  rw [departed, if_pos rfl]
  simp

theorem Valid.leave (valid : Valid l) {index : Nat} (h : l.leave index = some l') : Valid l' := by
  obtain ⟨x, at_, out⟩ := Option.map_eq_some_iff.mp h
  obtain ⟨old, rest, records, first⟩ := valid.oldest at_
  have departed := departures_leave at_ h
  have turns := @Turn.of_leave κ _ l l'
  subst out
  have small : (l.departures x.1).length < (timesOf x.1 l.arrived).length :=
    (List.getElem?_eq_some_iff.mp first).1
  refine ⟨?_, ?_, valid.sorted, valid.past, ?_, ?_⟩
  · intro k
    have few := valid.few k
    rw [departed]
    split
    · next own =>
      subst own
      rw [List.length_append, List.length_singleton]
      exact small
    · exact few
  · intro k
    rw [departed]
    show timesOf k (l.records.eraseP fun r => r.1 = x.1) = _
    rw [timesOf_eraseP, valid.recorded k]
    split
    · rw [List.tail_drop, List.length_append, List.length_singleton]
    · rfl
  · intro k
    show Dominates (timesOf k (l.records.eraseP fun r => r.1 = x.1))
      (timesOf k (l.inside.eraseIdx index))
    have counted := (valid.counted k).congr (timesOf_eraseIdx at_ k)
    rw [timesOf_eraseP]
    split
    · next own =>
      subst own
      rw [if_pos rfl, records] at counted
      rw [records]
      apply counted.drop
      rw [← records, valid.recorded]
      exact (valid.sorted x.1).sublist (List.drop_sublist _ _)
    · next other =>
      rw [if_neg other] at counted
      exact counted
  · intro k n s c turn
    obtain ⟨bound, rfl⟩ := List.getElem?_eq_some_iff.mp at_
    have moved := (List.getElem_cons_eraseIdx_perm bound).symm
    -- whatever was inside is inside still, or it has just left
    have still : ∀ y ∈ l.inside, ∀ d, d ≤ l.now - y.2 →
        (∃ z ∈ l.left ++ [⟨l.inside[index].1, l.inside[index].2, l.now⟩], d ≤ Stay.span z) ∨
        ∃ z ∈ l.inside.eraseIdx index, d ≤ l.now - z.2 := by
      intro y hy d le
      rcases List.mem_cons.mp (moved.mem_iff.mp hy) with rfl | inside
      · exact .inl ⟨_, List.mem_append_right _ List.mem_cons_self, le⟩
      · exact .inr ⟨y, inside, le⟩
    rcases turns at_ h turn with before | ⟨rfl, _, rfl, arrival⟩
    · rcases valid.covered before with ⟨y, hy, le⟩ | ⟨y, hy, le⟩
      · exact .inl ⟨y, List.mem_append_left _ hy, le⟩
      · exact still y hy _ le
    · obtain rfl : old = s := Option.some.inj (first.symm.trans arrival)
      have counted := valid.counted l.inside[index].1
      rw [records] at counted
      obtain ⟨t, ht, le⟩ := counted.exists_le
      exact still _ (mem_timesOf.mp ht) _ (Nat.sub_le_sub_left le l.now)

/-- **The pairs are no longer than the stays**, once everything has left. -/
theorem Turn.le_stay {n s c : Nat} (valid : Valid l) (all : l.inside = []) (turn : l.Turn k n s c) :
    ∃ x ∈ l.left, c - s ≤ x.span := by
  rcases valid.covered turn with left | ⟨x, hx, _⟩
  · exact left
  · rw [all] at hx
    cases hx

end Ledger
end Lib.Pairing
