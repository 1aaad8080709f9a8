import MCsim.Setups
import Mathlib.Algebra.BigOperators.Fin
import Mathlib.Data.Fintype.BigOperators
import Mathlib.Data.Fintype.Pigeonhole

/-!
# Which queues are told apart

`queueNumber` makes a queue for each position down to the marked level: as many as the product of the
counts. `decodeQueue` is to number them: the position at the marked level, and the positions above it
times that level's count. The positions above are multiplied with each other where they are not 0,
though, instead of being placed in a mixed radix.

Where one level above the marked one has positions to tell apart, its position is what the loop finds
(`above_alone`), and the index is a number of two digits. Where two have, a 1 in one of them and a 1 in the
other look the same.

However the positions above are combined, the index is below the number of queues
(`decodeQueue_inRange`): a product of positions that leaves some out is below the product of the counts.
-/

namespace MCsim
namespace QueueSelection

variable {setup : Setup} {a b : AddressMap}

/-- What the loop of `decodeQueue` finds above a level. -/
def above (a : AddressMap) (level : Nat) : Nat :=
  (List.range level).foldl (fun level n =>
    if 0 < a.get n then
      if level = 0 then a.get n else level * a.get n % 2 ^ 32
    else level) 0

theorem decodeQueue_marked {queueMap : List Bool} {level : Nat}
    (marked : queueMap.findIdx? id = some level) (a : AddressMap) :
    decodeQueue setup a queueMap = (a.get level + above a level * setup.count level) % 2 ^ 32 := by
  unfold decodeQueue
  rw [marked]
  rfl

/-- One more turn of the loop. -/
theorem above_succ (a : AddressMap) (level : Nat) :
    above a (level + 1) =
      if 0 < a.get level then
        if above a level = 0 then a.get level else above a level * a.get level % 2 ^ 32
      else above a level := by
  unfold above
  rw [List.range_succ, List.foldl_append]
  rfl

/-- **One position that is not 0** is what the loop finds. -/
theorem above_alone {k level : Nat} (alone : ∀ n < level, n ≠ k → a.get n = 0) :
    above a level = if k < level then a.get k else 0 := by
  induction level with
  | zero => rfl
  | succ level ih =>
    have before := ih fun n hn other => alone n (Nat.lt_succ_of_lt hn) other
    rw [above_succ, before]
    by_cases here : level = k
    · subst here
      by_cases zero : a.get level = 0
      · simp [zero]
      · simp [Nat.pos_of_ne_zero zero]
    · have zero := alone level (Nat.lt_succ_self level) here
      have same : k < level + 1 ↔ k < level := by omega
      simp only [zero, Nat.lt_irrefl, if_false, same]

/-- The components are below their counts. -/
def InRange (setup : Setup) (a : AddressMap) : Prop := ∀ i < 4, a.get i < setup.count i

/-- At most one level above this one has more than one position. -/
def OneAbove (setup : Setup) (level : Nat) : Prop :=
  ∀ i j, i < level → j < level → i ≠ j → setup.count i = 1 ∨ setup.count j = 1

/-- The level above that tells positions apart; the level itself where there is none. -/
theorem OneAbove.place {level : Nat} (one : OneAbove setup level)
    (positive : ∀ i < level, 0 < setup.count i) :
    ∃ k ≤ level, ∀ n < level, n ≠ k → setup.count n = 1 := by
  by_cases found : ∃ k < level, 1 < setup.count k
  · obtain ⟨k, hk, many⟩ := found
    refine ⟨k, hk.le, fun n hn other => ?_⟩
    rcases one n k hn hk other with single | single
    · exact single
    · omega
  · refine ⟨level, Nat.le_refl level, fun n hn _ => ?_⟩
    have few : ¬ 1 < setup.count n := fun many => found ⟨n, hn, many⟩
    have := positive n hn
    omega

/-- Two digits are read off their number. -/
theorem digits_eq {c x y p q : Nat} (hx : x < c) (hy : y < c) (same : x + p * c = y + q * c) :
    x = y ∧ p = q := by
  have positive : 0 < c := Nat.zero_lt_of_lt hx
  have low := congrArg (· % c) same
  have high := congrArg (· / c) same
  simp only [Nat.add_mul_mod_self_right, Nat.mod_eq_of_lt hx, Nat.mod_eq_of_lt hy] at low
  simp only [Nat.add_mul_div_right _ _ positive, Nat.div_eq_of_lt hx, Nat.div_eq_of_lt hy,
    Nat.zero_add] at high
  exact ⟨low, high⟩

/-- **One level above**: the index tells apart everything down to the marked level. -/
theorem decodeQueue_injective {queueMap : List Bool} {level : Nat}
    (marked : queueMap.findIdx? id = some level) (low : level < 4) (one : OneAbove setup level)
    (fits : ∏ i ∈ Finset.range (level + 1), setup.count i ≤ 2 ^ 32) (ha : InRange setup a)
    (hb : InRange setup b) (same : decodeQueue setup a queueMap = decodeQueue setup b queueMap) :
    ∀ i ≤ level, a.get i = b.get i := by
  have positive : ∀ i < level, 0 < setup.count i := fun i hi =>
    Nat.zero_lt_of_lt (ha i (by omega))
  obtain ⟨k, hk, single⟩ := one.place positive
  have alone : ∀ {c : AddressMap}, InRange setup c → ∀ n < level, n ≠ k → c.get n = 0 := by
    intro c hc n hn other
    have := hc n (by omega)
    have := single n hn other
    omega
  rw [decodeQueue_marked marked, decodeQueue_marked marked, above_alone (alone ha),
    above_alone (alone hb)] at same
  rw [Finset.prod_range_succ] at fits
  have lowA := ha level low
  have lowB := hb level low
  rcases Nat.lt_or_ge k level with inside | outside
  · -- two digits: the level above and the level itself
    rw [if_pos inside, if_pos inside] at same
    have radix : ∏ i ∈ Finset.range level, setup.count i = setup.count k :=
      Finset.prod_eq_single k (fun n hn other => single n (Finset.mem_range.mp hn) other)
        fun absent => absurd (Finset.mem_range.mpr inside) absent
    rw [radix] at fits
    have bound : ∀ {c : AddressMap}, InRange setup c → c.get level < setup.count level →
        c.get level + c.get k * setup.count level < 2 ^ 32 := by
      intro c hc small
      have digit : c.get k + 1 ≤ setup.count k := hc k (by omega)
      calc c.get level + c.get k * setup.count level
          < setup.count level + c.get k * setup.count level := by omega
        _ = (c.get k + 1) * setup.count level := by rw [Nat.add_mul, Nat.one_mul, Nat.add_comm]
        _ ≤ setup.count k * setup.count level := Nat.mul_le_mul_right _ digit
        _ ≤ 2 ^ 32 := fits
    rw [Nat.mod_eq_of_lt (bound ha lowA), Nat.mod_eq_of_lt (bound hb lowB)] at same
    obtain ⟨here, there⟩ := digits_eq lowA lowB same
    intro i hi
    by_cases marked_ : i = level
    · rw [marked_]
      exact here
    · by_cases upper : i = k
      · rw [upper]
        exact there
      · rw [alone ha i (by omega) upper, alone hb i (by omega) upper]
  · -- one digit
    have at_ : k = level := Nat.le_antisymm hk outside
    rw [if_neg (by omega), if_neg (by omega), Nat.zero_mul, Nat.add_zero, Nat.add_zero] at same
    have radix : ∏ i ∈ Finset.range level, setup.count i = 1 :=
      Finset.prod_eq_one fun n hn => single n (Finset.mem_range.mp hn) (by
        have := Finset.mem_range.mp hn
        omega)
    rw [radix, Nat.one_mul] at fits
    rw [Nat.mod_eq_of_lt (by omega), Nat.mod_eq_of_lt (by omega)] at same
    intro i hi
    by_cases marked_ : i = level
    · rw [marked_]
      exact same
    · rw [alone ha i (by omega) (by omega), alone hb i (by omega) (by omega)]

/-- Only the positions down to the marked level are read. -/
theorem decodeQueue_congr {queueMap : List Bool} {level : Nat}
    (marked : queueMap.findIdx? id = some level) (agree : ∀ i ≤ level, a.get i = b.get i) :
    decodeQueue setup a queueMap = decodeQueue setup b queueMap := by
  have same : ∀ l ≤ level, above a l = above b l := by
    intro l hl
    induction l with
    | zero => rfl
    | succ l ih => rw [above_succ, above_succ, ih (by omega), agree l (by omega)]
  rw [decodeQueue_marked marked, decodeQueue_marked marked, agree level (Nat.le_refl level),
    same level (Nat.le_refl level)]

/-! ## Where it fails -/

/-- The address map with these positions. -/
def mapOf (f : Nat → Nat) : AddressMap :=
  { rank := f 0, bankGroup := f 1, bank := f 2, subArray := f 3 }

theorem get_mapOf (f : Nat → Nat) {i : Nat} (hi : i < 4) : (mapOf f).get i = f i := by
  match i, hi with
  | 0, _ | 1, _ | 2, _ | 3, _ => rfl

/-- Position 1 at one level, and 0 at every other. -/
def unit (k : Nat) : AddressMap := mapOf fun i => if i = k then 1 else 0

theorem get_unit {i k : Nat} (hi : i < 4) : (unit k).get i = if i = k then 1 else 0 :=
  get_mapOf _ hi

theorem unit_inRange {k : Nat} (positive : ∀ i < 4, 0 < setup.count i) (many : 1 < setup.count k) :
    InRange setup (unit k) := by
  intro i hi
  rw [get_unit hi]
  split
  · next same => rwa [same]
  · exact positive i hi

/-- **Two levels above**: a 1 in either of them is decoded alike. -/
theorem decodeQueue_unit {queueMap : List Bool} {level i j : Nat}
    (marked : queueMap.findIdx? id = some level) (low : level < 4) (hi : i < level) (hj : j < level) :
    decodeQueue setup (unit i) queueMap = decodeQueue setup (unit j) queueMap := by
  have one : ∀ k < level, above (unit k) level = 1 := by
    intro k hk
    have alone : ∀ n < level, n ≠ k → (unit k).get n = 0 := fun n hn other => by
      rw [get_unit (by omega), if_neg other]
    rw [above_alone alone, if_pos hk, get_unit (by omega), if_pos rfl]
  have zero : ∀ k < level, (unit k).get level = 0 := fun k hk => by
    rw [get_unit low, if_neg (by omega)]
  rw [decodeQueue_marked marked, decodeQueue_marked marked, one i hi, one j hj, zero i hi, zero j hj]

/-- **More positions than indices**: two of them are decoded alike. -/
theorem decodeQueue_collides {queueMap : List Bool} {level : Nat}
    (marked : queueMap.findIdx? id = some level) (low : level < 4)
    (positive : ∀ i < 4, 0 < setup.count i)
    (many : 2 ^ 32 < ∏ i ∈ Finset.range (level + 1), setup.count i) :
    ∃ a b, InRange setup a ∧ InRange setup b ∧
      decodeQueue setup a queueMap = decodeQueue setup b queueMap ∧
      ¬ ∀ i ≤ level, a.get i = b.get i := by
  -- the positions down to the marked level, as a type
  let place : (∀ i : Fin (level + 1), Fin (setup.count i)) → AddressMap := fun x =>
    mapOf fun i => if h : i < level + 1 then (x ⟨i, h⟩).val else 0
  have read : ∀ x (i : Fin (level + 1)), (place x).get i = (x i).val := by
    intro x i
    rw [get_mapOf _ (by omega), dif_pos i.isLt]
  have ranged : ∀ x, InRange setup (place x) := by
    intro x i hi
    by_cases h : i < level + 1
    · rw [read x ⟨i, h⟩]
      exact (x ⟨i, h⟩).isLt
    · rw [get_mapOf _ hi, dif_neg h]
      exact positive i hi
  have bound : ∀ a, decodeQueue setup a queueMap < 2 ^ 32 := fun a => by
    rw [decodeQueue_marked marked]
    exact Nat.mod_lt _ (by decide)
  have card : Fintype.card (Fin (2 ^ 32)) < Fintype.card (∀ i : Fin (level + 1), Fin (setup.count i)) := by
    rw [Fintype.card_fin, Fintype.card_pi]
    simp only [Fintype.card_fin]
    rwa [Finset.prod_range] at many
  obtain ⟨x, y, differ, same⟩ := Fintype.exists_ne_map_eq_of_card_lt
    (fun x => (⟨decodeQueue setup (place x) queueMap, bound _⟩ : Fin (2 ^ 32))) card
  refine ⟨place x, place y, ranged x, ranged y, congrArg Fin.val same, fun agree => differ ?_⟩
  funext i
  apply Fin.ext
  rw [← read x i, ← read y i]
  exact agree i (by omega)

/-! ## Exactly when -/

/-- **The selection separates the marked level if and only if** at most one level above it has more than
one position and the positions down to it fit into 32 bits. With no level marked there is one queue. -/
theorem decodeQueue_separates (setup : Setup) (queueMap : List Bool) (four : queueMap.length = 4)
    (positive : ∀ i < 4, 0 < setup.count i) :
    (queueMap.findIdx? id = none → ∀ a, decodeQueue setup a queueMap = 0) ∧
    ∀ level, queueMap.findIdx? id = some level →
      ((∀ a b, InRange setup a → InRange setup b →
          (decodeQueue setup a queueMap = decodeQueue setup b queueMap ↔
            ∀ i ≤ level, a.get i = b.get i)) ↔
        OneAbove setup level ∧ ∏ i ∈ Finset.range (level + 1), setup.count i ≤ 2 ^ 32) := by
  constructor
  · intro unmarked a
    unfold decodeQueue
    rw [unmarked]
  · intro level marked
    have low : level < 4 := by
      obtain ⟨bound, _⟩ := List.findIdx?_eq_some_iff_getElem.mp marked
      omega
    constructor
    · intro separates
      constructor
      · intro i j hi hj other
        by_contra both
        have manyI : 1 < setup.count i := by
          have := positive i (by omega)
          omega
        have manyJ : 1 < setup.count j := by
          have := positive j (by omega)
          omega
        have agree := (separates (unit i) (unit j) (unit_inRange positive manyI)
          (unit_inRange positive manyJ)).mp (decodeQueue_unit marked low hi hj) i hi.le
        rw [get_unit (by omega), get_unit (by omega), if_pos rfl, if_neg other] at agree
        cases agree
      · by_contra many
        obtain ⟨a, b, ha, hb, same, differ⟩ :=
          decodeQueue_collides marked low positive (Nat.lt_of_not_le many)
        exact differ ((separates a b ha hb).mp same)
    · rintro ⟨one, fits⟩ a b ha hb
      exact ⟨decodeQueue_injective marked low one fits ha hb, decodeQueue_congr marked⟩

/-- A DDR4 device of four bank groups with four banks each, on some ranks. -/
def grouped (ranks : Nat) : Setup :=
  { openPageSetup with memTable := fun
      | .Rank => ranks
      | .BankGroup => 4
      | .Bank => 4
      | .SubArray => 1
      | .Row => 65536
      | .Column => 1024 }

/-- On one rank, the sixteen queues separate the banks. -/
theorem decodeQueue_separates_oneRank :
    queueNumber (grouped 1) [false, false, true, false] = 16 ∧
      ∀ a b, InRange (grouped 1) a → InRange (grouped 1) b →
        (decodeQueue (grouped 1) a [false, false, true, false] =
          decodeQueue (grouped 1) b [false, false, true, false] ↔ ∀ i ≤ 2, a.get i = b.get i) := by
  have law := (decodeQueue_separates (grouped 1) [false, false, true, false] rfl (by decide)).2 2 rfl
  refine ⟨rfl, law.mpr ⟨?_, by decide⟩⟩
  intro i j hi hj other
  by_cases first : i = 0
  · exact .inl (by rw [first]; rfl)
  · have second : j = 0 := by omega
    exact .inr (by rw [second]; rfl)

/-- On two ranks, bank 0 of the second bank group of rank 0 and bank 0 of the first bank group of rank 1
get one queue, of the 32 there are. -/
theorem decodeQueue_separates_twoRanks :
    ∃ a b, InRange (grouped 2) a ∧ InRange (grouped 2) b ∧ a.bankGroup = 1 ∧ b.rank = 1 ∧
      decodeQueue (grouped 2) a [false, false, true, false] = 4 ∧
      decodeQueue (grouped 2) b [false, false, true, false] = 4 ∧
      queueNumber (grouped 2) [false, false, true, false] = 32 ∧ ¬ ∀ i ≤ 2, a.get i = b.get i :=
  ⟨{ bankGroup := 1 }, { rank := 1 }, by unfold InRange; decide, by unfold InRange; decide, rfl, rfl, rfl,
    rfl, rfl, by decide⟩

/-! ## The index is in range -/

/-- The loop of `queueNumber` multiplies the counts. -/
theorem queueNumber_marked {queueMap : List Bool} {level : Nat}
    (marked : queueMap.findIdx? id = some level) :
    queueNumber setup queueMap = (∏ i ∈ Finset.range (level + 1), setup.count i) % 2 ^ 32 := by
  have loop : ∀ n, (List.range n).foldl (fun n i => n * setup.count i % 2 ^ 32) 1 =
      (∏ i ∈ Finset.range n, setup.count i) % 2 ^ 32 := by
    intro n
    induction n with
    | zero => rfl
    | succ n ih =>
      rw [List.range_succ, List.foldl_append, ih, Finset.prod_range_succ]
      exact Nat.mod_mul_mod _ _ _
  unfold queueNumber
  rw [marked]
  exact loop (level + 1)

/-- **What the loop of `decodeQueue` finds** is below the product of the counts, whichever positions it
leaves out. -/
theorem above_lt {level : Nat} (below : ∀ n < level, a.get n < setup.count n) :
    above a level < ∏ i ∈ Finset.range level, setup.count i := by
  induction level with
  | zero => exact Nat.one_pos
  | succ level ih =>
    have before := ih fun n hn => below n (Nat.lt_succ_of_lt hn)
    have here := below level (Nat.lt_succ_self level)
    rw [above_succ, Finset.prod_range_succ]
    generalize ∏ i ∈ Finset.range level, setup.count i = product at *
    have grows : product ≤ product * setup.count level :=
      Nat.le_mul_of_pos_right product (Nat.zero_lt_of_lt here)
    split
    · split
      · -- the first position that is not 0
        calc a.get level < setup.count level := here
          _ ≤ product * setup.count level := Nat.le_mul_of_pos_left _ (Nat.zero_lt_of_lt before)
      · calc above a level * a.get level % 2 ^ 32 ≤ above a level * a.get level := Nat.mod_le _ _
          _ < product * setup.count level := Nat.mul_lt_mul_of_lt_of_le before here.le
            (Nat.zero_lt_of_lt here)
    · exact Nat.lt_of_lt_of_le before grows

/-- **Every index is one of a queue.** Where the counts down to the marked level fit into 32 bits, positions
below their counts are decoded to an index below `queueNumber`, which is how many queues the controller
makes of either map. -/
theorem decodeQueue_inRange (setup : Setup) (queueMap : List Bool) (few : queueMap.length ≤ 4)
    (fits : ∀ level, queueMap.findIdx? id = some level →
      ∏ i ∈ Finset.range (level + 1), setup.count i < 2 ^ 32)
    (a : AddressMap) (inRange : InRange setup a) :
    decodeQueue setup a queueMap < queueNumber setup queueMap ∧
      ∀ {ρ κ : Type} (parts : Components ρ κ) (refreshCounting bank_release : Nat),
        (setup.reqMap = queueMap → decodeQueue setup a queueMap <
          (MemoryController.create setup parts refreshCounting bank_release).requestScheduler.queueCount) ∧
        (setup.cmdMap = queueMap → decodeQueue setup a queueMap <
          (MemoryController.create setup parts refreshCounting bank_release).commandScheduler.queueCount) := by
  suffices bound : decodeQueue setup a queueMap < queueNumber setup queueMap by
    refine ⟨bound, fun parts refreshCounting bank_release => ⟨?_, ?_⟩⟩
    · rintro rfl
      exact bound
    · rintro rfl
      exact bound
  cases marked : queueMap.findIdx? id with
  | none =>
    unfold decodeQueue queueNumber
    rw [marked]
    exact Nat.one_pos
  | some level =>
    have low : level < 4 := by
      obtain ⟨bound, _⟩ := List.findIdx?_eq_some_iff_getElem.mp marked
      omega
    have upper : above a level < ∏ i ∈ Finset.range level, setup.count i :=
      above_lt fun n hn => inRange n (by omega)
    have digit : a.get level + 1 ≤ setup.count level := inRange level low
    rw [queueNumber_marked marked, Nat.mod_eq_of_lt (fits level marked), decodeQueue_marked marked,
      Finset.prod_range_succ]
    generalize ∏ i ∈ Finset.range level, setup.count i = product at *
    calc (a.get level + above a level * setup.count level) % 2 ^ 32
        ≤ a.get level + above a level * setup.count level := Nat.mod_le _ _
      _ < setup.count level + above a level * setup.count level := by omega
      _ = (above a level + 1) * setup.count level := by
        rw [Nat.add_mul, Nat.one_mul, Nat.add_comm]
      _ ≤ product * setup.count level := Nat.mul_le_mul_right _ upper

/-- On two ranks, the last bank is decoded to an index below the 32 queues. -/
theorem decodeQueue_inRange_twoRanks :
    queueNumber (grouped 2) [false, false, true, false] = 32 ∧
      decodeQueue (grouped 2) { rank := 1, bankGroup := 3, bank := 3 } [false, false, true, false] <
        queueNumber (grouped 2) [false, false, true, false] := by
  refine ⟨rfl, (decodeQueue_inRange (grouped 2) [false, false, true, false] (by decide) ?_
    { rank := 1, bankGroup := 3, bank := 3 } (by unfold InRange; decide)).1⟩
  intro level marked
  obtain rfl : 2 = level := Option.some.inj marked
  decide

end QueueSelection
end MCsim
