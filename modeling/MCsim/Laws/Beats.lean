import Mathlib.Algebra.Ring.Parity
import Mathlib.Algebra.Order.Ring.Int
import Mathlib.Data.Nat.Prime.Basic
import Mathlib.Tactic.FinCases
import Mathlib.Tactic.Ring
import MCsim.Laws.Posting

/-!
# Beats

A request is cracked into column accesses by its generator, each of which brings one packet of data, and
the controller counts the packets down by `requestSize`: a packet completes the pending entry where one
data bus width is left of it, and takes one width away otherwise. Generators and controller agree where
the generator makes `requestSize / dataBusWidth` column accesses and the division leaves nothing over.

`OPEN` and `ROUND` divide, `CLOSE` looks the size up in a table of five sizes, and `PipeCAS` always makes
one column access. `beats_agree` says for which sizes each of them is right.
-/

namespace MCsim
namespace MemoryController

variable {ρ κ : Type} {setup : Setup} {c c' : MemoryController ρ κ} {isRead : Bool} {index k : Nat}
  {r : Request} {p : BusPacket}

/-- `receiveData` for reads, `sendData` for writes. -/
def passData (setup : Setup) (isRead : Bool) (c : MemoryController ρ κ) (p : BusPacket) :
    MemoryController ρ κ :=
  if isRead then receiveData setup c p else sendData setup c p

/-- The pending entry that packets of its requestor and address are matched with. -/
structure Awaits (c : MemoryController ρ κ) (isRead : Bool) (index : Nat) (r : Request) : Prop where
  at_ : (c.pending isRead)[index]? = some r
  first : ∀ j e, j < index → (c.pending isRead)[j]? = some e →
    ¬ (e.requestorID = r.requestorID ∧ e.address = r.address)

/-- **A pending entry completes after `k` packets**: none of the packets before brings it below 0 or calls
back, and the last calls back once and removes it. -/
structure Completes (setup : Setup) (isRead : Bool) (c : MemoryController ρ κ) (index : Nat) (r : Request)
    (k : Nat) : Prop where
  some_beat : 1 ≤ k
  early : ∀ ps : List BusPacket, (∀ p ∈ ps, matchesRequest p r = true) → ps.length < k →
    ps.length * setup.dataBusWidth ≤ r.requestSize ∧
      (ps.foldl (passData setup isRead) c).callbacks = c.callbacks ∧
      ((ps.foldl (passData setup isRead) c).pending isRead)[index]? =
        some { r with requestSize := r.requestSize - ps.length * setup.dataBusWidth }
  last : ∀ (ps : List BusPacket) (p : BusPacket), (∀ q ∈ ps, matchesRequest q r = true) →
    matchesRequest p r = true → ps.length + 1 = k →
    (passData setup isRead (ps.foldl (passData setup isRead) c) p).callbacks =
        c.callbacks ++ [{ request := { r with requestSize := setup.dataBusWidth }, packet := p }] ∧
      (passData setup isRead (ps.foldl (passData setup isRead) c) p).pending isRead =
        ((ps.foldl (passData setup isRead) c).pending isRead).eraseIdx index

/-! ## One packet -/

theorem matched_of_awaits (awaits : c.Awaits isRead index r) (matches_ : matchesRequest p r = true) :
    c.Matched isRead p index r := by
  obtain ⟨same, address⟩ : p.requestorID = r.requestorID ∧ p.address = r.address := by
    simpa [matchesRequest] using matches_
  obtain ⟨bound, here⟩ := List.getElem?_eq_some_iff.mp awaits.at_
  refine ⟨List.findIdx?_eq_some_iff_getElem.mpr ⟨bound, by rw [here]; exact matches_, fun j hj => ?_⟩,
    awaits.at_⟩
  have other := awaits.first j _ hj (List.getElem?_eq_getElem (Nat.lt_trans hj bound))
  intro hit
  obtain ⟨same', address'⟩ : p.requestorID = _ ∧ p.address = _ := by simpa [matchesRequest] using hit
  exact other ⟨same'.symm.trans same, address'.symm.trans address⟩

/-- The entry after a packet that does not complete it. -/
theorem awaits_assignSize (awaits : c.Awaits isRead index r) (n : Nat) :
    (c.assignSize r.handle n).Awaits isRead index { r with requestSize := n } := by
  have pending : (c.assignSize r.handle n).pending isRead =
      Request.assignSize r.handle n (c.pending isRead) := by
    cases isRead <;> rfl
  constructor
  · rw [pending, Request.assignSize, List.getElem?_map, awaits.at_]
    simp
  · intro j e hj he
    rw [pending, Request.assignSize, List.getElem?_map] at he
    obtain ⟨e', at_, rfl⟩ := Option.map_eq_some_iff.mp he
    have other := awaits.first j e' hj at_
    split <;> exact other

/-- Both directions deliver to a controller with the same entries. -/
theorem passData_eq (setup : Setup) (isRead : Bool) (c : MemoryController ρ κ) (p : BusPacket) :
    ∃ c₁ : MemoryController ρ κ, passData setup isRead c p = deliver setup isRead c₁ p ∧
      c₁.callbacks = c.callbacks ∧ c₁.pending isRead = c.pending isRead := by
  cases isRead
  · exact ⟨_, rfl, rfl, rfl⟩
  · exact ⟨_, rfl, rfl, rfl⟩

/-- **What a packet does to the entry it is for.** -/
theorem passData_cases (awaits : c.Awaits isRead index r) (matches_ : matchesRequest p r = true) :
    (r.requestSize = setup.dataBusWidth ∧
      (passData setup isRead c p).callbacks = c.callbacks ++ [{ request := r, packet := p }] ∧
      (passData setup isRead c p).pending isRead = (c.pending isRead).eraseIdx index) ∨
    (r.requestSize ≠ setup.dataBusWidth ∧ (passData setup isRead c p).callbacks = c.callbacks ∧
      (passData setup isRead c p).Awaits isRead index
        { r with requestSize := (r.requestSize + (2 ^ 32 - setup.dataBusWidth)) % 2 ^ 32 }) := by
  obtain ⟨c₁, passed, same, entry⟩ := passData_eq setup isRead c p
  have awaits₁ : c₁.Awaits isRead index r := by
    constructor
    · rw [entry]
      exact awaits.at_
    · rw [entry]
      exact awaits.first
  have matched := matched_of_awaits awaits₁ matches_
  rw [passed, ← same, ← entry]
  obtain ⟨none, _⟩ | ⟨index', r', matched', rest⟩ := deliver_cases setup isRead c₁ p
  · have absent := none r (List.mem_of_getElem? matched.2)
    rw [matches_] at absent
    cases absent
  · obtain rfl : index = index' := Option.some.inj (matched.1.symm.trans matched'.1)
    obtain rfl : r = r' := Option.some.inj (matched.2.symm.trans matched'.2)
    rcases rest with ⟨width, delivered⟩ | ⟨more, delivered⟩
    · refine .inl ⟨width, ?_, ?_⟩ <;> rw [delivered] <;> cases isRead <;> rfl
    · refine .inr ⟨more, ?_, ?_⟩
      · rw [delivered]
        rfl
      · rw [delivered]
        exact awaits_assignSize awaits₁ _

/-! ## All packets of a request -/

/-- No packet takes a callback back. -/
theorem callbacks_foldl (ps : List BusPacket) (c : MemoryController ρ κ) :
    c.callbacks.length ≤ (ps.foldl (passData setup isRead) c).callbacks.length := by
  induction ps generalizing c with
  | nil => exact Nat.le_refl _
  | cons p ps ih =>
    refine Nat.le_trans ?_ (ih _)
    obtain ⟨c₁, passed, same, _⟩ := passData_eq setup isRead c p
    rw [passed, ← same]
    obtain ⟨_, h⟩ | ⟨index, r, _, ⟨_, h⟩ | ⟨_, h⟩⟩ := deliver_cases setup isRead c₁ p
    · exact Nat.le_of_eq (congrArg _ (congrArg _ h.symm))
    · rw [h]
      cases isRead <;> simp [completed, setPending]
    · rw [h]
      exact Nat.le_refl _

/-- Packets that do not complete the entry leave it in its place. -/
theorem awaits_foldl (ps : List BusPacket) (awaits : c.Awaits isRead index r)
    (matches_ : ∀ p ∈ ps, matchesRequest p r = true) :
    c.callbacks.length < (ps.foldl (passData setup isRead) c).callbacks.length ∨
    ((ps.foldl (passData setup isRead) c).callbacks = c.callbacks ∧
      ∃ n, (ps.foldl (passData setup isRead) c).Awaits isRead index { r with requestSize := n }) := by
  induction ps generalizing c r with
  | nil => exact .inr ⟨rfl, r.requestSize, awaits⟩
  | cons p ps ih =>
    obtain ⟨here, rest⟩ := List.forall_mem_cons.mp matches_
    rw [List.foldl_cons]
    obtain ⟨_, called, _⟩ | ⟨_, called, awaits'⟩ := @passData_cases _ _ setup _ _ _ _ _ awaits here
    · refine .inl (Nat.lt_of_lt_of_le ?_ (callbacks_foldl ps _))
      rw [called]
      simp
    · rw [← called]
      obtain grew | ⟨quiet, n, there⟩ := ih awaits' rest
      · exact .inl grew
      · exact .inr ⟨quiet, n, there⟩

/-- Fewer packets than beats count the entry down. -/
theorem awaits_early (bus : 0 < setup.dataBusWidth) (ps : List BusPacket)
    (matches_ : ∀ p ∈ ps, matchesRequest p r = true) (awaits : c.Awaits isRead index r)
    (fits : r.requestSize < 2 ^ 32) (size : r.requestSize = k * setup.dataBusWidth)
    (short : ps.length < k) :
    (ps.foldl (passData setup isRead) c).callbacks = c.callbacks ∧
      (ps.foldl (passData setup isRead) c).Awaits isRead index
        { r with requestSize := r.requestSize - ps.length * setup.dataBusWidth } := by
  induction ps generalizing c r k with
  | nil =>
    refine ⟨rfl, ?_⟩
    rw [List.length_nil, Nat.zero_mul, Nat.sub_zero]
    exact awaits
  | cons p ps ih =>
    obtain ⟨here, rest⟩ := List.forall_mem_cons.mp matches_
    obtain ⟨j, rfl⟩ : ∃ j, k = j + 1 + 1 := ⟨k - 2, by rw [List.length_cons] at short; omega⟩
    rw [List.length_cons] at short
    have split : (j + 1 + 1) * setup.dataBusWidth =
        (j + 1) * setup.dataBusWidth + setup.dataBusWidth := Nat.succ_mul _ _
    have more : setup.dataBusWidth ≤ (j + 1) * setup.dataBusWidth := Nat.le_mul_of_pos_left _ (by omega)
    have less : (r.requestSize + (2 ^ 32 - setup.dataBusWidth)) % 2 ^ 32 =
        (j + 1) * setup.dataBusWidth := by omega
    obtain ⟨width, _⟩ | ⟨_, called, awaits'⟩ := @passData_cases _ _ setup _ _ _ _ _ awaits here
    · omega
    · rw [less] at awaits'
      obtain ⟨quiet, there⟩ := ih (r := { r with requestSize := (j + 1) * setup.dataBusWidth }) rest
        awaits' (by dsimp only; omega) rfl (by omega)
      refine ⟨quiet.trans called, ?_⟩
      have left : r.requestSize - (ps.length + 1) * setup.dataBusWidth =
          (j + 1) * setup.dataBusWidth - ps.length * setup.dataBusWidth := by
        rw [size, split, Nat.succ_mul ps.length, Nat.add_sub_add_right]
      rw [List.length_cons, left]
      exact there

/-- **A request of `k` beats completes after `k` packets.** -/
theorem completes_of_eq (bus : 0 < setup.dataBusWidth) (awaits : c.Awaits isRead index r)
    (some_beat : 1 ≤ k) (fits : r.requestSize < 2 ^ 32) (size : r.requestSize = k * setup.dataBusWidth) :
    Completes setup isRead c index r k := by
  refine ⟨some_beat, fun ps matches_ short => ?_, fun ps p matches_ last count => ?_⟩
  · obtain ⟨quiet, there⟩ := awaits_early bus ps matches_ awaits fits size short
    refine ⟨?_, quiet, there.at_⟩
    rw [size]
    exact Nat.mul_le_mul_right _ (Nat.le_of_lt short)
  · obtain ⟨quiet, there⟩ := awaits_early bus ps matches_ awaits fits size (by omega)
    have width : r.requestSize - ps.length * setup.dataBusWidth = setup.dataBusWidth := by
      rw [size, ← count, Nat.succ_mul]
      omega
    rw [width] at there
    obtain ⟨_, called, erased⟩ | ⟨more, _⟩ := @passData_cases _ _ setup _ _ _ _ _ there last
    · exact ⟨by rw [called, quiet], erased⟩
    · exact absurd rfl more

/-- **A request that completes after `k` packets has `k` beats.** -/
theorem eq_of_completes (awaits : c.Awaits isRead index r) (completes : Completes setup isRead c index r k) :
    r.requestSize = k * setup.dataBusWidth := by
  let p : BusPacket :=
    { busPacketType := .DATA, requestorID := r.requestorID, address := r.address, column := 0, row := 0,
      bank := 0, rank := 0, subArray := 0, arriveTime := 0 }
  have hit : matchesRequest p r = true := by simp [matchesRequest, p]
  have all : ∀ q ∈ List.replicate (k - 1) p, matchesRequest q r = true := by
    intro q hq
    rw [List.eq_of_mem_replicate hq]
    exact hit
  have some_beat := completes.some_beat
  obtain ⟨enough, quiet, left⟩ := completes.early (List.replicate (k - 1) p) all (by
    rw [List.length_replicate]
    omega)
  rw [List.length_replicate] at enough left
  obtain ⟨called, _⟩ := completes.last (List.replicate (k - 1) p) p all hit (by
    rw [List.length_replicate]
    omega)
  -- the last packet calls back, so one width was left
  obtain grew | ⟨_, n, there⟩ := @awaits_foldl _ _ setup _ _ _ _ (List.replicate (k - 1) p) awaits all
  · rw [quiet] at grew
    exact absurd grew (Nat.lt_irrefl _)
  · have size : n = r.requestSize - (k - 1) * setup.dataBusWidth := by
      have same := there.at_.symm.trans left
      simpa using same
    obtain ⟨width, _⟩ | ⟨_, silent, _⟩ := @passData_cases _ _ setup _ _ _ _ _ there hit
    · have whole : r.requestSize - (k - 1) * setup.dataBusWidth = setup.dataBusWidth :=
        size.symm.trans width
      have split : k * setup.dataBusWidth = (k - 1) * setup.dataBusWidth + setup.dataBusWidth := by
        rw [← Nat.succ_mul]
        congr 1
        omega
      omega
    · rw [silent, quiet] at called
      simp at called

end MemoryController

/-! ## The generators -/

/-- The generators whose column accesses bring their data back. -/
inductive GeneratorKind where
  | OPEN | ROUND | CLOSE | PipeCAS
  deriving DecidableEq, Repr

open CommandGenerator

/-- `commandGenerate`; `PipeCAS` reads the table of critical requestors. -/
def GeneratorKind.commandGenerate (requestorCriticalTable : Nat → Option Bool) : GeneratorKind → Generator
  | .OPEN => openGenerator
  | .ROUND => roundGenerator
  | .CLOSE => closeGenerator
  | .PipeCAS => pipeGenerator requestorCriticalTable

/-- The sizes that a generator makes the right number of column accesses for. -/
def GeneratorKind.Serves (dataBusWidth requestSize : Nat) : GeneratorKind → Prop
  | .OPEN | .ROUND => dataBusWidth ∣ requestSize ∧ 0 < requestSize
  | .CLOSE => ∃ n ∈ [1, 2, 4, 8, 16], requestSize = n * dataBusWidth
  | .PipeCAS => requestSize = dataBusWidth

/-- The column accesses among commands. -/
def columnCount (l : List BusPacket) : Nat := l.countP (·.busPacketType.isColumn)

theorem columnCount_append (l l' : List BusPacket) :
    columnCount (l ++ l') = columnCount l + columnCount l' := List.countP_append

theorem isColumn_casType (r : Request) : (casType r).isColumn = true := by
  unfold casType
  cases r.requestType <;> rfl

theorem isColumn_autoCasType (r : Request) : (autoCasType r).isColumn = true := by
  unfold autoCasType
  cases r.requestType <;> rfl

theorem columnCount_openCommands (g : CommandGenerator) (r : Request) (isOpen : Bool) :
    columnCount (g.openCommands r isOpen) = 0 := by
  unfold openCommands
  split
  · rfl
  · split <;> rfl

theorem columnCount_roundRows (g : CommandGenerator) (r : Request) (isOpen : Bool) :
    columnCount (g.roundRows r isOpen) = 0 := by
  have act : (actType r).isColumn = false := by
    unfold actType
    cases r.requestType <;> rfl
  have row : (roundRow (actType r) r).busPacketType = actType r := rfl
  unfold roundRows
  split
  · rfl
  · split
    · simp [columnCount, row, act]
    · have pre : (roundRow .PRE r).busPacketType.isColumn = false := rfl
      simp [columnCount, row, act, pre]

/-- A burst is one column access for each beat. -/
theorem columnCount_burst (n : Nat) (f : Nat → BusPacket)
    (column : ∀ x, (f x).busPacketType.isColumn = true) :
    columnCount ((List.range n).map f) = n := by
  unfold columnCount
  rw [List.countP_map]
  exact (List.countP_eq_length.mpr fun x _ => column x).trans List.length_range

theorem columnCount_closeCommands (n : Nat) (r : Request) :
    columnCount (closeCommands n r) =
      (lookupTable n r.requestSize).1 * (lookupTable n r.requestSize).2 := by
  have repeated : ∀ (m j : Nat) (f : Nat → List BusPacket), (∀ x, columnCount (f x) = j) →
      columnCount ((List.range m).flatMap f) = m * j := by
    intro m j f count
    induction m with
    | zero => simp [columnCount]
    | succ m ih =>
      rw [List.range_succ, List.flatMap_append, columnCount_append, ih, Nat.succ_mul]
      simp [count]
  unfold closeCommands
  refine repeated _ _ _ fun bi => (repeated _ 1 _ fun bc => ?_).trans (Nat.mul_one _)
  have act : (BusPacketType.ACT).isColumn = false := rfl
  simp [columnCount, isColumn_autoCasType, act]

theorem columnCount_pipeCommands (critical : Bool) (r : Request) (isOpen : Bool) :
    columnCount (pipeCommands critical r isOpen) = 1 := by
  have act : (BusPacketType.ACT).isColumn = false := rfl
  have pre : (BusPacketType.PRE).isColumn = false := rfl
  unfold pipeCommands
  cases critical with
  | true => simp [columnCount, pipeCommand, isColumn_autoCasType, act]
  | false => cases isOpen <;> simp [columnCount, pipeCommand, isColumn_casType, act, pre]

/-- A size below `2 ^ 32` is not what an even multiple of it wraps to. -/
theorem wraps_ne {size n : Nat} (positive : 0 < size) (fits : size < 2 ^ 32) (odd : Odd n) :
    size ≠ size * (n + 1) % 2 ^ 32 := by
  intro wraps
  have divides : 2 ^ 32 ∣ size * n := by
    have whole := Nat.sub_mod_eq_zero_of_mod_eq (m := size * (n + 1)) (n := size) (k := 2 ^ 32) (by
      rw [← wraps, Nat.mod_eq_of_lt fits])
    rw [Nat.mul_succ, Nat.add_sub_cancel] at whole
    exact Nat.dvd_of_mod_eq_zero whole
  have coprime : Nat.Coprime (2 ^ 32) n := Nat.Coprime.pow_left 32 (Nat.coprime_two_left.mpr odd)
  exact absurd (Nat.le_of_dvd positive (coprime.dvd_of_dvd_mul_right divides)) (Nat.not_le.mpr fits)

/-- A size in the table is looked up where it was entered. -/
theorem lookupTable_eq {n m : Nat} (bus : 0 < n) (member : m ∈ [1, 2, 4, 8, 16]) (fits : m * n < 2 ^ 32) :
    (lookupTable n (m * n)).1 * (lookupTable n (m * n)).2 = m := by
  have here : ∀ k, n * k = m * n → m * n = n * k % 2 ^ 32 := by
    intro k same
    rw [same, Nat.mod_eq_of_lt fits]
  have other : ∀ k f, Odd f → n * k = m * n * (f + 1) → ¬ m * n = n * k % 2 ^ 32 := by
    intro k f odd same
    rw [same]
    refine wraps_ne (Nat.mul_pos ?_ bus) fits odd
    fin_cases member <;> decide
  unfold lookupTable
  fin_cases member
  · rw [if_neg (other 16 15 (by decide) (by ring)), if_neg (other 8 7 (by decide) (by ring)),
      if_neg (other 4 3 (by decide) (by ring)), if_neg (other 2 1 (by decide) (by ring)),
      if_pos (Nat.one_mul n)]
    rfl
  · rw [if_neg (other 16 7 (by decide) (by ring)), if_neg (other 8 3 (by decide) (by ring)),
      if_neg (other 4 1 (by decide) (by ring)), if_pos (here 2 (by ring))]
    rfl
  · rw [if_neg (other 16 3 (by decide) (by ring)), if_neg (other 8 1 (by decide) (by ring)),
      if_pos (here 4 (by ring))]
    rfl
  · rw [if_neg (other 16 1 (by decide) (by ring)), if_pos (here 8 (by ring))]
    rfl
  · rw [if_pos (here 16 (by ring))]
    rfl

/-- The sizes that the table of `CLOSE` is right about. -/
theorem lookupTable_iff {n size : Nat} (bus : 0 < n) (fits : size < 2 ^ 32) :
    (1 ≤ (lookupTable n size).1 * (lookupTable n size).2 ∧
      size = (lookupTable n size).1 * (lookupTable n size).2 * n) ↔
      ∃ m ∈ [1, 2, 4, 8, 16], size = m * n := by
  constructor
  · rintro ⟨one, whole⟩
    refine ⟨_, ?_, whole⟩
    clear whole
    revert one
    unfold lookupTable
    split_ifs <;> simp
  · rintro ⟨m, member, rfl⟩
    rw [lookupTable_eq bus member fits]
    refine ⟨?_, rfl⟩
    fin_cases member <;> decide

/-- What a generator adds to its buffer, and how many of that are column accesses. -/
theorem GeneratorKind.commandGenerate_count {requestorCriticalTable : Nat → Option Bool}
    {kind : GeneratorKind} {g g' : CommandGenerator} {r : Request} {isOpen accepted : Bool}
    (made : kind.commandGenerate requestorCriticalTable g r isOpen = some (g', accepted))
    (bus : 0 < g.dataBusSize) (fits : r.requestSize < 2 ^ 32) :
    ∃ new, g'.commandBuffer = g.commandBuffer ++ new ∧
      ((1 ≤ columnCount new ∧ r.requestSize = columnCount new * g.dataBusSize) ↔
        kind.Serves g.dataBusSize r.requestSize) := by
  have divides : (1 ≤ beats g.dataBusSize r ∧ r.requestSize = beats g.dataBusSize r * g.dataBusSize) ↔
      g.dataBusSize ∣ r.requestSize ∧ 0 < r.requestSize := by
    unfold beats
    constructor
    · rintro ⟨one, size⟩
      refine ⟨⟨_, size.trans (Nat.mul_comm _ _)⟩, ?_⟩
      rw [size]
      exact Nat.mul_pos one bus
    · rintro ⟨divides, positive⟩
      exact ⟨Nat.div_pos (Nat.le_of_dvd positive divides) bus, (Nat.div_mul_cancel divides).symm⟩
  cases kind with
  | OPEN =>
    have count : columnCount (g.commandsOf r isOpen) = beats g.dataBusSize r := by
      rw [commandsOf, columnCount_append, columnCount_openCommands, Nat.zero_add]
      exact columnCount_burst _ _ fun _ => isColumn_casType r
    simp only [commandGenerate, openGenerator, commandGenerateOpen_eq] at made
    split at made
    · cases made
      refine ⟨g.commandsOf r isOpen, rfl, ?_⟩
      rw [count]
      exact divides
    · cases made
  | ROUND =>
    have count : columnCount (g.roundRows r isOpen ++ roundCas g.dataBusSize r) =
        beats g.dataBusSize r := by
      rw [columnCount_append, columnCount_roundRows, Nat.zero_add]
      exact columnCount_burst _ _ fun _ => isColumn_casType r
    simp only [commandGenerate, roundGenerator] at made
    split at made
    · cases made
      refine ⟨g.roundRows r isOpen ++ roundCas g.dataBusSize r, List.append_assoc _ _ _, ?_⟩
      rw [count]
      exact divides
    · cases made
  | CLOSE =>
    cases made
    refine ⟨closeCommands g.dataBusSize r, rfl, ?_⟩
    rw [columnCount_closeCommands]
    exact lookupTable_iff bus fits
  | PipeCAS =>
    obtain ⟨critical, _, same⟩ := Option.map_eq_some_iff.mp made
    cases same
    refine ⟨pipeCommands critical r isOpen, rfl, ?_⟩
    rw [columnCount_pipeCommands, Nat.one_mul]
    exact and_iff_right (Nat.le_refl 1)

/-- **Generators and completion agree exactly on these sizes**: the column accesses that a generator makes
of a request are at least one, and as many as the packets after which the pending entry completes, if and
only if the size is a positive multiple of the data bus width (`OPEN`, `ROUND`), one of the five in the
table (`CLOSE`), or the width itself (`PipeCAS`). -/
theorem beats_agree {ρ κ : Type} {setup : Setup} {requestorCriticalTable : Nat → Option Bool}
    {kind : GeneratorKind} {g g' : CommandGenerator} {r : Request} {isOpen accepted : Bool}
    (made : kind.commandGenerate requestorCriticalTable g r isOpen = some (g', accepted))
    (same : g.dataBusSize = setup.dataBusWidth) (bus : 0 < setup.dataBusWidth)
    (fits : r.requestSize < 2 ^ 32) {c : MemoryController ρ κ} {index : Nat}
    (awaits : c.Awaits (r.requestType == .DATA_READ) index r) :
    ∃ new, g'.commandBuffer = g.commandBuffer ++ new ∧
      (MemoryController.Completes setup (r.requestType == .DATA_READ) c index r (columnCount new) ↔
        kind.Serves setup.dataBusWidth r.requestSize) := by
  obtain ⟨new, buffer, count⟩ := GeneratorKind.commandGenerate_count made (same.symm ▸ bus) fits
  refine ⟨new, buffer, ?_⟩
  rw [same] at count
  rw [← count]
  constructor
  · intro completes
    exact ⟨completes.some_beat, MemoryController.eq_of_completes awaits completes⟩
  · rintro ⟨some_beat, size⟩
    exact MemoryController.completes_of_eq bus awaits some_beat fits size

/-- A read of two beats on the bus of the default device, waiting for its data. -/
def twoBeats : Request where
  handle := 0
  requestType := .DATA_READ
  requestorID := 0
  requestSize := 128
  address := 0
  arriveTime := 0

/-- A controller with one pending read. -/
def awaiting (r : Request) : MemoryController Unit Unit :=
  { MemoryController.create openPageSetup fcfsIni 0 0 with
    pendingReadRequest := [r] }

theorem awaits_awaiting (r : Request) : (awaiting r).Awaits true 0 r :=
  ⟨rfl, fun j _ hj => absurd hj (Nat.not_lt_zero j)⟩

/-- `OPEN` makes two column accesses of it, and it completes after two packets. -/
theorem beats_agree_open : ∃ g' new,
    GeneratorKind.OPEN.commandGenerate (fun _ => some true) { dataBusSize := 64 } twoBeats false =
        some (g', true) ∧
      g'.commandBuffer = [] ++ new ∧
      MemoryController.Completes openPageSetup true (awaiting twoBeats) 0 twoBeats
        (columnCount new) := by
  obtain ⟨new, buffer, iff⟩ := @beats_agree Unit Unit openPageSetup
    (fun _ => some true) .OPEN { dataBusSize := 64 } _ twoBeats false true rfl rfl (by decide) (by decide)
    (awaiting twoBeats) 0 (awaits_awaiting twoBeats)
  exact ⟨_, new, rfl, buffer, iff.mpr ⟨⟨2, rfl⟩, by decide⟩⟩

/-- **`PipeCAS` makes one column access of it, and it waits for two packets.** -/
theorem pipeCas_twoBeats :
    pipeGenerator (fun _ => some true) { dataBusSize := 64 } twoBeats false =
        some ({ dataBusSize := 64, commandBuffer := pipeCommands true twoBeats false }, true) ∧
      columnCount (pipeCommands true twoBeats false) = 1 ∧
      ¬ MemoryController.Completes openPageSetup true (awaiting twoBeats) 0
        twoBeats (columnCount (pipeCommands true twoBeats false)) := by
  refine ⟨rfl, rfl, fun completes => ?_⟩
  have size := MemoryController.eq_of_completes (awaits_awaiting twoBeats) completes
  exact absurd size (by decide)

end MCsim
