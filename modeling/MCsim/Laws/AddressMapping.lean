import MCsim.AddressMapping
import MCsim.Lib.Radix
import MCsim.Setups

/-!
# The address mapping as a mixed radix number

The decoding loop peels one level after the other off the address, so the fields of a request are the
digits of its address in mixed radix, with the counts of the levels as radices: of its address as far
as `unsigned tempA` holds it. An address that fits 32 bits is put back together by its fields; one that
does not is decoded like another one (`addressMapping_bijective`).
-/

namespace MCsim

/-- The decoded value of a level. -/
def Request.level (r : Request) : MemOrg → Nat
  | .Rank => r.rank
  | .BankGroup => r.bankGroup
  | .Bank => r.bank
  | .SubArray => r.subArray
  | .Row => r.row
  | .Column => r.col

namespace AddressMapping

/-- The fields put back together in the order of the format, the first level the most significant. -/
def recompose (format : List MemOrg) (memTable : MemOrg → Nat) (r : Request) : Nat :=
  format.foldl (fun n level => n * memTable level + r.level level) 0

/-- How many locations the device has. -/
def capacity (memTable : MemOrg → Nat) : Nat := (MemOrg.levels.map memTable).prod

/-- A request decoded in a build without privatisation. -/
def decoded (format : List MemOrg) (memTable : MemOrg → Nat) (r : Request) : Request :=
  addressMapping .none (decodeIndex format memTable) r

/-- A request for an address. -/
def requestAt (address : Nat) : Request :=
  { handle := 0, requestType := .DATA_READ, requestorID := 0, requestSize := 64, address := address,
    arriveTime := 0 }

theorem log2_two_pow (k : Nat) : log2 (2 ^ k) = k := by
  unfold log2
  dsimp only
  rw [Nat.log2_two_pow, Nat.shiftLeft_eq, Nat.one_mul, if_neg (Nat.lt_irrefl _)]

theorem level_assignLevel (r : Request) (level other : MemOrg) (v : Nat) :
    (assignLevel r level v).level other = if other = level then v else r.level other := by
  cases level <;> cases other <;> rfl

/-- One turn of the loop: a remainder is stored and the quotient handed on. -/
theorem decodeStep_eq (x : Nat) (r : Request) (level : MemOrg) (k : Nat) :
    decodeStep (x, r) (level, k) = (x / 2 ^ k, assignLevel r level (x % 2 ^ k)) := by
  unfold decodeStep
  dsimp only
  rw [shift_xor, Nat.shiftLeft_shiftRight, Nat.shiftRight_eq_div_pow]

/-- A level that is not decoded keeps its value. -/
theorem level_decode {index : List (MemOrg × Nat)} {other : MemOrg}
    (absent : other ∉ index.map Prod.fst) (x : Nat) (r : Request) :
    (index.foldl decodeStep (x, r)).2.level other = r.level other := by
  induction index generalizing x r with
  | nil => rfl
  | cons entry index ih =>
    obtain ⟨apart, absent⟩ : other ≠ entry.1 ∧ other ∉ index.map Prod.fst := by
      simpa using absent
    rw [List.foldl_cons, decodeStep_eq, ih absent, level_assignLevel, if_neg apart]

/-- **The decoding loop** over levels that are listed once each peels them off. -/
theorem decode_peeled {memTable : MemOrg → Nat} {bits : MemOrg → Nat}
    (powers : ∀ level, memTable level = 2 ^ bits level) {levels : List MemOrg} (nodup : levels.Nodup)
    (x : Nat) (r : Request) :
    Lib.Radix.Peeled memTable
      ((levels.map fun level => (level, bits level)).foldl decodeStep (x, r)).2.level levels x := by
  induction levels generalizing x r with
  | nil => trivial
  | cons level levels ih =>
    obtain ⟨absent, nodup⟩ := List.nodup_cons.mp nodup
    rw [List.map_cons, List.foldl_cons, decodeStep_eq, ← powers]
    refine ⟨?_, ih nodup _ _⟩
    rw [level_decode (by simpa [Function.comp_def] using absent), level_assignLevel, if_pos rfl]

theorem recompose_eq (format : List MemOrg) (memTable : MemOrg → Nat) (r : Request) :
    recompose format memTable r = Lib.Radix.value memTable r.level format.reverse := by
  have low : ∀ l : List MemOrg, l.foldr (fun level n => n * memTable level + r.level level) 0 =
      Lib.Radix.value memTable r.level l := by
    intro l
    induction l with
    | nil => rfl
    | cons level l ih =>
      rw [List.foldr_cons, ih, Lib.Radix.value]
      ring
  rw [← low, List.foldr_reverse]
  rfl

section

variable {format : List MemOrg} {memTable : MemOrg → Nat}

/-- The fields of a request are the digits of its address cut to 32 bits. -/
theorem decoded_peeled (listed : format.Perm MemOrg.levels)
    (powers : ∀ level, ∃ k, memTable level = 2 ^ k) (r : Request) :
    Lib.Radix.Peeled memTable (decoded format memTable r).level format.reverse (r.address % 2 ^ 32) := by
  choose bits powers using powers
  have nodup : format.reverse.Nodup := by
    rw [((List.reverse_perm format).trans listed).nodup_iff]
    decide
  have index : (decodeIndex format memTable).reverse =
      format.reverse.map fun level => (level, bits level) := by
    unfold decodeIndex
    rw [← List.map_reverse]
    apply List.map_congr_left
    intro level _
    rw [powers, log2_two_pow]
  have loop := decode_peeled powers nodup (r.address % 2 ^ 32) r
  rw [← index] at loop
  apply loop.congr
  intro level _
  cases level <;> rfl

theorem recompose_decoded (listed : format.Perm MemOrg.levels)
    (powers : ∀ level, ∃ k, memTable level = 2 ^ k) (r : Request) :
    recompose format memTable (decoded format memTable r) =
      r.address % 2 ^ 32 % capacity memTable := by
  have same : (format.reverse.map memTable).Perm (MemOrg.levels.map memTable) :=
    ((List.reverse_perm format).trans listed).map memTable
  rw [recompose_eq, (decoded_peeled listed powers r).value_eq, same.prod_eq]
  rfl

theorem mem_reverse (listed : format.Perm MemOrg.levels) (level : MemOrg) : level ∈ format.reverse := by
  rw [((List.reverse_perm format).trans listed).mem_iff]
  cases level <;> decide

theorem decoded_lt (listed : format.Perm MemOrg.levels)
    (powers : ∀ level, ∃ k, memTable level = 2 ^ k) (r : Request) (level : MemOrg) :
    (decoded format memTable r).level level < memTable level := by
  have positive : ∀ level, 0 < memTable level := by
    intro level
    obtain ⟨k, power⟩ := powers level
    rw [power]
    exact Nat.two_pow_pos k
  exact (decoded_peeled listed powers r).digit_lt positive (mem_reverse listed level)

/-- The fields of a request depend on its address only, as far as 32 bits hold it. -/
theorem decoded_eq_of_address (listed : format.Perm MemOrg.levels)
    (powers : ∀ level, ∃ k, memTable level = 2 ^ k) {r r' : Request}
    (same : r.address % 2 ^ 32 = r'.address % 2 ^ 32) (level : MemOrg) :
    (decoded format memTable r).level level = (decoded format memTable r').level level := by
  have first := decoded_peeled listed powers r
  rw [same] at first
  exact first.unique (decoded_peeled listed powers r') (mem_reverse listed level)

end

/-- **When decoding is a bijection.** For every format that lists each level once and every power of
two counts, in a build without privatisation: an address below the capacity is decoded into fields
below their counts that give it back in mixed radix exactly when it fits 32 bits; so different 64-bit
addresses below the capacity have different locations exactly when the capacity fits 32 bits. -/
theorem addressMapping_bijective {format : List MemOrg} (listed : format.Perm MemOrg.levels)
    {memTable : MemOrg → Nat} (powers : ∀ level, ∃ k, memTable level = 2 ^ k) :
    (∀ r : Request, r.address < capacity memTable →
      (((∀ level, (decoded format memTable r).level level < memTable level) ∧
        recompose format memTable (decoded format memTable r) = r.address) ↔ r.address < 2 ^ 32)) ∧
    ((∀ r r' : Request, r.address < 2 ^ 64 → r'.address < 2 ^ 64 →
      r.address < capacity memTable → r'.address < capacity memTable → r.address ≠ r'.address →
      ∃ level, (decoded format memTable r).level level ≠ (decoded format memTable r').level level) ↔
      capacity memTable ≤ 2 ^ 32) := by
  refine ⟨fun r below => ?_, ?_⟩
  · rw [recompose_decoded listed powers]
    constructor
    · rintro ⟨_, back⟩
      have cut : r.address % 2 ^ 32 < 2 ^ 32 := Nat.mod_lt _ (by decide)
      have least : r.address % 2 ^ 32 % capacity memTable ≤ r.address % 2 ^ 32 := Nat.mod_le _ _
      omega
    · intro fits
      rw [Nat.mod_eq_of_lt fits, Nat.mod_eq_of_lt below]
      exact ⟨decoded_lt listed powers r, rfl⟩
  · constructor
    · intro apart
      apply Nat.le_of_not_lt
      intro large
      -- 0 and 2 ^ 32 are cut to the same 32 bits
      obtain ⟨level, differs⟩ := apart (requestAt 0) (requestAt (2 ^ 32)) (by decide) (by decide)
        (Nat.lt_trans (by decide) large) large (by decide)
      have cut : (requestAt 0).address % 2 ^ 32 = (requestAt (2 ^ 32)).address % 2 ^ 32 := by decide
      exact differs (decoded_eq_of_address listed powers cut level)
    · intro fits r r' _ _ below below' differ
      refine Classical.byContradiction fun none => differ ?_
      have same : ∀ level, (decoded format memTable r).level level =
          (decoded format memTable r').level level := by
        intro level
        exact Classical.byContradiction fun differs => none ⟨level, differs⟩
      have values := recompose_eq format memTable (decoded format memTable r)
      rw [Lib.Radix.value_congr fun level _ => same level, ← recompose_eq,
        recompose_decoded listed powers, recompose_decoded listed powers] at values
      rwa [Nat.mod_eq_of_lt (Nat.lt_of_lt_of_le below fits),
        Nat.mod_eq_of_lt (Nat.lt_of_lt_of_le below' fits), Nat.mod_eq_of_lt below,
        Nat.mod_eq_of_lt below'] at values

/-- The counts that `connectMemoryDevice` takes from a DDR4 device, with a subarray count of 1. -/
def ddr4MemTable (org : Dram.DDR4.Org) (ranks : Nat) : MemOrg → Nat
  | .Rank => ranks
  | .BankGroup => (Dram.DDR4.org_table org).bankGroups
  | .Bank => (Dram.DDR4.org_table org).banks
  | .SubArray => 1
  | .Row => (Dram.DDR4.org_table org).rows
  | .Column => (Dram.DDR4.org_table org).columns

/-- The counts of a DDR4 device are powers of two, the ranks apart. -/
theorem ddr4MemTable_powers (org : Dram.DDR4.Org) (ranks : Nat) (level : MemOrg) :
    ∃ k, ddr4MemTable org (2 ^ ranks) level = 2 ^ k := by
  cases level with
  | Rank => exact ⟨ranks, rfl⟩
  | BankGroup => cases org <;> first | exact ⟨1, rfl⟩ | exact ⟨2, rfl⟩
  | Bank => cases org <;> first | exact ⟨2, rfl⟩ | exact ⟨4, rfl⟩
  | SubArray => exact ⟨0, rfl⟩
  | Row =>
    cases org <;> first | exact ⟨14, rfl⟩ | exact ⟨15, rfl⟩ | exact ⟨16, rfl⟩ | exact ⟨17, rfl⟩
  | Column => cases org <;> first | exact ⟨10, rfl⟩ | exact ⟨14, rfl⟩

/-- The law on two ranks of an 8 Gb DDR4 device, whose capacity is 2 ^ 32, at its last address. -/
theorem addressMapping_bijective_lastAddress :
    recompose MemOrg.levels (ddr4MemTable .DDR4_8Gb_x4 (2 ^ 1))
      (decoded MemOrg.levels (ddr4MemTable .DDR4_8Gb_x4 (2 ^ 1)) (requestAt (2 ^ 32 - 1))) =
        2 ^ 32 - 1 :=
  (((addressMapping_bijective (List.Perm.refl _) (ddr4MemTable_powers .DDR4_8Gb_x4 1)).1
    (requestAt (2 ^ 32 - 1)) (by decide)).mpr (by decide)).2

/-- On one rank of the 2 Gb x8 organisation, whose capacity is 2 ^ 34, the address 2 ^ 32 is decoded
like the address 0, and its fields do not give it back. -/
theorem addressMapping_truncates :
    2 ^ 32 < capacity (ddr4MemTable .DDR4_2Gb_x8 1) ∧
    (∀ level, (decoded MemOrg.levels (ddr4MemTable .DDR4_2Gb_x8 1) (requestAt (2 ^ 32))).level level =
      (decoded MemOrg.levels (ddr4MemTable .DDR4_2Gb_x8 1) (requestAt 0)).level level) ∧
    recompose MemOrg.levels (ddr4MemTable .DDR4_2Gb_x8 1)
      (decoded MemOrg.levels (ddr4MemTable .DDR4_2Gb_x8 1) (requestAt (2 ^ 32))) ≠ 2 ^ 32 := by
  refine ⟨by decide, fun level => ?_, by decide⟩
  cases level <;> decide

end AddressMapping
end MCsim
