import MCsim.Packet

/-!
# Address mapping

`AddressMapping` cracks a request's address into the levels its format string names, the last level
of the format taking the lowest bits. The address is cut to 32 bits first (`unsigned tempA`).

The build decides what follows. `SINGLE_RANK_BANK_PRIVATIZATION` replaces rank and bank by the
requestor's own; `MULTI_RANK_BANK_PRIVATIZATION` also spreads the requestors over ranks. Last of all
`addressMap`, which the queues and the row table read, gets rank 0 in every build.

A level the format does not list is left as the allocator left it; the model leaves it 0.
-/

namespace MCsim

/-- The privatisation macro the build defines, if any. -/
inductive Privatization where
  | none | SINGLE_RANK_BANK_PRIVATIZATION | MULTI_RANK_BANK_PRIVATIZATION
  deriving DecidableEq, Repr

namespace AddressMapping

/-- `AddressMapping::log2`: the shift loop, and one more where a bit was lost. -/
def log2 (num_value : Nat) : Nat :=
  let logbase2 := Nat.log2 num_value
  if 1 <<< logbase2 < num_value then logbase2 + 1 else logbase2

/-- The constructor: each level of the format with the bits its count takes. -/
def decodeIndex (format : List MemOrg) (memTable : MemOrg → Nat) : List (MemOrg × Nat) :=
  format.map fun level => (level, log2 (memTable level))

/-- The switch over the level: the field of the request that a level's value is stored in. -/
def assignLevel (r : Request) (level : MemOrg) (tempAddr : Nat) : Request :=
  match level with
  | .Rank => { r with rank := tempAddr }
  | .BankGroup => { r with bankGroup := tempAddr }
  | .Bank => { r with bank := tempAddr }
  | .SubArray => { r with subArray := tempAddr }
  | .Row => { r with row := tempAddr }
  | .Column => { r with col := tempAddr }

/-- One turn of the loop: `tempA` loses its low bits, the exclusive or recovers them, and what is
left is shifted down for the next level. On entry `tempA` and `tempB` are equal. -/
def decodeStep (st : Nat × Request) (entry : MemOrg × Nat) : Nat × Request :=
  let tempB := st.1
  let tempA := (tempB >>> entry.2) <<< entry.2
  let tempAddr := tempA ^^^ tempB
  (tempA >>> entry.2, assignLevel st.2 entry.1 tempAddr)

/-- The privatised rank and bank of the build. -/
def privatize (build : Privatization) (r : Request) : Request :=
  match build with
  | .none => r
  | .SINGLE_RANK_BANK_PRIVATIZATION => { r with rank := 0, bank := r.requestorID }
  | .MULTI_RANK_BANK_PRIVATIZATION =>
    { r with rank := if r.requestorID < 8 then r.requestorID % 3 else 3, bank := r.requestorID }

/-- `AddressMapping::addressMapping`. -/
def addressMapping (build : Privatization) (index : List (MemOrg × Nat)) (r : Request) : Request :=
  let r := privatize build (index.reverse.foldl decodeStep (r.address % 2 ^ 32, r)).2
  { r with addressMap :=
      { rank := 0, bankGroup := r.bankGroup, bank := r.bank, subArray := r.subArray } }

/-! ## What the mapping keeps and what it sets -/

@[simp] theorem log2_one : log2 1 = 0 := by decide

@[simp] theorem log2_eight : log2 8 = 3 := by decide

/-- The exclusive or of the loop is the remainder: the low bits that the two shifts drop. -/
theorem shift_xor (x k : Nat) : ((x >>> k) <<< k) ^^^ x = x % 2 ^ k := by
  apply Nat.eq_of_testBit_eq
  intro i
  simp only [Nat.testBit_xor, Nat.testBit_shiftLeft, Nat.testBit_shiftRight, Nat.testBit_mod_two_pow]
  by_cases h : k ≤ i
  · have low : ¬ i < k := by omega
    have back : k + (i - k) = i := by omega
    simp [h, low, back]
  · have low : i < k := by omega
    simp [h, low]

/-- What a request is apart from the fields the mapping writes. -/
def Same (r s : Request) : Prop :=
  s.handle = r.handle ∧ s.requestType = r.requestType ∧ s.requestorID = r.requestorID ∧
    s.requestSize = r.requestSize ∧ s.address = r.address ∧ s.arriveTime = r.arriveTime

theorem Same.trans {r s t : Request} (h : Same r s) (h' : Same s t) : Same r t := by
  unfold Same at *
  grind

theorem same_assignLevel (r : Request) (level : MemOrg) (v : Nat) :
    Same r (assignLevel r level v) := by
  cases level <;> exact ⟨rfl, rfl, rfl, rfl, rfl, rfl⟩

theorem same_decode (index : List (MemOrg × Nat)) (x : Nat) (r : Request) :
    Same r (index.foldl decodeStep (x, r)).2 := by
  induction index generalizing x r with
  | nil => exact ⟨rfl, rfl, rfl, rfl, rfl, rfl⟩
  | cons entry index ih => exact (same_assignLevel r _ _).trans (ih _ _)

/-- The mapping writes the decoded levels only. -/
theorem same_addressMapping (build : Privatization) (index : List (MemOrg × Nat)) (r : Request) :
    Same r (addressMapping build index r) := by
  have h := same_decode index.reverse (r.address % 2 ^ 32) r
  cases build <;> exact h

@[simp] theorem addressMapping_addressMap (build : Privatization) (index : List (MemOrg × Nat))
    (r : Request) :
    (addressMapping build index r).addressMap =
      { rank := 0, bankGroup := (addressMapping build index r).bankGroup,
        bank := (addressMapping build index r).bank,
        subArray := (addressMapping build index r).subArray } := rfl

end AddressMapping
end MCsim
