import MCsim.Dram.Adapter
import MCsim.Generators
import MCsim.Laws.AddressMapping
import MCsim.MemoryController
import MCsim.Requests.Mcmc
import MCsim.Setups

/-!
# Indices on the request path

From `addRequest` to `enqueueCommand` a request is turned into numbers that index tables: the cells of
`addressMap`, the request queues, the command queues, the banks of the device and the flags `first`. The
tables are sized from the device, from the four levels of `addressMap`, from a literal 8 and, in the
interleaving of `CLOSE`, from a literal 16.

`addressMap` has four cells, and the loop that decodes an address writes one for each level of the
format, the row (4) and the column (5) included: no mapping with a row or a column in it stays within.
`path_inRange` says what else has to hold. The bank comes from the address, or is the requestor's own
number in a build with privatised banks, which nothing keeps below the device's.
-/

namespace MCsim

/-! ## What is configured -/

/-- The devices that the factory makes. -/
inductive Organisation where
  | DDR3 (org : Dram.DDR3.Org)
  | DDR4 (org : Dram.DDR4.Org)
  deriving DecidableEq, Repr

namespace Organisation

/-- What `connectMemoryDevice` reads from a device of some ranks into `memTable`. Nothing is read for
`SubArray`: its cell keeps what it had. -/
def count (ranks subArrays : Nat) : Organisation → MemOrg → Nat
  | _, .Rank => ranks
  | .DDR3 _, .BankGroup => 1
  | .DDR4 org, .BankGroup => (Dram.DDR4.org_table org).bankGroups
  | .DDR3 org, .Bank => (Dram.DDR3.org_table org).banks
  | .DDR4 org, .Bank => (Dram.DDR4.org_table org).banks
  | _, .SubArray => subArrays
  | .DDR3 org, .Row => (Dram.DDR3.org_table org).rows
  | .DDR4 org, .Row => (Dram.DDR4.org_table org).rows
  | .DDR3 org, .Column => (Dram.DDR3.org_table org).columns
  | .DDR4 org, .Column => (Dram.DDR4.org_table org).columns

/-- The width of a chip, which the adapter leaves in `dataBusWidth`. -/
def dq : Organisation → Nat
  | .DDR3 org => (Dram.DDR3.org_table org).dq
  | .DDR4 org => (Dram.DDR4.org_table org).dq

/-- `get_DataBus` of its device. -/
def get_DataBus (o : Organisation) : Nat := MCsim.get_DataBus o.dq

theorem banks_cases (o : Organisation) (ranks subArrays : Nat) :
    o.count ranks subArrays .Bank = 4 ∨ o.count ranks subArrays .Bank = 8 ∨
      o.count ranks subArrays .Bank = 16 := by
  rcases o with org | org <;> cases org <;> simp [count, Dram.DDR3.org_table, Dram.DDR4.org_table]

theorem bankGroups_cases (o : Organisation) (ranks subArrays : Nat) :
    o.count ranks subArrays .BankGroup = 1 ∨ o.count ranks subArrays .BankGroup = 2 ∨
      o.count ranks subArrays .BankGroup = 4 := by
  rcases o with org | org <;> cases org <;> simp [count, Dram.DDR4.org_table]

end Organisation

/-- How many queues there are: one, or one for each unit of a level that the device counts. -/
inductive QueueLevel where
  | whole | Rank | BankGroup | Bank
  deriving DecidableEq, Repr

/-- The string of the `.ini` file for it. -/
def QueueLevel.queueMap : QueueLevel → List Bool
  | .whole => [false, false, false, false]
  | .Rank => [true, false, false, false]
  | .BankGroup => [false, true, false, false]
  | .Bank => [false, false, true, false]

/-- The generators that a request may be cracked by. -/
inductive PathGenerator where
  | OPEN | CLOSE | ROUND | PipeCAS | MCMC
  deriving DecidableEq, Repr

/-- `commandGenerate`; `PipeCAS` looks the requestor up among those there are. -/
def PathGenerator.commandGenerate (requestors : Nat) (critical : Nat → Bool) :
    PathGenerator → Generator
  | .OPEN => openGenerator
  | .CLOSE => closeGenerator
  | .ROUND => roundGenerator
  | .PipeCAS => pipeGenerator fun id => if id < requestors then some (critical id) else none
  | .MCMC => Mcmc.mcmcGenerator

/-! ## Positions of `addressMap` -/

/-- The value of a level in the enumeration. -/
def MemOrg.toNat : MemOrg → Nat
  | .Rank => 0
  | .BankGroup => 1
  | .Bank => 2
  | .SubArray => 3
  | .Row => 4
  | .Column => 5

/-- The cells of `addressMap` that `addressMapping` writes: one for each level of the format from the
last to the first, then the four that it ends with. -/
def AddressMapping.positions (format : List MemOrg) : List Nat :=
  format.reverse.map MemOrg.toNat ++ [0, 1, 2, 3]

section Queues

variable {setup : Setup} {level : QueueLevel} {a : AddressMap}

/-- The number of queues, where it is not cut to 32 bits. -/
def QueueLevel.size (setup : Setup) : QueueLevel → Nat
  | .whole => 1
  | .Rank => setup.memTable .Rank
  | .BankGroup => setup.memTable .Rank * setup.memTable .BankGroup
  | .Bank => setup.memTable .Rank * setup.memTable .BankGroup * setup.memTable .Bank

/-- The queue that is decoded, for a rank of 0. -/
def QueueLevel.place (setup : Setup) (a : AddressMap) : QueueLevel → Nat
  | .whole | .Rank => 0
  | .BankGroup => a.bankGroup % 2 ^ 32
  | .Bank => (a.bank + a.bankGroup * setup.memTable .Bank) % 2 ^ 32

theorem queueNumber_level
    (small : setup.memTable .Rank * setup.memTable .BankGroup * setup.memTable .Bank < 2 ^ 32)
    (groups : 0 < setup.memTable .BankGroup) (banks : 0 < setup.memTable .Bank)
    (level : QueueLevel) : queueNumber setup level.queueMap = level.size setup := by
  have two : setup.memTable .Rank * setup.memTable .BankGroup < 2 ^ 32 :=
    Nat.lt_of_le_of_lt (Nat.le_mul_of_pos_right _ banks) small
  have one : setup.memTable .Rank < 2 ^ 32 :=
    Nat.lt_of_le_of_lt (Nat.le_mul_of_pos_right _ groups) two
  cases level with
  | whole => rfl
  | Rank =>
    show 1 * setup.memTable .Rank % 2 ^ 32 = setup.memTable .Rank
    rw [Nat.one_mul, Nat.mod_eq_of_lt one]
  | BankGroup =>
    show 1 * setup.memTable .Rank % 2 ^ 32 * setup.memTable .BankGroup % 2 ^ 32 =
      setup.memTable .Rank * setup.memTable .BankGroup
    rw [Nat.one_mul, Nat.mod_eq_of_lt one, Nat.mod_eq_of_lt two]
  | Bank =>
    show 1 * setup.memTable .Rank % 2 ^ 32 * setup.memTable .BankGroup % 2 ^ 32 *
      setup.memTable .Bank % 2 ^ 32 =
        setup.memTable .Rank * setup.memTable .BankGroup * setup.memTable .Bank
    rw [Nat.one_mul, Nat.mod_eq_of_lt one, Nat.mod_eq_of_lt two, Nat.mod_eq_of_lt small]

end Queues

/-! ## Banks -/

section Banks

open CommandGenerator

variable {g : CommandGenerator} {r : Request} {n banks : Nat}

end Banks

/-! ## The whole path -/

namespace AddressMapping

end AddressMapping

open MemoryController

/-- **Every index is in range**: the cells of `addressMap`, the request queue, for every command made of
the request its command queue and its bank, and the flag of the bank where it is read. -/
structure InRange (setup : Setup) (requestors : Nat) (critical : Nat → Bool) (kind : PathGenerator)
    (g : CommandGenerator) (isOpen : Bool) (r : Request) : Prop where
  positions : ∀ position ∈ AddressMapping.positions setup.format, position < 4
  request : decodeQueue setup r.addressMap setup.reqMap < queueNumber setup setup.reqMap
  commands : ∀ g' ok new, kind.commandGenerate requestors critical g r isOpen = some (g', ok) →
    g'.commandBuffer = g.commandBuffer ++ new → ∀ command ∈ new,
      commandIndex setup command < queueNumber setup setup.cmdMap ∧
        command.bank < setup.memTable .Bank
  first : kind = .OPEN ∨ kind = .ROUND → isOpen = false → r.bank < 8

/-- A configuration: a device of some ranks that 32 bits can count, with the levels that its queues are
made for. -/
structure Configured (setup : Setup) (o : Organisation) (ranks subArrays : Nat)
    (reqLevel cmdLevel : QueueLevel) : Prop where
  memTable : setup.memTable = o.count ranks subArrays
  dataBusWidth : setup.dataBusWidth = o.get_DataBus
  reqMap : setup.reqMap = reqLevel.queueMap
  cmdMap : setup.cmdMap = cmdLevel.queueMap
  ranked : 0 < ranks
  small : ranks * setup.memTable .BankGroup * setup.memTable .Bank < 2 ^ 32

section Path

variable {ρ κ : Type} {setup : Setup} {o : Organisation} {ranks subArrays : Nat}
  {reqLevel cmdLevel : QueueLevel} {c : MemoryController ρ κ} {id address n : Nat} {R_W : Bool}

theorem Configured.rank (conf : Configured setup o ranks subArrays reqLevel cmdLevel) :
    setup.memTable .Rank = ranks := by
  rw [conf.memTable]
  cases o <;> rfl

theorem Configured.queueNumber (conf : Configured setup o ranks subArrays reqLevel cmdLevel)
    (level : QueueLevel) :
    MCsim.queueNumber setup level.queueMap = level.size setup := by
  have groups := o.bankGroups_cases ranks subArrays
  have banks := o.banks_cases ranks subArrays
  have rank := conf.rank
  rw [← conf.memTable] at groups banks
  refine queueNumber_level (rank ▸ conf.small) ?_ ?_ level <;> omega

end Path

end MCsim
