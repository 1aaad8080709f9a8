import MCsim.Device
import MCsim.Dram.DDR3
import MCsim.Dram.DDR4

/-!
# The adapters

`Ramulator_DDR3` and `Ramulator_DDR4` put a DRAM tree behind the interface of `MemoryDevice`. The two
classes have the same text but for the names `get_constraints` knows. `command_check` is the gate: it
asks the tree whether a command is due in this cycle. `receiveFromBus` applies a command to it.

Rank and bank group of an address are always 0; the subarray is not part of either standard.
-/

namespace MCsim.Dram

/-! ## Constraints and queue delays -/

/-- The speed entries that `command_timing` reads. -/
structure BankTimes where
  nBL : Nat
  nCL : Nat
  nRCD : Nat
  nRP : Nat
  nCWL : Nat
  nRAS : Nat
  nRC : Nat
  nRTP : Nat
  nWR : Nat
  deriving Repr

/-- `command_timing(command, type)`: the delay that a queue waits after a command before one of the
given type. -/
def command_timing (k : BankTimes) (command type : BusPacketType) : Nat :=
  match command with
  | .PRE | .PREA =>
    match type with
    | .ACT | .ACT_R | .ACT_W => k.nRP
    | _ => 0
  | .ACT =>
    match type with
    | .ACT => k.nRC
    | .PREA | .PRE => k.nRAS
    | .RD | .RDA | .WR | .WRA => k.nRCD
    | _ => 1
  | .ACT_R | .ACT_W =>
    match type with
    | .ACT_R | .ACT_W => k.nRC
    | .PREA | .PRE => k.nRAS
    | .RD | .RDA | .WR | .WRA => k.nRCD
    | _ => 1
  | .RD =>
    match type with
    | .RD | .RDA => 4
    | .WR | .WRA => k.nCL + k.nBL + 2 - k.nCWL
    | .PRE | .PREA => k.nRTP
    | _ => 1
  | .RDA =>
    match type with
    | .ACT => k.nRTP + k.nRP
    | _ => 1
  | .WR =>
    match type with
    | .RD | .RDA => k.nCWL + 4 + 6
    | .WR | .WRA => 4
    | .PREA | .PRE => k.nCWL + 4 + k.nWR
    | _ => 1
  | .WRA =>
    match type with
    | .ACT => k.nCWL + 4 + k.nWR + k.nRP
    | _ => 1
  | _ => 1

def DDR3.SpeedEntry.bankTimes (s : DDR3.SpeedEntry) : BankTimes :=
  { nBL := s.nBL, nCL := s.nCL, nRCD := s.nRCD, nRP := s.nRP, nCWL := s.nCWL, nRAS := s.nRAS,
    nRC := s.nRC, nRTP := s.nRTP, nWR := s.nWR }

def DDR4.SpeedEntry.bankTimes (s : DDR4.SpeedEntry) : BankTimes :=
  { nBL := s.nBL, nCL := s.nCL, nRCD := s.nRCD, nRP := s.nRP, nCWL := s.nCWL, nRAS := s.nRAS,
    nRC := s.nRC, nRTP := s.nRTP, nWR := s.nWR }

/-- `get_constraints` of the DDR3 adapter. -/
def DDR3.get_constraints (s : DDR3.SpeedEntry) : Constraints :=
  { tRCD := s.nRCD, tWL := s.nCWL, tRL := s.nCL, tBus := s.nBL, tREFI := s.nREFI, tRFC := s.nRFC,
    tRRD := s.nRRD, tFAW := s.nFAW, tWTR := s.nWTR, tRTW := s.nCL + s.nBL + 2 - s.nCWL }

/-- `get_constraints` of the DDR4 adapter, which does not know `tRRD`. -/
def DDR4.get_constraints (s : DDR4.SpeedEntry) : Constraints :=
  { tRCD := s.nRCD, tWL := s.nCWL, tRL := s.nCL, tBus := s.nBL, tREFI := s.nREFI, tRFC := s.nRFC,
    tRRD := 0, tFAW := s.nFAW, tWTR := s.nWTRS, tRTW := s.nCL + s.nBL + 2 - s.nCWL }

/-- A DDR3 device as the controller sees it. -/
def DDR3.device (org : DDR3.Org) (speed : DDR3.Speed) (ranks : Nat) : DeviceSpec :=
  let s := DDR3.speed_entry org speed
  { ranks := ranks, banks := (DDR3.org_table org).banks, constraints := DDR3.get_constraints s,
    command_timing := command_timing s.bankTimes }

/-- A DDR4 device as the controller sees it. -/
def DDR4.device (org : DDR4.Org) (speed : DDR4.Speed) (ranks : Nat) : DeviceSpec :=
  let s := DDR4.speed_entry org speed
  { ranks := ranks, banks := (DDR4.org_table org).banks, constraints := DDR4.get_constraints s,
    command_timing := command_timing s.bankTimes }

/-! ## The gate -/

/-- `convert_cmd`, which aborts on every other packet. -/
def convert_cmd (p : BusPacket) : Option Command :=
  match p.busPacketType with
  | .RD => some .RD
  | .WR => some .WR
  | .RDA => some .RDA
  | .WRA => some .WRA
  | .ACT => some .ACT
  | .ACT_R => some .ACT_R
  | .ACT_W => some .ACT_W
  | .PRE => some .PRE
  | .PREA => some .PREA
  | .REF => some .REF
  | _ => none

/-- `convert_addr`. -/
def convert_addr (p : BusPacket) : Level → Nat
  | .Channel | .Rank | .BankGroup => 0
  | .Bank => p.bank
  | .Row => p.row
  | .Column => p.column

variable (T : Standard)

/-- `command_check`. -/
def command_check (n : Node T.below) (p : BusPacket) (clockCycle : Nat) : Option Bool :=
  if p.postCommand then some true
  else (convert_cmd p).bind fun cmd => check T cmd (convert_addr p) clockCycle .Channel n

/-- What `receiveFromBus` does to the tree: posted commands and data do not reach it. -/
def receiveFromBus (n : Node T.below) (p : BusPacket) (clockCycle : Nat) : Option (Node T.below) :=
  if p.postCommand ∨ p.busPacketType = .DATA then some n
  else (convert_cmd p).bind fun cmd => update T cmd (convert_addr p) clockCycle n

/-- A command with the cycle it is applied in. -/
abbrev Timed := BusPacket × Nat

/-- A command is applied in a cycle in which `command_check` accepts it. -/
def accept : Lib.Machine.Step (Node T.below) Timed Unit := fun n x =>
  if command_check T n x.1 x.2 = some true then (receiveFromBus T n x.1 x.2).map (·, ()) else none

end MCsim.Dram
