import MCsim.Dram.Node

/-!
# DDR4

The tables of the class `DDR4`, in the source's order; banks stand in groups. Left out of a speed
entry: `freq` and `tCK`, and `nXPDLL` and `nXSDLL`, which no timing entry uses.
-/

namespace MCsim.Dram.DDR4

/-! ## Organisation and speed -/

inductive Org where
  | DDR4_2Gb_x4 | DDR4_2Gb_x8 | DDR4_2Gb_x16 | DDR4_4Gb_x4 | DDR4_4Gb_x8 | DDR4_4Gb_x16
  | DDR4_8Gb_x4 | DDR4_8Gb_x8 | DDR4_8Gb_x16
  deriving DecidableEq, Repr

structure OrgEntry where
  size : Nat
  dq : Nat
  bankGroups : Nat
  banks : Nat
  rows : Nat
  columns : Nat
  deriving DecidableEq, Repr

def org_table : Org → OrgEntry
  | .DDR4_2Gb_x4 => ⟨2 <<< 10, 4, 4, 4, 1 <<< 15, 1 <<< 10⟩
  | .DDR4_2Gb_x8 => ⟨2 <<< 10, 8, 4, 16, 1 <<< 14, 1 <<< 14⟩
  | .DDR4_2Gb_x16 => ⟨2 <<< 10, 16, 2, 4, 1 <<< 14, 1 <<< 10⟩
  | .DDR4_4Gb_x4 => ⟨4 <<< 10, 4, 4, 4, 1 <<< 16, 1 <<< 10⟩
  | .DDR4_4Gb_x8 => ⟨4 <<< 10, 8, 4, 4, 1 <<< 15, 1 <<< 10⟩
  | .DDR4_4Gb_x16 => ⟨4 <<< 10, 16, 2, 4, 1 <<< 15, 1 <<< 10⟩
  | .DDR4_8Gb_x4 => ⟨8 <<< 10, 4, 4, 4, 1 <<< 17, 1 <<< 10⟩
  | .DDR4_8Gb_x8 => ⟨8 <<< 10, 8, 4, 4, 1 <<< 16, 1 <<< 10⟩
  | .DDR4_8Gb_x16 => ⟨8 <<< 10, 16, 2, 4, 1 <<< 16, 1 <<< 10⟩

inductive Speed where
  | DDR4_1600K | DDR4_1600L | DDR4_1866M | DDR4_1866N | DDR4_2133P | DDR4_2133R | DDR4_2400R
  | DDR4_2400U
  deriving DecidableEq, Repr

structure SpeedEntry where
  rate : Nat
  nBL : Nat
  nCCDS : Nat
  nCCDL : Nat
  nRTRS : Nat
  nCL : Nat
  nRCD : Nat
  nRP : Nat
  nCWL : Nat
  nRAS : Nat
  nRC : Nat
  nRTP : Nat
  nWTRS : Nat
  nWTRL : Nat
  nWR : Nat
  nRRDS : Nat
  nRRDL : Nat
  nFAW : Nat
  nRFC : Nat
  nREFI : Nat
  nPD : Nat
  nXP : Nat
  nCKESR : Nat
  nXS : Nat
  deriving DecidableEq, Repr

def speed_table : Speed → SpeedEntry
  | .DDR4_1600K => ⟨1600, 4, 4, 5, 2, 11, 11, 11, 9, 28, 39, 6, 2, 6, 12, 0, 0, 0, 0, 0, 4, 5, 5, 0⟩
  | .DDR4_1600L => ⟨1600, 4, 4, 5, 2, 12, 12, 12, 9, 28, 40, 6, 2, 6, 12, 0, 0, 0, 0, 0, 4, 5, 5, 0⟩
  | .DDR4_1866M => ⟨1866, 4, 4, 5, 2, 13, 13, 13, 10, 32, 45, 7, 3, 7, 14, 0, 0, 0, 0, 0, 5, 6, 6, 0⟩
  | .DDR4_1866N => ⟨1866, 4, 4, 5, 2, 14, 14, 14, 10, 32, 46, 7, 3, 7, 14, 0, 0, 0, 0, 0, 5, 6, 6, 0⟩
  | .DDR4_2133P => ⟨2133, 4, 4, 6, 2, 15, 15, 15, 11, 36, 51, 8, 3, 8, 16, 0, 0, 0, 0, 0, 6, 7, 7, 0⟩
  | .DDR4_2133R => ⟨2133, 4, 4, 6, 2, 16, 16, 16, 11, 36, 52, 8, 3, 8, 16, 0, 0, 0, 0, 0, 6, 7, 7, 0⟩
  | .DDR4_2400R => ⟨2400, 4, 4, 6, 2, 16, 16, 16, 12, 39, 55, 9, 3, 9, 18, 0, 0, 0, 0, 0, 6, 8, 7, 0⟩
  | .DDR4_2400U => ⟨2400, 4, 4, 6, 2, 18, 18, 18, 12, 39, 57, 9, 3, 9, 18, 0, 0, 0, 0, 0, 6, 8, 7, 0⟩

/-- The column that a rate has in the tables of `init_speed`. -/
def speedIndex (rate : Nat) : Nat :=
  match rate with
  | 1600 => 0
  | 1866 => 1
  | 2133 => 2
  | _ => 3

/-- The row that a density has in them. -/
def densityIndex (size : Nat) : Nat :=
  match size >>> 10 with
  | 2 => 0
  | 4 => 1
  | _ => 2

def RRDS_TABLE : List (List Nat) := [[4, 4, 4, 4], [5, 5, 6, 7]]

def RRDL_TABLE : List (List Nat) := [[5, 5, 6, 6], [6, 6, 7, 8]]

def FAW_TABLE : List (List Nat) := [[16, 16, 16, 16], [20, 22, 23, 26], [28, 28, 32, 36]]

/-- `RFC_TABLE` for the refresh mode `Refresh_1X`, the one every device is built with. -/
def RFC_TABLE : List (List Nat) :=
  [[128, 150, 171, 192], [208, 243, 278, 312], [280, 327, 374, 420]]

def REFI_TABLE : List Nat := [6240, 7280, 8320, 9360]

def XS_TABLE : List (List Nat) :=
  [[136, 159, 182, 204], [216, 252, 288, 324], [288, 336, 384, 432]]

def entryAt (table : List (List Nat)) (row column : Nat) : Nat :=
  ((table[row]?).bind (·[column]?)).getD 0

/-- `init_speed`. The source asserts that rate and density are among those of the tables. -/
def init_speed (org : OrgEntry) (s : SpeedEntry) : SpeedEntry :=
  let speed := speedIndex s.rate
  let density := densityIndex org.size
  { s with
    nRRDS := entryAt RRDS_TABLE (if org.dq = 16 then 1 else 0) speed
    nRRDL := entryAt RRDL_TABLE (if org.dq = 16 then 1 else 0) speed
    nFAW := entryAt FAW_TABLE (if org.dq = 4 then 0 else if org.dq = 8 then 1 else 2) speed
    nRFC := entryAt RFC_TABLE density speed
    nREFI := (REFI_TABLE[speed]?).getD 0
    nXS := entryAt XS_TABLE density speed }

/-- The speed entry the constructor settles on. -/
def speed_entry (org : Org) (speed : Speed) : SpeedEntry :=
  init_speed (org_table org) (speed_table speed)

/-! ## Timing -/

/-- `timing[Level::Channel]`. -/
def channelTiming (s : SpeedEntry) : List (Command × TimingEntry) := [
    -- CAS <-> CAS
    after .RD .RD s.nBL, after .RD .RDA s.nBL, after .RDA .RD s.nBL, after .RDA .RDA s.nBL,
    after .WR .WR s.nBL, after .WR .WRA s.nBL, after .WRA .WR s.nBL, after .WRA .WRA s.nBL]

/-- `timing[Level::Rank]`. -/
def rankTiming (s : SpeedEntry) : List (Command × TimingEntry) := [
    -- CAS <-> CAS
    after .RD .RD s.nCCDS, after .RD .RDA s.nCCDS, after .RDA .RD s.nCCDS, after .RDA .RDA s.nCCDS,
    after .WR .WR s.nCCDS, after .WR .WRA s.nCCDS, after .WRA .WR s.nCCDS, after .WRA .WRA s.nCCDS,
    after .RD .WR (s.nCL + s.nCCDS + 2 - s.nCWL), after .RD .WRA (s.nCL + s.nCCDS + 2 - s.nCWL),
    after .RDA .WR (s.nCL + s.nCCDS + 2 - s.nCWL), after .RDA .WRA (s.nCL + s.nCCDS + 2 - s.nCWL),
    after .WR .RD (s.nCWL + s.nBL + s.nWTRS), after .WR .RDA (s.nCWL + s.nBL + s.nWTRS),
    after .WRA .RD (s.nCWL + s.nBL + s.nWTRS), after .WRA .RDA (s.nCWL + s.nBL + s.nWTRS),
    -- CAS <-> CAS (between sibling ranks)
    afterSibling .RD .RD (s.nBL + s.nRTRS), afterSibling .RD .RDA (s.nBL + s.nRTRS),
    afterSibling .RDA .RD (s.nBL + s.nRTRS), afterSibling .RDA .RDA (s.nBL + s.nRTRS),
    afterSibling .RD .WR (s.nBL + s.nRTRS), afterSibling .RD .WRA (s.nBL + s.nRTRS),
    afterSibling .RDA .WR (s.nBL + s.nRTRS), afterSibling .RDA .WRA (s.nBL + s.nRTRS),
    afterSibling .RD .WR (s.nCL + s.nBL + s.nRTRS - s.nCWL),
    afterSibling .RD .WRA (s.nCL + s.nBL + s.nRTRS - s.nCWL),
    afterSibling .RDA .WR (s.nCL + s.nBL + s.nRTRS - s.nCWL),
    afterSibling .RDA .WRA (s.nCL + s.nBL + s.nRTRS - s.nCWL),
    afterSibling .WR .RD (s.nCWL + s.nBL + s.nRTRS - s.nCL),
    afterSibling .WR .RDA (s.nCWL + s.nBL + s.nRTRS - s.nCL),
    afterSibling .WRA .RD (s.nCWL + s.nBL + s.nRTRS - s.nCL),
    afterSibling .WRA .RDA (s.nCWL + s.nBL + s.nRTRS - s.nCL), after .RD .PREA s.nRTP,
    after .WR .PREA (s.nCWL + s.nBL + s.nWR),
    -- CAS <-> PD
    after .RD .PDE (s.nCL + s.nBL + 1), after .RDA .PDE (s.nCL + s.nBL + 1),
    after .WR .PDE (s.nCWL + s.nBL + s.nWR), after .WRA .PDE (s.nCWL + s.nBL + s.nWR + 1),
    after .PDX .RD s.nXP, after .PDX .RDA s.nXP, after .PDX .WR s.nXP, after .PDX .WRA s.nXP,
    -- CAS <-> SR: none (all banks have to be precharged)
    -- RAS <-> RAS
    after .ACT .ACT s.nRRDS, afterFour .ACT .ACT s.nFAW, after .ACT .PREA s.nRAS,
    after .PREA .ACT s.nRP, after .ACT_R .ACT_R s.nRRDS, after .ACT_W .ACT_W s.nRRDS,
    after .ACT_R .ACT_W s.nRRDS, after .ACT_W .ACT_R s.nRRDS, afterFour .ACT_R .ACT_W s.nFAW,
    afterFour .ACT_R .ACT_R s.nFAW, afterFour .ACT_W .ACT_W s.nFAW, afterFour .ACT_W .ACT_R s.nFAW,
    after .ACT_R .PREA s.nRAS, after .ACT_W .PREA s.nRAS, after .PREA .ACT_R s.nRP,
    after .PREA .ACT_W s.nRP,
    -- RAS <-> REF
    after .PRE .REF s.nRP, after .PREA .REF s.nRP, after .REF .ACT s.nRFC, after .REF .ACT_R s.nRFC,
    after .REF .ACT_W s.nRFC,
    -- RAS <-> PD
    after .ACT_R .PDE 1, after .ACT_W .PDE 1, after .PDX .ACT_R s.nXP, after .PDX .ACT_W s.nXP,
    after .ACT .PDE 1, after .PDX .ACT s.nXP, after .PDX .PRE s.nXP, after .PDX .PREA s.nXP,
    -- RAS <-> SR
    after .PRE .SRE s.nRP, after .PREA .SRE s.nRP, after .SRX .ACT s.nXS, after .SRX .ACT_R s.nXS,
    after .SRX .ACT_W s.nXS,
    -- REF <-> REF
    after .REF .REF s.nRFC,
    -- REF <-> PD
    after .REF .PDE 1, after .PDX .REF s.nXP,
    -- REF <-> SR
    after .SRX .REF s.nXS,
    -- PD <-> PD
    after .PDE .PDX s.nPD, after .PDX .PDE s.nXP,
    -- PD <-> SR
    after .PDX .SRE s.nXP, after .SRX .PDE s.nXS,
    -- SR <-> SR
    after .SRE .SRX s.nCKESR, after .SRX .SRE s.nXS]

/-- `timing[Level::BankGroup]`. -/
def bankGroupTiming (s : SpeedEntry) : List (Command × TimingEntry) := [
    -- CAS <-> CAS
    after .RD .RD s.nCCDL, after .RD .RDA s.nCCDL, after .RDA .RD s.nCCDL, after .RDA .RDA s.nCCDL,
    after .WR .WR s.nCCDL, after .WR .WRA s.nCCDL, after .WRA .WR s.nCCDL, after .WRA .WRA s.nCCDL,
    after .WR .WR s.nCCDL, after .WR .WRA s.nCCDL, after .WRA .WR s.nCCDL, after .WRA .WRA s.nCCDL,
    after .WR .RD (s.nCWL + s.nBL + s.nWTRL), after .WR .RDA (s.nCWL + s.nBL + s.nWTRL),
    after .WRA .RD (s.nCWL + s.nBL + s.nWTRL), after .WRA .RDA (s.nCWL + s.nBL + s.nWTRL),
    -- RAS <-> RAS
    after .ACT .ACT s.nRRDL, after .ACT_R .ACT_R s.nRRDL, after .ACT_W .ACT_W s.nRRDL,
    after .ACT_W .ACT_R s.nRRDL, after .ACT_R .ACT_W s.nRRDL]

/-- `timing[Level::Bank]`. -/
def bankTiming (s : SpeedEntry) : List (Command × TimingEntry) := [
    -- CAS <-> RAS
    after .ACT .RD s.nRCD, after .ACT .RDA s.nRCD, after .ACT .WR s.nRCD, after .ACT .WRA s.nRCD,
    after .ACT_R .RD s.nRCD, after .ACT_W .RD s.nRCD, after .ACT_R .RDA s.nRCD,
    after .ACT_W .RDA s.nRCD, after .ACT_R .WR s.nRCD, after .ACT_W .WR s.nRCD,
    after .ACT_R .WRA s.nRCD, after .ACT_W .WRA s.nRCD, after .RD .PRE s.nRTP,
    after .WR .PRE (s.nCWL + s.nBL + s.nWR), after .RDA .ACT (s.nRTP + s.nRP),
    after .RDA .ACT_R (s.nRTP + s.nRP), after .RDA .ACT_W (s.nRTP + s.nRP),
    after .WRA .ACT (s.nCWL + s.nBL + s.nWR + s.nRP),
    after .WRA .ACT_R (s.nCWL + s.nBL + s.nWR + s.nRP),
    after .WRA .ACT_W (s.nCWL + s.nBL + s.nWR + s.nRP),
    -- RAS <-> RAS
    after .ACT .ACT s.nRC, after .ACT .PRE s.nRAS, after .PRE .ACT s.nRP, after .ACT_R .ACT_R s.nRC,
    after .ACT_R .ACT_W s.nRC, after .ACT_W .ACT_W s.nRC, after .ACT_W .ACT_R s.nRC,
    after .ACT_R .PRE s.nRAS, after .ACT_W .PRE s.nRAS, after .PRE .ACT_R s.nRP,
    after .PRE .ACT_W s.nRP]

/-- `timing`. -/
def timing (s : SpeedEntry) (level : Level) (cmd : Command) : List TimingEntry :=
  match level with
  | .Channel => pushed (channelTiming s) cmd
  | .Rank => pushed (rankTiming s) cmd
  | .BankGroup => pushed (bankGroupTiming s) cmd
  | .Bank => pushed (bankTiming s) cmd
  | _ => []

def scope : Command → Level := extendedScope

def start : Level → State
  | .Rank => .PowerUp
  | .Bank | .Row => .Closed
  | _ => .MAX

/-- The standard, with the ranks of `set_rank_number`. -/
def standard (org : Org) (speed : Speed) (ranks : Nat) : Standard where
  below := [.Rank, .BankGroup, .Bank]
  count
    | .Rank => ranks
    | .BankGroup => (org_table org).bankGroups
    | .Bank => (org_table org).banks
    | .Row => (org_table org).rows
    | .Column => (org_table org).columns
    | .Channel => 0
  start := start
  scope := scope
  timing := timing (speed_entry org speed)
  lambda := bankLambda

end MCsim.Dram.DDR4
