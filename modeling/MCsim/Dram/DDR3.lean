import MCsim.Dram.Node

/-!
# DDR3

The tables of the class `DDR3`, in the source's order. Left out of a speed entry: `freq` and `tCK`, and
`nXPDLL` and `nXSDLL`, which no timing entry uses.
-/

namespace MCsim.Dram.DDR3

/-! ## Organisation and speed -/

inductive Org where
  | DDR3_512Mb_x4 | DDR3_512Mb_x8 | DDR3_512Mb_x16 | DDR3_1Gb_x4 | DDR3_1Gb_x8 | DDR3_1Gb_x16
  | DDR3_2Gb_x4 | DDR3_2Gb_x8 | DDR3_2Gb_x16 | DDR3_4Gb_x4 | DDR3_4Gb_x8 | DDR3_4Gb_x16
  | DDR3_8Gb_x4 | DDR3_8Gb_x8 | DDR3_8Gb_x16
  deriving DecidableEq, Repr

structure OrgEntry where
  size : Nat
  dq : Nat
  banks : Nat
  rows : Nat
  columns : Nat
  deriving DecidableEq, Repr

def org_table : Org → OrgEntry
  | .DDR3_512Mb_x4 => ⟨512, 4, 8, 1 <<< 13, 1 <<< 11⟩
  | .DDR3_512Mb_x8 => ⟨512, 8, 8, 1 <<< 13, 1 <<< 10⟩
  | .DDR3_512Mb_x16 => ⟨512, 16, 8, 1 <<< 12, 1 <<< 10⟩
  | .DDR3_1Gb_x4 => ⟨1 <<< 10, 4, 8, 1 <<< 14, 1 <<< 11⟩
  | .DDR3_1Gb_x8 => ⟨1 <<< 10, 8, 8, 1 <<< 14, 1 <<< 10⟩
  | .DDR3_1Gb_x16 => ⟨1 <<< 10, 16, 8, 1 <<< 13, 1 <<< 10⟩
  | .DDR3_2Gb_x4 => ⟨2 <<< 10, 4, 8, 1 <<< 15, 1 <<< 11⟩
  | .DDR3_2Gb_x8 => ⟨2 <<< 10, 8, 8, 1 <<< 15, 1 <<< 10⟩
  | .DDR3_2Gb_x16 => ⟨2 <<< 10, 16, 8, 1 <<< 14, 1 <<< 10⟩
  | .DDR3_4Gb_x4 => ⟨4 <<< 10, 4, 8, 1 <<< 16, 1 <<< 11⟩
  | .DDR3_4Gb_x8 => ⟨4 <<< 10, 8, 8, 1 <<< 16, 1 <<< 10⟩
  | .DDR3_4Gb_x16 => ⟨4 <<< 10, 16, 8, 1 <<< 15, 1 <<< 10⟩
  | .DDR3_8Gb_x4 => ⟨8 <<< 10, 4, 8, 1 <<< 16, 1 <<< 12⟩
  | .DDR3_8Gb_x8 => ⟨8 <<< 10, 8, 8, 1 <<< 16, 1 <<< 11⟩
  | .DDR3_8Gb_x16 => ⟨8 <<< 10, 16, 8, 1 <<< 16, 1 <<< 10⟩

inductive Speed where
  | DDR3_800D | DDR3_800E | DDR3_1066E | DDR3_1066F | DDR3_1066G | DDR3_1333G | DDR3_1333H
  | DDR3_1600H | DDR3_1600J | DDR3_1600K | DDR3_1866K | DDR3_1866L | DDR3_2133L | DDR3_2133M
  deriving DecidableEq, Repr

structure SpeedEntry where
  rate : Nat
  nBL : Nat
  nCCD : Nat
  nRTRS : Nat
  nCL : Nat
  nRCD : Nat
  nRP : Nat
  nCWL : Nat
  nRAS : Nat
  nRC : Nat
  nRTP : Nat
  nWTR : Nat
  nWR : Nat
  nRRD : Nat
  nFAW : Nat
  nRFC : Nat
  nREFI : Nat
  nPD : Nat
  nXP : Nat
  nCKESR : Nat
  nXS : Nat
  deriving DecidableEq, Repr

def speed_table : Speed → SpeedEntry
  | .DDR3_800D => ⟨800, 4, 4, 2, 5, 5, 5, 5, 15, 20, 4, 4, 6, 0, 0, 0, 3120, 3, 3, 4, 0⟩
  | .DDR3_800E => ⟨800, 4, 4, 2, 6, 6, 6, 5, 15, 21, 4, 4, 6, 0, 0, 0, 3120, 3, 3, 4, 0⟩
  | .DDR3_1066E => ⟨1066, 4, 4, 2, 6, 6, 6, 6, 20, 26, 4, 4, 8, 0, 0, 0, 4160, 3, 4, 4, 0⟩
  | .DDR3_1066F => ⟨1066, 4, 4, 2, 7, 7, 7, 6, 20, 27, 4, 4, 8, 0, 0, 0, 4160, 3, 4, 4, 0⟩
  | .DDR3_1066G => ⟨1066, 4, 4, 2, 8, 8, 8, 6, 20, 28, 4, 4, 8, 0, 0, 0, 4160, 3, 4, 4, 0⟩
  | .DDR3_1333G => ⟨1333, 4, 4, 2, 8, 8, 8, 7, 24, 32, 5, 5, 10, 0, 0, 0, 5200, 4, 4, 5, 0⟩
  | .DDR3_1333H => ⟨1333, 4, 4, 2, 9, 9, 9, 7, 24, 33, 5, 5, 10, 0, 0, 0, 5200, 4, 4, 5, 0⟩
  | .DDR3_1600H => ⟨1600, 4, 4, 2, 9, 9, 9, 8, 28, 37, 6, 6, 12, 0, 0, 0, 6240, 4, 5, 5, 0⟩
  | .DDR3_1600J => ⟨1600, 4, 4, 2, 10, 10, 10, 8, 28, 38, 6, 6, 12, 0, 0, 0, 6240, 4, 5, 5, 0⟩
  | .DDR3_1600K => ⟨1600, 4, 4, 2, 11, 11, 11, 8, 28, 39, 6, 6, 12, 0, 0, 0, 6240, 4, 5, 5, 0⟩
  | .DDR3_1866K => ⟨1866, 4, 4, 2, 11, 11, 11, 9, 32, 43, 7, 7, 14, 0, 0, 0, 7280, 5, 6, 6, 0⟩
  | .DDR3_1866L => ⟨1866, 4, 4, 2, 12, 12, 12, 9, 32, 44, 7, 7, 14, 0, 0, 0, 7280, 5, 6, 6, 0⟩
  | .DDR3_2133L => ⟨2133, 4, 4, 2, 12, 12, 12, 10, 36, 48, 8, 8, 16, 0, 0, 0, 8320, 6, 7, 7, 0⟩
  | .DDR3_2133M => ⟨2133, 4, 4, 2, 13, 13, 13, 10, 36, 49, 8, 8, 16, 0, 0, 0, 8320, 6, 7, 7, 0⟩

/-- `init_speed`. The source asserts that the rate is one of these. -/
def init_speed (org : OrgEntry) (s : SpeedEntry) : SpeedEntry :=
  let page := (org.dq * org.columns) >>> 13
  let chip := org.size
  let byChip := fun (a b c d e : Nat) =>
    if chip = 512 then a else if chip = 1 <<< 10 then b else if chip = 1 <<< 11 then c
    else if chip = 1 <<< 12 then d else e
  { s with
    nRRD := match s.rate with
      | 800 => if page = 1 then 4 else 4
      | 1066 => if page = 1 then 4 else 6
      | 1333 => if page = 1 then 4 else 5
      | _ => if page = 1 then 5 else 6
    nFAW := match s.rate with
      | 800 => if page = 1 then 16 else 20
      | 1066 => if page = 1 then 20 else 27
      | 1333 => if page = 1 then 20 else 30
      | 1600 => if page = 1 then 24 else 32
      | 1866 => if page = 1 then 26 else 33
      | _ => if page = 1 then 27 else 34
    nRFC := match s.rate with
      | 800 => byChip 36 44 64 104 140
      | 1066 => byChip 48 59 86 139 187
      | 1333 => byChip 60 74 107 174 234
      | 1600 => byChip 72 88 128 208 280
      | 1866 => byChip 84 103 150 243 327
      | _ => byChip 96 118 171 278 374
    nXS := match s.rate with
      | 800 => byChip 40 48 68 108 144
      | 1066 => byChip 54 64 91 144 192
      | 1333 => byChip 67 80 114 180 240
      | 1600 => byChip 80 96 136 216 288
      | 1866 => byChip 94 112 159 252 336
      | _ => byChip 107 128 182 288 384 }

/-- The speed entry the constructor settles on. -/
def speed_entry (org : Org) (speed : Speed) : SpeedEntry :=
  init_speed (org_table org) (speed_table speed)

/-! ## Timing -/

/-- `timing[Level::Channel]`. -/
def channelTiming (s : SpeedEntry) : List (Command × TimingEntry) := [
    -- CAS <-> CAS
    after .RD .RD s.nBL, after .RD .RDA s.nBL, after .RDA .RD s.nBL, after .RDA .RDA s.nBL,
    after .WR .WR s.nBL, after .WR .WRA s.nBL, after .WRA .WR s.nBL, after .WRA .WRA s.nBL]

/-- `timing[Level::Rank]`. -/
def rankTiming (s : SpeedEntry) : List (Command × TimingEntry) := [
    -- CAS <-> CAS
    after .RD .RD s.nCCD, after .RD .RDA s.nCCD, after .RDA .RD s.nCCD, after .RDA .RDA s.nCCD,
    after .WR .WR s.nCCD, after .WR .WRA s.nCCD, after .WRA .WR s.nCCD, after .WRA .WRA s.nCCD,
    after .RD .WR (s.nCL + s.nCCD + 2 - s.nCWL), after .RD .WRA (s.nCL + s.nCCD + 2 - s.nCWL),
    after .RDA .WR (s.nCL + s.nCCD + 2 - s.nCWL), after .RDA .WRA (s.nCL + s.nCCD + 2 - s.nCWL),
    after .WR .RD (s.nCWL + s.nBL + s.nWTR), after .WR .RDA (s.nCWL + s.nBL + s.nWTR),
    after .WRA .RD (s.nCWL + s.nBL + s.nWTR), after .WRA .RDA (s.nCWL + s.nBL + s.nWTR),
    -- CAS <-> CAS (between sibling ranks)
    afterSibling .RD .RD (s.nBL + s.nRTRS), afterSibling .RD .RDA (s.nBL + s.nRTRS),
    afterSibling .RDA .RD (s.nBL + s.nRTRS), afterSibling .RDA .RDA (s.nBL + s.nRTRS),
    afterSibling .RD .WR (s.nBL + s.nRTRS), afterSibling .RD .WRA (s.nBL + s.nRTRS),
    afterSibling .RDA .WR (s.nBL + s.nRTRS), afterSibling .RDA .WRA (s.nBL + s.nRTRS),
    afterSibling .RD .WR (s.nCL + s.nBL + s.nRTRS - s.nCWL),
    afterSibling .RD .WRA (s.nCL + s.nBL + s.nRTRS - s.nCWL),
    afterSibling .RDA .WR (s.nCL + s.nBL + s.nRTRS - s.nCWL),
    afterSibling .RDA .WRA (s.nCL + s.nBL + s.nRTRS - s.nCWL),
    afterSibling .WR .RD (s.nCWL + s.nBL + s.nRTRS - s.nCL),
    afterSibling .WR .RDA (s.nCWL + s.nBL + s.nRTRS - s.nCL),
    afterSibling .WRA .RD (s.nCWL + s.nBL + s.nRTRS - s.nCL),
    afterSibling .WRA .RDA (s.nCWL + s.nBL + s.nRTRS - s.nCL), after .RD .PREA s.nRTP,
    after .WR .PREA (s.nCWL + s.nBL + s.nWR),
    -- CAS <-> PD
    after .RD .PDE (s.nCL + s.nBL + 1), after .RDA .PDE (s.nCL + s.nBL + 1),
    after .WR .PDE (s.nCWL + s.nBL + s.nWR), after .WRA .PDE (s.nCWL + s.nBL + s.nWR + 1),
    after .PDX .RD s.nXP, after .PDX .RDA s.nXP, after .PDX .WR s.nXP, after .PDX .WRA s.nXP,
    -- CAS <-> SR: none (all banks have to be precharged)
    -- RAS <-> RAS
    after .ACT .ACT s.nRRD, afterFour .ACT .ACT s.nFAW, after .ACT .PREA s.nRAS,
    after .PREA .ACT s.nRP, after .ACT_R .ACT_R s.nRRD, after .ACT_W .ACT_W s.nRRD,
    after .ACT_R .ACT_W s.nRRD, after .ACT_W .ACT_R s.nRRD, afterFour .ACT_R .ACT_W s.nFAW,
    afterFour .ACT_R .ACT_R s.nFAW, afterFour .ACT_W .ACT_W s.nFAW, afterFour .ACT_W .ACT_R s.nFAW,
    after .ACT_R .PREA s.nRAS, after .ACT_W .PREA s.nRAS, after .PREA .ACT_R s.nRP,
    after .PREA .ACT_W s.nRP,
    -- RAS <-> REF
    after .PRE .REF s.nRP, after .PREA .REF s.nRP, after .REF .ACT s.nRFC, after .REF .ACT_R s.nRFC,
    after .REF .ACT_W s.nRFC,
    -- RAS <-> PD
    after .ACT_R .PDE 1, after .ACT_W .PDE 1, after .PDX .ACT_R s.nXP, after .PDX .ACT_W s.nXP,
    after .ACT .PDE 1, after .PDX .ACT s.nXP, after .PDX .PRE s.nXP, after .PDX .PREA s.nXP,
    -- RAS <-> SR
    after .PRE .SRE s.nRP, after .PREA .SRE s.nRP, after .SRX .ACT s.nXS, after .SRX .ACT_R s.nXS,
    after .SRX .ACT_W s.nXS,
    -- REF <-> REF
    after .REF .REF s.nRFC,
    -- REF <-> PD
    after .REF .PDE 1, after .PDX .REF s.nXP,
    -- REF <-> SR
    after .SRX .REF s.nXS,
    -- PD <-> PD
    after .PDE .PDX s.nPD, after .PDX .PDE s.nXP,
    -- PD <-> SR
    after .PDX .SRE s.nXP, after .SRX .PDE s.nXS,
    -- SR <-> SR
    after .SRE .SRX s.nCKESR, after .SRX .SRE s.nXS]

/-- `timing[Level::Bank]`. -/
def bankTiming (s : SpeedEntry) : List (Command × TimingEntry) := [
    -- CAS <-> RAS
    after .ACT .RD s.nRCD, after .ACT .RDA s.nRCD, after .ACT .WR s.nRCD, after .ACT .WRA s.nRCD,
    after .ACT_R .RD s.nRCD, after .ACT_W .RD s.nRCD, after .ACT_R .RDA s.nRCD,
    after .ACT_W .RDA s.nRCD, after .ACT_R .WR s.nRCD, after .ACT_W .WR s.nRCD,
    after .ACT_R .WRA s.nRCD, after .ACT_W .WRA s.nRCD, after .RD .PRE s.nRTP,
    after .WR .PRE (s.nCWL + s.nBL + s.nWR), after .RDA .ACT_R (s.nRTP + s.nRP),
    after .RDA .ACT_W (s.nRTP + s.nRP), after .WRA .ACT_R (s.nCWL + s.nBL + s.nWR + s.nRP),
    after .WRA .ACT_W (s.nCWL + s.nBL + s.nWR + s.nRP), after .RD .PRE s.nRTP,
    after .WR .PRE (s.nCWL + s.nBL + s.nWR), after .RDA .ACT (s.nRTP + s.nRP),
    after .WRA .ACT (s.nCWL + s.nBL + s.nWR + s.nRP),
    -- RAS <-> RAS
    after .ACT .ACT s.nRC, after .ACT .PRE s.nRAS, after .PRE .ACT s.nRP, after .ACT_R .ACT_R s.nRC,
    after .ACT_R .ACT_W s.nRC, after .ACT_W .ACT_W s.nRC, after .ACT_W .ACT_R s.nRC,
    after .ACT_R .PRE s.nRAS, after .ACT_W .PRE s.nRAS, after .PRE .ACT_R s.nRP,
    after .PRE .ACT_W s.nRP]

/-- `timing`. -/
def timing (s : SpeedEntry) (level : Level) (cmd : Command) : List TimingEntry :=
  match level with
  | .Channel => pushed (channelTiming s) cmd
  | .Rank => pushed (rankTiming s) cmd
  | .Bank => pushed (bankTiming s) cmd
  | _ => []

def scope : Command → Level := extendedScope

def start : Level → State
  | .Rank => .PowerUp
  | .Bank | .Row => .Closed
  | _ => .MAX

/-- The standard, with the ranks of `set_rank_number`. -/
def standard (org : Org) (speed : Speed) (ranks : Nat) : Standard where
  below := [.Rank, .Bank]
  count
    | .Rank => ranks
    | .Bank => (org_table org).banks
    | .Row => (org_table org).rows
    | .Column => (org_table org).columns
    | _ => 0
  start := start
  scope := scope
  timing := timing (speed_entry org speed)
  lambda := bankLambda

end MCsim.Dram.DDR3
