import MCsim.MemoryController
import MCsim.Dram.Adapter
import MCsim.Generators
import MCsim.Requests.Direct
import MCsim.Requests.Pmc
import MCsim.Schedulers.Mag
import MCsim.Schedulers.Medusa
import MCsim.Schedulers.RTMem

/-!
# The set-ups of the repository

What `main.cpp` builds without options and the `.ini` files of `system/` select: a DDR3 device of one
rank, the build with privatised banks, and every requestor critical. In the set-up of `MAG.ini` the
requestors are of either kind and share the banks; in that of `RTMem.ini` they are of either kind.
-/

namespace MCsim

/-- `memTable` as `connectMemoryDevice` fills it from a DDR3 device of one rank; `SubArray` is never
assigned. -/
def ddr3MemTable (org : Dram.DDR3.Org) : MemOrg → Nat
  | .Rank => 1
  | .BankGroup => 1
  | .Bank => (Dram.DDR3.org_table org).banks
  | .SubArray => 0
  | .Row => (Dram.DDR3.org_table org).rows
  | .Column => (Dram.DDR3.org_table org).columns

/-- `AddressMapping=012345`, `RequestQueue=0000`, `CommandQueue=0010` and `CmdPerREQ=0` on a DDR3
device, with `WriteQueue` and `ReqPerREQ` as given. -/
def perBankSetup (org : Dram.DDR3.Org) (speed : Dram.DDR3.Speed) (writeQueue reqPerREQ : Bool)
    (refresh : RefreshMechanism) : Setup where
  build := .SINGLE_RANK_BANK_PRIVATIZATION
  format := [.Rank, .BankGroup, .Bank, .SubArray, .Row, .Column]
  memTable := ddr3MemTable org
  reqMap := [false, false, false, false]
  cmdMap := [false, false, true, false]
  writeQueueEnable := writeQueue
  requestorReqQ := reqPerREQ
  requestorCmdQ := false
  requestorCriticalTable := fun _ => true
  dataBusWidth := get_DataBus (Dram.DDR3.org_table org).dq
  refresh_mechanism := refresh
  device := Dram.DDR3.device org speed 1

/-- The queues of `FCFS.ini` and `FRFCFS.ini`, on the default device. -/
def openPageSetup : Setup := perBankSetup .DDR3_2Gb_x8 .DDR3_1600H false false .none

/-- The schedulers of `FCFS.ini`. -/
def fcfsIni : Components Unit Unit where
  requestScheduler := RequestFcfs.policy
  requestInit := ()
  commandGenerator := openGenerator
  commandScheduler := Frfcfs.policy
  commandInit := ()

/-- The schedulers of `FRFCFS.ini`. -/
def frfcfsIni : Components Unit Unit where
  requestScheduler := RequestFrfcfs.policy
  requestInit := ()
  commandGenerator := openGenerator
  commandScheduler := Push.policy
  commandInit := ()

/-- The queues of `MEDUSA.ini`, on the default device. -/
def medusaSetup : Setup := perBankSetup .DDR3_2Gb_x8 .DDR3_1600H true true .none

/-- The schedulers of `MEDUSA.ini`, with every requestor critical. -/
def medusaIni : Components (Nat → Nat) Unit where
  requestScheduler := Medusa.policy fun _ => true
  requestInit := fun _ => 0
  commandGenerator := openGenerator
  commandScheduler := Fcfs.policy
  commandInit := ()

/-- The queues of `MAG.ini`, on the default device, in the build without privatised banks. -/
def magSetup (requestorCriticalTable : Nat → Bool) : Setup :=
  { perBankSetup .DDR3_2Gb_x8 .DDR3_1600H false true .none with
    build := .none
    requestorCriticalTable := requestorCriticalTable }

/-- The schedulers of `MAG.ini`. -/
def magIni : Components DirectState MagState where
  requestScheduler := Direct.policy
  requestInit := Direct.create 1
  commandGenerator := openGenerator
  commandScheduler := Mag.policy
  commandInit := {}

/-- The queues of `AMC.ini`, `PMC.ini` and `RTMem.ini`, on the default device. -/
def closePageSetup : Setup := perBankSetup .DDR3_2Gb_x8 .DDR3_1600H false true .none

/-- The schedulers of `AMC.ini`. -/
def amcIni : Components RoundRobinState Unit where
  requestScheduler := RoundRobin.policy fun _ => true
  requestInit := {}
  commandGenerator := closeGenerator
  commandScheduler := Fcfs.policy
  commandInit := ()

/-- The schedulers of `PMC.ini`. -/
def pmcIni : Components PmcState Unit where
  requestScheduler := Pmc.policy
  requestInit := {}
  commandGenerator := closeGenerator
  commandScheduler := Fcfs.policy
  commandInit := ()

/-- The schedulers of `RTMem.ini`. The request scheduler looks into the command queues, so they are those
of a controller. -/
def rtmemIni (requestorCriticalTable : Nat → Bool) (c : MemoryController RoundRobinState Unit) :
    Components RoundRobinState Unit where
  requestScheduler := RTMem.requestPolicy requestorCriticalTable c.commandScheduler.queues
  requestInit := {}
  commandGenerator := closeGenerator
  commandScheduler := RTMem.policy
  commandInit := ()

end MCsim
