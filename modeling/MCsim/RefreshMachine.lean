import MCsim.CommandQueue
import MCsim.Device

/-!
# The refresh machine

`RefreshMachine` counts down to the next refresh interval. At its end it marks banks busy and appends
a group of commands to `commandBuffer` (`commandGenerate`): the precharge and the refresh, and an
`ACT` for each command queue whose front is a column access, to reopen what the precharge closes.
`refresh` hands out the front of the buffer until a `REF` or `REFPB` was sent, then waits for the
refresh to take its time, then drops the busy flags and closes the interval.

`refreshCounting` and `bank_release` are not initialised by the constructor; `create` takes their
values as parameters.
-/

namespace MCsim

/-- `refresh_mechanism`. -/
inductive RefreshMechanism where
  | none | distributed | perBank
  deriving DecidableEq, Repr

structure RefreshMachine where
  refresh_mechanism : RefreshMechanism
  ranks : Nat
  banks : Nat
  tREFI : Nat
  tRFCpb : Nat
  tRFC : Nat
  tRCD : Nat
  commandBuffer : List BusPacket := []
  isRefreshingBank : Nat → Bool := fun _ => false
  isRefreshing : Bool := false
  isInterval : Bool := false
  flag : Bool := false
  Round_robin : Nat := 0
  globeRefreshCountdown : Nat
  refreshCounting : Nat
  bank_release : Nat

namespace RefreshMachine

/-- `interval_pb`. -/
def interval_pb (m : RefreshMachine) : Nat := m.tREFI / 8

/-- The constructor. -/
def create (mechanism : RefreshMechanism) (spec : DeviceSpec) (refreshCounting bank_release : Nat) :
    RefreshMachine :=
  { refresh_mechanism := mechanism
    ranks := spec.ranks
    banks := spec.banks
    tREFI := spec.constraints.tREFI
    tRFCpb := spec.constraints.tRFCpb
    tRFC := spec.constraints.tRFC
    tRCD := spec.constraints.tRCD
    globeRefreshCountdown := spec.constraints.tREFI / 8
    refreshCounting := refreshCounting
    bank_release := bank_release }

def reachInterval (m : RefreshMachine) : Bool := m.isInterval

def busyBank (m : RefreshMachine) (r_bank : Nat) : Bool := m.isRefreshingBank r_bank

/-- A command of the refresh machine: requestor, address and column are 0. -/
def refreshCommand (t : BusPacketType) (row bank rank : Nat) : BusPacket :=
  { busPacketType := t, requestorID := 0, address := 0, column := 0, row := row, bank := bank,
    rank := rank, subArray := 0, arriveTime := 0 }

/-- The busy flags as the end of a countdown leaves them. -/
def releaseBanks (m : RefreshMachine) (bank : Nat) : Bool :=
  match m.refresh_mechanism with
  | .none => m.isRefreshingBank bank
  | .perBank => if bank = m.bank_release then false else m.isRefreshingBank bank
  | .distributed => if bank < m.banks then false else m.isRefreshingBank bank

/-- `refresh`: the front of the buffer while no refresh is counted down; when the countdown has
ended, the interval is closed, the banks are released, and the front is handed out once more. -/
def refresh (m : RefreshMachine) : RefreshMachine × Option BusPacket :=
  if m.refreshCounting = 0 ∧ m.flag then
    ({ m with
        flag := false, isInterval := false, isRefreshing := false
        isRefreshingBank := m.releaseBanks },
      m.commandBuffer.head?)
  else (m, if m.flag then none else m.commandBuffer.head?)

/-- The countdown a popped command starts: only `REFPB` and `REF` start one. -/
def startCounting (m : RefreshMachine) (c : BusPacket) : RefreshMachine :=
  match c.busPacketType with
  | .REFPB => { m with bank_release := c.bank, refreshCounting := m.tRFCpb, flag := true }
  | .REF => { m with bank_release := c.bank, refreshCounting := m.tRFC, flag := true }
  | _ => m

/-- `popCommand`: the front leaves the buffer; where an `ACT` comes next its `tRCD` is waited for as
well. The source looks at the new front without asking whether there is one: the vector's storage
still holds the command just erased, which is what it then sees. -/
def popCommand (m : RefreshMachine) : RefreshMachine :=
  match m.commandBuffer with
  | [] => m
  | c :: rest =>
    let m := m.startCounting c
    { m with
      commandBuffer := rest
      refreshCounting :=
        if (rest.headD c).busPacketType = .ACT then (m.refreshCounting + m.tRCD) % 2 ^ 32
        else m.refreshCounting }

/-- The front of the critical buffer of a queue, where there is one. -/
def front (q : CommandQueue) : Option BusPacket := q.hrtBuffer.head?

/-- The queue after the refresh machine looked at the front of its critical buffer. -/
def touch (q : CommandQueue) : CommandQueue :=
  match q.getCommand true with
  | some (_, q') => q'
  | Option.none => q

/-- The precharge and refresh of each rank, which a distributed refresh starts with. -/
def rankCommands (m : RefreshMachine) : List BusPacket :=
  (List.range m.ranks).flatMap fun rank =>
    [refreshCommand .PREA 0 0 rank, refreshCommand .REF 0 0 rank]

/-- What the front of one command queue adds to the group. -/
def queueCommands (m : RefreshMachine) (q : CommandQueue) : List BusPacket :=
  match front q with
  | Option.none => []
  | some c =>
    if c.busPacketType.beforeACT then
      match m.refresh_mechanism with
      | .none => []
      | .distributed => [refreshCommand .ACT c.row c.bank c.rank]
      | .perBank =>
        if c.bank = m.Round_robin then
          [refreshCommand .PRE 0 m.Round_robin 0, refreshCommand .REFPB 0 m.Round_robin 0,
            refreshCommand .ACT c.row c.bank c.rank]
        else []
    else []

/-- The group of commands that `commandGenerate` appends, by mechanism. A per-bank refresh with no
column access at the front of a queue for its bank is the bare `REFPB`. -/
def group (m : RefreshMachine) (queues : List CommandQueue) : List BusPacket :=
  let fromQueues := queues.flatMap m.queueCommands
  match m.refresh_mechanism with
  | .none => []
  | .distributed => m.rankCommands ++ fromQueues
  | .perBank =>
    if fromQueues.isEmpty then [refreshCommand .REFPB 0 m.Round_robin 0] else fromQueues

/-- The busy flags as `commandGenerate` leaves them. -/
def holdBanks (m : RefreshMachine) (bank : Nat) : Bool :=
  match m.refresh_mechanism with
  | .none => m.isRefreshingBank bank
  | .distributed => if 0 < m.ranks ∧ bank < m.banks then true else m.isRefreshingBank bank
  | .perBank => if bank = m.Round_robin then true else m.isRefreshingBank bank

/-- `commandGenerate`, on the command queues as they stand. -/
def commandGenerate (m : RefreshMachine) (queues : List CommandQueue) : RefreshMachine :=
  { m with
    commandBuffer := m.commandBuffer ++ m.group queues
    isRefreshingBank := m.holdBanks
    Round_robin :=
      match m.refresh_mechanism with
      | .perBank => if m.Round_robin + 1 = 8 then 0 else m.Round_robin + 1
      | _ => m.Round_robin }

/-- The interval countdown of `step`, an unsigned counter. -/
def countdown (m : RefreshMachine) : Nat :=
  match m.refresh_mechanism with
  | .none => m.globeRefreshCountdown
  | _ => (m.globeRefreshCountdown + (2 ^ 32 - 1)) % 2 ^ 32

/-- The countdown of the next interval. -/
def nextInterval (m : RefreshMachine) : Nat :=
  match m.refresh_mechanism with
  | .none => m.countdown
  | .distributed => m.tREFI
  | .perBank => m.interval_pb

/-- `step`: the interval's countdown, with a group generated at its end, and the refresh's own. -/
def step (m : RefreshMachine) (queues : List CommandQueue) : RefreshMachine :=
  let m :=
    if m.countdown = 0 then
      { m with isRefreshing := true, isInterval := true,
               globeRefreshCountdown := m.nextInterval }.commandGenerate queues
    else { m with globeRefreshCountdown := m.countdown }
  { m with refreshCounting := m.refreshCounting - 1 }

/-- The command queues after `step`: a group that is generated looks at every critical front. -/
def stepQueue (m : RefreshMachine) (q : CommandQueue) : CommandQueue :=
  if m.countdown = 0 then touch q else q

end RefreshMachine
end MCsim
