import MCsim.RefreshMachine

/-!
# The command scheduler's base class

What every command scheduler inherits: the command queues, the timers that hold a queue's next
command back, the refresh machine and the device. A subclass only chooses (`commandSchedule`); it
asks `isReady` (are the delays within the command's own queue over?) and `isIssuable` (does the
device take it now, and is its bank not being refreshed?), and it sends through `sendCommand`.

`Answers` is the device's `command_check` for one cycle. Nothing is assumed of it. The device does
not change between two checks of one `commandSchedule` call, so the answers are a function of the
command.

The timers are maps in the source; an absent entry and an entry 0 mean the same to every reader, so
they are total functions here. The queue vector is a count and a function.
-/

namespace MCsim

/-- The answers of the device's `command_check` in one cycle. -/
abbrev Answers := BusPacket → Bool

structure CommandScheduler where
  queueCount : Nat
  commandQueue : Nat → CommandQueue
  cmdQueueTimer : Nat → BusPacketType → Nat := fun _ _ => 0
  reqCmdQueueTimer : Nat → Nat → BusPacketType → Nat := fun _ _ _ => 0
  refreshMachine : RefreshMachine
  memoryDevice : MemoryDevice := {}
  scheduledCommand : Option BusPacket := none
  clock : Nat := 1

namespace CommandScheduler

/-- The queues in index order. -/
def queues (s : CommandScheduler) : List CommandQueue :=
  (List.range s.queueCount).map s.commandQueue

/-- Replace one queue. -/
def setQueue (s : CommandScheduler) (index : Nat) (q : CommandQueue) : CommandScheduler :=
  { s with commandQueue := fun i => if i = index then q else s.commandQueue i }

/-- The controller's insertion into a queue. -/
def insertCommand (s : CommandScheduler) (index : Nat) (command : BusPacket) (critical : Bool) :
    CommandScheduler :=
  s.setQueue index ((s.commandQueue index).insertCommand command critical)

/-- `isReady`. -/
def isReady (s : CommandScheduler) (cmd : BusPacket) (index : Nat) : Bool :=
  if (s.commandQueue index).isPerRequestor then
    s.reqCmdQueueTimer index cmd.requestorID cmd.busPacketType = 0
  else s.cmdQueueTimer index cmd.busPacketType = 0

/-- `isIssuable`. -/
def isIssuable (s : CommandScheduler) (check : Answers) (cmd : BusPacket) : Bool :=
  if s.refreshMachine.busyBank cmd.bank = false then check cmd else false

/-- The loop `for (type = RD; type != PDE; type++)` over one queue's timers. -/
def raiseTimer (spec : DeviceSpec) (cmd : BusPacket) (timer : BusPacketType → Nat) :
    BusPacketType → Nat := fun type =>
  if type.toNat < BusPacketType.PDE.toNat then
    max (timer type) (spec.command_timing cmd.busPacketType type)
  else timer type

/-- `sendCommand`: the queue's timers are raised, the command leaves its queue (it stays where the
caller bypasses the queue), and the device receives it. -/
def sendCommand (spec : DeviceSpec) (s : CommandScheduler) (cmd : BusPacket) (index : Nat)
    (bypass : Bool) : CommandScheduler :=
  let q := s.commandQueue index
  let s :=
    if q.isPerRequestor then
      { s.setQueue index (q.removeRequestorCommand cmd.requestorID) with
        reqCmdQueueTimer := fun i id =>
          if i = index ∧ id = cmd.requestorID then
            raiseTimer spec cmd (s.reqCmdQueueTimer index cmd.requestorID)
          else s.reqCmdQueueTimer i id }
    else
      { s.setQueue index (if bypass then q else q.removeCommand) with
        cmdQueueTimer := fun i =>
          if i = index then raiseTimer spec cmd (s.cmdQueueTimer index) else s.cmdQueueTimer i }
  { s with memoryDevice := s.memoryDevice.receiveFromBus spec cmd }

/-- `refresh`: within an interval, the command the refresh machine hands out is sent if the device
takes it. The busy flags are not asked. -/
def refresh (spec : DeviceSpec) (check : Answers) (s : CommandScheduler) : CommandScheduler :=
  if s.refreshMachine.reachInterval then
    let (m, tempCmd) := s.refreshMachine.refresh
    match tempCmd with
    | none => { s with refreshMachine := m }
    | some c =>
      if check c then
        { s with memoryDevice := s.memoryDevice.receiveFromBus spec c
                 refreshMachine := m.popCommand }
      else { s with refreshMachine := m }
  else s

/-- `tick`: the timers of every queue count down, then the refresh machine steps. -/
def tick (s : CommandScheduler) : CommandScheduler :=
  { s with
    cmdQueueTimer := fun i t =>
      if i < s.queueCount ∧ (s.commandQueue i).isPerRequestor = false then s.cmdQueueTimer i t - 1
      else s.cmdQueueTimer i t
    reqCmdQueueTimer := fun i id t =>
      if i < s.queueCount ∧ (s.commandQueue i).isPerRequestor then s.reqCmdQueueTimer i id t - 1
      else s.reqCmdQueueTimer i id t
    commandQueue := fun i =>
      if i < s.queueCount then s.refreshMachine.stepQueue (s.commandQueue i) else s.commandQueue i
    refreshMachine := s.refreshMachine.step s.queues
    clock := s.clock + 1 }

end CommandScheduler
end MCsim
