import MCsim.CommandScheduler
import MCsim.Lib.Machine

/-!
# The timers of the command queues

The timers of the base class as the source keeps them, in maps that are filled when they are first asked
for: `cmdQueueTimer` has counters for each queue, and `reqCmdQueueTimer` for each requestor of each
queue. `isReady` enters an empty map where there is none, `sendCommand` enters the counters it raises,
and `tick` goes through the entries there are.

Which queues are per requestor never changes; it is a parameter here. The operations on a queue that
does not exist are undefined.
-/

namespace MCsim

/-- `std::map<unsigned int, unsigned int>`, from command types. -/
abbrev Counters := BusPacketType → Option Nat

namespace Counters

def empty : Counters := fun _ => none

/-- The loop `for (type = RD; type != PDE; type++)` of `sendCommand`. -/
def raise (spec : DeviceSpec) (cmd : BusPacket) (m : Counters) : Counters := fun type =>
  if type.toNat < BusPacketType.PDE.toNat then
    some (max ((m type).getD 0) (spec.command_timing cmd.busPacketType type))
  else m type

/-- The loop of `tick` over the counters. -/
def down (m : Counters) : Counters := fun type =>
  (m type).map fun counter => if counter > 0 then counter - 1 else counter

/-- No counter, or one at 0. -/
def expired (m : Counters) (type : BusPacketType) : Bool :=
  match m type with
  | some counter => !(counter != 0)
  | none => true

end Counters

structure TimerMaps where
  cmdQueueTimer : Nat → Option Counters := fun _ => none
  reqCmdQueueTimer : Nat → Nat → Option Counters := fun _ _ => none

namespace TimerMaps

/-- The counters of a requestor of a queue, entered if there are none yet. -/
def ofRequestor (maps : TimerMaps) (index id : Nat) : Counters :=
  (maps.reqCmdQueueTimer index id).getD .empty

/-- The counters of a queue. -/
def ofQueue (maps : TimerMaps) (index : Nat) : Counters := (maps.cmdQueueTimer index).getD .empty

def setRequestor (maps : TimerMaps) (index id : Nat) (m : Counters) : TimerMaps :=
  { maps with reqCmdQueueTimer := fun i d =>
      if i = index ∧ d = id then some m else maps.reqCmdQueueTimer i d }

def setQueue (maps : TimerMaps) (index : Nat) (m : Counters) : TimerMaps :=
  { maps with cmdQueueTimer := fun i => if i = index then some m else maps.cmdQueueTimer i }

/-- `isReady`. -/
def isReady (perRequestor : Nat → Bool) (maps : TimerMaps) (cmd : BusPacket) (index : Nat) :
    TimerMaps × Bool :=
  if perRequestor index then
    let m := maps.ofRequestor index cmd.requestorID
    (maps.setRequestor index cmd.requestorID m, m.expired cmd.busPacketType)
  else
    let m := maps.ofQueue index
    (maps.setQueue index m, m.expired cmd.busPacketType)

/-- The counters that `sendCommand` raises, whether it bypasses the queue or not. -/
def sendCommand (spec : DeviceSpec) (perRequestor : Nat → Bool) (maps : TimerMaps) (cmd : BusPacket)
    (index : Nat) : TimerMaps :=
  if perRequestor index then
    maps.setRequestor index cmd.requestorID ((maps.ofRequestor index cmd.requestorID).raise spec cmd)
  else maps.setQueue index ((maps.ofQueue index).raise spec cmd)

/-- The counters in `tick`. -/
def tick (queueCount : Nat) (perRequestor : Nat → Bool) (maps : TimerMaps) : TimerMaps where
  reqCmdQueueTimer index id :=
    if index < queueCount ∧ perRequestor index = true then
      (maps.reqCmdQueueTimer index id).map Counters.down
    else maps.reqCmdQueueTimer index id
  cmdQueueTimer index :=
    if index < queueCount ∧ perRequestor index = false then some (maps.ofQueue index).down
    else maps.cmdQueueTimer index

end TimerMaps

/-- What the timers are asked to do. -/
inductive TimerCall where
  | isReady (cmd : BusPacket) (index : Nat)
  | sendCommand (cmd : BusPacket) (index : Nat) (bypass : Bool)
  | tick

/-- One call, with the answer of `isReady`. -/
def TimerMaps.step (spec : DeviceSpec) (queueCount : Nat) (perRequestor : Nat → Bool) :
    Lib.Machine.Step TimerMaps TimerCall (Option Bool)
  | maps, .isReady cmd index =>
    if index < queueCount then
      some ((maps.isReady perRequestor cmd index).1, some (maps.isReady perRequestor cmd index).2)
    else none
  | maps, .sendCommand cmd index _ =>
    if index < queueCount then some (maps.sendCommand spec perRequestor cmd index, none) else none
  | maps, .tick => some (maps.tick queueCount perRequestor, none)

/-- The same call at the base class. -/
def CommandScheduler.timerCall (spec : DeviceSpec) (s : CommandScheduler) : TimerCall → CommandScheduler
  | .isReady _ _ => s
  | .sendCommand cmd index bypass => s.sendCommand spec cmd index bypass
  | .tick => s.tick

end MCsim
