import MCsim.Requests.RoundRobin
import MCsim.Schedulers.Calls

/-!
# RTMem

`RequestScheduler_RTMem` is the round-robin scheduler with an `isSchedulable` of its own: a request is
refused while any command queue holds two commands of one criticality. `CommandScheduler_RTMem` looks at
one front of each queue, the critical one where there is one, and keeps the oldest of the column accesses
and the oldest of the other commands whose timers are over. It sends the former if the device takes it,
or else the latter.

The timers asked and the queue that a command is removed from are those of the command's bank, whatever
queue it was found in; a bank without a queue is undefined.
-/

namespace MCsim
namespace RTMem

open CommandScheduler

/-! ## Requests -/

/-- A command queue that holds two commands of one criticality. -/
def isFull (q : CommandQueue) : Bool := 2 ≤ q.getSize true || 2 ≤ q.getSize false

/-- `isSchedulable`: the generator's own answer is dropped. -/
def isSchedulable (commandQueue : List CommandQueue) (gen : Generator) : Generator :=
  fun g request isOpen =>
    if commandQueue.any isFull then some (g, false)
    else (gen g request isOpen).map fun r => (r.1, true)

/-- `RequestScheduler_RTMem`, which inherits `requestSchedule`. -/
def requestSchedule (table : Nat → Bool) (gen : Generator) :
    RequestScheduling RoundRobinState (List CommandQueue) := fun commandQueue s p =>
  RoundRobin.requestSchedule table (isSchedulable commandQueue gen) () s p

/-- As the controller calls it, with the command queues it finds. -/
def requestPolicy (table : Nat → Bool) (commandQueue : List CommandQueue) :
    RequestPolicy RoundRobinState where
  requestSchedule gen s p := (requestSchedule table gen commandQueue s p).map fun r => (r.1, r.2.1)

/-! ## Commands -/

/-- `tempCAS` and `tempACT`. -/
structure Candidates where
  tempCAS : Option BusPacket := none
  tempACT : Option BusPacket := none

/-- A candidate gives way to a command that arrived before it. -/
def keep (best : Option BusPacket) (checkCommand : BusPacket) : Option BusPacket :=
  match best with
  | none => some checkCommand
  | some b => if checkCommand.arriveTime < b.arriveTime then some checkCommand else some b

/-- The candidates after a command was looked at. -/
def compare (s : CommandScheduler) (found : Candidates) (checkCommand : BusPacket) : Candidates :=
  if s.isReady checkCommand checkCommand.bank then
    if checkCommand.busPacketType.beforeACT then
      { found with tempCAS := keep found.tempCAS checkCommand }
    else { found with tempACT := keep found.tempACT checkCommand }
  else found

/-- One turn of the loop over the command queues. -/
def turn (st : CommandScheduler × Candidates) (index : Nat) : Option (CommandScheduler × Candidates) :=
  match st.1.freeFront false index with
  | (s, none) => some (s, st.2)
  | (s, some checkCommand) =>
    if checkCommand.bank < s.queueCount then some (s, compare s st.2 checkCommand) else none

/-- `CommandScheduler_RTMem::commandSchedule`. -/
def commandSchedule (spec : DeviceSpec) (check : Answers) (s : CommandScheduler) :
    Option (CommandScheduler × Option BusPacket) :=
  ((List.range s.queueCount).foldlM turn ({ s with scheduledCommand := none }, {})).map fun (s, found) =>
    let scheduledCommand := (found.tempCAS.filter (s.isIssuable check)).or
      (found.tempACT.filter (s.isIssuable check))
    match scheduledCommand with
    | some c => (s.issue spec c c.bank, some c)
    | none => (s, none)

def policy : CommandPolicy Unit where
  commandSchedule spec check s _ := (commandSchedule spec check s).map fun r => (r.1, (), r.2)

/-- The command scheduler on its own, telling what it sends and from which queue. -/
def schedule (spec : DeviceSpec) : Scheduling Unit (Option Entry) := fun check s _ =>
  (commandSchedule spec check s).map fun r => (r.1, (), r.2.map fun c => (c, c.bank))

end RTMem
end MCsim
