import MCsim.CommandScheduler

/-!
# The general command schedulers

`CommandScheduler_PUSH`, `CommandScheduler_FCFS` and `CommandScheduler_FRFCFS`. Each scans the queues
for fronts that are ready and issuable, chooses one and sends it.

A `CommandPolicy` is what a subclass adds to the base class: state of its own, and `commandSchedule`,
which gives the command it returns (`NULL` is `none`), or nothing at all where the source
dereferences a null pointer.
-/

namespace MCsim

/-- A command scheduler subclass with private state `κ`. -/
structure CommandPolicy (κ : Type) where
  commandSchedule : DeviceSpec → Answers → CommandScheduler → κ →
    Option (CommandScheduler × κ × Option BusPacket)

namespace CommandScheduler

/-- `if (getSize(critical) > 0) checkCommand = getCommand(critical)`. -/
def look (s : CommandScheduler) (index : Nat) (critical : Bool) :
    CommandScheduler × Option BusPacket :=
  match (s.commandQueue index).getCommand critical with
  | some (c, q) => (s.setQueue index q, some c)
  | none => (s, none)

/-- `isReady` and `isIssuable`: the two questions every scan asks. -/
def canIssue (s : CommandScheduler) (check : Answers) (index : Nat) (c : BusPacket) : Bool :=
  s.isReady c index && s.isIssuable check c

/-- `scheduledCommand = c; sendCommand(scheduledCommand, index, false); return scheduledCommand`. -/
def issue (spec : DeviceSpec) (s : CommandScheduler) (c : BusPacket) (index : Nat) :
    CommandScheduler :=
  { s with scheduledCommand := some c }.sendCommand spec c index false

end CommandScheduler

open CommandScheduler

/-- The fronts of the nonempty requestor buffers of a queue, in the order of `requestorMap`. -/
def CommandQueue.requestorFronts (q : CommandQueue) : List BusPacket :=
  q.requestorMap.filterMap fun id => (q.buffer id).head?

/-! ## PUSH -/

namespace Push

/-- A turn of the first scan: the last front that can be issued is kept. -/
def firstScan (check : Answers) (st : CommandScheduler × Option (BusPacket × Nat)) (index : Nat) :
    CommandScheduler × Option (BusPacket × Nat) :=
  match st.1.look index true with
  | (s, none) => (s, st.2)
  | (s, some c) => (s, if s.canIssue check index c then some (c, index) else st.2)

/-- A turn of the second scan: a front that arrived no later than the one kept replaces it. The
source reads the arrival time of the one kept without asking whether there is one. -/
def secondScan (check : Answers) (st : CommandScheduler × Option (BusPacket × Nat)) (index : Nat) :
    Option (CommandScheduler × Option (BusPacket × Nat)) :=
  match st.1.look index true with
  | (s, none) => some (s, st.2)
  | (s, some c) =>
    if s.canIssue check index c then
      st.2.map fun best =>
        (s, if c.arriveTime ≤ best.1.arriveTime then some (c, index) else some best)
    else some (s, st.2)

/-- `CommandScheduler_PUSH::commandSchedule`. Each turn of the scans clears `scheduledCommand`. -/
def commandSchedule (spec : DeviceSpec) (check : Answers) (s : CommandScheduler) :
    Option (CommandScheduler × Option BusPacket) :=
  let indices := List.range s.queueCount
  (indices.foldlM (secondScan check) (indices.foldl (firstScan check) (s, none))).map fun st =>
    match st.2 with
    | some (c, index) => (st.1.issue spec c index, some c)
    | none =>
      let left := if s.queueCount = 0 then st.1.scheduledCommand else none
      ({ st.1 with scheduledCommand := left }, left)

def policy : CommandPolicy Unit where
  commandSchedule spec check s _ :=
    (commandSchedule spec check s).map fun r => (r.1, (), r.2)

end Push

/-! ## FCFS -/

namespace Fcfs

/-- The scans over a per-requestor queue: the first front that can be issued, replaced by every later
one that arrived no later. Both scans ask the same questions of the same fronts. -/
def ofRequestors (check : Answers) (s : CommandScheduler) (index : Nat) : Option BusPacket :=
  let ready := (s.commandQueue index).requestorFronts.filter (s.canIssue check index)
  ready.head?.map fun c =>
    ready.foldl (fun best c => if c.arriveTime ≤ best.arriveTime then c else best) c

/-- `CommandScheduler_FCFS::commandSchedule` from a queue on: the first queue with a front that can
be issued is served. What is returned when no queue is served is the field `scheduledCommand`, which
only a queue that is not per requestor clears. -/
def scheduleFrom (spec : DeviceSpec) (check : Answers) :
    List Nat → CommandScheduler → CommandScheduler × Option BusPacket
  | [], s => (s, s.scheduledCommand)
  | index :: rest, s =>
    if (s.commandQueue index).isPerRequestor then
      match ofRequestors check s index with
      | some c => (s.issue spec c index, some c)
      | none => scheduleFrom spec check rest s
    else
      match { s with scheduledCommand := none }.look index true with
      | (s, none) => scheduleFrom spec check rest s
      | (s, some c) =>
        if s.canIssue check index c then (s.issue spec c index, some c)
        else scheduleFrom spec check rest s

def commandSchedule (spec : DeviceSpec) (check : Answers) (s : CommandScheduler) :
    CommandScheduler × Option BusPacket :=
  scheduleFrom spec check (List.range s.queueCount) s

def policy : CommandPolicy Unit where
  commandSchedule spec check s _ :=
    let r := commandSchedule spec check s
    some (r.1, (), r.2)

end Fcfs

/-! ## FRFCFS -/

namespace Frfcfs

/-- The later candidate replaces the earlier one only where it arrived strictly before. -/
def older (best c : BusPacket) : BusPacket := if c.arriveTime < best.arriveTime then c else best

/-- The four scans over a per-requestor queue: the oldest column access that can be issued, starting
from the first one; without one, the oldest `ACT` or `PRE`, starting from the last one. -/
def ofRequestors (check : Answers) (s : CommandScheduler) (index : Nat) : Option BusPacket :=
  let ready := (s.commandQueue index).requestorFronts.filter (s.canIssue check index)
  let cas := ready.filter fun c => c.busPacketType.isCas
  let rows := ready.filter fun c => c.busPacketType == .ACT || c.busPacketType == .PRE
  match cas.head? with
  | some c => some (cas.foldl older c)
  | none => rows.getLast?.map fun c => rows.foldl older c

/-- How the scan over general queues replaces its candidate `checkCommand_temp_2`. A column access is
compared by arrival with whatever is kept. -/
def better (best : Option (BusPacket × Nat)) (c : BusPacket) (index : Nat) :
    Option (BusPacket × Nat) :=
  match best with
  | none => some (c, index)
  | some (b, _) =>
    match c.busPacketType with
    | .RD | .WR => if c.arriveTime < b.arriveTime then some (c, index) else best
    | .ACT =>
      if b.busPacketType = .ACT then
        if c.arriveTime < b.arriveTime then some (c, index) else best
      else if b.busPacketType = .PRE then some (c, index) else best
    | .PRE =>
      if b.busPacketType = .PRE ∧ c.arriveTime < b.arriveTime then some (c, index) else best
    | _ => best

/-- The candidate after a queue was looked at. -/
def keep (check : Answers) (s : CommandScheduler) (index : Nat) (best : Option (BusPacket × Nat))
    (front : Option BusPacket) : Option (BusPacket × Nat) :=
  match front with
  | none => best
  | some c => if s.canIssue check index c then better best c index else best

/-- `CommandScheduler_FRFCFS::commandSchedule` from a queue on, with the candidate kept so far. It is
sent at the last queue. -/
def scheduleFrom (spec : DeviceSpec) (check : Answers) :
    List Nat → CommandScheduler → Option (BusPacket × Nat) → CommandScheduler × Option BusPacket
  | [], s, _ => (s, s.scheduledCommand)
  | index :: rest, s, best =>
    if (s.commandQueue index).isPerRequestor then
      match ofRequestors check s index with
      | some c => (s.issue spec c index, some c)
      | none => scheduleFrom spec check rest s best
    else
      let (s, front) := s.look index true
      let best := keep check s index best front
      if index = s.queueCount - 1 then
        match best with
        | some (c, i) => (s.issue spec c i, some c)
        | none => scheduleFrom spec check rest s best
      else scheduleFrom spec check rest s best

def commandSchedule (spec : DeviceSpec) (check : Answers) (s : CommandScheduler) :
    CommandScheduler × Option BusPacket :=
  scheduleFrom spec check (List.range s.queueCount) { s with scheduledCommand := none } none

def policy : CommandPolicy Unit where
  commandSchedule spec check s _ :=
    let r := commandSchedule spec check s
    some (r.1, (), r.2)

end Frfcfs
end MCsim
