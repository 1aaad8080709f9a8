import MCsim.Lib.Rotation
import MCsim.Schedulers.Calls

/-!
# The MAG command scheduler

`CommandScheduler_MAG` serves critical commands before the others. Its real-time loop turns over the
queues from `indexRT` on; a column access that is ready but refused by the device blocks everything
until it goes (`casBlocking`). A critical command that meets non-critical ones calls the preemption
generator, which queues commands that are to restore what the non-critical ones need. If no critical
command goes, the high-performance loop turns over the queues from `indexHP` on, and serves these
compensation commands and the non-critical fronts.

Both loops share the variable `tempCmd`, and the second one takes over what the first one left there.
The real-time loop asks the generator for the queue at the number of the turn, not for the queue whose
turn it is.

A candidate carries where it came from; the source's `compCommand` says whether it is a compensation
command. `bypass` is false between two calls, and `compensateCommands` has a list for each queue.
-/

namespace MCsim

/-- What MAG adds to the base class. -/
structure MagState where
  indexRT : Nat := 0
  indexHP : Nat := 0
  casBlocking : Bool := false
  compensateCommands : Nat → List BusPacket := fun _ => []

/-- Where a candidate came from: the critical buffer of a queue, the other one, or the compensation
commands. -/
inductive Origin where
  | realTime | highPerformance | compensation
  deriving DecidableEq, Repr

abbrev Candidate := BusPacket × Origin

namespace Mag

open CommandScheduler

/-- `commandSchedule` on its way. -/
structure Pass where
  scheduler : CommandScheduler
  own : MagState
  tempCmd : Option Candidate := none
  scheduledCommand : Option Candidate := none

/-! ## The preemption generator -/

/-- What the generator queues for a non-critical front. The row is 0, whatever row the front is for. -/
def compensationFor (c : BusPacket) : List BusPacket :=
  if c.busPacketType.beforeACT then
    [RefreshMachine.refreshCommand .PRE 0 c.bank c.rank,
      RefreshMachine.refreshCommand .ACT 0 c.bank c.rank]
  else if c.busPacketType = .ACT then [RefreshMachine.refreshCommand .PRE 0 c.bank c.rank]
  else []

def compensateGenerator (t : Pass) (queueIndex : Nat) : Pass :=
  match t.scheduler.look queueIndex false with
  | (_, none) => t
  | (s, some c) =>
    { t with
      scheduler := s
      own := { t.own with
        compensateCommands := fun i =>
          if i = queueIndex then t.own.compensateCommands i ++ compensationFor c
          else t.own.compensateCommands i } }

/-! ## The real-time loop -/

/-- What a turn does with a critical front. -/
def offer (check : Answers) (t : Pass) (c : BusPacket) : Pass :=
  let t := { t with tempCmd := some (c, .realTime) }
  if t.own.casBlocking then
    if t.scheduler.isIssuable check c then
      { t with
        scheduledCommand := some (c, .realTime)
        own := { t.own with casBlocking := false } }
    else t
  else if t.scheduler.isReady c t.own.indexRT then
    if t.scheduler.isIssuable check c then { t with scheduledCommand := some (c, .realTime) }
    else if c.busPacketType.beforeACT then { t with own := { t.own with casBlocking := true } }
    else t
  else t

/-- The first half of a turn. A blocked loop does not ask whether its queue has a front: without one
the source aborts. -/
def lookRT (check : Answers) (t : Pass) : Option Pass :=
  match t.scheduler.look t.own.indexRT true with
  | (s, some c) => some (offer check { t with scheduler := s } c)
  | (_, none) => if t.own.casBlocking then none else some t

/-- A turn calls the generator: a critical command was seen, the queue has non-critical ones, and the
queue at the number of the turn has no compensation pending. -/
def enters (t : Pass) (index : Nat) : Bool :=
  t.tempCmd.isSome && decide ((t.scheduler.commandQueue t.own.indexRT).getSize false > 0) &&
    (t.own.compensateCommands index).isEmpty

/-- A turn up to where the index moves on. -/
def turnRT (check : Answers) (t : Pass) (index : Nat) : Option Pass :=
  (lookRT check t).map fun t => if enters t index then compensateGenerator t index else t

def advanceRT (t : Pass) : Pass :=
  { t with own := { t.own with indexRT := Lib.Rotation.next t.scheduler.queueCount t.own.indexRT } }

/-- The loop, over the numbers of its turns. -/
def realTime (check : Answers) : List Nat → Pass → Option Pass
  | [], t => some t
  | index :: rest, t => (turnRT check t index).bind fun t =>
    if t.own.casBlocking then some t
    else if t.scheduledCommand.isSome then some (advanceRT t)
    else realTime check rest (advanceRT t)

/-! ## The high-performance loop -/

/-- The candidate of a turn: a compensation command, else the non-critical front, else the candidate
of the turn before. -/
def lookHP (t : Pass) : Pass :=
  match t.own.compensateCommands t.own.indexHP with
  | c :: _ => { t with tempCmd := some (c, .compensation) }
  | [] =>
    match t.scheduler.look t.own.indexHP false with
    | (_, none) => t
    | (s, some c) => { t with scheduler := s, tempCmd := some (c, .highPerformance) }

def advanceHP (t : Pass) : Pass :=
  { t with own := { t.own with indexHP := Lib.Rotation.next t.scheduler.queueCount t.own.indexHP } }

/-- A candidate is taken. A compensation command leaves the list of the queue whose turn it is;
erasing from an empty one is undefined. -/
def take (t : Pass) (e : Candidate) : Option Pass :=
  let taken := advanceHP { t with scheduledCommand := some e }
  if e.2 = .compensation then
    match t.own.compensateCommands t.own.indexHP with
    | [] => none
    | _ :: rest => some
      { taken with
        own := { taken.own with
          compensateCommands := fun i =>
            if i = t.own.indexHP then rest else t.own.compensateCommands i } }
  else some taken

/-- The loop, over as many turns as there are queues. Without any candidate the index stays. -/
def highPerformance (check : Answers) : Nat → Pass → Option Pass
  | 0, t => some t
  | turns + 1, t =>
    let t := lookHP t
    match t.tempCmd with
    | none => highPerformance check turns t
    | some e =>
      if t.scheduler.isIssuable check e.1 then take t e
      else highPerformance check turns (advanceHP t)

/-! ## A call -/

/-- The end of a call. The command leaves the queue of its bank, unless it is a compensation command;
without such a queue the source is undefined. -/
def send (spec : DeviceSpec) (t : Pass) : Option (CommandScheduler × MagState × Option Candidate) :=
  match t.scheduledCommand with
  | none => some (t.scheduler, t.own, none)
  | some (c, origin) =>
    if c.bank < t.scheduler.queueCount then
      some ({ t.scheduler with scheduledCommand := some c }.sendCommand spec c c.bank
        (decide (origin = Origin.compensation)), t.own, some (c, origin))
    else none

/-- The loops of a call. -/
def choose (check : Answers) (s : CommandScheduler) (p : MagState) : Option Pass :=
  (realTime check (List.range s.queueCount)
      { scheduler := { s with scheduledCommand := none }, own := p }).bind fun t =>
    if t.scheduledCommand.isNone && !t.own.casBlocking then highPerformance check s.queueCount t
    else some t

/-- `CommandScheduler_MAG::commandSchedule`, with the origin of what it returns. -/
def schedule (spec : DeviceSpec) : Scheduling MagState (Option Candidate) := fun check s p =>
  (choose check s p).bind (send spec)

def policy : CommandPolicy MagState where
  commandSchedule spec check s p :=
    (schedule spec check s p).map fun (s, p, sent) => (s, p, sent.map (·.1))

end Mag
end MCsim
