import MCsim.Schedulers.Calls

/-!
# The Round command scheduler

`CommandScheduler_Round` serves reads and writes in rounds. It latches the ready front of each
requestor in `tempqueue`, with the requestors in `Order` of their arrival. Where no requestor is
accepted (`consideredScheduled`), the round may turn, or begin anew with every requestor unserved
(`switchRound`). Then it decides whether activations are held back (`holdActivations`), accepts the
requestors whose commands fit the round (`accept`), and sends one command (`choose`, `send_precedure`):
activations before column accesses, precharges last.

The flag arrays have 16 cells, and requestors are below 16; the source leaves them, `blockACT`,
`countACT` and `jump` uninitialised, and here they start cleared. `tempqueue` is a map, walked in the
order of its keys. `signCheck` is unsigned arithmetic read back as a signed number. Every command is
sent from queue 0. The timing `tBUS` is one that no device knows, so it is 0.

Left out: `counter`, which nothing reads, and the locals of the class (`checkB`, `signCheck`,
`checkCommand`), which every reader assigns first.
-/

namespace MCsim

structure RoundState where
  Order : List Nat := []
  OrderPRE : List Nat := List.range 8
  closestatemap : Nat → Bool := fun _ => false
  queuePending : Nat → Bool := fun _ => false
  tempqueue : Nat → Option BusPacket := fun _ => none
  servicebuffer : Nat → Nat := fun _ => 0
  consideredScheduled : Nat → Nat := fun _ => 0
  lastCAScounter : Nat := 0
  countACT : Nat := 0
  time_issued_first_ACT : Nat := 0
  ACTtimer : Nat := 0
  CAStimer : Nat := 0
  blockACT : Bool := false
  first : Bool := true
  jump : Bool := false
  /-- A read round, else a write round. -/
  roundType : Bool := true
  /-- Ghost: how often `clean_buffers` was called. -/
  cleanings : Nat := 0

namespace Round

open CommandScheduler

/-- The length of the flag arrays. -/
def maxRequestors : Nat := 16

def tCCD : Nat := 4

def compensation : Nat := 1

def tWtoR (spec : DeviceSpec) : Nat :=
  spec.constraints.tWL + spec.constraints.tBUS + spec.constraints.tWTR

/-- `f[i] = value`. -/
def assign {α : Type} (f : Nat → α) (i : Nat) (value : α) : Nat → α :=
  fun j => if j = i then value else f j

/-- Accepted and not served yet. -/
def accepted (p : RoundState) (k : Nat) : Bool :=
  p.consideredScheduled k = 1 && p.servicebuffer k = 0

/-- Neither accepted nor served. -/
def fresh (p : RoundState) (k : Nat) : Bool :=
  p.consideredScheduled k = 0 && p.servicebuffer k = 0

/-- The latched command of a requestor is of a type. -/
def latchedAs (p : RoundState) (k : Nat) (t : BusPacketType) : Bool :=
  (p.tempqueue k).any fun c => c.busPacketType = t

/-- The latched commands, in the order of their requestors. -/
def latched (p : RoundState) : List BusPacket := (List.range maxRequestors).filterMap p.tempqueue

/-- The activation of a kind of round, and its column access. -/
def roundACT (read : Bool) : BusPacketType := if read then .ACT_R else .ACT_W

def roundCAS (read : Bool) : BusPacketType := if read then .RD else .WR

def clean_buffers (p : RoundState) : RoundState :=
  { p with
    servicebuffer := fun i => if i < maxRequestors then 0 else p.servicebuffer i
    consideredScheduled := fun i => if i < maxRequestors then 0 else p.consideredScheduled i
    blockACT := false
    countACT := 0
    ACTtimer := 0
    first := true
    cleanings := p.cleanings + 1 }

/-! ## Timers and latching -/

/-- What a call does first. -/
def countdown (p : RoundState) : RoundState :=
  { p with
    blockACT := false
    CAStimer := p.CAStimer - 1
    ACTtimer := p.ACTtimer - 1
    time_issued_first_ACT := (p.time_issued_first_ACT + 1) % 2 ^ 32 }

/-- A ready front is latched. A column access whose activation stands in `Order` adds no place of its
own there, and a precharge never does. -/
def latchCommand (p : RoundState) (c : BusPacket) : RoundState :=
  let k := c.requestorID
  let p := { p with queuePending := assign p.queuePending k true, tempqueue := assign p.tempqueue k c }
  match c.busPacketType with
  | .ACT_R | .ACT_W =>
    { p with closestatemap := assign p.closestatemap k true, Order := p.Order ++ [k] }
  | .RD | .WR => if p.closestatemap k then p else { p with Order := p.Order ++ [k] }
  | _ => p

/-- The turn of one requestor of a queue. -/
def latchFront (s : CommandScheduler) (index : Nat) (p : RoundState) (num : Nat) : RoundState :=
  match (s.commandQueue index).getRequestorCommand num with
  | none => p
  | some c => if !p.queuePending c.requestorID && s.isReady c index then latchCommand p c else p

/-- The turn of one queue. -/
def latchQueue (s : CommandScheduler) (p : RoundState) (index : Nat) : RoundState :=
  (List.range (s.commandQueue index).getRequestorIndex).foldl (latchFront s index) p

def latch (s : CommandScheduler) (p : RoundState) : RoundState :=
  (List.range s.queueCount).foldl (latchQueue s) p

/-! ## Switching the round -/

/-- The timers at a turn of the round: the rest of the turnaround time, or what suits the command that
turns it. -/
def turnTimers (spec : DeviceSpec) (clock gap : Nat) (p : RoundState) (c : BusPacket) : RoundState :=
  if clock - p.lastCAScounter < gap then { p with CAStimer := gap - (clock - p.lastCAScounter) }
  else if c.busPacketType = .ACT_R ∨ c.busPacketType = .ACT_W then
    { p with CAStimer := 0, ACTtimer := spec.constraints.tRRD }
  else { p with CAStimer := tCCD }

/-- A latched command in the loop that turns a read round. -/
def turnToWrite (spec : DeviceSpec) (clock : Nat) (p : RoundState) (c : BusPacket) : RoundState :=
  if c.busPacketType = .ACT_W ∨ c.busPacketType = .WR then
    { turnTimers spec clock spec.constraints.tRTW { clean_buffers p with roundType := false } c with
      jump := true }
  else p

/-- A latched command in the loop that turns a write round. Whatever the turnaround left in
`CAStimer` is cleared. -/
def turnToRead (spec : DeviceSpec) (clock : Nat) (p : RoundState) (c : BusPacket) : RoundState :=
  if c.busPacketType = .ACT_R ∨ c.busPacketType = .RD then
    { turnTimers spec clock (tWtoR spec) { clean_buffers p with roundType := true } c with
      CAStimer := 0
      jump := true }
  else p

/-- A latched command in the loop that begins the same round anew. -/
def restart (read : Bool) (p : RoundState) (c : BusPacket) : RoundState :=
  if c.busPacketType = roundCAS read ∨ c.busPacketType = roundACT read then clean_buffers p else p

/-- No requestor is accepted: `checkC == 0`. -/
def noneConsidered (p : RoundState) : Bool :=
  (List.range maxRequestors).all fun i => p.consideredScheduled i ≠ 1

def switchRound (spec : DeviceSpec) (clock : Nat) (p : RoundState) : RoundState :=
  if noneConsidered p then
    let turned :=
      if p.roundType then (latched p).foldl (turnToWrite spec clock) p
      else (latched p).foldl (turnToRead spec clock) p
    let turned := if turned.jump then turned else (latched p).foldl (restart p.roundType) turned
    { turned with jump := false }
  else p

/-! ## Holding activations back -/

/-- An accepted requestor has its activation latched. -/
def checkA (p : RoundState) : Bool :=
  p.Order.any fun k => accepted p k && latchedAs p k (roundACT p.roundType)

/-- How many accepted requestors are in `Order`. -/
def checkB (p : RoundState) : Nat := p.Order.countP (accepted p)

/-- How many fresh requestors in `Order` have a read latched, in a write round as well. -/
def checkD (p : RoundState) : Nat := p.Order.countP fun k => fresh p k && latchedAs p k .RD

/-- The slack of the column accesses over an activation that would start now. -/
def signCheck (spec : DeviceSpec) (p : RoundState) : Int :=
  ((((checkB p + checkD p) * tCCD + p.CAStimer : Nat) : Int) - spec.constraints.tRCD -
    compensation).bmod (2 ^ 32)

def holdActivations (spec : DeviceSpec) (p : RoundState) : RoundState :=
  if p.ACTtimer = 0 ∧ p.first = false ∧ checkA p = false then
    { p with blockACT := signCheck spec p < 0 }
  else p

/-! ## Accepting -/

/-- `if (!blockACT) consideredScheduled[k] = 1`. -/
def consider (p : RoundState) (k : Nat) : RoundState :=
  if p.blockACT then p else { p with consideredScheduled := assign p.consideredScheduled k 1 }

/-- A requestor in the inner loop, which accepts activations. -/
def acceptRow (act : BusPacketType) (p : RoundState) (k : Nat) : RoundState :=
  if latchedAs p k act && fresh p k then consider p k else p

/-- A requestor in the outer loop. A column access takes the activations along. -/
def acceptTurn (p : RoundState) (k : Nat) : RoundState :=
  if fresh p k then
    if latchedAs p k (roundACT p.roundType) then consider p k
    else if latchedAs p k (roundCAS p.roundType) then
      consider (p.Order.foldl (acceptRow (roundACT p.roundType)) p) k
    else p
  else p

def accept (p : RoundState) : RoundState := p.Order.foldl acceptTurn p

/-! ## Sending -/

/-- What is chosen: the command, its requestor and a position. -/
structure Choice where
  command : BusPacket
  RR : Nat
  i : Nat

/-- An activation of the round, at a position of `Order`. -/
def rowChoice (check : Answers) (s : CommandScheduler) (p : RoundState) (place : Nat × Nat) :
    Option Choice :=
  (p.tempqueue place.1).bind fun c =>
    if c.busPacketType = roundACT p.roundType ∧ p.servicebuffer place.1 = 0 ∧ p.blockACT = false ∧
        s.isIssuable check c then
      some ⟨c, place.1, place.2⟩
    else none

/-- A column access of the round. Its inner loop prefers any activation to it. -/
def casChoice (check : Answers) (s : CommandScheduler) (p : RoundState) (place : Nat × Nat) :
    Option Choice :=
  (p.tempqueue place.1).bind fun c =>
    if c.busPacketType = roundCAS p.roundType ∧ p.servicebuffer place.1 = 0 then
      (p.Order.zipIdx.findSome? (rowChoice check s p)).or
        (if p.consideredScheduled place.1 = 1 ∧ s.isIssuable check c then some ⟨c, place.1, place.2⟩
        else none)
    else none

/-- A precharge, at a position of `OrderPRE`. -/
def preChoice (check : Answers) (s : CommandScheduler) (p : RoundState) (place : Nat × Nat) :
    Option Choice :=
  (p.tempqueue place.1).bind fun c =>
    if c.busPacketType = .PRE ∧ s.isIssuable check c then some ⟨c, place.1, place.2⟩ else none

/-- The loop over `Order`. -/
def chooseRound (check : Answers) (s : CommandScheduler) (p : RoundState) : Option Choice :=
  p.Order.zipIdx.findSome? fun place => (rowChoice check s p place).or (casChoice check s p place)

/-- The loop over `OrderPRE`. -/
def choosePRE (check : Answers) (s : CommandScheduler) (p : RoundState) : Option Choice :=
  p.OrderPRE.zipIdx.findSome? (preChoice check s p)

/-- The timer an activation starts. The fourth one closes the window if it is still open; else it
leaves everything as it is. -/
def countActivation (spec : DeviceSpec) (p : RoundState) : RoundState :=
  if p.countACT = 0 then
    { p with time_issued_first_ACT := 0, ACTtimer := spec.constraints.tRRD, countACT := 1 }
  else if p.countACT = 3 then
    if p.time_issued_first_ACT < spec.constraints.tFAW then
      { p with
        ACTtimer := spec.constraints.tFAW - p.time_issued_first_ACT
        countACT := 0
        time_issued_first_ACT := 0 }
    else p
  else { p with ACTtimer := spec.constraints.tRRD, countACT := p.countACT + 1 }

/-- The bookkeeping of `send_precedure` for a command. -/
def settle (spec : DeviceSpec) (clock : Nat) (p : RoundState) (chosen : Choice) (pre : Bool) :
    RoundState :=
  if pre then { p with OrderPRE := p.OrderPRE.eraseIdx chosen.i ++ [chosen.RR] }
  else match chosen.command.busPacketType with
    | .ACT_R | .ACT_W => countActivation spec { p with first := false }
    | .RD | .WR =>
      { p with
        Order := p.Order.eraseIdx chosen.i
        lastCAScounter := clock
        CAStimer := tCCD
        first := false
        closestatemap := assign p.closestatemap chosen.command.requestorID false
        servicebuffer := assign p.servicebuffer chosen.RR 1
        consideredScheduled := assign p.consideredScheduled chosen.RR 0 }
    | _ => p

def send_precedure (spec : DeviceSpec) (s : CommandScheduler) (p : RoundState) (chosen : Choice)
    (pre : Bool) : CommandScheduler × RoundState × Option BusPacket :=
  let p := settle spec s.clock p chosen pre
  (s.issue spec chosen.command 0,
    { p with
      tempqueue := assign p.tempqueue chosen.RR none
      queuePending := assign p.queuePending chosen.command.requestorID false },
    some chosen.command)

/-- A call up to the choice of a command. -/
def prepare (spec : DeviceSpec) (s : CommandScheduler) (p : RoundState) : RoundState :=
  accept (holdActivations spec (switchRound spec s.clock (latch s (countdown p))))

/-- The rest of the call. -/
def send (spec : DeviceSpec) (check : Answers) (s : CommandScheduler) (p : RoundState) :
    CommandScheduler × RoundState × Option BusPacket :=
  match chooseRound check s p with
  | some chosen => send_precedure spec s p chosen false
  | none =>
    match choosePRE check s p with
    | some chosen => send_precedure spec s p chosen true
    | none => (s, p, none)

/-- `CommandScheduler_Round::commandSchedule`. -/
def schedule (spec : DeviceSpec) : Scheduling RoundState (Option BusPacket) := fun check s p =>
  some (send spec check { s with scheduledCommand := none } (prepare spec s p))

def policy : CommandPolicy RoundState where
  commandSchedule spec := schedule spec

end Round
end MCsim
