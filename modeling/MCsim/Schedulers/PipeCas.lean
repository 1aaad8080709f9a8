import MCsim.Generators
import MCsim.Schedulers.Calls

/-!
# The PipeCAS command scheduler

`CommandScheduler_PIPECAS` serves critical requestors in rounds. A round begins with a snapshot: the
queues that hold a column access of the round's type are entered in `queueScheduled`, once for each such
access. During the round the fronts of these queues are latched, activations before column accesses,
until each queue had a column access sent. The other requestors' commands are latched apart and fill in.

The round's type is the one other than that of the last column access if any queue holds a column access
of it. The snapshot looks for the type throughout a queue; what is sent is its front.

`srtRD` and `srtWR` have no value before the first round; what they start with is arbitrary. Left out:
`srtN_ACT`, which is written only.
-/

namespace MCsim

/-- What PipeCAS adds to the base class. -/
structure PipeCasState where
  roundType : BusPacketType := .RDA
  roundSRT : BusPacketType := .RD
  srtNum_ACT : Nat := 0
  roundStart : Bool := false
  prevCAS : BusPacketType := .WRA
  casCounter : Nat := 0
  actCounter : Nat := 0
  fawCounter : List Nat := []
  queueScheduled : List Nat := []
  queueServed : Nat → Bool := fun _ => false
  hrtCAS : List Entry := []
  hrtACT : List Entry := []
  queuePending : Nat → Bool := fun _ => false
  srtCAS : List Entry := []
  srtACT : List Entry := []
  srtPRE : List Entry := []
  srtRD : Nat
  srtWR : Nat

namespace PipeCas

open CommandScheduler

/-- `commandSchedule` on its way: `scheduledCommand` with `scheduledIndex`. -/
structure Pass where
  scheduler : CommandScheduler
  own : PipeCasState
  scheduled : Option Entry := none

/-- `queuePending[index] = value`. -/
def setPending (p : PipeCasState) (index : Nat) (value : Bool) : PipeCasState :=
  { p with queuePending := fun i => if i = index then value else p.queuePending i }

/-! ## Taking a latched command -/

/-- The front of a list of latched commands, if the device takes it. -/
def takeFront (can : BusPacket → Bool) : List Entry → Option (Entry × List Entry)
  | [] => none
  | e :: rest => if can e.1 then some (e, rest) else none

def schedule_HRT_ACT (check : Answers) (t : Pass) : Pass :=
  match takeFront (t.scheduler.isIssuable check) t.own.hrtACT with
  | some (e, rest) => { t with scheduled := some e, own := { t.own with hrtACT := rest } }
  | none => t

/-- The queue counts as served when its column access is sent. -/
def schedule_HRT_CAS (check : Answers) (t : Pass) : Pass :=
  match takeFront (t.scheduler.isIssuable check) t.own.hrtCAS with
  | some (e, rest) =>
    { t with
      scheduled := some e
      own := { t.own with
        hrtCAS := rest
        queueServed := fun i => if i = e.2 then true else t.own.queueServed i } }
  | none => t

def schedule_SRT_ACT (check : Answers) (t : Pass) : Pass :=
  match takeFront (t.scheduler.isIssuable check) t.own.srtACT with
  | some (e, rest) => { t with scheduled := some e, own := { t.own with srtACT := rest } }
  | none => t

def schedule_SRT_PRE (check : Answers) (t : Pass) : Pass :=
  match takeFront (t.scheduler.isIssuable check) t.own.srtPRE with
  | some (e, rest) => { t with scheduled := some e, own := { t.own with srtPRE := rest } }
  | none => t

/-- The first column access of `roundSRT` that the device takes. -/
def schedule_SRT_CAS (check : Answers) (t : Pass) : Pass :=
  let can := fun e : Entry =>
    t.scheduler.isIssuable check e.1 && decide (e.1.busPacketType = t.own.roundSRT)
  match Lib.Scan.firstThat can t.own.srtCAS with
  | some (index, e) =>
    { t with scheduled := some e, own := { t.own with srtCAS := t.own.srtCAS.eraseIdx index } }
  | none => t

/-- `if (scheduledCommand == NULL)`. -/
def unlessScheduled (t : Pass) (next : Pass → Pass) : Pass := if t.scheduled.isNone then next t else t

/-! ## The stop point of the other column accesses -/

/-- Subtraction of `unsigned`. -/
def sub32 (a b : Nat) : Nat := (a + (2 ^ 32 - b % 2 ^ 32)) % 2 ^ 32

/-- `exeACT`: computed in `double` and converted to `unsigned`, which is undefined where it does not
fit. -/
def exeACT (num : Nat) : Option Nat :=
  let value := 5 * sub32 num 1 % 2 ^ 32 + sub32 num 1 / 4 * 4
  if value < 2 ^ 32 then some value else none

/-- `max(0, int(value))` of an `unsigned` value. -/
def positive (value : Nat) : Nat := if value < 2 ^ 31 then value else 0

def tCAS_SRT (read : Bool) (num srtNum : Nat) : Option Nat :=
  (exeACT num).bind fun own =>
    (exeACT ((num + srtNum) % 2 ^ 32)).map fun all =>
      let first := positive (sub32 (if read then 15 else 21) (4 * sub32 num 1))
      sub32 (max ((first + own) % 2 ^ 32) all + 9) (5 * sub32 num 1 + 4)

/-! ## The phases of a call -/

/-- The turn of a queue at the start: the front of a requestor that is not critical is latched. -/
def bufferSRT (st : CommandScheduler × PipeCasState) (index : Nat) : CommandScheduler × PipeCasState :=
  if st.2.queuePending index then st
  else match st.1.look index false with
    | (s, none) => (s, st.2)
    | (s, some c) =>
      if s.isReady c index then
        let p := setPending st.2 index true
        if c.busPacketType = .ACT then (s, { p with srtACT := p.srtACT ++ [(c, index)] })
        else if c.busPacketType.beforeACT then (s, { p with srtCAS := p.srtCAS ++ [(c, index)] })
        else (s, { p with srtPRE := p.srtPRE ++ [(c, index)] })
      else (s, st.2)

/-- The critical commands of a queue, none while one is pending. -/
def unlatched (s : CommandScheduler) (p : PipeCasState) (index : Nat) : List BusPacket :=
  if p.queuePending index then [] else (s.commandQueue index).hrtBuffer

/-- The turn of a queue in the search for the type: its first column access of a type other than that
of the last one sent. -/
def typeTurn (s : CommandScheduler) (p : PipeCasState) (type : BusPacketType) (index : Nat) :
    BusPacketType :=
  match (unlatched s p index).find? fun c =>
      c.busPacketType.beforeACT && decide (c.busPacketType ≠ p.prevCAS) with
  | some c => c.busPacketType
  | none => type

/-- The round's type: that of the last column access sent, unless no round is on and some queue holds a
column access of another. -/
def nextType (s : CommandScheduler) (p : PipeCasState) : BusPacketType :=
  if p.queueScheduled.isEmpty then (List.range s.queueCount).foldl (typeTurn s p) p.prevCAS
  else p.prevCAS

/-- The type, and whether a round is due. -/
def enterRound (s : CommandScheduler) (p : PipeCasState) : PipeCasState :=
  { p with
    roundType := nextType s p
    roundStart := p.roundStart ||
      p.queueScheduled.isEmpty && (List.range s.queueCount).any fun index => !(unlatched s p index).isEmpty }

/-- The snapshot: a queue is entered once for each command of the type. -/
def snapshot (s : CommandScheduler) (p : PipeCasState) (type : BusPacketType) : List Nat :=
  (List.range s.queueCount).flatMap fun index =>
    ((unlatched s p index).filter fun c => c.busPacketType = type).map fun _ => index

/-- A round begins when one is due and activations are free again. -/
def beginRound (check : Answers) (t : Pass) : Option Pass :=
  if t.own.roundStart && t.own.queueScheduled.isEmpty then
    let p := { t.own with
      srtRD := 0
      srtWR := 0
      roundSRT := if t.own.roundType = .RDA then .RD else .WR
      srtNum_ACT := 0 }
    if p.actCounter = 0 then
      let queues := snapshot t.scheduler p p.roundType
      (tCAS_SRT (p.roundType = .RDA) (queues.length % 2 ^ 32) p.srtNum_ACT).map fun casCounter =>
        { t with own := { p with queueScheduled := queues, casCounter := casCounter } }
    else
      some (unlessScheduled (schedule_SRT_CAS check { t with own := p }) (schedule_SRT_PRE check))
  else some t

/-- The turn of an entry of `queueScheduled`: the front of its queue is latched. The source aborts where
there is none. -/
def latchHRT (st : CommandScheduler × PipeCasState) (index : Nat) :
    Option (CommandScheduler × PipeCasState) :=
  if !st.2.queuePending index && !st.2.queueServed index then
    match st.1.look index true with
    | (_, none) => none
    | (s, some c) =>
      if s.isReady c index then
        let p := setPending st.2 index true
        if c.busPacketType = .ACT then some (s, { p with hrtACT := p.hrtACT ++ [(c, index)] })
        else if c.busPacketType.beforeACT then some (s, { p with hrtCAS := p.hrtCAS ++ [(c, index)] })
        else some (s, p)
      else some (s, st.2)
  else some st

/-- The choice within a round. -/
def chooseInRound (check : Answers) (t : Pass) : Pass :=
  let t :=
    if t.own.srtNum_ACT > 0 then
      if t.own.actCounter = 0 then
        unlessScheduled
          (schedule_SRT_ACT check { t with own := { t.own with srtNum_ACT := t.own.srtNum_ACT - 1 } })
          (schedule_HRT_ACT check)
      else t
    else schedule_HRT_ACT check t
  let t := unlessScheduled t fun t =>
    if t.own.casCounter > 0 then unlessScheduled (schedule_SRT_CAS check t) (schedule_HRT_CAS check)
    else schedule_HRT_CAS check t
  unlessScheduled t (schedule_SRT_PRE check)

/-- A round is done when every queue of it is served. -/
def closeRound (p : PipeCasState) : PipeCasState :=
  if p.queueScheduled.all p.queueServed then
    { p with roundStart := false, queueScheduled := [], queueServed := fun _ => false }
  else p

def serveRound (check : Answers) (t : Pass) : Option Pass :=
  if t.own.queueScheduled.isEmpty then some t
  else (t.own.queueScheduled.foldlM latchHRT (t.scheduler, t.own)).map fun st =>
    let t := chooseInRound check { t with scheduler := st.1, own := st.2 }
    { t with own := closeRound t.own }

/-- The choice where no round is on or due. -/
def outOfRound (check : Answers) (t : Pass) : Pass :=
  if t.own.queueScheduled.isEmpty && !t.own.roundStart && t.scheduled.isNone then
    let p := t.own
    let p := if p.srtRD = 10 then { p with roundSRT := .WR, srtRD := 0 } else p
    let p := if p.srtWR = 10 then { p with roundSRT := .RD, srtWR := 0 } else p
    let t := schedule_SRT_CAS check { t with own := p }
    unlessScheduled (unlessScheduled t (schedule_SRT_ACT check)) (schedule_SRT_PRE check)
  else t

/-- What is noted of a command that is sent. -/
def note (k : Constraints) (p : PipeCasState) (e : Entry) : PipeCasState :=
  let p := setPending p e.2 false
  let type := e.1.busPacketType
  if type = .ACT then
    let fawCounter := p.fawCounter ++ [k.tFAW]
    { p with
      fawCounter := fawCounter
      actCounter := if fawCounter.length = 4 then max k.tRRD (fawCounter.head?.getD 0) else k.tRRD }
  else if type.beforeACT then
    if type = .RDA ∨ type = .RD then
      { p with
        prevCAS := .RDA
        srtRD := if type = .RD ∧ p.roundStart = false then (p.srtRD + 1) % 2 ^ 32 else p.srtRD }
    else
      { p with
        prevCAS := .WRA
        srtWR := if type = .WR ∧ p.roundStart = false then (p.srtWR + 1) % 2 ^ 32 else p.srtWR }
  else p

/-- The counters at the end of a call. -/
def countDown (p : PipeCasState) : PipeCasState :=
  let fawCounter := p.fawCounter.map fun n => sub32 n 1
  { p with
    actCounter := p.actCounter - 1
    casCounter := p.casCounter - 1
    fawCounter := if fawCounter.head? = some 0 then fawCounter.tail else fawCounter }

def finish (spec : DeviceSpec) (t : Pass) : CommandScheduler × PipeCasState × Option Entry :=
  match t.scheduled with
  | none => ({ t.scheduler with scheduledCommand := none }, countDown t.own, none)
  | some e => (t.scheduler.issue spec e.1 e.2, countDown (note spec.constraints t.own e), some e)

/-- `CommandScheduler_PIPECAS::commandSchedule`. -/
def schedule (spec : DeviceSpec) : Scheduling PipeCasState (Option Entry) := fun check s p =>
  let st := (List.range s.queueCount).foldl bufferSRT (s, p)
  (beginRound check { scheduler := st.1, own := enterRound st.1 st.2 }).bind fun t =>
    (serveRound check t).map fun t => finish spec (outOfRound check t)

def policy : CommandPolicy PipeCasState where
  commandSchedule spec check s p := (schedule spec check s p).map fun r => (r.1, r.2.1, r.2.2.map (·.1))

/-! ## Calls -/

/-- What the scheduler is asked to do where every requestor is critical. The two commands of a request
are queued in one cycle, before the scheduler is asked. -/
inductive PipeCall where
  | request (request : Request)
  | refresh (check : Answers)
  | commandSchedule (check : Answers)
  | tick

/-- The commands that the generator makes of a request, in the queue of its bank. -/
def insertRequest (s : CommandScheduler) (request : Request) : CommandScheduler :=
  (CommandGenerator.pipeCommands true request false).foldl
    (fun s c => s.insertCommand request.bank c true) s

/-- One call, with the command sent and its queue. A request for a bank without a queue is undefined. -/
def step (spec : DeviceSpec) :
    Lib.Machine.Step (CommandScheduler × PipeCasState) PipeCall (Option Entry)
  | (s, p), .request request =>
    if request.bank < s.queueCount then some ((insertRequest s request, p), none) else none
  | (s, p), .refresh check => some ((s.refresh spec check, p), none)
  | (s, p), .commandSchedule check => (schedule spec check s p).map fun r => ((r.1, r.2.1), r.2.2)
  | (s, p), .tick => some ((s.tick, p), none)

end PipeCas
end MCsim
