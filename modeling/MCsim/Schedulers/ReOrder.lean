import MCsim.Schedulers.Calls

/-!
# The ReOrder command scheduler

`CommandScheduler_ReOrder` registers the ready front of each queue, and bundles column accesses of one
type: in a round every bank is served once, and the type switches only when nothing of the current one
is left to serve. A call registers (`register`, `fillChannels`), looks whether a new round or the
other type is due (`survey`, `renew`), and sends: a column access of the bundle, else an `ACT`, else a
`PRE` (`choose`, `send`).

Requestors that are not critical would go through virtual channels, of which the constructor makes
none; they are then served only where nothing is registered.

`servedFlags` and `queuePending` are vectors with a cell for each queue (and channel); a position past
them is undefined in the source, and no run of interest has one. `indexCAS`, `indexACT` and `indexPRE`
are never read and are left out.
-/

namespace MCsim

structure ReOrderState where
  commandRegisters : List Entry := []
  servedFlags : Nat → Bool := fun _ => false
  queuePending : Nat → Bool := fun _ => false
  virChannelRegister : List Bool := []
  srtFIFO : List Entry := []
  bundlingType : BusPacketType := .WR
  /-- An absent entry reads 0. -/
  virMap : Nat → Nat := fun _ => 0

namespace ReOrder

open CommandScheduler

variable (requestorCriticalTable : Nat → Bool)

/-! ## Registering -/

/-- `queuePending[index] = value`. -/
def setPending (p : ReOrderState) (index : Nat) (value : Bool) : ReOrderState :=
  { p with queuePending := fun i => if i = index then value else p.queuePending i }

/-- The turn of one queue. A critical command is registered under its bank. -/
def register (st : CommandScheduler × ReOrderState) (index : Nat) :
    CommandScheduler × ReOrderState :=
  let (s, p) := st
  match s.freeFront (p.queuePending index) index with
  | (s, none) => (s, p)
  | (s, some c) =>
    if s.isReady c index then
      (s, setPending
        (if requestorCriticalTable c.requestorID then
          { p with commandRegisters := p.commandRegisters ++ [(c, c.bank)] }
        else { p with srtFIFO := p.srtFIFO ++ [(c, index)] }) index true)
    else (s, p)

/-- The turn of one virtual channel. -/
def fillChannel (queueCount : Nat) (p : ReOrderState) (index : Nat) : ReOrderState :=
  match p.virChannelRegister[index]?, p.srtFIFO with
  | some false, e :: rest =>
    { p with
      commandRegisters := p.commandRegisters ++ [e]
      virMap := fun id => if id = e.1.requestorID then queueCount + index else p.virMap id
      virChannelRegister := p.virChannelRegister.set index true
      srtFIFO := rest }
  | _, _ => p

/-! ## Round and type -/

/-- The cell of `servedFlags` that the survey reads for a register. -/
def surveyCell (p : ReOrderState) (e : Entry) : Nat :=
  if requestorCriticalTable e.1.requestorID then e.2 else p.virMap e.1.requestorID

/-- The cell that the choice reads and sending sets: the command's bank in place of the register's. -/
def serveCell (p : ReOrderState) (c : BusPacket) : Nat :=
  if requestorCriticalTable c.requestorID then c.bank else p.virMap c.requestorID

/-- The flags of the survey. -/
structure Survey where
  newRound : Bool := true
  newType : Bool := true
  newCAS : Bool := false
  haveCAS : Bool := false

/-- The survey of the registers, left at the first column access of the current type not served. -/
def survey (p : ReOrderState) : List Entry → Survey → Survey
  | [], v => v
  | e :: rest, v =>
    if e.1.busPacketType.beforeACT then
      let v := { v with haveCAS := true }
      if p.servedFlags (surveyCell requestorCriticalTable p e) = false then
        if e.1.busPacketType = p.bundlingType then { v with newRound := false, newType := false }
        else survey p rest { v with newRound := false, newCAS := true }
      else survey p rest v
    else survey p rest v

/-- The new round and the switch of the type. -/
def renew (queueCount : Nat) (p : ReOrderState) : ReOrderState :=
  if p.commandRegisters.isEmpty then p
  else
    let v := survey requestorCriticalTable p p.commandRegisters {}
    { p with
      servedFlags :=
        if v.newRound then fun i =>
          if i < queueCount + p.virChannelRegister.length then false else p.servedFlags i
        else p.servedFlags
      bundlingType :=
        if v.haveCAS && (v.newType && v.newCAS) then
          if p.bundlingType = .WR then .RD else .WR
        else p.bundlingType }

/-- The first half of a call: fronts are registered, channels filled, round and type renewed. -/
def prepare (s : CommandScheduler) (p : ReOrderState) : CommandScheduler × ReOrderState :=
  let (s, p) := (List.range s.queueCount).foldl (register requestorCriticalTable)
    ({ s with scheduledCommand := none }, p)
  let p := (List.range p.virChannelRegister.length).foldl (fillChannel s.queueCount) p
  (s, renew requestorCriticalTable s.queueCount p)

/-! ## Sending -/

/-- The three scans: a column access of the bundle that is not served, else an `ACT`, else a `PRE`. -/
def choose (check : Answers) (s : CommandScheduler) (p : ReOrderState) : Option (Nat × Entry) :=
  let scan := fun kind : BusPacket → Bool =>
    Lib.Scan.firstThat (fun e : Entry => kind e.1 && s.isIssuable check e.1) p.commandRegisters
  (scan fun c => p.servedFlags (serveCell requestorCriticalTable p c) = false &&
      c.busPacketType = p.bundlingType).or
    ((scan fun c => c.busPacketType = .ACT).or (scan fun c => c.busPacketType = .PRE))

/-- The register chosen is sent: a column access is noted as served, its queue and channel are
freed. -/
def sendRegister (spec : DeviceSpec) (s : CommandScheduler) (p : ReOrderState) (i : Nat)
    (e : Entry) : CommandScheduler × ReOrderState :=
  let cell := serveCell requestorCriticalTable p e.1
  let p := if e.1.busPacketType.beforeACT then
    { p with servedFlags := fun b => if b = cell then true else p.servedFlags b } else p
  let p := setPending p e.2 false
  (s.issue spec e.1 e.2,
    { p with
      virChannelRegister :=
        if requestorCriticalTable e.1.requestorID then p.virChannelRegister
        else p.virChannelRegister.set (p.virMap e.1.requestorID - s.queueCount) false
      commandRegisters := p.commandRegisters.eraseIdx i })

/-- The second half of a call. -/
def send (spec : DeviceSpec) (check : Answers) (s : CommandScheduler) (p : ReOrderState) :
    CommandScheduler × ReOrderState × Option BusPacket :=
  match choose requestorCriticalTable check s p with
  | some (i, e) =>
    let (s, p) := sendRegister requestorCriticalTable spec s p i e
    (s, p, some e.1)
  | none =>
    if p.commandRegisters.isEmpty then
      match Lib.Scan.firstThat (fun e : Entry => s.isIssuable check e.1) p.srtFIFO with
      | some (i, e) =>
        (s.issue spec e.1 e.2,
          setPending { p with srtFIFO := p.srtFIFO.eraseIdx i } e.2 false, some e.1)
      | none => (s, p, none)
    else (s, p, none)

/-- `CommandScheduler_ReOrder::commandSchedule`. -/
def schedule (spec : DeviceSpec) : Scheduling ReOrderState (Option BusPacket) := fun check s p =>
  let (s, p) := prepare requestorCriticalTable s p
  some (send requestorCriticalTable spec check s p)

def policy : CommandPolicy ReOrderState where
  commandSchedule spec := schedule requestorCriticalTable spec

end ReOrder
end MCsim
