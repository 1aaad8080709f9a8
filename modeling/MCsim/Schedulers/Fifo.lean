import MCsim.Schedulers.Calls

/-!
# The FIFO command schedulers

`CommandScheduler_ORP` and `CommandScheduler_DCmc`. A call first latches: the front of each buffer
that has none pending joins `cmdFIFO` when it is ready, and is not asked again. Then it sends the
first entry of `cmdFIFO` that the device takes, but once a column access was refused no later one is
tried in its place. ORP keeps a pending flag for each requestor, DCmc one for each queue.
-/

namespace MCsim

/-- What ORP and DCmc add to the base class. -/
structure FifoState where
  cmdFIFO : List Entry := []
  srtFIFO : List Entry := []
  queuePending : Nat → Bool := fun _ => false

/-- What a call did: the entries that joined `cmdFIFO`, and the entry sent. -/
structure FifoRecord where
  entered : List Entry
  issued : Option Entry

namespace FifoState

/-- `queuePending[key] = value`. -/
def setPending (p : FifoState) (key : Nat) (value : Bool) : FifoState :=
  { p with queuePending := fun k => if k = key then value else p.queuePending k }

/-- `cmdFIFO.push_back(...); queuePending[key] = true`. -/
def push (p : FifoState) (e : Entry) (key : Nat) : FifoState :=
  { p with cmdFIFO := p.cmdFIFO ++ [e] }.setPending key true

/-- The same with `srtFIFO`. -/
def pushSrt (p : FifoState) (e : Entry) (key : Nat) : FifoState :=
  { p with srtFIFO := p.srtFIFO ++ [e] }.setPending key true

end FifoState

/-- `busPacketType < ACT`, of the command of an entry. -/
def Entry.blocks (e : Entry) : Bool := e.1.busPacketType.beforeACT

/-- The scan of `cmdFIFO` with CAS blocking. -/
def casScan (s : CommandScheduler) (check : Answers) (fifo : List Entry) : Option (Nat × Entry) :=
  Lib.Scan.firstFree Entry.blocks (fun e => s.isIssuable check e.1) fifo

open CommandScheduler

/-! ## ORP -/

namespace Orp

/-- The turn of a requestor whose front is `c`. Critical or not, it joins `cmdFIFO`. -/
def latchRequestor (s : CommandScheduler) (index : Nat) (p : FifoState) (c : BusPacket) :
    FifoState :=
  if p.queuePending c.requestorID = false && s.isReady c index then
    p.push (c, index) c.requestorID
  else p

/-- The turn of a queue that is not per requestor. The other buffer is looked at without asking
whether a command of the queue is pending. -/
def latchGeneral (s : CommandScheduler) (p : FifoState) (index : Nat) :
    CommandScheduler × FifoState :=
  let (s, critical) := if p.queuePending index = false then s.look index true else (s, none)
  let (s, checkCommand) := match critical with
    | some c => (s, some c)
    | none => s.look index false
  match checkCommand with
  | none => (s, p)
  | some c => (s, if s.isReady c index then p.push (c, index) index else p)

/-- The turn of one queue. -/
def latch (st : CommandScheduler × FifoState) (index : Nat) : CommandScheduler × FifoState :=
  let q := st.1.commandQueue index
  if q.isPerRequestor then (st.1, q.requestorFronts.foldl (latchRequestor st.1 index) st.2)
  else latchGeneral st.1 st.2 index

/-- The flag that sending an entry takes back. -/
def pendingKey (s : CommandScheduler) (e : Entry) : Nat :=
  if (s.commandQueue e.2).isPerRequestor then e.1.requestorID else e.2

/-- The second half of a call. `srtFIFO` is only looked at where no column access was refused, which
is where `cmdFIFO` has none. -/
def send (spec : DeviceSpec) (check : Answers) (s : CommandScheduler) (p : FifoState) :
    CommandScheduler × FifoState × Option Entry :=
  let s := { s with scheduledCommand := none }
  match casScan s check p.cmdFIFO with
  | some (i, e) =>
    (s.issue spec e.1 e.2,
      { p with cmdFIFO := p.cmdFIFO.eraseIdx i }.setPending (pendingKey s e) false, some e)
  | none =>
    if p.cmdFIFO.any Entry.blocks then (s, p, none)
    else match Lib.Scan.firstThat (fun e : Entry => s.isIssuable check e.1) p.srtFIFO with
      | some (i, e) =>
        (s.issue spec e.1 e.2,
          { p with srtFIFO := p.srtFIFO.eraseIdx i }.setPending e.1.requestorID false, some e)
      | none => (s, p, none)

/-- `CommandScheduler_ORP::commandSchedule`, with the record of the call. -/
def schedule (spec : DeviceSpec) : Scheduling FifoState FifoRecord := fun check s p =>
  let (s, p') := (List.range s.queueCount).foldl latch (s, p)
  let (s, p'', issued) := send spec check s p'
  some (s, p'', { entered := p'.cmdFIFO.drop p.cmdFIFO.length, issued := issued })

def policy : CommandPolicy FifoState where
  commandSchedule spec check s p :=
    (schedule spec check s p).map fun (s, p, record) => (s, p, record.issued.map (·.1))

end Orp

/-! ## DCmc -/

namespace Dcmc

/-- The turn of one queue. -/
def latch (requestorCriticalTable : Nat → Bool) (st : CommandScheduler × FifoState) (index : Nat) :
    CommandScheduler × FifoState :=
  let p := st.2
  match st.1.freeFront (p.queuePending index) index with
  | (s, none) => (s, p)
  | (s, some c) =>
    if s.isReady c index then
      if requestorCriticalTable c.requestorID then (s, p.push (c, index) index)
      else (s, p.pushSrt (c, index) index)
    else (s, p)

/-- The second half of a call. `srtFIFO` is only looked at where `cmdFIFO` is empty, and there no
column access was refused yet; its own scan refuses none. -/
def send (spec : DeviceSpec) (check : Answers) (s : CommandScheduler) (p : FifoState) :
    CommandScheduler × FifoState × Option Entry :=
  let s := { s with scheduledCommand := none }
  if p.cmdFIFO.isEmpty then
    match Lib.Scan.firstThat (fun e : Entry => s.isIssuable check e.1) p.srtFIFO with
    | some (i, e) =>
      (s.issue spec e.1 e.2,
        { p with srtFIFO := p.srtFIFO.eraseIdx i }.setPending e.2 false, some e)
    | none => (s, p, none)
  else
    match casScan s check p.cmdFIFO with
    | some (i, e) =>
      (s.issue spec e.1 e.2,
        { p with cmdFIFO := p.cmdFIFO.eraseIdx i }.setPending e.2 false, some e)
    | none => (s, p, none)

/-- `CommandScheduler_DCmc::commandSchedule`, with the record of the call. -/
def schedule (spec : DeviceSpec) (requestorCriticalTable : Nat → Bool) :
    Scheduling FifoState FifoRecord := fun check s p =>
  let (s, p') := (List.range s.queueCount).foldl (latch requestorCriticalTable) (s, p)
  let (s, p'', issued) := send spec check s p'
  some (s, p'', { entered := p'.cmdFIFO.drop p.cmdFIFO.length, issued := issued })

def policy (requestorCriticalTable : Nat → Bool) : CommandPolicy FifoState where
  commandSchedule spec check s p :=
    (schedule spec requestorCriticalTable check s p).map fun (s, p, record) =>
      (s, p, record.issued.map (·.1))

end Dcmc
end MCsim
