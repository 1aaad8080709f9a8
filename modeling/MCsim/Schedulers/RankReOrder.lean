import MCsim.Schedulers.Calls

/-!
# The RankReOrder command scheduler

`CommandScheduler_RankReOrder` buffers column accesses by rank, and everything else in one buffer. A
queue that was served gets no other column access buffered until the buffers have run empty, which
ends the round. A call first looks whether the round or the type is over (`renew`), then buffers ready
fronts (`latch`), and then sends: from the rank whose turn it is, the first column access of the
current type if it can go, else from the next rank, else the first other command that can go.

Each buffer has a vector of queue numbers beside it (`CASQueueIndex`, `CMDQueueIndex`), and both are
erased at the same position. `CASBuffer` and `CASQueueIndex` have a cell for each of the `rank_num`
ranks; a command of another rank is undefined in the source, and no run of interest has one. So is a
position past a vector of queue numbers, where the call is undefined here as well.
-/

namespace MCsim

structure RankReOrderState where
  bundlingType : BusPacketType := .RD
  rankIndex : Nat := 0
  CASBuffer : Nat → List BusPacket := fun _ => []
  CASQueueIndex : Nat → List Nat := fun _ => []
  ACT_PREBuffer : List BusPacket := []
  CMDQueueIndex : List Nat := []
  queuePending : Nat → Bool := fun _ => false
  servedFlag : Nat → Bool := fun _ => false

namespace RankReOrder

open CommandScheduler

def rank_num : Nat := 2

/-- `queuePending[index] = value`. -/
def setPending (p : RankReOrderState) (index : Nat) (value : Bool) : RankReOrderState :=
  { p with queuePending := fun i => if i = index then value else p.queuePending i }

/-- The buffer of a rank and the queue numbers beside it, replaced. -/
def setCas (p : RankReOrderState) (rank : Nat) (commands : List BusPacket) (indices : List Nat) :
    RankReOrderState :=
  { p with
    CASBuffer := fun r => if r = rank then commands else p.CASBuffer r
    CASQueueIndex := fun r => if r = rank then indices else p.CASQueueIndex r }

/-! ## Round and type -/

/-- No column access is buffered. -/
def newRound (p : RankReOrderState) : Bool :=
  (List.range rank_num).all fun rank => (p.CASBuffer rank).isEmpty

/-- None of the current type is. -/
def newType (p : RankReOrderState) : Bool :=
  (List.range rank_num).all fun rank =>
    (p.CASBuffer rank).all fun c => c.busPacketType ≠ p.bundlingType

/-- The new round and the switch of the type. -/
def renew (queueCount : Nat) (p : RankReOrderState) : RankReOrderState :=
  { p with
    servedFlag :=
      if newRound p then fun i => if i < queueCount then false else p.servedFlag i
      else p.servedFlag
    bundlingType :=
      if !newRound p && newType p then if p.bundlingType = .RD then .WR else .RD
      else p.bundlingType }

/-! ## Buffering -/

/-- Where a ready front goes. A column access of a served queue stays where it is. -/
def buffer (p : RankReOrderState) (c : BusPacket) (index : Nat) : RankReOrderState :=
  if c.busPacketType.beforeACT then
    if p.servedFlag index = false then
      setCas (setPending p index true) c.rank (p.CASBuffer c.rank ++ [c])
        (p.CASQueueIndex c.rank ++ [index])
    else p
  else
    { setPending p index true with
      ACT_PREBuffer := p.ACT_PREBuffer ++ [c]
      CMDQueueIndex := p.CMDQueueIndex ++ [index] }

/-- The turn of one queue. -/
def latch (st : CommandScheduler × RankReOrderState) (index : Nat) :
    CommandScheduler × RankReOrderState :=
  match st.1.freeFront (st.2.queuePending index) index with
  | (s, none) => (s, st.2)
  | (s, some c) => (s, if s.isReady c index then buffer st.2 c index else st.2)

/-- The first half of a call. -/
def prepare (s : CommandScheduler) (p : RankReOrderState) : CommandScheduler × RankReOrderState :=
  (List.range s.queueCount).foldl latch ({ s with scheduledCommand := none }, renew s.queueCount p)

/-! ## Sending -/

/-- The first column access of the current type in a rank's buffer, if it can go. -/
def rankChoice (check : Answers) (s : CommandScheduler) (p : RankReOrderState) (rank : Nat) :
    Option (Nat × BusPacket) :=
  (Lib.Scan.firstThat (fun c : BusPacket => c.busPacketType = p.bundlingType)
    (p.CASBuffer rank)).filter fun found => s.isIssuable check found.2

/-- The rank after a rank. -/
def nextRank (rank : Nat) : Nat := if rank + 1 = rank_num then 0 else rank + 1

/-- The turns of the ranks: where `rankIndex` ends, and what was found. -/
def rankScan (check : Answers) (s : CommandScheduler) (p : RankReOrderState) :
    Nat → Nat → Nat × Option (Nat × BusPacket)
  | 0, rank => (rank, none)
  | turns + 1, rank =>
    match rankChoice check s p rank with
    | some found => (rank, some found)
    | none => rankScan check s p turns (nextRank rank)

/-- A command leaves: a column access serves its queue, and the queue is no longer pending. -/
def dispatch (spec : DeviceSpec) (s : CommandScheduler) (p : RankReOrderState) (c : BusPacket)
    (index : Nat) : CommandScheduler × RankReOrderState × Option BusPacket :=
  let p := if c.busPacketType.beforeACT then
    { p with servedFlag := fun i => if i = index then true else p.servedFlag i } else p
  (s.issue spec c index, setPending p index false, some c)

/-- The second half of a call. -/
def send (spec : DeviceSpec) (check : Answers) (s : CommandScheduler) (p : RankReOrderState) :
    Option (CommandScheduler × RankReOrderState × Option BusPacket) :=
  match rankScan check s p rank_num p.rankIndex with
  | (rank, some (i, c)) =>
    ((p.CASQueueIndex rank)[i]?).map fun index =>
      dispatch spec s (setCas { p with rankIndex := rank } rank ((p.CASBuffer rank).eraseIdx i)
        ((p.CASQueueIndex rank).eraseIdx i)) c index
  | (rank, none) =>
    match Lib.Scan.firstThat (s.isIssuable check) p.ACT_PREBuffer with
    | some (i, c) =>
      (p.CMDQueueIndex[i]?).map fun index =>
        dispatch spec s { p with
          rankIndex := rank
          ACT_PREBuffer := p.ACT_PREBuffer.eraseIdx i
          CMDQueueIndex := p.CMDQueueIndex.eraseIdx i } c index
    | none => some (s, { p with rankIndex := rank }, none)

/-- `CommandScheduler_RankReOrder::commandSchedule`. -/
def schedule (spec : DeviceSpec) : Scheduling RankReOrderState (Option BusPacket) :=
  fun check s p =>
    let (s, p) := prepare s p
    send spec check s p

def policy : CommandPolicy RankReOrderState where
  commandSchedule spec := schedule spec

end RankReOrder
end MCsim
