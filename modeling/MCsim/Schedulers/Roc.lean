import MCsim.Schedulers.Fifo

/-!
# The ROC command scheduler

`CommandScheduler_ROC` arbitrates in three levels. Level 3 latches the front of each requestor's buffer,
when it is ready, into a FIFO of its rank: one for column accesses, one for the others. Level 2 has two
registers for each rank, and fills an empty one: with the first command of the FIFO that the device
takes, or with the front of the column accesses. Level 1 sends one command: a column access, chosen by
turns among the ranks that need no switch of the bus and else by the smallest timer, or one of the other
registers by turns.

The vectors are made in the cycle `clock == 1`, one element pushed for each of four ranks; to index one
out of its range is undefined. The flags `queuePending` have one element for each requestor, and are
read with the index of a command queue too.

`tCCD` and `tRTR` are what the device answers for these names. Left out: `prevCmd`, `prevRank`,
`readToWrite` and `writeToRead`, which are written only.
-/

namespace MCsim

/-- What ROC adds to the base class. -/
structure RocState where
  rankFIFO_L3PA : List (List BusPacket) := []
  rankFIFO_L3CAS : List (List BusPacket) := []
  l2_PA : List (Option BusPacket) := []
  l2_PAindex : Nat := 0
  l2_CAS : List (Option BusPacket) := []
  l2_CAStimer : List Nat := []
  l2_CASindex : Nat := 0
  queuePending : List Bool := []
  prevEnd : Nat := 0
  deriving DecidableEq, Repr

namespace Roc

open CommandScheduler

/-- `ranks`, a constant of the constructor. -/
def ranks : Nat := 4

/-- The vectors pushed in the first cycle. -/
def pushVectors (requestors : Nat) (s : CommandScheduler) (p : RocState) : RocState :=
  if s.clock = 1 then
    { p with
      rankFIFO_L3PA := p.rankFIFO_L3PA ++ List.replicate ranks []
      rankFIFO_L3CAS := p.rankFIFO_L3CAS ++ List.replicate ranks []
      l2_PA := p.l2_PA ++ List.replicate ranks none
      l2_PAindex := 0
      l2_CAS := p.l2_CAS ++ List.replicate ranks none
      l2_CAStimer := p.l2_CAStimer ++ List.replicate ranks 0
      l2_CASindex := 0
      queuePending := p.queuePending ++ List.replicate requestors false }
  else p

/-! ## Level 3 -/

/-- `push_back` on the FIFO of the command's kind and rank, and the requestor's flag. -/
def push (p : RocState) (c : BusPacket) : Option RocState :=
  let pending := p.queuePending.set c.requestorID true
  if c.busPacketType.beforeACT then
    (p.rankFIFO_L3CAS[c.rank]?).map fun fifo =>
      { p with
        rankFIFO_L3CAS := p.rankFIFO_L3CAS.set c.rank (fifo ++ [c])
        queuePending := pending }
  else
    (p.rankFIFO_L3PA[c.rank]?).map fun fifo =>
      { p with
        rankFIFO_L3PA := p.rankFIFO_L3PA.set c.rank (fifo ++ [c])
        queuePending := pending }

/-- The turn of a requestor whose front is `c`, with the entries latched so far. -/
def latchRequestor (s : CommandScheduler) (index : Nat) (st : RocState × List Entry) (c : BusPacket) :
    Option (RocState × List Entry) :=
  (st.1.queuePending[c.requestorID]?).bind fun pending =>
    if pending = false ∧ s.isReady c index = true then
      (push st.1 c).map fun p => (p, st.2 ++ [(c, index)])
    else some st

/-- The turn of a command queue. The flag asked first is that of the queue's index. -/
def latch (s : CommandScheduler) (st : RocState × List Entry) (index : Nat) :
    Option (RocState × List Entry) :=
  (st.1.queuePending[index]?).bind fun pending =>
    if pending then some st
    else (s.commandQueue index).requestorFronts.foldlM (latchRequestor s index) st

/-! ## Level 2 -/

/-- An empty register takes the first command of its FIFO that the device takes. -/
def promotePA (can : BusPacket → Bool) (p : RocState) (rank : Nat) : Option RocState :=
  match p.rankFIFO_L3PA[rank]?, p.l2_PA[rank]? with
  | some fifo, some none =>
    match Lib.Scan.firstThat can fifo with
    | some (index, c) =>
      some { p with
        l2_PA := p.l2_PA.set rank (some c)
        rankFIFO_L3PA := p.rankFIFO_L3PA.set rank (fifo.eraseIdx index) }
    | none => some p
  | some _, some (some _) => some p
  | _, _ => none

/-- An empty register takes the front of its FIFO. -/
def promoteCAS (p : RocState) (rank : Nat) : Option RocState :=
  match p.rankFIFO_L3CAS[rank]?, p.l2_CAS[rank]? with
  | some (c :: rest), some none =>
    some { p with
      l2_CAS := p.l2_CAS.set rank (some c)
      rankFIFO_L3CAS := p.rankFIFO_L3CAS.set rank rest }
  | some _, some _ => some p
  | _, _ => none

def level2 (can : BusPacket → Bool) (p : RocState) : Option RocState :=
  (List.range ranks).foldlM
    (fun p rank => (promotePA can p rank).bind fun p => promoteCAS p rank) p

/-! ## Level 1 -/

/-- `index++; if (index == size) index = 0`. -/
def advance (size index : Nat) : Nat := if index + 1 = size then 0 else index + 1

/-- The turns over the column accesses, from an index on: where the index is left, and the candidate
`checkCommand` with `scheduledIndex`. The first register whose timer is over is the candidate; the index
stays at it if the device refuses. -/
def casTurns (can : BusPacket → Bool) (p : RocState) (limit : Nat) :
    Nat → Nat → Option (Nat × Option (Nat × BusPacket))
  | 0, index => some (index, none)
  | n + 1, index =>
    match p.l2_CAS[index]?, p.l2_CAStimer[index]? with
    | some (some c), some timer =>
      if timer ≤ limit then
        some (if can c then advance p.l2_CAS.length index else index, some (index, c))
      else casTurns can p limit n (advance p.l2_CAS.length index)
    | some none, some _ => casTurns can p limit n (advance p.l2_CAS.length index)
    | _, _ => none

/-- A turn of the search for the smallest timer: `smallSD` and `scheduledIndex`. -/
def smaller (p : RocState) (st : Nat × Nat) (index : Nat) : Nat × Nat :=
  match p.l2_CAS[index]?, p.l2_CAStimer[index]? with
  | some (some _), some timer => if timer < st.1 then (timer, index) else st
  | _, _ => st

/-- The candidate where the turns left none: the register of the smallest timer, or the first one where
no timer is smaller than its own, if it holds a command. -/
def smallest (p : RocState) : Option (Option (Nat × BusPacket)) :=
  p.l2_CAStimer.head?.bind fun front =>
    let scheduledIndex := ((List.range p.l2_CAStimer.length).foldl (smaller p) (front, 0)).2
    (p.l2_CAS[scheduledIndex]?).map fun register => register.map fun c => (scheduledIndex, c)

/-- `if (checkCommand == NULL)`: the candidate that the turns left, or that of the smallest timer. -/
def orSmallest (p : RocState) : Option (Nat × BusPacket) → Option (Option (Nat × BusPacket))
  | some found => some (some found)
  | none => smallest p

/-- The timers and the register after a column access was chosen. -/
def chosen (spec : DeviceSpec) (tCCD tRTR clock : Nat) (p : RocState) (scheduledIndex : Nat)
    (c : BusPacket) : RocState :=
  let latency := if c.busPacketType = .RD then spec.constraints.tRL else spec.constraints.tWL
  let prevEnd := clock + latency + tCCD
  { p with
    prevEnd := prevEnd
    l2_CAStimer := p.l2_CAStimer.mapIdx fun index timer =>
      if index ≠ scheduledIndex then prevEnd + tRTR else timer
    l2_CAS := p.l2_CAS.set scheduledIndex none }

/-- The choice of a column access. -/
def selectCAS (spec : DeviceSpec) (tCCD tRTR clock : Nat) (can : BusPacket → Bool) (p : RocState) :
    Option (RocState × Option BusPacket) :=
  (casTurns can p (p.prevEnd + tRTR) p.l2_CAStimer.length p.l2_CASindex).bind fun turns =>
    let p := { p with l2_CASindex := turns.1 }
    (orSmallest p turns.2).map fun candidate => match candidate with
      | some (scheduledIndex, c) =>
        if can c then (chosen spec tCCD tRTR clock p scheduledIndex c, some c) else (p, none)
      | none => (p, none)

/-- The turns over the other registers: where the index is left, and the register chosen. -/
def paTurns (can : BusPacket → Bool) (registers : List (Option BusPacket)) :
    Nat → Nat → Option (Nat × Option (Nat × BusPacket))
  | 0, index => some (index, none)
  | n + 1, index =>
    match registers[index]? with
    | some (some c) =>
      if can c then some (advance registers.length index, some (index, c))
      else paTurns can registers n (advance registers.length index)
    | some none => paTurns can registers n (advance registers.length index)
    | none => none

/-- The choice of another command. -/
def selectPA (can : BusPacket → Bool) (p : RocState) : Option (RocState × Option BusPacket) :=
  (paTurns can p.l2_PA p.l2_PA.length p.l2_PAindex).map fun turns =>
    let p := { p with l2_PAindex := turns.1 }
    match turns.2 with
    | some (index, c) => ({ p with l2_PA := p.l2_PA.set index none }, some c)
    | none => (p, none)

def level1 (spec : DeviceSpec) (tCCD tRTR clock : Nat) (can : BusPacket → Bool) (p : RocState) :
    Option (RocState × Option BusPacket) :=
  (selectCAS spec tCCD tRTR clock can p).bind fun r =>
    match r.2 with
    | some c => some (r.1, some c)
    | none => selectPA can r.1

/-- The last lines of `commandSchedule`: the command chosen is sent from queue 0, and its requestor's
flag is taken back. -/
def send (spec : DeviceSpec) (s : CommandScheduler) (p : RocState) (scheduledCommand : Option BusPacket) :
    Option (CommandScheduler × RocState × Option Entry) :=
  match scheduledCommand with
  | none => some ({ s with scheduledCommand := none }, p, none)
  | some c =>
    if c.requestorID < p.queuePending.length then
      some (s.issue spec c 0, { p with queuePending := p.queuePending.set c.requestorID false },
        some (c, 0))
    else none

/-- `CommandScheduler_ROC::commandSchedule`, with the record of the call. `requestors` is the size of
`requestorCriticalTable`. -/
def schedule (spec : DeviceSpec) (tCCD tRTR requestors : Nat) : Scheduling RocState FifoRecord :=
  fun check s p =>
    ((List.range s.queueCount).foldlM (latch s) (pushVectors requestors s p, [])).bind fun latched =>
      (level2 (s.isIssuable check) latched.1).bind fun p =>
        (level1 spec tCCD tRTR s.clock (s.isIssuable check) p).bind fun r =>
          (send spec s r.1 r.2).map fun sent =>
            (sent.1, sent.2.1, { entered := latched.2, issued := sent.2.2 })

def policy (tCCD tRTR requestors : Nat) : CommandPolicy RocState where
  commandSchedule spec check s p :=
    (schedule spec tCCD tRTR requestors check s p).map fun r => (r.1, r.2.1, r.2.2.issued.map (·.1))

end Roc
end MCsim
