import MCsim.RequestScheduler

/-!
# The MCMC request scheduler

`RequestScheduler_MCMC` gives every critical requestor a slot of ten calls in turn. At the start of a
slot the requestor's next request is taken from queue 0 and cut into parts of one bus width each
(`fetch`), and one part is handed to the generator. A slot whose requestor has nothing to hand over
goes to the non-critical requestors that share it, in rotation (`shareSlot`).

The slot table holds requestor ids. `RequestQueue::getSize` and `getRequest` take a position in the
order in which requestors first appeared; they are given an id here, as in the source.

An index past a vector is undefined behaviour in the source and makes the call undefined here. So does
a part that the generator refuses in a shared slot: the source deletes it and leaves it queued. A part
keeps the handle of its request, which nothing reads.
-/

namespace MCsim

structure McmcState where
  requestorIndex : Nat := 0
  slotCounter : Nat := 0
  scheduleSlot : List Nat := []
  timeSlot : List Nat := []
  srtSlot : List (List Nat) := []
  srtIndex : List Nat := []
  reqSubBuffer : List (List Request) := []

namespace Mcmc

open RequestScheduler

/-- `requestorCriticalTable`, in the order of its keys. -/
abbrev CriticalTable := List (Nat × Bool)

/-- The slots of the critical requestors. -/
def slots (table : CriticalTable) : List Nat := (table.filter (·.2)).map (·.1)

/-- `srtSlot` after the loop over the non-critical requestors. -/
def sharers (table : CriticalTable) : List (List Nat) :=
  (List.range (slots table).length).map fun slot =>
    ((table.filter (!·.2)).map (·.1)).filter fun id => id % (slots table).length = slot

/-- What the first call sets up. Without a slot there is nothing to share, and the source divides
by 0. -/
def initialise (table : CriticalTable) (p : McmcState) : McmcState :=
  { p with
    scheduleSlot := p.scheduleSlot ++ slots table
    timeSlot := p.timeSlot ++ (slots table).map fun _ => 10
    srtSlot := p.srtSlot ++ sharers table
    srtIndex := p.srtIndex ++ (slots table).map fun _ => 0
    reqSubBuffer := p.reqSubBuffer ++ table.map fun _ => [] }

/-- The parts of a request, one for each bus width. -/
def split (dataBusSize : Nat) (request : Request) : List Request :=
  List.replicate (request.requestSize / dataBusSize)
    { handle := request.handle, requestType := request.requestType,
      requestorID := request.requestorID, requestSize := dataBusSize, address := request.address,
      arriveTime := 0, rank := request.rank, bank := request.bank, row := request.row,
      col := request.col }

/-- Where a requestor has no part left, its next request is taken and cut: the queue, the parts, and
whether a request was taken. -/
def fetch (dataBusSize : Nat) (q : RequestQueue) (id : Nat) (parts : List Request) :
    Option (RequestQueue × List Request × Bool) :=
  if parts.isEmpty then
    (q.getSize true id).bind fun size =>
      if size > 0 then
        (q.getRequestOf id 0).bind fun (request, q) =>
          request.bind fun request =>
            q.removeRequest.map fun q => (q, split dataBusSize request, true)
      else some (q, parts, false)
  else some (q, parts, false)

/-- The state after a call, with the part that was handed over. -/
abbrev Outcome := RequestScheduler × McmcState × Option Request

/-- The loop over the non-critical requestors of a slot, for the turns left. -/
def shareSlot (gen : Generator) (dataBusSize : Nat) (s : RequestScheduler) (p : McmcState)
    (sharing : List Nat) : Nat → Option Outcome
  | 0 => some (s, p, none)
  | turns + 1 =>
    (p.srtIndex[p.requestorIndex]?).bind fun turn =>
      (sharing[turn]?).bind fun id =>
        (p.reqSubBuffer[id]?).bind fun parts =>
          (fetch dataBusSize (s.requestQueue 0) id parts).bind fun (q, parts, taken) =>
            let s := s.setQueue 0 q
            let p := { p with
              reqSubBuffer := p.reqSubBuffer.set id parts
              srtIndex := p.srtIndex.set p.requestorIndex
                (if turn + 1 = sharing.length then 0 else turn + 1) }
            match parts with
            | [] =>
              if taken then some (s, p, none) else shareSlot gen dataBusSize s p sharing turns
            | part :: rest =>
              (s.isSchedulable gen part false).bind fun (s, accepted) =>
                if accepted then
                  some (s, { p with reqSubBuffer := p.reqSubBuffer.set id rest }, some part)
                else none

/-- The start of the slot of a critical requestor. A request too small for a part is not handed over,
but it keeps the loop over the non-critical requestors to one turn. -/
def serveSlot (gen : Generator) (dataBusSize : Nat) (s : RequestScheduler) (p : McmcState)
    (id : Nat) : Option Outcome :=
  (p.reqSubBuffer[id]?).bind fun parts =>
    (fetch dataBusSize (s.requestQueue 0) id parts).bind fun (q, parts, taken) =>
      let s := s.setQueue 0 q
      let p := { p with reqSubBuffer := p.reqSubBuffer.set id parts }
      match parts with
      | [] =>
        (p.srtSlot[p.requestorIndex]?).bind fun sharing =>
          shareSlot gen dataBusSize s p sharing
            (if taken then min sharing.length 1 else sharing.length)
      | part :: rest =>
        (s.isSchedulable gen part false).map fun (s, accepted) =>
          if accepted then (s, { p with reqSubBuffer := p.reqSubBuffer.set id rest }, some part)
          else (s, p, none)

/-- The next slot begins once this one is over. -/
def nextSlot (p : McmcState) (length : Nat) : McmcState :=
  { p with
    slotCounter := length - 1
    requestorIndex :=
      if p.requestorIndex + 1 = p.scheduleSlot.length then 0 else p.requestorIndex + 1 }

/-- A call, once everything is set up. -/
def slotCall (dataBusSize : Nat) (gen : Generator) (s : RequestScheduler) (p : McmcState) :
    Option Outcome :=
  if p.slotCounter = 0 then
    (p.scheduleSlot[p.requestorIndex]?).bind fun id =>
      (serveSlot gen dataBusSize s p id).bind fun (s, p, handed) =>
        (p.timeSlot[id]?).map fun length => (s, nextSlot p length, handed)
  else some (s, { p with slotCounter := p.slotCounter - 1 }, none)

/-- `RequestScheduler_MCMC::requestSchedule`. -/
def requestSchedule (table : CriticalTable) (dataBusSize : Nat) (gen : Generator)
    (s : RequestScheduler) (p : McmcState) : Option Outcome :=
  slotCall dataBusSize gen s.step (if s.clockCycle = 1 then initialise table p else p)

def policy (table : CriticalTable) (dataBusSize : Nat) : RequestPolicy McmcState where
  requestSchedule gen s p :=
    (requestSchedule table dataBusSize gen s p).map fun r => (r.1, r.2.1)

/-! ## The generator -/

/-- The posted column access of a request, with auto-precharge. -/
def postedCas (request : Request) : BusPacket :=
  { CommandGenerator.rowCommand
      (match request.requestType with | .DATA_READ => .RDA | .DATA_WRITE => .WRA) request with
    subArray := 0
    postCommand := true }

/-- The commands for the first `n` banks from the request's, in the order of the interleaving. -/
def interleaved (request : Request) : Nat → Option (List BusPacket)
  | 1 => some [act 0, cas 0]
  | 2 => some [act 0, act 1, cas 0, cas 1]
  | 4 => some [act 0, act 1, cas 0, act 2, cas 1, act 3, cas 2, cas 3]
  | _ => none
where
  act (n : Nat) : BusPacket :=
    { CommandGenerator.rowCommand .ACT request with bank := request.bank + n, subArray := 0 }
  cas (n : Nat) : BusPacket := { postedCas request with bank := request.bank + n }

/-- `CommandGenerator_MCMC::commandGenerate`: it accepts, or aborts on a size it does not support. -/
def mcmcGenerator : Generator := fun g request _ =>
  (interleaved request (request.requestSize / g.dataBusSize)).map fun commands =>
    ({ g with commandBuffer := g.commandBuffer ++ commands }, true)

/-! ## Cycles -/

/-- A cycle at the scheduler: what arrives, the call, and the controller's own step. The commands of
the cycle are taken away by the controller. -/
def cycle (table : CriticalTable) (dataBusSize : Nat) :
    Lib.Machine.Step (RequestScheduler × McmcState) (List Request) (Option Request)
  | (s, p), arrivals =>
    (requestSchedule table dataBusSize mcmcGenerator
      (s.setQueue 0 (arrivals.foldl RequestQueue.insertRequest (s.requestQueue 0))) p).map
      fun (s, p, handed) =>
        (({ s.step with commandGenerator := { s.commandGenerator with commandBuffer := [] } }, p),
          handed)

/-- The scheduler of `MCMC.ini`: one queue, per requestor and without a write queue. -/
def start (dataBusSize : Nat) : RequestScheduler × McmcState :=
  ({ queueCount := 1
     requestQueue := fun _ => RequestQueue.create true false
     commandGenerator := { dataBusSize := dataBusSize } }, {})

/-- Every requestor is critical, as `connectMemoryDevice` sets it. -/
def allCritical (requestors : Nat) : CriticalTable :=
  (List.range requestors).map fun id => (id, true)

end Mcmc
end MCsim
