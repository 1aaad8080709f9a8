import MCsim.Requests.Calls
import MCsim.Lib.Rotation

/-!
# The PMC request scheduler

`RequestScheduler_PMC` walks a fixed table of eight slots. A call that finds no slot running goes on
from `requestorIndex` to the first slot with a request waiting (`slotTurns`) and grants that request,
which starts a slot of 47 calls.

The table holds the numbers 0 to 7 whatever the number of requestors. A number is given to
`RequestQueue::getSize` and `getRequest`, which take it for a position in the order in which requestors
first appeared. A position past that order is undefined behaviour in the source, and makes the call
undefined here; so does a request that the generator refuses, where the source aborts.
-/

namespace MCsim

structure PmcState where
  requestorIndex : Nat := 0
  slotCounter : Nat := 0
  scheduleSlot : List Nat := []
  timeSlot : List Nat := []

namespace Pmc

open RequestScheduler

/-- What the first call sets up. -/
def initialise (p : PmcState) : PmcState :=
  { p with
    scheduleSlot := [0, 1, 2, 3, 4, 5, 6, 7]
    timeSlot := [47, 47, 47, 47, 47, 47, 47, 47] }

/-- `requestorIndex++`, wrapped at the end of the table. -/
def advance (p : PmcState) : PmcState :=
  { p with requestorIndex := Lib.Rotation.next p.scheduleSlot.length p.requestorIndex }

/-- The slot that a call served and the request that it granted. -/
abbrev Grant := Option (Nat × Request)

/-- Hand the request of a slot to the generator, which starts the slot. -/
def grant (gen : Generator) (s : RequestScheduler) (p : PmcState) (slot : Nat) (request : Request) :
    Option (RequestScheduler × PmcState × Grant) :=
  (s.isSchedulable gen request false).bind fun (s, accepted) =>
    if accepted then
      (s.requestQueue 0).removeRequest.bind fun q =>
        (p.timeSlot[slot]?).map fun length =>
          (s.setQueue 0 q, advance { p with slotCounter := length - 1 }, some (slot, request))
    else none

/-- The loop over the slots, for the turns left. -/
def slotTurns (gen : Generator) : Nat → RequestScheduler → PmcState →
    Option (RequestScheduler × PmcState × Grant)
  | 0, s, p => some (s, p, none)
  | turns + 1, s, p =>
    (p.scheduleSlot[p.requestorIndex]?).bind fun slot =>
      ((s.requestQueue 0).getSize true slot).bind fun size =>
        if size > 0 then
          ((s.requestQueue 0).getRequestOf slot 0).bind fun (request, q) =>
            request.bind fun request => grant gen (s.setQueue 0 q) p slot request
        else slotTurns gen turns s (advance p)

/-- A call, once the table is set up. -/
def slotCall (gen : Generator) (s : RequestScheduler) (p : PmcState) :
    Option (RequestScheduler × PmcState × Grant) :=
  if p.slotCounter = 0 then slotTurns gen p.scheduleSlot.length s p
  else some (s, { p with slotCounter := p.slotCounter - 1 }, none)

/-- `RequestScheduler_PMC::requestSchedule`. -/
def requestSchedule (gen : Generator) (s : RequestScheduler) (p : PmcState) :
    Option (RequestScheduler × PmcState × Grant) :=
  slotCall gen s (if s.clockCycle = 1 then initialise p else p)

def policy : RequestPolicy PmcState where
  requestSchedule gen s p := (requestSchedule gen s p).map fun r => (r.1, r.2.1)

/-- The queue that a call finds. -/
def arrived (s : RequestScheduler) (arrivals : List Request) : RequestQueue :=
  arrivals.foldl RequestQueue.insertRequest (s.requestQueue 0)

/-- A cycle at the scheduler: what arrives, the call, and `RequestScheduler::step`. -/
def cycle (gen : Generator) : Lib.Machine.Step (RequestScheduler × PmcState) (List Request) Grant
  | (s, p), arrivals =>
    (requestSchedule gen (s.setQueue 0 (arrived s arrivals)) p).map fun (s, p, granted) =>
      ((s.step, p), granted)

/-- The scheduler of `PMC.ini`: one queue, per requestor and without a write queue. -/
def start (dataBusSize : Nat) : RequestScheduler × PmcState :=
  (RequestScheduler.create true false dataBusSize, {})

end Pmc
end MCsim
