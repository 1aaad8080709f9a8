import MCsim.Requests.Calls

/-!
# The round-robin request scheduler

`RequestScheduler_RR` grants one request every `timeSlot` calls. The request queues take turns
(`queueIndex`), and within a queue so do the requestors, in the order in which they first appeared:
`queueRequestorIndex` is the position whose turn it is, and positions with nothing waiting are passed
over in the same call (`requestorTurns`).

A granted request is removed from the queue at the loop's own index, which on one queue is the queue
it came from. `fixedPrioirty` is set by the constructor and never again; the branch that moves
non-critical requests aside needs it.
-/

namespace MCsim

structure RoundRobinState where
  slotCounter : Nat := 0
  queueIndex : Nat := 0
  queueRequestorIndex : Nat → Nat := fun _ => 0
  srtRequestBuffer : List Request := []
  fixedPrioirty : Bool := false

namespace RoundRobin

open RequestScheduler

/-- The cycles between two grants. -/
def timeSlot : Nat := 42

/-- The position whose turn it is in the queue whose turn it is. -/
def position (p : RoundRobinState) : Nat := p.queueRequestorIndex p.queueIndex

/-- `queueRequestorIndex[queueIndex]++`, wrapped at the queue's size. -/
def advance (queueSize : Nat) (p : RoundRobinState) : RoundRobinState :=
  { p with queueRequestorIndex := fun i =>
      if i = p.queueIndex then
        if position p + 1 = queueSize then 0 else position p + 1
      else p.queueRequestorIndex i }

/-- The state, `scheduledRequest`, and what the generator accepted. -/
abbrev Outcome := RequestScheduler × RoundRobinState × Option Request × List Request

/-- Hand a request to the generator. A refused request keeps its turn. -/
def grant (gen : Generator) (index queueSize : Nat) (s : RequestScheduler) (p : RoundRobinState)
    (request : Request) : Option Outcome :=
  (s.isSchedulable gen request false).bind fun (s, accepted) =>
    if accepted then
      (s.requestQueue index).removeRequest.map fun q =>
        (s.setQueue index q, advance queueSize p, some request, [request])
    else some (s, p, some request, [])

/-- The loop over the requestors of a queue, for the turns left. -/
def requestorTurns (table : Nat → Bool) (gen : Generator) (index queueSize : Nat) :
    Nat → RequestScheduler → RoundRobinState → Option Outcome
  | 0, s, p => some (s, p, none, [])
  | turns + 1, s, p =>
    let q := s.requestQueue p.queueIndex
    (q.getSize true (position p)).bind fun size =>
      if size > 0 then
        (q.getRequestOf (position p) 0).bind fun (request, q) =>
          request.bind fun request =>
            if p.fixedPrioirty && !table request.requestorID then
              q.removeRequest.bind fun q =>
                requestorTurns table gen index queueSize turns (s.setQueue p.queueIndex q)
                  (advance queueSize { p with srtRequestBuffer := p.srtRequestBuffer ++ [request] })
            else grant gen index queueSize (s.setQueue p.queueIndex q) p request
      else requestorTurns table gen index queueSize turns s (advance queueSize p)

/-- Where no requestor was granted, a request moved aside may be. -/
def grantAside (gen : Generator) (r : Outcome) : Option Outcome :=
  match r with
  | (s, p, none, handed) =>
    match p.fixedPrioirty, p.srtRequestBuffer with
    | true, request :: rest =>
      (s.isSchedulable gen request false).map fun (s, accepted) =>
        if accepted then (s, { p with srtRequestBuffer := rest }, none, handed ++ [request])
        else (s, p, none, handed)
    | _, _ => some (s, p, none, handed)
  | r => some r

/-- The turn of one queue. -/
def queueTurn (table : Nat → Bool) (gen : Generator) (index : Nat) (s : RequestScheduler)
    (p : RoundRobinState) : Option Outcome :=
  let q := s.requestQueue p.queueIndex
  if q.isPerRequestor then
    if q.getQueueSize > 0 then
      (requestorTurns table gen index q.getQueueSize q.getQueueSize s p).bind (grantAside gen)
    else some (s, p, none, [])
  else if q.generalBuffer.length > 0 then
    (q.getRequest 0).bind fun (request, q) =>
      request.bind fun request =>
        let s := s.setQueue p.queueIndex q
        (s.isSchedulable gen request false).bind fun (s, accepted) =>
          if accepted then
            (s.requestQueue index).removeRequest.map fun q =>
              (s.setQueue index q, p, some request, [request])
          else some (s, p, some request, [])
  else some (s, p, none, [])

/-- `queueIndex++`, wrapped. -/
def nextQueue (queueCount : Nat) (p : RoundRobinState) : RoundRobinState :=
  { p with queueIndex := if p.queueIndex + 1 = queueCount then 0 else p.queueIndex + 1 }

/-- The loop over the queues: it ends at the first that has a request to schedule. -/
def queueTurns (table : Nat → Bool) (gen : Generator) :
    List Nat → RequestScheduler → RoundRobinState → List Request →
      Option (RequestScheduler × RoundRobinState × List Request)
  | [], s, p, handed => some (s, p, handed)
  | index :: rest, s, p, handed =>
    (queueTurn table gen index s p).bind fun (s, p, scheduled, granted) =>
      let p := nextQueue s.queueCount p
      if scheduled.isSome then
        some (s, { p with slotCounter := timeSlot - 1 }, handed ++ granted)
      else queueTurns table gen rest s p (handed ++ granted)

/-- `RequestScheduler_RR::requestSchedule`. -/
def requestSchedule (table : Nat → Bool) (gen : Generator) :
    RequestScheduling RoundRobinState Unit := fun _ s p =>
  if p.slotCounter = 0 then queueTurns table gen (List.range s.queueCount) s p []
  else some (s, { p with slotCounter := p.slotCounter - 1 }, [])

def policy (table : Nat → Bool) : RequestPolicy RoundRobinState where
  requestSchedule gen s p := (requestSchedule table gen () s p).map fun r => (r.1, r.2.1)

end RoundRobin
end MCsim
