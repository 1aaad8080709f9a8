import MCsim.Requests.Calls
import MCsim.Lib.Rotation

/-!
# The DIRECT request scheduler

`RequestScheduler_Direct` takes requests from every queue in each call. A per-requestor queue is walked
once around from the queue's pointer, and the front of every buffer is handed over on the way
(`requestorTurns`); `roundRobin_Level`, which no constructor argument sets, would end the walk at the
first. A queue with a general buffer gives its first row hit, or its front.

A row is recorded under the mapped rank and bank for a per-requestor queue and under the request's own
for a general one. An index past a vector is undefined in the source and makes the call undefined here.
-/

namespace MCsim

structure DirectState where
  roundRobin_Level : Bool := false
  requestorIndex : List Nat

namespace Direct

open RequestScheduler

/-- The constructor: a pointer for each queue. -/
def create (queueCount : Nat) : DirectState := { requestorIndex := List.replicate queueCount 0 }

/-- The pointer of a queue is moved on, and wrapped at the queue's size. -/
def advance (index queueSize pointer : Nat) (p : DirectState) : DirectState :=
  { p with requestorIndex := p.requestorIndex.set index (Lib.Rotation.next queueSize pointer) }

/-- The state after a part of a call, with what was handed over. -/
abbrev Outcome := RequestScheduler × DirectState × List Request

/-- The loop over the requestors of a queue, for the turns left. -/
def requestorTurns (gen : Generator) (index queueSize : Nat) :
    Nat → RequestScheduler → DirectState → Option Outcome
  | 0, s, p => some (s, p, [])
  | turns + 1, s, p =>
    (p.requestorIndex[index]?).bind fun pointer =>
      ((s.requestQueue index).getSize true pointer).bind fun size =>
        if size > 0 then
          ((s.requestQueue index).getRequestOf pointer 0).bind fun (request, q) =>
            request.bind fun request =>
              ((s.setQueue index q).serve gen index request).bind fun (s, accepted) =>
                let p := advance index queueSize pointer p
                let handed := if accepted then [request] else []
                if p.roundRobin_Level then some (s, p, handed)
                else (requestorTurns gen index queueSize turns s p).map fun (s, p, rest) =>
                  (s, p, handed ++ rest)
        else requestorTurns gen index queueSize turns s (advance index queueSize pointer p)

/-- The turn of one queue. -/
def queueTurn (gen : Generator) (s : RequestScheduler) (p : DirectState) (index : Nat) :
    Option Outcome :=
  let q := s.requestQueue index
  if q.isPerRequestor then
    if q.getQueueSize > 0 then requestorTurns gen index q.getQueueSize q.getQueueSize s p
    else some (s, p, [])
  else if q.generalBuffer.length > 0 then
    (s.scheduleFR index).bind fun (request, q) =>
      request.bind fun request =>
        ((s.setQueue index q).serveOwn gen index request).map fun (s, accepted) =>
          (s, p, if accepted then [request] else [])
  else some (s, p, [])

/-- `RequestScheduler_Direct::requestSchedule`. -/
def requestSchedule (gen : Generator) : RequestScheduling DirectState Unit := fun _ s p =>
  (List.range s.queueCount).foldlM (fun (s, p, handed) index =>
    (queueTurn gen s p index).map fun (s, p, more) => (s, p, handed ++ more)) (s, p, [])

def policy : RequestPolicy DirectState where
  requestSchedule gen s p := (requestSchedule gen () s p).map fun r => (r.1, r.2.1)

end Direct
end MCsim
