import MCsim.Requests.Calls

/-!
# The FRFCFS request scheduler with write batching

`RequestScheduler_FRFCFS_BATCHING` hands over reads and writes apart. Once a write queue is past its
high watermark, writes are drained from its front, one a call, until it is below its low watermark
(`drainTurn`); a call that drains hands over no read. Otherwise a read is handed over for each empty
command queue, row hits first (`readTurn`). A call that finds no command queued and hands over no read
takes the front write of queue 0 (`idleWrite`). A write is never looked up when a read is chosen, nor
a read when a write is.

`sw`, which says that a drain is in progress, is a member of the base class that no constructor sets;
runs start with either value. The command queues are seen only through whether their critical buffer
is empty, and a call is given that for each of them.
-/

namespace MCsim
namespace Batching

open RequestScheduler

/-- The state within a call: the scheduler, `sw`, `cont_1` and what was handed over. -/
structure Progress where
  s : RequestScheduler
  sw : Bool
  cont_1 : Bool := true
  handed : List Request := []

/-- Hand the front of a queue's write queue to the generator, as the row table calls it. If it is
accepted, write the row table and remove it; a queue without a write is undefined. -/
def serveWrite (gen : Generator) (s : RequestScheduler) (index : Nat) :
    Option (RequestScheduler × Option Request) :=
  (s.requestQueue index).writeQueue.bind fun w =>
    (w.getWrite 0).bind fun request =>
      (s.isSchedulable gen request (s.isRowHit request)).bind fun (s, accepted) =>
        if accepted then
          (w.popWrite 0).map fun w =>
            ((s.updateRowTable request.addressMap.rank request.addressMap.bank request.row).setQueue
              index { s.requestQueue index with writeQueue := some w }, some request)
        else some (s, none)

/-- `requestQueue[0]->setWriteMode`. -/
def setWriteMode (s : RequestScheduler) (value : Bool) : RequestScheduler :=
  s.setQueue 0 ((s.requestQueue 0).setWriteMode value)

/-- The turn of one queue in the loop that drains. -/
def drainTurn (gen : Generator) (st : Progress) (index : Nat) : Option Progress :=
  match (st.s.requestQueue index).writeQueue with
  | none => some st
  | some w =>
    let st := if w.highWatermark then { st with sw := true, s := setWriteMode st.s true } else st
    if st.sw then
      if w.lowWatermark then
        some { st with sw := false, s := setWriteMode st.s false, cont_1 := true }
      else
        (serveWrite gen st.s index).map fun (s, write) =>
          { st with
            s := s
            cont_1 := st.cont_1 && write.isNone
            handed := st.handed ++ write.toList }
    else some st

/-- The turn of one command queue in the loop that hands over reads from a request queue. -/
def readTurn (gen : Generator) (index : Nat) (st : RequestScheduler × List Request) (empty : Bool) :
    Option (RequestScheduler × List Request) :=
  if empty then
    (st.1.scheduleFR index).bind fun (request, q) =>
      let s := st.1.setQueue index q
      match request with
      | none => some (s, st.2)
      | some request =>
        (s.serve gen index request).map fun (s, accepted) =>
          (s, if accepted then st.2 ++ [request] else st.2)
  else some st

/-- The loops over the request queues and the command queues. -/
def readLoop (gen : Generator) (empties : List Bool) (s : RequestScheduler) :
    Option (RequestScheduler × List Request) :=
  (List.range s.queueCount).foldlM (fun st index => empties.foldlM (readTurn gen index) st) (s, [])

/-- The write of an idle call. -/
def idleWrite (gen : Generator) (s : RequestScheduler) :
    Option (RequestScheduler × List Request) :=
  (s.requestQueue 0).writeQueue.bind fun w =>
    if w.bufferSize ≠ 0 then (serveWrite gen s 0).map fun (s, write) => (s, write.toList)
    else some (s, [])

/-- The part of a call after the drain, where it handed over nothing. -/
def readOrIdle (gen : Generator) (empties : List Bool) (st : Progress) : Option Progress :=
  (readLoop gen empties st.s).bind fun (s, reads) =>
    if empties.all id && reads.isEmpty then
      (idleWrite gen s).map fun (s, writes) => { st with s := s, handed := st.handed ++ writes }
    else some { st with s := s, handed := st.handed ++ reads }

/-- `RequestScheduler_FRFCFS_BATCHING::requestSchedule`, given which command queues are empty. -/
def requestSchedule (gen : Generator) : RequestScheduling Bool (List Bool) := fun empties s sw =>
  let drain :=
    if (s.requestQueue 0).isWriteEnable then
      (List.range s.queueCount).foldlM (drainTurn gen) { s := s, sw := sw }
    else some { s := s, sw := sw }
  (drain.bind fun st => if st.cont_1 then readOrIdle gen empties st else some st).map fun st =>
    (st.s, st.sw, st.handed)

end Batching
end MCsim
