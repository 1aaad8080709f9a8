import MCsim.RequestScheduler

/-!
# The MEDUSA request scheduler

`RequestScheduler_MEDUSA`: reads wait in a buffer for each requestor and are served in turn, one a
cycle; writes wait in a write queue of their own and are drained when no read was seen. Above the high
watermark the row hits among the writes go first; then writes go, hit or miss, down to the low
watermark.

Both write loops step over the write that moves up into the place of one they removed. Neither writes
the row table, which the read paths do for every request they hand to the generator. The second one
indexes without a bound: past the end of the vector the source is undefined, and the model is `none`.

The criticality table is looked up at a position of the order in which requestors first appeared; the
requestors of a run are numbered from 0, so every position is in the table.
-/

namespace MCsim
namespace Medusa

open RequestScheduler

/-- `requestSchedule` on its way: the scheduler, the position whose turn it is in each queue, and
whether no read was seen so far. -/
structure Pass where
  scheduler : RequestScheduler
  requestorIndex : Nat → Nat
  writeEnable : Bool

/-- A loop over positions whose body may return from the whole function. -/
def loop (body : Nat → Pass → Option (Pass × Bool)) : List Nat → Pass → Option (Pass × Bool)
  | [], p => some (p, false)
  | num :: nums, p => (body num p).bind fun (p, returned) =>
    if returned then some (p, true) else loop body nums p

/-- `requestorIndex[index]++`, back to 0 at the end. -/
def advance (p : Pass) (index : Nat) : Nat → Nat := fun i =>
  if i = index then
    if p.requestorIndex index + 1 = (p.scheduler.requestQueue index).getQueueSize then 0
    else p.requestorIndex index + 1
  else p.requestorIndex i

/-- A turn of the first loop: the front read of the critical requestor whose turn it is. -/
def criticalTurn (critical : Nat → Bool) (gen : Generator) (index _num : Nat) (p : Pass) :
    Option (Pass × Bool) :=
  let q := p.scheduler.requestQueue index
  if critical (p.requestorIndex index) then
    (q.getSize true (p.requestorIndex index)).bind fun size =>
      if size > 0 then
        (q.getRequestOf (p.requestorIndex index) 0).bind fun (request, q) =>
          let s := p.scheduler.setQueue index q
          match request with
          | none => some ({ p with scheduler := s, requestorIndex := advance p index }, false)
          | some request => (s.serve gen index request).map fun (s, scheduled) =>
            ({ scheduler := s, requestorIndex := advance p index, writeEnable := false }, scheduled)
      else some ({ p with requestorIndex := advance p index }, false)
  else some (p, false)

/-- A turn of the second loop: the front read of the requestor at a position, if it is a row hit. The
size asked for is that of the requestor whose turn it is. -/
def hitTurn (gen : Generator) (index num : Nat) (p : Pass) : Option (Pass × Bool) :=
  let q := p.scheduler.requestQueue index
  (q.getSize true (p.requestorIndex index)).bind fun size =>
    if size > 0 then
      (q.getRequestOf num 0).bind fun (request, q) =>
        let s := p.scheduler.setQueue index q
        match request with
        | none => some ({ p with scheduler := s }, false)
        | some request =>
          if s.isRowHit request then
            (s.serve gen index request).map fun (s, scheduled) =>
              ({ p with scheduler := s, writeEnable := false }, scheduled)
          else some ({ p with scheduler := s, writeEnable := false }, false)
    else some (p, false)

/-- The read loops over one queue. -/
def readQueue (critical : Nat → Bool) (gen : Generator) (index : Nat) (p : Pass) :
    Option (Pass × Bool) :=
  if (p.scheduler.requestQueue index).isPerRequestor then
    let nums := List.range (p.scheduler.requestQueue index).getQueueSize
    (loop (criticalTurn critical gen index) nums p).bind fun (p, returned) =>
      if returned then some (p, true) else loop (hitTurn gen index) nums p
  else some (p, false)

/-- The loop over the row hits of a write queue: after a removal the next write is stepped over. -/
def hitWrites (gen : Generator) :
    Nat → Nat → RequestScheduler × WriteQueue → Option (RequestScheduler × WriteQueue)
  | 0, _, st => some st
  | fuel + 1, qIndex, (s, w) =>
    match w.getWrite qIndex with
    | none => some (s, w)
    | some request =>
      if s.isRowHit request then
        (s.isSchedulable gen request true).bind fun (s, accepted) =>
          if accepted then
            (w.popWrite qIndex).bind fun w => hitWrites gen fuel (qIndex + 1) (s, w)
          else hitWrites gen fuel (qIndex + 1) (s, w)
      else hitWrites gen fuel (qIndex + 1) (s, w)

/-- The loop down to the low watermark. -/
def drainWrites (gen : Generator) :
    Nat → Nat → RequestScheduler × WriteQueue → Option (RequestScheduler × WriteQueue)
  | 0, _, _ => none
  | fuel + 1, qIndex, (s, w) =>
    if w.lowWatermark then some (s, w)
    else
      (w.getWrite qIndex).bind fun request =>
        (s.isSchedulable gen request (s.isRowHit request)).bind fun (s, accepted) =>
          if accepted then
            (w.popWrite qIndex).bind fun w => drainWrites gen fuel (qIndex + 1) (s, w)
          else drainWrites gen fuel (qIndex + 1) (s, w)

/-- The write loops over one queue. Every turn of either raises `qIndex`, and the write queue does not
grow: its length is enough fuel. -/
def writeLoops (gen : Generator) (s : RequestScheduler) (w : WriteQueue) :
    Option (RequestScheduler × WriteQueue) :=
  (if w.highWatermark then hitWrites gen w.bufferSize 0 (s, w) else some (s, w)).bind
    fun (s, w) => drainWrites gen (w.bufferSize + 1) 0 (s, w)

/-- The writes of one queue. -/
def writeQueueTurn (gen : Generator) (s : RequestScheduler) (index : Nat) :
    Option RequestScheduler :=
  match (s.requestQueue index).writeQueue with
  | none => some s
  | some w => (writeLoops gen s w).map fun (s, w) =>
    s.setQueue index { s.requestQueue index with writeQueue := some w }

/-- `RequestScheduler_MEDUSA::requestSchedule`. -/
def requestSchedule (critical : Nat → Bool) (gen : Generator) (s : RequestScheduler)
    (requestorIndex : Nat → Nat) : Option (RequestScheduler × (Nat → Nat)) :=
  let indices := List.range s.queueCount
  (loop (readQueue critical gen) indices
      { scheduler := s, requestorIndex := requestorIndex, writeEnable := true }).bind
    fun (p, returned) =>
      if returned || !p.writeEnable then some (p.scheduler, p.requestorIndex)
      else (indices.foldlM (writeQueueTurn gen) p.scheduler).map fun s => (s, p.requestorIndex)

/-- The scheduler, with `requestorIndex` as its state. `scheduled` is false between two calls. -/
def policy (critical : Nat → Bool) : RequestPolicy (Nat → Nat) where
  requestSchedule := requestSchedule critical

end Medusa
end MCsim
