import MCsim.Packet

/-!
# The request queue

One queue holds its requests in a general buffer, or in one buffer for each requestor (the order in
which requestors first appeared is `requestorOrder`), and its writes in a write queue of their own
where that is enabled. `scheduledRequest` remembers which request `getRequest` handed out last, and
`removeRequest` removes that one.

A vector index past the end is undefined behaviour in the source; the operations that index are
partial here and give `none` there. A `NULL` answer is `some none`.
-/

namespace MCsim

/-- `RequestQueue::WriteQueue`. -/
structure WriteQueue where
  lowwatermark : Nat
  highwatermark : Nat
  writeQueue : List Request := []
  deriving Repr

namespace WriteQueue

def insertWrite (w : WriteQueue) (request : Request) : WriteQueue :=
  { w with writeQueue := w.writeQueue ++ [request] }

def bufferSize (w : WriteQueue) : Nat := w.writeQueue.length

def highWatermark (w : WriteQueue) : Bool := w.highwatermark < w.writeQueue.length

def lowWatermark (w : WriteQueue) : Bool := w.writeQueue.length < w.lowwatermark

def getWrite (w : WriteQueue) (index : Nat) : Option Request := w.writeQueue[index]?

/-- `popWrite` and `removeWrite`: the element at the index leaves the queue. -/
def popWrite (w : WriteQueue) (index : Nat) : Option WriteQueue :=
  if index < w.writeQueue.length then some { w with writeQueue := w.writeQueue.eraseIdx index }
  else none

end WriteQueue

structure RequestQueue where
  perRequestorEnable : Bool
  writeQueueEnable : Bool
  flag : Bool := false
  writeMode : Bool := false
  writeQueue : Option WriteQueue
  generalBuffer : List Request := []
  requestorBuffer : Nat → Option (List Request) := fun _ => none
  requestorOrder : List Nat := []
  /-- The buffer (per requestor or general), the requestor and the position handed out last. -/
  scheduledRequest : Bool × Nat × Nat := (false, 0, 0)

namespace RequestQueue

/-- The constructor, with the watermarks it builds in. -/
def create (perRequestor writeQueueEnable : Bool) : RequestQueue :=
  { perRequestorEnable := perRequestor
    writeQueueEnable := writeQueueEnable
    writeQueue := if writeQueueEnable then some { lowwatermark := 4, highwatermark := 10 } else none }

def isWriteEnable (q : RequestQueue) : Bool := q.writeQueueEnable

def isPerRequestor (q : RequestQueue) : Bool := q.perRequestorEnable

/-- The requests of one requestor, none where it has no buffer yet. -/
def buffer (q : RequestQueue) (requestorID : Nat) : List Request :=
  (q.requestorBuffer requestorID).getD []

/-- `insertRequest`: a write goes to the write queue where there is one, and otherwise the request
goes to the back of its requestor's buffer or of the general buffer. -/
def insertRequest (q : RequestQueue) (request : Request) : RequestQueue :=
  if q.writeQueueEnable && request.requestType == .DATA_WRITE then
    { q with writeQueue := q.writeQueue.map (·.insertWrite request) }
  else if q.perRequestorEnable then
    let order :=
      if (q.requestorBuffer request.requestorID).isNone then
        q.requestorOrder ++ [request.requestorID] else q.requestorOrder
    { q with
      requestorOrder := order
      requestorBuffer := fun id =>
        if id = request.requestorID then some (q.buffer request.requestorID ++ [request])
        else q.requestorBuffer id }
  else { q with generalBuffer := q.generalBuffer ++ [request] }

def getQueueSize (q : RequestQueue) : Nat := q.requestorOrder.length

/-- `getSize`: of the buffer of the requestor at a position of the order, or of the general one. -/
def getSize (q : RequestQueue) (requestor : Bool) (index : Nat) : Option Nat :=
  if requestor then
    if q.requestorOrder.length = 0 then some 0
    else (q.requestorOrder[index]?).map fun id => (q.buffer id).length
  else some q.generalBuffer.length

def setWriteMode (q : RequestQueue) (set : Bool) : RequestQueue := { q with writeMode := set }

def isWriteMode (q : RequestQueue) : Bool := q.writeMode

/-- `getRequest(reqIndex, index)`: from the buffer of the requestor at a position of the order. -/
def getRequestOf (q : RequestQueue) (reqIndex index : Nat) :
    Option (Option Request × RequestQueue) :=
  (q.requestorOrder[reqIndex]?).bind fun id =>
    if (q.buffer id).isEmpty then some (none, q)
    else ((q.buffer id)[index]?).map fun r =>
      (some r, { q with scheduledRequest := (true, id, index) })

/-- `checkRequestIndex`: the same request, not remembered as scheduled. -/
def checkRequestIndex (q : RequestQueue) (reqIndex index : Nat) : Option (Option Request) :=
  (q.requestorOrder[reqIndex]?).bind fun id =>
    if (q.buffer id).isEmpty then some none else ((q.buffer id)[index]?).map some

/-- `getRequest(index)`: from the general buffer. -/
def getRequest (q : RequestQueue) (index : Nat) : Option (Option Request × RequestQueue) :=
  if q.generalBuffer.isEmpty then some (none, q)
  else (q.generalBuffer[index]?).map fun r =>
    (some r, { q with scheduledRequest := (false, 0, index) })

/-- `getRequestCheck`: the same request, not remembered as scheduled. -/
def getRequestCheck (q : RequestQueue) (index : Nat) : Option (Option Request) :=
  if q.generalBuffer.isEmpty then some none else (q.generalBuffer[index]?).map some

/-- `removeRequest`: the request that `getRequest` handed out last leaves its buffer. -/
def removeRequest (q : RequestQueue) : Option RequestQueue :=
  match q.scheduledRequest with
  | (true, id, index) =>
    if index < (q.buffer id).length then
      some { q with requestorBuffer := fun i =>
        if i = id then some ((q.buffer id).eraseIdx index) else q.requestorBuffer i }
    else none
  | (false, _, index) =>
    if index < q.generalBuffer.length then
      some { q with generalBuffer := q.generalBuffer.eraseIdx index }
    else none

/-- An assignment to a request's size is seen in every buffer that holds it. -/
def assignSize (handle n : Nat) (q : RequestQueue) : RequestQueue :=
  { q with
    generalBuffer := Request.assignSize handle n q.generalBuffer
    requestorBuffer := fun id => (q.requestorBuffer id).map (Request.assignSize handle n)
    writeQueue := q.writeQueue.map fun w =>
      { w with writeQueue := Request.assignSize handle n w.writeQueue } }

end RequestQueue
end MCsim
