import MCsim.Packet

/-!
# The command queue

A command queue is a buffer for each requestor, or two general buffers: `hrtBuffer` for critical
requestors and `srtBuffer` for the others. `getCommand` notes in `scheduledQueue` which general
buffer it looked at last, and `removeCommand` removes the front of that one.

Left out: `requestorQueue` and `requestorIndex`, which nothing reads.
-/

namespace MCsim

structure CommandQueue where
  perRequestorEnable : Bool
  scheduledQueue : Bool := true
  requestorMap : List Nat := []
  requestorBuffer : Nat → Option (List BusPacket) := fun _ => none
  hrtBuffer : List BusPacket := []
  srtBuffer : List BusPacket := []

namespace CommandQueue

def isPerRequestor (q : CommandQueue) : Bool := q.perRequestorEnable

/-- The commands of one requestor, none where it has no buffer yet. -/
def buffer (q : CommandQueue) (requestorID : Nat) : List BusPacket :=
  (q.requestorBuffer requestorID).getD []

/-- The general buffer of a criticality. -/
def general (q : CommandQueue) (critical : Bool) : List BusPacket :=
  if critical then q.hrtBuffer else q.srtBuffer

def getRequestorIndex (q : CommandQueue) : Nat := q.requestorMap.length

/-- `getRequestorSize`: the requestor is given by its position in `requestorMap`. -/
def getRequestorSize (q : CommandQueue) (index : Nat) : Option Nat :=
  (q.requestorMap[index]?).map fun id => (q.buffer id).length

def getSize (q : CommandQueue) (critical : Bool) : Nat := (q.general critical).length

def insertCommand (q : CommandQueue) (command : BusPacket) (critical : Bool) : CommandQueue :=
  if q.perRequestorEnable then
    let order :=
      if (q.requestorBuffer command.requestorID).isNone then
        q.requestorMap ++ [command.requestorID] else q.requestorMap
    { q with
      requestorMap := order
      requestorBuffer := fun id =>
        if id = command.requestorID then some (q.buffer command.requestorID ++ [command])
        else q.requestorBuffer id }
  else if critical then { q with hrtBuffer := q.hrtBuffer ++ [command] }
  else { q with srtBuffer := q.srtBuffer ++ [command] }

/-- `getCommand`: the front of a general buffer, noted as the buffer looked at last; the source
aborts where the buffer is empty. -/
def getCommand (q : CommandQueue) (critical : Bool) : Option (BusPacket × CommandQueue) :=
  (q.general critical).head?.map fun c => (c, { q with scheduledQueue := critical })

/-- `getRequestorCommand`: the front of the buffer of the requestor at a position. -/
def getRequestorCommand (q : CommandQueue) (index : Nat) : Option BusPacket :=
  (q.requestorMap[index]?).bind fun id => (q.buffer id).head?

/-- `removeCommand(requestorID)`. -/
def removeRequestorCommand (q : CommandQueue) (requestorID : Nat) : CommandQueue :=
  { q with requestorBuffer := fun id =>
      if id = requestorID then some (q.buffer requestorID).tail else q.requestorBuffer id }

/-- `removeCommand()`: the front of the general buffer that `getCommand` looked at last. -/
def removeCommand (q : CommandQueue) : CommandQueue :=
  if q.scheduledQueue then { q with hrtBuffer := q.hrtBuffer.tail }
  else { q with srtBuffer := q.srtBuffer.tail }

/-! ## What each operation does to the buffers -/

@[simp] theorem insertCommand_perRequestor (q : CommandQueue) (c : BusPacket) (critical : Bool) :
    (q.insertCommand c critical).perRequestorEnable = q.perRequestorEnable := by
  unfold insertCommand
  split <;> [rfl; split <;> rfl]

@[simp] theorem insertCommand_scheduledQueue (q : CommandQueue) (c : BusPacket) (critical : Bool) :
    (q.insertCommand c critical).scheduledQueue = q.scheduledQueue := by
  unfold insertCommand
  split <;> [rfl; split <;> rfl]

/-- A critical command joins the back of the critical buffer of a queue that is not per requestor. -/
theorem insertCommand_critical {q : CommandQueue} (h : q.perRequestorEnable = false)
    (c : BusPacket) :
    q.insertCommand c true = { q with hrtBuffer := q.hrtBuffer ++ [c] } := by
  simp [insertCommand, h]

/-- Looking at the critical buffer changes nothing where it was the one looked at last. -/
theorem getCommand_true {q : CommandQueue} (h : q.scheduledQueue = true) :
    q.getCommand true = q.hrtBuffer.head?.map fun c => (c, q) := by
  have same : ({ q with scheduledQueue := true } : CommandQueue) = q := by
    cases q; simp_all
  simp [getCommand, general, same]

theorem buffer_insertCommand {q : CommandQueue} (h : q.perRequestorEnable = true) (c : BusPacket)
    (critical : Bool) (id : Nat) :
    (q.insertCommand c critical).buffer id =
      if id = c.requestorID then q.buffer id ++ [c] else q.buffer id := by
  simp only [insertCommand, h, if_true, buffer]
  split
  · next e => subst e; rfl
  · rfl

@[simp] theorem buffer_removeRequestorCommand (q : CommandQueue) (requestorID id : Nat) :
    (q.removeRequestorCommand requestorID).buffer id =
      if id = requestorID then (q.buffer id).tail else q.buffer id := by
  simp only [removeRequestorCommand, buffer]
  split
  · next e => subst e; rfl
  · rfl

end CommandQueue
end MCsim
