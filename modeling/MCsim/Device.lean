import MCsim.Packet

/-!
# The memory device, as the controller sees it

`MemoryDevice` is the adapter between the controller and the DRAM model behind it. Here are its clock,
the trace of commands it was handed, the pipeline of read data on its way back and the buffer of
posted commands. The timing answers of the DRAM model (`command_check`) are inputs of the runs, so
that what is proved holds for any answers; the DRAM model itself is in `MCsim.Dram`.

`dataCycles` runs beside `pendingReadData`, and `postCounter` beside `postBuffer`, as in the source.
-/

namespace MCsim

/-- What `get_constraints` answers, by name. An adapter answers 0 for a name it does not know: the
DDR3 and DDR4 adapters know no `tRFCpb` and no `tRFCab`, and no adapter knows `tBUS`, the name the
Round scheduler asks for. -/
structure Constraints where
  tRCD : Nat
  tWL : Nat
  tRL : Nat
  tBus : Nat
  tBUS : Nat := 0
  tREFI : Nat
  tRFC : Nat
  tRFCpb : Nat := 0
  tRRD : Nat
  tFAW : Nat
  tWTR : Nat
  tRTW : Nat
  deriving Repr

/-- A device: its size, its constraints, and the delay `command_timing` gives between a command and
a later command type of the same queue. -/
structure DeviceSpec where
  ranks : Nat
  banks : Nat
  constraints : Constraints
  command_timing : BusPacketType → BusPacketType → Nat

/-- `get_DataBus`: eight chips of the width that the organisation gives. -/
def get_DataBus (dataBusWidth : Nat) : Nat := dataBusWidth * 8

structure MemoryDevice where
  clockCycle : Nat := 0
  /-- The commands applied to the channel, oldest first. -/
  commandTrace : List BusPacket := []
  pendingReadData : List BusPacket := []
  dataCycles : List Nat := []
  postBuffer : List BusPacket := []
  postCounter : List Nat := []

namespace MemoryDevice

/-- The beat of data a column access produces. -/
def dataPacket (cmd : BusPacket) (arriveTime : Nat) : BusPacket :=
  { busPacketType := .DATA, requestorID := cmd.requestorID, address := cmd.address,
    column := 0, row := 0, bank := 0, rank := 0, subArray := 0, arriveTime := arriveTime,
    origin := cmd.origin, lastBeat := cmd.lastBeat }

/-- `generateData`: a read puts its data into the pipeline; `updateDataArray` is empty. -/
def generateData (spec : DeviceSpec) (d : MemoryDevice) (cmd : BusPacket) : MemoryDevice :=
  if cmd.busPacketType = .RD ∨ cmd.busPacketType = .RDA then
    { d with
      pendingReadData := d.pendingReadData ++ [dataPacket cmd cmd.arriveTime]
      dataCycles := d.dataCycles ++ [(spec.constraints.tRL + spec.constraints.tBus) % 2 ^ 32] }
  else d

/-- `receiveFromBus`: a posted command waits, any other is traced and applied, and write data is
swallowed. -/
def receiveFromBus (spec : DeviceSpec) (d : MemoryDevice) (p : BusPacket) : MemoryDevice :=
  if p.postCommand then
    { d with
      postBuffer := d.postBuffer ++ [{ p with rank := 0, postCommand := false }]
      postCounter := d.postCounter ++ [spec.constraints.tRCD] }
  else if p.busPacketType = .DATA then d
  else generateData spec { d with commandTrace := d.commandTrace ++ [p] } p

/-- The first half of `update`: every counter of the read pipeline goes down, and the front packet is
delivered when its counter is 0. -/
def updateReads (d : MemoryDevice) : MemoryDevice × Option BusPacket :=
  if d.pendingReadData.isEmpty then (d, none)
  else
    let cycles := d.dataCycles.map (· - 1)
    if cycles.head? = some 0 then
      ({ d with dataCycles := cycles.tail, pendingReadData := d.pendingReadData.tail },
        d.pendingReadData.head?)
    else ({ d with dataCycles := cycles }, none)

/-- The second half: the same for posted commands, the front one being received for good. -/
def updatePosted (spec : DeviceSpec) (d : MemoryDevice) : MemoryDevice :=
  let counters := d.postCounter.map (· - 1)
  match d.postBuffer with
  | [] => d
  | c :: rest =>
    if counters.head? = some 0 then
      { receiveFromBus spec { d with postCounter := counters } c with
        postBuffer := rest, postCounter := counters.tail }
    else { d with postCounter := counters }

/-- `update`: the next state, and the packet handed to the controller's `receiveData`. -/
def update (spec : DeviceSpec) (d : MemoryDevice) : MemoryDevice × Option BusPacket :=
  let (d, delivered) := d.updateReads
  ({ updatePosted spec d with clockCycle := (d.clockCycle + 1) % 2 ^ 32 }, delivered)

@[simp] theorem dataPacket_requestorID (c : BusPacket) (t : Nat) :
    (dataPacket c t).requestorID = c.requestorID := rfl

@[simp] theorem dataPacket_address (c : BusPacket) (t : Nat) :
    (dataPacket c t).address = c.address := rfl

@[simp] theorem dataPacket_origin (c : BusPacket) (t : Nat) :
    (dataPacket c t).origin = c.origin := rfl

@[simp] theorem dataPacket_lastBeat (c : BusPacket) (t : Nat) :
    (dataPacket c t).lastBeat = c.lastBeat := rfl

/-- A command that is not posted is traced. -/
theorem receiveFromBus_trace {spec : DeviceSpec} {d : MemoryDevice} {p : BusPacket}
    (posted : p.postCommand = false) (cmd : p.busPacketType ≠ .DATA) :
    (receiveFromBus spec d p).commandTrace = d.commandTrace ++ [p] := by
  rw [receiveFromBus, if_neg (by simp [posted]), if_neg cmd, generateData]
  split <;> rfl

end MemoryDevice
end MCsim
