import MCsim.AddressMapping
import MCsim.RequestScheduler
import MCsim.Schedulers.General

/-!
# The memory controller

`MemoryController` ties the parts together. `addRequest` decodes an address and queues the request
(which is also kept as pending until its data came back). `update` is one cycle: the request scheduler
hands requests to the generator, the generated commands are sorted into the command queues, the
refresh machine and the command scheduler each send at most one command, and the write data whose
time has come is sent. `MemorySystem.update` follows it by one update of the device, which may
deliver read data to `receiveData`.

A pending request is found by requestor and address alone. It is the same object that waits in a
request queue, so the size that `receiveData` and `sendData` count down is written through to the
queues as well.

`accepted` and `callbacks` are logs: the requests `addRequest` made, and the completions reported by
the callback, each with the data packet that caused it. `nextHandle` is the allocator.
-/

namespace MCsim

/-- The configuration: the `.ini` file, the device, the requestors' criticality and the build. -/
structure Setup where
  build : Privatization
  format : List MemOrg
  memTable : MemOrg → Nat
  reqMap : List Bool
  cmdMap : List Bool
  writeQueueEnable : Bool
  requestorReqQ : Bool
  requestorCmdQ : Bool
  requestorCriticalTable : Nat → Bool
  dataBusWidth : Nat
  refresh_mechanism : RefreshMechanism
  device : DeviceSpec

/-! ## Queue selection -/

/-- The levels in the order of `memTable`. -/
def MemOrg.levels : List MemOrg := [.Rank, .BankGroup, .Bank, .SubArray, .Row, .Column]

/-- `memTable[index]`. -/
def Setup.count (setup : Setup) (index : Nat) : Nat :=
  (MemOrg.levels[index]?).elim 0 setup.memTable

/-- `addressMap[index]`. -/
def AddressMap.get (a : AddressMap) : Nat → Nat
  | 0 => a.rank
  | 1 => a.bankGroup
  | 2 => a.bank
  | 3 => a.subArray
  | _ => 0

/-- `queueNumber`: the product of the counts down to the first level marked. -/
def queueNumber (setup : Setup) (queueMap : List Bool) : Nat :=
  match queueMap.findIdx? id with
  | none => 1
  | some index => (List.range (index + 1)).foldl (fun n i => n * setup.count i % 2 ^ 32) 1

/-- `decodeQueue`: the position at the first level marked, and the levels above it multiplied where
they are not 0. -/
def decodeQueue (setup : Setup) (a : AddressMap) (queueMap : List Bool) : Nat :=
  match queueMap.findIdx? id with
  | none => 0
  | some index =>
    let level := (List.range index).foldl (fun level n =>
      if 0 < a.get n then
        if level = 0 then a.get n else level * a.get n % 2 ^ 32
      else level) 0
    (a.get index + level * setup.count index) % 2 ^ 32

/-! ## The controller's state -/

structure Statistics where
  totalRequest : Nat := 0
  openRead : Nat := 0
  closeRead : Nat := 0
  openWrite : Nat := 0
  closeWrite : Nat := 0
  readBytes : Nat := 0
  writeBytes : Nat := 0
  open_counter : Nat := 0
  close_counter : Nat := 0
  openRead_Latency : Nat := 0
  openWrite_Latency : Nat := 0
  closeRead_Latency : Nat := 0
  closeWrite_Latency : Nat := 0
  closeRequest : Bool := true
  deriving Repr

/-- A callback: the request it reported and the data packet that completed it. -/
structure Completion where
  request : Request
  packet : BusPacket
  deriving Repr

structure MemoryController (ρ κ : Type) where
  clockCycle : Nat := 0
  requestScheduler : RequestScheduler
  requestPrivate : ρ
  commandScheduler : CommandScheduler
  commandPrivate : κ
  pendingReadRequest : List Request := []
  pendingWriteRequest : List Request := []
  sendDataBuffer : List BusPacket := []
  sendDataCounter : List Nat := []
  stats : Statistics := {}
  nextHandle : Nat := 0
  accepted : List Request := []
  callbacks : List Completion := []

/-- The schedulers and the generator that a configuration selects by name. -/
structure Components (ρ κ : Type) where
  requestScheduler : RequestPolicy ρ
  requestInit : ρ
  commandGenerator : Generator
  commandScheduler : CommandPolicy κ
  commandInit : κ

namespace MemoryController

variable {ρ κ : Type}

/-- The constructor and `connectMemoryDevice`. The two counters are what the refresh machine's
constructor leaves uninitialised. -/
def create (setup : Setup) (parts : Components ρ κ) (refreshCounting bank_release : Nat) :
    MemoryController ρ κ :=
  { requestScheduler :=
      { queueCount := queueNumber setup setup.reqMap
        requestQueue := fun _ => RequestQueue.create setup.requestorReqQ setup.writeQueueEnable
        commandGenerator := { dataBusSize := setup.dataBusWidth } }
    requestPrivate := parts.requestInit
    commandScheduler :=
      { queueCount := queueNumber setup setup.cmdMap
        commandQueue := fun _ => { perRequestorEnable := setup.requestorCmdQ }
        refreshMachine :=
          RefreshMachine.create setup.refresh_mechanism setup.device refreshCounting bank_release }
    commandPrivate := parts.commandInit }

/-! ## Requests in -/

/-- The request that `addRequest` makes: decoded, with the next handle. -/
def incoming (setup : Setup) (c : MemoryController ρ κ) (requestorID address : Nat) (R_W : Bool)
    (size : Nat) : Request :=
  AddressMapping.addressMapping setup.build
    (AddressMapping.decodeIndex setup.format setup.memTable)
    { handle := c.nextHandle, requestType := if R_W then .DATA_READ else .DATA_WRITE,
      requestorID := requestorID, requestSize := size, address := address,
      arriveTime := c.clockCycle % 2 ^ 32 }

/-- `addRequest`. Undefined where the decoded queue does not exist. -/
def addRequest (setup : Setup) (c : MemoryController ρ κ) (requestorID address : Nat) (R_W : Bool)
    (size : Nat) : Option (MemoryController ρ κ) :=
  let request := incoming setup c requestorID address R_W size
  let queueIndex := decodeQueue setup request.addressMap setup.reqMap
  if queueIndex < c.requestScheduler.queueCount then
    some { c with
      stats := if requestorID = 0 then
        { c.stats with totalRequest := c.stats.totalRequest + 1 } else c.stats
      requestScheduler := c.requestScheduler.setQueue queueIndex
        ((c.requestScheduler.requestQueue queueIndex).insertRequest request)
      pendingReadRequest :=
        if R_W then c.pendingReadRequest ++ [request] else c.pendingReadRequest
      pendingWriteRequest :=
        if R_W then c.pendingWriteRequest else c.pendingWriteRequest ++ [request]
      nextHandle := c.nextHandle + 1
      accepted := c.accepted ++ [request] }
  else none

/-! ## Commands into their queues -/

/-- The statistics that `enqueueCommand` keeps of requestor 0. -/
def trackCommand (stats : Statistics) (command : BusPacket) : Statistics :=
  if command.requestorID = 0 then
    match command.busPacketType with
    | .ACT_R | .ACT_W | .ACT => { stats with closeRequest := true }
    | .RD | .RDA =>
      if stats.closeRequest then
        { stats with close_counter := 0, closeRead := stats.closeRead + 1 }
      else { stats with open_counter := 0, openRead := stats.openRead + 1 }
    | .WR | .WRA =>
      if stats.closeRequest then
        { stats with close_counter := 0, closeWrite := stats.closeWrite + 1 }
      else { stats with open_counter := 0, openWrite := stats.openWrite + 1 }
    | _ => stats
  else stats

/-- The queue a command goes to: rank and bank group are taken for 0. -/
def commandIndex (setup : Setup) (command : BusPacket) : Nat :=
  decodeQueue setup { bank := command.bank, subArray := command.subArray } setup.cmdMap

/-- `enqueueCommand`. Undefined where the decoded queue does not exist. -/
def enqueueCommand (setup : Setup) (c : MemoryController ρ κ) (command : BusPacket) :
    Option (MemoryController ρ κ) :=
  let queueIndex := commandIndex setup command
  if queueIndex < c.commandScheduler.queueCount then
    some { c with
      stats := trackCommand c.stats command
      commandScheduler := c.commandScheduler.insertCommand queueIndex
        { command with arriveTime := c.clockCycle % 2 ^ 32 }
        (setup.requestorCriticalTable command.requestorID) }
  else none

/-- The loop of `update` that empties the generator into the command queues. -/
def enqueueAll (setup : Setup) (c : MemoryController ρ κ) : Option (MemoryController ρ κ) :=
  let commands := c.requestScheduler.commandGenerator.commandBuffer
  (commands.foldlM (enqueueCommand setup) c).map fun c =>
    { c with requestScheduler :=
        { c.requestScheduler with commandGenerator :=
            { c.requestScheduler.commandGenerator with commandBuffer := [] } } }

/-! ## Data and completion -/

/-- A packet is matched with a pending request by requestor and address. -/
def matchesRequest (p : BusPacket) (r : Request) : Bool :=
  p.requestorID == r.requestorID && p.address == r.address

/-- The statistics of a completed read of requestor 0; `isRead` picks the fields. -/
def trackCompletion (isRead : Bool) (stats : Statistics) (p : BusPacket) : Statistics :=
  if p.requestorID = 0 then
    let stats :=
      if stats.closeRequest then
        let stats := { stats with closeRequest := false }
        if isRead then
          { stats with closeRead_Latency := max stats.closeRead_Latency stats.close_counter }
        else { stats with closeWrite_Latency := max stats.closeWrite_Latency stats.close_counter }
      else
        if isRead then
          { stats with openRead_Latency := max stats.openRead_Latency stats.open_counter }
        else { stats with openWrite_Latency := max stats.openWrite_Latency stats.open_counter }
    { stats with close_counter := 0, open_counter := 0 }
  else stats

/-- The assignment `requestSize = n` through a pending pointer. -/
def assignSize (c : MemoryController ρ κ) (handle n : Nat) : MemoryController ρ κ :=
  { c with
    requestScheduler := c.requestScheduler.assignSize handle n
    pendingReadRequest := Request.assignSize handle n c.pendingReadRequest
    pendingWriteRequest := Request.assignSize handle n c.pendingWriteRequest }

/-- The pending list of a direction. -/
def pending (isRead : Bool) (c : MemoryController ρ κ) : List Request :=
  if isRead then c.pendingReadRequest else c.pendingWriteRequest

def setPending (isRead : Bool) (c : MemoryController ρ κ) (l : List Request) :
    MemoryController ρ κ :=
  if isRead then { c with pendingReadRequest := l } else { c with pendingWriteRequest := l }

/-- The search that `receiveData` and `sendData` share: the first pending request that the packet
matches is completed when one data bus width is left of it, and counted down otherwise. -/
def deliver (setup : Setup) (isRead : Bool) (c : MemoryController ρ κ) (p : BusPacket) :
    MemoryController ρ κ :=
  match (c.pending isRead).findIdx? (matchesRequest p) with
  | none => c
  | some index =>
    match (c.pending isRead)[index]? with
    | none => c
    | some r =>
      if r.requestSize = setup.dataBusWidth then
        setPending isRead
          { c with
            callbacks := c.callbacks ++ [{ request := r, packet := p }]
            stats := trackCompletion isRead c.stats p }
          ((c.pending isRead).eraseIdx index)
      else c.assignSize r.handle ((r.requestSize + (2 ^ 32 - setup.dataBusWidth)) % 2 ^ 32)

/-- `receiveData`. -/
def receiveData (setup : Setup) (c : MemoryController ρ κ) (p : BusPacket) : MemoryController ρ κ :=
  deliver setup true
    { c with stats := { c.stats with readBytes := c.stats.readBytes + setup.dataBusWidth } } p

/-- `sendData`. -/
def sendData (setup : Setup) (c : MemoryController ρ κ) (p : BusPacket) : MemoryController ρ κ :=
  deliver setup false
    { c with
      commandScheduler := { c.commandScheduler with
        memoryDevice := c.commandScheduler.memoryDevice.receiveFromBus setup.device p }
      stats := { c.stats with writeBytes := c.stats.writeBytes + setup.dataBusWidth } } p

/-- The data of a write that was sent, with the cycles until it is on the bus. -/
def queueWriteData (setup : Setup) (c : MemoryController ρ κ) (outgoing : Option BusPacket) :
    MemoryController ρ κ :=
  match outgoing with
  | none => c
  | some cmd =>
    if cmd.busPacketType = .WR ∨ cmd.busPacketType = .WRA then
      let k := setup.device.constraints
      { c with
        sendDataBuffer := c.sendDataBuffer ++
          [{ MemoryDevice.dataPacket cmd (c.clockCycle % 2 ^ 32) with
              column := cmd.column, row := cmd.row, bank := cmd.bank, subArray := cmd.subArray }]
        sendDataCounter := c.sendDataCounter ++
          [if cmd.postCommand then (k.tRCD + (2 ^ 32 - 1) + k.tWL + k.tBus) % 2 ^ 32
            else (k.tWL + k.tBus) % 2 ^ 32] }
    else c

/-- The write data whose counter is 0 leaves; the counters left go down by one, wrapping at 0. -/
def sendWriteData (setup : Setup) (c : MemoryController ρ κ) : MemoryController ρ κ :=
  let down := fun (c : MemoryController ρ κ) =>
    { c with sendDataCounter := c.sendDataCounter.map fun n => (n + (2 ^ 32 - 1)) % 2 ^ 32 }
  if c.sendDataCounter.head? = some 0 then
    match c.sendDataBuffer with
    | [] => c
    | p :: rest =>
      let c := sendData setup c p
      down { c with sendDataCounter := c.sendDataCounter.tail, sendDataBuffer := rest }
  else down c

/-! ## One cycle -/

/-- The end of `update`, after the command scheduler returned: write data, clocks and counters. -/
def endCycle (setup : Setup) (c : MemoryController ρ κ) (outgoing : Option BusPacket) :
    MemoryController ρ κ :=
  let c := sendWriteData setup (queueWriteData setup c outgoing)
  { c with
    requestScheduler := c.requestScheduler.step
    commandScheduler := c.commandScheduler.tick
    clockCycle := c.clockCycle + 1
    stats := { c.stats with
      close_counter := c.stats.close_counter + 1, open_counter := c.stats.open_counter + 1 } }

/-- `update`. The refresh machine's command and the scheduler's are checked against answers of their
own: the device may have changed between the two. -/
def update (setup : Setup) (parts : Components ρ κ) (refreshCheck check : Answers)
    (c : MemoryController ρ κ) : Option (MemoryController ρ κ) :=
  (parts.requestScheduler.requestSchedule parts.commandGenerator c.requestScheduler
      c.requestPrivate).bind fun (rs, priv) =>
  (enqueueAll setup { c with requestScheduler := rs, requestPrivate := priv }).bind fun c =>
  (parts.commandScheduler.commandSchedule setup.device check
      (c.commandScheduler.refresh setup.device refreshCheck) c.commandPrivate).map
    fun (cs, priv, outgoing) =>
  endCycle setup { c with commandScheduler := cs, commandPrivate := priv } outgoing

end MemoryController

/-! ## Runs -/

/-- What happens to a controller or a memory system: a request arrives, or a cycle passes with some
answers of the device. -/
inductive Event where
  | addRequest (requestorID address : Nat) (R_W : Bool) (size : Nat)
  | update (refreshCheck check : Answers)

namespace MemoryController

variable {ρ κ : Type}

/-- One event at the controller. -/
def step (setup : Setup) (parts : Components ρ κ) :
    Lib.Machine.Step (MemoryController ρ κ) Event Unit
  | c, .addRequest requestorID address R_W size =>
    (c.addRequest setup requestorID address R_W size).map (·, ())
  | c, .update refreshCheck check => (c.update setup parts refreshCheck check).map (·, ())

end MemoryController

namespace MemorySystem

open MemoryController

variable {ρ κ : Type}

/-- The device's update, and the delivery of its read data to the controller. -/
def deviceUpdate (setup : Setup) (c : MemoryController ρ κ) : MemoryController ρ κ :=
  let (d, delivered) := c.commandScheduler.memoryDevice.update setup.device
  let c := { c with commandScheduler := { c.commandScheduler with memoryDevice := d } }
  match delivered with
  | none => c
  | some p => receiveData setup c p

/-- `MemorySystem::update`: the controller, then the device. -/
def update (setup : Setup) (parts : Components ρ κ) (refreshCheck check : Answers)
    (c : MemoryController ρ κ) : Option (MemoryController ρ κ) :=
  (c.update setup parts refreshCheck check).map (deviceUpdate setup)

/-- One event at the memory system. -/
def step (setup : Setup) (parts : Components ρ κ) :
    Lib.Machine.Step (MemoryController ρ κ) Event Unit
  | c, .addRequest requestorID address R_W size =>
    (c.addRequest setup requestorID address R_W size).map (·, ())
  | c, .update refreshCheck check => (update setup parts refreshCheck check c).map (·, ())

end MemorySystem
end MCsim
