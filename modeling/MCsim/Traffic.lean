import MCsim.MemoryController

/-!
# The traffic of a memory system

What one `MemorySystem::update` passes between controller and device, told apart: the command that the
scheduler sent, the write data passed to `sendData`, the posted command that the device took for good,
and the read data passed to `receiveData`. `traced` is `MemorySystem.step` with this as its output
(`traced_step`).
-/

namespace MCsim

/-- What one update passes on. -/
structure Traffic where
  sent : Option BusPacket
  sendData : Option BusPacket
  /-- `sendDataCounter` as the loop that takes one from each entry finds it. -/
  counted : List Nat
  matured : Option BusPacket
  receiveData : Option BusPacket

/-- The posted command whose counter reaches 0 in this update of the device. -/
def MemoryDevice.duePosted (d : MemoryDevice) : Option BusPacket :=
  if (d.postCounter.map (· - 1)).head? = some 0 then d.postBuffer.head? else none

namespace MemoryController

variable {ρ κ : Type}

/-- The write data whose counter is 0. -/
def dueWrite (c : MemoryController ρ κ) : Option BusPacket :=
  if c.sendDataCounter.head? = some 0 then c.sendDataBuffer.head? else none

/-- The counters left once the write data that is due is gone. -/
def countedWrites (c : MemoryController ρ κ) : List Nat :=
  if c.sendDataCounter.head? = some 0 then c.sendDataCounter.tail else c.sendDataCounter

/-- The first half of `update`, up to the call of `commandSchedule`. -/
def prepare (setup : Setup) (parts : Components ρ κ) (refreshCheck : Answers)
    (c : MemoryController ρ κ) : Option (MemoryController ρ κ) :=
  (parts.requestScheduler.requestSchedule parts.commandGenerator c.requestScheduler
      c.requestPrivate).bind fun (rs, priv) =>
  (enqueueAll setup { c with requestScheduler := rs, requestPrivate := priv }).map fun c =>
    { c with commandScheduler := c.commandScheduler.refresh setup.device refreshCheck }

/-- The call of `commandSchedule`. -/
def schedule (setup : Setup) (parts : Components ρ κ) (check : Answers) (c : MemoryController ρ κ) :
    Option (MemoryController ρ κ × Option BusPacket) :=
  (parts.commandScheduler.commandSchedule setup.device check c.commandScheduler c.commandPrivate).map
    fun (cs, priv, outgoing) =>
      ({ c with commandScheduler := cs, commandPrivate := priv }, outgoing)

/-- `update` in three parts. -/
theorem update_eq (setup : Setup) (parts : Components ρ κ) (refreshCheck check : Answers)
    (c : MemoryController ρ κ) :
    c.update setup parts refreshCheck check =
      (c.prepare setup parts refreshCheck).bind fun c =>
        (c.schedule setup parts check).map fun (c, outgoing) => endCycle setup c outgoing := by
  unfold update prepare schedule
  simp only [Option.bind_assoc, Option.bind_map, Option.map_map]
  rfl

end MemoryController

namespace MemorySystem

open MemoryController

variable {ρ κ : Type}

/-- The traffic of an update, from the controller as `commandSchedule` left it. -/
def trafficOf (setup : Setup) (c : MemoryController ρ κ) (outgoing : Option BusPacket) : Traffic :=
  let reads := (endCycle setup c outgoing).commandScheduler.memoryDevice.updateReads
  { sent := outgoing
    sendData := (queueWriteData setup c outgoing).dueWrite
    counted := (queueWriteData setup c outgoing).countedWrites
    matured := reads.1.duePosted
    receiveData := reads.2 }

/-- `MemorySystem::update` with its traffic. -/
def tracedUpdate (setup : Setup) (parts : Components ρ κ) (refreshCheck check : Answers)
    (c : MemoryController ρ κ) : Option (MemoryController ρ κ × Traffic) :=
  (c.prepare setup parts refreshCheck).bind fun c =>
    (c.schedule setup parts check).map fun (c, outgoing) =>
      (deviceUpdate setup (endCycle setup c outgoing), trafficOf setup c outgoing)

/-- One event at the memory system, with the traffic of an update. -/
def traced (setup : Setup) (parts : Components ρ κ) :
    Lib.Machine.Step (MemoryController ρ κ) Event (Option Traffic)
  | c, .addRequest requestorID address R_W size =>
    (c.addRequest setup requestorID address R_W size).map (·, none)
  | c, .update refreshCheck check =>
    (tracedUpdate setup parts refreshCheck check c).map fun (c, traffic) => (c, some traffic)

/-- A traced event is the event. -/
theorem traced_step (setup : Setup) (parts : Components ρ κ) (c : MemoryController ρ κ) (e : Event) :
    (traced setup parts c e).map (·.1) = (step setup parts c e).map (·.1) := by
  cases e with
  | addRequest requestorID address R_W size =>
    simp only [traced, step, Option.map_map]
    rfl
  | update refreshCheck check =>
    simp only [traced, step, update, update_eq, tracedUpdate]
    cases prepared : c.prepare setup parts refreshCheck with
    | none => rfl
    | some c => simp only [Option.bind_some, Option.map_map, Function.comp_def]

end MemorySystem
end MCsim
