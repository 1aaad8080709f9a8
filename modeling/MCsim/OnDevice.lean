import MCsim.Traffic
import MCsim.Dram.Adapter

/-!
# The memory system on its device

`MemorySystem` as it is built: its device is an adapter with a DRAM tree behind it. `command_check` is the
tree's answer in the device's cycle, and every command that is handed to the device is applied to the tree
in that cycle. Nothing about the device is an input any more; what is left are the arrivals and the cycles.

A question on which the adapter would abort counts as refused here. The set-ups that the laws are about ask
none: whatever it counted as, their runs would be the same (`ddr3_answered`, `amc_answered`).
-/

namespace MCsim

/-- A memory system with the channel of its device. -/
structure OnDevice (ρ κ : Type) (T : Dram.Standard) where
  controller : MemoryController ρ κ
  channel : Dram.Node T.below

namespace OnDevice

open MemoryController

variable {ρ κ : Type} {T : Dram.Standard}

/-- What happens: a request arrives, or a cycle passes. -/
inductive Event where
  | addRequest (requestorID address : Nat) (R_W : Bool) (size : Nat)
  | update

/-- The constructors. -/
def create (T : Dram.Standard) (setup : Setup) (parts : Components ρ κ)
    (refreshCounting bank_release : Nat) : OnDevice ρ κ T :=
  { controller := MemoryController.create setup parts refreshCounting bank_release
    channel := Dram.channel T }

/-- The device's `clockCycle`. -/
def clockCycle (c : MemoryController ρ κ) : Nat := c.commandScheduler.memoryDevice.clockCycle

/-- `command_check` in a cycle. -/
def answers (n : Dram.Node T.below) (clockCycle : Nat) : Answers := fun p =>
  Dram.command_check T n p clockCycle == some true

/-- The commands that a device was handed between two points of an update. -/
def handed (before after : MemoryController ρ κ) : List BusPacket :=
  after.commandScheduler.memoryDevice.commandTrace.drop
    before.commandScheduler.memoryDevice.commandTrace.length

/-- `receiveFromBus` for each of them. -/
def receive (n : Dram.Node T.below) (commands : List BusPacket) (clockCycle : Nat) :
    Option (Dram.Node T.below) :=
  commands.foldlM (fun n p => Dram.receiveFromBus T n p clockCycle) n

/-- `MemorySystem::update`, given what the tree answers in a cycle. The command of the refresh machine has
reached the tree when the command scheduler asks; a posted command reaches it in the device's own update. -/
def updateWith (answers : Dram.Node T.below → Nat → Answers) (setup : Setup) (parts : Components ρ κ)
    (s : OnDevice ρ κ T) : Option (OnDevice ρ κ T) :=
  let clk := clockCycle s.controller
  (s.controller.prepare setup parts (answers s.channel clk)).bind fun prepared =>
  (receive s.channel (handed s.controller prepared) clk).bind fun refreshed =>
  (prepared.schedule setup parts (answers refreshed clk)).bind fun (scheduled, outgoing) =>
  let updated := MemorySystem.deviceUpdate setup (endCycle setup scheduled outgoing)
  (receive refreshed (handed prepared updated) clk).map fun channel =>
    { controller := updated, channel := channel }

def update (setup : Setup) (parts : Components ρ κ) (s : OnDevice ρ κ T) : Option (OnDevice ρ κ T) :=
  s.updateWith answers setup parts

/-- One event. -/
def step (setup : Setup) (parts : Components ρ κ) : Lib.Machine.Step (OnDevice ρ κ T) Event Unit
  | s, .addRequest requestorID address R_W size =>
    (s.controller.addRequest setup requestorID address R_W size).map fun c =>
      ({ s with controller := c }, ())
  | s, .update => (s.update setup parts).map (·, ())

end OnDevice
end MCsim
