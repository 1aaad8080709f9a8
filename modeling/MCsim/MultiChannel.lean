import MCsim.MemoryController
import MCsim.Requestor

/-!
# Requestors and channels

The whole simulator as `main.cpp` builds it: requestors, a memory system of several channels with one
controller each, and the callback by which a controller reports a completion to the requestor. A
requestor's requests go to the channel that its number selects; back-pressure (`isWriteModeFromController`,
`generalBufferSize`) is read from channel 0.

A controller calls back in the middle of its update. The requestor's answer does not touch the
controller, so the callbacks of an update are delivered after it, in order: they are what the update
added to the controller's log.
-/

namespace MCsim

structure Simulator (ρ κ : Type) where
  numberChannels : Nat
  channels : Nat → MemoryController ρ κ
  numberRequestors : Nat
  requestorsMap : Nat → Requestor

/-- What happens: a requestor's update, or an update of every channel, with the answers of each
channel's device. -/
inductive SimulatorEvent where
  | requestor (id : Nat)
  | memory (refreshCheck check : Nat → Answers)

namespace Simulator

variable {ρ κ : Type}

/-- `MultiChannelMemorySystem::findChannelNumber`. -/
def findChannelNumber (numberChannels requestorID : Nat) : Nat :=
  if numberChannels = 1 then 0 else requestorID % numberChannels

def setChannel (m : Simulator ρ κ) (i : Nat) (c : MemoryController ρ κ) : Simulator ρ κ :=
  { m with channels := fun j => if j = i then c else m.channels j }

def setRequestor (m : Simulator ρ κ) (id : Nat) (q : Requestor) : Simulator ρ κ :=
  { m with requestorsMap := fun j => if j = id then q else m.requestorsMap j }

@[simp] theorem setChannel_requestorsMap (m : Simulator ρ κ) (i : Nat) (c : MemoryController ρ κ) :
    (m.setChannel i c).requestorsMap = m.requestorsMap := rfl

@[simp] theorem setChannel_numberChannels (m : Simulator ρ κ) (i : Nat) (c : MemoryController ρ κ) :
    (m.setChannel i c).numberChannels = m.numberChannels := rfl

theorem setChannel_channels (m : Simulator ρ κ) (i j : Nat) (c : MemoryController ρ κ) :
    (m.setChannel i c).channels j = if j = i then c else m.channels j := rfl

@[simp] theorem setRequestor_channels (m : Simulator ρ κ) (id : Nat) (q : Requestor) :
    (m.setRequestor id q).channels = m.channels := rfl

@[simp] theorem setRequestor_numberChannels (m : Simulator ρ κ) (id : Nat) (q : Requestor) :
    (m.setRequestor id q).numberChannels = m.numberChannels := rfl

theorem setRequestor_requestorsMap (m : Simulator ρ κ) (id j : Nat) (q : Requestor) :
    (m.setRequestor id q).requestorsMap j = if j = id then q else m.requestorsMap j := rfl

/-- Putting a channel back changes nothing. -/
@[simp] theorem setChannel_self (m : Simulator ρ κ) (i : Nat) : m.setChannel i (m.channels i) = m := by
  unfold setChannel
  congr
  funext j
  split
  · next same => rw [same]
  · rfl

/-- `MultiChannelMemorySystem::isWriteModeFromController`. -/
def isWriteModeFromController (m : Simulator ρ κ) : Bool :=
  ((m.channels 0).requestScheduler.requestQueue 0).isWriteMode

/-- `MultiChannelMemorySystem::generalBufferSize`. -/
def generalBufferSize (m : Simulator ρ κ) : Nat :=
  ((m.channels 0).requestScheduler.requestQueue 0).generalBuffer.length

/-- `MultiChannelMemorySystem::addRequest`. -/
def addRequest (setup : Setup) (m : Simulator ρ κ) (request : Request) : Option (Simulator ρ κ) :=
  let channel := findChannelNumber m.numberChannels request.requestorID
  ((m.channels channel).addRequest setup request.requestorID request.address
    (request.requestType == .DATA_READ) request.requestSize).map (m.setChannel channel)

/-- The request that the next `update` of a requestor sends, if it sends one. -/
def decision (m : Simulator ρ κ) (id : Nat) : Option Request :=
  (m.requestorsMap id).read.sends m.isWriteModeFromController m.generalBufferSize

/-- `Requestor::update`. -/
def updateRequestor (setup : Setup) (m : Simulator ρ κ) (id : Nat) : Option (Simulator ρ κ) :=
  match m.decision id with
  | some request =>
    (m.addRequest setup request).map fun m =>
      m.setRequestor id ((m.requestorsMap id).read.sent request).endUpdate
  | none => some (m.setRequestor id (m.requestorsMap id).read.endUpdate)

/-- The callback of `main.cpp`. -/
def callBack (m : Simulator ρ κ) (completion : Completion) : Option (Simulator ρ κ) :=
  ((m.requestorsMap completion.request.requestorID).returnData completion.request).map
    (m.setRequestor completion.request.requestorID)

/-- The update of one channel and the callbacks it makes. -/
def updateChannel (setup : Setup) (parts : Components ρ κ) (refreshCheck check : Nat → Answers)
    (m : Simulator ρ κ) (i : Nat) : Option (Simulator ρ κ) :=
  (MemorySystem.update setup parts (refreshCheck i) (check i) (m.channels i)).bind fun c =>
    (c.callbacks.drop (m.channels i).callbacks.length).foldlM callBack (m.setChannel i c)

/-- `MultiChannelMemorySystem::update`. -/
def updateMemory (setup : Setup) (parts : Components ρ κ) (refreshCheck check : Nat → Answers)
    (m : Simulator ρ κ) : Option (Simulator ρ κ) :=
  (List.range m.numberChannels).foldlM (updateChannel setup parts refreshCheck check) m

/-- One event. -/
def step (setup : Setup) (parts : Components ρ κ) :
    Lib.Machine.Step (Simulator ρ κ) SimulatorEvent Unit
  | m, .requestor id =>
    if id < m.numberRequestors then (m.updateRequestor setup id).map (·, ()) else none
  | m, .memory refreshCheck check => (m.updateMemory setup parts refreshCheck check).map (·, ())

/-- The simulator that `main` builds. The two counters are what each refresh machine's constructor
leaves uninitialised. -/
def create (setup : Setup) (parts : Components ρ κ) (refreshCounting bank_release : Nat → Nat)
    (numberChannels numberRequestors : Nat) (inOrder : Nat → Bool)
    (traces : Nat → List (Option TraceLine)) : Simulator ρ κ :=
  { numberChannels := numberChannels
    channels := fun i => MemoryController.create setup parts (refreshCounting i) (bank_release i)
    numberRequestors := numberRequestors
    requestorsMap := fun id =>
      { requestorID := id, inOrder := inOrder id, transFile := traces id } }

end Simulator
end MCsim
