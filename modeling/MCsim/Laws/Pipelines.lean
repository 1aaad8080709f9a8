import MCsim.Lib.DelayLine
import MCsim.Laws.Posting

/-!
# The data pipelines are exact

Three queues hold packets beside counters: the write data of the controller, the read data of the device
and its posted commands. In each cycle every counter goes down, and only the front is asked for 0. Each
is a delay line (`Lib.DelayLine`): its counters are the positions of the taken slots of a shift register,
which a cycle shifts by one. So the front is the only entry whose counter can be 0, nothing is counted
below 0, and what leaves in a cycle is what entered a fixed number of cycles before
(`MemorySystem.pipelines_exact`).

A read is accepted when the device receives it for good: from the bus, ahead of the device's own update
of that cycle, or out of the buffer of posted commands, behind the read half of that update.
-/

namespace MCsim

open Lib.DelayLine

/-! ## The streams -/

/-- The cycles from a write to its data, as the controller computes them: an unsigned sum. -/
def Constraints.writeDelay (k : Constraints) (posted : Bool) : Nat :=
  if posted then (k.tRCD + (2 ^ 32 - 1) + k.tWL + k.tBus) % 2 ^ 32 else (k.tWL + k.tBus) % 2 ^ 32

/-- The updates from a read to its data, as the device computes them. -/
def Constraints.readDelay (k : Constraints) : Nat := (k.tRL + k.tBus) % 2 ^ 32

theorem Constraints.writeDelay_lt (k : Constraints) (posted : Bool) : k.writeDelay posted < 2 ^ 32 := by
  unfold writeDelay
  split <;> exact Nat.mod_lt _ (by decide)

/-- The sums are the mathematical ones where these fit. -/
theorem Constraints.writeDelay_eq {k : Constraints} (activates : 0 < k.tRCD)
    (fits : k.tRCD + k.tWL + k.tBus < 2 ^ 32) (posted : Bool) :
    k.writeDelay posted = k.tWL + k.tBus + if posted then k.tRCD - 1 else 0 := by
  unfold writeDelay
  cases posted with
  | true =>
    rw [if_pos rfl, if_pos rfl,
      show k.tRCD + (2 ^ 32 - 1) + k.tWL + k.tBus = k.tWL + k.tBus + (k.tRCD - 1) + 2 ^ 32 by omega,
      Nat.add_mod_right, Nat.mod_eq_of_lt (by omega)]
  | false => rw [if_neg Bool.false_ne_true, if_neg Bool.false_ne_true, Nat.mod_eq_of_lt (by omega), Nat.add_zero]

/-- The data of a command, where it is a write that is sent in a cycle. -/
def writeData (cycle : Nat) (cmd : BusPacket) : Option BusPacket :=
  if cmd.busPacketType = .WR ∨ cmd.busPacketType = .WRA then
    some { MemoryDevice.dataPacket cmd (cycle % 2 ^ 32) with
      column := cmd.column, row := cmd.row, bank := cmd.bank, subArray := cmd.subArray }
  else none

/-- The data of a command, where it is a read. -/
def readData (cmd : BusPacket) : Option BusPacket :=
  if cmd.busPacketType = .RD ∨ cmd.busPacketType = .RDA then
    some (MemoryDevice.dataPacket cmd cmd.arriveTime)
  else none

/-- The copy of a posted command that the device keeps. -/
def postedCopy (cmd : BusPacket) : Option BusPacket :=
  if cmd.postCommand then some { cmd with rank := 0, postCommand := false } else none

/-- The write data of each update. -/
def writesOf (traffic : List Traffic) : List (Option BusPacket) :=
  traffic.mapIdx fun t tr => tr.sent.bind (writeData t)

/-- The posted command of each update. -/
def postsOf (traffic : List Traffic) : List (Option BusPacket) :=
  traffic.map fun tr => tr.sent.bind postedCopy

/-- The data of the read that the device accepts in each update: the command that was sent, or the posted
one that matured. -/
def readsOf (posted : Bool) (traffic : List Traffic) : List (Option BusPacket) :=
  traffic.map fun tr => (if posted then tr.matured else tr.sent).bind readData

/-! ## The lines of the device -/

namespace MemoryDevice

variable {spec : DeviceSpec} {d : MemoryDevice}

/-- A command that is received for good. -/
theorem receiveFromBus_unposted {cmd : BusPacket} (unposted : cmd.postCommand = false) :
    (d.receiveFromBus spec cmd).pendingReadData = d.pendingReadData ++ (readData cmd).toList ∧
      (d.receiveFromBus spec cmd).dataCycles =
        d.dataCycles ++ ((readData cmd).map fun _ => spec.constraints.readDelay).toList ∧
      (d.receiveFromBus spec cmd).postBuffer = d.postBuffer ∧
      (d.receiveFromBus spec cmd).postCounter = d.postCounter := by
  unfold receiveFromBus generateData readData
  rw [if_neg (by simp [unposted])]
  by_cases read : cmd.busPacketType = .RD ∨ cmd.busPacketType = .RDA
  · have command : cmd.busPacketType ≠ .DATA := by
      rcases read with read | read <;> simp [read]
    rw [if_neg command, if_pos read, if_pos read]
    exact ⟨rfl, rfl, rfl, rfl⟩
  · rw [if_neg read, if_neg read]
    split <;> simp

/-- A command that is posted. -/
theorem receiveFromBus_posted {cmd : BusPacket} (posted : cmd.postCommand = true) :
    d.receiveFromBus spec cmd =
      { d with
        postBuffer := d.postBuffer ++ (postedCopy cmd).toList
        postCounter := d.postCounter ++ ((postedCopy cmd).map fun _ => spec.constraints.tRCD).toList } := by
  simp [receiveFromBus, postedCopy, posted]

/-- **The read half of an update**: what stands in the first slot is handed to the controller. -/
theorem updateReads_line {o : Option BusPacket} {reg : List (Option BusPacket)}
    (keeps : Keeps 1 (o :: reg) d.pendingReadData d.dataCycles) :
    d.updateReads.2 = o ∧
      Keeps 1 reg d.updateReads.1.pendingReadData d.updateReads.1.dataCycles ∧
      d.updateReads.1.postBuffer = d.postBuffer ∧ d.updateReads.1.postCounter = d.postCounter := by
  have leaves := keeps.down.leaving
  have rest := keeps.down.rest
  by_cases pending : d.pendingReadData = []
  · have none_left : d.dataCycles = [] := by
      rw [← List.length_eq_zero_iff, ← keeps.length_eq, pending]
      rfl
    have updated : d.updateReads = (d, none) := by simp [updateReads, pending]
    rw [pending, none_left] at leaves rest
    rw [updated, pending, none_left]
    exact ⟨leaves, rest, rfl, rfl⟩
  · by_cases zero : (d.dataCycles.map (· - 1)).head? = some 0
    · have updated : d.updateReads = ({ d with
          dataCycles := (d.dataCycles.map (· - 1)).tail, pendingReadData := d.pendingReadData.tail },
          d.pendingReadData.head?) := by
        unfold updateReads
        rw [if_neg (by simpa using pending)]
        exact if_pos zero
      rw [if_pos zero] at leaves rest
      rw [if_pos zero] at rest
      rw [updated]
      exact ⟨leaves, rest, rfl, rfl⟩
    · have updated : d.updateReads = ({ d with dataCycles := d.dataCycles.map (· - 1) }, none) := by
        unfold updateReads
        rw [if_neg (by simpa using pending)]
        exact if_neg zero
      rw [if_neg zero] at leaves rest
      rw [if_neg zero] at rest
      rw [updated]
      exact ⟨leaves, rest, rfl, rfl⟩

/-- **The other half**: what stands in the first slot is received for good. -/
theorem updatePosted_line {o : Option BusPacket} {reg : List (Option BusPacket)}
    (keeps : Keeps 1 (o :: reg) d.postBuffer d.postCounter)
    (plain : ∀ x ∈ d.postBuffer, x.postCommand = false) :
    d.duePosted = o ∧
      Keeps 1 reg (d.updatePosted spec).postBuffer (d.updatePosted spec).postCounter ∧
      (∀ x ∈ (d.updatePosted spec).postBuffer, x.postCommand = false) ∧
      (d.updatePosted spec).pendingReadData = d.pendingReadData ++ (o.bind readData).toList ∧
      (d.updatePosted spec).dataCycles =
        d.dataCycles ++ ((o.bind readData).map fun _ => spec.constraints.readDelay).toList := by
  have leaves := keeps.down.leaving
  have rest := keeps.down.rest
  have due : d.duePosted = o := leaves
  cases buffer : d.postBuffer with
  | nil =>
    have none_left : d.postCounter = [] := by
      rw [← List.length_eq_zero_iff, ← keeps.length_eq, buffer]
      rfl
    have updated : d.updatePosted spec = d := by
      unfold updatePosted
      rw [buffer]
    rw [buffer, none_left] at leaves rest
    cases leaves
    rw [updated, buffer, none_left]
    exact ⟨due, rest, fun _ h => (nomatch h), (List.append_nil _).symm, (List.append_nil _).symm⟩
  | cons c l =>
    rw [buffer] at leaves rest plain
    by_cases zero : (d.postCounter.map (· - 1)).head? = some 0
    · have updated : d.updatePosted spec =
          { receiveFromBus spec { d with postCounter := d.postCounter.map (· - 1) } c with
            postBuffer := l, postCounter := (d.postCounter.map (· - 1)).tail } := by
        unfold updatePosted
        rw [buffer]
        exact if_pos zero
      rw [if_pos zero] at leaves rest
      rw [if_pos zero] at rest
      obtain rfl : some c = o := leaves
      obtain ⟨pending, cycles, _, _⟩ := @receiveFromBus_unposted spec
        { d with postCounter := d.postCounter.map (· - 1) } c (plain c List.mem_cons_self)
      rw [updated]
      exact ⟨due, rest, fun x hx => plain x (List.mem_cons_of_mem c hx), pending, cycles⟩
    · have updated : d.updatePosted spec = { d with postCounter := d.postCounter.map (· - 1) } := by
        unfold updatePosted
        rw [buffer]
        exact if_neg zero
      rw [if_neg zero] at leaves rest
      rw [if_neg zero] at rest
      subst leaves
      rw [updated]
      dsimp only
      rw [buffer]
      exact ⟨due, rest, plain, (List.append_nil _).symm, (List.append_nil _).symm⟩

end MemoryDevice

/-! ## The line of the controller -/

namespace MemoryController

variable {ρ κ : Type} {setup : Setup} {parts : Components ρ κ} {posted : Bool}
  {c c' : MemoryController ρ κ}

/-- The write data of the command that was sent joins the line. -/
theorem queueWriteData_line {reg : List (Option BusPacket)} {out : Option BusPacket}
    (kind : ∀ x, out = some x → x.Posts posted)
    (slots : reg.length = setup.device.constraints.writeDelay posted)
    (keeps : Keeps 0 reg c.sendDataBuffer c.sendDataCounter) :
    Keeps 0 (reg ++ [out.bind (writeData c.clockCycle)]) (queueWriteData setup c out).sendDataBuffer
      (queueWriteData setup c out).sendDataCounter := by
  have enters := keeps.enter (out.bind (writeData c.clockCycle))
  rw [slots, Nat.zero_add] at enters
  cases out with
  | none => simpa [queueWriteData] using enters
  | some cmd =>
    rw [Option.bind_some] at enters ⊢
    unfold queueWriteData
    unfold writeData at enters ⊢
    by_cases write : cmd.busPacketType = .WR ∨ cmd.busPacketType = .WRA
    · have column : cmd.busPacketType.isColumn = true := by
        rcases write with write | write <;> simp [write, BusPacketType.isColumn]
      have flag : cmd.postCommand = posted := by
        rw [(kind cmd rfl).2, column, Bool.and_true]
      rw [if_pos write] at enters ⊢
      dsimp only
      rw [if_pos write, flag]
      exact enters
    · rw [if_neg write] at enters ⊢
      dsimp only
      rw [if_neg write]
      simpa using enters

/-- A delivery takes no time. -/
theorem clockCycle_deliver (setup : Setup) (isRead : Bool) (c : MemoryController ρ κ) (p : BusPacket) :
    (deliver setup isRead c p).clockCycle = c.clockCycle := by
  obtain ⟨_, h⟩ | ⟨index, r, _, ⟨_, h⟩ | ⟨_, h⟩⟩ := deliver_cases setup isRead c p
  · rw [h]
  · rw [h]
    cases isRead <;> rfl
  · rw [h]
    rfl

/-- Write data that leaves takes nothing but its entry away. -/
theorem sendData_frame (setup : Setup) (c : MemoryController ρ κ) (p : BusPacket) :
    (sendData setup c p).sendDataCounter = c.sendDataCounter ∧
      (sendData setup c p).clockCycle = c.clockCycle := by
  unfold sendData
  obtain ⟨_, _, _, counters⟩ := deliver_frame setup false
    { c with
      commandScheduler := { c.commandScheduler with
        memoryDevice := c.commandScheduler.memoryDevice.receiveFromBus setup.device p }
      stats := { c.stats with writeBytes := c.stats.writeBytes + setup.dataBusWidth } } p
  exact ⟨counters, clockCycle_deliver _ _ _ _⟩

/-- **The write half of a cycle**: what stands in the first slot is passed to `sendData`, and no counter
that is taken from is 0. -/
theorem sendWriteData_line {o : Option BusPacket} {reg : List (Option BusPacket)}
    (slots : reg.length < 2 ^ 32) (keeps : Keeps 0 (o :: reg) c.sendDataBuffer c.sendDataCounter) :
    c.dueWrite = o ∧ (sendWriteData setup c).clockCycle = c.clockCycle ∧
      Keeps 0 reg (sendWriteData setup c).sendDataBuffer (sendWriteData setup c).sendDataCounter ∧
      c.countedWrites.Pairwise (· < ·) ∧ ∀ n ∈ c.countedWrites, 0 < n := by
  have rest := keeps.rest
  have due : c.dueWrite = o := keeps.leaving
  have counted : Keeps 1 reg
      (if c.sendDataCounter.head? = some 0 then c.sendDataBuffer.tail else c.sendDataBuffer)
      c.countedWrites := rest
  -- the unsigned decrement is the mathematical one on the counters that the loop meets
  have wraps : c.countedWrites.map (fun n => (n + (2 ^ 32 - 1)) % 2 ^ 32) = c.countedWrites.map (· - 1) := by
    apply List.map_congr_left
    intro n hn
    obtain ⟨low, high⟩ := counted.bounds n hn
    rw [show n + (2 ^ 32 - 1) = n - 1 + 2 ^ 32 by omega, Nat.add_mod_right, Nat.mod_eq_of_lt (by omega)]
  have down := counted.down
  rw [← wraps] at down
  refine ⟨due, ?_, ?_, counted.strict, fun n hn => (counted.bounds n hn).1⟩
  · unfold sendWriteData
    split
    · split
      · rfl
      · exact (sendData_frame setup c _).2
    · rfl
  · unfold countedWrites at down
    unfold sendWriteData
    by_cases zero : c.sendDataCounter.head? = some 0
    · rw [if_pos zero, if_pos zero] at down
      rw [if_pos zero]
      cases buffer : c.sendDataBuffer with
      | nil =>
        have empty : c.sendDataCounter = [] := by
          rw [← List.length_eq_zero_iff, ← keeps.length_eq, buffer]
          rfl
        rw [empty] at zero
        cases zero
      | cons p l =>
        rw [buffer] at down
        dsimp only
        rw [(sendData_frame setup c p).1]
        exact down
    · rw [if_neg zero, if_neg zero] at down
      rw [if_neg zero]
      exact down

end MemoryController

/-! ## Every cycle -/

/-- How many updates the read line holds a packet back: the device's own update of the cycle counts for a
read that was accepted ahead of it. -/
def Constraints.readSlots (k : Constraints) (posted : Bool) : Nat :=
  if posted then k.readDelay else k.readDelay - 1

namespace MemorySystem

open MemoryController

variable {ρ κ : Type} {setup : Setup} {parts : Components ρ κ} {posted : Bool}
  {c c' : MemoryController ρ κ} {traffic : List Traffic}

/-- The three queues are delay lines of what went through the system so far. -/
structure Piped (k : Constraints) (posted : Bool) (traffic : List Traffic) (c : MemoryController ρ κ) :
    Prop where
  carried : c.Carried posted
  clock : c.clockCycle = traffic.length
  writes : Keeps 0 (window (k.writeDelay posted) (writesOf traffic)) c.sendDataBuffer c.sendDataCounter
  posts : Keeps 1 (window (k.tRCD - 1) (postsOf traffic)) c.commandScheduler.memoryDevice.postBuffer
    c.commandScheduler.memoryDevice.postCounter
  plain : ∀ x ∈ c.commandScheduler.memoryDevice.postBuffer, x.postCommand = false
  unposted : posted = false → c.commandScheduler.memoryDevice.postBuffer = []
  reads : Keeps 1 (window (k.readSlots posted) (readsOf posted traffic))
    c.commandScheduler.memoryDevice.pendingReadData c.commandScheduler.memoryDevice.dataCycles

theorem piped_create (setup : Setup) (parts : Components ρ κ) (k : Constraints) (posted : Bool)
    (refreshCounting bank_release : Nat) :
    Piped k posted [] (create setup parts refreshCounting bank_release) := by
  refine ⟨carried_create setup parts posted refreshCounting bank_release, rfl, ?_, ?_,
    fun _ h => (nomatch h), fun _ => rfl, ?_⟩
  · exact (window_nil (α := BusPacket) (k.writeDelay posted)).symm ▸ Keeps.free 0 _
  · exact (window_nil (α := BusPacket) (k.tRCD - 1)).symm ▸ Keeps.free 1 _
  · exact (window_nil (α := BusPacket) (k.readSlots posted)).symm ▸ Keeps.free 1 _

/-- A command that is no column access has no read data. -/
theorem readData_row {x : BusPacket} (row : x.busPacketType.isColumn = false) : readData x = none := by
  unfold readData
  rw [if_neg]
  rintro (read | read) <;> simp [read, BusPacketType.isColumn] at row

/-- The command that is sent enters the line of posted commands or the line of read data. -/
theorem lines_receives {spec : DeviceSpec} (d : MemoryDevice) {out : Option BusPacket}
    (kind : ∀ x, out = some x → x.Posts posted) :
    (d.receives spec out).pendingReadData =
        d.pendingReadData ++ (if posted then none else out.bind readData).toList ∧
      (d.receives spec out).dataCycles = d.dataCycles ++
        ((if posted then none else out.bind readData).map fun _ => spec.constraints.readDelay).toList ∧
      (d.receives spec out).postBuffer = d.postBuffer ++ (out.bind postedCopy).toList ∧
      (d.receives spec out).postCounter =
        d.postCounter ++ ((out.bind postedCopy).map fun _ => spec.constraints.tRCD).toList := by
  cases out with
  | none => cases posted <;> simp [MemoryDevice.receives]
  | some x =>
    obtain ⟨_, flag⟩ := kind x rfl
    cases column : x.busPacketType.isColumn with
    | true =>
      rw [column, Bool.and_true] at flag
      cases posted with
      | true =>
        have post := @MemoryDevice.receiveFromBus_posted spec d x flag
        simp [MemoryDevice.receives, post]
      | false =>
        have none_posted : postedCopy x = none := by simp [postedCopy, flag]
        have same := @MemoryDevice.receiveFromBus_unposted spec d x flag
        simpa [MemoryDevice.receives, none_posted] using same
    | false =>
      rw [column, Bool.and_false] at flag
      have none_posted : postedCopy x = none := by simp [postedCopy, flag]
      have same := @MemoryDevice.receiveFromBus_unposted spec d x flag
      simpa [MemoryDevice.receives, none_posted, readData_row column] using same

/-- A bare command does not enter the lines of the device. -/
theorem lines_receives_bare {spec : DeviceSpec} (d : MemoryDevice) {sent : Option BusPacket}
    (bare : ∀ x, sent = some x → x.Bare) :
    (d.receives spec sent).pendingReadData = d.pendingReadData ∧
      (d.receives spec sent).dataCycles = d.dataCycles ∧
      (d.receives spec sent).postBuffer = d.postBuffer ∧
      (d.receives spec sent).postCounter = d.postCounter := by
  cases sent with
  | none => exact ⟨rfl, rfl, rfl, rfl⟩
  | some x =>
    obtain ⟨unposted, _, row⟩ := bare x rfl
    have same := @MemoryDevice.receiveFromBus_unposted spec d x unposted
    simpa [MemoryDevice.receives, readData_row row] using same

/-- The streams of a run that goes on. -/
theorem writesOf_append (traffic : List Traffic) (tr : Traffic) :
    writesOf (traffic ++ [tr]) = writesOf traffic ++ [tr.sent.bind (writeData traffic.length)] := by
  simp [writesOf, List.mapIdx_append]

theorem postsOf_append (traffic : List Traffic) (tr : Traffic) :
    postsOf (traffic ++ [tr]) = postsOf traffic ++ [tr.sent.bind postedCopy] := by
  simp [postsOf]

theorem readsOf_append (posted : Bool) (traffic : List Traffic) (tr : Traffic) :
    readsOf posted (traffic ++ [tr]) =
      readsOf posted traffic ++ [(if posted then tr.matured else tr.sent).bind readData] := by
  simp [readsOf]

/-- What an update passes on is what entered the lines the right number of updates before. -/
structure Passes (k : Constraints) (posted : Bool) (traffic : List Traffic) (t : Nat) (tr : Traffic) :
    Prop where
  sendData : tr.sendData = delayed (k.writeDelay posted) (writesOf traffic) t
  matured : tr.matured = delayed (k.tRCD - 1) (postsOf traffic) t
  receiveData : tr.receiveData = delayed (k.readSlots posted) (readsOf posted traffic) t
  counted : tr.counted.Pairwise (· < ·) ∧ ∀ n ∈ tr.counted, 0 < n

theorem length_writesOf (traffic : List Traffic) : (writesOf traffic).length = traffic.length := by
  simp [writesOf]

theorem length_postsOf (traffic : List Traffic) : (postsOf traffic).length = traffic.length := by
  simp [postsOf]

theorem length_readsOf (posted : Bool) (traffic : List Traffic) :
    (readsOf posted traffic).length = traffic.length := by
  simp [readsOf]

/-- What the write line hands on is the data of the write sent so many updates before. -/
theorem delayed_writesOf {n t : Nat} (late : n ≤ t) :
    delayed n (writesOf traffic) t = ((traffic[t - n]?).bind (·.sent)).bind (writeData (t - n)) := by
  rw [delayed, if_pos late, writesOf, List.getElem?_mapIdx]
  cases traffic[t - n]? <;> rfl

/-- Without posted commands, what the read line hands on is the data of the read sent so many updates
before. -/
theorem delayed_readsOf {n t : Nat} (late : n ≤ t) :
    delayed n (readsOf false traffic) t = ((traffic[t - n]?).bind (·.sent)).bind readData := by
  rw [delayed, if_pos late, readsOf, List.getElem?_map]
  cases traffic[t - n]? <;> rfl

/-- The register of the read data, as the device's update finds it, taken apart. -/
theorem shift_reads {k : Constraints} (reads : 0 < k.readDelay) (posted : Bool) (ins : List (Option BusPacket))
    (sent matured : Option BusPacket) :
    ∃ reg, (window (k.readSlots posted) ins ++ if posted then [] else [sent.bind readData]) =
        delayed (k.readSlots posted) (ins ++ [(if posted then matured else sent).bind readData])
          ins.length :: reg ∧
      reg ++ (if posted then [matured.bind readData] else []) =
        window (k.readSlots posted) (ins ++ [(if posted then matured else sent).bind readData]) ∧
      1 + reg.length = k.readDelay := by
  cases posted with
  | false =>
    refine ⟨window (k.readSlots false) (ins ++ [sent.bind readData]), window_shift _ _ _, by simp, ?_⟩
    rw [length_window]
    unfold Constraints.readSlots
    simp only [Bool.false_eq_true, if_false]
    omega
  | true =>
    have slots : k.readSlots true = k.readDelay := rfl
    have whole := window_shift (k.readSlots true) ins (matured.bind readData)
    cases front : window (k.readSlots true) ins with
    | nil =>
      have length := length_window (k.readSlots true) ins
      rw [front, slots] at length
      simp only [List.length_nil] at length
      omega
    | cons a reg =>
      rw [front, List.cons_append] at whole
      obtain ⟨rfl, rest⟩ := List.cons.inj whole
      refine ⟨reg, by simp, rest, ?_⟩
      have length := length_window (k.readSlots true) ins
      rw [front, slots, List.length_cons] at length
      omega

/-- The device's update as the controller sees it. -/
theorem deviceUpdate_frame (setup : Setup) (c : MemoryController ρ κ) :
    (deviceUpdate setup c).commandScheduler =
        { c.commandScheduler with
          memoryDevice := (c.commandScheduler.memoryDevice.update setup.device).1 } ∧
      (deviceUpdate setup c).clockCycle = c.clockCycle ∧
      (deviceUpdate setup c).sendDataBuffer = c.sendDataBuffer ∧
      (deviceUpdate setup c).sendDataCounter = c.sendDataCounter := by
  unfold deviceUpdate
  dsimp only
  split
  · exact ⟨rfl, rfl, rfl, rfl⟩
  · next p _ =>
    unfold receiveData
    obtain ⟨_, commands, buffer, counters⟩ := deliver_frame setup true
      { c with
        commandScheduler := { c.commandScheduler with
          memoryDevice := (c.commandScheduler.memoryDevice.update setup.device).1 }
        stats := { c.stats with readBytes := c.stats.readBytes + setup.dataBusWidth } } p
    exact ⟨commands, clockCycle_deliver _ _ _ _, buffer, counters⟩

/-- **The lines of the device over an update**, from the command that is sent on. -/
theorem device_lines {k : Constraints} {spec : DeviceSpec} (same : spec.constraints = k)
    (activates : 0 < k.tRCD) (accepts : 0 < k.readDelay) {d : MemoryDevice} {out : Option BusPacket}
    (kind : ∀ x, out = some x → x.Posts posted) {posts reads : List (Option BusPacket)}
    (keepsPosts : Keeps 1 (window (k.tRCD - 1) posts) d.postBuffer d.postCounter)
    (plain : ∀ x ∈ d.postBuffer, x.postCommand = false) (unposted : posted = false → d.postBuffer = [])
    (keepsReads : Keeps 1 (window (k.readSlots posted) reads) d.pendingReadData d.dataCycles) :
    let d₁ := d.receives spec out
    let d' := (d₁.update spec).1
    let matured := d₁.updateReads.1.duePosted
    let posts' := posts ++ [out.bind postedCopy]
    let reads' := reads ++ [(if posted then matured else out).bind readData]
    matured = delayed (k.tRCD - 1) posts' posts.length ∧
      d₁.updateReads.2 = delayed (k.readSlots posted) reads' reads.length ∧
      Keeps 1 (window (k.tRCD - 1) posts') d'.postBuffer d'.postCounter ∧
      (∀ x ∈ d'.postBuffer, x.postCommand = false) ∧ (posted = false → d'.postBuffer = []) ∧
      Keeps 1 (window (k.readSlots posted) reads') d'.pendingReadData d'.dataCycles := by
  subst same
  intro d₁ d' matured posts' reads'
  obtain ⟨pending, cycles, buffer, counters⟩ := @lines_receives posted spec d out kind
  -- what was sent enters the line of posted commands, which then shifts
  have postLine : Keeps 1 (delayed (spec.constraints.tRCD - 1) posts' posts.length ::
      window (spec.constraints.tRCD - 1) posts') d₁.postBuffer d₁.postCounter := by
    have enters := keepsPosts.enter (out.bind postedCopy)
    rw [length_window, show 1 + (spec.constraints.tRCD - 1) = spec.constraints.tRCD by omega,
      ← buffer, ← counters, window_shift] at enters
    exact enters
  have plain₁ : ∀ x ∈ d₁.postBuffer, x.postCommand = false := by
    intro x hx
    rw [show d₁.postBuffer = _ from buffer] at hx
    rcases List.mem_append.mp hx with hx | hx
    · exact plain x hx
    · obtain ⟨cmd, _, copy⟩ := Option.bind_eq_some_iff.mp (Option.mem_toList.mp hx)
      unfold postedCopy at copy
      split at copy
      · cases copy
        rfl
      · cases copy
  -- the read line, as the device's update finds it
  have readLine : Keeps 1 (window (spec.constraints.readSlots posted) reads ++
      if posted then [] else [out.bind readData]) d₁.pendingReadData d₁.dataCycles := by
    rw [show d₁.pendingReadData = _ from pending, show d₁.dataCycles = _ from cycles]
    cases posted with
    | true => simpa using keepsReads
    | false =>
      have enters := keepsReads.enter (out.bind readData)
      rw [length_window, show 1 + spec.constraints.readSlots false = spec.constraints.readDelay by
        simp only [Constraints.readSlots, Bool.false_eq_true, if_false]; omega] at enters
      simpa using enters
  obtain ⟨reg, whole, left, slots⟩ := shift_reads accepts posted reads out matured
  rw [whole] at readLine
  obtain ⟨received, rest, sameBuffer, sameCounters⟩ := MemoryDevice.updateReads_line readLine
  rw [← sameBuffer, ← sameCounters] at postLine
  rw [← sameBuffer] at plain₁
  obtain ⟨due, posts₂, plain₂, pending₂, cycles₂⟩ :=
    @MemoryDevice.updatePosted_line spec _ _ _ postLine plain₁
  have enters := rest.enter (matured.bind readData)
  rw [slots] at enters
  rw [← due] at pending₂ cycles₂
  have unposted₁ : posted = false → d₁.updateReads.1.postBuffer = [] := by
    rintro rfl
    rw [sameBuffer, show d₁.postBuffer = _ from buffer, unposted rfl]
    cases out with
    | none => rfl
    | some x =>
      have flag : x.postCommand = false := (kind x rfl).2
      simp [postedCopy, flag]
  refine ⟨due, received, posts₂, plain₂, fun quiet => ?_, ?_⟩
  · show (d₁.updateReads.1.updatePosted spec).postBuffer = []
    unfold MemoryDevice.updatePosted
    rw [unposted₁ quiet]
    exact unposted₁ quiet
  · rw [← left, show d'.pendingReadData = _ from pending₂, show d'.dataCycles = _ from cycles₂]
    cases posted with
    | true => exact enters
    | false =>
      have none_matured : d₁.updateReads.1.duePosted = none := by
        unfold MemoryDevice.duePosted
        rw [unposted₁ rfl]
        split <;> rfl
      rw [none_matured]
      simpa using rest

theorem clockCycle_queueWriteData (setup : Setup) (c : MemoryController ρ κ) (out : Option BusPacket) :
    (queueWriteData setup c out).clockCycle = c.clockCycle := by
  unfold queueWriteData
  split
  · rfl
  · split <;> rfl

/-- **An update shifts the three lines**, and passes on what leaves them. -/
theorem Piped.update (activates : 0 < setup.device.constraints.tRCD)
    (accepts : 0 < setup.device.constraints.readDelay)
    (makes : parts.commandGenerator.Makes (BusPacket.Posts posted))
    (generates : parts.requestScheduler.Generates)
    (piped : Piped setup.device.constraints posted traffic c) {refreshCheck check : Answers}
    {c₁ c₂ : MemoryController ρ κ} {out : Option BusPacket}
    (prepared : c.prepare setup parts refreshCheck = some c₁)
    (scheduled : c₁.schedule setup parts check = some (c₂, out))
    (one : c₁.commandScheduler.SendsOne setup.device c₂.commandScheduler out) :
    Piped setup.device.constraints posted (traffic ++ [trafficOf setup c₂ out])
        (deviceUpdate setup (endCycle setup c₂ out)) ∧
      Passes setup.device.constraints posted (traffic ++ [trafficOf setup c₂ out]) traffic.length
        (trafficOf setup c₂ out) := by
  obtain ⟨carried₁, clock₁, buffer₁, counter₁, sent, bare, device₁⟩ :=
    carried_prepare makes generates piped.carried prepared
  obtain ⟨carried₂, kind, clock₂, buffer₂, counter₂⟩ := carried_schedule carried₁ scheduled one
  -- the write line
  have clock : c₂.clockCycle = traffic.length := clock₂.trans (clock₁.trans piped.clock)
  have writes := queueWriteData_line (c := c₂) kind (length_window _ (writesOf traffic)) (by
    rw [buffer₂, buffer₁, counter₂, counter₁]
    exact piped.writes)
  rw [clock, window_shift, length_writesOf] at writes
  obtain ⟨due, clock₃, writes₃, strict, positive⟩ := @sendWriteData_line _ _ setup _ _ _
    (by rw [length_window]; exact Constraints.writeDelay_lt _ _) writes
  rw [clockCycle_queueWriteData, clock] at clock₃
  -- the lines of the device
  obtain ⟨pending, cycles, posts, counters⟩ :=
    @lines_receives_bare setup.device c.commandScheduler.memoryDevice sent bare
  rw [← device₁] at pending cycles posts counters
  obtain ⟨matured, received, posts₃, plain₃, unposted₃, reads₃⟩ :=
    device_lines rfl activates accepts kind (d := c₁.commandScheduler.memoryDevice)
      (by rw [posts, counters]; exact piped.posts) (by rw [posts]; exact piped.plain)
      (by rw [posts]; exact piped.unposted) (by rw [pending, cycles]; exact piped.reads)
  rw [length_postsOf] at matured
  rw [length_readsOf] at received
  have ended : (endCycle setup c₂ out).commandScheduler.memoryDevice =
      c₁.commandScheduler.memoryDevice.receives setup.device out := by
    rw [(endCycle_frame setup out carried₂.data).2.1]
    exact one.device
  rw [← ended] at matured received posts₃ plain₃ unposted₃ reads₃
  obtain ⟨commands, clock₄, buffer₄, counter₄⟩ := deviceUpdate_frame setup (endCycle setup c₂ out)
  constructor
  · refine ⟨carried_deviceUpdate (carried_endCycle carried₂ out), ?_, ?_, ?_, ?_, ?_, ?_⟩
    · rw [clock₄, List.length_append, List.length_singleton]
      exact congrArg (· + 1) clock₃
    · rw [buffer₄, counter₄, writesOf_append]
      exact writes₃
    · rw [commands, postsOf_append]
      exact posts₃
    · rw [commands]
      exact plain₃
    · rw [commands]
      exact unposted₃
    · rw [commands, readsOf_append]
      exact reads₃
  · refine ⟨?_, ?_, ?_, strict, positive⟩
    · rw [writesOf_append]
      exact due
    · rw [postsOf_append]
      exact matured
    · rw [readsOf_append]
      exact received

/-! ## Runs -/

theorem Passes.append {k : Constraints} {t : Nat} {tr : Traffic} (passes : Passes k posted traffic t tr)
    (past : t < traffic.length) (next : Traffic) : Passes k posted (traffic ++ [next]) t tr := by
  refine ⟨?_, ?_, ?_, passes.counted⟩
  · rw [writesOf_append, delayed_append (by rwa [length_writesOf])]
    exact passes.sendData
  · rw [postsOf_append, delayed_append (by rwa [length_postsOf])]
    exact passes.matured
  · rw [readsOf_append, delayed_append (by rwa [length_readsOf])]
    exact passes.receiveData

/-- In an update the command scheduler sends at most one command, out of its queues. -/
def OneSent (setup : Setup) (parts : Components ρ κ) (c : MemoryController ρ κ) : Event → Prop
  | .addRequest _ _ _ _ => True
  | .update refreshCheck check => ∀ c₁ c₂ out, c.prepare setup parts refreshCheck = some c₁ →
      c₁.schedule setup parts check = some (c₂, out) →
      c₁.commandScheduler.SendsOne setup.device c₂.commandScheduler out

/-- General command queues, and write data on its way. -/
structure Fronted (c : MemoryController ρ κ) : Prop where
  general : c.commandScheduler.General
  queues : 0 < c.commandScheduler.queueCount
  data : ∀ p ∈ c.sendDataBuffer, p.busPacketType = .DATA ∧ p.postCommand = false

theorem fronted_prepare (fronted : Fronted c) {refreshCheck : Answers}
    (prepared : c.prepare setup parts refreshCheck = some c') : Fronted c' := by
  obtain ⟨⟨rs, priv⟩, _, prepared⟩ := Option.bind_eq_some_iff.mp prepared
  obtain ⟨c₁, enqueued, rfl⟩ := Option.map_eq_some_iff.mp prepared
  obtain ⟨c₂, looped, rfl⟩ := Option.map_eq_some_iff.mp enqueued
  have kept : Fronted c₂ := by
    refine Lib.Machine.foldlM_within (fun c c' => Fronted c → Fronted c') (fun _ => id)
      (fun first later fronted => later (first fronted)) ?_ looped
      ⟨fronted.general, fronted.queues, fronted.data⟩
    intro c command c' inserted fronted
    unfold enqueueCommand at inserted
    dsimp only at inserted
    split at inserted
    · cases inserted
      refine ⟨fun i => ?_, fronted.queues, fronted.data⟩
      simp only [CommandScheduler.insertCommand, CommandScheduler.setQueue]
      split
      · next here =>
        subst here
        simpa using fronted.general (commandIndex setup command)
      · exact fronted.general i
    · cases inserted
  refine ⟨kept.general.refresh setup.device refreshCheck, ?_, kept.data⟩
  dsimp only
  rw [(CommandScheduler.commandQueue_refresh _ setup.device refreshCheck).2]
  exact kept.queues

/-- **A scheduler that sends fronts sends at most one command an update**: so do `FCFS`, `FRFCFS` and the
scheduler that `FRFCFS.ini` selects. -/
theorem meets_oneSent (fronts : parts.commandScheduler.SendsFronts) (shared : setup.requestorCmdQ = false)
    (some_queue : 0 < queueNumber setup setup.cmdMap) (refreshCounting bank_release : Nat)
    (events : List Event) :
    Lib.Machine.Meets (traced setup parts) (OneSent setup parts)
      (create setup parts refreshCounting bank_release) events := by
  have sends : ∀ {c₁ c₂ : MemoryController ρ κ} {check : Answers} {out : Option BusPacket}, Fronted c₁ →
      c₁.schedule setup parts check = some (c₂, out) →
      c₂.sendDataBuffer = c₁.sendDataBuffer ∧
        CommandScheduler.Sends setup.device check c₁.commandScheduler c₂.commandScheduler out := by
    intro c₁ c₂ check out fronted scheduled
    obtain ⟨⟨cs, priv, out'⟩, called, same⟩ := Option.map_eq_some_iff.mp scheduled
    obtain ⟨rfl, rfl⟩ := Prod.mk.inj same
    obtain ⟨s', priv', out'', called', sends⟩ := fronts setup.device check c₁.commandScheduler
      c₁.commandPrivate fronted.general fronted.queues
    rw [called] at called'
    obtain ⟨rfl, rfl, rfl⟩ : cs = s' ∧ priv = priv' ∧ out' = out'' := by simpa using called'
    exact ⟨rfl, sends⟩
  refine Lib.Machine.meets_of_invariant Fronted ?_ ?_
    ⟨fun _ => ⟨shared, rfl⟩, some_queue, fun _ h => absurd h List.not_mem_nil⟩ events
  · intro c e fronted
    cases e with
    | addRequest => trivial
    | update refreshCheck check =>
      intro c₁ c₂ out prepared scheduled
      have fronted₁ := fronted_prepare fronted prepared
      exact (sends fronted₁ scheduled).2.sendsOne fronted₁.general
  · intro c e c' o fronted stepped
    cases e with
    | addRequest requestorID address R_W size =>
      obtain ⟨c₁, added, same⟩ := Option.map_eq_some_iff.mp stepped
      obtain ⟨rfl, _⟩ := Prod.mk.inj same
      unfold addRequest at added
      dsimp only at added
      split at added
      · cases added
        exact ⟨fronted.general, fronted.queues, fronted.data⟩
      · cases added
    | update refreshCheck check =>
      obtain ⟨⟨c₃, tr⟩, updated, same⟩ := Option.map_eq_some_iff.mp stepped
      obtain ⟨rfl, _⟩ := Prod.mk.inj same
      obtain ⟨c₁, prepared, updated⟩ := Option.bind_eq_some_iff.mp updated
      obtain ⟨⟨c₂, out⟩, scheduled, same⟩ := Option.map_eq_some_iff.mp updated
      obtain ⟨rfl, _⟩ := Prod.mk.inj same
      have fronted₁ := fronted_prepare fronted prepared
      obtain ⟨buffer₂, sent⟩ := sends fronted₁ scheduled
      obtain ⟨_, commands, data⟩ := endCycle_frame setup out (buffer₂.symm ▸ fronted₁.data)
      obtain ⟨device, _, buffer, _⟩ := deviceUpdate_frame setup (endCycle setup c₂ out)
      obtain ⟨general₂, queues₂⟩ := sent.general fronted₁.general
      refine ⟨?_, ?_, ?_⟩
      · rw [device, commands]
        exact general₂.tick
      · rw [device, commands]
        exact queues₂.symm ▸ fronted₁.queues
      · rw [buffer]
        exact data

/-- The lines, and what was passed on so far. -/
def PipedRun (k : Constraints) (posted : Bool) (c : MemoryController ρ κ) (told : List (Option Traffic)) :
    Prop :=
  Piped k posted told.reduceOption c ∧
    ∀ t tr, told.reduceOption[t]? = some tr → Passes k posted told.reduceOption t tr

/-- **An event carries the lines on.** -/
theorem PipedRun.step {told : List (Option Traffic)} {e : Event} {o : Option Traffic}
    (activates : 0 < setup.device.constraints.tRCD) (accepts : 0 < setup.device.constraints.readDelay)
    (makes : parts.commandGenerator.Makes (BusPacket.Posts posted))
    (generates : parts.requestScheduler.Generates)
    (piped : PipedRun setup.device.constraints posted c told)
    (stepped : traced setup parts c e = some (c', o)) (one : OneSent setup parts c e) :
    PipedRun setup.device.constraints posted c' (told ++ [o]) := by
  obtain ⟨lines, passed⟩ := piped
  cases e with
  | addRequest requestorID address R_W size =>
    obtain ⟨c₁, added, same⟩ := Option.map_eq_some_iff.mp stepped
    obtain ⟨rfl, rfl⟩ := Prod.mk.inj same
    have quiet : (told ++ [none]).reduceOption = told.reduceOption := by
      rw [List.reduceOption_append]
      exact List.append_nil _
    obtain ⟨carried, commands, clock, buffer, counters⟩ := carried_addRequest lines.carried added
    unfold PipedRun
    rw [quiet]
    refine ⟨⟨carried, clock.trans lines.clock, ?_, ?_, ?_, ?_, ?_⟩, passed⟩
    · rw [buffer, counters]
      exact lines.writes
    · rw [commands]
      exact lines.posts
    · rw [commands]
      exact lines.plain
    · rw [commands]
      exact lines.unposted
    · rw [commands]
      exact lines.reads
  | update refreshCheck check =>
    obtain ⟨⟨c₃, tr⟩, updated, same⟩ := Option.map_eq_some_iff.mp stepped
    obtain ⟨rfl, rfl⟩ := Prod.mk.inj same
    obtain ⟨c₁, prepared, updated⟩ := Option.bind_eq_some_iff.mp updated
    obtain ⟨⟨c₂, out⟩, scheduled, same⟩ := Option.map_eq_some_iff.mp updated
    obtain ⟨rfl, rfl⟩ := Prod.mk.inj same
    obtain ⟨lines', passes⟩ := lines.update activates accepts makes generates prepared scheduled
      (one c₁ c₂ out prepared scheduled)
    have longer : (told ++ [some (trafficOf setup c₂ out)]).reduceOption =
        told.reduceOption ++ [trafficOf setup c₂ out] := List.reduceOption_append _ _
    unfold PipedRun
    rw [longer]
    refine ⟨lines', fun t tr at_ => ?_⟩
    rcases Nat.lt_or_ge t told.reduceOption.length with past | now
    · rw [List.getElem?_append_left past] at at_
      exact (passed t tr at_).append past _
    · rw [List.getElem?_append_right now] at at_
      obtain ⟨here, rfl⟩ := List.getElem?_eq_some_iff.mp at_
      obtain rfl : t = told.reduceOption.length := by
        simp only [List.length_singleton] at here
        omega
      simpa using passes

/-- Packets beside counters: in ascending order, and each counter says how far its packet is from
leaving. -/
structure Line (items : List BusPacket) (counters : List Nat) (leaves : Nat → Option BusPacket) : Prop where
  paired : items.length = counters.length
  strict : counters.Pairwise (· < ·)
  leaves : ∀ p n, (p, n) ∈ items.zip counters → leaves n = some p

theorem line_of_keeps {offset n : Nat} {ins : List (Option BusPacket)} {items : List BusPacket}
    {counters : List Nat} (keeps : Keeps offset (window n ins) items counters) :
    Line items counters fun m => delayed n ins (ins.length + (m - offset)) := by
  refine ⟨keeps.length_eq, keeps.strict, fun p m h => ?_⟩
  obtain ⟨_, slot⟩ := keeps.mem_zip h
  have bound : m - offset < n := by
    have inside := (List.getElem?_eq_some_iff.mp slot).1
    rwa [length_window] at inside
  rw [getElem?_window bound] at slot
  exact Option.some.inj slot

/-- **The data pipelines are exact.** In every run in which the scheduler sends at most one command an
update, under a generator that posts all of its column accesses or none: in each update `sendData` gets
the data of the write sent `writeDelay` updates before and nothing else, the device takes the command
posted `tRCD - 1` updates before, and `receiveData` gets the data of the read accepted `readDelay` device
updates before. The counters that the loop of the controller takes from are positive, and in all three
queues the counters ascend and each says when its packet leaves. -/
theorem pipelines_exact (activates : 0 < setup.device.constraints.tRCD)
    (accepts : 0 < setup.device.constraints.readDelay)
    (makes : parts.commandGenerator.Makes (BusPacket.Posts posted))
    (generates : parts.requestScheduler.Generates) {refreshCounting bank_release : Nat}
    {events : List Event} {told : List (Option Traffic)}
    (meets : Lib.Machine.Meets (traced setup parts) (OneSent setup parts)
      (create setup parts refreshCounting bank_release) events)
    (ran : Lib.Machine.run (traced setup parts) (create setup parts refreshCounting bank_release) events =
      some (c, told)) :
    let k := setup.device.constraints
    let traffic := told.reduceOption
    let device := c.commandScheduler.memoryDevice
    (∀ t tr, traffic[t]? = some tr → Passes k posted traffic t tr) ∧
    Line c.sendDataBuffer c.sendDataCounter
      (fun n => delayed (k.writeDelay posted) (writesOf traffic) (traffic.length + n)) ∧
    Line device.postBuffer device.postCounter
      (fun n => delayed (k.tRCD - 1) (postsOf traffic) (traffic.length + (n - 1))) ∧
    Line device.pendingReadData device.dataCycles
      (fun n => delayed (k.readSlots posted) (readsOf posted traffic) (traffic.length + (n - 1))) ∧
    (k.tRCD + k.tWL + k.tBus < 2 ^ 32 →
      k.writeDelay posted = k.tWL + k.tBus + if posted then k.tRCD - 1 else 0) ∧
    (k.tRL + k.tBus < 2 ^ 32 → k.readDelay = k.tRL + k.tBus) := by
  intro k traffic device
  obtain ⟨lines, passed⟩ : PipedRun k posted c told :=
    Lib.Machine.run_history_along (fun _ c told => PipedRun k posted c told)
      (fun piped stepped one => piped.step activates accepts makes generates stepped one)
      ⟨piped_create setup parts k posted refreshCounting bank_release, fun _ _ h => (nomatch h)⟩
      meets.along ran
  have writes := line_of_keeps lines.writes
  have posts := line_of_keeps lines.posts
  have reads := line_of_keeps lines.reads
  rw [length_writesOf] at writes
  rw [length_postsOf] at posts
  rw [length_readsOf] at reads
  exact ⟨passed, writes, posts, reads, fun fits => Constraints.writeDelay_eq activates fits posted,
    fun fits => Nat.mod_eq_of_lt fits⟩

/-- A read and two writes of one row, and twenty-four updates. -/
def readAndWrites : List Event :=
  .addRequest 0 0 true 64 :: .addRequest 0 64 false 64 :: .addRequest 0 128 false 64 ::
    List.replicate 24 (.update (fun _ => true) fun _ => true)

/-- The read is sent in the tenth update and its data comes twelve updates later. The writes are sent in
the seventeenth and the twenty-first, so that the data of both is under way at the end, in their order. -/
theorem pipelines_exact_readAndWrites :
    ∃ c told tr p q, Lib.Machine.run (traced openPageSetup fcfsIni) (create openPageSetup fcfsIni 0 0)
        readAndWrites = some (c, told) ∧
      told.reduceOption[21]? = some tr ∧
      tr.receiveData.isSome = true ∧
      tr.receiveData = ((told.reduceOption[9]?).bind (·.sent)).bind readData ∧
      c.sendDataBuffer = [p, q] ∧
      ((told.reduceOption[16]?).bind (·.sent)).bind (writeData 16) = some p ∧
      ((told.reduceOption[20]?).bind (·.sent)).bind (writeData 20) = some q := by
  obtain ⟨⟨c, told⟩, ran, under_way⟩ := (Option.any_eq_true _ _).mp (show (Lib.Machine.run
    (traced openPageSetup fcfsIni) (create openPageSetup fcfsIni 0 0) readAndWrites).any
      (fun t => ((t.2.reduceOption[21]?).any fun tr => tr.receiveData.isSome) &&
        decide (t.2.reduceOption.length = 24 ∧ t.1.sendDataBuffer.length = 2 ∧
          t.1.sendDataCounter = [4, 8])) = true by decide +kernel)
  obtain ⟨received, length, two, counters⟩ :
      ((told.reduceOption[21]?).any fun tr => tr.receiveData.isSome) = true ∧
        told.reduceOption.length = 24 ∧ c.sendDataBuffer.length = 2 ∧ c.sendDataCounter = [4, 8] := by
    simpa using under_way
  obtain ⟨tr, at_, data⟩ := (Option.any_eq_true _ _).mp received
  obtain ⟨p, q, buffer⟩ := List.length_eq_two.mp two
  obtain ⟨passed, writes, _⟩ := @pipelines_exact _ _ openPageSetup fcfsIni false c (by decide) (by decide)
    openGenerator_makes RequestFcfs.policy_generates 0 0 readAndWrites told
    (meets_oneSent Frfcfs.policy_sendsFronts rfl (by decide) 0 0 readAndWrites) ran
  have first : delayed 12 (writesOf told.reduceOption) (told.reduceOption.length + 4) = some p :=
    writes.leaves p 4 (by rw [buffer, counters]; simp)
  have second : delayed 12 (writesOf told.reduceOption) (told.reduceOption.length + 8) = some q :=
    writes.leaves q 8 (by rw [buffer, counters]; simp)
  rw [length, delayed_writesOf (by decide)] at first second
  have came := (passed 21 tr at_).receiveData
  rw [show openPageSetup.device.constraints.readSlots false = 12 by decide,
    delayed_readsOf (by decide)] at came
  exact ⟨c, told, tr, p, q, ran, at_, data, came, buffer, first, second⟩

end MemorySystem

end MCsim
