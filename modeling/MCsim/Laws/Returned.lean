import MCsim.Lib.Lanes
import MCsim.Laws.Fifo
import MCsim.Laws.Sides
import MCsim.MemoryController

/-!
# What FCFS returns

`CommandScheduler_FCFS` returns the field `scheduledCommand`. A queue with two sides clears the field
when its turn comes; a per-requestor queue does not, so a call that sends nothing returns what an
earlier call sent. The controller takes whatever is returned for a command sent in this cycle, and
queues write data for it.

`Stale` says of the state before a call that this happens. A run returns what it sends exactly if no
call of it is stale (`fcfs_returns`).
-/

namespace MCsim

open CommandScheduler

namespace CommandScheduler

open Lib.Lanes

variable {s s' : CommandScheduler} {perRequestor : Bool}

/-- Every queue keeps its requestors' commands apart, or every queue has two sides and was asked for
the critical one last. -/
def Lined (perRequestor : Bool) (s : CommandScheduler) : Prop :=
  if perRequestor then s.Shaped true else s.General

theorem bufferOf_general (general : s.General) (index id : Nat) :
    s.bufferOf index id = s.waiting index := by
  simp [bufferOf, CommandQueue.lane, CommandQueue.isPerRequestor, (general index).1, waiting]

theorem lined_create (queueCount : Nat) (perRequestor : Bool) (m : RefreshMachine) :
    (create queueCount perRequestor m).Lined perRequestor := by
  cases perRequestor with
  | true => exact shaped_create queueCount true m
  | false => exact fun _ => ⟨rfl, rfl⟩

/-- An inserted command joins one buffer at most. -/
theorem Lined.insertCommand (lined : s.Lined perRequestor) (e : Entry) (critical : Bool) :
    (s.insertCommand e.2 e.1 critical).Lined perRequestor ∧
      Joins e.2 e.1 s.bufferOf (s.insertCommand e.2 e.1 critical).bufferOf := by
  cases perRequestor with
  | true =>
    obtain ⟨shaped, buffers⟩ := Shaped.insertCommand lined e nofun
    refine ⟨shaped, fun i id => ?_⟩
    rw [buffers]
    split
    · next mine => exact .inr ⟨(Entry.inBuffer_eq_true.mp mine).1.symm, rfl⟩
    · exact .inl rfl
  | false =>
    have general : s.General := lined
    have kept : (s.insertCommand e.2 e.1 critical).General := by
      intro i
      unfold CommandScheduler.insertCommand setQueue
      dsimp only
      split
      · simpa using general e.2
      · exact general i
    refine ⟨kept, fun i id => ?_⟩
    have sides := Sided.side_insertCommand (fun i => (general i).1) e.2 e.1 critical i true
    rw [bufferOf_general kept, bufferOf_general general]
    change (s.insertCommand e.2 e.1 critical).waiting i = s.waiting i ++ _ at sides
    rw [sides]
    split
    · next here => exact .inr ⟨here.1, rfl⟩
    · exact .inl (List.append_nil _)

theorem Lined.refresh (lined : s.Lined perRequestor) (spec : DeviceSpec) (check : Answers) :
    (s.refresh spec check).Lined perRequestor := by
  cases perRequestor with
  | true => exact Shaped.refresh lined spec check
  | false => exact General.refresh lined spec check

theorem Lined.tick (lined : s.Lined perRequestor) :
    s.tick.Lined perRequestor ∧ ∀ i id, s.tick.bufferOf i id = s.bufferOf i id := by
  cases perRequestor with
  | true => exact ⟨Shaped.tick lined, Shaped.bufferOf_tick lined⟩
  | false =>
    have general : s.General := lined
    refine ⟨general.tick, fun i id => ?_⟩
    rw [bufferOf_general general.tick, bufferOf_general general, waiting_tick general]

/-- Sending the head of a buffer takes it from there. -/
theorem Lined.issue (lined : s.Lined perRequestor) (spec : DeviceSpec) (e : Entry) :
    (s.issue spec e.1 e.2).Lined perRequestor ∧
      ∀ i id, (s.issue spec e.1 e.2).bufferOf i id =
        if e.inBuffer perRequestor i id then (s.bufferOf i id).tail else s.bufferOf i id := by
  cases perRequestor with
  | true => exact Shaped.issue lined spec e
  | false =>
    have general : s.General := lined
    have kept := general.issue spec e.1 e.2
    refine ⟨kept, fun i id => ?_⟩
    rw [bufferOf_general kept, bufferOf_general general, waiting_issue general]
    by_cases here : i = e.2
    · simp [here, Entry.inBuffer]
    · simp [here, Entry.inBuffer, Ne.symm here]

/-- A command leaves its buffer, whose head it was, and goes to the device. -/
def Delivers (perRequestor : Bool) (spec : DeviceSpec) (s s' : CommandScheduler) (c : BusPacket) :
    Prop :=
  ∃ index < s.queueCount, Takes BusPacket.requestorID
      (fun i id => Entry.inBuffer perRequestor i id (c, index)) index c s.bufferOf s'.bufferOf ∧
    s'.memoryDevice = s.memoryDevice.receiveFromBus spec c

theorem Lined.takes (lined : s.Lined perRequestor) (spec : DeviceSpec) {e : Entry}
    (head : (s.bufferOf e.2 e.1.requestorID).head? = some e.1) :
    Takes BusPacket.requestorID (fun i id => Entry.inBuffer perRequestor i id e) e.2 e.1 s.bufferOf
      (s.issue spec e.1 e.2).bufferOf :=
  ⟨Entry.inBuffer_eq_true.mpr ⟨rfl, fun _ => rfl⟩, head, (lined.issue spec e).2⟩

end CommandScheduler

namespace Fcfs

variable {spec : DeviceSpec} {check : Answers} {s s' : CommandScheduler} {perRequestor : Bool}

/-- A call of FCFS, as a scheduler without state of its own. -/
def schedule (spec : DeviceSpec) : Scheduling Unit (Option BusPacket) := fun check s _ =>
  some ((commandSchedule spec check s).1, (), (commandSchedule spec check s).2)

/-- No queue clears the field, which an earlier call has set, and no front can be issued. -/
def Stale (check : Answers) (s : CommandScheduler) : Prop :=
  s.scheduledCommand.isSome = true ∧ ∀ i < s.queueCount, (s.commandQueue i).isPerRequestor = true ∧
    ∀ c ∈ (s.commandQueue i).requestorFronts, s.canIssue check i c = false

instance : Decidable (Stale check s) := by
  unfold Stale
  infer_instance

/-- What a per-requestor queue is served with is a front that can be issued. -/
theorem ofRequestors_some {index : Nat} {c : BusPacket} (h : ofRequestors check s index = some c) :
    c ∈ (s.commandQueue index).requestorFronts ∧ s.canIssue check index c = true := by
  unfold ofRequestors at h
  obtain ⟨first, head, rfl⟩ := Option.map_eq_some_iff.mp h
  refine List.mem_filter.mp (List.foldlRecOn (motive := (· ∈ (s.commandQueue index).requestorFronts.filter
    (s.canIssue check index))) _ _ (List.mem_of_mem_head? head) fun best there c hc => ?_)
  split
  · exact hc
  · exact there

theorem ofRequestors_none {index : Nat} (h : ofRequestors check s index = none) :
    ∀ c ∈ (s.commandQueue index).requestorFronts, s.canIssue check index c = false := by
  unfold ofRequestors at h
  rw [Option.map_eq_none_iff, List.head?_eq_none_iff, List.filter_eq_nil_iff] at h
  exact fun c hc => Bool.eq_false_of_not_eq_true (h c hc)

/-- The scan over per-requestor queues sends a front that can be issued, or leaves everything. -/
theorem scheduleFrom_requestors (spec : DeviceSpec) (check : Answers) (s : CommandScheduler)
    (l : List Nat) (per : ∀ i ∈ l, (s.commandQueue i).isPerRequestor = true) :
    (∃ i ∈ l, ∃ c ∈ (s.commandQueue i).requestorFronts, s.canIssue check i c = true ∧
      scheduleFrom spec check l s = (s.issue spec c i, some c)) ∨
    (∀ i ∈ l, ∀ c ∈ (s.commandQueue i).requestorFronts, s.canIssue check i c = false) ∧
      scheduleFrom spec check l s = (s, s.scheduledCommand) := by
  induction l with
  | nil => exact .inr ⟨fun i hi => absurd hi List.not_mem_nil, rfl⟩
  | cons i l ih =>
    rw [scheduleFrom, if_pos (per i List.mem_cons_self)]
    cases found : ofRequestors check s i with
    | some c =>
      obtain ⟨front, can⟩ := ofRequestors_some found
      exact .inl ⟨i, List.mem_cons_self, c, front, can, rfl⟩
    | none =>
      rcases ih fun j hj => per j (List.mem_cons_of_mem i hj) with
        ⟨j, hj, c, front, can, same⟩ | ⟨nothing, same⟩
      · exact .inl ⟨j, List.mem_cons_of_mem i hj, c, front, can, same⟩
      · refine .inr ⟨fun j hj => ?_, same⟩
        rcases List.mem_cons.mp hj with rfl | hj
        · exact ofRequestors_none found
        · exact nothing j hj

/-- **A call of FCFS** sends the head of a buffer and returns it, or sends nothing, and then it returns
something exactly if it is stale. -/
theorem commandSchedule_cases (lined : s.Lined perRequestor) (spec : DeviceSpec) (check : Answers) :
    (∃ e : Entry, e.2 < s.queueCount ∧ (s.bufferOf e.2 e.1.requestorID).head? = some e.1 ∧
      commandSchedule spec check s = (s.issue spec e.1 e.2, some e.1) ∧ ¬ Stale check s) ∨
    ∃ left out, commandSchedule spec check s = ({ s with scheduledCommand := left }, out) ∧
      (out.isSome = true ↔ Stale check s) := by
  cases perRequestor with
  | true =>
    have shaped : s.Shaped true := lined
    have per := fun i (_ : i ∈ List.range s.queueCount) => (shaped i).kind
    rcases scheduleFrom_requestors spec check s (List.range s.queueCount) per with
      ⟨i, hi, c, front, can, same⟩ | ⟨nothing, same⟩
    · refine .inl ⟨(c, i), List.mem_range.mp hi, Orp.head_of_requestorFronts shaped front, same, ?_⟩
      intro stale
      have refused := (stale.2 i (List.mem_range.mp hi)).2 c front
      rw [can] at refused
      cases refused
    · refine .inr ⟨s.scheduledCommand, s.scheduledCommand, same, fun held => ⟨held, ?_⟩, And.left⟩
      exact fun i hi => ⟨(shaped i).kind, nothing i (List.mem_range.mpr hi)⟩
  | false =>
    have general : s.General := lined
    rcases Nat.eq_zero_or_pos s.queueCount with zero | pos
    · have same : commandSchedule spec check s = (s, s.scheduledCommand) := by
        simp [commandSchedule, zero, scheduleFrom]
      refine .inr ⟨s.scheduledCommand, s.scheduledCommand, same, fun held => ⟨held, ?_⟩, And.left⟩
      exact fun i hi => absurd hi (by omega)
    · -- the turn of the first queue clears the field
      have fresh : ¬ Stale check s := fun stale => by
        simpa [CommandQueue.isPerRequestor, (general 0).1] using (stale.2 0 pos).1
      have sends : Sends spec check s (commandSchedule spec check s).1 (commandSchedule spec check s).2 :=
        Fcfs.commandSchedule_sends general pos
      generalize commandSchedule spec check s = r at sends ⊢
      obtain ⟨s', out⟩ := r
      cases sends with
      | idle left =>
        refine .inr ⟨left, none, rfl, fun held => ?_, fun stale => absurd stale fresh⟩
        cases held
      | @send i c rest bound front can =>
        refine .inl ⟨(c, i), bound, ?_, rfl, fresh⟩
        rw [bufferOf_general general, front, List.head?_cons]

/-- What a call returns was sent in this call, unless the call is stale. -/
theorem commandSchedule_returns (lined : s.Lined perRequestor) (spec : DeviceSpec) (check : Answers) :
    (commandSchedule spec check s).1.Lined perRequestor ∧
      ((∀ c, (commandSchedule spec check s).2 = some c →
        Delivers perRequestor spec s (commandSchedule spec check s).1 c) ↔ ¬ Stale check s) := by
  rcases commandSchedule_cases lined spec check with ⟨e, bound, head, same, fresh⟩ | ⟨left, out, same, stale⟩
  · rw [same]
    refine ⟨(lined.issue spec e).1, fun _ => fresh, fun _ d returned => ?_⟩
    obtain rfl : e.1 = d := by simpa using returned
    exact ⟨e.2, bound, lined.takes spec head, memoryDevice_issue s spec e.1 e.2⟩
  · rw [same, ← stale]
    refine ⟨lined, fun delivers held => ?_, fun empty c returned => ?_⟩
    · obtain ⟨c, returned⟩ := Option.isSome_iff_exists.mp held
      obtain ⟨_, _, takes, _⟩ := delivers c returned
      exact Lib.Lanes.not_takes_self takes
    · obtain rfl : out = some c := returned
      exact absurd rfl empty

/-! ## Runs -/

open Lib.Machine

/-- What the calls of a run returned, in order. -/
def returnedOf (told : List (Option (Option BusPacket))) : List BusPacket :=
  told.filterMap fun o => o.bind id

/-- What a call returns, it takes from a buffer and sends. -/
def ReturnsSent (perRequestor : Bool) (spec : DeviceSpec) (st : CommandScheduler × Unit)
    (_ : SchedulerCall) (st' : CommandScheduler × Unit) (o : Option (Option BusPacket)) : Prop :=
  ∀ c, o = some (some c) → Delivers perRequestor spec st.1 st'.1 c

/-- A call of `commandSchedule` is not stale. -/
def Fresh (st : CommandScheduler × Unit) (call : SchedulerCall) : Prop :=
  ∀ check, call = .commandSchedule check → ¬ Stale check st.1

variable {table : Nat → Bool} {calls : List SchedulerCall} {call : SchedulerCall}
  {st st' : CommandScheduler × Unit} {o : Option (Option BusPacket)}

theorem baseStep_lined (lined : s.Lined perRequestor) (based : BaseStep spec table s call s') :
    s'.Lined perRequestor := by
  cases based with
  | @insertCommand index command bound => exact (lined.insertCommand (command, index) _).1
  | refresh check => exact lined.refresh spec check
  | tick => exact lined.tick.1

/-- **A step of a run**: it returns what it sends, unless it is a stale call. -/
theorem step_returns (lined : st.1.Lined perRequestor)
    (stepped : (Fcfs.schedule spec).step spec table st call = some (st', o)) :
    st'.1.Lined perRequestor ∧ (ReturnsSent perRequestor spec st call st' o ↔ Fresh st call) := by
  obtain ⟨s, u⟩ := st
  rcases Scheduling.step_cases stepped with
    ⟨s', based, rfl, rfl⟩ | ⟨check, s', p', out, rfl, scheduled, rfl, rfl⟩
  · refine ⟨baseStep_lined lined based, fun _ check same => ?_, fun _ _ returned => nomatch returned⟩
    subst same
    cases based
  · obtain ⟨rfl, rfl⟩ : (commandSchedule spec check s).1 = s' ∧ (commandSchedule spec check s).2 = out := by
      simpa [Fcfs.schedule] using scheduled
    obtain ⟨kept, returns⟩ := commandSchedule_returns lined spec check
    refine ⟨kept, Iff.trans ?_ (returns.trans ?_)⟩
    · exact ⟨fun sent c returned => sent c (congrArg some returned),
        fun sent c returned => sent c (Option.some.inj returned)⟩
    · refine ⟨fun fresh check' same => ?_, fun fresh => fresh check rfl⟩
      cases same
      exact fresh

/-- What was returned and what waits was inserted. -/
structure Conserved (perRequestor : Bool) (queueCount : Nat) (calls : List SchedulerCall)
    (st : CommandScheduler × Unit) (told : List (Option (Option BusPacket))) : Prop where
  lined : st.1.Lined perRequestor
  count : st.1.queueCount = queueCount
  conserved : Lib.Lanes.Conserved BusPacket.requestorID queueCount ((insertedOf calls).map (·.1))
    (returnedOf told) st.1.bufferOf

theorem returnedOf_append (told : List (Option (Option BusPacket))) (o : Option (Option BusPacket)) :
    returnedOf (told ++ [o]) = returnedOf told ++ (o.bind id).toList := by
  unfold returnedOf
  cases o with
  | none => simp
  | some returned => cases returned <;> simp

/-- A step that is not a stale call takes from the buffers what it returns. -/
theorem Conserved.step {queueCount : Nat} {told : List (Option (Option BusPacket))}
    (history : Conserved perRequestor queueCount calls st told)
    (stepped : (Fcfs.schedule spec).step spec table st call = some (st', o)) (fresh : Fresh st call) :
    Conserved perRequestor queueCount (calls ++ [call]) st' (told ++ [o]) := by
  obtain ⟨lined, count, conserved⟩ := history
  obtain ⟨s, u⟩ := st
  suffices later : st'.1.queueCount = queueCount ∧
      Lib.Lanes.Conserved BusPacket.requestorID queueCount
        ((insertedOf calls).map (·.1) ++ call.inserted.toList.map (·.1))
        (returnedOf told ++ (o.bind id).toList) st'.1.bufferOf by
    refine ⟨(step_returns lined stepped).1, later.1, ?_⟩
    rw [returnedOf_append, insertedOf_append, List.map_append]
    exact later.2
  rcases Scheduling.step_cases stepped with
    ⟨s', based, rfl, rfl⟩ | ⟨check, s', p', out, rfl, scheduled, rfl, rfl⟩
  · rw [show ((none : Option (Option BusPacket)).bind id).toList = [] from rfl, List.append_nil]
    cases based with
    | @insertCommand index command bound =>
      exact ⟨count, conserved.joins (lined.insertCommand (command, index) _).2⟩
    | refresh check =>
      refine ⟨(commandQueue_refresh s spec check).2.trans count, ?_⟩
      rw [show (SchedulerCall.refresh check).inserted.toList.map (·.1) = [] from rfl, List.append_nil]
      exact conserved.congr (bufferOf_refresh s spec check)
    | tick =>
      refine ⟨count, ?_⟩
      rw [show SchedulerCall.tick.inserted.toList.map (·.1) = [] from rfl, List.append_nil]
      exact conserved.congr (Lined.tick lined).2
  · rw [show (SchedulerCall.commandSchedule check).inserted.toList.map (·.1) = [] from rfl,
      List.append_nil]
    have scheduled : commandSchedule spec check s = (s', out) := by
      simpa [Fcfs.schedule, Prod.ext_iff] using scheduled
    rcases commandSchedule_cases lined spec check with
      ⟨e, bound, head, same, _⟩ | ⟨left, out', same, stale⟩
    · obtain ⟨rfl, rfl⟩ : s.issue spec e.1 e.2 = s' ∧ some e.1 = out := by
        simpa [scheduled] using same.symm
      refine ⟨(queueCount_issue s spec e.1 e.2).trans count, ?_⟩
      exact conserved.takes (count ▸ bound) (Lined.takes lined spec head)
    · obtain ⟨rfl, rfl⟩ : { s with scheduledCommand := left } = s' ∧ out' = out := by
        simpa [scheduled] using same.symm
      obtain rfl : out' = none := by
        simpa [fresh check rfl] using stale
      refine ⟨count, ?_⟩
      rw [show ((some none : Option (Option BusPacket)).bind id).toList = [] from rfl,
        List.append_nil]
      exact conserved

/-! ## The write data that the controller queues -/

/-- The command carries write data. -/
def writes (c : BusPacket) : Bool := c.busPacketType = .WR ∨ c.busPacketType = .WRA

/-- The controller queues one packet for a write, nothing for any other command. -/
theorem length_queueWriteData {ρ κ : Type} (setup : Setup) (c : MemoryController ρ κ)
    (cmd : BusPacket) :
    (MemoryController.queueWriteData setup c (some cmd)).sendDataBuffer.length =
      c.sendDataBuffer.length + [cmd].countP writes := by
  unfold MemoryController.queueWriteData
  dsimp only
  split
  · next write => simp [writes, write]
  · next other => simp [writes, other]

/-- What the controller queues for the commands that it is returned. -/
def queueReturned {ρ κ : Type} (setup : Setup) (c : MemoryController ρ κ)
    (returned : List BusPacket) : MemoryController ρ κ :=
  returned.foldl (fun c cmd => MemoryController.queueWriteData setup c (some cmd)) c

theorem length_queueReturned {ρ κ : Type} (setup : Setup) (returned : List BusPacket)
    (c : MemoryController ρ κ) :
    (queueReturned setup c returned).sendDataBuffer.length =
      c.sendDataBuffer.length + returned.countP writes := by
  induction returned generalizing c with
  | nil => rfl
  | cons cmd rest ih =>
    calc (queueReturned setup c (cmd :: rest)).sendDataBuffer.length
        = (MemoryController.queueWriteData setup c (some cmd)).sendDataBuffer.length +
            rest.countP writes := ih _
      _ = c.sendDataBuffer.length + [cmd].countP writes + rest.countP writes := by
          rw [length_queueWriteData]
      _ = c.sendDataBuffer.length + ([cmd] ++ rest).countP writes := by
          rw [List.countP_append, Nat.add_assoc]

/-- Every command is returned at most once, and at most one packet is queued for each write. -/
structure Once (calls : List SchedulerCall) (told : List (Option (Option BusPacket))) : Prop where
  returned : (returnedOf told).Subperm ((insertedOf calls).map (·.1))
  queued : ∀ {ρ κ : Type} (setup : Setup) (c : MemoryController ρ κ),
    (queueReturned setup c (returnedOf told)).sendDataBuffer.length ≤
      c.sendDataBuffer.length + ((insertedOf calls).map (·.1)).countP writes

theorem Conserved.once {queueCount : Nat} {told : List (Option (Option BusPacket))}
    (history : Conserved perRequestor queueCount calls st told) : Once calls told := by
  have subperm := history.conserved.subperm
  refine ⟨subperm, fun setup c => ?_⟩
  rw [length_queueReturned]
  exact Nat.add_le_add_left (subperm.countP_le writes) _

theorem conserved_create (perRequestor : Bool) (queueCount : Nat) (m : RefreshMachine) :
    Conserved perRequestor queueCount [] (create queueCount perRequestor m, ()) [] :=
  ⟨lined_create queueCount perRequestor m, rfl,
    Lib.Lanes.conserved_nil (bufferOf_create queueCount perRequestor m)⟩

/-- A run returns what it sends exactly if no call of it is stale. -/
theorem along_returnsSent_iff (spec : DeviceSpec) (table : Nat → Bool) (queueCount : Nat)
    (perRequestor : Bool) (m : RefreshMachine) (calls : List SchedulerCall) :
    Along ((Fcfs.schedule spec).step spec table) (ReturnsSent perRequestor spec)
        (create queueCount perRequestor m, ()) calls ↔
      Along ((Fcfs.schedule spec).step spec table) (fun st call _ _ => Fresh st call)
        (create queueCount perRequestor m, ()) calls :=
  along_congr (fun st => st.1.Lined perRequestor)
    (fun lined (_ : True) stepped => step_returns lined stepped)
    (lined_create queueCount perRequestor m) fun _ _ => trivial

/-- **FCFS returns what it sends, and everything once, exactly along the runs without a stale call.** -/
theorem fcfs_returns (spec : DeviceSpec) (requestorCriticalTable : Nat → Bool) (queueCount : Nat)
    (perRequestor : Bool) (m : RefreshMachine) {calls : List SchedulerCall}
    {st : CommandScheduler × Unit} {told : List (Option (Option BusPacket))}
    (ran : run ((Fcfs.schedule spec).step spec requestorCriticalTable)
      (create queueCount perRequestor m, ()) calls = some (st, told)) :
    (Along ((Fcfs.schedule spec).step spec requestorCriticalTable) (ReturnsSent perRequestor spec)
        (create queueCount perRequestor m, ()) calls ∧ Once calls told) ↔
      Along ((Fcfs.schedule spec).step spec requestorCriticalTable) (fun st call _ _ => Fresh st call)
        (create queueCount perRequestor m, ()) calls := by
  have same := along_returnsSent_iff spec requestorCriticalTable queueCount perRequestor m calls
  refine ⟨fun sent => same.mp sent.1, fun fresh => ⟨same.mpr fresh, ?_⟩⟩
  exact (run_history_along (Conserved perRequestor queueCount)
    (fun history stepped fresh => history.step stepped fresh)
    (conserved_create perRequestor queueCount m) fresh ran).once

/-- A write and a read of two requestors, and a call for each. -/
def writeThenRead : List SchedulerCall :=
  [.insert 0 .WR 0 0, .insert 0 .RD 1 1, .commandSchedule fun _ => true, .tick,
    .commandSchedule fun _ => true]

/-- The check that a call is not stale. -/
def freshCall (st : CommandScheduler × Unit) : SchedulerCall → Bool
  | .commandSchedule check => decide (¬ Stale check st.1)
  | _ => true

/-- The law at a run without a stale call, in which a write and a read are returned. -/
theorem fcfs_returns_writeThenRead : ∃ st told,
    run ((Fcfs.schedule openPageSetup.device).step openPageSetup.device fun _ => true)
      (create 1 true (.create .none openPageSetup.device 0 0), ()) writeThenRead = some (st, told) ∧
    returnedOf told = [sampleCommand .RD 1 1, sampleCommand .WR 0 0] ∧ Once writeThenRead told := by
  obtain ⟨st, told, ran, returned⟩ := run_exists_told
    ((Fcfs.schedule openPageSetup.device).step openPageSetup.device fun _ => true)
    (fun _ told => returnedOf told = [sampleCommand .RD 1 1, sampleCommand .WR 0 0])
    (create 1 true (.create .none openPageSetup.device 0 0), ()) writeThenRead (by decide +kernel)
  refine ⟨st, told, ran, returned, ((fcfs_returns _ _ 1 true _ ran).mpr ?_).2⟩
  refine along_of_check _ (fun st call _ => freshCall st call) (fun st call _ => Fresh st call) _ _
    ?_ (by decide +kernel)
  rintro st _ _ fresh check rfl
  exact of_decide_eq_true fresh

/-- A write, and two calls of which the second has nothing to send. -/
def writeThenIdle : List SchedulerCall :=
  [.insert 0 .WR 0 0, .commandSchedule fun _ => true, .tick, .commandSchedule fun _ => true]

/-- A per-requestor queue with a single write: the second call returns it again, and the controller
queues its data twice. -/
theorem fcfs_returns_twice : ∃ st told,
    run ((Fcfs.schedule openPageSetup.device).step openPageSetup.device fun _ => true)
      (create 1 true (.create .none openPageSetup.device 0 0), ()) writeThenIdle = some (st, told) ∧
    returnedOf told = [sampleCommand .WR 0 0, sampleCommand .WR 0 0] ∧
    st.1.memoryDevice.commandTrace = [sampleCommand .WR 0 0] ∧
    ¬ Along ((Fcfs.schedule openPageSetup.device).step openPageSetup.device fun _ => true)
      (ReturnsSent true openPageSetup.device)
      (create 1 true (.create .none openPageSetup.device 0 0), ()) writeThenIdle ∧
    ¬ Once writeThenIdle told := by
  obtain ⟨st, told, ran, returned, trace⟩ := run_exists_told
    ((Fcfs.schedule openPageSetup.device).step openPageSetup.device fun _ => true)
    (fun st told => returnedOf told = [sampleCommand .WR 0 0, sampleCommand .WR 0 0] ∧
      st.1.memoryDevice.commandTrace = [sampleCommand .WR 0 0])
    (create 1 true (.create .none openPageSetup.device 0 0), ()) writeThenIdle (by decide +kernel)
  refine ⟨st, told, ran, returned, trace, fun sent => ?_, fun once => ?_⟩
  · have fresh := (along_returnsSent_iff _ _ 1 true _ writeThenIdle).mp sent
    obtain ⟨t, os, before, stale⟩ := run_exists
      ((Fcfs.schedule openPageSetup.device).step openPageSetup.device fun _ => true)
      (fun st => Stale (fun _ => true) st.1)
      (create 1 true (.create .none openPageSetup.device 0 0), ()) (writeThenIdle.take 3)
      (by decide +kernel)
    rw [← List.take_append_drop 3 writeThenIdle] at fresh
    exact along_last fresh before rfl _ rfl stale
  · have longer := once.returned.length_le
    rw [returned] at longer
    exact absurd longer (by decide)

end Fcfs
end MCsim
