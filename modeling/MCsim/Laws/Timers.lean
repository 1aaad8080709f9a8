import MCsim.Dram.Adapter
import MCsim.Lib.Countdown
import MCsim.Laws.Sides
import MCsim.TimerMaps

/-!
# The timers of the queues are their history

A timer keeps one number for each command type, merged by `max` and counted down to 0, in maps that are
filled on demand. `isReady` answers what the whole list of commands sent says: every delay that a
command of the queue asked for, of the same requestor in a per-requestor queue, is over
(`timers_history`). Nothing is assumed of the order of sends, ticks and questions; of a command sent in
the same cycle no time has passed yet.

The base class has the timers as total functions, in which an absent counter reads 0. They give the same
answers.
-/

namespace MCsim

open Lib.Countdown Lib.Machine

/-! ## The commands sent -/

/-- A command sent, with its cycle and its queue. -/
structure Sent where
  cycle : Nat
  index : Nat
  cmd : BusPacket

namespace TimerCall

def isTick : TimerCall → Bool
  | .tick => true
  | _ => false

/-- What a call sends in a cycle. -/
def sent (cycle : Nat) : TimerCall → List Sent
  | .sendCommand cmd index _ => [⟨cycle, index, cmd⟩]
  | _ => []

end TimerCall

/-- The cycles that have gone by. -/
def cyclesOf (calls : List TimerCall) : Nat := calls.countP TimerCall.isTick

/-- The commands sent, from a cycle on. -/
def sentFrom : Nat → List TimerCall → List Sent
  | _, [] => []
  | cycle, call :: rest =>
    call.sent cycle ++ sentFrom (if call.isTick then cycle + 1 else cycle) rest

/-- The commands sent in a run, which starts with cycle 0. -/
def sentIn (calls : List TimerCall) : List Sent := sentFrom 0 calls

theorem sentFrom_append (cycle : Nat) (calls : List TimerCall) (call : TimerCall) :
    sentFrom cycle (calls ++ [call]) = sentFrom cycle calls ++ call.sent (cycle + cyclesOf calls) := by
  induction calls generalizing cycle with
  | nil => simp [sentFrom, cyclesOf]
  | cons c calls ih =>
    have later : (if c.isTick then cycle + 1 else cycle) + cyclesOf calls =
        cycle + cyclesOf (c :: calls) := by
      rw [cyclesOf, cyclesOf, List.countP_cons]
      split <;> omega
    rw [List.cons_append, sentFrom, sentFrom, ih, later, List.append_assoc]

theorem cyclesOf_append (calls : List TimerCall) (call : TimerCall) :
    cyclesOf (calls ++ [call]) = cyclesOf calls + if call.isTick then 1 else 0 := by
  rw [cyclesOf, List.countP_append, List.countP_singleton]
  rfl

variable {spec : DeviceSpec} {queueCount : Nat} {perRequestor : Nat → Bool} {maps maps' : TimerMaps}

/-- A command sent holds a requestor's commands in a queue back. -/
def Sent.holds (perRequestor : Nat → Bool) (index id : Nat) (e : Sent) : Bool :=
  e.index == index && (!perRequestor index || e.cmd.requestorID == id)

theorem Sent.holds_eq_true {index id : Nat} {e : Sent} :
    e.holds perRequestor index id = true ↔
      e.index = index ∧ (perRequestor index = true → e.cmd.requestorID = id) := by
  cases h : perRequestor index <;> simp [Sent.holds, h]

/-- The delays for a command type that hold a requestor's commands in a queue back. -/
def delaysOf (spec : DeviceSpec) (perRequestor : Nat → Bool) (index id : Nat) (type : BusPacketType)
    (sends : List Sent) : Delays :=
  (sends.filter (Sent.holds perRequestor index id)).map fun e =>
    (e.cycle, spec.command_timing e.cmd.busPacketType type)

theorem delaysOf_append (index id : Nat) (type : BusPacketType) (sends more : List Sent) :
    delaysOf spec perRequestor index id type (sends ++ more) =
      delaysOf spec perRequestor index id type sends ++ delaysOf spec perRequestor index id type more := by
  simp [delaysOf]

/-! ## One number for each type -/

namespace TimerMaps

/-- The counter that `isReady` reads, 0 where there is none. -/
def value (perRequestor : Nat → Bool) (maps : TimerMaps) (index id : Nat) (type : BusPacketType) : Nat :=
  if perRequestor index then ((maps.ofRequestor index id) type).getD 0
  else ((maps.ofQueue index) type).getD 0

theorem over_eq (m : Counters) (type : BusPacketType) : m.expired type = decide ((m type).getD 0 = 0) := by
  unfold Counters.expired
  cases m type with
  | none => rfl
  | some counter => cases counter <;> rfl

theorem raise_getD (cmd : BusPacket) (m : Counters) (type : BusPacketType) :
    ((m.raise spec cmd) type).getD 0 =
      if type.toNat < BusPacketType.PDE.toNat then
        max ((m type).getD 0) (spec.command_timing cmd.busPacketType type)
      else (m type).getD 0 := by
  unfold Counters.raise
  split <;> rfl

theorem down_getD (m : Counters) (type : BusPacketType) : (m.down type).getD 0 = (m type).getD 0 - 1 := by
  unfold Counters.down
  cases m type with
  | none => rfl
  | some counter =>
    simp only [Option.map_some, Option.getD_some]
    split <;> omega

/-- Counters that are set are read where they were set. -/
theorem ofRequestor_setRequestor (index id : Nat) (m : Counters) (i d : Nat) :
    (maps.setRequestor index id m).ofRequestor i d =
      if i = index ∧ d = id then m else maps.ofRequestor i d := by
  unfold ofRequestor setRequestor
  dsimp only
  split <;> rfl

theorem ofQueue_setQueue (index : Nat) (m : Counters) (i : Nat) :
    (maps.setQueue index m).ofQueue i = if i = index then m else maps.ofQueue i := by
  unfold ofQueue setQueue
  dsimp only
  split <;> rfl

@[simp] theorem ofQueue_setRequestor (index id : Nat) (m : Counters) (i : Nat) :
    (maps.setRequestor index id m).ofQueue i = maps.ofQueue i := rfl

@[simp] theorem ofRequestor_setQueue (index : Nat) (m : Counters) (i d : Nat) :
    (maps.setQueue index m).ofRequestor i d = maps.ofRequestor i d := rfl

theorem isReady_answer (cmd : BusPacket) (index : Nat) :
    (maps.isReady perRequestor cmd index).2 =
      decide (maps.value perRequestor index cmd.requestorID cmd.busPacketType = 0) := by
  unfold isReady value
  split <;> exact over_eq _ _

/-- A question changes no counter. -/
theorem value_isReady (cmd : BusPacket) (index i id : Nat) (type : BusPacketType) :
    (maps.isReady perRequestor cmd index).1.value perRequestor i id type =
      maps.value perRequestor i id type := by
  unfold isReady value
  cases per : perRequestor index with
  | true =>
    simp only [if_true, ofRequestor_setRequestor]
    split
    · split
      · next same => rw [same.1, same.2]
      · rfl
    · rfl
  | false =>
    simp only [Bool.false_eq_true, if_false, ofQueue_setQueue]
    split
    · rfl
    · split
      · next same => rw [same]
      · rfl

/-- Sending raises the counters of the commands it holds back. -/
theorem value_sendCommand (cmd : BusPacket) (index cycle i id : Nat) (type : BusPacketType) :
    (maps.sendCommand spec perRequestor cmd index).value perRequestor i id type =
      if Sent.holds perRequestor i id ⟨cycle, index, cmd⟩ = true ∧
          type.toNat < BusPacketType.PDE.toNat then
        max (maps.value perRequestor i id type) (spec.command_timing cmd.busPacketType type)
      else maps.value perRequestor i id type := by
  unfold sendCommand value Sent.holds
  by_cases here : index = i
  · subst here
    cases per : perRequestor index with
    | true =>
      by_cases own : id = cmd.requestorID
      · subst own
        simp [ofRequestor_setRequestor, raise_getD]
      · simp [ofRequestor_setRequestor, own, Ne.symm own]
    | false => simp [ofQueue_setQueue, raise_getD]
  · have other : (index == i) = false := by simpa using here
    cases perRequestor index with
    | true => simp [ofRequestor_setRequestor, Ne.symm here, other]
    | false => simp [ofQueue_setQueue, Ne.symm here, other]

/-- A tick takes one away from every counter of a queue there is. -/
theorem value_tick (i id : Nat) (type : BusPacketType) :
    (maps.tick queueCount perRequestor).value perRequestor i id type =
      if i < queueCount then maps.value perRequestor i id type - 1
      else maps.value perRequestor i id type := by
  unfold value
  by_cases bound : i < queueCount
  · rw [if_pos bound]
    cases per : perRequestor i with
    | true =>
      simp only [if_true, tick, ofRequestor, bound, per, and_self]
      cases maps.reqCmdQueueTimer i id with
      | none => rfl
      | some m => exact down_getD m type
    | false =>
      have queue : (maps.tick queueCount perRequestor).ofQueue i = (maps.ofQueue i).down := by
        simp [ofQueue, tick, bound, per]
      rw [if_neg Bool.false_ne_true, if_neg Bool.false_ne_true, queue]
      exact down_getD (maps.ofQueue i) type
  · simp only [tick, ofRequestor, ofQueue, bound, false_and, if_false]

/-! ## Runs -/

/-- Every counter is what is left of its delays. -/
structure History (spec : DeviceSpec) (queueCount : Nat) (perRequestor : Nat → Bool)
    (calls : List TimerCall) (maps : TimerMaps) : Prop where
  started : ∀ e ∈ sentIn calls, e.cycle ≤ cyclesOf calls
  counters : ∀ i < queueCount, ∀ id type, type.toNat < BusPacketType.PDE.toNat →
    maps.value perRequestor i id type =
      remaining (cyclesOf calls) (delaysOf spec perRequestor i id type (sentIn calls))

theorem history_nil : History spec queueCount perRequestor [] {} := by
  refine ⟨fun e h => (nomatch h), fun i _ id type _ => ?_⟩
  unfold value
  split <;> rfl

/-- **A call carries the history on.** -/
theorem History.step {calls : List TimerCall} {call : TimerCall} {o : Option Bool}
    (history : History spec queueCount perRequestor calls maps)
    (stepped : TimerMaps.step spec queueCount perRequestor maps call = some (maps', o)) :
    History spec queueCount perRequestor (calls ++ [call]) maps' := by
  have sends : sentIn (calls ++ [call]) = sentIn calls ++ call.sent (cyclesOf calls) := by
    rw [sentIn, sentFrom_append, Nat.zero_add]
    rfl
  have cycles := cyclesOf_append calls call
  obtain ⟨started, counters⟩ := history
  cases call with
  | isReady cmd index =>
    simp only [TimerMaps.step] at stepped
    split at stepped
    · cases stepped
      replace sends : sentIn (calls ++ [.isReady cmd index]) = sentIn calls :=
        sends.trans (List.append_nil _)
      refine ⟨?_, fun i bound id type timed => ?_⟩
      · rw [sends, cycles]
        exact started
      · rw [value_isReady, sends, cycles]
        exact counters i bound id type timed
    · cases stepped
  | sendCommand cmd index bypass =>
    simp only [TimerMaps.step] at stepped
    split at stepped
    · cases stepped
      refine ⟨fun e he => ?_, fun i bound id type timed => ?_⟩
      · rw [sends] at he
        rw [cycles]
        rcases List.mem_append.mp he with he | he
        · exact started e he
        · rw [List.mem_singleton.mp he]
          exact Nat.le_refl _
      · rw [value_sendCommand cmd index (cyclesOf calls), sends, delaysOf_append, cycles,
          counters i bound id type timed]
        split
        · next held =>
          rw [← remaining_raise]
          simp [delaysOf, TimerCall.sent, TimerCall.isTick, held.1]
        · next free =>
          have apart : ¬ Sent.holds perRequestor i id ⟨cyclesOf calls, index, cmd⟩ = true :=
            fun held => free ⟨held, timed⟩
          simp [delaysOf, TimerCall.sent, TimerCall.isTick, apart]
    · cases stepped
  | tick =>
    obtain ⟨rfl, rfl⟩ : maps.tick queueCount perRequestor = maps' ∧ none = o := by
      simpa [TimerMaps.step] using stepped
    replace sends : sentIn (calls ++ [.tick]) = sentIn calls := sends.trans (List.append_nil _)
    refine ⟨fun e he => ?_, fun i bound id type timed => ?_⟩
    · rw [sends] at he
      rw [cycles]
      exact Nat.le_succ_of_le (started e he)
    · rw [value_tick, if_pos bound, sends, cycles, counters i bound id type timed]
      refine (remaining_tick fun e he => ?_).symm
      obtain ⟨sent, there, rfl⟩ := List.mem_map.mp he
      exact started sent (List.mem_of_mem_filter there)

end TimerMaps

/-! ## The base class -/

namespace CommandScheduler

variable {s : CommandScheduler}

/-- The base class has the queues of the maps, and its timers are their counters. -/
structure Timed (queueCount : Nat) (perRequestor : Nat → Bool) (maps : TimerMaps)
    (s : CommandScheduler) : Prop where
  count : s.queueCount = queueCount
  kind : ∀ i, (s.commandQueue i).isPerRequestor = perRequestor i
  timer : ∀ i id type, (if perRequestor i then s.reqCmdQueueTimer i id type else s.cmdQueueTimer i type) =
    maps.value perRequestor i id type

theorem Timed.isReady (timed : s.Timed queueCount perRequestor maps) (cmd : BusPacket) (index : Nat) :
    s.isReady cmd index = (maps.isReady perRequestor cmd index).2 := by
  rw [TimerMaps.isReady_answer, ← timed.timer]
  unfold CommandScheduler.isReady
  rw [timed.kind]
  split <;> rfl

/-- Sending takes a command off a queue, and leaves every queue of its kind. -/
theorem kind_sendCommand (s : CommandScheduler) (spec : DeviceSpec) (cmd : BusPacket) (index : Nat)
    (bypass : Bool) (i : Nat) :
    ((s.sendCommand spec cmd index bypass).commandQueue i).isPerRequestor =
      (s.commandQueue i).isPerRequestor := by
  unfold sendCommand CommandScheduler.setQueue
  dsimp only
  split
  · by_cases here : i = index
    · subst here
      simp [CommandQueue.removeRequestorCommand, CommandQueue.isPerRequestor]
    · simp [here]
  · by_cases here : i = index
    · subst here
      have removed : (s.commandQueue i).removeCommand.isPerRequestor =
          (s.commandQueue i).isPerRequestor := by
        unfold CommandQueue.removeCommand
        split <;> rfl
      cases bypass <;> simp [removed]
    · simp [here]

theorem queueCount_sendCommand (s : CommandScheduler) (spec : DeviceSpec) (cmd : BusPacket) (index : Nat)
    (bypass : Bool) : (s.sendCommand spec cmd index bypass).queueCount = s.queueCount := by
  unfold sendCommand
  dsimp only
  split <;> rfl

theorem Timed.sendCommand (timed : s.Timed queueCount perRequestor maps) (cmd : BusPacket) (index : Nat)
    (bypass : Bool) :
    (s.sendCommand spec cmd index bypass).Timed queueCount perRequestor
      (maps.sendCommand spec perRequestor cmd index) := by
  refine ⟨(queueCount_sendCommand s spec cmd index bypass).trans timed.count,
    fun i => (kind_sendCommand s spec cmd index bypass i).trans (timed.kind i), fun i id type => ?_⟩
  have before := timed.timer i id type
  rw [TimerMaps.value_sendCommand cmd index 0, ← before]
  unfold Sent.holds CommandScheduler.sendCommand
  dsimp only
  rw [timed.kind]
  by_cases here : index = i
  · subst here
    cases per : perRequestor index with
    | true =>
      by_cases own : id = cmd.requestorID
      · subst own
        simp [raiseTimer]
      · simp [own, Ne.symm own]
    | false => simp [raiseTimer]
  · have other : (index == i) = false := by simpa using here
    cases perRequestor index with
    | true => simp [CommandScheduler.setQueue, Ne.symm here, other]
    | false => simp [CommandScheduler.setQueue, Ne.symm here, other]

theorem Timed.tick (timed : s.Timed queueCount perRequestor maps) :
    s.tick.Timed queueCount perRequestor (maps.tick queueCount perRequestor) := by
  refine ⟨timed.count, fun i => ?_, fun i id type => ?_⟩
  · obtain ⟨last, queue, _⟩ := queue_tick s i
    rw [queue]
    exact timed.kind i
  · rw [TimerMaps.value_tick, ← timed.timer, ← timed.count]
    unfold CommandScheduler.tick
    dsimp only
    rw [timed.kind]
    by_cases bound : i < s.queueCount
    · cases perRequestor i <;> simp [bound]
    · simp [bound]

/-- A call of the maps is one of the base class. -/
theorem Timed.step {call : TimerCall} {o : Option Bool} (timed : s.Timed queueCount perRequestor maps)
    (stepped : TimerMaps.step spec queueCount perRequestor maps call = some (maps', o)) :
    (s.timerCall spec call).Timed queueCount perRequestor maps' := by
  cases call with
  | isReady cmd index =>
    simp only [TimerMaps.step] at stepped
    split at stepped
    · cases stepped
      exact ⟨timed.count, timed.kind, fun i id type =>
        (timed.timer i id type).trans (TimerMaps.value_isReady cmd index i id type).symm⟩
    · cases stepped
  | sendCommand cmd index bypass =>
    simp only [TimerMaps.step] at stepped
    split at stepped
    · cases stepped
      exact timed.sendCommand cmd index bypass
    · cases stepped
  | tick =>
    cases stepped
    exact timed.tick

end CommandScheduler

/-! ## The law -/

/-- Timers that were never raised. -/
theorem CommandScheduler.timed_start {s : CommandScheduler} (count : s.queueCount = queueCount)
    (kind : ∀ i, (s.commandQueue i).isPerRequestor = perRequestor i)
    (rest : ∀ i type, s.cmdQueueTimer i type = 0)
    (restOf : ∀ i id type, s.reqCmdQueueTimer i id type = 0) :
    s.Timed queueCount perRequestor {} := by
  refine ⟨count, kind, fun i id type => ?_⟩
  rw [rest, restOf]
  unfold TimerMaps.value
  split <;> rfl

/-- **The timers of the queues are their history**: after every run, `isReady` holds of a command exactly
if every command sent from the queue, and by the requestor in a per-requestor queue, was sent as many
cycles ago as its timing asks. The base class answers the same. -/
theorem timers_history {calls : List TimerCall} {told : List (Option Bool)}
    (ran : run (TimerMaps.step spec queueCount perRequestor) {} calls = some (maps, told))
    {index : Nat} (bound : index < queueCount) (cmd : BusPacket)
    (timed : cmd.busPacketType.toNat < BusPacketType.PDE.toNat) :
    ((maps.isReady perRequestor cmd index).2 = true ↔
      ∀ e ∈ sentIn calls, e.index = index →
        (perRequestor index = true → e.cmd.requestorID = cmd.requestorID) →
        spec.command_timing e.cmd.busPacketType cmd.busPacketType ≤ cyclesOf calls - e.cycle) ∧
    ∀ s : CommandScheduler, s.queueCount = queueCount →
      (∀ i, (s.commandQueue i).isPerRequestor = perRequestor i) →
      (∀ i type, s.cmdQueueTimer i type = 0) → (∀ i id type, s.reqCmdQueueTimer i id type = 0) →
      (calls.foldl (CommandScheduler.timerCall spec) s).isReady cmd index =
        (maps.isReady perRequestor cmd index).2 := by
  constructor
  · have history : TimerMaps.History spec queueCount perRequestor calls maps :=
      run_history (fun calls maps _ => TimerMaps.History spec queueCount perRequestor calls maps)
        (fun history stepped => history.step stepped) TimerMaps.history_nil ran
    rw [TimerMaps.isReady_answer, decide_eq_true_eq,
      history.counters index bound cmd.requestorID cmd.busPacketType timed, remaining_eq_zero_iff]
    unfold delaysOf
    simp only [List.mem_map, List.mem_filter, Sent.holds_eq_true]
    constructor
    · intro expired e sent here own
      exact expired _ ⟨e, ⟨sent, here, own⟩, rfl⟩
    · rintro expired _ ⟨e, ⟨sent, here, own⟩, rfl⟩
      exact expired e sent here own
  · intro s count kind rest restOf
    have same : (calls.foldl (CommandScheduler.timerCall spec) s).Timed queueCount perRequestor maps :=
      run_history (fun calls maps _ =>
          (calls.foldl (CommandScheduler.timerCall spec) s).Timed queueCount perRequestor maps)
        (fun timed stepped => by
          rw [List.foldl_append]
          exact timed.step stepped)
        (CommandScheduler.timed_start count kind rest restOf) ran
    exact same.isReady cmd index

/-- An activation of requestor 0 and then one of requestor 1, in a per-requestor queue. -/
def twoActivations : List TimerCall :=
  [.sendCommand (RefreshMachine.refreshCommand .ACT 5 0 0) 0 false, .tick,
    .sendCommand { RefreshMachine.refreshCommand .ACT 7 1 0 with requestorID := 1 } 0 false,
    .tick, .tick, .tick, .tick]

/-- The read of requestor 0 waits for its own activation only, which is `tRCD` cycles ago. -/
theorem timers_history_twoActivations :
    ((run (TimerMaps.step (Dram.DDR3.device .DDR3_512Mb_x8 .DDR3_800D 1) 1 fun _ => true) {}
      twoActivations).elim none fun t =>
        some (t.1.isReady (fun _ => true) (RefreshMachine.refreshCommand .RD 5 0 0) 0).2) = some true := by
  obtain ⟨⟨maps, told⟩, ran⟩ : ∃ t, run (TimerMaps.step (Dram.DDR3.device .DDR3_512Mb_x8 .DDR3_800D 1) 1
      fun _ => true) {} twoActivations = some t := ⟨_, rfl⟩
  rw [ran]
  refine congrArg some ((timers_history ran Nat.zero_lt_one (RefreshMachine.refreshCommand .RD 5 0 0)
    (by decide)).1.mpr ?_)
  decide

end MCsim
