import MCsim.Lib.Scan
import MCsim.Schedulers.General

/-!
# Calls at a command scheduler

A command scheduler on its own: the controller inserts commands, lets the refresh machine send, asks
for a command and ticks. A run is any sequence of these calls. The device's answers are part of a
call, and nothing is assumed of them.
-/

namespace MCsim

/-- A command and the index of the queue it waits in. -/
abbrev Entry := BusPacket × Nat

/-- What a command scheduler is asked to do. -/
inductive SchedulerCall where
  | insertCommand (index : Nat) (command : BusPacket)
  | refresh (check : Answers)
  | commandSchedule (check : Answers)
  | tick

/-- A `commandSchedule` with state `κ` of its own and `ο` to tell of a call. -/
abbrev Scheduling (κ ο : Type) :=
  Answers → CommandScheduler → κ → Option (CommandScheduler × κ × ο)

/-- The base class as its constructor and `connectMemoryDevice` leave it. -/
def CommandScheduler.create (queueCount : Nat) (perRequestor : Bool)
    (refreshMachine : RefreshMachine) : CommandScheduler :=
  { queueCount := queueCount
    commandQueue := fun _ => { perRequestorEnable := perRequestor }
    refreshMachine := refreshMachine }

/-- The front of a queue that has no command pending: the critical one, else the other. -/
def CommandScheduler.freeFront (s : CommandScheduler) (pending : Bool) (index : Nat) :
    CommandScheduler × Option BusPacket :=
  if pending then (s, none)
  else match s.look index true with
    | (s, some c) => (s, some c)
    | (s, none) => s.look index false

/-- One call. A command goes to the buffer that its requestor's criticality selects; inserting into a
queue that does not exist is undefined. -/
def Scheduling.step {κ ο : Type} (spec : DeviceSpec) (requestorCriticalTable : Nat → Bool)
    (schedule : Scheduling κ ο) : Lib.Machine.Step (CommandScheduler × κ) SchedulerCall (Option ο)
  | (s, p), .insertCommand index command =>
    if index < s.queueCount then
      some ((s.insertCommand index command (requestorCriticalTable command.requestorID), p), none)
    else none
  | (s, p), .refresh check => some ((s.refresh spec check, p), none)
  | (s, p), .commandSchedule check =>
    (schedule check s p).map fun r => ((r.1, r.2.1), some r.2.2)
  | (s, p), .tick => some ((s.tick, p), none)

/-- A call that the base class answers on its own. -/
inductive BaseStep (spec : DeviceSpec) (requestorCriticalTable : Nat → Bool)
    (s : CommandScheduler) : SchedulerCall → CommandScheduler → Prop
  | insertCommand {index : Nat} {command : BusPacket} (bound : index < s.queueCount) :
      BaseStep spec requestorCriticalTable s (.insertCommand index command)
        (s.insertCommand index command (requestorCriticalTable command.requestorID))
  | refresh (check : Answers) :
      BaseStep spec requestorCriticalTable s (.refresh check) (s.refresh spec check)
  | tick : BaseStep spec requestorCriticalTable s .tick s.tick

/-- A call is answered by the base class, or it is a choice of the subclass. -/
theorem Scheduling.step_cases {κ ο : Type} {spec : DeviceSpec} {table : Nat → Bool}
    {schedule : Scheduling κ ο} {s : CommandScheduler} {p : κ} {call : SchedulerCall}
    {st : CommandScheduler × κ} {o : Option ο}
    (h : schedule.step spec table (s, p) call = some (st, o)) :
    (∃ s', BaseStep spec table s call s' ∧ st = (s', p) ∧ o = none) ∨
      ∃ check s' p' out, call = .commandSchedule check ∧ schedule check s p = some (s', p', out) ∧
        st = (s', p') ∧ o = some out := by
  cases call with
  | insertCommand index command =>
    simp only [Scheduling.step] at h
    split at h
    · next bound =>
      obtain ⟨rfl, rfl⟩ : _ ∧ _ := by simpa using h
      exact .inl ⟨_, .insertCommand bound, rfl, rfl⟩
    · cases h
  | refresh check =>
    obtain ⟨rfl, rfl⟩ : _ ∧ _ := by simpa [Scheduling.step] using h
    exact .inl ⟨_, .refresh check, rfl, rfl⟩
  | commandSchedule check =>
    simp only [Scheduling.step] at h
    obtain ⟨⟨s', p', out⟩, scheduled, told⟩ := Option.map_eq_some_iff.mp h
    obtain ⟨rfl, rfl⟩ : _ ∧ _ := by simpa using told
    exact .inr ⟨check, s', p', out, rfl, scheduled, rfl, rfl⟩
  | tick =>
    obtain ⟨rfl, rfl⟩ : _ ∧ _ := by simpa [Scheduling.step] using h
    exact .inl ⟨_, .tick, rfl, rfl⟩

/-- The choice of the subclass, as a call. -/
theorem Scheduling.step_commandSchedule {κ ο : Type} {schedule : Scheduling κ ο} {check : Answers}
    {s s' : CommandScheduler} {p p' : κ} {out : ο} (spec : DeviceSpec) (table : Nat → Bool)
    (h : schedule check s p = some (s', p', out)) :
    schedule.step spec table (s, p) (.commandSchedule check) = some ((s', p'), some out) := by
  rw [Scheduling.step, h]
  rfl

/-- The command a call inserts, with its queue. -/
def SchedulerCall.inserted : SchedulerCall → Option Entry
  | .insertCommand index command => some (command, index)
  | _ => none

/-- What the call inserts, if anything, fits its queue. -/
def SchedulerCall.Inserts (fits : Nat → BusPacket → Prop) (call : SchedulerCall) : Prop :=
  ∀ e, call.inserted = some e → fits e.2 e.1

/-- One command queue for each bank: a command goes to the queue of its bank. -/
def ofBank (index : Nat) (command : BusPacket) : Prop := command.bank = index

/-- A command of a requestor for a bank, the rest of it 0: what the runs on fixed inputs are made
of. -/
def sampleCommand (t : BusPacketType) (requestorID bank : Nat) : BusPacket :=
  { busPacketType := t, requestorID := requestorID, address := 0, column := 0, row := 0,
    bank := bank, rank := 0, subArray := 0, arriveTime := 0 }

/-- The call that inserts it. -/
def SchedulerCall.insert (index : Nat) (t : BusPacketType) (requestorID bank : Nat) : SchedulerCall :=
  .insertCommand index (sampleCommand t requestorID bank)

end MCsim
