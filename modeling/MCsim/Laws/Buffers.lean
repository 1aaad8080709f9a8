import MCsim.Laws.General
import MCsim.Schedulers.Calls

/-!
# Command buffers under the calls of a scheduler

The buffers of a command scheduler are the requestors' buffers of its queues, or their critical
buffers. `bufferOf` names them in one way, and each call of the base class is described once by what
it does to them and to the answers of `isReady`: inserting appends to one, sending takes the head of
one and holds back the rest of it, refreshing and ticking leave them alone and hold nothing back.
-/

namespace MCsim

/-- The entry belongs to the buffer of a requestor in a queue, or to the queue's only one. -/
def Entry.inBuffer (perRequestor : Bool) (index requestorID : Nat) (e : Entry) : Bool :=
  e.2 == index && (!perRequestor || e.1.requestorID == requestorID)

/-- Another queue, or another requestor of a per-requestor queue. -/
theorem Entry.inBuffer_eq_false {perRequestor : Bool} {index requestorID : Nat} {e : Entry} :
    e.inBuffer perRequestor index requestorID = false ↔
      e.2 ≠ index ∨ (perRequestor = true ∧ e.1.requestorID ≠ requestorID) := by
  cases perRequestor <;> simp [inBuffer, Decidable.imp_iff_not_or]

theorem Entry.inBuffer_eq_true {perRequestor : Bool} {index requestorID : Nat} {e : Entry} :
    e.inBuffer perRequestor index requestorID = true ↔
      e.2 = index ∧ (perRequestor = true → e.1.requestorID = requestorID) := by
  cases perRequestor <;> simp [inBuffer]

/-! ## One queue -/

namespace CommandQueue

/-- The commands of a requestor, or the critical ones. -/
def lane (q : CommandQueue) (requestorID : Nat) : List BusPacket :=
  if q.isPerRequestor then q.buffer requestorID else q.hrtBuffer

/-- The queue is of a kind, serves critical requestors only, and keeps the commands of a requestor in
its buffer. -/
structure Shaped (perRequestor : Bool) (q : CommandQueue) : Prop where
  kind : q.perRequestorEnable = perRequestor
  last : q.scheduledQueue = true
  critical : q.srtBuffer = []
  owned : ∀ id, ∀ c ∈ q.buffer id, c.requestorID = id

variable {q : CommandQueue} {perRequestor : Bool}

theorem Shaped.insertCommand (shaped : q.Shaped perRequestor) (c : BusPacket) {critical : Bool}
    (served : perRequestor = false → critical = true) :
    (q.insertCommand c critical).Shaped perRequestor ∧
      ∀ id, (q.insertCommand c critical).lane id =
        if perRequestor = true → c.requestorID = id then q.lane id ++ [c] else q.lane id := by
  obtain ⟨kind, last, srt, owned⟩ := shaped
  cases perRequestor with
  | true =>
    have buffer := buffer_insertCommand kind c critical
    refine ⟨⟨by simp [kind], by simp [last], by simp [CommandQueue.insertCommand, kind, srt],
      fun id d hd => ?_⟩, fun id => ?_⟩
    · rw [buffer] at hd
      split at hd
      · next same =>
        rcases List.mem_append.mp hd with hd | hd
        · exact owned id d hd
        · rw [List.mem_singleton.mp hd, same]
      · exact owned id d hd
    · simp only [lane, isPerRequestor, insertCommand_perRequestor, kind, if_true, buffer,
        forall_const, eq_comm]
  | false =>
    obtain rfl := served rfl
    rw [insertCommand_critical kind]
    exact ⟨⟨kind, last, srt, owned⟩, fun id => by simp [lane, isPerRequestor, kind]⟩

/-- What `sendCommand` leaves of the queue. -/
def taken (q : CommandQueue) (c : BusPacket) : CommandQueue :=
  if q.isPerRequestor then q.removeRequestorCommand c.requestorID else q.removeCommand

theorem Shaped.taken (shaped : q.Shaped perRequestor) (c : BusPacket) :
    (q.taken c).Shaped perRequestor ∧
      ∀ id, (q.taken c).lane id =
        if perRequestor = true → c.requestorID = id then (q.lane id).tail else q.lane id := by
  obtain ⟨kind, last, srt, owned⟩ := shaped
  unfold CommandQueue.taken
  cases perRequestor with
  | true =>
    simp only [isPerRequestor, kind, if_true]
    refine ⟨⟨kind, last, srt, fun id d hd => ?_⟩, fun id => ?_⟩
    · rw [buffer_removeRequestorCommand] at hd
      split at hd
      · exact owned id d (List.mem_of_mem_tail hd)
      · exact owned id d hd
    · have same : (q.removeRequestorCommand c.requestorID).perRequestorEnable = true := kind
      simp only [lane, isPerRequestor, same, kind, if_true, buffer_removeRequestorCommand,
        forall_const, eq_comm]
  | false =>
    simp only [isPerRequestor, kind, Bool.false_eq_true, if_false, removeCommand, last, if_true]
    exact ⟨⟨rfl, rfl, srt, owned⟩, fun id => by simp [lane, isPerRequestor, kind]⟩

end CommandQueue

namespace CommandScheduler

/-- The buffer of a requestor in a queue, or the queue's critical one. -/
def bufferOf (s : CommandScheduler) (index requestorID : Nat) : List BusPacket :=
  (s.commandQueue index).lane requestorID

/-- Every queue is of one kind, with what it serves and keeps. -/
def Shaped (perRequestor : Bool) (s : CommandScheduler) : Prop :=
  ∀ i, (s.commandQueue i).Shaped perRequestor

theorem shaped_create (queueCount : Nat) (perRequestor : Bool) (m : RefreshMachine) :
    (create queueCount perRequestor m).Shaped perRequestor :=
  fun _ => ⟨rfl, rfl, rfl, fun _ _ h => absurd h List.not_mem_nil⟩

theorem bufferOf_create (queueCount : Nat) (perRequestor : Bool) (m : RefreshMachine)
    (index id : Nat) : (create queueCount perRequestor m).bufferOf index id = [] := by
  cases perRequestor <;> rfl

variable {s : CommandScheduler} {perRequestor : Bool}

theorem Shaped.general (shaped : s.Shaped false) : s.General := fun i =>
  ⟨(shaped i).kind, (shaped i).last⟩

theorem Shaped.bufferOf_false (shaped : s.Shaped false) (index id : Nat) :
    s.bufferOf index id = s.waiting index := by
  simp [bufferOf, CommandQueue.lane, CommandQueue.isPerRequestor, (shaped index).kind, waiting]

/-- There is no command of a requestor that is not critical. -/
theorem Shaped.look_other (shaped : s.Shaped perRequestor) (index : Nat) :
    s.look index false = (s, none) := by
  simp [CommandScheduler.look, CommandQueue.getCommand, CommandQueue.general, (shaped index).critical]

/-- Looking at a front changes nothing: the critical one was looked at last, and there is no other. -/
theorem Shaped.freeFront (shaped : s.Shaped false) (pending : Bool) (index : Nat) :
    s.freeFront pending index = (s, if pending then none else (s.waiting index).head?) := by
  have critical := look_general shaped.general index
  unfold CommandScheduler.freeFront
  rw [critical]
  cases pending with
  | true => rfl
  | false =>
    cases (s.waiting index).head? with
    | none => exact shaped.look_other index
    | some c => rfl

/-- The front of a queue that has no command pending is the head of its buffer. -/
theorem Shaped.head_of_freeFront (shaped : s.Shaped false) {pending : Bool} {index : Nat}
    {c : BusPacket} (h : (if pending then none else (s.waiting index).head?) = some c) :
    pending = false ∧ (s.bufferOf index c.requestorID).head? = some c := by
  rw [shaped.bufferOf_false]
  cases pending with
  | true => cases h
  | false => exact ⟨rfl, h⟩

/-- Replacing one queue, seen from the buffers. -/
theorem Shaped.replace {t : CommandScheduler} (shaped : s.Shaped perRequestor) {e : Entry}
    {q : CommandQueue} (new : List BusPacket → List BusPacket)
    (queue : ∀ i, t.commandQueue i = if i = e.2 then q else s.commandQueue i)
    (fits : q.Shaped perRequestor ∧ ∀ id, q.lane id =
      if perRequestor = true → e.1.requestorID = id then new ((s.commandQueue e.2).lane id)
      else (s.commandQueue e.2).lane id) :
    t.Shaped perRequestor ∧ ∀ i id, t.bufferOf i id =
      if e.inBuffer perRequestor i id then new (s.bufferOf i id) else s.bufferOf i id := by
  refine ⟨fun i => ?_, fun i id => ?_⟩
  · rw [queue]
    split
    · exact fits.1
    · exact shaped i
  · simp only [bufferOf, queue, Entry.inBuffer_eq_true]
    by_cases here : i = e.2
    · simp only [here, if_true, fits.2, true_and]
    · simp [here, Ne.symm here]

/-! ## Inserting -/

theorem Shaped.insertCommand (shaped : s.Shaped perRequestor) (e : Entry) {critical : Bool}
    (served : perRequestor = false → critical = true) :
    (s.insertCommand e.2 e.1 critical).Shaped perRequestor ∧
      ∀ i id, (s.insertCommand e.2 e.1 critical).bufferOf i id =
        if e.inBuffer perRequestor i id then s.bufferOf i id ++ [e.1] else s.bufferOf i id :=
  shaped.replace (· ++ [e.1]) (fun _ => rfl) ((shaped e.2).insertCommand e.1 served)

theorem isReady_insertCommand (s : CommandScheduler) (index : Nat) (c d : BusPacket)
    (critical : Bool) (i : Nat) :
    (s.insertCommand index c critical).isReady d i = s.isReady d i := by
  have kind : ((s.insertCommand index c critical).commandQueue i).isPerRequestor =
      (s.commandQueue i).isPerRequestor := by
    unfold insertCommand setQueue
    by_cases here : i = index
    · simp [here, CommandQueue.isPerRequestor]
    · simp [here]
  unfold isReady
  rw [kind]
  rfl

/-! ## Refreshing and ticking -/

theorem Shaped.refresh (shaped : s.Shaped perRequestor) (spec : DeviceSpec) (check : Answers) :
    (s.refresh spec check).Shaped perRequestor := by
  intro i
  rw [(commandQueue_refresh s spec check).1]
  exact shaped i

theorem bufferOf_refresh (s : CommandScheduler) (spec : DeviceSpec) (check : Answers)
    (index id : Nat) : (s.refresh spec check).bufferOf index id = s.bufferOf index id := by
  unfold bufferOf
  rw [(commandQueue_refresh s spec check).1]

theorem isReady_refresh (s : CommandScheduler) (spec : DeviceSpec) (check : Answers)
    (c : BusPacket) (index : Nat) : (s.refresh spec check).isReady c index = s.isReady c index := by
  unfold refresh
  split
  · dsimp only
    split
    · rfl
    · split <;> rfl
  · rfl

theorem clock_refresh (s : CommandScheduler) (spec : DeviceSpec) (check : Answers) :
    (s.refresh spec check).clock = s.clock := by
  unfold refresh
  split
  · dsimp only
    split
    · rfl
    · split <;> rfl
  · rfl

theorem Shaped.commandQueue_tick (shaped : s.Shaped perRequestor) :
    s.tick.commandQueue = s.commandQueue := by
  funext i
  simp only [tick, RefreshMachine.stepQueue, touch_general (shaped i).last, ite_self]

theorem Shaped.tick (shaped : s.Shaped perRequestor) : s.tick.Shaped perRequestor := by
  intro i
  rw [shaped.commandQueue_tick]
  exact shaped i

theorem Shaped.bufferOf_tick (shaped : s.Shaped perRequestor) (index id : Nat) :
    s.tick.bufferOf index id = s.bufferOf index id := by
  unfold bufferOf
  rw [shaped.commandQueue_tick]

/-- Ticking holds nothing back. -/
theorem Shaped.isReady_tick (shaped : s.Shaped perRequestor) {c : BusPacket} {index : Nat}
    (ready : s.isReady c index = true) : s.tick.isReady c index = true := by
  unfold isReady at ready ⊢
  rw [shaped.commandQueue_tick]
  split
  · next per =>
    rw [if_pos per] at ready
    have zero := of_decide_eq_true ready
    simp [CommandScheduler.tick, zero]
  · next per =>
    rw [if_neg per] at ready
    have zero := of_decide_eq_true ready
    simp [CommandScheduler.tick, zero]

/-! ## Sending -/

theorem commandQueue_issue (s : CommandScheduler) (spec : DeviceSpec) (c : BusPacket)
    (index i : Nat) : (s.issue spec c index).commandQueue i =
      if i = index then (s.commandQueue index).taken c else s.commandQueue i := by
  unfold issue sendCommand CommandQueue.taken
  dsimp only
  split <;> rfl

theorem Shaped.issue (shaped : s.Shaped perRequestor) (spec : DeviceSpec) (e : Entry) :
    (s.issue spec e.1 e.2).Shaped perRequestor ∧
      ∀ i id, (s.issue spec e.1 e.2).bufferOf i id =
        if e.inBuffer perRequestor i id then (s.bufferOf i id).tail else s.bufferOf i id :=
  shaped.replace List.tail (commandQueue_issue s spec e.1 e.2) ((shaped e.2).taken e.1)

/-- Sending holds back what waits in the same buffer only. -/
theorem Shaped.isReady_issue (shaped : s.Shaped perRequestor) (spec : DeviceSpec) {e : Entry}
    {c : BusPacket} {index : Nat} (other : e.inBuffer perRequestor index c.requestorID = false) :
    (s.issue spec e.1 e.2).isReady c index = s.isReady c index := by
  have kind := fun i => (shaped i).kind
  have kind' := fun i => ((shaped.issue spec e).1 i).kind
  unfold isReady
  simp only [CommandQueue.isPerRequestor, kind, kind']
  rw [Entry.inBuffer_eq_false] at other
  cases perRequestor with
  | true =>
    have apart : ¬ (index = e.2 ∧ c.requestorID = e.1.requestorID) := by
      rintro ⟨rfl, same⟩
      simp [same] at other
    simp only [if_true, CommandScheduler.issue, sendCommand, CommandQueue.isPerRequestor, kind]
    rw [if_neg apart]
  | false =>
    have apart : index ≠ e.2 := by
      rintro rfl
      simp at other
    simp only [CommandScheduler.issue, sendCommand, CommandQueue.isPerRequestor, kind,
      Bool.false_eq_true, if_false]
    rw [if_neg apart]

/-! ## What the buffers hold -/

/-- Every command that waits fits its queue. -/
def Holds (fits : Nat → BusPacket → Prop) (s : CommandScheduler) : Prop :=
  ∀ i id, ∀ c ∈ s.bufferOf i id, fits i c

variable {fits : Nat → BusPacket → Prop}

theorem holds_create (fits : Nat → BusPacket → Prop) (queueCount : Nat) (perRequestor : Bool)
    (m : RefreshMachine) : (create queueCount perRequestor m).Holds fits := by
  intro i id c hc
  rw [bufferOf_create] at hc
  cases hc

theorem Holds.insertCommand (holds : s.Holds fits) (shaped : s.Shaped perRequestor) {e : Entry}
    (fit : fits e.2 e.1) {critical : Bool} (served : perRequestor = false → critical = true) :
    (s.insertCommand e.2 e.1 critical).Holds fits := by
  intro i id c hc
  rw [(shaped.insertCommand e served).2] at hc
  split at hc
  · next mine =>
    obtain ⟨rfl, _⟩ := Entry.inBuffer_eq_true.mp mine
    rcases List.mem_append.mp hc with hc | hc
    · exact holds _ id c hc
    · exact List.mem_singleton.mp hc ▸ fit
  · exact holds i id c hc

theorem Holds.refresh (holds : s.Holds fits) (spec : DeviceSpec) (check : Answers) :
    (s.refresh spec check).Holds fits := by
  intro i id c hc
  rw [bufferOf_refresh] at hc
  exact holds i id c hc

theorem Holds.tick (holds : s.Holds fits) (shaped : s.Shaped perRequestor) : s.tick.Holds fits := by
  intro i id c hc
  rw [shaped.bufferOf_tick] at hc
  exact holds i id c hc

theorem Holds.issue (holds : s.Holds fits) (shaped : s.Shaped perRequestor) (spec : DeviceSpec)
    (e : Entry) : (s.issue spec e.1 e.2).Holds fits := by
  intro i id c hc
  rw [(shaped.issue spec e).2] at hc
  split at hc
  · exact holds i id c (List.mem_of_mem_tail hc)
  · exact holds i id c hc

/-! ## What was inserted and sent -/

/-- Of each buffer, what was inserted is what was sent and what still waits, in this order. -/
def Buffered (perRequestor : Bool) (inserted issued : List Entry) (s : CommandScheduler) : Prop :=
  ∀ index id, inserted.filter (Entry.inBuffer perRequestor index id) =
    issued.filter (Entry.inBuffer perRequestor index id) ++ (s.bufferOf index id).map (·, index)

namespace Buffered

variable {inserted issued : List Entry}

theorem create (queueCount : Nat) (perRequestor : Bool) (m : RefreshMachine) :
    Buffered perRequestor [] [] (create queueCount perRequestor m) := by
  intro index id
  simp [bufferOf_create]

theorem congr {s' : CommandScheduler} (buffered : Buffered perRequestor inserted issued s)
    (same : ∀ index id, s'.bufferOf index id = s.bufferOf index id) :
    Buffered perRequestor inserted issued s' := by
  intro index id
  rw [same]
  exact buffered index id

/-- Inserting appends to one buffer. -/
theorem insertCommand (buffered : Buffered perRequestor inserted issued s)
    (shaped : s.Shaped perRequestor) (e : Entry) {critical : Bool}
    (served : perRequestor = false → critical = true) :
    Buffered perRequestor (inserted ++ [e]) issued (s.insertCommand e.2 e.1 critical) := by
  intro index id
  rw [List.filter_append, buffered index id, (shaped.insertCommand e served).2]
  cases mine : e.inBuffer perRequestor index id with
  | true =>
    obtain ⟨rfl, _⟩ := Entry.inBuffer_eq_true.mp mine
    simp [mine]
  | false => simp [mine]

/-- A head that is sent leaves its buffer, and no other. -/
theorem issue (buffered : Buffered perRequestor inserted issued s) (shaped : s.Shaped perRequestor)
    (spec : DeviceSpec) {e : Entry} (head : (s.bufferOf e.2 e.1.requestorID).head? = some e.1) :
    Buffered perRequestor inserted (issued ++ [e]) (s.issue spec e.1 e.2) := by
  intro index id
  rw [List.filter_append, buffered index id, (shaped.issue spec e).2]
  cases mine : e.inBuffer perRequestor index id with
  | false => simp [mine]
  | true =>
    obtain ⟨rfl, same⟩ := Entry.inBuffer_eq_true.mp mine
    have buffer : s.bufferOf e.2 id = s.bufferOf e.2 e.1.requestorID := by
      cases perRequestor with
      | true => rw [same rfl]
      | false => rw [shaped.bufferOf_false, shaped.bufferOf_false]
    obtain ⟨rest, cons⟩ := List.head?_eq_some_iff.mp head
    simp [buffer, cons, mine]

end Buffered

end CommandScheduler
end MCsim
