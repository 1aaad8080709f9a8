import MCsim.Laws.Buffers

/-!
# Queues with two sides

A command queue that is not per requestor has a critical buffer and another one: its two sides. What a
call does to the sides, and to the note of the side looked at last, is said here once for each
operation. `removeCommand` removes from the side noted, so these facts decide what leaves a queue.
-/

namespace MCsim

namespace CommandScheduler

/-- A side of a queue. -/
def side (s : CommandScheduler) (index : Nat) (critical : Bool) : List BusPacket :=
  (s.commandQueue index).general critical

/-- The side of a queue that was looked at last. -/
def last (s : CommandScheduler) (index : Nat) : Bool := (s.commandQueue index).scheduledQueue

/-- Every queue has two sides. -/
def Sided (s : CommandScheduler) : Prop := ∀ i, (s.commandQueue i).perRequestorEnable = false

variable {s s' : CommandScheduler}

theorem sided_create (queueCount : Nat) (m : RefreshMachine) : (create queueCount false m).Sided :=
  fun _ => rfl

theorem side_create (queueCount : Nat) (m : RefreshMachine) (index : Nat) (critical : Bool) :
    (create queueCount false m).side index critical = [] := by
  cases critical <;> rfl

/-! ## Looking -/

/-- At most the note of one queue has changed. -/
structure Looked (s s' : CommandScheduler) (index : Nat) : Prop where
  same : s' = { s with commandQueue := s'.commandQueue }
  others : ∀ i, i ≠ index → s'.commandQueue i = s.commandQueue i
  noted : ∃ critical, s'.commandQueue index =
    { s.commandQueue index with scheduledQueue := critical }

theorem Looked.refl (s : CommandScheduler) (index : Nat) : Looked s s index :=
  ⟨rfl, fun _ _ => rfl, (s.commandQueue index).scheduledQueue, rfl⟩

theorem Looked.side (looked : Looked s s' index) (i : Nat) (critical : Bool) :
    s'.side i critical = s.side i critical := by
  unfold CommandScheduler.side
  by_cases here : i = index
  · obtain ⟨last, noted⟩ := looked.noted
    rw [here, noted]
    rfl
  · rw [looked.others i here]

theorem Looked.sided {index : Nat} (looked : Looked s s' index) (sided : s.Sided) : s'.Sided := by
  intro i
  by_cases here : i = index
  · obtain ⟨last, noted⟩ := looked.noted
    rw [here, noted]
    exact sided index
  · rw [looked.others i here]
    exact sided i

theorem Looked.last {index i : Nat} (looked : Looked s s' index) (apart : i ≠ index) :
    s'.last i = s.last i := by
  unfold CommandScheduler.last
  rw [looked.others i apart]

/-- Looking at a side answers its front, and notes the side where there is one. -/
theorem look_cases {index : Nat} {critical : Bool} {found : Option BusPacket}
    (h : s.look index critical = (s', found)) :
    Looked s s' index ∧ found = (s.side index critical).head? ∧
      (found = none → s' = s) ∧ (found.isSome = true → s'.last index = critical) := by
  unfold look CommandQueue.getCommand at h
  cases front : ((s.commandQueue index).general critical).head? with
  | none =>
    rw [front] at h
    obtain ⟨rfl, rfl⟩ := Prod.mk.inj h
    exact ⟨.refl s index, front.symm, fun _ => rfl, fun impossible => (nomatch impossible)⟩
  | some c =>
    rw [front] at h
    obtain ⟨rfl, rfl⟩ := Prod.mk.inj h
    refine ⟨⟨rfl, fun i apart => ?_, critical, ?_⟩, front.symm, fun impossible => (nomatch impossible),
      fun _ => ?_⟩
    · simp [setQueue, apart]
    · simp [setQueue]
    · simp [setQueue, CommandScheduler.last]

/-- The front of a queue that has nothing pending is the front of the side then noted. -/
theorem freeFront_cases {pending : Bool} {index : Nat} {found : Option BusPacket}
    (h : s.freeFront pending index = (s', found)) :
    Looked s s' index ∧ (pending = true → s' = s) ∧
      ∀ c, found = some c → pending = false ∧ (s.side index (s'.last index)).head? = some c := by
  unfold freeFront at h
  cases pending with
  | true =>
    obtain ⟨rfl, rfl⟩ := Prod.mk.inj h
    exact ⟨.refl s index, fun _ => rfl, fun _ impossible => (nomatch impossible)⟩
  | false =>
    rw [if_neg Bool.false_ne_true] at h
    cases first : s.look index true with
    | mk s₁ front =>
      rw [first] at h
      obtain ⟨looked, head, unchanged, noted⟩ := look_cases first
      cases front with
      | some c =>
        obtain ⟨rfl, rfl⟩ := Prod.mk.inj h
        refine ⟨looked, fun impossible => (nomatch impossible), fun d hd => ⟨rfl, ?_⟩⟩
        rw [noted rfl, ← head]
        exact hd
      | none =>
        obtain rfl := unchanged rfl
        obtain ⟨looked, head, _, noted⟩ := look_cases h
        refine ⟨looked, fun impossible => (nomatch impossible), fun d hd => ⟨rfl, ?_⟩⟩
        rw [noted (by rw [hd]; rfl), ← head]
        exact hd

/-- At most the notes and the record of the command sent have changed: what a call may have done
before it sends. -/
structure Alike (s s' : CommandScheduler) : Prop where
  same : s' = { s with commandQueue := s'.commandQueue, scheduledCommand := s'.scheduledCommand }
  noted : ∀ i, ∃ critical, s'.commandQueue i = { s.commandQueue i with scheduledQueue := critical }

theorem Alike.refl (s : CommandScheduler) (sent : Option BusPacket) :
    Alike s { s with scheduledCommand := sent } :=
  ⟨rfl, fun i => ⟨(s.commandQueue i).scheduledQueue, rfl⟩⟩

theorem Alike.trans {t : CommandScheduler} (first : Alike s s') (second : Alike s' t) : Alike s t := by
  refine ⟨?_, fun i => ?_⟩
  · rw [second.same, first.same]
  · obtain ⟨note, here⟩ := first.noted i
    obtain ⟨note', there⟩ := second.noted i
    exact ⟨note', by rw [there, here]⟩

theorem Looked.alike {index : Nat} (looked : Looked s s' index) : Alike s s' := by
  refine ⟨?_, fun i => ?_⟩
  · rw [looked.same]
  · by_cases here : i = index
    · rw [here]
      exact looked.noted
    · exact ⟨(s.commandQueue i).scheduledQueue, looked.others i here⟩

theorem Alike.side (alike : Alike s s') (i : Nat) (critical : Bool) :
    s'.side i critical = s.side i critical := by
  obtain ⟨note, queue⟩ := alike.noted i
  unfold CommandScheduler.side
  rw [queue]
  rfl

theorem Alike.sided (alike : Alike s s') (sided : s.Sided) : s'.Sided := by
  intro i
  obtain ⟨note, queue⟩ := alike.noted i
  rw [queue]
  exact sided i

theorem Alike.queueCount (alike : Alike s s') : s'.queueCount = s.queueCount := by
  rw [alike.same]

theorem Alike.isReady (alike : Alike s s') (c : BusPacket) (index : Nat) :
    s'.isReady c index = s.isReady c index := by
  obtain ⟨note, queue⟩ := alike.noted index
  unfold CommandScheduler.isReady
  rw [queue, alike.same]
  rfl

theorem Alike.isIssuable (alike : Alike s s') (check : Answers) (c : BusPacket) :
    s'.isIssuable check c = s.isIssuable check c := by
  unfold CommandScheduler.isIssuable
  rw [alike.same]

/-! ## The other operations -/

theorem Sided.insertCommand (sided : s.Sided) (index : Nat) (c : BusPacket) (critical : Bool) :
    (s.insertCommand index c critical).Sided := by
  intro i
  unfold CommandScheduler.insertCommand setQueue
  dsimp only
  split
  · simpa using sided index
  · exact sided i

/-- Inserting appends to one side of one queue. -/
theorem Sided.side_insertCommand (sided : s.Sided) (index : Nat) (c : BusPacket) (critical : Bool)
    (i : Nat) (k : Bool) : (s.insertCommand index c critical).side i k =
      s.side i k ++ if i = index ∧ k = critical then [c] else [] := by
  unfold side CommandScheduler.insertCommand setQueue
  dsimp only
  by_cases here : i = index
  · subst here
    have kind := sided i
    cases k <;> cases critical <;>
      simp [CommandQueue.insertCommand, CommandQueue.general, kind]
  · simp [here]

theorem last_insertCommand (s : CommandScheduler) (index : Nat) (c : BusPacket) (critical : Bool)
    (i : Nat) : (s.insertCommand index c critical).last i = s.last i := by
  unfold last CommandScheduler.insertCommand setQueue
  dsimp only
  split
  · next here => rw [here, CommandQueue.insertCommand_scheduledQueue]
  · rfl

/-- The refresh machine's look at a queue notes the critical side where it has a front. -/
theorem touch_eq (q : CommandQueue) :
    RefreshMachine.touch q = { q with scheduledQueue := !q.hrtBuffer.isEmpty || q.scheduledQueue } := by
  unfold RefreshMachine.touch CommandQueue.getCommand CommandQueue.general
  cases q with
  | mk per last order buffer hrt srt => cases hrt <;> rfl

/-- A tick changes no side, and notes the critical one of each queue where a group is generated. -/
theorem queue_tick (s : CommandScheduler) (i : Nat) : ∃ last,
    s.tick.commandQueue i = { s.commandQueue i with scheduledQueue := last } ∧
    (last = s.last i ∨ s.refreshMachine.countdown = 0 ∧ s.side i true ≠ [] ∧ last = true) := by
  unfold tick RefreshMachine.stepQueue
  dsimp only
  split
  · split
    · next ends =>
      refine ⟨_, touch_eq _, ?_⟩
      cases h : (s.commandQueue i).hrtBuffer with
      | nil => exact .inl rfl
      | cons c l => exact .inr ⟨ends, by simp [side, CommandQueue.general, h], rfl⟩
    · exact ⟨s.last i, rfl, .inl rfl⟩
  · exact ⟨s.last i, rfl, .inl rfl⟩

theorem Sided.tick (sided : s.Sided) : s.tick.Sided := by
  intro i
  obtain ⟨last, queue, _⟩ := s.queue_tick i
  rw [queue]
  exact sided i

theorem side_tick (s : CommandScheduler) (i : Nat) (critical : Bool) :
    s.tick.side i critical = s.side i critical := by
  obtain ⟨last, queue, _⟩ := s.queue_tick i
  unfold side
  rw [queue]
  rfl

/-- Sending removes the front of the side noted, unless the command bypasses the queue. -/
theorem Sided.commandQueue_send (sided : s.Sided) (spec : DeviceSpec) (c : BusPacket) (index : Nat)
    (bypass : Bool) (i : Nat) : (s.sendCommand spec c index bypass).commandQueue i =
      if i = index ∧ bypass = false then (s.commandQueue i).removeCommand else s.commandQueue i := by
  unfold sendCommand CommandQueue.isPerRequestor setQueue
  simp only [sided index, Bool.false_eq_true, if_false]
  by_cases here : i = index
  · subst here
    cases bypass <;> simp
  · simp [here]

theorem Sided.send (sided : s.Sided) (spec : DeviceSpec) (c : BusPacket) (index : Nat) (bypass : Bool) :
    (s.sendCommand spec c index bypass).Sided := by
  intro i
  rw [sided.commandQueue_send]
  split
  · unfold CommandQueue.removeCommand
    split <;> exact sided i
  · exact sided i

theorem Sided.side_send (sided : s.Sided) (spec : DeviceSpec) (c : BusPacket) (index : Nat)
    (bypass : Bool) (i : Nat) (k : Bool) : (s.sendCommand spec c index bypass).side i k =
      if (i = index ∧ bypass = false) ∧ k = s.last index then (s.side i k).tail else s.side i k := by
  unfold side
  rw [sided.commandQueue_send]
  by_cases here : i = index ∧ bypass = false
  · obtain ⟨rfl, rfl⟩ := here
    unfold last
    cases k <;> cases flag : (s.commandQueue i).scheduledQueue <;>
      simp [CommandQueue.removeCommand, CommandQueue.general, flag]
  · rw [if_neg here, if_neg fun both => here both.1]

theorem Sided.issue (sided : s.Sided) (spec : DeviceSpec) (c : BusPacket) (index : Nat) :
    (s.issue spec c index).Sided :=
  Sided.send (s := { s with scheduledCommand := some c }) sided spec c index false

theorem Sided.last_issue (sided : s.Sided) (spec : DeviceSpec) (c : BusPacket) (index i : Nat) :
    (s.issue spec c index).last i = s.last i := by
  unfold last CommandScheduler.issue
  rw [Sided.commandQueue_send (s := { s with scheduledCommand := some c }) sided]
  split
  · unfold CommandQueue.removeCommand
    split <;> rfl
  · rfl

theorem Sided.side_issue (sided : s.Sided) (spec : DeviceSpec) (c : BusPacket) (index i : Nat)
    (k : Bool) : (s.issue spec c index).side i k =
      if i = index ∧ k = s.last index then (s.side i k).tail else s.side i k := by
  have sent := Sided.side_send (s := { s with scheduledCommand := some c }) sided spec c index false i k
  simp only [and_true] at sent
  exact sent

/-- Sending adds nothing to a side. -/
theorem Sided.mem_send (sided : s.Sided) {spec : DeviceSpec} {c d : BusPacket} {index i : Nat}
    {bypass k : Bool} (h : d ∈ (s.sendCommand spec c index bypass).side i k) : d ∈ s.side i k := by
  rw [sided.side_send] at h
  split at h
  · exact List.mem_of_mem_tail h
  · exact h

/-- Ticking holds nothing back. -/
theorem Sided.isReady_tick (sided : s.Sided) {c : BusPacket} {index : Nat}
    (ready : s.isReady c index = true) : s.tick.isReady c index = true := by
  unfold isReady CommandQueue.isPerRequestor at ready ⊢
  rw [sided index] at ready
  rw [sided.tick index]
  have zero := of_decide_eq_true ready
  simp [CommandScheduler.tick, zero]

end CommandScheduler
end MCsim
