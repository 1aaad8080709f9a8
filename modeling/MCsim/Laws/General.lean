import MCsim.Schedulers.General

/-!
# What the general command schedulers do

On general queues that serve critical requestors only, `PUSH`, `FCFS` and `FRFCFS` differ in which
front they choose, and in nothing else: a call sends the front of one queue that is ready and issuable,
or it sends nothing. `CommandScheduler.Sends` says that; every law about runs of a controller rests
on it and never looks into a scheduler.
-/

namespace MCsim
namespace CommandScheduler

/-- Every queue is general, and the buffer it was last asked for is the critical one. -/
def General (s : CommandScheduler) : Prop :=
  ∀ i, (s.commandQueue i).perRequestorEnable = false ∧ (s.commandQueue i).scheduledQueue = true

/-- The critical commands waiting for a bank. -/
def waiting (s : CommandScheduler) (i : Nat) : List BusPacket := (s.commandQueue i).hrtBuffer

theorem setQueue_self (s : CommandScheduler) (i : Nat) : s.setQueue i (s.commandQueue i) = s := by
  have same : (fun j => if j = i then s.commandQueue i else s.commandQueue j) = s.commandQueue := by
    funext j
    split
    · next h => rw [h]
    · rfl
  unfold setQueue
  rw [same]

/-- Looking at a critical front changes nothing. -/
theorem look_general {s : CommandScheduler} (general : s.General) (i : Nat) :
    s.look i true = (s, (s.waiting i).head?) := by
  unfold look
  rw [CommandQueue.getCommand_true (general i).2]
  cases h : (s.commandQueue i).hrtBuffer.head? with
  | none => simp [waiting, h]
  | some c => simp [waiting, h, setQueue_self]

/-- A call of `commandSchedule`: nothing is sent, or the front of a queue that can be issued is. -/
inductive Sends (spec : DeviceSpec) (check : Answers) (s : CommandScheduler) :
    CommandScheduler → Option BusPacket → Prop
  | idle (left : Option BusPacket) : Sends spec check s { s with scheduledCommand := left } none
  | send {i : Nat} {c : BusPacket} {rest : List BusPacket} (bound : i < s.queueCount)
      (front : s.waiting i = c :: rest) (can : s.canIssue check i c = true) :
      Sends spec check s (s.issue spec c i) (some c)

variable {spec : DeviceSpec} {check : Answers}

/-- Nothing is sent and nothing was left over. -/
theorem Sends.refl {s : CommandScheduler} : Sends spec check s s none := .idle s.scheduledCommand

/-- The field `scheduledCommand` is not looked at. -/
theorem Sends.of_cleared {s s' : CommandScheduler} {out left : Option BusPacket}
    (h : Sends spec check { s with scheduledCommand := left } s' out) : Sends spec check s s' out := by
  cases h with
  | idle left => exact .idle left
  | send bound front can => exact .send (s := s) bound front can

/-- The front of a queue, where it can be issued. -/
def candidate (s : CommandScheduler) (check : Answers) (i : Nat) : Option BusPacket :=
  (s.waiting i).head?.filter (s.canIssue check i)

/-- A choice that `commandSchedule` may send. -/
def Chosen (s : CommandScheduler) (check : Answers) (best : Option (BusPacket × Nat)) : Prop :=
  ∀ c i, best = some (c, i) → i < s.queueCount ∧ s.candidate check i = some c

theorem sends_of_candidate {s : CommandScheduler} {i : Nat} {c : BusPacket}
    (bound : i < s.queueCount) (h : s.candidate check i = some c) :
    Sends spec check s (s.issue spec c i) (some c) := by
  obtain ⟨front, can⟩ := Option.filter_eq_some_iff.mp h
  obtain ⟨rest, hw⟩ := List.head?_eq_some_iff.mp front
  exact .send bound hw can

/-- The same front is a candidate exactly if it can be issued alike. -/
theorem canIssue_of_candidate {s : CommandScheduler} {check' : Answers} {i : Nat} {c : BusPacket}
    (front : (s.waiting i).head? = some c) (same : s.candidate check i = s.candidate check' i) :
    s.canIssue check i c = s.canIssue check' i c := by
  unfold candidate at same
  rw [front] at same
  cases can : s.canIssue check i c <;> cases can' : s.canIssue check' i c <;>
    simp [Option.filter, can, can'] at same <;> rfl

/-- Answers that agree on the fronts make the same candidates. -/
theorem candidate_congr {s : CommandScheduler} {check' : Answers}
    {i : Nat} (agree : ∀ c ∈ (s.waiting i).head?, check c = check' c) :
    s.candidate check i = s.candidate check' i := by
  unfold candidate
  cases front : (s.waiting i).head? with
  | none => rfl
  | some c => simp [Option.filter, canIssue, isIssuable, agree c front]

/-! ## What sending, refreshing and ticking do to the queues -/

/-- Sending the front of a general queue takes it off the queue. -/
theorem waiting_issue {s : CommandScheduler} (general : s.General) (spec : DeviceSpec)
    (c : BusPacket) (i j : Nat) :
    (s.issue spec c i).waiting j = if j = i then (s.waiting i).tail else s.waiting j := by
  have perReq := (general i).1
  have last := (general i).2
  simp only [issue, sendCommand, CommandQueue.isPerRequestor, perReq, waiting, setQueue,
    CommandQueue.removeCommand, last, if_true]
  by_cases h : j = i <;> simp [h]

theorem General.issue {s : CommandScheduler} (general : s.General) (spec : DeviceSpec)
    (c : BusPacket) (i : Nat) : (s.issue spec c i).General := by
  intro j
  have perReq := (general i).1
  have last := (general i).2
  simp only [CommandScheduler.issue, sendCommand, CommandQueue.isPerRequestor, perReq, setQueue,
    CommandQueue.removeCommand, last, if_true]
  by_cases h : j = i <;> simp [h, general j]

theorem memoryDevice_issue (s : CommandScheduler) (spec : DeviceSpec) (c : BusPacket) (i : Nat) :
    (s.issue spec c i).memoryDevice = s.memoryDevice.receiveFromBus spec c := by
  unfold issue sendCommand
  dsimp only
  split <;> rfl

theorem refreshMachine_sendCommand (s : CommandScheduler) (spec : DeviceSpec) (c : BusPacket) (i : Nat)
    (bypass : Bool) : (s.sendCommand spec c i bypass).refreshMachine = s.refreshMachine := by
  unfold sendCommand
  dsimp only
  split <;> rfl

theorem refreshMachine_issue (s : CommandScheduler) (spec : DeviceSpec) (c : BusPacket) (i : Nat) :
    (s.issue spec c i).refreshMachine = s.refreshMachine :=
  refreshMachine_sendCommand { s with scheduledCommand := some c } spec c i false

theorem queueCount_issue (s : CommandScheduler) (spec : DeviceSpec) (c : BusPacket) (i : Nat) :
    (s.issue spec c i).queueCount = s.queueCount := by
  unfold issue sendCommand
  dsimp only
  split <;> rfl

/-- The refresh machine's command bypasses the queues. -/
theorem commandQueue_refresh (s : CommandScheduler) (spec : DeviceSpec) (check : Answers) :
    (s.refresh spec check).commandQueue = s.commandQueue ∧
      (s.refresh spec check).queueCount = s.queueCount := by
  unfold refresh
  split
  · dsimp only
    split
    · exact ⟨rfl, rfl⟩
    · split <;> exact ⟨rfl, rfl⟩
  · exact ⟨rfl, rfl⟩

theorem General.refresh {s : CommandScheduler} (general : s.General) (spec : DeviceSpec)
    (check : Answers) : (s.refresh spec check).General := by
  intro i
  rw [(commandQueue_refresh s spec check).1]
  exact general i

theorem waiting_refresh (s : CommandScheduler) (spec : DeviceSpec) (check : Answers) (i : Nat) :
    (s.refresh spec check).waiting i = s.waiting i := by
  unfold waiting
  rw [(commandQueue_refresh s spec check).1]

/-- Looking at the critical front changes no buffer. -/
theorem touch_general {q : CommandQueue} (last : q.scheduledQueue = true) :
    RefreshMachine.touch q = q := by
  unfold RefreshMachine.touch
  rw [CommandQueue.getCommand_true last]
  cases q.hrtBuffer.head? <;> rfl

theorem commandQueue_tick {s : CommandScheduler} (general : s.General) :
    s.tick.commandQueue = s.commandQueue := by
  funext i
  simp only [tick, RefreshMachine.stepQueue, touch_general (general i).2]
  split <;> [split <;> rfl; rfl]

theorem General.tick {s : CommandScheduler} (general : s.General) : s.tick.General := by
  intro i
  rw [commandQueue_tick general]
  exact general i

theorem waiting_tick {s : CommandScheduler} (general : s.General) (i : Nat) :
    s.tick.waiting i = s.waiting i := by
  unfold waiting
  rw [commandQueue_tick general]

end CommandScheduler

open CommandScheduler

/-! ## PUSH -/

namespace Push

variable {spec : DeviceSpec} {check : Answers} {s : CommandScheduler}

theorem firstScan_general (general : s.General) (best : Option (BusPacket × Nat)) (i : Nat) :
    firstScan check (s, best) i = (s, ((s.candidate check i).map (·, i)).or best) := by
  unfold firstScan candidate
  rw [look_general general]
  cases h : (s.waiting i).head? with
  | none => rfl
  | some c => cases hc : s.canIssue check i c <;> simp [Option.filter, hc]

theorem secondScan_general (general : s.General) (best : Option (BusPacket × Nat)) (i : Nat) :
    secondScan check (s, best) i =
      match s.candidate check i with
      | none => some (s, best)
      | some c => best.map fun b =>
          (s, if c.arriveTime ≤ b.1.arriveTime then some (c, i) else some b) := by
  unfold secondScan candidate
  rw [look_general general]
  cases h : (s.waiting i).head? with
  | none => rfl
  | some c => cases hc : s.canIssue check i c <;> simp [Option.filter, hc]

/-- The first scan keeps a front that can be issued, and none only where there is none. -/
theorem foldl_firstScan (general : s.General) (l : List Nat) (bound : ∀ i ∈ l, i < s.queueCount)
    (best : Option (BusPacket × Nat)) (chosen : s.Chosen check best) :
    ∃ b, l.foldl (firstScan check) (s, best) = (s, b) ∧ s.Chosen check b ∧
      (b = none → best = none ∧ ∀ i ∈ l, s.candidate check i = none) := by
  induction l generalizing best with
  | nil => exact ⟨best, rfl, chosen, fun h => ⟨h, fun _ h => absurd h List.not_mem_nil⟩⟩
  | cons i l ih =>
    rw [List.foldl_cons, firstScan_general general]
    have hi := bound i List.mem_cons_self
    have hl := fun j hj => bound j (List.mem_cons_of_mem i hj)
    cases hc : s.candidate check i with
    | none =>
      obtain ⟨b, hb, kept, noneFound⟩ := ih hl best chosen
      refine ⟨b, hb, kept, fun h => ⟨(noneFound h).1, fun j hj => ?_⟩⟩
      rcases List.mem_cons.mp hj with rfl | hj
      · exact hc
      · exact (noneFound h).2 j hj
    | some c =>
      have here : s.Chosen check (some (c, i)) := by
        intro c' i' e
        cases e
        exact ⟨hi, hc⟩
      obtain ⟨b, hb, kept, noneFound⟩ := ih hl (some (c, i)) here
      exact ⟨b, hb, kept, fun h => absurd (noneFound h).1 (by simp)⟩

/-- The second scan never reads a candidate that is not there: what the first scan found is one
whenever a front can be issued. -/
theorem foldlM_secondScan (general : s.General) (l : List Nat) (bound : ∀ i ∈ l, i < s.queueCount)
    (best : Option (BusPacket × Nat)) (chosen : s.Chosen check best)
    (found : best = none → ∀ i ∈ l, s.candidate check i = none) :
    ∃ b, l.foldlM (secondScan check) (s, best) = some (s, b) ∧ s.Chosen check b := by
  induction l generalizing best with
  | nil => exact ⟨best, rfl, chosen⟩
  | cons i l ih =>
    rw [List.foldlM_cons, secondScan_general general]
    have hi := bound i List.mem_cons_self
    have hl := fun j hj => bound j (List.mem_cons_of_mem i hj)
    cases hc : s.candidate check i with
    | none => exact ih hl best chosen fun h j hj => found h j (List.mem_cons_of_mem i hj)
    | some c =>
      cases best with
      | none =>
        have none_ := found rfl i List.mem_cons_self
        rw [hc] at none_
        cases none_
      | some b =>
        have here : s.Chosen check (if c.arriveTime ≤ b.1.arriveTime then some (c, i) else some b) := by
          split
          · intro c' i' e
            cases e
            exact ⟨hi, hc⟩
          · exact chosen
        exact ih hl _ here (fun h => by split at h <;> cases h)

/-- **`PUSH` sends a front that can be issued or nothing**, and it always returns. -/
theorem commandSchedule_sends (general : s.General) (some_queue : 0 < s.queueCount) :
    ∃ s' out, commandSchedule spec check s = some (s', out) ∧ Sends spec check s s' out := by
  have bound : ∀ i ∈ List.range s.queueCount, i < s.queueCount := fun i h => List.mem_range.mp h
  have nothing : s.Chosen check none := fun _ _ h => nomatch h
  obtain ⟨b, hb, chosen, found⟩ :=
    foldl_firstScan general (List.range s.queueCount) bound none nothing
  obtain ⟨b', hb', chosen'⟩ := foldlM_secondScan general (List.range s.queueCount) bound b chosen
    (fun h => (found h).2)
  unfold commandSchedule
  simp only [hb, hb', Option.map_some, Option.some.injEq]
  cases b' with
  | none => exact ⟨_, _, rfl, by simpa [Nat.pos_iff_ne_zero.mp some_queue] using Sends.idle none⟩
  | some best =>
    obtain ⟨hi, hc⟩ := chosen' best.1 best.2 rfl
    exact ⟨_, _, rfl, sends_of_candidate hi hc⟩

/-- `PUSH` asks about fronts only. -/
theorem commandSchedule_asks {check' : Answers} (general : s.General)
    (same : ∀ i < s.queueCount, s.candidate check i = s.candidate check' i) :
    commandSchedule spec check s = commandSchedule spec check' s := by
  have first : ∀ (l : List Nat) (best : Option (BusPacket × Nat)),
      (∀ i ∈ l, s.candidate check i = s.candidate check' i) →
        l.foldl (firstScan check) (s, best) = l.foldl (firstScan check') (s, best) := by
    intro l
    induction l with
    | nil => exact fun _ _ => rfl
    | cons i l ih =>
      intro best same
      obtain ⟨here, later⟩ := List.forall_mem_cons.mp same
      rw [List.foldl_cons, List.foldl_cons, firstScan_general general, firstScan_general general, here]
      exact ih _ later
  have second : ∀ (l : List Nat) (best : Option (BusPacket × Nat)),
      (∀ i ∈ l, s.candidate check i = s.candidate check' i) →
        l.foldlM (secondScan check) (s, best) = l.foldlM (secondScan check') (s, best) := by
    intro l
    induction l with
    | nil => exact fun _ _ => rfl
    | cons i l ih =>
      intro best same
      obtain ⟨here, later⟩ := List.forall_mem_cons.mp same
      rw [List.foldlM_cons, List.foldlM_cons, secondScan_general general, secondScan_general general,
        here]
      cases s.candidate check' i with
      | none => exact ih best later
      | some c =>
        cases best with
        | none => rfl
        | some b => exact ih _ later
  have all : ∀ i ∈ List.range s.queueCount, s.candidate check i = s.candidate check' i :=
    fun i hi => same i (List.mem_range.mp hi)
  obtain ⟨b, scanned, _⟩ := @foldl_firstScan check s general (List.range s.queueCount)
    (fun i h => List.mem_range.mp h) none fun _ _ h => by cases h
  unfold commandSchedule
  dsimp only
  rw [← first _ _ all, scanned, second _ _ all]

end Push

/-! ## FCFS -/

namespace Fcfs

variable {spec : DeviceSpec} {check : Answers}

theorem scheduleFrom_sends {s : CommandScheduler} (general : s.General) (l : List Nat)
    (bound : ∀ i ∈ l, i < s.queueCount) (cleared : s.scheduledCommand = none ∨ l ≠ []) :
    Sends spec check s (scheduleFrom spec check l s).1 (scheduleFrom spec check l s).2 := by
  induction l generalizing s with
  | nil =>
    have clear : s.scheduledCommand = none := cleared.resolve_right (fun h => h rfl)
    simpa only [scheduleFrom, clear] using Sends.refl
  | cons i l ih =>
    have hi := bound i List.mem_cons_self
    have hl := fun j hj => bound j (List.mem_cons_of_mem i hj)
    have look : { s with scheduledCommand := none }.look i true =
        ({ s with scheduledCommand := none }, (s.waiting i).head?) :=
      look_general (s := { s with scheduledCommand := none }) general i
    have later := (ih (s := { s with scheduledCommand := none }) general hl (.inl rfl)).of_cleared
    unfold scheduleFrom
    rw [if_neg (by simp [CommandQueue.isPerRequestor, (general i).1]), look]
    cases h : (s.waiting i).head? with
    | none => exact later
    | some c =>
      dsimp only
      split
      · next can =>
        obtain ⟨rest, hw⟩ := List.head?_eq_some_iff.mp h
        exact (Sends.send (s := { s with scheduledCommand := none }) hi hw can).of_cleared
      · exact later

/-- **`FCFS` sends a front that can be issued or nothing.** -/
theorem commandSchedule_sends {s : CommandScheduler} (general : s.General)
    (some_queue : 0 < s.queueCount) :
    Sends spec check s (commandSchedule spec check s).1 (commandSchedule spec check s).2 :=
  scheduleFrom_sends general _ (fun _ h => List.mem_range.mp h)
    (.inr (by simp [Nat.pos_iff_ne_zero.mp some_queue]))

/-- `FCFS` asks about fronts only. -/
theorem scheduleFrom_asks {check' : Answers} {s : CommandScheduler} (general : s.General) {l : List Nat}
    (same : ∀ i ∈ l, s.candidate check i = s.candidate check' i) :
    scheduleFrom spec check l s = scheduleFrom spec check' l s := by
  induction l generalizing s with
  | nil => rfl
  | cons i l ih =>
    obtain ⟨here, rest⟩ := List.forall_mem_cons.mp same
    have look : { s with scheduledCommand := none }.look i true =
        ({ s with scheduledCommand := none }, (s.waiting i).head?) :=
      look_general (s := { s with scheduledCommand := none }) general i
    have later := ih (s := { s with scheduledCommand := none }) general rest
    unfold scheduleFrom
    rw [if_neg (by simp [CommandQueue.isPerRequestor, (general i).1]),
      if_neg (by simp [CommandQueue.isPerRequestor, (general i).1]), look]
    cases front : (s.waiting i).head? with
    | none => exact later
    | some c =>
      have can : s.canIssue check i c = s.canIssue check' i c := canIssue_of_candidate front here
      show (if s.canIssue check i c = true then _ else _) = if s.canIssue check' i c = true then _ else _
      rw [can, later]

end Fcfs

/-! ## FRFCFS -/

namespace Frfcfs

variable {spec : DeviceSpec} {check : Answers}

/-- The candidate kept is the old one or the new one. -/
theorem better_eq (best : Option (BusPacket × Nat)) (c : BusPacket) (i : Nat) :
    better best c i = some (c, i) ∨ better best c i = best := by
  unfold better
  split
  · exact .inl rfl
  · split <;> (repeat' split) <;> simp

/-- What is kept after a queue is a front that can be issued. -/
theorem chosen_keep {s : CommandScheduler} {i : Nat} (bound : i < s.queueCount)
    (best : Option (BusPacket × Nat)) (chosen : s.Chosen check best) :
    s.Chosen check (keep check s i best (s.waiting i).head?) := by
  unfold keep
  cases h : (s.waiting i).head? with
  | none => exact chosen
  | some c =>
    dsimp only
    split
    · next can =>
      have hc : s.candidate check i = some c := by simp [candidate, h, Option.filter, can]
      rcases better_eq best c i with e | e <;> rw [e]
      · intro c' i' e'
        cases e'
        exact ⟨bound, hc⟩
      · exact chosen
    · exact chosen

theorem scheduleFrom_sends {s : CommandScheduler} (general : s.General)
    (cleared : s.scheduledCommand = none) (l : List Nat) (bound : ∀ i ∈ l, i < s.queueCount)
    (best : Option (BusPacket × Nat)) (chosen : s.Chosen check best) :
    Sends spec check s (scheduleFrom spec check l s best).1
      (scheduleFrom spec check l s best).2 := by
  induction l generalizing best with
  | nil => simpa only [scheduleFrom, cleared] using Sends.refl
  | cons i l ih =>
    have hi := bound i List.mem_cons_self
    have hl := fun j hj => bound j (List.mem_cons_of_mem i hj)
    unfold scheduleFrom
    rw [if_neg (by simp [CommandQueue.isPerRequestor, (general i).1]), look_general general]
    dsimp only
    have chosen' := chosen_keep hi best chosen
    generalize keep check s i best (s.waiting i).head? = best' at chosen' ⊢
    split
    · cases best' with
      | none => exact ih hl none chosen'
      | some b =>
        obtain ⟨hj, hc⟩ := chosen' b.1 b.2 rfl
        exact sends_of_candidate hj hc
    · exact ih hl best' chosen'

/-- **`FRFCFS` sends a front that can be issued or nothing.** -/
theorem commandSchedule_sends {s : CommandScheduler} (general : s.General) :
    Sends spec check s (commandSchedule spec check s).1 (commandSchedule spec check s).2 :=
  (scheduleFrom_sends (s := { s with scheduledCommand := none }) general rfl _
    (fun _ h => List.mem_range.mp h) none (fun _ _ h => by cases h)).of_cleared

/-- `FRFCFS` asks about fronts only. -/
theorem scheduleFrom_asks {check' : Answers} {s : CommandScheduler} (general : s.General) {l : List Nat}
    (same : ∀ i ∈ l, s.candidate check i = s.candidate check' i) (best : Option (BusPacket × Nat)) :
    scheduleFrom spec check l s best = scheduleFrom spec check' l s best := by
  induction l generalizing best with
  | nil => rfl
  | cons i l ih =>
    obtain ⟨here, rest⟩ := List.forall_mem_cons.mp same
    have kept : keep check s i best (s.waiting i).head? = keep check' s i best (s.waiting i).head? := by
      unfold keep
      cases front : (s.waiting i).head? with
      | none => rfl
      | some c =>
        dsimp only
        rw [canIssue_of_candidate front here]
    unfold scheduleFrom
    rw [if_neg (by simp [CommandQueue.isPerRequestor, (general i).1]),
      if_neg (by simp [CommandQueue.isPerRequestor, (general i).1]), look_general general]
    dsimp only
    rw [kept, ih rest]

end Frfcfs

/-! ## As policies -/

/-- A command scheduler that sends the front of a queue that can be issued, or nothing. -/
def CommandPolicy.SendsFronts {κ : Type} (policy : CommandPolicy κ) : Prop :=
  ∀ (spec : DeviceSpec) (check : Answers) (s : CommandScheduler) (priv : κ), s.General →
    0 < s.queueCount → ∃ s' priv' out,
      policy.commandSchedule spec check s priv = some (s', priv', out) ∧ Sends spec check s s' out

theorem Push.policy_sendsFronts : Push.policy.SendsFronts := by
  intro spec check s _ general some_queue
  obtain ⟨s', out, h, sends⟩ := @Push.commandSchedule_sends spec check s general some_queue
  exact ⟨s', (), out, by simp [Push.policy, h], sends⟩

theorem Fcfs.policy_sendsFronts : Fcfs.policy.SendsFronts := fun _ _ _ _ general some_queue =>
  ⟨_, (), _, rfl, Fcfs.commandSchedule_sends general some_queue⟩

theorem Frfcfs.policy_sendsFronts : Frfcfs.policy.SendsFronts := fun _ _ _ _ general _ =>
  ⟨_, (), _, rfl, Frfcfs.commandSchedule_sends general⟩

/-- A command scheduler that asks the device about the fronts of its queues only. -/
def CommandPolicy.AsksFronts {κ : Type} (policy : CommandPolicy κ) : Prop :=
  ∀ (spec : DeviceSpec) (check check' : Answers) (s : CommandScheduler) (priv : κ), s.General →
    (∀ i < s.queueCount, ∀ c ∈ (s.waiting i).head?, check c = check' c) →
      policy.commandSchedule spec check s priv = policy.commandSchedule spec check' s priv

theorem Push.policy_asksFronts : Push.policy.AsksFronts := by
  intro spec check check' s _ general agree
  show (Push.commandSchedule spec check s).map _ = (Push.commandSchedule spec check' s).map _
  rw [Push.commandSchedule_asks general fun i hi => candidate_congr (agree i hi)]

theorem Fcfs.policy_asksFronts : Fcfs.policy.AsksFronts := by
  intro spec check check' s _ general agree
  have same : Fcfs.commandSchedule spec check s = Fcfs.commandSchedule spec check' s :=
    Fcfs.scheduleFrom_asks general fun i hi => candidate_congr (agree i (List.mem_range.mp hi))
  simp only [Fcfs.policy, same]

theorem Frfcfs.policy_asksFronts : Frfcfs.policy.AsksFronts := by
  intro spec check check' s _ general agree
  have same : Frfcfs.commandSchedule spec check s = Frfcfs.commandSchedule spec check' s :=
    Frfcfs.scheduleFrom_asks (s := { s with scheduledCommand := none }) general
      (fun i hi => candidate_congr (agree i (List.mem_range.mp hi))) none
  simp only [Frfcfs.policy, same]

end MCsim
