import MCsim.Laws.Admitting

/-!
# A channel of the simulator is a memory system

What reaches a channel in a run of the simulator is a run of the memory system alone: the updates with the
answers of the channel's device, and in between the requests of the requestors that use the channel. Each of
these requestors asks for what its trace says, in that order, so that what it asked the channel for and what
it has not yet asked for are together its trace.
-/

namespace MCsim

open Lib.Machine

/-! ## What a requestor asks for -/

namespace Requestor

/-- The address, whether it is a read, and the size. -/
def asking (r : Request) : Nat × Bool × Nat :=
  (r.address, r.requestType == .DATA_READ, r.requestSize)

def askingOf (size : Nat) (line : TraceLine) : Nat × Bool × Nat :=
  (line.addr, line.requestType == .DATA_READ, size)

/-- What a requestor has not asked for yet: the request it holds and the lines it has not read. -/
def unasked (q : Requestor) : List (Nat × Bool × Nat) :=
  q.pendingRequest.toList.map asking ++ (q.transFile.filterMap id).map (askingOf q.RequestSize)

variable {q q' : Requestor}

/-- Reading a line does not change what is still to be asked for. -/
theorem unasked_read (q : Requestor) : q.read.unasked = q.unasked ∧ q.read.RequestSize = q.RequestSize := by
  unfold read readingTraceFile
  dsimp only
  split
  · exact ⟨rfl, rfl⟩
  · split
    · next idle =>
      have idle : q.pendingRequest = none := Option.isNone_iff_eq_none.mp idle
      split
      · next file => simp [unasked, file]
      · next rest file => simp [unasked, file, idle]
      · next line rest file =>
        have size := (arrival_kept { q with latency := q.latency + 1 } line).1
        generalize ({ q with latency := q.latency + 1 } : Requestor).arrival line = arrived at size
        dsimp only at size
        refine ⟨?_, size⟩
        simp [unasked, file, idle, asking, askingOf, size]
    · exact ⟨rfl, rfl⟩

/-- What is sent comes first. -/
theorem unasked_sent {writeMode : Bool} {generalBufferSize : Nat} {r : Request}
    (sends : q.read.sends writeMode generalBufferSize = some r) :
    q.unasked = asking r :: (q.read.sent r).endUpdate.unasked := by
  rw [← q.unasked_read.1, unasked, sends_held sends]
  rfl

theorem Returned.unasked (returned : Returned q q') : q'.unasked = q.unasked := by
  rw [Requestor.unasked, Requestor.unasked, returned.pending, returned.file, returned.size]

end Requestor

/-! ## What a channel sees -/

/-- What a requestor asks a channel for in a list of events. -/
def askedBy (r : Nat) : List Event → List (Nat × Bool × Nat) :=
  List.filterMap fun
    | .addRequest requestorID address R_W size => if requestorID = r then some (address, R_W, size) else none
    | .update _ _ => none

/-- The answers of the device in the updates of a channel. -/
def answersIn : List Event → List (Answers × Answers) :=
  List.filterMap fun
    | .addRequest .. => none
    | .update refreshCheck check => some (refreshCheck, check)

/-- The answers of a channel's device in the updates of the memory. -/
def answersFor (i : Nat) : List SimulatorEvent → List (Answers × Answers) :=
  List.filterMap fun
    | .requestor _ => none
    | .memory refreshCheck check => some (refreshCheck i, check i)

theorem askedBy_append (r : Nat) (l l' : List Event) : askedBy r (l ++ l') = askedBy r l ++ askedBy r l' :=
  List.filterMap_append

theorem answersIn_append (l l' : List Event) : answersIn (l ++ l') = answersIn l ++ answersIn l' :=
  List.filterMap_append

theorem answersFor_append (i : Nat) (l l' : List SimulatorEvent) :
    answersFor i (l ++ l') = answersFor i l ++ answersFor i l' := List.filterMap_append

/-- A request is its requestor's. -/
theorem askedBy_addRequest (r id address size : Nat) (R_W : Bool) :
    askedBy r [.addRequest id address R_W size] = if id = r then [(address, R_W, size)] else [] := by
  by_cases own : id = r <;> simp [askedBy, own]

namespace Simulator

variable {ρ κ : Type} {setup : Setup} {parts : Components ρ κ} {m m' : Simulator ρ κ}
  {traces : Nat → List (Option TraceLine)}

/-- The requestor exists and uses the channel. -/
def Uses (m : Simulator ρ κ) (r i : Nat) : Prop :=
  r < m.numberRequestors ∧ findChannelNumber m.numberChannels r = i

/-- The events of a channel in a run of the simulator. -/
structure Fed (traces : Nat → List (Option TraceLine)) (i : Nat) (events : List SimulatorEvent)
    (m : Simulator ρ κ) (own : List Event) : Prop where
  updates : answersIn own = answersFor i events
  asked : ∀ r, m.Uses r i → askedBy r own ++ (m.requestorsMap r).unasked =
    ((traces r).filterMap id).map (Requestor.askingOf 64)
  strangers : ∀ r, ¬ m.Uses r i → askedBy r own = []

/-- Nothing happened to a channel where no requestor's unasked requests changed. -/
theorem Fed.stay {i : Nat} {events : List SimulatorEvent} {event : SimulatorEvent} {own : List Event}
    (fed : Fed traces i events m own) (silent : answersFor i [event] = [])
    (uses : ∀ r, m'.Uses r i ↔ m.Uses r i)
    (same : ∀ r, m.Uses r i → (m'.requestorsMap r).unasked = (m.requestorsMap r).unasked) :
    Fed traces i (events ++ [event]) m' own := by
  refine ⟨?_, fun r here => ?_, fun r other => fed.strangers r fun here => other ((uses r).mpr here)⟩
  · rw [answersFor_append, silent, List.append_nil]
    exact fed.updates
  · rw [same r ((uses r).mp here)]
    exact fed.asked r ((uses r).mp here)

/-- The channels as memory systems of their own. -/
structure Refines (setup : Setup) (parts : Components ρ κ) (refreshCounting bank_release : Nat → Nat)
    (traces : Nat → List (Option TraceLine)) (events : List SimulatorEvent) (m : Simulator ρ κ) :
    Prop where
  agrees : m.Agrees
  sizes : ∀ r, (m.requestorsMap r).RequestSize = 64
  channels : ∀ i < m.numberChannels, ∃ own os, run (MemorySystem.step setup parts)
    (MemoryController.create setup parts (refreshCounting i) (bank_release i)) own =
      some (m.channels i, os) ∧ Fed traces i events m own

variable {refreshCounting bank_release : Nat → Nat} {events : List SimulatorEvent}

/-- **A requestor's update**: its channel sees a request, or no channel sees anything. -/
theorem updateRequestor_refines {id : Nat} (known : id < m.numberRequestors)
    (refines : Refines setup parts refreshCounting bank_release traces events m)
    (updated : m.updateRequestor setup id = some m') :
    Refines setup parts refreshCounting bank_release traces (events ++ [.requestor id]) m' := by
  obtain ⟨agrees, count, number⟩ := updateRequestor_agrees refines.agrees updated
  have uses : ∀ r i, m'.Uses r i ↔ m.Uses r i := by
    intro r i
    rw [Uses, Uses, count, number]
  unfold updateRequestor at updated
  split at updated
  · next request decided =>
    obtain ⟨m₁, added, rfl⟩ := Option.map_eq_some_iff.mp updated
    have mine : request.requestorID = id := refines.agrees.own_decision decided
    obtain ⟨c, inserted, rfl⟩ := Option.map_eq_some_iff.mp added
    rw [mine] at inserted
    rw [mine, setChannel_requestorsMap] at uses agrees ⊢
    have left := Requestor.unasked_sent decided
    have others : ∀ r, r ≠ id → (((m.setChannel (findChannelNumber m.numberChannels id) c).setRequestor id
        ((m.requestorsMap id).read.sent request).endUpdate).requestorsMap r) = m.requestorsMap r :=
      fun r other => if_neg other
    refine ⟨agrees, fun r => ?_, fun i hi => ?_⟩
    · rw [setRequestor_requestorsMap]
      split
      · next own =>
        subst own
        exact (m.requestorsMap r).unasked_read.2.trans (refines.sizes r)
      · exact refines.sizes r
    · obtain ⟨own, os, ran, fed⟩ := refines.channels i hi
      by_cases here : i = findChannelNumber m.numberChannels id
      · -- the requestor's own channel
        subst here
        refine ⟨own ++ [.addRequest id request.address (request.requestType == .DATA_READ)
          request.requestSize], os ++ [()], ?_, ?_, fun r uses' => ?_, fun r other => ?_⟩
        · refine run_append_eq_some.mpr ⟨_, os, [()], ran, run_cons_eq_some.mpr
            ⟨c, (), [], ?_, ?_, rfl⟩, rfl⟩
          · rw [MemorySystem.step, inserted, Option.map_some]
          · simp [setChannel_channels]
        · rw [answersIn_append, answersFor_append]
          exact congrArg (· ++ []) fed.updates
        · have asked := fed.asked r ((uses r _).mp uses')
          by_cases same : r = id
          · subst same
            rw [left] at asked
            rw [setRequestor_requestorsMap, if_pos rfl, ← asked, askedBy_append, askedBy_addRequest,
              if_pos rfl, List.append_assoc]
            rfl
          · rw [others r same, ← asked, askedBy_append, askedBy_addRequest, if_neg (Ne.symm same),
              List.append_nil]
        · have apart : id ≠ r := by
            rintro rfl
            exact other ((uses id _).mpr ⟨known, rfl⟩)
          rw [askedBy_append, fed.strangers r fun here => other ((uses r _).mpr here),
            askedBy_addRequest, if_neg apart]
          rfl
      · refine ⟨own, os, ?_, fed.stay rfl (fun r => uses r i) fun r uses' => ?_⟩
        · rw [setRequestor_channels, setChannel_channels, if_neg here]
          exact ran
        · have apart : r ≠ id := by
            rintro rfl
            exact here uses'.2.symm
          rw [others r apart]
  · obtain rfl := Option.some.inj updated
    have same : ∀ r, ((m.setRequestor id (m.requestorsMap id).read.endUpdate).requestorsMap r).unasked =
          (m.requestorsMap r).unasked ∧
        ((m.setRequestor id (m.requestorsMap id).read.endUpdate).requestorsMap r).RequestSize =
          (m.requestorsMap r).RequestSize := by
      intro r
      rw [setRequestor_requestorsMap]
      split
      · next own =>
        subst own
        exact (m.requestorsMap r).unasked_read
      · exact ⟨rfl, rfl⟩
    refine ⟨agrees, fun r => (same r).2.trans (refines.sizes r), fun i hi => ?_⟩
    obtain ⟨own, os, ran, fed⟩ := refines.channels i hi
    exact ⟨own, os, ran, fed.stay rfl (fun r => uses r i) fun r _ => (same r).1⟩

/-- **An update of the memory**: every channel sees an update. -/
theorem updateMemory_refines {refreshCheck check : Nat → Answers}
    (refines : Refines setup parts refreshCounting bank_release traces events m)
    (updated : m.updateMemory setup parts refreshCheck check = some m') :
    Refines setup parts refreshCounting bank_release traces (events ++ [.memory refreshCheck check]) m' := by
  obtain ⟨agrees, count, number⟩ := updateChannels_agrees _ refines.agrees updated
  obtain ⟨returned, each, _⟩ := updateChannels_cases _ List.nodup_range updated
  refine ⟨agrees, fun r => (returned r).size.trans (refines.sizes r), fun i hi => ?_⟩
  obtain ⟨own, os, ran, fed⟩ := refines.channels i (count ▸ hi)
  have uses : ∀ r, m'.Uses r i ↔ m.Uses r i := by
    intro r
    rw [Uses, Uses, count, number]
  refine ⟨own ++ [.update (refreshCheck i) (check i)], os ++ [()], ?_, ?_, fun r uses' => ?_,
    fun r other => ?_⟩
  · refine run_append_eq_some.mpr ⟨_, os, [()], ran, run_cons_eq_some.mpr ⟨m'.channels i, (), [], ?_, rfl,
      rfl⟩, rfl⟩
    rw [MemorySystem.step, each i (List.mem_range.mpr (count ▸ hi)), Option.map_some]
  · rw [answersIn_append, answersFor_append]
    exact congrArg (· ++ [(refreshCheck i, check i)]) fed.updates
  · rw [(returned r).unasked, ← fed.asked r ((uses r).mp uses'), askedBy_append]
    exact congrArg (· ++ _) (List.append_nil _)
  · rw [askedBy_append, fed.strangers r fun here => other ((uses r).mpr here)]
    rfl

/-- **Every channel of the simulator is a memory system of its own.** With any schedulers, any numbers of
requestors and channels and any traces, in every state a run of updates reaches, whatever the devices
answer: a channel is where a run of the memory system alone ends, whose updates have the answers of the
channel's device, in order, and whose requests come from the requestors that use the channel; and what such
a requestor asked for there, what it holds and what it has not read yet are together the requests of its
trace, in order. -/
theorem channels_refine (setup : Setup) (parts : Components ρ κ) (refreshCounting bank_release : Nat → Nat)
    (numberChannels numberRequestors : Nat) (inOrder : Nat → Bool)
    (traces : Nat → List (Option TraceLine)) {events : List SimulatorEvent} {m : Simulator ρ κ}
    {told : List Unit} (ran : run (step setup parts) (create setup parts refreshCounting bank_release
      numberChannels numberRequestors inOrder traces) events = some (m, told)) :
    ∀ i < numberChannels, ∃ own os,
      run (MemorySystem.step setup parts)
        (MemoryController.create setup parts (refreshCounting i) (bank_release i)) own =
          some (m.channels i, os) ∧
      answersIn own = answersFor i events ∧
      (∀ r < numberRequestors, findChannelNumber numberChannels r = i →
        askedBy r own ++ (m.requestorsMap r).unasked =
          ((traces r).filterMap id).map (Requestor.askingOf 64)) ∧
      ∀ r, ¬ (r < numberRequestors ∧ findChannelNumber numberChannels r = i) → askedBy r own = [] := by
  have history : Refines setup parts refreshCounting bank_release traces events m ∧
      m.numberChannels = numberChannels ∧ m.numberRequestors = numberRequestors := by
    refine run_history (fun events m _ => Refines setup parts refreshCounting bank_release traces events m ∧
      m.numberChannels = numberChannels ∧ m.numberRequestors = numberRequestors) ?_ ⟨⟨?_, fun _ => rfl,
        fun i _ => ⟨[], [], rfl, rfl, fun r _ => ?_, fun _ _ => rfl⟩⟩, rfl, rfl⟩ ran
    · rintro events m told event m' ⟨⟩ ⟨refines, count, number⟩ stepped
      obtain ⟨_, count', number'⟩ := step_agrees refines.agrees stepped
      refine ⟨?_, count'.trans count, number'.trans number⟩
      cases event with
      | requestor id =>
        simp only [step] at stepped
        split at stepped
        · next known =>
          obtain ⟨m₁, updated, out⟩ := Option.map_eq_some_iff.mp stepped
          obtain ⟨rfl, _⟩ : _ ∧ _ := Prod.mk.inj out
          exact updateRequestor_refines known refines updated
        · cases stepped
      | memory refreshCheck check =>
        obtain ⟨m₁, updated, out⟩ := Option.map_eq_some_iff.mp stepped
        obtain ⟨rfl, _⟩ : _ ∧ _ := Prod.mk.inj out
        exact updateMemory_refines refines updated
    · exact agrees_create setup parts refreshCounting bank_release numberChannels numberRequestors inOrder
        traces
    · rfl
  obtain ⟨refines, rfl, rfl⟩ := history
  intro i hi
  obtain ⟨own, os, ran', fed⟩ := refines.channels i hi
  exact ⟨own, os, ran', fed.updates, fun r known here => fed.asked r ⟨known, here⟩, fed.strangers⟩

/-- The law at the run in which two requestors send to two channels: channel 1 is where requestor 1's read
and fifty updates lead. -/
theorem channels_refine_twoSenders :
    ∃ m told own os, run (step openPageSetup frfcfsIni)
        (create openPageSetup frfcfsIni (fun _ => 0) (fun _ => 0) 2 2 (fun _ => true) oneRead) twoSenders =
          some (m, told) ∧
      run (MemorySystem.step openPageSetup frfcfsIni) (MemoryController.create openPageSetup frfcfsIni 0 0)
        own = some (m.channels 1, os) ∧
      askedBy 1 own = [(64, true, 64)] ∧ askedBy 0 own = [] := by
  obtain ⟨m, told, ran, done⟩ := run_exists (step openPageSetup frfcfsIni)
    (fun m => (m.requestorsMap 1).unasked = [])
    (create openPageSetup frfcfsIni (fun _ => 0) (fun _ => 0) 2 2 (fun _ => true) oneRead) twoSenders
    (by decide +kernel)
  obtain ⟨own, os, ran', _, asked, strangers⟩ := channels_refine openPageSetup frfcfsIni (fun _ => 0)
    (fun _ => 0) 2 2 (fun _ => true) oneRead ran 1 (by decide)
  have all := asked 1 (by decide) rfl
  rw [done, List.append_nil] at all
  exact ⟨m, told, own, os, ran, ran', all, strangers 0 fun h => absurd h.2 (by decide)⟩

end Simulator
end MCsim
