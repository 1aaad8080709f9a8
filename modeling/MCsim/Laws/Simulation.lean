import MCsim.Laws.Admitting
import MCsim.Simulation
import Mathlib.Order.OrderIsoNat

/-!
# The simulation ends

The loop of `main.cpp` waits until a requestor is at its end. Requestors read and send finitely often; once
they stop, every channel is left to its cycles, so with a willing device it completes all it has
(`Laws.Progress`), and the first requestor, which then waits for nothing, can only be at its end: a request
that it still held would be sent when its clock, which runs around, reaches the arrival time.
-/

namespace MCsim

open Lib.Machine Lib.Endless MemoryController

variable {ρ κ : Type} {setup : Setup} {parts : Components ρ κ}

namespace Simulation

variable {s s' : Simulation ρ κ} {requests : Nat → Nat} {cycles : Nat}

/-! ## A round -/

/-- What a requestor does in a round in which none reads or sends. -/
def Stalls (s : Simulation ρ κ) (id : Nat) (q : Requestor) : Prop :=
  s.simulator.decision id = none ∧ Requestor.Stands (s.simulator.requestorsMap id) q

/-- What the updates of the requestors in a list do. -/
structure Asked (l : List Nat) (s s' : Simulation ρ κ) : Prop where
  numbers : s'.simulator.numberChannels = s.simulator.numberChannels ∧
    s'.simulator.numberRequestors = s.simulator.numberRequestors
  others : ∀ id, id ∉ l → s'.simulator.requestorsMap id = s.simulator.requestorsMap id
  left : ∀ id, (s'.simulator.requestorsMap id).left ≤ (s.simulator.requestorsMap id).left
  ended : ∀ id, (s.simulator.requestorsMap id).AtEnd → (s'.simulator.requestorsMap id).AtEnd
  keeps : s.simDone = true → s'.simDone = true
  told : ∀ id ∈ l, (s'.simulator.requestorsMap id).sim_done = true → s'.simDone = true
  done : s'.simDone = true → s.simDone = true ∨ ∃ id ∈ l, (s'.simulator.requestorsMap id).AtEnd
  quiet : (∀ id ∈ l, (s'.simulator.requestorsMap id).left = (s.simulator.requestorsMap id).left) →
    s'.simulator.channels = s.simulator.channels ∧
      ∀ id ∈ l, s.Stalls id (s'.simulator.requestorsMap id)

/-- A requestor decides by its own state and by channel 0. -/
theorem decision_congr {m m' : Simulator ρ κ} {id : Nat} (channels : m'.channels = m.channels)
    (same : m'.requestorsMap id = m.requestorsMap id) : m'.decision id = m.decision id := by
  simp only [Simulator.decision, Simulator.isWriteModeFromController, Simulator.generalBufferSize,
    channels, same]

/-- **The requestors of a list are updated**, one after the other. -/
theorem stepRequestors_asked (open_ : setup.OpenPage) (sized : MCsim.Sized setup.dataBusWidth 64)
    (l : List Nat) (nodup : l.Nodup)
    (banks : ∀ id ∈ l, setup.build = .SINGLE_RANK_BANK_PRIVATIZATION → id < 8)
    (sound : s.simulator.Sound setup requests) :
    ∃ s', l.foldlM (stepRequestor setup) s = some s' ∧ s'.simulator.Sound setup requests ∧
      Asked l s s' := by
  induction l generalizing s with
  | nil =>
    exact ⟨s, rfl, sound, ⟨rfl, rfl⟩, fun _ _ => rfl, fun _ => Nat.le_refl _, fun _ => id, id,
      fun id hid => absurd hid List.not_mem_nil, .inl, fun _ => ⟨rfl, fun id hid => absurd hid List.not_mem_nil⟩⟩
  | cons id l ih =>
    obtain ⟨absent, nodup⟩ := List.nodup_cons.mp nodup
    obtain ⟨m₁, updated, sound₁, count, number, own, others, still⟩ :=
      Simulator.updateRequestor_sound open_ sized (banks id List.mem_cons_self) sound
    let s₁ : Simulation ρ κ :=
      { s with simulator := m₁, simDone := s.simDone || (m₁.requestorsMap id).sim_done }
    have stepped : stepRequestor setup s id = some s₁ := by
      rw [stepRequestor, updated]
      rfl
    obtain ⟨s', rest, sound', asked⟩ :=
      @ih s₁ nodup (fun id' hid => banks id' (List.mem_cons_of_mem id hid)) sound₁
    have left₁ : ∀ id', (m₁.requestorsMap id').left ≤ (s.simulator.requestorsMap id').left := by
      intro id'
      by_cases here : id' = id
      · rw [here, own]
        exact Requestor.left_updated _ _ _
      · exact Nat.le_of_eq (by rw [others id' here])
    have last : s'.simulator.requestorsMap id = m₁.requestorsMap id := asked.others id absent
    refine ⟨s', ?_, sound', ⟨asked.numbers.1.trans count, asked.numbers.2.trans number⟩, fun id' hid => ?_,
      fun id' => (asked.left id').trans (left₁ id'), fun id' ended => asked.ended id' ?_,
      fun done => asked.keeps ?_, fun id' hid done => ?_, fun done => ?_, fun same => ?_⟩
    · rw [List.foldlM_cons, stepped]
      exact rest
    · obtain ⟨apart, later⟩ := not_or.mp fun h => hid (List.mem_cons.mpr h)
      exact (asked.others id' later).trans (others id' apart)
    · show (m₁.requestorsMap id').AtEnd
      by_cases here : id' = id
      · rw [here, own]
        exact ((here ▸ ended).updated _ _).1
      · rw [others id' here]
        exact ended
    · simp [s₁, done]
    · rcases List.mem_cons.mp hid with rfl | later
      · rw [last] at done
        exact asked.keeps (by simp [s₁, done])
      · exact asked.told id' later done
    · rcases asked.done done with before | ⟨id', hid, ended⟩
      · rcases Bool.or_eq_true_iff.mp before with before | now
        · exact .inl before
        · exact .inr ⟨id, List.mem_cons_self, last ▸ (sound₁.requestors id).done now⟩
      · exact .inr ⟨id', List.mem_cons_of_mem id hid, ended⟩
    · -- a list in which nobody has less to do: not the first, and not those after it
      have first : (m₁.requestorsMap id).left = (s.simulator.requestorsMap id).left := by
        rw [← last]
        exact same id List.mem_cons_self
      rw [own] at first
      obtain ⟨none_, stands⟩ := Requestor.stands_of_left first
      have channels := still none_
      obtain ⟨channels', each⟩ := asked.quiet fun id' hid => by
        have now := asked.left id'
        have before := left₁ id'
        have ends := same id' (List.mem_cons_of_mem id hid)
        show _ = (m₁.requestorsMap id').left
        exact Nat.le_antisymm now (ends ▸ before)
      refine ⟨channels'.trans channels, fun id' hid => ?_⟩
      rcases List.mem_cons.mp hid with rfl | later
      · exact ⟨none_, last.trans own ▸ stands⟩
      · have apart : id' ≠ id := by
          rintro rfl
          exact absent later
        obtain ⟨none_, stands⟩ := each id' later
        refine ⟨(decision_congr channels (others id' apart)).symm.trans none_, ?_⟩
        rw [← others id' apart]
        exact stands

/-- What a round does. -/
structure Rounded (setup : Setup) (parts : Components ρ κ) (cycles : Nat)
    (answers : Nat → Answers × Answers) (s s' : Simulation ρ κ) : Prop where
  numbers : s'.simulator.numberChannels = s.simulator.numberChannels ∧
    s'.simulator.numberRequestors = s.simulator.numberRequestors
  left : ∀ id, (s'.simulator.requestorsMap id).left ≤ (s.simulator.requestorsMap id).left
  ended : ∀ id, (s.simulator.requestorsMap id).AtEnd → (s'.simulator.requestorsMap id).AtEnd
  told : ∀ id < s.simulator.numberRequestors,
    (s'.simulator.requestorsMap id).sim_done = true → s'.simDone = true
  done : s'.simDone = true → s.simDone = true ∨ cycles ≠ 0 ∨
    ∃ id < s.simulator.numberRequestors, (s'.simulator.requestorsMap id).AtEnd
  quiet : (∀ id < s.simulator.numberRequestors,
      (s'.simulator.requestorsMap id).left = (s.simulator.requestorsMap id).left) →
    (∀ i < s.simulator.numberChannels, MemorySystem.step setup parts (s.simulator.channels i)
      (.update (answers i).1 (answers i).2) = some (s'.simulator.channels i, ())) ∧
      ∀ id < s.simulator.numberRequestors, s.Stalls id (s'.simulator.requestorsMap id)

/-- The requestors whose requests have a bank. -/
def Banked (setup : Setup) (numberRequestors : Nat) : Prop :=
  setup.build = .SINGLE_RANK_BANK_PRIVATIZATION → numberRequestors ≤ 8

/-- **A round happens**, and keeps all in order. -/
theorem round_rounded (open_ : setup.OpenPage) (opens : parts.OpenPage)
    (eager : parts.commandScheduler.Eager) (delays : Delays setup)
    (sized : MCsim.Sized setup.dataBusWidth 64) (banked : Banked setup s.simulator.numberRequestors)
    (cycles : Nat) (answers : Nat → Answers × Answers) (sound : s.simulator.Sound setup requests) :
    ∃ s', round setup parts cycles answers s = some s' ∧ s'.simulator.Sound setup requests ∧
      Rounded setup parts cycles answers s s' := by
  let s₀ : Simulation ρ κ :=
    { s with simDone := s.simDone || (cycles ≠ 0 && s.currentClockCyle == cycles) }
  obtain ⟨s₁, stepped, sound₁, asked⟩ := @stepRequestors_asked ρ κ setup s₀ requests open_ sized
    (List.range s.simulator.numberRequestors) List.nodup_range (fun id hid private_ => by
      have := banked private_
      have := List.mem_range.mp hid
      omega) sound
  obtain ⟨m₂, updated, sound₂, count, number, returned, each⟩ :=
    Simulator.updateMemory_sound open_ opens eager delays sound₁ (fun i => (answers i).1)
      fun i => (answers i).2
  refine ⟨{ s₁ with simulator := m₂, currentClockCyle := (s₁.currentClockCyle + 1) % 2 ^ 64 }, ?_, sound₂,
    ⟨count.trans asked.numbers.1, number.trans asked.numbers.2⟩, fun id => ?_, fun id ended => ?_,
    fun id hid done => ?_, fun done => ?_, fun same => ?_⟩
  · rw [round, stepped, Option.bind_some, updated, Option.map_some]
  · exact Nat.le_trans (Nat.le_of_eq (returned id).left) (asked.left id)
  · exact (returned id).atEnd (asked.ended id ended)
  · exact asked.told id (List.mem_range.mpr hid) ((returned id).done.symm.trans done)
  · rcases asked.done done with before | ⟨id, hid, ended⟩
    · rcases Bool.or_eq_true_iff.mp before with before | reached
      · exact .inl before
      · exact .inr (.inl (by simpa using (Bool.and_eq_true_iff.mp reached).1))
    · exact .inr (.inr ⟨id, List.mem_range.mp hid, (returned id).atEnd ended⟩)
  · obtain ⟨channels, stalls⟩ := asked.quiet fun id hid =>
      (returned id).left.symm.trans (same id (List.mem_range.mp hid))
    refine ⟨fun i known => ?_, fun id hid => ?_⟩
    · have here := each i (asked.numbers.1.symm ▸ known)
      rwa [channels] at here
    · obtain ⟨none_, stands⟩ := stalls id (List.mem_range.mpr hid)
      exact ⟨none_, stands.returned (returned id)⟩

/-! ## Rounds for ever -/

section Rounds

variable {answers : Nat → Nat → Answers × Answers} {trace : Nat → Simulation ρ κ}

/-- What every round of a sequence does. -/
def Rounds (setup : Setup) (parts : Components ρ κ) (requests : Nat → Nat) (cycles : Nat)
    (answers : Nat → Nat → Answers × Answers) (trace : Nat → Simulation ρ κ) : Prop :=
  ∀ n, (trace n).simulator.Sound setup requests ∧
    Rounded setup parts cycles (answers n) (trace n) (trace (n + 1))

/-- From a round on, no requestor reads or sends. -/
def Settled (trace : Nat → Simulation ρ κ) (N : Nat) : Prop :=
  ∀ n, N ≤ n → ∀ id < (trace 0).simulator.numberRequestors,
    ((trace (n + 1)).simulator.requestorsMap id).left = ((trace n).simulator.requestorsMap id).left

namespace Rounds

variable (rounds : Rounds setup parts requests cycles answers trace)

include rounds

theorem numbers (n : Nat) :
    (trace n).simulator.numberChannels = (trace 0).simulator.numberChannels ∧
      (trace n).simulator.numberRequestors = (trace 0).simulator.numberRequestors := by
  induction n with
  | zero => exact ⟨rfl, rfl⟩
  | succ n ih =>
    obtain ⟨count, number⟩ := (rounds n).2.numbers
    exact ⟨count.trans ih.1, number.trans ih.2⟩

/-- **Requestors read and send finitely often.** -/
theorem settled : ∃ N, Settled trace N := by
  let work : Nat → Nat := fun n => ∑ id ∈ Finset.range (trace 0).simulator.numberRequestors,
    ((trace n).simulator.requestorsMap id).left
  have falls : Antitone work := antitone_nat_of_succ_le fun n =>
    Finset.sum_le_sum fun id _ => (rounds n).2.left id
  obtain ⟨N, still⟩ := WellFoundedLT.antitone_chain_condition falls
  refine ⟨N, fun n later id hid => ?_⟩
  have same : work (n + 1) = work n := (still (n + 1) (by omega)).symm.trans (still n later)
  exact (Finset.sum_eq_sum_iff_of_le fun id _ => (rounds n).2.left id).mp same id
    (Finset.mem_range.mpr hid)

/-- From then on each channel is left to its cycles. -/
theorem quiet {N n : Nat} (settled : Settled trace N) (later : N ≤ n) :
    (∀ i < (trace 0).simulator.numberChannels, MemorySystem.step setup parts
      ((trace n).simulator.channels i) (.update (answers n i).1 (answers n i).2) =
        some ((trace (n + 1)).simulator.channels i, ())) ∧
      ∀ id < (trace 0).simulator.numberRequestors,
        (trace n).Stalls id ((trace (n + 1)).simulator.requestorsMap id) := by
  obtain ⟨count, number⟩ := rounds.numbers n
  have quiet := (rounds n).2.quiet
  rw [count, number] at quiet
  exact quiet (settled n later)

/-- So it completes all it has. -/
theorem finished (open_ : setup.OpenPage) (opens : parts.OpenPage) (eager : parts.commandScheduler.Eager)
    (delays : Delays setup) {N i : Nat} (settled : Settled trace N)
    (known : i < (trace 0).simulator.numberChannels)
    (willing : Willing (fun n => answers n i) fun n => (trace n).simulator.channels i) :
    ∃ N', ∀ n, N' ≤ n → ((trace n).simulator.channels i).Finished := by
  have behaviour : Behaviour (MemorySystem.step setup parts) (MCsim.cycles fun k => answers (N + k) i)
      fun k => (trace (N + k)).simulator.channels i :=
    fun k => ⟨(), (rounds.quiet settled (Nat.le_add_right N k)).1 i known⟩
  obtain ⟨sent, working⟩ := exists_working open_ opens eager delays ((rounds N).1.able i) behaviour
  obtain ⟨K, done⟩ := finishes working fun n x opens bank same => by
    obtain ⟨m, later, taken⟩ := willing (N + n) x opens bank fun m later => by
      have here := same (m - N) (by omega)
      rwa [show N + (m - N) = m by omega] at here
    refine ⟨m - N, by omega, ?_⟩
    rwa [show N + (m - N) = m by omega]
  refine ⟨N + K, fun n later => ?_⟩
  have here := done (n - N) (by omega)
  rwa [show N + (n - N) = n by omega] at here

/-- **Then no requestor waits for data**, and no request is in a buffer. -/
theorem answered (open_ : setup.OpenPage) (opens : parts.OpenPage) (eager : parts.commandScheduler.Eager)
    (delays : Delays setup) {N : Nat} (settled : Settled trace N)
    (some_channel : 0 < (trace 0).simulator.numberChannels)
    (willing : ∀ i < (trace 0).simulator.numberChannels,
      Willing (fun n => answers n i) fun n => (trace n).simulator.channels i) :
    ∃ N', ∀ n, N' ≤ n → (trace n).simulator.generalBufferSize = 0 ∧
      ∀ id, ((trace n).simulator.requestorsMap id).corePendingData = [] := by
  choose! since done using fun i known =>
    rounds.finished open_ opens eager delays settled known (willing i known)
  refine ⟨(Finset.range (trace 0).simulator.numberChannels).sup since, fun n later => ?_⟩
  have all : ∀ i < (trace 0).simulator.numberChannels, ((trace n).simulator.channels i).Finished :=
    fun i known => done i known n (le_trans (Finset.le_sup (Finset.mem_range.mpr known)) later)
  have sound := (rounds n).1
  constructor
  · have empty : ((trace n).simulator.channels 0).requestScheduler.buffered = [] := by
      refine List.eq_nil_iff_forall_not_mem.mpr fun r hr => ?_
      have pending := (sound.able 0).accounted.books.mem_pending hr
      have nothing : ∀ d, ((trace n).simulator.channels 0).pendings d = [] := fun d => by
        cases d
        · exact (all 0 some_channel).writes
        · exact (all 0 some_channel).reads
      rw [nothing] at pending
      cases pending
    exact List.length_eq_zero_iff.mpr empty
  · intro id
    have known : Simulator.findChannelNumber (trace n).simulator.numberChannels id <
        (trace 0).simulator.numberChannels := by
      rw [(rounds.numbers n).1]
      unfold Simulator.findChannelNumber
      split
      · exact some_channel
      · exact Nat.mod_lt _ some_channel
    have core := sound.agrees.recorded.core id
    rw [MemoryController.outstanding, (all _ known).reads, (all _ known).writes] at core
    exact List.map_eq_nil_iff.mp (List.perm_nil.mp core)

/-- **The first requestor comes to its end.** -/
theorem ends (open_ : setup.OpenPage) (opens : parts.OpenPage) (eager : parts.commandScheduler.Eager)
    (delays : Delays setup) (some_channel : 0 < (trace 0).simulator.numberChannels)
    (some_requestor : 0 < (trace 0).simulator.numberRequestors)
    (willing : ∀ i < (trace 0).simulator.numberChannels,
      Willing (fun n => answers n i) fun n => (trace n).simulator.channels i) :
    ∃ n, (trace n).simDone = true := by
  obtain ⟨N₀, settled⟩ := rounds.settled
  obtain ⟨N₁, answered⟩ := rounds.answered open_ opens eager delays settled some_channel willing
  obtain ⟨N, late₀, late₁⟩ : ∃ N, N₀ ≤ N ∧ N₁ ≤ N := ⟨max N₀ N₁, le_max_left _ _, le_max_right _ _⟩
  -- the first requestor from then on
  let q : Nat → Requestor := fun k => (trace (N + k)).simulator.requestorsMap 0
  have stalls : ∀ k, (trace (N + k)).Stalls 0 (q (k + 1)) := fun k =>
    (rounds.quiet settled (by omega)).2 0 some_requestor
  have core : ∀ k, (q k).corePendingData = [] := fun k => (answered (N + k) (by omega)).2 0
  cases held : (q 0).pendingRequest with
  | none =>
    have done : ((trace (N + 0 + 1)).simulator.requestorsMap 0).sim_done = true :=
      (stalls 0).2.ends (core 0) held
    exact ⟨N + 0 + 1, (rounds (N + 0)).2.told 0 ((rounds.numbers _).2 ▸ some_requestor) done⟩
  | some x =>
    have holds : ∀ k, (q k).pendingRequest = some x := by
      intro k
      induction k with
      | zero => exact held
      | succ k ih => exact (stalls k).2.pending.trans ih
    have early : ∀ k, (q k).currentClockCycle < x.arriveTime := by
      intro k
      obtain ⟨empty, _⟩ := answered (N + k) (by omega)
      obtain ⟨none_, stands⟩ := stalls k
      have reading : (trace (N + k)).simulator.isWriteModeFromController = false :=
        (rounds (N + k)).1.reading 0
      rw [Simulator.decision, reading, empty] at none_
      exact stands.held x (holds k) (core k) 0 (Nat.zero_le _) none_
    have ticks : ∀ k, (q k).currentClockCycle = ((q 0).currentClockCycle + k) % 2 ^ 32 := by
      intro k
      induction k with
      | zero => exact (Nat.mod_eq_of_lt ((rounds (N + 0)).1.requestors 0).clock).symm
      | succ k ih =>
        rw [(stalls k).2.clock]
        show ((q k).currentClockCycle + 1) % 2 ^ 32 = _
        rw [ih, Nat.mod_add_mod, Nat.add_assoc]
    -- the clock comes around to its last value
    have small : x.arriveTime < 2 ^ 32 := (((rounds (N + 0)).1.requestors 0).pending x held).2
    have below := ((rounds (N + 0)).1.requestors 0).clock
    have last := ticks (2 ^ 32 - 1 - (q 0).currentClockCycle)
    have before := early (2 ^ 32 - 1 - (q 0).currentClockCycle)
    rw [last, show (q 0).currentClockCycle + (2 ^ 32 - 1 - (q 0).currentClockCycle) = 2 ^ 32 - 1 by
      have : (q 0).currentClockCycle < 2 ^ 32 := below
      omega] at before
    omega

end Rounds
end Rounds

/-! ## The loop -/

/-- The loop goes through the rounds, up to the first after which it is done. -/
theorem loop_of_rounds {answers : Nat → Nat → Answers × Answers} {trace : Nat → Simulation ρ κ}
    (happen : ∀ n, round setup parts cycles (answers n) (trace n) = some (trace (n + 1))) (d : Nat) {k : Nat}
    (done : (trace (k + d)).simDone = true) (first : ∀ m < k + d, (trace m).simDone = false) :
    loop setup parts cycles answers (d + 1) k (trace k) = some (trace (k + d)) := by
  induction d generalizing k with
  | zero =>
    rw [Nat.add_zero] at done
    rw [loop, if_pos done]
    rfl
  | succ d ih =>
    have sum : k + (d + 1) = k + 1 + d := by omega
    rw [sum] at done first ⊢
    rw [loop, first k (by omega), if_neg Bool.false_ne_true, happen k, Option.bind_some]
    exact ih done first

/-- Where the loop ends by itself, a requestor is at its end. -/
theorem Rounds.done {answers : Nat → Nat → Answers × Answers} {trace : Nat → Simulation ρ κ}
    (rounds : Rounds setup parts requests 0 answers trace) (start : (trace 0).simDone = false) (n : Nat)
    (done : (trace n).simDone = true) : ∃ id < (trace 0).simulator.numberRequestors,
      ((trace n).simulator.requestorsMap id).AtEnd := by
  induction n with
  | zero => exact absurd (start.symm.trans done) Bool.false_ne_true
  | succ n ih =>
    rcases (rounds n).2.done done with before | never | ⟨id, hid, ended⟩
    · obtain ⟨id, hid, ended⟩ := ih before
      exact ⟨id, hid, (rounds n).2.ended id ended⟩
    · exact absurd rfl never
    · exact ⟨id, (rounds.numbers n).2 ▸ hid, ended⟩

/-- From a simulation in order there are rounds for ever. -/
theorem exists_rounds (open_ : setup.OpenPage) (opens : parts.OpenPage)
    (eager : parts.commandScheduler.Eager) (delays : Delays setup)
    (sized : MCsim.Sized setup.dataBusWidth 64) (banked : Banked setup s.simulator.numberRequestors)
    (cycles : Nat) (answers : Nat → Nat → Answers × Answers)
    (sound : s.simulator.Sound setup requests) :
    ∃ trace, trace 0 = s ∧
      (∀ n, round setup parts cycles (answers n) (trace n) = some (trace (n + 1))) ∧
      Rounds setup parts requests cycles answers trace := by
  let ordered : Simulation ρ κ → Prop := fun t =>
    t.simulator.Sound setup requests ∧ t.simulator.numberRequestors = s.simulator.numberRequestors
  have next : ∀ {t : Simulation ρ κ} (n : Nat), ordered t →
      ∃ t', round setup parts cycles (answers n) t = some t' ∧ ordered t' ∧
        Rounded setup parts cycles (answers n) t t' := by
    intro t n ordered
    obtain ⟨t', went, sound', rounded⟩ := round_rounded open_ opens eager delays sized
      (ordered.2.symm ▸ banked) cycles (answers n) ordered.1
    exact ⟨t', went, ⟨sound', rounded.numbers.2.trans ordered.2⟩, rounded⟩
  obtain ⟨trace, first, behaviour, all⟩ := exists_behaviour
    (fun (t : Simulation ρ κ) n => (round setup parts cycles (answers n) t).map (·, ())) id ordered
    (fun n here => by
      obtain ⟨t', went, here', _⟩ := next n here
      exact ⟨t', (), by rw [id, went, Option.map_some], here'⟩) ⟨sound, rfl⟩
  have happen : ∀ n, round setup parts cycles (answers n) (trace n) = some (trace (n + 1)) := by
    intro n
    obtain ⟨_, went⟩ := behaviour n
    obtain ⟨t, went, same⟩ := Option.map_eq_some_iff.mp went
    obtain ⟨rfl, _⟩ := Prod.mk.inj same
    exact went
  refine ⟨trace, first, happen, fun n => ⟨(all n).1, ?_⟩⟩
  obtain ⟨t', went, _, rounded⟩ := next n (all n)
  obtain rfl := Option.some.inj ((happen n).symm.trans went)
  exact rounded

/-- **The simulation ends.** With one general request buffer, `OPEN`, a queue for each bank, no refresh and
any of the general schedulers, for any number of channels and of requestors, in order or not, and any
traces: every round happens, whatever the devices answer, and no callback aborts. Where no device refuses a
command for ever once it is handed no more, the loop ends; and where it was not cut short, some requestor
has had every request of its trace sent and completed. -/
theorem simulation_ends (open_ : setup.OpenPage) (noRefresh : setup.refresh_mechanism = .none)
    (delays : Delays setup) (sized : MCsim.Sized setup.dataBusWidth 64) {parts : Components Unit Unit}
    (general : parts.General) (refreshCounting bank_release : Nat → Nat)
    {numberChannels numberRequestors : Nat} (some_channel : 0 < numberChannels)
    (some_requestor : 0 < numberRequestors) (banked : Banked setup numberRequestors)
    (inOrder : Nat → Bool) (traces : Nat → List (Option TraceLine)) (cycles : Nat)
    (answers : Nat → Nat → Answers × Answers) :
    ∃ trace : Nat → Simulation Unit Unit, trace 0 = create setup parts refreshCounting bank_release
        numberChannels numberRequestors inOrder traces ∧
      (∀ n, round setup parts cycles (answers n) (trace n) = some (trace (n + 1))) ∧
      ((∀ i < numberChannels, Willing (fun n => answers n i) fun n => (trace n).simulator.channels i) →
        ∃ n, loop setup parts cycles answers (n + 1) 0 (trace 0) = some (trace n) ∧
          (cycles = 0 → ∃ r < numberRequestors,
            ((trace n).simulator.requestorsMap r).requestRequest = ((traces r).filterMap id).length ∧
            ((trace n).simulator.requestorsMap r).completeRequest =
              ((traces r).filterMap id).length)) := by
  have opens := general.openPage
  have eager := general.eager
  obtain ⟨trace, first, happen, rounds⟩ := @exists_rounds Unit Unit setup parts
    (create setup parts refreshCounting bank_release numberChannels numberRequestors inOrder traces) _
    open_ opens eager delays sized banked cycles answers
    (Simulator.sound_create open_ noRefresh parts refreshCounting bank_release numberChannels
      numberRequestors inOrder traces)
  have channels : (trace 0).simulator.numberChannels = numberChannels := by rw [first]; rfl
  have requestors : (trace 0).simulator.numberRequestors = numberRequestors := by rw [first]; rfl
  refine ⟨trace, first, happen, fun willing => ?_⟩
  have reached := rounds.ends open_ opens eager delays (channels.symm ▸ some_channel)
    (requestors.symm ▸ some_requestor) (channels.symm ▸ willing)
  have done := Nat.find_spec reached
  refine ⟨Nat.find reached, ?_, fun whole => ?_⟩
  · have ran := loop_of_rounds happen (Nat.find reached) (k := 0) (by rwa [Nat.zero_add])
      fun m small => Bool.eq_false_iff.mpr (Nat.find_min reached (by omega))
    rwa [Nat.zero_add] at ran
  · subst whole
    obtain ⟨r, known, ended⟩ := rounds.done (by rw [first]; rfl) _ done
    have sound := (rounds (Nat.find reached)).1
    have lines := (sound.requestors r).lines
    have counts := sound.agrees.recorded.counts r
    rw [ended.pending, ended.file] at lines
    rw [Requestor.Counts, ended.core] at counts
    simp only [Option.toList_none, List.length_nil, List.filterMap_nil, Nat.add_zero] at lines counts
    exact ⟨r, requestors ▸ known, lines, counts ▸ lines⟩

/-- The law for two requestors that read one address each, with two channels of the set-up of `FRFCFS.ini`
and devices that take everything. -/
theorem simulation_ends_frfcfsIni :
    ∃ n s, loop openPageSetup frfcfsIni 0 (fun _ _ => (fun _ => true, fun _ => true)) (n + 1) 0
        (create openPageSetup frfcfsIni (fun _ => 0) (fun _ => 0) 2 2 (fun _ => true)
          Simulator.oneRead) = some s ∧
      ∃ r < 2, (s.simulator.requestorsMap r).completeRequest = 1 := by
  obtain ⟨trace, first, _, law⟩ := @simulation_ends openPageSetup
    ⟨⟨by decide, rfl, rfl, rfl, rfl, rfl, rfl, fun _ => rfl⟩, rfl, rfl, rfl⟩ rfl
    ⟨by decide, by decide⟩ ⟨by decide, by decide, by decide⟩ frfcfsIni ⟨.inr rfl, rfl, .inl rfl⟩
    (fun _ => 0) (fun _ => 0) 2 2 (by decide) (by decide) (fun _ => by decide) (fun _ => true)
    Simulator.oneRead 0 fun _ _ => (fun _ => true, fun _ => true)
  obtain ⟨n, ran, ended⟩ := law fun i _ n x _ _ _ => ⟨n, Nat.le_refl n, rfl⟩
  obtain ⟨r, known, _, completed⟩ := ended rfl
  exact ⟨n, trace n, first ▸ ran, r, known, completed⟩

end Simulation
end MCsim
