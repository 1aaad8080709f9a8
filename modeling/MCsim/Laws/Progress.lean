import MCsim.Lib.Endless
import MCsim.Laws.Turn

/-!
# Every accepted request completes

`Laws.Completion` says that no completion is lost, duplicated or misattributed; here every request gets
one. The memory system works through what is ahead of it in stages: the buffered requests are handed over,
one in each cycle; then the queues of the banks empty, since an eager scheduler sends a front as soon as
one can be issued; then the pipelines run dry. What must be asked of the device is only that it does not
refuse for ever. `Willing` asks it without a bound, `Prompt` with one, and then the number of cycles is
bounded too.
-/

namespace MCsim

open CommandScheduler RequestScheduler Lib.Machine Lib.Endless

namespace MemoryController

variable {ρ κ : Type} {setup : Setup} {parts : Components ρ κ} {c : MemoryController ρ κ}

/-! ## Nothing left -/

/-- Nothing is pending, and exactly the accepted requests were reported, each once. -/
structure Finished (c : MemoryController ρ κ) : Prop where
  reads : c.pendingReadRequest = []
  writes : c.pendingWriteRequest = []
  reported : (c.callbacks.map (·.request.handle)).Perm (c.accepted.map (·.handle))

/-- A lane without a beat under way and without a buffered request is empty. -/
theorem pendings_nil (able : Able setup c) (buffered : c.requestScheduler.buffered = [])
    (empty : c.commandScheduler.load = 0) (dry : c.Under 0) (d : Bool) : c.pendings d = [] := by
  obtain ⟨reg, slots, keeps⟩ := able.lined.writes
  obtain ⟨reg', slots', keeps'⟩ := able.lined.reads
  have noWrites : c.sendDataBuffer = [] := by
    have counters : c.sendDataCounter = [] :=
      List.eq_nil_iff_forall_not_mem.mpr fun n hn => absurd (dry.1 n hn) (Nat.not_lt_zero n)
    rw [← List.length_eq_zero_iff, keeps.length_eq, counters]
    rfl
  have noReads : c.commandScheduler.memoryDevice.pendingReadData = [] := by
    have counters : c.commandScheduler.memoryDevice.dataCycles = [] := by
      refine List.eq_nil_iff_forall_not_mem.mpr fun n hn => ?_
      have positive := (keeps'.bounds n hn).1
      have small := dry.2 n hn
      omega
    rw [← List.length_eq_zero_iff, keeps'.length_eq, counters]
    rfl
  have noFlight : c.flight = fun _ => [] := by
    funext d
    cases d
    · exact noWrites
    · exact noReads
  have noQueue : ∀ i, c.commandScheduler.waiting i = [] := by
    intro i
    rcases Nat.lt_or_ge i 8 with small | large
    · exact waiting_of_load_zero empty small
    · exact able.eight i large
  refine List.eq_nil_iff_forall_not_mem.mpr fun r hr => ?_
  have books := able.accounted.books
  have here : r ∈ (c.pendings r.key.isRead).filter (·.key == r.key) := by
    rw [books.typed d r hr]
    exact List.mem_filter.mpr ⟨hr, by simp⟩
  obtain ⟨taken, pending, beats⟩ := books.lanes r.key
  rw [pending, buffered, List.filter_nil, List.append_nil] at here
  rw [laneBeats, noFlight, noQueue] at beats
  have none_ : r.beatList setup.dataBusWidth = [] :=
    List.flatMap_eq_nil_iff.mp (Eq.symm beats) r here
  have positive : 0 < CommandGenerator.beats setup.dataBusWidth r := (books.sized d r hr).beats_pos
  rw [Request.beatList_eq positive] at none_
  simp at none_

/-- **With nothing pending, every accepted request was reported.** -/
theorem finished (able : Able setup c) (empty : ∀ d, c.pendings d = []) : c.Finished := by
  have reports := able.accounted.reports
  have keys : (c.accepted.map (·.key)).Perm (c.callbacks.map (·.request.key)) := by
    rw [List.perm_iff_count]
    intro k
    have counts := reports.counts k
    rw [empty, List.filter_nil, List.length_nil, Nat.add_zero] at counts
    rw [List.count_eq_countP, List.count_eq_countP, List.countP_map, List.countP_map]
    exact counts
  have length : c.accepted.length = c.callbacks.length := by simpa using keys.length_eq
  have handles : c.nextHandle = c.accepted.length := by
    have numbered := congrArg List.length reports.numbered
    rw [List.length_map, List.length_range] at numbered
    exact numbered.symm
  refine ⟨empty true, empty false, ?_⟩
  rw [reports.numbered]
  refine (List.Nodup.subperm reports.once fun h hh => ?_).perm_of_length_le ?_
  · obtain ⟨cb, hcb, rfl⟩ := List.mem_map.mp hh
    exact List.mem_range.mpr (reports.reported cb hcb)
  · rw [List.length_range, List.length_map]
    omega

/-- No line is longer than its delay. -/
theorem Able.under (able : Able setup c) :
    c.Under (max (setup.device.constraints.writeDelay false) setup.device.constraints.readDelay) := by
  obtain ⟨reg, slots, keeps⟩ := able.lined.writes
  obtain ⟨reg', slots', keeps'⟩ := able.lined.reads
  refine ⟨fun n hn => ?_, fun n hn => ?_⟩
  · have := (keeps.bounds n hn).2
    omega
  · have := (keeps'.bounds n hn).2
    omega

end MemoryController

open MemoryController

/-! ## Devices that take commands -/

/-- Cycles in which the device answers as given. -/
def cycles (answers : Nat → Answers × Answers) (n : Nat) : Event :=
  .update (answers n).1 (answers n).2

variable {ρ κ : Type}

/-- The commands a device was handed so far. -/
def MemoryController.sentTrace (c : MemoryController ρ κ) : List BusPacket :=
  c.commandScheduler.memoryDevice.commandTrace

/-- Once it is handed no more commands, the device refuses no command of a bank for ever. -/
def Willing (answers : Nat → Answers × Answers) (trace : Nat → MemoryController ρ κ) : Prop :=
  ∀ n x, OpenCommand x.bank x → x.bank < 8 →
    (∀ m, n ≤ m → (trace m).sentTrace = (trace n).sentTrace) → ∃ m, n ≤ m ∧ (answers m).2 x = true

/-- Up to a horizon, the device takes any command of a bank once it was handed none for `wait` cycles. -/
def Prompt (wait horizon : Nat) (answers : Nat → Answers × Answers)
    (trace : Nat → MemoryController ρ κ) : Prop :=
  ∀ n x, OpenCommand x.bank x → x.bank < 8 → n + wait ≤ horizon →
    (trace (n + wait)).sentTrace = (trace n).sentTrace → (answers (n + wait)).2 x = true

/-! ## The stages -/

section Stages

variable {setup : Setup} {parts : Components ρ κ} {answers : Nat → Answers × Answers}
  {trace : Nat → MemoryController ρ κ} {sent : Nat → Option BusPacket}

/-- What every cycle of a behaviour does. -/
def Working (setup : Setup) (answers : Nat → Answers × Answers) (trace : Nat → MemoryController ρ κ)
    (sent : Nat → Option BusPacket) : Prop :=
  ∀ n, Able setup (trace n) ∧ Works setup (answers n).2 (trace n) (trace (n + 1)) (sent n)

/-- What a step of a memory system in order leaves in order. -/
theorem step_able (open_ : setup.OpenPage) (opens : parts.OpenPage) (eager : parts.commandScheduler.Eager)
    (delays : Delays setup) {c c' : MemoryController ρ κ} {e : Event} {o : Unit} (able : Able setup c)
    (fits : e.Fits setup) (sized : e.Sized setup)
    (stepped : MemorySystem.step setup parts c e = some (c', o)) : Able setup c' := by
  cases e with
  | addRequest requestorID address R_W size =>
    simp only [MemorySystem.step, addRequest_eq open_ able.accounted.wired, Option.map_some,
      Option.some.injEq, Prod.mk.injEq] at stepped
    exact stepped.1 ▸ able.arrive open_ fits sized
  | update refreshCheck check =>
    exact (turn_of_step open_ opens eager able.accounted.wired able.fits stepped).able delays able

/-- **A behaviour from a state in order works** in every cycle. -/
theorem exists_working (open_ : setup.OpenPage) (opens : parts.OpenPage)
    (eager : parts.commandScheduler.Eager) (delays : Delays setup) (start : Able setup (trace 0))
    (behaviour : Behaviour (MemorySystem.step setup parts) (cycles answers) trace) :
    ∃ sent, Working setup answers trace sent := by
  have turns : ∀ n, Able setup (trace n) →
      Turn setup (answers n).1 (answers n).2 (trace n) (trace (n + 1)) := by
    intro n able
    obtain ⟨o, stepped⟩ := behaviour n
    exact turn_of_step open_ opens eager able.accounted.wired able.fits stepped
  have able : ∀ n, Able setup (trace n) := by
    intro n
    induction n with
    | zero => exact start
    | succ n ih => exact (turns n ih).able delays ih
  choose sent works using fun n => (turns n (able n)).works delays (able n)
  exact ⟨sent, fun n => ⟨able n, works n⟩⟩

namespace Working

/-- The buffer is empty after as many cycles as it holds requests. -/
theorem buffered_nil (working : Working setup answers trace sent) {n : Nat}
    (later : (trace 0).requestScheduler.buffered.length ≤ n) :
    (trace n).requestScheduler.buffered = [] := by
  have down := counts_down (μ := fun n => (trace n).requestScheduler.buffered.length) (n := 0)
    (fun m _ => (working m).2.buffered) n
  rw [Nat.zero_add] at down
  rw [← List.length_eq_zero_iff, down]
  omega

/-- The commands ahead never become more. -/
theorem ahead_le (working : Working setup answers trace sent) (n : Nat) :
    (trace n).ahead setup ≤ (trace 0).ahead setup := by
  induction n with
  | zero => exact Nat.le_refl _
  | succ n ih => exact le_trans (by have := (working n).2.ahead; omega) ih

/-- A stretch in which nothing is sent: the queues and the trace stay, the timers run. -/
theorem stalled (working : Working setup answers trace sent) {n : Nat}
    (empty : ∀ m, n ≤ m → (trace m).requestScheduler.buffered = []) {k : Nat}
    (silent : ∀ m, n ≤ m → m < n + k → sent m = none) :
    (∀ i, (trace (n + k)).commandScheduler.waiting i = (trace n).commandScheduler.waiting i) ∧
      (∀ i < 8, ∀ t, (trace (n + k)).commandScheduler.cmdQueueTimer i t =
        (trace n).commandScheduler.cmdQueueTimer i t - k) ∧
      (trace (n + k)).sentTrace = (trace n).sentTrace := by
  induction k with
  | zero => exact ⟨fun _ => rfl, fun _ _ _ => rfl, rfl⟩
  | succ k ih =>
    obtain ⟨waits, timers, same⟩ := ih fun m hm small => silent m hm (by omega)
    have works := (working (n + k)).2
    have quiet := silent (n + k) (by omega) (by omega)
    rw [← Nat.add_assoc]
    refine ⟨fun i => ?_, fun i hi t => ?_, ?_⟩
    · rw [works.waits (empty _ (by omega)) quiet, waits]
    · rw [works.timer quiet i hi, timers i hi, Nat.sub_sub]
    · have longer := works.trace
      rw [quiet] at longer
      exact (longer.trans (List.append_nil _)).trans same

/-- Where commands wait for ever and none is sent, the device is asked for one of them again and again. -/
theorem sends_of_willing (working : Working setup answers trace sent) (willing : Willing answers trace)
    {n : Nat} (empty : ∀ m, n ≤ m → (trace m).requestScheduler.buffered = [])
    (waits : 0 < (trace n).commandScheduler.load) : ∃ m, n ≤ m ∧ sent m ≠ none := by
  by_contra none_
  have silent : ∀ m, n ≤ m → sent m = none := fun m hm => by
    by_contra some_
    exact none_ ⟨m, hm, some_⟩
  obtain ⟨i, hi, nonempty⟩ := exists_waiting waits
  obtain ⟨x, rest, front⟩ := List.exists_cons_of_ne_nil nonempty
  have opens := (working n).1.accounted.wired.commands.queued i x (by simp [front])
  have bank : x.bank = i := opens.1
  -- the delays of the queue are over from here on
  let late := n + (trace n).commandScheduler.cmdQueueTimer i x.busPacketType
  obtain ⟨m, hm, taken⟩ := willing late x (bank.symm ▸ opens) (bank.symm ▸ hi) fun m hm => by
    have early := (working.stalled empty (k := late - n) fun m hm _ => silent m hm).2.2
    have now := (working.stalled empty (k := m - n) fun m hm _ => silent m hm).2.2
    rw [show n + (late - n) = late by omega] at early
    rw [show n + (m - n) = m by omega] at now
    rw [now, early]
  obtain ⟨same, timers, _⟩ := working.stalled empty (k := m - n) fun m hm _ => silent m hm
  rw [show n + (m - n) = m by omega] at same timers
  have refused := (working m).2.refused (empty m (by omega)) (silent m (by omega)) i hi x
    (by rw [same, front]; rfl) (by rw [timers i hi]; omega)
  rw [taken] at refused
  cases refused

/-- Where commands wait, one is sent before long. -/
theorem sends_of_prompt (working : Working setup answers trace sent) {wait horizon : Nat}
    (prompt : Prompt wait horizon answers trace)
    (within : ∀ n, (trace n).commandScheduler.Within wait) {n : Nat} (room : n + wait ≤ horizon)
    (empty : ∀ m, n ≤ m → (trace m).requestScheduler.buffered = [])
    (waits : 0 < (trace n).commandScheduler.load) : ∃ m, n ≤ m ∧ m < n + (wait + 1) ∧ sent m ≠ none := by
  by_contra none_
  have silent : ∀ m, n ≤ m → m < n + (wait + 1) → sent m = none := fun m hm small => by
    by_contra some_
    exact none_ ⟨m, hm, small, some_⟩
  obtain ⟨i, hi, nonempty⟩ := exists_waiting waits
  obtain ⟨x, rest, front⟩ := List.exists_cons_of_ne_nil nonempty
  have opens := (working n).1.accounted.wired.commands.queued i x (by simp [front])
  have bank : x.bank = i := opens.1
  obtain ⟨same, timers, still⟩ := working.stalled empty (k := wait)
    fun m hm small => silent m hm (by omega)
  have taken := prompt n x (bank.symm ▸ opens) (bank.symm ▸ hi) room still
  have refused := (working (n + wait)).2.refused (empty _ (by omega)) (silent _ (by omega) (by omega)) i hi
    x (by rw [same, front]; rfl) (by
      rw [timers i hi]
      have := within n i x.busPacketType
      omega)
  rw [taken] at refused
  cases refused

/-- A queue that is empty stays empty, and then nothing is sent. -/
theorem load_falls (working : Working setup answers trace sent) {n : Nat}
    (empty : (trace n).requestScheduler.buffered = []) :
    (trace (n + 1)).commandScheduler.load + (sent n).toList.length = (trace n).commandScheduler.load :=
  (working n).2.load empty

/-- A command that is sent makes the queues shorter. -/
theorem load_drops (working : Working setup answers trace sent) {n m : Nat}
    (empty : ∀ m, n ≤ m → (trace m).requestScheduler.buffered = []) (later : n ≤ m)
    (some_ : sent m ≠ none) :
    (trace (m + 1)).commandScheduler.load < (trace n).commandScheduler.load := by
  have falls : ∀ m, n ≤ m → (trace m).commandScheduler.load ≤ (trace n).commandScheduler.load :=
    always (P := fun m => (trace m).commandScheduler.load ≤ (trace n).commandScheduler.load)
      (Nat.le_refl _) fun m hm le => by have := working.load_falls (empty m hm); omega
  have before := falls m later
  have here := working.load_falls (empty m later)
  obtain ⟨x, hx⟩ := Option.ne_none_iff_exists'.mp some_
  rw [hx, Option.toList_some, List.length_singleton] at here
  omega

/-- **Once the queues are empty, the pipelines run dry** within the longer of their delays. -/
theorem finished (working : Working setup answers trace sent) {n : Nat}
    (empty : ∀ m, n ≤ m → (trace m).requestScheduler.buffered = [])
    (sent_ : ∀ m, n ≤ m → (trace m).commandScheduler.load = 0) {m : Nat}
    (later : n + max (setup.device.constraints.writeDelay false)
      setup.device.constraints.readDelay ≤ m) : (trace m).Finished := by
  have quiet : ∀ m, n ≤ m → sent m = none := by
    intro m hm
    have here := working.load_falls (empty m hm)
    rw [sent_ m hm] at here
    cases found : sent m with
    | none => rfl
    | some x => simp [found] at here
  have dries : ∀ k b, (trace n).Under b → (trace (n + k)).Under (b - k) := by
    intro k b under
    induction k with
    | zero => exact under
    | succ k ih =>
      have down := (working (n + k)).2.drains (quiet _ (by omega)) (b - k) ih
      rwa [Nat.sub_sub] at down
  obtain ⟨k, rfl⟩ := Nat.exists_eq_add_of_le (le_trans (Nat.le_add_right n _) later)
  have dry := dries k _ (working n).1.under
  rw [Nat.sub_eq_zero_of_le (by omega)] at dry
  exact MemoryController.finished (working (n + k)).1
    (pendings_nil (working (n + k)).1 (empty _ (by omega)) (sent_ _ (by omega)) dry)

end Working

/-- **A willing device: everything completes.** -/
theorem finishes (working : Working setup answers trace sent) (willing : Willing answers trace) :
    ∃ N, ∀ n, N ≤ n → (trace n).Finished := by
  have empty : ∀ m, (trace 0).requestScheduler.buffered.length ≤ m →
      (trace m).requestScheduler.buffered = [] := fun m hm => working.buffered_nil hm
  obtain ⟨N, after, zero⟩ := settles (μ := fun n => (trace n).commandScheduler.load)
    (fun n hn => by have := working.load_falls (empty n hn); omega) fun n hn waits => by
      have from_ : ∀ m, n ≤ m → (trace m).requestScheduler.buffered = [] :=
        fun m hm => empty m (le_trans hn hm)
      obtain ⟨m, hm, some_⟩ := working.sends_of_willing willing from_ waits
      exact ⟨m + 1, by omega, working.load_drops from_ hm some_⟩
  exact ⟨_, fun n hn => working.finished (fun m hm => empty m (le_trans after hm)) zero hn⟩

/-- The cycles in which a memory system gets through the work ahead of it, with a device that makes no
command wait longer. -/
def cyclesAhead (setup : Setup) (wait : Nat) (c : MemoryController ρ κ) : Nat :=
  c.requestScheduler.buffered.length + (wait + 1) * c.ahead setup

/-- **A prompt device: everything completes in time.** -/
theorem finishes_within (working : Working setup answers trace sent) {wait horizon : Nat}
    (prompt : Prompt wait horizon answers trace)
    (within : ∀ n, (trace n).commandScheduler.Within wait)
    (room : cyclesAhead setup wait (trace 0) ≤ horizon) {n : Nat}
    (later : cyclesAhead setup wait (trace 0) + max (setup.device.constraints.writeDelay false)
      setup.device.constraints.readDelay ≤ n) : (trace n).Finished := by
  have empty : ∀ m, (trace 0).requestScheduler.buffered.length ≤ m →
      (trace m).requestScheduler.buffered = [] := fun m hm => working.buffered_nil hm
  have start : (trace (trace 0).requestScheduler.buffered.length).commandScheduler.load ≤
      (trace 0).ahead setup :=
    le_trans (Nat.le_add_right _ _) (working.ahead_le (trace 0).requestScheduler.buffered.length)
  have scaled := Nat.mul_le_mul_left (wait + 1) start
  unfold cyclesAhead at room later
  have zero := settles_within (μ := fun n => (trace n).commandScheduler.load) (wait + 1) horizon
    (fun n hn => by have := working.load_falls (empty n hn); omega) (fun n hn inside waits => by
      have from_ : ∀ m, n ≤ m → (trace m).requestScheduler.buffered = [] :=
        fun m hm => empty m (le_trans hn hm)
      obtain ⟨m, hm, small, some_⟩ := working.sends_of_prompt prompt within (by omega) from_ waits
      have dropped := working.load_drops from_ hm some_
      have falls := always (P := fun k => (trace k).commandScheduler.load ≤
        (trace (m + 1)).commandScheduler.load) (n := m + 1) (Nat.le_refl _) (fun k hk le => by
          have := working.load_falls (from_ k (by omega))
          omega) (n + (wait + 1)) (by omega)
      exact lt_of_le_of_lt falls dropped) (by omega)
  exact working.finished (n := (trace 0).requestScheduler.buffered.length + (wait + 1) *
    (trace (trace 0).requestScheduler.buffered.length).commandScheduler.load)
    (fun m hm => empty m (by omega)) (fun m hm => zero m hm) (by omega)

end Stages

/-! ## Runs -/

/-- The general schedulers are eager. -/
theorem Components.General.eager {parts : Components Unit Unit} (general : parts.General) :
    parts.commandScheduler.Eager := by
  rcases general.2.2 with h | h | h
  · exact h ▸ Push.policy_eager
  · exact h ▸ Fcfs.policy_eager
  · exact h ▸ Frfcfs.policy_eager

namespace MemorySystem

variable {setup : Setup} {parts : Components ρ κ} {answers : Nat → Answers × Answers}

/-- From a memory system in order every event that fits can happen. -/
theorem able_progress (open_ : setup.OpenPage) (opens : parts.OpenPage)
    (eager : parts.commandScheduler.Eager) (delays : Delays setup) {c : MemoryController ρ κ} {e : Event}
    (able : Able setup c) (fits : e.Fits setup) (sized : e.Sized setup) :
    ∃ c' o, step setup parts c e = some (c', o) ∧ Able setup c' := by
  obtain ⟨c', o, stepped, _⟩ := step_defined open_ opens able.accounted able.fits fits sized
  exact ⟨c', o, stepped, step_able open_ opens eager delays able fits sized stepped⟩

/-- A memory system in order, left to its cycles. -/
theorem exists_cycles (open_ : setup.OpenPage) (opens : parts.OpenPage)
    (eager : parts.commandScheduler.Eager) (delays : Delays setup) {c : MemoryController ρ κ}
    (able : Able setup c) (answers : Nat → Answers × Answers) :
    ∃ trace, trace 0 = c ∧ Behaviour (step setup parts) (cycles answers) trace := by
  obtain ⟨trace, start, behaviour, _⟩ := exists_behaviour (step setup parts) (cycles answers)
    (Able setup)
    (fun n able => able_progress open_ opens eager delays able trivial trivial) able
  exact ⟨trace, start, behaviour⟩

/-- Cycles accept no request. -/
theorem accepted_cycles (open_ : setup.OpenPage) (opens : parts.OpenPage)
    (eager : parts.commandScheduler.Eager) {trace : Nat → MemoryController ρ κ}
    (behaviour : Behaviour (step setup parts) (cycles answers) trace)
    (able : ∀ n, Able setup (trace n)) (n : Nat) : (trace n).accepted = (trace 0).accepted := by
  induction n with
  | zero => rfl
  | succ n ih =>
    obtain ⟨o, stepped⟩ := behaviour n
    exact (turn_of_step open_ opens eager (able n).accounted.wired (able n).fits stepped).accepted.trans ih

/-- **Every accepted request completes.** With one general request buffer, `OPEN`, a queue for each bank,
no refresh and any of the general schedulers: after any events, and with any device that refuses no
command for ever once it is handed no more, the memory system comes to a point from which on exactly the
accepted requests were reported, each once, and none is pending. -/
theorem openPage_progress (open_ : setup.OpenPage) (noRefresh : setup.refresh_mechanism = .none)
    (delays : Delays setup) {parts : Components Unit Unit} (general : parts.General)
    (refreshCounting bank_release : Nat) (events : List Event) (fit : ∀ e ∈ events, e.Fits setup)
    (sized : ∀ e ∈ events, e.Sized setup) (answers : Nat → Answers × Answers) :
    ∃ c os trace, run (step setup parts) (create setup parts refreshCounting bank_release) events =
        some (c, os) ∧
      trace 0 = c ∧ Behaviour (step setup parts) (cycles answers) trace ∧
      (Willing answers trace →
        ∃ N, ∀ n, N ≤ n → (trace n).Finished ∧ (trace n).accepted = c.accepted) := by
  have opens := general.openPage
  have eager := general.eager
  have start := able_create open_ noRefresh parts refreshCounting bank_release
  obtain ⟨c, os, ran⟩ := run_defined (Able setup) (fun e => e.Fits setup ∧ e.Sized setup)
    (fun able he => able_progress open_ opens eager delays able he.1 he.2) start
    fun e he => ⟨fit e he, sized e he⟩
  have along := along_of_forall (step setup parts) (create setup parts refreshCounting bank_release)
    fun e he => (⟨fit e he, sized e he⟩ : e.Fits setup ∧ e.Sized setup)
  have able : Able setup c := run_invariant_along (Able setup)
    (fun able stepped he => step_able open_ opens eager delays able he.1 he.2 stepped) start along ran
  obtain ⟨trace, first, behaviour⟩ := exists_cycles open_ opens eager delays able answers
  refine ⟨c, os, trace, ran, first, behaviour, fun willing => ?_⟩
  obtain ⟨sent, working⟩ := exists_working open_ opens eager delays (first ▸ able) behaviour
  obtain ⟨N, done⟩ := finishes working willing
  refine ⟨N, fun n hn => ⟨done n hn, ?_⟩⟩
  rw [accepted_cycles open_ opens eager behaviour (fun n => (working n).1) n, first]

/-- The law at two reads of one address and a write, in the set-up of `FRFCFS.ini`, with a device that
takes everything. -/
theorem openPage_progress_frfcfsIni :
    ∃ c os trace, run (step openPageSetup frfcfsIni) (create openPageSetup frfcfsIni 0 0)
        [.addRequest 1 0 true 128, .addRequest 1 0 true 64, .addRequest 1 64 false 64] = some (c, os) ∧
      trace 0 = c ∧
      Behaviour (step openPageSetup frfcfsIni) (cycles fun _ => (fun _ => true, fun _ => true)) trace ∧
      ∃ N, ∀ n, N ≤ n → (trace n).Finished := by
  obtain ⟨c, os, trace, ran, first, behaviour, law⟩ := @openPage_progress openPageSetup
    ⟨⟨by decide, rfl, rfl, rfl, rfl, rfl, rfl, fun _ => rfl⟩, rfl, rfl, rfl⟩ rfl
    ⟨by decide, by decide⟩ frfcfsIni ⟨.inr rfl, rfl, .inl rfl⟩ 0 0
    [.addRequest 1 0 true 128, .addRequest 1 0 true 64, .addRequest 1 64 false 64]
    (fun e he => by
      simp only [List.mem_cons, List.not_mem_nil, or_false] at he
      rcases he with rfl | rfl | rfl <;> exact fun _ => by decide)
    (fun e he => by
      simp only [List.mem_cons, List.not_mem_nil, or_false] at he
      rcases he with rfl | rfl | rfl <;> exact ⟨by decide, by decide, by decide⟩)
    fun _ => (fun _ => true, fun _ => true)
  obtain ⟨N, done⟩ := law fun n x _ _ _ => ⟨n, Nat.le_refl n, rfl⟩
  exact ⟨c, os, trace, ran, first, behaviour, N, fun n hn => (done n hn).1⟩

end MemorySystem
end MCsim
