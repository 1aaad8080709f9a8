import MCsim.Laws.Refresh
import Mathlib.Data.List.Chain

/-!
# What `popCommand` reads

`popCommand` reads the front of the buffer twice: the command it erases, and what has come to the front
since. It asks whether there is a command before the erasure and not after it, so the second read is of
an empty buffer where the command was the last.

`PopRun` runs `step` and `refresh` and notes for every buffered command by which call of
`commandGenerate` it was made. An activation only ever follows a command of its own group (`Entries`),
because no group that has a refresh starts with one. The countdown of a refresh and the bank that its end
releases are therefore right in every run.
-/

namespace MCsim
namespace RefreshMachine

/-- `popCommand` with every read of the front a step of its own, undefined on an empty buffer. -/
def popDefined (m : RefreshMachine) : Option RefreshMachine :=
  m.commandBuffer.head?.bind fun c =>
    let m := m.startCounting c
    let rest := m.commandBuffer.tail
    rest.head?.map fun next =>
      { m with
        commandBuffer := rest
        refreshCounting :=
          if next.busPacketType = .ACT then (m.refreshCounting + m.tRCD) % 2 ^ 32
          else m.refreshCounting }

theorem commandBuffer_startCounting (m : RefreshMachine) (c : BusPacket) :
    (m.startCounting c).commandBuffer = m.commandBuffer := by
  unfold startCounting
  split <;> rfl

/-- **Every read is of a command** exactly where two are buffered. -/
theorem popDefined_eq (m : RefreshMachine) :
    m.popDefined = if 2 ≤ m.commandBuffer.length then some m.popCommand else none := by
  unfold popDefined popCommand
  dsimp only
  match buffer : m.commandBuffer with
  | [] => rfl
  | [c] => simp [commandBuffer_startCounting, buffer]
  | c :: next :: rest => simp [commandBuffer_startCounting, buffer]

/-- The command that a call of `CommandScheduler::refresh` sends. -/
def handed (check : Answers) (m : RefreshMachine) : Option BusPacket :=
  if m.reachInterval then m.refresh.2.filter check else none

/-- The machine a command is handed out by: the end of a countdown closes the interval first. -/
def closed (m : RefreshMachine) : RefreshMachine := if m.Due then m.released else m

theorem commandBuffer_closed (m : RefreshMachine) : m.closed.commandBuffer = m.commandBuffer := by
  unfold closed
  split <;> rfl

/-- A command that is handed out is the front. -/
theorem front_of_handed {check : Answers} {m : RefreshMachine} {c : BusPacket}
    (sent : handed check m = some c) : m.commandBuffer.head? = some c := by
  unfold handed refresh at sent
  split at sent
  · split at sent
    · exact (Option.filter_eq_some_iff.mp sent).1
    · split at sent
      · cases sent
      · exact (Option.filter_eq_some_iff.mp sent).1
  · cases sent

end RefreshMachine

open RefreshMachine

/-- **A call of `refresh`**: the interval is closed where a countdown has ended, and what is handed out
is popped. -/
theorem CommandScheduler.refresh_machine (s : CommandScheduler) (spec : DeviceSpec) (check : Answers) :
    (s.refresh spec check).refreshMachine =
      if (handed check s.refreshMachine).isSome then s.refreshMachine.closed.popCommand
      else s.refreshMachine.closed := by
  have whole : s.refreshMachine.reachInterval = true →
      s.refreshMachine.refresh.1 = s.refreshMachine.closed := by
    intro interval
    unfold RefreshMachine.refresh closed
    by_cases due : s.refreshMachine.refreshCounting = 0 ∧ s.refreshMachine.flag = true
    · have here : s.refreshMachine.Due := ⟨interval, due.2, due.1⟩
      rw [if_pos due, if_pos here]
      rfl
    · have not : ¬ s.refreshMachine.Due := fun h => due ⟨h.2.2, h.2.1⟩
      rw [if_neg due, if_neg not]
  unfold CommandScheduler.refresh handed
  by_cases interval : s.refreshMachine.reachInterval = true
  · rw [if_pos interval, if_pos interval]
    have machine := whole interval
    generalize s.refreshMachine.refresh = answer at machine
    obtain ⟨m, _ | c⟩ := answer
    · exact machine
    · obtain rfl : m = s.refreshMachine.closed := machine
      dsimp only
      by_cases taken : check c = true <;> simp [taken]
  · have not : ¬ s.refreshMachine.Due := fun h => interval h.1
    rw [if_neg interval, if_neg interval]
    simp [closed, not]

/-! ## Runs -/

/-- The scheduler, the buffered commands with the number of the group each was made for, the number of
the next group, and the bank of the last `REFPB` that was sent. -/
structure PopRun where
  scheduler : CommandScheduler
  entries : List (BusPacket × Nat) := []
  groups : Nat := 0
  refreshed : Option Nat := none

namespace PopRun

abbrev machine (r : PopRun) : RefreshMachine := r.scheduler.refreshMachine

/-- One event, with the command it sends. -/
def step (spec : DeviceSpec) : Lib.Machine.Step PopRun RefreshEvent (Option BusPacket)
  | r, .step queues =>
    some ({ r with
      scheduler := { r.scheduler with refreshMachine := r.machine.step queues }
      entries := if r.machine.countdown = 0 then
          r.entries ++ (r.machine.group queues).map (·, r.groups) else r.entries
      groups := if r.machine.countdown = 0 then r.groups + 1 else r.groups }, none)
  | r, .refresh check =>
    let sent := handed check r.machine
    some ({ r with
      scheduler := r.scheduler.refresh spec check
      entries := if sent.isSome then r.entries.tail else r.entries
      refreshed := match sent with
        | some c => if c.busPacketType = .REFPB then some c.bank else r.refreshed
        | none => r.refreshed }, sent)

/-- A refresh machine as it is built, in some scheduler. -/
def start (s : CommandScheduler) (mechanism : RefreshMechanism) (spec : DeviceSpec)
    (refreshCounting bank_release : Nat) : PopRun where
  scheduler := { s with
    refreshMachine := RefreshMachine.create mechanism spec refreshCounting bank_release }

/-- An activation of the same group comes next. -/
def Followed (r : PopRun) : Prop :=
  ∃ x y rest, r.entries = x :: y :: rest ∧ y.1.busPacketType = .ACT ∧ y.2 = x.2

/-- How long a refresh command takes. -/
def duration (spec : DeviceSpec) (c : BusPacket) : Nat :=
  if c.busPacketType = .REF then spec.constraints.tRFC else spec.constraints.tRFCpb

/-- A refresh is counted down for its time and that of the activation after it, and the end of a
countdown releases the bank that was refreshed last. -/
structure Timed (spec : DeviceSpec) (r : PopRun) (e : RefreshEvent) (r' : PopRun)
    (sent : Option BusPacket) : Prop where
  counts : ∀ c ∈ sent, isRefresh c = true →
    (r.Followed → r'.machine.refreshCounting =
      (duration spec c + spec.constraints.tRCD) % 2 ^ 32) ∧
    (¬ r.Followed → r'.machine.refreshCounting = duration spec c)
  releases : ∀ check, e = .refresh check → r.machine.refresh_mechanism = .perBank →
    if r.machine.Due then ∃ bank, r.refreshed = some bank ∧
      ∀ b, r'.machine.busyBank b = if b = bank then false else r.machine.busyBank b
    else ∀ b, r'.machine.busyBank b = r.machine.busyBank b

/-- What is claimed of an event: a pop reads commands, and the times are right. -/
structure Sound (spec : DeviceSpec) (r : PopRun) (e : RefreshEvent) (r' : PopRun)
    (sent : Option BusPacket) : Prop extends Timed spec r e r' sent where
  reads : sent.isSome = true → (r.machine.closed.popDefined).isSome = true

/-- A command is sent only while another one is behind it. -/
def Behind (r : PopRun) : RefreshEvent → Prop
  | .step _ => True
  | .refresh check => (handed check r.machine).isSome = true → 2 ≤ r.machine.commandBuffer.length

instance (r : PopRun) : (e : RefreshEvent) → Decidable (Behind r e)
  | .step _ => .isTrue trivial
  | .refresh check => inferInstanceAs (Decidable
      ((handed check r.machine).isSome = true → 2 ≤ r.machine.commandBuffer.length))

/-! ## Groups -/

/-- Two commands that stand one behind the other in the buffer. -/
def Adjacent (x y : BusPacket × Nat) : Prop :=
  isRefresh x.1 = true → y.1.busPacketType = .ACT → y.2 = x.2

/-- What the buffered commands of a mechanism are. -/
structure Entries (m : RefreshMachine) (entries : List (BusPacket × Nat)) : Prop where
  buffer : entries.map Prod.fst = m.commandBuffer
  adjacent : entries.IsChain Adjacent
  ranked : m.refresh_mechanism = .distributed → ∀ x ∈ entries, isRefresh x.1 = true → 0 < m.ranks
  perBank : m.refresh_mechanism = .perBank → ∀ x ∈ entries, x.1.busPacketType ≠ .REF

/-- What a run keeps. -/
structure Inv (spec : DeviceSpec) (r : PopRun) : Prop where
  mechanism : r.machine.refresh_mechanism = .distributed ∨ r.machine.refresh_mechanism = .perBank
  times : r.machine.tRFC = spec.constraints.tRFC ∧ r.machine.tRFCpb = spec.constraints.tRFCpb ∧
    r.machine.tRCD = spec.constraints.tRCD
  entries : Entries r.machine r.entries
  last : r.machine.refresh_mechanism = .perBank → r.machine.flag = true →
    r.refreshed = some r.machine.bank_release

/-- What a queue adds to a group of a per-bank refresh starts with a precharge. -/
theorem head_queueCommands {m : RefreshMachine} (perBank : m.refresh_mechanism = .perBank)
    {queues : List CommandQueue} {c : BusPacket}
    (first : (queues.flatMap m.queueCommands).head? = some c) : c.busPacketType = .PRE := by
  induction queues with
  | nil => cases first
  | cons q queues ih =>
    rw [List.flatMap_cons, List.head?_append] at first
    by_cases filled : m.queueCommands q = []
    · rw [filled] at first
      exact ih (by simpa using first)
    · obtain ⟨_, _, added⟩ := RefreshRun.queueCommands_eq filled
      rw [(added perBank).2] at first
      obtain rfl : _ = c := Option.some.inj first
      rfl

/-- **No group with a refresh starts with an activation.** -/
theorem head_group {m : RefreshMachine}
    (refreshes : m.refresh_mechanism = .distributed ∨ m.refresh_mechanism = .perBank)
    (ranked : m.refresh_mechanism = .distributed → 0 < m.ranks) {queues : List CommandQueue}
    {c : BusPacket} (first : (m.group queues).head? = some c) : c.busPacketType ≠ .ACT := by
  unfold RefreshMachine.group at first
  rcases refreshes with mech | mech
  · obtain ⟨n, ranks⟩ : ∃ n, m.ranks = n + 1 := ⟨m.ranks - 1, by have := ranked mech; omega⟩
    have opens : (m.rankCommands ++ queues.flatMap m.queueCommands).head? =
        some (refreshCommand .PREA 0 0 0) := by
      simp [rankCommands, ranks, List.range_succ_eq_map]
    rw [mech] at first
    obtain rfl := Option.some.inj (opens.symm.trans first)
    simp [refreshCommand]
  · simp only [mech] at first
    split at first
    · obtain rfl : _ = c := Option.some.inj first
      simp [refreshCommand]
    · rw [head_queueCommands mech first]
      simp

/-- The refresh commands of a group: `REF` of the ranks, or `REFPB`. -/
theorem mem_group {m : RefreshMachine}
    (refreshes : m.refresh_mechanism = .distributed ∨ m.refresh_mechanism = .perBank)
    {queues : List CommandQueue} {c : BusPacket} (member : c ∈ m.group queues) :
    (m.refresh_mechanism = .distributed → isRefresh c = true → 0 < m.ranks) ∧
      (m.refresh_mechanism = .perBank → c.busPacketType ≠ .REF) := by
  have fromQueues : c ∈ queues.flatMap m.queueCommands →
      (m.refresh_mechanism = .distributed → isRefresh c = true → 0 < m.ranks) ∧
        (m.refresh_mechanism = .perBank → c.busPacketType ≠ .REF) := by
    intro listed
    obtain ⟨q, _, hc⟩ := List.mem_flatMap.mp listed
    obtain ⟨_, distributed, perBank⟩ := RefreshRun.queueCommands_eq (List.ne_nil_of_mem hc)
    constructor
    · intro mech
      rw [distributed mech, List.mem_singleton] at hc
      rw [hc]
      intro refresh
      cases refresh
    · intro mech
      rw [(perBank mech).2] at hc
      simp only [List.mem_cons, List.not_mem_nil, or_false] at hc
      rcases hc with rfl | rfl | rfl <;> simp [refreshCommand]
  unfold RefreshMachine.group at member
  rcases refreshes with mech | mech
  · rw [mech] at member
    rcases List.mem_append.mp member with ranked | listed
    · obtain ⟨rank, bound, _⟩ := List.mem_flatMap.mp ranked
      have := List.mem_range.mp bound
      exact ⟨fun _ _ => by omega, fun other => by cases mech.symm.trans other⟩
    · exact fromQueues listed
  · simp only [mech] at member
    split at member
    · obtain rfl := List.mem_singleton.mp member
      exact ⟨fun other => (by cases mech.symm.trans other), fun _ => by simp [refreshCommand]⟩
    · exact fromQueues member

/-- A group joins the end of the buffer. -/
theorem Entries.join {m m' : RefreshMachine} {entries : List (BusPacket × Nat)}
    (h : Entries m entries)
    (refreshes : m.refresh_mechanism = .distributed ∨ m.refresh_mechanism = .perBank)
    {queues : List CommandQueue} (number : Nat)
    (buffer : m'.commandBuffer = m.commandBuffer ++ m.group queues)
    (mechanism : m'.refresh_mechanism = m.refresh_mechanism) (ranks : m'.ranks = m.ranks) :
    Entries m' (entries ++ (m.group queues).map (·, number)) := by
  have joined : ∀ x ∈ (m.group queues).map (·, number), x.1 ∈ m.group queues := by
    intro x hx
    obtain ⟨c, hc, rfl⟩ := List.mem_map.mp hx
    exact hc
  refine ⟨?_, List.IsChain.append h.adjacent ?_ ?_, ?_, ?_⟩
  · rw [List.map_append, h.buffer, buffer, List.map_map]
    congr 1
    exact List.map_id _
  · apply List.Pairwise.isChain
    rw [List.pairwise_map]
    exact List.pairwise_of_forall fun _ _ _ _ => rfl
  · intro x hx y hy refresh activation
    have first : (m.group queues).head? = some y.1 := by
      rw [Option.mem_def, List.head?_map] at hy
      obtain ⟨c, hc, rfl⟩ := Option.map_eq_some_iff.mp hy
      exact hc
    exact absurd activation (head_group refreshes
      (fun mech => h.ranked mech x (List.mem_of_getLast? hx) refresh) first)
  · intro mech x hx refresh
    rw [mechanism] at mech
    rw [ranks]
    rcases List.mem_append.mp hx with hx | hx
    · exact h.ranked mech x hx refresh
    · exact (mem_group refreshes (joined x hx)).1 mech refresh
  · intro mech x hx
    rw [mechanism] at mech
    rcases List.mem_append.mp hx with hx | hx
    · exact h.perBank mech x hx
    · exact (mem_group refreshes (joined x hx)).2 mech

/-- The front leaves the buffer. -/
theorem Entries.pop {m m' : RefreshMachine} {x : BusPacket × Nat} {rest : List (BusPacket × Nat)}
    (h : Entries m (x :: rest)) (buffer : m'.commandBuffer = m.commandBuffer.tail)
    (mechanism : m'.refresh_mechanism = m.refresh_mechanism) (ranks : m'.ranks = m.ranks) :
    Entries m' rest := by
  refine ⟨?_, h.adjacent.tail, ?_, ?_⟩
  · rw [buffer, ← h.buffer]
    rfl
  · intro mech y hy
    rw [mechanism] at mech
    rw [ranks]
    exact h.ranked mech y (List.mem_cons_of_mem x hy)
  · intro mech y hy
    rw [mechanism] at mech
    exact h.perBank mech y (List.mem_cons_of_mem x hy)

/-- The buffer, the mechanism and the ranks are all that the entries speak of. -/
theorem Entries.congr {m m' : RefreshMachine} {entries : List (BusPacket × Nat)} (h : Entries m entries)
    (buffer : m'.commandBuffer = m.commandBuffer)
    (mechanism : m'.refresh_mechanism = m.refresh_mechanism) (ranks : m'.ranks = m.ranks) :
    Entries m' entries := by
  refine ⟨h.buffer.trans buffer.symm, h.adjacent, ?_, ?_⟩
  · rw [mechanism, ranks]
    exact h.ranked
  · rw [mechanism]
    exact h.perBank

/-! ## One event -/

variable {spec : DeviceSpec} {r r' : PopRun} {sent : Option BusPacket}

/-- What does not change when a countdown ends. -/
theorem closed_frame (m : RefreshMachine) :
    m.closed.refresh_mechanism = m.refresh_mechanism ∧ m.closed.ranks = m.ranks ∧
      m.closed.tRFC = m.tRFC ∧ m.closed.tRFCpb = m.tRFCpb ∧ m.closed.tRCD = m.tRCD ∧
      m.closed.bank_release = m.bank_release := by
  unfold closed
  split <;> exact ⟨rfl, rfl, rfl, rfl, rfl, rfl⟩

/-- The countdown that a popped refresh starts. -/
theorem popCommand_counting {m : RefreshMachine} {c : BusPacket} {rest : List BusPacket}
    (front : m.commandBuffer = c :: rest) (refresh : isRefresh c = true) :
    m.popCommand.refreshCounting =
      if ∃ next ∈ rest.head?, next.busPacketType = .ACT then
        ((if c.busPacketType = .REF then m.tRFC else m.tRFCpb) + m.tRCD) % 2 ^ 32
      else if c.busPacketType = .REF then m.tRFC else m.tRFCpb := by
  have type : c.busPacketType = .REF ∨ c.busPacketType = .REFPB := by
    simpa [isRefresh] using refresh
  unfold popCommand
  rw [front]
  cases rest with
  | nil => rcases type with type | type <;> simp [startCounting, type]
  | cons next rest =>
    by_cases activation : next.busPacketType = .ACT <;> rcases type with type | type <;>
      simp [startCounting, type, activation]

/-- The end of a countdown sets no flag. -/
theorem flag_of_closed {m : RefreshMachine} (flag : m.closed.flag = true) : m.flag = true := by
  unfold closed at flag
  split at flag
  · next due => exact due.2.1
  · exact flag

/-- The parameters of a machine never change. -/
theorem Inv.carried (inv : Inv spec r)
    (mechanism : r'.machine.refresh_mechanism = r.machine.refresh_mechanism)
    (times : r'.machine.tRFC = r.machine.tRFC ∧ r'.machine.tRFCpb = r.machine.tRFCpb ∧
      r'.machine.tRCD = r.machine.tRCD)
    (entries : Entries r'.machine r'.entries)
    (last : r.machine.refresh_mechanism = .perBank → r'.machine.flag = true →
      r'.refreshed = some r'.machine.bank_release) : Inv spec r' := by
  obtain ⟨tRFC, tRFCpb, tRCD⟩ := times
  refine ⟨?_, ?_, entries, fun perBank => last (mechanism ▸ perBank)⟩
  · rw [mechanism]
    exact inv.mechanism
  · rw [tRFC, tRFCpb, tRCD]
    exact inv.times

/-- A cycle may add a group. -/
theorem Inv.stepped (inv : Inv spec r) {queues : List CommandQueue}
    (h : step spec r (.step queues) = some (r', sent)) : Inv spec r' := by
  obtain ⟨rfl, _⟩ := Prod.mk.inj (Option.some.inj h)
  have machine := step_eq r.machine queues
  by_cases ends : r.machine.countdown = 0
  · rw [if_pos ends] at machine
    refine inv.carried (by dsimp only; rw [machine]) (by dsimp only; rw [machine]; exact ⟨rfl, rfl, rfl⟩)
      ?_ (by dsimp only; rw [machine]; exact inv.last)
    show Entries (r.machine.step queues) (if r.machine.countdown = 0 then _ else _)
    rw [if_pos ends]
    exact inv.entries.join inv.mechanism r.groups (by rw [machine]) (by rw [machine])
      (by rw [machine])
  · rw [if_neg ends] at machine
    refine inv.carried (by dsimp only; rw [machine]) (by dsimp only; rw [machine]; exact ⟨rfl, rfl, rfl⟩)
      ?_ (by dsimp only; rw [machine]; exact inv.last)
    show Entries (r.machine.step queues) (if r.machine.countdown = 0 then _ else _)
    rw [if_neg ends]
    exact inv.entries.congr (by rw [machine]) (by rw [machine]) (by rw [machine])

/-- A call that sends nothing closes the interval at most. -/
theorem Inv.closes (inv : Inv spec r) (machine : r'.machine = r.machine.closed)
    (entries : r'.entries = r.entries) (refreshed : r'.refreshed = r.refreshed) : Inv spec r' := by
  obtain ⟨mech, ranks, tRFC, tRFCpb, tRCD, released⟩ := closed_frame r.machine
  rw [← machine] at mech ranks tRFC tRFCpb tRCD released
  apply inv.carried mech ⟨tRFC, tRFCpb, tRCD⟩
  · rw [entries]
    exact inv.entries.congr (machine ▸ commandBuffer_closed r.machine) mech ranks
  · intro perBank flag
    rw [refreshed, released]
    exact inv.last perBank (flag_of_closed (machine ▸ flag))

/-- A call that sends the front pops it. -/
theorem Inv.pops (inv : Inv spec r) {c : BusPacket} (front : r.machine.commandBuffer.head? = some c)
    (machine : r'.machine = r.machine.closed.popCommand) (entries : r'.entries = r.entries.tail)
    (refreshed : r'.refreshed = if c.busPacketType = .REFPB then some c.bank else r.refreshed) :
    Inv spec r' := by
  obtain ⟨mech, ranks, tRFC, tRFCpb, tRCD, released⟩ := closed_frame r.machine
  obtain ⟨rest, front⟩ := List.head?_eq_some_iff.mp front
  obtain ⟨x, others, listed, first⟩ : ∃ x others, r.entries = x :: others ∧ x.1 = c := by
    have buffer := inv.entries.buffer
    rw [front] at buffer
    obtain ⟨x, others, listed, first, _⟩ := List.map_eq_cons_iff.mp buffer
    exact ⟨x, others, listed, first⟩
  obtain ⟨n, popped⟩ := popCommand_eq (m := r.machine.closed)
    ((commandBuffer_closed r.machine).trans front)
  rw [popped] at machine
  apply inv.carried
  · rw [machine, ← mech]
  · rw [machine, ← tRFC, ← tRFCpb, ← tRCD]
    exact ⟨rfl, rfl, rfl⟩
  · have waits := inv.entries
    rw [listed] at waits
    rw [entries, listed]
    apply waits.pop
    · rw [machine, front]
      rfl
    · rw [machine, ← mech]
    · rw [machine, ← ranks]
  · intro perBank flag
    rw [machine] at flag ⊢
    rw [refreshed]
    dsimp only at flag ⊢
    have notRef : c.busPacketType ≠ .REF := by
      have member := inv.entries.perBank perBank x (listed ▸ List.mem_cons_self)
      rwa [first] at member
    by_cases own : c.busPacketType = .REFPB
    · have refresh : isRefresh c = true := by simp [isRefresh, own]
      rw [if_pos own, if_pos refresh]
    · have other : isRefresh c = false := by simp [isRefresh, own, notRef]
      rw [other, Bool.false_or] at flag
      rw [if_neg own, other, if_neg Bool.false_ne_true, released]
      exact inv.last perBank (flag_of_closed flag)

/-- **Every event keeps the invariant.** -/
theorem step_inv {e : RefreshEvent} (inv : Inv spec r) (h : step spec r e = some (r', sent)) :
    Inv spec r' := by
  cases e with
  | step queues => exact inv.stepped h
  | refresh check =>
    obtain ⟨rfl, rfl⟩ := Prod.mk.inj (Option.some.inj h)
    have machine := r.scheduler.refresh_machine spec check
    cases sent : handed check r.machine with
    | none =>
      rw [sent] at machine
      exact inv.closes machine rfl rfl
    | some c =>
      rw [sent] at machine
      exact inv.pops (front_of_handed sent) machine rfl rfl

/-- The busy flags after a call: those of the machine whose interval was closed. -/
theorem busyBank_refresh (s : CommandScheduler) (check : Answers) (bank : Nat) :
    (s.refresh spec check).refreshMachine.busyBank bank = s.refreshMachine.closed.busyBank bank := by
  rw [s.refresh_machine spec check]
  cases sent : handed check s.refreshMachine with
  | none => rfl
  | some c =>
    obtain ⟨rest, front⟩ := List.head?_eq_some_iff.mp (front_of_handed sent)
    obtain ⟨n, popped⟩ := popCommand_eq (m := s.refreshMachine.closed)
      ((commandBuffer_closed s.refreshMachine).trans front)
    show s.refreshMachine.closed.popCommand.busyBank bank = _
    rw [popped]
    rfl

/-- **The end of a countdown releases the bank that was refreshed last.** -/
theorem refresh_releases (inv : Inv spec r) (check : Answers)
    (perBank : r.machine.refresh_mechanism = .perBank) :
    if r.machine.Due then ∃ bank, r.refreshed = some bank ∧
      ∀ b, (r.scheduler.refresh spec check).refreshMachine.busyBank b =
        if b = bank then false else r.machine.busyBank b
    else ∀ b, (r.scheduler.refresh spec check).refreshMachine.busyBank b = r.machine.busyBank b := by
  by_cases due : r.machine.Due
  · rw [if_pos due]
    refine ⟨r.machine.bank_release, inv.last perBank due.2.1, fun b => ?_⟩
    rw [busyBank_refresh, closed, if_pos due]
    show r.machine.releaseBanks b = _
    unfold releaseBanks
    rw [perBank]
    rfl
  · rw [if_neg due]
    intro b
    rw [busyBank_refresh, closed, if_neg due]

/-- **A refresh is counted down for its time**, and for that of the activation of its group. -/
theorem refresh_counts (inv : Inv spec r) {check : Answers} {c : BusPacket}
    (sent : handed check r.machine = some c) (refresh : isRefresh c = true) :
    (r.Followed → (r.scheduler.refresh spec check).refreshMachine.refreshCounting =
      (duration spec c + spec.constraints.tRCD) % 2 ^ 32) ∧
    (¬ r.Followed → (r.scheduler.refresh spec check).refreshMachine.refreshCounting =
      duration spec c) := by
  obtain ⟨rest, front⟩ := List.head?_eq_some_iff.mp (front_of_handed sent)
  obtain ⟨_, _, tRFC, tRFCpb, tRCD, _⟩ := closed_frame r.machine
  obtain ⟨timeREF, timeREFPB, timeACT⟩ := inv.times
  have buffer := inv.entries.buffer
  rw [front] at buffer
  obtain ⟨x, others, listed, rfl, rfl⟩ := List.map_eq_cons_iff.mp buffer
  -- an activation that comes next is of the same group
  have next : (∃ y ∈ (others.map Prod.fst).head?, y.busPacketType = .ACT) ↔ r.Followed := by
    rw [List.head?_map]
    constructor
    · rintro ⟨_, hy, activation⟩
      obtain ⟨y, first, rfl⟩ := Option.map_eq_some_iff.mp hy
      obtain ⟨rest, rfl⟩ := List.head?_eq_some_iff.mp first
      have adjacent := inv.entries.adjacent
      rw [listed] at adjacent
      exact ⟨x, y, rest, listed, activation, (List.isChain_cons_cons.mp adjacent).1 refresh activation⟩
    · rintro ⟨x', y, rest, listed', activation, _⟩
      obtain ⟨rfl, rfl⟩ := List.cons.inj (listed.symm.trans listed')
      exact ⟨y.1, rfl, activation⟩
  have counting := popCommand_counting (m := r.machine.closed)
    ((commandBuffer_closed r.machine).trans front) refresh
  have machine := r.scheduler.refresh_machine spec check
  rw [sent] at machine
  have machine : (r.scheduler.refresh spec check).refreshMachine = r.machine.closed.popCommand :=
    machine
  rw [machine, counting, tRFC, tRFCpb, tRCD, timeREF, timeREFPB, timeACT]
  unfold duration
  constructor
  · intro followed
    rw [if_pos (next.mpr followed)]
  · intro alone
    rw [if_neg fun h => alone (next.mp h)]

/-- The times of every event are right. -/
theorem step_timed {e : RefreshEvent} (inv : Inv spec r) (h : step spec r e = some (r', sent)) :
    Timed spec r e r' sent := by
  constructor
  · intro c hc refresh
    cases e with
    | step queues =>
      obtain ⟨_, rfl⟩ := Prod.mk.inj (Option.some.inj h)
      cases hc
    | refresh check =>
      obtain ⟨rfl, rfl⟩ := Prod.mk.inj (Option.some.inj h)
      exact refresh_counts inv hc refresh
  · rintro check rfl perBank
    obtain ⟨rfl, _⟩ := Prod.mk.inj (Option.some.inj h)
    exact refresh_releases inv check perBank

/-- An event is sound exactly where it sends no last command. -/
theorem sound_iff {e : RefreshEvent} (inv : Inv spec r) (h : step spec r e = some (r', sent)) :
    Sound spec r e r' sent ↔ Behind r e := by
  have reads : r.machine.closed.popDefined.isSome = true ↔ 2 ≤ r.machine.commandBuffer.length := by
    rw [popDefined_eq, commandBuffer_closed]
    split <;> simp [*]
  have timed := step_timed inv h
  cases e with
  | step queues =>
    obtain ⟨_, rfl⟩ := Prod.mk.inj (Option.some.inj h)
    exact ⟨fun _ => trivial, fun _ => ⟨timed, fun some_ => by cases some_⟩⟩
  | refresh check =>
    obtain ⟨_, rfl⟩ := Prod.mk.inj (Option.some.inj h)
    exact ⟨fun sound some_ => reads.mp (sound.reads some_),
      fun behind => ⟨timed, fun some_ => reads.mpr (behind some_)⟩⟩

/-! ## Runs -/

theorem inv_start (s : CommandScheduler) {mechanism : RefreshMechanism}
    (refreshes : mechanism = .distributed ∨ mechanism = .perBank) (spec : DeviceSpec)
    (refreshCounting bank_release : Nat) :
    Inv spec (start s mechanism spec refreshCounting bank_release) := by
  refine ⟨refreshes, ⟨rfl, rfl, rfl⟩, ⟨rfl, List.isChain_nil, ?_, ?_⟩, ?_⟩
  · intro _ x hx
    cases hx
  · intro _ x hx
    cases hx
  · intro _ flag
    cases flag

/-- **Refresh commands are popped soundly if and only if none is sent that is the last in the buffer**:
in every run of `step` and `refresh`, on any queues and with any answers of the device. The times are
right in all of them. -/
theorem popCommand_sound (s : CommandScheduler) (mechanism : RefreshMechanism)
    (refreshes : mechanism = .distributed ∨ mechanism = .perBank) (spec : DeviceSpec)
    (refreshCounting bank_release : Nat) (events : List RefreshEvent) :
    (Lib.Machine.Along (step spec) (Sound spec)
        (start s mechanism spec refreshCounting bank_release) events ↔
      Lib.Machine.Along (step spec) (fun r e _ _ => Behind r e)
        (start s mechanism spec refreshCounting bank_release) events) ∧
    Lib.Machine.Along (step spec) (Timed spec)
      (start s mechanism spec refreshCounting bank_release) events := by
  have built := inv_start s refreshes spec refreshCounting bank_release
  have any : ∀ e ∈ events, True := fun _ _ => trivial
  constructor
  · exact Lib.Machine.along_congr (Inv spec)
      (fun inv _ h => ⟨step_inv inv h, sound_iff inv h⟩) built any
  · exact Lib.Machine.along_invariant (Inv spec)
      (fun inv h _ => ⟨step_inv inv h, step_timed inv h⟩) built (Lib.Machine.along_true _ _)

/-- A DDR3-800 device of one rank. -/
def smallDevice : DeviceSpec := Dram.DDR3.device .DDR3_512Mb_x8 .DDR3_800D 1

/-- The end of the first interval, and some calls of `refresh` that the device accepts. -/
def firstCalls (queues : List CommandQueue) (calls : Nat) : List RefreshEvent :=
  List.replicate 390 (.step queues) ++ List.replicate calls (.refresh fun _ => true)

theorem firstCalls_succ (queues : List CommandQueue) (calls : Nat) :
    firstCalls queues (calls + 1) = firstCalls queues calls ++ [.refresh fun _ => true] := by
  unfold firstCalls
  rw [List.append_assoc, List.replicate_succ' (n := calls)]

/-- The law where a read waits: the precharge and the refresh are sent, and the activation is not. -/
theorem popCommand_sound_oneFront :
    Lib.Machine.Along (step smallDevice) (Sound smallDevice)
      (start (RefreshRun.emptyScheduler smallDevice) .distributed smallDevice 0 0)
      (firstCalls [RefreshRun.readFront 0] 2) :=
  (popCommand_sound _ .distributed (.inl rfl) smallDevice 0 0 _).1.mpr
    (Lib.Machine.along_of_check _ (fun r e _ => Behind r e) _ _ _
      (fun _ _ _ check => of_decide_eq_true check) (by decide +kernel))

/-- **The last command of a group is popped before another group is made**, under either mechanism: the
front of an empty buffer is read. -/
theorem popCommand_unsound :
    (¬ Lib.Machine.Along (step smallDevice) (Sound smallDevice)
      (start (RefreshRun.emptyScheduler smallDevice) .perBank smallDevice 0 0) (firstCalls [] 1)) ∧
    ¬ Lib.Machine.Along (step smallDevice) (Sound smallDevice)
      (start (RefreshRun.emptyScheduler smallDevice) .distributed smallDevice 0 0)
      (firstCalls [] 2) := by
  have last : ∀ (mechanism : RefreshMechanism) (before : List RefreshEvent),
      (∃ r outs, Lib.Machine.run (step smallDevice)
        (start (RefreshRun.emptyScheduler smallDevice) mechanism smallDevice 0 0) before =
          some (r, outs) ∧ (handed (fun _ => true) r.machine).isSome = true ∧
        r.machine.closed.popDefined.isSome = false) →
      ¬ Lib.Machine.Along (step smallDevice) (Sound smallDevice)
        (start (RefreshRun.emptyScheduler smallDevice) mechanism smallDevice 0 0)
        (before ++ [.refresh fun _ => true]) := by
    rintro mechanism before ⟨r, outs, ran, sent, undefined⟩ along
    have reads := (Lib.Machine.along_last along ran rfl).reads sent
    rw [undefined] at reads
    cases reads
  constructor
  · rw [firstCalls_succ]
    exact last .perBank (firstCalls [] 0) (Lib.Machine.run_exists _
      (fun r : PopRun => (handed (fun _ => true) r.machine).isSome = true ∧
        r.machine.closed.popDefined.isSome = false) _ _ (by decide +kernel))
  · rw [firstCalls_succ]
    exact last .distributed (firstCalls [] 1) (Lib.Machine.run_exists _
      (fun r : PopRun => (handed (fun _ => true) r.machine).isSome = true ∧
        r.machine.closed.popDefined.isSome = false) _ _ (by decide +kernel))

end PopRun
end MCsim
