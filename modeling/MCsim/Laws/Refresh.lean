import Mathlib.Algebra.GroupWithZero.Nat
import Mathlib.Data.List.Nodup
import MCsim.CommandScheduler
import MCsim.Setups

/-!
# Refresh groups

`RefreshMachine.Call` says what one call of `CommandScheduler::refresh` can do: nothing, send the front
of the buffer, or end the interval and send the front in the same call. A group of commands that
`commandGenerate` appends is therefore issued as a whole only where nothing but one command is left of
it when the countdown of its refresh ends, and the device takes that command there and then.

`RefreshRun` runs `step` and `refresh` with a log of what was generated. `Unended` is the invariant of
the runs in which that is so: the buffer is what is left of the groups whose interval has not ended.
-/

namespace MCsim
namespace RefreshMachine

/-! ## One call -/

/-- The machine after the interval was closed and banks were released. -/
def released (m : RefreshMachine) : RefreshMachine :=
  { m with
    flag := false, isInterval := false, isRefreshing := false, isRefreshingBank := m.releaseBanks }

/-- The countdown of a refresh has ended within an interval. -/
def Due (m : RefreshMachine) : Prop :=
  m.isInterval = true ∧ m.flag = true ∧ m.refreshCounting = 0

/-- One call of `CommandScheduler::refresh`, with the command it sends. -/
inductive Call (check : Answers) (m : RefreshMachine) : RefreshMachine → Option BusPacket → Prop
  | skip (notDue : ¬ m.Due) : Call check m m none
  | send {c : BusPacket} {rest : List BusPacket} (flag : m.flag = false)
      (front : m.commandBuffer = c :: rest) (taken : check c = true) :
      Call check m m.popCommand (some c)
  | release (due : m.Due) (left : ∀ c ∈ m.commandBuffer.head?, check c = false) :
      Call check m m.released none
  | releaseSend {c : BusPacket} {rest : List BusPacket} (due : m.Due)
      (front : m.commandBuffer = c :: rest) (taken : check c = true) :
      Call check m m.released.popCommand (some c)

end RefreshMachine

open RefreshMachine

/-- The device after a command was sent, or none. -/
def MemoryDevice.receives (spec : DeviceSpec) (d : MemoryDevice) (sent : Option BusPacket) :
    MemoryDevice :=
  sent.elim d (d.receiveFromBus spec)

/-- **What one call of `refresh` does.** -/
theorem CommandScheduler.refresh_call (s : CommandScheduler) (spec : DeviceSpec) (check : Answers) :
    ∃ m sent, Call check s.refreshMachine m sent ∧ s.refresh spec check =
      { s with refreshMachine := m, memoryDevice := s.memoryDevice.receives spec sent } := by
  unfold CommandScheduler.refresh RefreshMachine.refresh
  by_cases interval : s.refreshMachine.reachInterval = true
  · rw [if_pos interval]
    by_cases due : s.refreshMachine.refreshCounting = 0 ∧ s.refreshMachine.flag = true
    · rw [if_pos due]
      cases head : s.refreshMachine.commandBuffer.head? with
      | none => exact ⟨_, none, .release ⟨interval, due.2, due.1⟩ (by simp [head]), rfl⟩
      | some c =>
        obtain ⟨rest, front⟩ := List.head?_eq_some_iff.mp head
        by_cases taken : check c = true
        · refine ⟨_, some c, .releaseSend ⟨interval, due.2, due.1⟩ front taken, ?_⟩
          dsimp only
          rw [if_pos taken]
          rfl
        · refine ⟨_, none, .release ⟨interval, due.2, due.1⟩ (by simpa [head] using taken), ?_⟩
          dsimp only
          rw [if_neg taken]
          rfl
    · rw [if_neg due]
      have notDue : ¬ s.refreshMachine.Due := fun h => due ⟨h.2.2, h.2.1⟩
      by_cases flag : s.refreshMachine.flag = true
      · rw [if_pos flag]
        exact ⟨_, none, .skip notDue, rfl⟩
      · rw [if_neg flag]
        cases head : s.refreshMachine.commandBuffer.head? with
        | none => exact ⟨_, none, .skip notDue, rfl⟩
        | some c =>
          obtain ⟨rest, front⟩ := List.head?_eq_some_iff.mp head
          by_cases taken : check c = true
          · refine ⟨_, some c, .send (by simpa using flag) front taken, ?_⟩
            dsimp only
            rw [if_pos taken]
            rfl
          · refine ⟨_, none, .skip notDue, ?_⟩
            dsimp only
            rw [if_neg taken]
            rfl
  · rw [if_neg interval]
    exact ⟨_, none, .skip fun h => interval h.1, rfl⟩

namespace RefreshMachine

/-- A command that starts the countdown of a refresh. -/
def isRefresh (c : BusPacket) : Bool := c.busPacketType == .REF || c.busPacketType == .REFPB

/-- `popCommand` on a buffer that is not empty. -/
theorem popCommand_eq {m : RefreshMachine} {c : BusPacket} {rest : List BusPacket}
    (front : m.commandBuffer = c :: rest) :
    ∃ n, m.popCommand = { m with
      commandBuffer := rest, flag := isRefresh c || m.flag, refreshCounting := n
      bank_release := if isRefresh c then c.bank else m.bank_release } := by
  unfold popCommand
  rw [front]
  dsimp only
  unfold startCounting isRefresh
  split
  · next type => exact ⟨_, by simp [type]; rfl⟩
  · next type => exact ⟨_, by simp [type]; rfl⟩
  · next notPb notRef =>
    have neither : (c.busPacketType == .REF || c.busPacketType == .REFPB) = false := by
      simpa using ⟨notRef, notPb⟩
    exact ⟨_, by simp only [neither, Bool.false_or, Bool.false_eq_true, if_false]; rfl⟩

/-- `step` that does not end an interval, and one that does. -/
theorem step_eq (m : RefreshMachine) (queues : List CommandQueue) :
    m.step queues =
      if m.countdown = 0 then
        { m with
          isRefreshing := true, isInterval := true, globeRefreshCountdown := m.nextInterval
          commandBuffer := m.commandBuffer ++ m.group queues, isRefreshingBank := m.holdBanks
          Round_robin := (m.commandGenerate queues).Round_robin
          refreshCounting := m.refreshCounting - 1 }
      else { m with
        globeRefreshCountdown := m.countdown, refreshCounting := m.refreshCounting - 1 } := by
  unfold step
  split <;> rfl

instance (m : RefreshMachine) : Decidable m.Due :=
  inferInstanceAs (Decidable (m.isInterval = true ∧ m.flag = true ∧ m.refreshCounting = 0))

/-- The command is of a group whose call of `commandGenerate` marked the bank busy. -/
def Marks (mechanism : RefreshMechanism) (bank : Nat) (x : BusPacket) : Prop :=
  mechanism = .perBank → x.bank = bank

end RefreshMachine

/-! ## Runs of `step` and `refresh` -/

/-- The scheduler, a log of the commands that were generated, and the groups among them whose busy
flags have not been cleared. -/
structure RefreshRun where
  scheduler : CommandScheduler
  generated : List BusPacket := []
  unended : List (List BusPacket) := []

/-- `RefreshMachine::step` on some command queues, or `CommandScheduler::refresh` with some answers of
the device. -/
inductive RefreshEvent where
  | step (queues : List CommandQueue)
  | refresh (check : Answers)

namespace RefreshRun

abbrev machine (r : RefreshRun) : RefreshMachine := r.scheduler.refreshMachine

/-- The commands that were sent, oldest first. -/
abbrev sent (r : RefreshRun) : List BusPacket := r.scheduler.memoryDevice.commandTrace

/-- A refresh machine as it is built, in a scheduler whose device has seen no command. -/
def start (s : CommandScheduler) (mechanism : RefreshMechanism) (spec : DeviceSpec)
    (refreshCounting bank_release : Nat) : RefreshRun where
  scheduler := { s with
    refreshMachine := RefreshMachine.create mechanism spec refreshCounting bank_release
    memoryDevice := {} }

/-- The end of a countdown clears the busy flags of a group: of every bank, or of the group's own. -/
def ended (m : RefreshMachine) (group : List BusPacket) : Bool :=
  match m.refresh_mechanism with
  | .perBank => group.any (·.bank == m.bank_release)
  | _ => true

/-- One event. -/
def step (spec : DeviceSpec) : Lib.Machine.Step RefreshRun RefreshEvent Unit
  | r, .step queues =>
    let scheduler := { r.scheduler with refreshMachine := r.machine.step queues }
    if r.machine.countdown = 0 then
      some ({ scheduler := scheduler
              generated := r.generated ++ r.machine.group queues
              unended := r.unended ++ [r.machine.group queues] }, ())
    else some ({ r with scheduler := scheduler }, ())
  | r, .refresh check =>
    some ({ r with
      scheduler := r.scheduler.refresh spec check
      unended := if r.machine.Due then r.unended.filter fun g => !ended r.machine g
        else r.unended }, ())

/-- What `commandGenerate` puts into the buffer at most: something to close banks, a refresh, and one
activation. -/
structure Group where
  opening : List BusPacket
  ref : BusPacket
  acts : List BusPacket

namespace Group

def commands (g : Group) : List BusPacket := g.opening ++ g.ref :: g.acts

/-- A group of a mechanism. -/
structure Of (mechanism : RefreshMechanism) (g : Group) : Prop where
  opens : ∀ x ∈ g.opening, isRefresh x = false
  refreshes : isRefresh g.ref = true
  acts : ∀ x ∈ g.acts, isRefresh x = false
  one : g.acts.length ≤ 1
  marks : ∀ x ∈ g.commands, Marks mechanism g.ref.bank x
  plain : ∀ x ∈ g.commands, x.postCommand = false ∧ x.busPacketType ≠ .DATA
  whole : mechanism = .distributed → g.ref.bank = 0

end Group

/-- How far the first of the groups that have not ended has come. -/
inductive Phase (m : RefreshMachine) : List Group → Prop
  | idle (flag : m.flag = false) (buffer : m.commandBuffer = []) : Phase m []
  | waits {g : Group} {gs : List Group} {opening : List BusPacket} (flag : m.flag = false)
      (left : opening <:+ g.opening)
      (buffer : m.commandBuffer = opening ++ g.ref :: g.acts ++ gs.flatMap Group.commands) :
      Phase m (g :: gs)
  | counts {g : Group} {gs : List Group} (flag : m.flag = true)
      (bank : m.bank_release = g.ref.bank)
      (buffer : m.commandBuffer = g.acts ++ gs.flatMap Group.commands) : Phase m (g :: gs)

/-- Groups that are issued in turn. -/
structure Unended (r : RefreshRun) : Prop where
  mechanism : r.machine.refresh_mechanism = .distributed ∨ r.machine.refresh_mechanism = .perBank
  fifo : r.sent ++ r.machine.commandBuffer = r.generated
  groups : ∃ gs, r.unended = gs.map Group.commands ∧
    (∀ g ∈ gs, g.Of r.machine.refresh_mechanism) ∧ (gs.map (·.ref.bank)).Nodup ∧
    Phase r.machine gs

/-- What is asked of an event. At the end of an interval, of the queues: at most one front makes an
activation; and of the machine: one rank and the last group spent, or no group left of the bank whose
turn it is. At the end of a countdown, of the device: that it takes what is left of the group. -/
def InTurn (r : RefreshRun) : RefreshEvent → Prop
  | .step queues => r.machine.countdown = 0 →
      (queues.filter fun q => !(r.machine.queueCommands q).isEmpty).length ≤ 1 ∧
      (r.machine.refresh_mechanism = .distributed →
        r.machine.ranks = 1 ∧ r.machine.commandBuffer = [] ∧ r.machine.flag = false) ∧
      (r.machine.refresh_mechanism = .perBank →
        (∀ x ∈ r.machine.commandBuffer, x.bank ≠ r.machine.Round_robin) ∧
          ¬ (r.machine.flag = true ∧ r.machine.bank_release = r.machine.Round_robin))
  | .refresh check => r.machine.Due → ∀ x ∈ r.machine.commandBuffer.head?,
      Marks r.machine.refresh_mechanism r.machine.bank_release x → check x = true

theorem unended_start (s : CommandScheduler) {mechanism : RefreshMechanism}
    (refreshes : mechanism = .distributed ∨ mechanism = .perBank) (spec : DeviceSpec)
    (refreshCounting bank_release : Nat) :
    Unended (start s mechanism spec refreshCounting bank_release) :=
  ⟨refreshes, rfl, [], rfl, fun _ h => absurd h List.not_mem_nil, List.nodup_nil, .idle rfl rfl⟩

/-- Where at most one queue adds commands, they are those of one queue or none. -/
theorem flatMap_of_one {f : CommandQueue → List BusPacket} {queues : List CommandQueue}
    (one : (queues.filter fun q => !(f q).isEmpty).length ≤ 1) :
    queues.flatMap f = [] ∨ ∃ q, f q ≠ [] ∧ queues.flatMap f = f q := by
  induction queues with
  | nil => exact .inl rfl
  | cons q queues ih =>
    by_cases empty : f q = []
    · simp only [List.filter_cons, empty, List.isEmpty_nil, Bool.not_true, Bool.false_eq_true,
        if_false] at one
      simpa [empty] using ih one
    · have none_ : queues.flatMap f = [] := by
        have filled : (!(f q).isEmpty) = true := by simpa using empty
        rw [List.filter_cons, if_pos filled, List.length_cons] at one
        have rest := List.filter_eq_nil_iff.mp (List.length_eq_zero_iff.mp (by omega :
          (queues.filter fun q => !(f q).isEmpty).length = 0))
        exact List.flatMap_eq_nil_iff.mpr fun x hx => by simpa using rest x hx
      exact .inr ⟨q, empty, by rw [List.flatMap_cons, none_, List.append_nil]⟩

/-- What a queue's front adds to a group. -/
theorem queueCommands_eq {m : RefreshMachine} {q : CommandQueue} (filled : m.queueCommands q ≠ []) :
    ∃ c : BusPacket,
      (m.refresh_mechanism = .distributed →
        m.queueCommands q = [refreshCommand .ACT c.row c.bank c.rank]) ∧
      (m.refresh_mechanism = .perBank → c.bank = m.Round_robin ∧ m.queueCommands q =
        [refreshCommand .PRE 0 m.Round_robin 0, refreshCommand .REFPB 0 m.Round_robin 0,
          refreshCommand .ACT c.row c.bank c.rank]) := by
  revert filled
  unfold queueCommands
  cases front q with
  | none => exact fun filled => absurd rfl filled
  | some c =>
    intro filled
    dsimp only at filled ⊢
    refine ⟨c, ?_⟩
    split
    · next cas =>
      rw [if_pos cas] at filled
      cases mech : m.refresh_mechanism with
      | none => simp
      | distributed => simp
      | perBank =>
        simp only [mech] at filled
        by_cases bank : c.bank = m.Round_robin <;> simp [bank] at filled ⊢
    · next cas => simp [cas] at filled

/-- **The group of an interval**, where at most one queue adds to it and the device has one rank. -/
theorem group_eq {m : RefreshMachine} {queues : List CommandQueue}
    (refreshes : m.refresh_mechanism = .distributed ∨ m.refresh_mechanism = .perBank)
    (one : (queues.filter fun q => !(m.queueCommands q).isEmpty).length ≤ 1)
    (ranks : m.refresh_mechanism = .distributed → m.ranks = 1) :
    ∃ g : Group, m.group queues = g.commands ∧ g.Of m.refresh_mechanism ∧
      (m.refresh_mechanism = .perBank → g.ref.bank = m.Round_robin) := by
  have contributions := flatMap_of_one one
  rcases refreshes with mech | mech
  · -- PREA and REF of the one rank, and at most one activation
    have rank : m.rankCommands = [refreshCommand .PREA 0 0 0, refreshCommand .REF 0 0 0] := by
      simp [rankCommands, ranks mech, List.range_succ]
    have make : ∀ acts : List BusPacket, acts.length ≤ 1 →
        (∀ x ∈ acts, ∃ row bank rank, x = refreshCommand .ACT row bank rank) →
        (⟨[refreshCommand .PREA 0 0 0], refreshCommand .REF 0 0 0, acts⟩ : Group).Of
          .distributed := by
      intro acts one acts_eq
      refine ⟨by simp [isRefresh, refreshCommand], rfl, fun x hx => ?_, one, fun _ _ h => (nomatch h),
        fun x hx => ?_, fun _ => rfl⟩
      · obtain ⟨row, bank, rank, rfl⟩ := acts_eq x hx
        rfl
      · simp only [Group.commands, List.mem_append, List.mem_cons, List.not_mem_nil,
          or_false] at hx
        rcases hx with rfl | rfl | hx
        · exact ⟨rfl, by simp [refreshCommand]⟩
        · exact ⟨rfl, by simp [refreshCommand]⟩
        · obtain ⟨row, bank, rank, rfl⟩ := acts_eq x hx
          exact ⟨rfl, by simp [refreshCommand]⟩
    rcases contributions with none_ | ⟨q, filled, some_⟩
    · refine ⟨_, ?_, mech ▸ make [] (by simp) (by simp), by simp [mech]⟩
      simp [RefreshMachine.group, mech, rank, none_, Group.commands]
    · obtain ⟨c, added, _⟩ := queueCommands_eq filled
      refine ⟨_, ?_, mech ▸ make [refreshCommand .ACT c.row c.bank c.rank] (by simp)
        fun x hx => ⟨c.row, c.bank, c.rank, by simpa using hx⟩, by simp [mech]⟩
      simp [RefreshMachine.group, mech, rank, some_, added mech, Group.commands]
  · rcases contributions with none_ | ⟨q, filled, some_⟩
    · refine ⟨⟨[], refreshCommand .REFPB 0 m.Round_robin 0, []⟩, ?_, ?_, fun _ => rfl⟩
      · simp [RefreshMachine.group, mech, none_, Group.commands]
      · exact ⟨by simp, rfl, by simp, by simp, fun x hx _ => by
          obtain rfl : x = _ := by simpa [Group.commands] using hx
          rfl, fun x hx => by
          obtain rfl : x = _ := by simpa [Group.commands] using hx
          exact ⟨rfl, by simp [refreshCommand]⟩, fun h => by simp [mech] at h⟩
    · obtain ⟨c, _, added⟩ := queueCommands_eq filled
      obtain ⟨bank, added⟩ := added mech
      refine ⟨⟨[refreshCommand .PRE 0 m.Round_robin 0], refreshCommand .REFPB 0 m.Round_robin 0,
        [refreshCommand .ACT c.row c.bank c.rank]⟩, ?_, ?_, fun _ => rfl⟩
      · simp [RefreshMachine.group, mech, some_, added, Group.commands]
      · refine ⟨by simp [isRefresh, refreshCommand], rfl, by simp [isRefresh, refreshCommand],
          by simp, fun x hx _ => ?_, fun x hx => ?_, fun h => by simp [mech] at h⟩
        · simp only [Group.commands, List.mem_append, List.mem_cons, List.not_mem_nil,
            or_false] at hx
          rcases hx with rfl | rfl | rfl
          · rfl
          · rfl
          · exact bank
        · simp only [Group.commands, List.mem_append, List.mem_cons, List.not_mem_nil,
            or_false] at hx
          rcases hx with rfl | rfl | rfl <;> exact ⟨rfl, by simp [refreshCommand]⟩

namespace Phase

variable {m m' : RefreshMachine} {gs : List Group}

/-- A group joins the end of the buffer. -/
theorem join (h : Phase m gs) {g : Group} (flag : m'.flag = m.flag)
    (bank : m'.bank_release = m.bank_release)
    (buffer : m'.commandBuffer = m.commandBuffer ++ g.commands) : Phase m' (gs ++ [g]) := by
  cases h with
  | idle idle empty =>
    refine .waits (flag.trans idle) (List.suffix_refl g.opening) ?_
    rw [buffer, empty]
    simp [Group.commands]
  | waits idle left whole =>
    refine .waits (flag.trans idle) left ?_
    rw [buffer, whole]
    simp
  | counts busy release whole =>
    refine .counts (flag.trans busy) (bank.trans release) ?_
    rw [buffer, whole]
    simp

/-- Counters are not part of it. -/
theorem congr (h : Phase m gs) (flag : m'.flag = m.flag)
    (bank : m'.bank_release = m.bank_release) (buffer : m'.commandBuffer = m.commandBuffer) :
    Phase m' gs := by
  cases h with
  | idle idle empty => exact .idle (flag.trans idle) (buffer.trans empty)
  | waits idle left whole => exact .waits (flag.trans idle) left (buffer.trans whole)
  | counts busy release whole =>
    exact .counts (flag.trans busy) (bank.trans release) (buffer.trans whole)

/-- The front of a group that waits is sent: something that opens it, or its refresh. -/
theorem pop (h : Phase m gs) {mechanism : RefreshMechanism} (ofs : ∀ g ∈ gs, g.Of mechanism)
    (flag : m.flag = false) {c : BusPacket} {rest : List BusPacket}
    (front : m.commandBuffer = c :: rest) : Phase m.popCommand gs := by
  obtain ⟨n, popped⟩ := popCommand_eq front
  rw [popped]
  cases h with
  | idle _ empty => cases empty.symm.trans front
  | @waits g gs opening idle left whole =>
    have of := ofs g List.mem_cons_self
    cases opening with
    | nil =>
      obtain ⟨rfl, rfl⟩ := List.cons.inj (front.symm.trans whole)
      refine .counts ?_ ?_ rfl
      · show (isRefresh g.ref || m.flag) = true
        rw [of.refreshes]
        rfl
      · show (if isRefresh g.ref = true then g.ref.bank else m.bank_release) = g.ref.bank
        rw [if_pos of.refreshes]
    | cons o opening =>
      obtain ⟨rfl, rfl⟩ := List.cons.inj (front.symm.trans whole)
      have notRefresh : isRefresh c = false := of.opens c (left.subset List.mem_cons_self)
      refine .waits ?_ ((List.suffix_cons c opening).trans left) rfl
      show (isRefresh c || m.flag) = false
      rw [notRefresh, flag]
      rfl
  | counts busy => cases busy.symm.trans flag

/-- The groups behind one that is over. -/
theorem after (flag : m.flag = false) (buffer : m.commandBuffer = gs.flatMap Group.commands) :
    Phase m gs := by
  cases gs with
  | nil => exact .idle flag buffer
  | cons g gs =>
    refine .waits flag (List.suffix_refl g.opening) ?_
    rw [buffer]
    simp [Group.commands]

/-- **The end of a countdown** is the end of the first group, where the device takes what is left of
it: the buffer holds nothing but later groups. -/
theorem release (h : Phase m gs) {mechanism : RefreshMechanism} (ofs : ∀ g ∈ gs, g.Of mechanism)
    {check : Answers} {sent : Option BusPacket} (call : Call check m m' sent) (due : m.Due)
    (takes : ∀ x ∈ m.commandBuffer.head?, Marks mechanism m.bank_release x → check x = true) :
    ∃ g gs', gs = g :: gs' ∧ m.bank_release = g.ref.bank ∧ Phase m' gs' ∧
      ∀ x ∈ m'.commandBuffer, x ∈ gs'.flatMap Group.commands := by
  cases h with
  | idle idle => cases idle.symm.trans due.2.1
  | waits idle => cases idle.symm.trans due.2.1
  | @counts g gs busy bank whole =>
    have of := ofs g List.mem_cons_self
    refine ⟨g, gs, rfl, bank, ?_⟩
    cases call with
    | skip notDue => exact absurd due notDue
    | send flag => cases flag.symm.trans due.2.1
    | release _ left =>
      have spent : g.acts = [] := by
        cases acts : g.acts with
        | nil => rfl
        | cons a t =>
          have head : a ∈ m.commandBuffer.head? := by simp [whole, acts]
          have mark := of.marks a (by simp [Group.commands, acts])
          rw [← bank] at mark
          have no := left a head
          rw [takes a head mark] at no
          cases no
      rw [spent, List.nil_append] at whole
      exact ⟨.after rfl whole, fun x hx => whole ▸ hx⟩
    | @releaseSend c rest _ front taken =>
      have front' : m.released.commandBuffer = c :: rest := front
      obtain ⟨n, popped⟩ := popCommand_eq front'
      cases acts : g.acts with
      | nil =>
        rw [acts, List.nil_append] at whole
        have rest_mem : ∀ x ∈ rest, x ∈ gs.flatMap Group.commands := fun x hx => by
          have mem : x ∈ m.commandBuffer := front ▸ List.mem_cons_of_mem c hx
          exact whole ▸ mem
        refine ⟨(Phase.after (m := m.released) rfl whole).pop
          (fun g' hg' => ofs g' (List.mem_cons_of_mem g hg')) rfl front', ?_⟩
        rw [popped]
        exact rest_mem
      | cons a t =>
        have one := of.one
        rw [acts] at one
        obtain rfl : t = [] := List.length_eq_zero_iff.mp (by simpa using one)
        rw [acts] at whole
        obtain ⟨rfl, rfl⟩ := List.cons.inj (front.symm.trans whole)
        have plain : isRefresh c = false := of.acts c (by simp [acts])
        rw [popped]
        refine ⟨.after ?_ rfl, fun x hx => hx⟩
        show (isRefresh c || false) = false
        rw [plain]
        rfl

/-- What is in the buffer is of a group that has not ended. -/
theorem mem (h : Phase m gs) : ∀ x ∈ m.commandBuffer, x ∈ gs.flatMap Group.commands := by
  intro x hx
  cases h with
  | idle _ empty =>
    rw [empty] at hx
    exact absurd hx List.not_mem_nil
  | @waits g gs opening _ left whole =>
    rw [whole] at hx
    simp only [List.flatMap_cons, Group.commands, List.append_assoc, List.mem_append] at hx ⊢
    exact hx.imp (fun h => left.subset h) id
  | @counts g gs _ _ whole =>
    rw [whole] at hx
    simp only [List.flatMap_cons, Group.commands, List.mem_append, List.mem_cons] at hx ⊢
    tauto

/-- A group that has not ended has its refresh in the buffer, or is being counted down. -/
theorem ref_mem (h : Phase m gs) {g : Group} (hg : g ∈ gs) :
    g.ref ∈ m.commandBuffer ∨ m.flag = true ∧ m.bank_release = g.ref.bank := by
  have later : ∀ (l : List Group), g ∈ l → g.ref ∈ l.flatMap Group.commands := fun l hl =>
    List.mem_flatMap.mpr ⟨g, hl, by simp [Group.commands]⟩
  cases h with
  | idle => exact absurd hg List.not_mem_nil
  | @waits g' gs opening _ left whole =>
    rw [whole]
    rcases List.mem_cons.mp hg with rfl | hg
    · exact .inl (by simp)
    · exact .inl (List.mem_append_right _ (later gs hg))
  | @counts g' gs busy bank whole =>
    rcases List.mem_cons.mp hg with rfl | hg
    · exact .inr ⟨busy, bank⟩
    · rw [whole]
      exact .inl (List.mem_append_right _ (later gs hg))

/-- The buffer is no longer than the groups that have not ended. -/
theorem length_le (h : Phase m gs) :
    m.commandBuffer.length ≤ ((gs.map Group.commands).map List.length).sum := by
  have flat : ∀ l : List Group, (l.flatMap Group.commands).length =
      ((l.map Group.commands).map List.length).sum := by
    intro l
    simp [List.length_flatMap, Function.comp_def]
  cases h with
  | idle _ empty => simp [empty]
  | @waits g gs opening _ left whole =>
    have shorter := left.length_le
    rw [whole, List.map_cons, List.map_cons, List.sum_cons, ← flat]
    simp only [Group.commands, List.length_append, List.length_cons]
    omega
  | @counts g gs _ _ whole =>
    rw [whole, List.map_cons, List.map_cons, List.sum_cons, ← flat]
    simp only [Group.commands, List.length_append, List.length_cons]
    omega

end Phase

/-! ## The laws of runs -/

/-- The machine after a call has a busy flag less only where a countdown ended. -/
theorem call_busy {check : Answers} {m m' : RefreshMachine} {sent : Option BusPacket}
    (call : Call check m m' sent) {bank : Nat} (busy : m.busyBank bank = true)
    (free : m'.busyBank bank = false) :
    m.Due ∧ (m.refresh_mechanism = .perBank → bank = m.bank_release) := by
  have cleared : m.releaseBanks bank = false →
      m.refresh_mechanism = .perBank → bank = m.bank_release := by
    intro free mech
    by_contra other
    simp only [releaseBanks, mech, other, if_false] at free
    cases busy.symm.trans free
  cases call with
  | skip => cases busy.symm.trans free
  | send flag front taken =>
    obtain ⟨n, popped⟩ := popCommand_eq front
    rw [popped] at free
    cases busy.symm.trans free
  | release due left => exact ⟨due, cleared free⟩
  | @releaseSend c rest due front taken =>
    obtain ⟨n, popped⟩ := popCommand_eq (m := m.released) front
    rw [popped] at free
    exact ⟨due, cleared free⟩

/-- `step` clears no busy flag. -/
theorem step_busy {m : RefreshMachine} {queues : List CommandQueue} {bank : Nat}
    (busy : m.busyBank bank = true) : (m.step queues).busyBank bank = true := by
  rw [step_eq]
  split
  · show m.holdBanks bank = true
    unfold holdBanks
    split
    · exact busy
    · split
      · rfl
      · exact busy
    · split
      · rfl
      · exact busy
  · exact busy

/-- A call sends the front of the buffer or nothing. -/
theorem call_buffer {check : Answers} {m m' : RefreshMachine} {sent : Option BusPacket}
    (call : Call check m m' sent) :
    sent.toList ++ m'.commandBuffer = m.commandBuffer ∧
      m'.refresh_mechanism = m.refresh_mechanism := by
  cases call with
  | skip => exact ⟨rfl, rfl⟩
  | send flag front taken =>
    obtain ⟨n, popped⟩ := popCommand_eq front
    rw [popped]
    exact ⟨front.symm, rfl⟩
  | release => exact ⟨rfl, rfl⟩
  | @releaseSend c rest due front taken =>
    obtain ⟨n, popped⟩ := popCommand_eq (m := m.released) front
    rw [popped]
    exact ⟨front.symm, rfl⟩

/-- A call that is not the end of a countdown. -/
theorem Phase.call {check : Answers} {m m' : RefreshMachine} {sent : Option BusPacket}
    {gs : List Group} (h : Phase m gs) {mechanism : RefreshMechanism}
    (ofs : ∀ g ∈ gs, g.Of mechanism) (call : Call check m m' sent) (notDue : ¬ m.Due) :
    Phase m' gs := by
  cases call with
  | skip => exact h
  | send flag front taken => exact h.pop ofs flag front
  | release due => exact absurd due notDue
  | releaseSend due => exact absurd due notDue

/-- What a group that is issued as a whole leaves behind, when a busy flag is cleared. -/
def Whole (r : RefreshRun) (r' : RefreshRun) : Prop :=
  (∀ bank, r.machine.busyBank bank = true → r'.machine.busyBank bank = false →
    ∀ x ∈ r'.machine.commandBuffer, ¬ Marks r.machine.refresh_mechanism bank x) ∧
  r'.sent ++ r'.machine.commandBuffer = r'.generated ∧
  r'.machine.commandBuffer.length ≤ (r'.unended.map List.length).sum

theorem receives_trace (spec : DeviceSpec) (d : MemoryDevice) {sent : Option BusPacket}
    (plain : ∀ x ∈ sent, x.postCommand = false ∧ x.busPacketType ≠ .DATA) :
    (d.receives spec sent).commandTrace = d.commandTrace ++ sent.toList := by
  cases sent with
  | none => simp [MemoryDevice.receives]
  | some c =>
    obtain ⟨posted, data⟩ := plain c rfl
    exact MemoryDevice.receiveFromBus_trace posted data

/-- The end of a countdown ends the first group and no other. -/
theorem filter_ended {m : RefreshMachine} {g : Group} {gs : List Group}
    (refreshes : m.refresh_mechanism = .distributed ∨ m.refresh_mechanism = .perBank)
    (ofs : ∀ g' ∈ g :: gs, g'.Of m.refresh_mechanism)
    (distinct : ((g :: gs).map (·.ref.bank)).Nodup) (bank : m.bank_release = g.ref.bank) :
    ((g :: gs).map Group.commands).filter (fun x => !ended m x) = gs.map Group.commands := by
  have others : ∀ g' ∈ gs, g'.ref.bank ≠ g.ref.bank := by
    intro g' hg' same
    rw [List.map_cons, List.nodup_cons] at distinct
    exact distinct.1 (List.mem_map.mpr ⟨g', hg', same⟩)
  have first : ended m g.commands = true := by
    rcases refreshes with mech | mech
    · simp [ended, mech]
    · simp [ended, mech, bank, Group.commands]
  have rest : ∀ x ∈ gs.map Group.commands, (!ended m x) = true := by
    intro x hx
    obtain ⟨g', hg', rfl⟩ := List.mem_map.mp hx
    have other := others g' hg'
    rcases refreshes with mech | mech
    · have zero := (ofs g List.mem_cons_self).whole mech
      have zero' := (ofs g' (List.mem_cons_of_mem g hg')).whole mech
      exact absurd (zero'.trans zero.symm) other
    · simp only [ended, mech, Bool.not_eq_true', List.any_eq_false, beq_iff_eq]
      intro y hy here
      have mark := (ofs g' (List.mem_cons_of_mem g hg')).marks y hy mech
      exact other (mark.symm.trans (here.trans bank))
  rw [List.map_cons, List.filter_cons, first, List.filter_eq_self.mpr rest]
  rfl

/-- A call of `refresh` keeps groups in turn and leaves nothing behind. -/
theorem refresh_unended {spec : DeviceSpec} {r r' : RefreshRun} {check : Answers} {o : Unit}
    (inv : Unended r) (h : step spec r (.refresh check) = some (r', o))
    (turn : InTurn r (.refresh check)) : Unended r' ∧ Whole r r' := by
  obtain ⟨refreshes, fifo, gs, unended, ofs, distinct, phase⟩ := inv
  obtain ⟨m', sent, call, refreshed⟩ := r.scheduler.refresh_call spec check
  obtain ⟨buffer, mech⟩ := call_buffer call
  simp only [step, refreshed, Option.some.injEq, Prod.mk.injEq, and_true] at h
  subst h
  have plain : ∀ x ∈ sent, x.postCommand = false ∧ x.busPacketType ≠ .DATA := by
    intro x hx
    have mem : x ∈ r.machine.commandBuffer := by
      rw [← buffer]
      exact List.mem_append_left _ (by simpa using hx)
    obtain ⟨g, hg, hx⟩ := List.mem_flatMap.mp (phase.mem x mem)
    exact (ofs g hg).plain x hx
  have order : (r.scheduler.memoryDevice.receives spec sent).commandTrace ++ m'.commandBuffer =
      r.generated := by
    rw [receives_trace _ _ plain, List.append_assoc, buffer]
    exact fifo
  by_cases due : r.machine.Due
  · obtain ⟨g, gs', rfl, bank, phase', left⟩ := phase.release ofs call due (turn due)
    have ends : (if r.machine.Due then r.unended.filter fun g => !ended r.machine g
        else r.unended) = gs'.map Group.commands := by
      rw [if_pos due, unended]
      exact filter_ended refreshes ofs distinct bank
    have ofs' : ∀ g' ∈ gs', g'.Of r.machine.refresh_mechanism := fun g' hg' =>
      ofs g' (List.mem_cons_of_mem g hg')
    rw [List.map_cons, List.nodup_cons] at distinct
    refine ⟨⟨mech ▸ refreshes, order, gs', ends, mech ▸ ofs', distinct.2, phase'⟩, ?_, order, ?_⟩
    · intro b busy free x hx mark
      obtain ⟨g', hg', hx⟩ := List.mem_flatMap.mp (left x hx)
      have other : g'.ref.bank ≠ g.ref.bank := fun same =>
        distinct.1 (List.mem_map.mpr ⟨g', hg', same⟩)
      rcases refreshes with mech | mech
      · exact other (((ofs' g' hg').whole mech).trans
          ((ofs g List.mem_cons_self).whole mech).symm)
      · have here := (call_busy call busy free).2 mech
        exact other (((ofs' g' hg').marks x hx mech).symm.trans
          ((mark mech).trans (here.trans bank)))
    · rw [ends]
      exact phase'.length_le
  · have phase' := phase.call ofs call due
    have same : (if r.machine.Due then r.unended.filter fun g => !ended r.machine g
        else r.unended) = gs.map Group.commands := by
      rw [if_neg due, unended]
    refine ⟨⟨mech ▸ refreshes, order, gs, same, mech ▸ ofs, distinct, phase'⟩, ?_, order, ?_⟩
    · intro b busy free
      exact absurd (call_busy call busy free).1 due
    · rw [same]
      exact phase'.length_le

/-- A call of `step` keeps groups in turn. -/
theorem machineStep_unended {spec : DeviceSpec} {r r' : RefreshRun} {queues : List CommandQueue}
    {o : Unit} (inv : Unended r) (h : step spec r (.step queues) = some (r', o))
    (turn : InTurn r (.step queues)) : Unended r' ∧ Whole r r' := by
  obtain ⟨refreshes, fifo, gs, unended, ofs, distinct, phase⟩ := inv
  have noFlag : ∀ (m : RefreshMachine) (bank : Nat), m = r.machine.step queues →
      r.machine.busyBank bank = true → m.busyBank bank = false → False := by
    intro m bank e busy free
    rw [e, step_busy busy] at free
    cases free
  by_cases ends : r.machine.countdown = 0
  · obtain ⟨one, distributed, perBank⟩ := turn ends
    obtain ⟨g, group, of, turnBank⟩ := group_eq refreshes one fun mech => (distributed mech).1
    have stepped := step_eq r.machine queues
    simp only [ends, if_true] at stepped
    simp only [step, ends, if_true, Option.some.injEq, Prod.mk.injEq, and_true] at h
    subst h
    have mech : (r.machine.step queues).refresh_mechanism = r.machine.refresh_mechanism := by
      rw [stepped]
    have buffer : (r.machine.step queues).commandBuffer =
        r.machine.commandBuffer ++ g.commands := by
      rw [stepped, ← group]
    have phase' : Phase (r.machine.step queues) (gs ++ [g]) :=
      phase.join (by rw [stepped]) (by rw [stepped]) buffer
    have fresh : g.ref.bank ∉ gs.map (·.ref.bank) := by
      intro h
      obtain ⟨g', hg', same⟩ := List.mem_map.mp h
      rcases refreshes with mech | mech
      · obtain ⟨_, empty, idle⟩ := distributed mech
        rcases phase.ref_mem hg' with mem | ⟨busy, _⟩
        · rw [empty] at mem
          exact absurd mem List.not_mem_nil
        · cases idle.symm.trans busy
      · obtain ⟨absent, notBusy⟩ := perBank mech
        have here : g'.ref.bank = r.machine.Round_robin := same.trans (turnBank mech)
        rcases phase.ref_mem hg' with mem | ⟨busy, release⟩
        · exact absent g'.ref mem here
        · exact notBusy ⟨busy, release.trans here⟩
    have order : r.sent ++ (r.machine.step queues).commandBuffer =
        r.generated ++ r.machine.group queues := by
      rw [buffer, ← List.append_assoc, fifo, group]
    have groups : r.unended ++ [r.machine.group queues] = (gs ++ [g]).map Group.commands := by
      rw [unended, group, List.map_append]
      rfl
    refine ⟨⟨mech ▸ refreshes, order, gs ++ [g], groups, ?_, ?_, phase'⟩,
      fun bank busy free => (noFlag _ bank rfl busy free).elim, order, ?_⟩
    · intro g' hg'
      rw [show (⟨{ r.scheduler with refreshMachine := r.machine.step queues }, _, _⟩ :
        RefreshRun).machine.refresh_mechanism = r.machine.refresh_mechanism from mech]
      rcases List.mem_append.mp hg' with hg' | hg'
      · exact ofs g' hg'
      · exact List.mem_singleton.mp hg' ▸ of
    · rw [List.map_append, List.nodup_append]
      refine ⟨distinct, by simp, fun a ha b hb same => fresh ?_⟩
      obtain rfl : b = g.ref.bank := by simpa using hb
      exact same ▸ ha
    · rw [groups]
      exact phase'.length_le
  · have stepped := step_eq r.machine queues
    simp only [ends, if_false] at stepped
    simp only [step, ends, if_false, Option.some.injEq, Prod.mk.injEq, and_true] at h
    subst h
    have mech : (r.machine.step queues).refresh_mechanism = r.machine.refresh_mechanism := by
      rw [stepped]
    have buffer : (r.machine.step queues).commandBuffer = r.machine.commandBuffer := by rw [stepped]
    have phase' : Phase (r.machine.step queues) gs :=
      phase.congr (by rw [stepped]) (by rw [stepped]) buffer
    have order : r.sent ++ (r.machine.step queues).commandBuffer = r.generated := by
      rw [buffer, fifo]
    refine ⟨⟨mech ▸ refreshes, order, gs, unended, mech ▸ ofs, distinct, phase'⟩,
      fun bank busy free => (noFlag _ bank rfl busy free).elim, order, ?_⟩
    show (r.machine.step queues).commandBuffer.length ≤ (r.unended.map List.length).sum
    rw [unended]
    exact phase'.length_le

/-- **A refresh group is issued as a whole**, in the runs whose events are in turn: when a busy flag
is cleared, nothing is left in the buffer of a group that set it; what was sent and what is buffered is
what was generated, in order; and the buffer is no longer than the groups whose interval has not
ended. -/
theorem refreshGroups_whole (s : CommandScheduler) {mechanism : RefreshMechanism}
    (refreshes : mechanism = .distributed ∨ mechanism = .perBank) (spec : DeviceSpec)
    (refreshCounting bank_release : Nat) (events : List RefreshEvent)
    (inTurn : Lib.Machine.Along (step spec) (fun r e _ _ => InTurn r e)
      (start s mechanism spec refreshCounting bank_release) events) :
    Lib.Machine.Along (step spec) (fun r _ r' _ => Whole r r')
      (start s mechanism spec refreshCounting bank_release) events := by
  refine Lib.Machine.along_invariant Unended (fun {r e r' o} inv h turn => ?_)
    (unended_start s refreshes spec refreshCounting bank_release) inTurn
  cases e with
  | step queues => exact machineStep_unended inv h turn
  | refresh check => exact refresh_unended inv h turn

/-- A queue whose front is a read of a bank. -/
def readFront (bank : Nat) : CommandQueue where
  perRequestorEnable := false
  hrtBuffer := [refreshCommand .RD 5 bank 0]

/-- The first interval of a DDR3-800 device, the two commands that close its banks and refresh them,
and the time the refresh and an activation take. -/
def firstInterval (queues : List CommandQueue) : List RefreshEvent :=
  List.replicate 390 (.step queues) ++ [.refresh fun _ => true, .refresh fun _ => true] ++
    List.replicate 41 (.step queues)

/-- A scheduler that the runs below start from. -/
def emptyScheduler (spec : DeviceSpec) : CommandScheduler where
  queueCount := 8
  commandQueue := fun _ => { perRequestorEnable := false }
  refreshMachine := RefreshMachine.create .distributed spec 0 0

instance (r : RefreshRun) (e : RefreshEvent) : Decidable (InTurn r e) := by
  cases e <;> unfold InTurn Marks <;> infer_instance

/-- The law where one front is a column access: its activation is sent in the call that clears the
flags. -/
theorem refreshGroups_whole_oneFront :
    Lib.Machine.Along (step (Dram.DDR3.device .DDR3_512Mb_x8 .DDR3_800D 1))
      (fun r _ r' _ => Whole r r')
      (start (emptyScheduler (Dram.DDR3.device .DDR3_512Mb_x8 .DDR3_800D 1)) .distributed
        (Dram.DDR3.device .DDR3_512Mb_x8 .DDR3_800D 1) 0 0)
      (firstInterval [readFront 0] ++ [.refresh fun _ => true]) :=
  refreshGroups_whole _ (.inl rfl) _ 0 0 _
    (Lib.Machine.along_of_check _ (fun r e _ => InTurn r e) _ _ _
      (fun _ _ _ check => of_decide_eq_true check) (by decide +kernel))

/-- **Two fronts leave an activation behind**: the call that clears the busy flags sends the first
and not the second. -/
theorem not_whole_twoFronts :
    ¬ Lib.Machine.Along (step (Dram.DDR3.device .DDR3_512Mb_x8 .DDR3_800D 1))
      (fun r _ r' _ => Whole r r')
      (start (emptyScheduler (Dram.DDR3.device .DDR3_512Mb_x8 .DDR3_800D 1)) .distributed
        (Dram.DDR3.device .DDR3_512Mb_x8 .DDR3_800D 1) 0 0)
      (firstInterval [readFront 0, readFront 1] ++ [.refresh fun _ => true]) := by
  intro along
  obtain ⟨r, os, ran, mech, busy, free, left⟩ := Lib.Machine.run_exists
    (step (Dram.DDR3.device .DDR3_512Mb_x8 .DDR3_800D 1))
    (fun r => r.machine.refresh_mechanism = .distributed ∧ r.machine.busyBank 1 = true ∧
      (r.scheduler.refresh (Dram.DDR3.device .DDR3_512Mb_x8 .DDR3_800D 1)
        fun _ => true).refreshMachine.busyBank 1 = false ∧
      (r.scheduler.refresh (Dram.DDR3.device .DDR3_512Mb_x8 .DDR3_800D 1)
        fun _ => true).refreshMachine.commandBuffer = [refreshCommand .ACT 5 1 0])
    (start (emptyScheduler (Dram.DDR3.device .DDR3_512Mb_x8 .DDR3_800D 1)) .distributed
      (Dram.DDR3.device .DDR3_512Mb_x8 .DDR3_800D 1) 0 0)
    (firstInterval [readFront 0, readFront 1]) (by decide +kernel)
  refine (Lib.Machine.along_last along ran rfl).1 1 busy free (refreshCommand .ACT 5 1 0) ?_ ?_
  · rw [left]
    exact List.mem_singleton_self _
  · intro perBank
    cases mech.symm.trans perBank

end RefreshRun
end MCsim
