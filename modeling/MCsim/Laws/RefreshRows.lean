import MCsim.Laws.Refresh
import MCsim.Laws.RowState
import MCsim.Traffic

/-!
# Distributed refresh and the row table

A distributed refresh closes every bank and does not tell the row table. The machine makes up for it:
it reopens the row of every column access that stands at the front of a queue, and as long as a bank
is marked busy nothing else is sent to it. So the word of a bank is what was sent, then what the
refresh machine has buffered, then what waits in the bank's queue; `course` is that word, and it leaves
the bank as the row table says.

Two things break it, and the runs in which neither happens are legal. A group that is generated while
a bank has a row in the table and nothing in its queue leaves that bank closed for good. And busy flags
that are dropped while activations are still buffered let a column access overtake them.
-/

namespace MCsim

open CommandScheduler RequestScheduler RefreshMachine

theorem casBuffer_timeless : Timeless casBuffer := fun clockCycle =>
  casBuffer.map_invariant (f := stamp clockCycle) (fun _ _ => Iff.rfl) (fun _ _ => rfl)

/-- A countdown that ends leaves at most one command in the buffer, which the device takes. -/
def RefreshMachine.Settled (m : RefreshMachine) (check : Answers) : Prop :=
  m.Due → m.commandBuffer = [] ∨ ∃ x, m.commandBuffer = [x] ∧ check x = true

namespace CommandScheduler

/-- The commands sent to a bank, those the refresh machine has for it and those that wait for it. -/
def course (s : CommandScheduler) (bank : Nat) : List BusPacket :=
  toBank bank (s.memoryDevice.commandTrace ++ s.refreshMachine.commandBuffer) ++ s.waiting bank

/-- What the runs keep whose refreshes are settled in time. -/
structure Reopens (s : CommandScheduler) (table : Nat → Option Nat) : Prop where
  mechanism : s.refreshMachine.refresh_mechanism = .distributed
  ranks : s.refreshMachine.ranks = 1
  banks : s.refreshMachine.banks = 8
  plain : ∀ x ∈ s.refreshMachine.commandBuffer, x.postCommand = false ∧ x.busPacketType ≠ .DATA
  busy : s.refreshMachine.commandBuffer ≠ [] → ∀ bank < 8,
    s.refreshMachine.isRefreshingBank bank = true
  narrow : ∀ bank, 8 ≤ bank → s.waiting bank = []
  follows : Follows casBuffer s.course table

theorem course_receive (s : CommandScheduler) (l : List BusPacket) (bank : Nat) :
    (s.receive l).course bank = s.course bank ++ l.filter (·.bank == bank) := by
  simp [course, receive, waiting]

namespace Reopens

variable {s s' : CommandScheduler} {table : Nat → Option Nat} {spec : DeviceSpec}

/-- **A request's commands** join the course of its bank. -/
theorem hands {rs rs' : RequestScheduler} {new : List BusPacket}
    (h : s.Reopens (rs.bankTable 0)) (tabled : rs.Tabled) (mapped : ∀ r ∈ rs.buffered, Mapped r)
    (hands : Hands rs rs' new) (clockCycle : Nat) :
    (s.receive (new.map (stamp clockCycle))).Reopens (rs'.bankTable 0) := by
  have banks := hands.commands tabled mapped
  refine ⟨h.mechanism, h.ranks, h.banks, h.plain, h.busy, fun bank hb => ?_, ?_⟩
  · rw [waiting_receive, h.narrow bank hb, List.nil_append, List.filter_eq_nil_iff]
    intro x hx
    obtain ⟨y, hy, rfl⟩ := List.mem_map.mp hx
    have small := (banks y hy).1
    simp only [stamp, beq_iff_eq]
    omega
  · cases hands with
    | idle => simpa using h.follows
    | @take i r picks small =>
      have mappedR : Mapped r := mapped r (List.mem_of_getElem? picks.at_)
      have request := rs.commandGenerator.casBuffer_request r (rs.isRowHit r)
        (rs.bankTable 0 r.bank) fun hit => by simpa [mappedR.isRowHit] using hit
      have follows := (Follows.request casBuffer_timeless h.follows request clockCycle).congr
        (course_receive s _)
      intro bank
      rw [bankTable_taken, mappedR.1, mappedR.2]
      simpa using follows bank

/-- **The refresh machine's turn** moves a command from its buffer to the trace. -/
theorem refresh (spec : DeviceSpec) {check : Answers} (h : s.Reopens table) (settled : s.refreshMachine.Settled check) :
    (s.refresh spec check).Reopens table := by
  obtain ⟨m, sent, call, refreshed⟩ := s.refresh_call spec check
  obtain ⟨buffer, mech⟩ := RefreshRun.call_buffer call
  have plain : ∀ x ∈ sent, x.postCommand = false ∧ x.busPacketType ≠ .DATA := fun x hx =>
    h.plain x (buffer ▸ List.mem_append_left _ (by simpa using hx))
  have trace := RefreshRun.receives_trace spec s.memoryDevice plain
  have waits := waiting_refresh s spec check
  have machine : m.ranks = s.refreshMachine.ranks ∧ m.banks = s.refreshMachine.banks ∧
      (m.commandBuffer ≠ [] → s.refreshMachine.commandBuffer ≠ [] ∧
        m.isRefreshingBank = s.refreshMachine.isRefreshingBank) := by
    cases call with
    | skip => exact ⟨rfl, rfl, fun filled => ⟨filled, rfl⟩⟩
    | send flag front taken =>
      obtain ⟨n, popped⟩ := popCommand_eq front
      rw [popped]
      exact ⟨rfl, rfl, fun _ => ⟨by simp [front], rfl⟩⟩
    | release due left =>
      refine ⟨rfl, rfl, fun filled => ?_⟩
      rcases settled due with empty | ⟨x, one, taken⟩
      · exact absurd empty filled
      · have no := left x (by simp [one])
        rw [taken] at no
        cases no
    | @releaseSend c rest due front taken =>
      obtain ⟨n, popped⟩ := popCommand_eq (m := s.refreshMachine.released) front
      rw [popped]
      refine ⟨rfl, rfl, fun filled => absurd ?_ filled⟩
      rcases settled due with empty | ⟨x, one, _⟩
      · cases empty.symm.trans front
      · exact (List.cons.inj (front.symm.trans one)).2
  refine ⟨?_, ?_, ?_, ?_, ?_, fun bank hb => (waits bank).trans (h.narrow bank hb),
    h.follows.congr fun bank => ?_⟩
  · rw [refreshed]
    exact mech.trans h.mechanism
  · rw [refreshed]
    exact machine.1.trans h.ranks
  · rw [refreshed]
    exact machine.2.1.trans h.banks
  · rw [refreshed]
    exact fun x hx => h.plain x (buffer ▸ List.mem_append_right _ hx)
  · rw [refreshed]
    intro filled bank hb
    obtain ⟨before, flags⟩ := machine.2.2 filled
    show m.isRefreshingBank bank = true
    rw [flags]
    exact h.busy before bank hb
  · unfold course
    rw [waits, refreshed]
    show toBank bank ((s.memoryDevice.receives spec sent).commandTrace ++ m.commandBuffer) ++ _ = _
    rw [trace, List.append_assoc, buffer]

/-- **A front is sent** only while the refresh machine has nothing for its bank. -/
theorem sends {check : Answers} {out : Option BusPacket} (h : s.Reopens table) (perBank : s.PerBank)
    (sends : Sends spec check s s' out) : s'.Reopens table := by
  cases sends with
  | idle => exact ⟨h.mechanism, h.ranks, h.banks, h.plain, h.busy, h.narrow, h.follows⟩
  | @send i c rest bound front can =>
    have cmd : OpenCommand i c := perBank.queued i c (by simp [front])
    have small : i < 8 := perBank.queues ▸ bound
    have free : s.refreshMachine.isRefreshingBank i = false := by
      simp only [canIssue, isIssuable, Bool.and_eq_true, cmd.1] at can
      by_contra busy
      simp only [RefreshMachine.busyBank, busy, if_false] at can
      cases can.2
    have quiet : s.refreshMachine.commandBuffer = [] := by
      by_contra filled
      rw [h.busy filled i small] at free
      cases free
    have machine := refreshMachine_issue s spec c i
    refine ⟨machine ▸ h.mechanism, machine ▸ h.ranks, machine ▸ h.banks, machine ▸ h.plain,
      machine ▸ h.busy, fun bank hb => ?_, h.follows.congr fun bank => ?_⟩
    · rw [waiting_issue perBank.general, if_neg (by omega)]
      exact h.narrow bank hb
    · have sends : Sends spec check s (s.issue spec c i) (some c) := .send bound front can
      have moved := future_sends perBank sends bank
      unfold future at moved
      unfold course
      rw [machine, quiet, List.append_nil, List.append_nil]
      exact moved

/-- Of queues that each add commands for their own bank, one concerns a bank. -/
theorem filter_flatMap_range (f : Nat → List BusPacket) (n bank : Nat)
    (own : ∀ i, ∀ x ∈ f i, x.bank = i ∧ x.busPacketType ≠ .PREA) :
    toBank bank ((List.range n).flatMap f) = if bank < n then f bank else [] := by
  induction n with
  | zero => rfl
  | succ n ih =>
    rw [List.range_succ, List.flatMap_append, toBank_append, ih, List.flatMap_singleton]
    by_cases here : bank = n
    · subst here
      have all : toBank bank (f bank) = f bank := List.filter_eq_self.mpr fun x hx => by
        simp [(own bank x hx).1]
      simp [all]
    · have none_ : toBank bank (f n) = [] := List.filter_eq_nil_iff.mpr fun x hx => by
        have mine := own n x hx
        simp only [mine.1, Bool.or_eq_true, beq_iff_eq, mine.2, or_false]
        exact fun h => here h.symm
      rw [none_, List.append_nil]
      by_cases less : bank < n
      · rw [if_pos less, if_pos (by omega)]
      · rw [if_neg less, if_neg (by omega)]

/-- What the front of a bank's queue adds to a group. -/
theorem queueCommands_front (perBank : s.PerBank)
    (mechanism : s.refreshMachine.refresh_mechanism = .distributed) (i : Nat) :
    s.refreshMachine.queueCommands (s.commandQueue i) =
      (((s.waiting i).head?.filter (·.busPacketType.isCas)).map fun c =>
        refreshCommand .ACT c.row i c.rank).toList := by
  have same : front (s.commandQueue i) = (s.waiting i).head? := rfl
  rw [queueCommands, same]
  cases head : (s.waiting i).head? with
  | none => rfl
  | some c =>
    obtain ⟨bank, _, type⟩ := perBank.queued i c (List.mem_of_head? head)
    dsimp only
    rcases type with type | type | type
    · simp [type, BusPacketType.beforeACT, BusPacketType.toNat, BusPacketType.isCas, Option.filter]
    · simp [type, BusPacketType.beforeACT, BusPacketType.toNat, BusPacketType.isCas, Option.filter]
    · rw [if_pos (BusPacketType.beforeACT_of_isCas type), mechanism]
      simp [type, bank, Option.filter]

/-- What a group does to a bank: it is closed, and the row of a column access at the front of its
queue is opened again. -/
theorem group_course (perBank : s.PerBank) (h : s.Reopens table) (bank : Nat)
    (open_ : Option Nat) :
    casBuffer.Accepts open_ (toBank bank (s.refreshMachine.group s.queues)) ∧
      casBuffer.after open_ (toBank bank (s.refreshMachine.group s.queues)) =
        ((s.waiting bank).head?.filter (·.busPacketType.isCas)).map (·.row) := by
  have adds : ∀ i, ∀ x ∈ s.refreshMachine.queueCommands (s.commandQueue i),
      x.bank = i ∧ x.busPacketType ≠ .PREA := by
    intro i x hx
    rw [queueCommands_front perBank h.mechanism, Option.mem_toList, Option.map_eq_some_iff] at hx
    obtain ⟨c, _, rfl⟩ := hx
    exact ⟨rfl, by simp [refreshCommand]⟩
  have group : toBank bank (s.refreshMachine.group s.queues) =
      toBank bank [refreshCommand .PREA 0 0 0, refreshCommand .REF 0 0 0] ++
        (((s.waiting bank).head?.filter (·.busPacketType.isCas)).map fun c =>
          refreshCommand .ACT c.row bank c.rank).toList := by
    have queues : s.queues.flatMap s.refreshMachine.queueCommands =
        (List.range 8).flatMap fun i => s.refreshMachine.queueCommands (s.commandQueue i) := by
      rw [queues, perBank.queues, List.flatMap_map]
    have rank : s.refreshMachine.rankCommands =
        [refreshCommand .PREA 0 0 0, refreshCommand .REF 0 0 0] := by
      simp [rankCommands, h.ranks, List.range_succ]
    simp only [RefreshMachine.group, h.mechanism]
    rw [rank, queues, toBank_append, filter_flatMap_range _ _ _ adds]
    by_cases small : bank < 8
    · rw [if_pos small, queueCommands_front perBank h.mechanism]
    · rw [if_neg small, h.narrow bank (by omega)]
      rfl
  rw [group]
  have closes : casBuffer.Accepts open_
      (toBank bank [refreshCommand .PREA 0 0 0, refreshCommand .REF 0 0 0]) ∧
      casBuffer.after open_
        (toBank bank [refreshCommand .PREA 0 0 0, refreshCommand .REF 0 0 0]) = none := by
    by_cases zero : bank = 0
    · subst zero
      exact ⟨⟨by simp [casBuffer_ok, refreshCommand], by simp [casBuffer_ok, refreshCommand],
        trivial⟩, rfl⟩
    · have other : toBank bank [refreshCommand .PREA 0 0 0, refreshCommand .REF 0 0 0] =
          [refreshCommand .PREA 0 0 0] := by
        have : (0 == bank) = false := by simpa using fun h => zero h.symm
        simp [toBank, refreshCommand, this]
      rw [other]
      exact ⟨⟨by simp [casBuffer_ok, refreshCommand], trivial⟩, rfl⟩
  rw [casBuffer.accepts_append, casBuffer.after_append, closes.2]
  cases (s.waiting bank).head?.filter (·.busPacketType.isCas) with
  | none => exact ⟨⟨closes.1, trivial⟩, rfl⟩
  | some c => exact ⟨⟨closes.1, by simp [casBuffer_ok, refreshCommand], trivial⟩, rfl⟩

/-- What is in a group is a command, and not posted. -/
theorem group_plain (perBank : s.PerBank) (h : s.Reopens table) {x : BusPacket}
    (hx : x ∈ s.refreshMachine.group s.queues) :
    x.postCommand = false ∧ x.busPacketType ≠ .DATA := by
  simp only [RefreshMachine.group, h.mechanism] at hx
  rcases List.mem_append.mp hx with hx | hx
  · simp only [rankCommands, List.mem_flatMap, List.mem_cons, List.not_mem_nil, or_false] at hx
    obtain ⟨rank, _, rfl | rfl⟩ := hx <;> exact ⟨rfl, by simp [refreshCommand]⟩
  · obtain ⟨q, hq, hx⟩ := List.mem_flatMap.mp hx
    obtain ⟨i, _, rfl⟩ := List.mem_map.mp hq
    rw [queueCommands_front perBank h.mechanism, Option.mem_toList, Option.map_eq_some_iff] at hx
    obtain ⟨c, _, rfl⟩ := hx
    exact ⟨rfl, by simp [refreshCommand]⟩

/-- A bank goes on from the front's row where the front is a column access, and from nothing
otherwise, as it would from where it was. -/
theorem resume {bank : Nat} {c : BusPacket} {rest : List BusPacket} (cmd : OpenCommand bank c)
    {open_ : Option Nat} (accepts : casBuffer.Accepts open_ (c :: rest)) :
    casBuffer.Accepts (((some c).filter (·.busPacketType.isCas)).map (·.row)) (c :: rest) ∧
      casBuffer.after (((some c).filter (·.busPacketType.isCas)).map (·.row)) (c :: rest) =
        casBuffer.after open_ (c :: rest) := by
  obtain ⟨ok, later⟩ := accepts
  suffices same : casBuffer.ok (((some c).filter (·.busPacketType.isCas)).map (·.row)) c ∧
      casBuffer.next (((some c).filter (·.busPacketType.isCas)).map (·.row)) c =
        casBuffer.next open_ c by
    rw [casBuffer.accepts_cons, casBuffer.after_cons, casBuffer.after_cons, same.2]
    exact ⟨⟨same.1, later⟩, rfl⟩
  obtain ⟨_, _, type | type | type⟩ := cmd
  · simp [casBuffer_ok, casBuffer_next, rowNext, type, BusPacketType.isCas]
  · simp [casBuffer_ok, casBuffer_next, rowNext, type, BusPacketType.isCas]
  · have here : open_ = some c.row := ok type
    have filtered : ((some c).filter (·.busPacketType.isCas)).map (·.row) = open_ := by
      simp [Option.filter, type, here]
    rw [filtered]
    exact ⟨ok, rfl⟩

/-- **The end of an interval** puts a group before what waits. The bank goes on from where it would
have been, unless nothing waits and the bank was open. -/
theorem tick (h : s.Reopens table) (perBank : s.PerBank)
    (idle : s.refreshMachine.countdown = 0 → ∀ bank < 8, s.waiting bank = [] → table bank = none)
    (bound : ∀ bank, table bank ≠ none → bank < 8) : s.tick.Reopens table := by
  have waits := waiting_tick perBank.general
  have machine : s.tick.refreshMachine = s.refreshMachine.step s.queues := rfl
  have stepped := step_eq s.refreshMachine s.queues
  by_cases ends : s.refreshMachine.countdown = 0
  · rw [if_pos ends] at stepped
    refine ⟨?_, ?_, ?_, ?_, ?_, fun bank hb => (waits bank).trans (h.narrow bank hb), ?_⟩
    · rw [machine, stepped]
      exact h.mechanism
    · rw [machine, stepped]
      exact h.ranks
    · rw [machine, stepped]
      exact h.banks
    · rw [machine, stepped]
      intro x hx
      rcases List.mem_append.mp hx with hx | hx
      · exact h.plain x hx
      · exact group_plain perBank h hx
    · rw [machine, stepped]
      intro _ bank hb
      show s.refreshMachine.holdBanks bank = true
      simp [holdBanks, h.mechanism, h.ranks, h.banks, hb]
    · intro bank
      obtain ⟨legal, leaves⟩ := h.follows bank
      have inserted : s.tick.course bank =
          toBank bank (s.memoryDevice.commandTrace ++ s.refreshMachine.commandBuffer) ++
            (toBank bank (s.refreshMachine.group s.queues) ++ s.waiting bank) := by
        unfold course
        rw [waits, machine, stepped]
        show toBank bank (s.memoryDevice.commandTrace ++ (_ ++ _)) ++ _ = _
        rw [← List.append_assoc, toBank_append, List.append_assoc]
      unfold course at legal leaves
      rw [casBuffer.accepts_append] at legal
      rw [casBuffer.after_append] at leaves
      obtain ⟨accepts, after⟩ := group_course perBank h bank (casBuffer.after none
        (toBank bank (s.memoryDevice.commandTrace ++ s.refreshMachine.commandBuffer)))
      rw [inserted, casBuffer.accepts_append, casBuffer.accepts_append, casBuffer.after_append,
        casBuffer.after_append, after]
      cases queue : s.waiting bank with
      | nil =>
        have closed : table bank = none := by
          by_contra opened
          exact opened (idle ends bank (bound bank opened) queue)
        exact ⟨⟨legal.1, accepts, trivial⟩, closed.symm⟩
      | cons c rest =>
        rw [queue] at legal leaves
        obtain ⟨resumes, same⟩ := resume (perBank.queued bank c (by simp [queue])) legal.2
        exact ⟨⟨legal.1, accepts, resumes⟩, same.trans leaves⟩
  · rw [if_neg ends] at stepped
    refine ⟨?_, ?_, ?_, ?_, ?_, fun bank hb => (waits bank).trans (h.narrow bank hb),
      h.follows.congr fun bank => ?_⟩
    · rw [machine, stepped]
      exact h.mechanism
    · rw [machine, stepped]
      exact h.ranks
    · rw [machine, stepped]
      exact h.banks
    · rw [machine, stepped]
      exact h.plain
    · rw [machine, stepped]
      exact h.busy
    · unfold course
      rw [waits, machine, stepped]
      rfl

/-- Neither the refresh machine's turn nor a front touches the interval's countdown. -/
theorem countdown_eq {refreshCheck check : Answers} {out : Option BusPacket}
    (sends : Sends spec check (s.refresh spec refreshCheck) s' out) :
    s'.refreshMachine.countdown = s.refreshMachine.countdown := by
  have machine : s'.refreshMachine = (s.refresh spec refreshCheck).refreshMachine := by
    cases sends with
    | idle => rfl
    | send => exact refreshMachine_issue ..
  obtain ⟨m, sent, call, refreshed⟩ := s.refresh_call spec refreshCheck
  rw [machine, refreshed]
  show m.countdown = _
  cases call with
  | skip => rfl
  | send flag front taken =>
    obtain ⟨n, popped⟩ := popCommand_eq front
    rw [popped]
    rfl
  | release => rfl
  | @releaseSend c rest due front taken =>
    obtain ⟨n, popped⟩ := popCommand_eq (m := s.refreshMachine.released) front
    rw [popped]
    rfl

end Reopens
end CommandScheduler

namespace MemoryController

variable {ρ κ : Type} {setup : Setup} {parts : Components ρ κ}

/-- What runs with a distributed refresh keep, where it is settled in time. -/
structure RefreshInv (c : MemoryController ρ κ) : Prop where
  wired : c.Wired
  reopens : c.commandScheduler.Reopens (c.requestScheduler.bankTable 0)

/-- What is asked of a cycle: where the countdown of a refresh ends, one command is left at most and
the device takes it; and where a group is generated, every bank with nothing in its queue has no row in
the table. -/
def Settles (c : MemoryController ρ κ) (e : Event) (c' : MemoryController ρ κ) : Prop :=
  match e with
  | .addRequest _ _ _ _ => True
  | .update refreshCheck _ => c.commandScheduler.refreshMachine.Settled refreshCheck ∧
      (c.commandScheduler.refreshMachine.countdown = 0 → ∀ bank < 8,
        c'.commandScheduler.waiting bank = [] → c'.requestScheduler.bankTable 0 bank = none)

/-- **A cycle that settles keeps table and banks in agreement.** -/
theorem Cycle.refreshInv {refreshCheck check : Answers} {c c' : MemoryController ρ κ}
    (cycle : Cycle setup refreshCheck check c c') (inv : c.RefreshInv)
    (settles : c.Settles (.update refreshCheck check) c') : c'.RefreshInv := by
  have wired' := cycle.wired inv.wired
  obtain ⟨priv, priv', hands, sends⟩ := cycle
  rename_i rs new cs out
  obtain ⟨wired, reopens⟩ := inv
  obtain ⟨settled, idle⟩ := settles
  have received := wired.perBank_receive hands
  have perBank := received.refresh.sends sends
  obtain ⟨resized, ticked, _⟩ := endCycle_frame setup
    (c := c.scheduled rs priv new cs priv') out wired.writes
  have reopens₁ := reopens.hands wired.tabled wired.mapped hands c.clockCycle
  have reopens₂ := (reopens₁.refresh setup.device settled).sends received.refresh sends
  refine ⟨wired', ?_⟩
  rw [ticked, resized.table] at idle ⊢
  refine reopens₂.tick perBank (fun ends bank small empty => ?_)
    (hands.tabled wired.tabled wired.mapped).bound
  rw [Reopens.countdown_eq sends] at ends
  exact idle ends bank small ((waiting_tick perBank.general bank).trans empty)

theorem refreshInv_create (open_ : setup.OpenPage)
    (distributed : setup.refresh_mechanism = .distributed) (ranks : setup.device.ranks = 1)
    (banks : setup.device.banks = 8) (parts : Components ρ κ) (refreshCounting bank_release : Nat) :
    (create setup parts refreshCounting bank_release).RefreshInv :=
  ⟨wired_create open_ parts refreshCounting bank_release, distributed, ranks, banks,
    fun _ h => absurd h List.not_mem_nil, fun h => absurd rfl h, fun _ _ => rfl,
    fun _ => ⟨trivial, rfl⟩⟩

theorem step_refreshInv (open_ : setup.OpenPage) (opens : parts.OpenPage)
    {c c' : MemoryController ρ κ} {e : Event} {o : Unit} (inv : c.RefreshInv)
    (h : step setup parts c e = some (c', o)) (settles : c.Settles e c') : c'.RefreshInv := by
  obtain ⟨requestorID, address, R_W, size, _, rfl⟩ | ⟨refreshCheck, check, rfl, cycle⟩ :=
    step_cases open_ opens inv.wired h
  · exact ⟨wired_arrived inv.wired (incoming_mapped ..) R_W, inv.reopens⟩
  · exact cycle.refreshInv inv settles

/-- **Refresh keeps banks and row table in agreement**, in the runs whose cycles settle: no `RD` or
`WR` is sent to a bank that a refresh closed and that was not activated with its row since. -/
theorem refresh_reactivated (open_ : setup.OpenPage)
    (distributed : setup.refresh_mechanism = .distributed) (ranks : setup.device.ranks = 1)
    (banks : setup.device.banks = 8) (opens : parts.OpenPage) (refreshCounting bank_release : Nat)
    (events : List Event)
    (settles : Lib.Machine.Along (step setup parts) (fun c e c' _ => c.Settles e c')
      (create setup parts refreshCounting bank_release) events)
    {c : MemoryController ρ κ} {os : List Unit}
    (ran : Lib.Machine.run (step setup parts) (create setup parts refreshCounting bank_release)
      events = some (c, os)) (bank : Nat) :
    Reactivated c.commandScheduler.memoryDevice.commandTrace bank := by
  have inv : c.RefreshInv := Lib.Machine.run_invariant_along RefreshInv
    (fun inv h settles => step_refreshInv open_ opens inv h settles)
    (refreshInv_create open_ distributed ranks banks parts refreshCounting bank_release) settles ran
  have legal := (inv.reopens.follows bank).1
  unfold course at legal
  rw [casBuffer.accepts_append, toBank_append, casBuffer.accepts_append] at legal
  have sent : CasLegal c.commandScheduler.memoryDevice.commandTrace bank := legal.1.1
  exact sent.reactivated

/-- The set-up of `FRFCFS.ini` with a distributed refresh, on the slowest DDR3 device. -/
def refreshSetup : Setup := perBankSetup .DDR3_512Mb_x8 .DDR3_800D false false .distributed

/-- The controller after `n` cycles in which nothing arrived. -/
def waited (n : Nat) : MemoryController Unit Unit :=
  let c := create refreshSetup frfcfsIni 0 0
  { c with
    clockCycle := n
    requestScheduler := { c.requestScheduler with clockCycle := n + 1 }
    commandScheduler := { c.commandScheduler with
      refreshMachine := { c.commandScheduler.refreshMachine with globeRefreshCountdown := 390 - n }
      clock := n + 1 }
    stats := { close_counter := n, open_counter := n } }

theorem countdown_waited {n : Nat} (early : n + 1 < 390) :
    (waited n).commandScheduler.refreshMachine.countdown = 390 - (n + 1) := by
  show (390 - n + (2 ^ 32 - 1)) % 2 ^ 32 = _
  omega

theorem tick_waited {n : Nat} (early : n + 1 < 390) :
    (waited n).commandScheduler.tick = (waited (n + 1)).commandScheduler := by
  have counts := countdown_waited early
  have still : (waited n).commandScheduler.refreshMachine.countdown ≠ 0 := by omega
  have keeps : ∀ q, (waited n).commandScheduler.refreshMachine.stepQueue q = q := fun _ => if_neg still
  have machine := step_eq (waited n).commandScheduler.refreshMachine (waited n).commandScheduler.queues
  rw [if_neg still, counts] at machine
  unfold CommandScheduler.tick
  simp only [machine, keeps, ite_self]
  simp [waited, create, refreshSetup, perBankSetup, RefreshMachine.create]

/-- One more of them, whatever the device would answer. -/
theorem step_waited {n : Nat} (early : n + 1 < 390) (refreshCheck check : Answers) :
    step refreshSetup frfcfsIni (waited n) (.update refreshCheck check) = some (waited (n + 1), ()) := by
  have prepared : (waited n).prepare refreshSetup frfcfsIni refreshCheck = some (waited n) := rfl
  have scheduled : (waited n).schedule refreshSetup frfcfsIni check = some (waited n, none) := rfl
  have ended : endCycle refreshSetup (waited n) none = waited (n + 1) := by
    show { waited n with
      clockCycle := n + 1
      requestScheduler := { (waited n).requestScheduler with clockCycle := n + 2 }
      commandScheduler := (waited n).commandScheduler.tick
      stats := { close_counter := n + 1, open_counter := n + 1 } } = _
    rw [tick_waited early]
    rfl
  rw [step, update_eq, prepared, Option.bind_some, scheduled, Option.map_some]
  exact congrArg (fun c => some (c, ())) ended

/-- A cycle in which the device refuses nothing. -/
def taken : Event := .update (fun _ => true) fun _ => true

/-- A cycle in which it refuses everything. -/
def refused : Event := .update (fun _ => false) fun _ => false

/-- **Idle cycles lead in**: a run that starts after them is one from their start, and it settles where that
one does. -/
theorem lead_in {events : List Event} {c : MemoryController Unit Unit} {os : List Unit} (n : Nat) :
    ∀ m, m + n < 390 →
      Lib.Machine.run (step refreshSetup frfcfsIni) (waited (m + n)) events = some (c, os) →
      Lib.Machine.Along (step refreshSetup frfcfsIni) (fun c e c' _ => c.Settles e c') (waited (m + n))
        events →
      Lib.Machine.run (step refreshSetup frfcfsIni) (waited m) (List.replicate n taken ++ events) =
          some (c, List.replicate n () ++ os) ∧
        Lib.Machine.Along (step refreshSetup frfcfsIni) (fun c e c' _ => c.Settles e c') (waited m)
          (List.replicate n taken ++ events) := by
  induction n with
  | zero => exact fun m _ ran settles => ⟨ran, settles⟩
  | succ n ih =>
    intro m early ran settles
    rw [show m + (n + 1) = m + 1 + n by omega] at ran settles early
    obtain ⟨ran', settles'⟩ := ih (m + 1) early ran settles
    have stepped := step_waited (n := m) (by omega) (fun _ => true) fun _ => true
    refine ⟨Lib.Machine.run_cons_eq_some.mpr ⟨waited (m + 1), (), _, stepped, ran', rfl⟩, ?_⟩
    intro c' o went
    obtain ⟨rfl, rfl⟩ : waited (m + 1) = c' ∧ () = o := by simpa [taken, stepped] using went
    have still := countdown_waited (n := m) (by omega)
    exact ⟨⟨fun due => (nomatch due.1), fun ends => absurd ends (by omega)⟩, settles'⟩

/-- A read that arrives in the cycle 386, four before the first group is made: its bank is opened, and the
read still waits then. The answers are the device's, cycle by cycle: `PREA` is refused for fifteen cycles
after the `ACT`, and the read for five after its bank is opened anew. -/
def readAtRefresh : List Event :=
  .addRequest 1 0 true 64 :: taken :: List.replicate 14 refused ++ taken :: List.replicate 4 refused ++
    taken :: List.replicate 40 refused ++ .update (fun _ => true) (fun _ => false) ::
      List.replicate 4 refused ++ [taken]

/-- The law at a run through the first refresh: it closes the bank of a read that waits, and the read is
sent once the bank is opened anew. -/
theorem refresh_reactivated_waitingRead : ∃ c os,
    Lib.Machine.run (step refreshSetup frfcfsIni) (create refreshSetup frfcfsIni 0 0)
        (List.replicate 386 taken ++ readAtRefresh) = some (c, os) ∧
      Reactivated c.commandScheduler.memoryDevice.commandTrace 1 ∧
      c.commandScheduler.memoryDevice.commandTrace.map (·.busPacketType) =
        [.ACT, .PREA, .REF, .ACT, .RD] := by
  obtain ⟨c, os, read, trace⟩ := Lib.Machine.run_exists (step refreshSetup frfcfsIni)
    (fun c => c.commandScheduler.memoryDevice.commandTrace.map (·.busPacketType) =
      [.ACT, .PREA, .REF, .ACT, .RD]) (waited 386) readAtRefresh (by decide +kernel)
  have reads := Lib.Machine.along_of_check (step refreshSetup frfcfsIni)
    (fun c e c' => match e with
      | .addRequest _ _ _ _ => true
      | .update refreshCheck _ =>
        let m := c.commandScheduler.refreshMachine
        (!m.Due || m.commandBuffer.length ≤ 1 && m.commandBuffer.all refreshCheck) &&
          (m.countdown != 0 || (List.range 8).all fun bank =>
            !(c'.commandScheduler.waiting bank).isEmpty ||
              (c'.requestScheduler.bankTable 0 bank).isNone))
    (fun c e c' => c.Settles e c') (waited 386) readAtRefresh
    (fun c e c' check => ?_) (by decide +kernel)
  · obtain ⟨ran, settles⟩ := lead_in 386 0 (by decide) read reads
    exact ⟨c, _, ran, refresh_reactivated
      ⟨⟨by decide, rfl, rfl, rfl, rfl, rfl, rfl, fun _ => rfl⟩, rfl, rfl, rfl⟩ rfl rfl rfl
      (Components.General.openPage ⟨.inr rfl, rfl, .inl rfl⟩) 0 0 _ settles ran 1, trace⟩
  · cases e with
    | addRequest => trivial
    | update refreshCheck _ =>
      simp only [Bool.and_eq_true, Bool.or_eq_true, Bool.not_eq_true', decide_eq_false_iff_not,
        decide_eq_true_eq, List.isEmpty_eq_false_iff, bne_iff_ne, ne_eq, List.all_eq_true,
        List.mem_range, Option.isNone_iff_eq_none] at check
      obtain ⟨release, interval⟩ := check
      refine ⟨fun due => ?_, fun ends bank small empty => ?_⟩
      · obtain ⟨one, accepted⟩ := release.resolve_left fun no => no due
        match buffer : c.commandScheduler.refreshMachine.commandBuffer with
        | [] => exact .inl rfl
        | [x] => exact .inr ⟨x, rfl, accepted x (by simp [buffer])⟩
        | _ :: _ :: _ => simp [buffer] at one
      · exact (interval.resolve_left fun no => no ends) bank small |>.resolve_left fun no => no empty

/-- **A refresh closes an idle bank behind the row table's back**: a row is read, its bank has nothing
in its queue when the group of the first interval is generated, and a later read of the row is sent to
the closed bank. -/
theorem not_reactivated_idleBank : ∃ c os,
    Lib.Machine.run (step refreshSetup frfcfsIni) (create refreshSetup frfcfsIni 0 0)
        ([.addRequest 1 0 true 64] ++ List.replicate 430 (.update (fun _ => true) fun _ => true) ++
          [.addRequest 1 0 true 64] ++ List.replicate 2 (.update (fun _ => true) fun _ => true)) =
        some (c, os) ∧
      ¬ Reactivated c.commandScheduler.memoryDevice.commandTrace 1 ∧
      c.commandScheduler.memoryDevice.commandTrace.map (·.busPacketType) =
        [.ACT, .RD, .PREA, .REF, .RD] :=
  Lib.Machine.run_exists _ _ _ _ (by decide +kernel)

end MemoryController
end MCsim
