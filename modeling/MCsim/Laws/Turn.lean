import Mathlib.Algebra.BigOperators.Group.Finset.Basic
import Mathlib.Algebra.Order.BigOperators.Group.Finset
import MCsim.Laws.Completion
import MCsim.Laws.Eager
import MCsim.Laws.Pipelines

/-!
# What a cycle leaves to do

The work ahead of a memory system without refresh is in four places: requests in the buffer, commands in
the queues of the banks, write data counted down in the controller, and read data counted down in the
device. `Turn` takes a cycle of the whole memory system apart, with what the command scheduler does where
it could send: an `Eager` one does not wait. `Able` is what every event keeps that it takes to get through
the work: the accounts, queues for eight banks only, no bank held by the refresh machine, and pipelines in
order.
-/

namespace MCsim

open CommandScheduler RequestScheduler Lib.DelayLine

/-! ## The commands that wait -/

namespace CommandScheduler

variable {s s' : CommandScheduler} {spec : DeviceSpec} {check : Answers}

/-- How many commands wait for the eight banks. -/
def load (s : CommandScheduler) : Nat := ∑ i ∈ Finset.range 8, (s.waiting i).length

theorem load_congr (same : ∀ i < 8, s'.waiting i = s.waiting i) : s'.load = s.load :=
  Finset.sum_congr rfl fun i hi => by rw [same i (Finset.mem_range.mp hi)]

theorem exists_waiting (positive : 0 < s.load) : ∃ i < 8, s.waiting i ≠ [] := by
  by_contra none_
  have empty : s.load = 0 := by
    apply Finset.sum_eq_zero
    intro i hi
    rw [List.length_eq_zero_iff]
    by_contra waits
    exact none_ ⟨i, Finset.mem_range.mp hi, waits⟩
  omega

theorem load_refresh (s : CommandScheduler) (spec : DeviceSpec) (check : Answers) :
    (s.refresh spec check).load = s.load :=
  load_congr fun i _ => waiting_refresh s spec check i

theorem load_tick (general : s.General) : s.tick.load = s.load :=
  load_congr fun i _ => waiting_tick general i

theorem waiting_of_load_zero (zero : s.load = 0) {i : Nat} (hi : i < 8) : s.waiting i = [] :=
  List.length_eq_zero_iff.mp (Finset.sum_eq_zero_iff.mp zero i (Finset.mem_range.mpr hi))

/-- Every command for one of the eight banks is counted once. -/
theorem sum_filter_bank {l : List BusPacket} (banks : ∀ c ∈ l, c.bank < 8) :
    ∑ i ∈ Finset.range 8, (l.filter (·.bank == i)).length = l.length := by
  have counted := Multiset.sum_count_eq_card (s := Finset.range 8) (m := (l.map (·.bank) : List Nat))
    fun i hi => by
      obtain ⟨c, hc, rfl⟩ := List.mem_map.mp (Multiset.mem_coe.mp hi)
      exact Finset.mem_range.mpr (banks c hc)
  rw [Multiset.coe_card, List.length_map] at counted
  rw [← counted]
  refine Finset.sum_congr rfl fun i _ => ?_
  rw [Multiset.coe_count, List.count, List.countP_map, List.countP_eq_length_filter]
  rfl

theorem load_receive {l : List BusPacket} (banks : ∀ c ∈ l, c.bank < 8) :
    (s.receive l).load = s.load + l.length := by
  simp only [load, waiting_receive, List.length_append, Finset.sum_add_distrib, sum_filter_bank banks]

/-- A command that is sent waits no more. -/
theorem load_sends {out : Option BusPacket} (perBank : s.PerBank) (sends : Sends spec check s s' out) :
    s'.load + out.toList.length = s.load := by
  cases sends with
  | idle left => rfl
  | @send i c rest bound front can =>
    have here : i ∈ Finset.range 8 := Finset.mem_range.mpr (perBank.queues ▸ bound)
    unfold load
    rw [← Finset.add_sum_erase _ _ here, ← Finset.add_sum_erase _ (fun i => (s.waiting i).length) here]
    have others : ∀ j ∈ (Finset.range 8).erase i,
        ((s.issue spec c i).waiting j).length = (s.waiting j).length := by
      intro j hj
      rw [waiting_issue perBank.general, if_neg (Finset.ne_of_mem_erase hj)]
    rw [Finset.sum_congr rfl others, waiting_issue perBank.general, if_pos rfl, front]
    simp only [List.tail_cons, List.length_cons, Option.toList_some, List.length_nil]
    omega

/-! ## A refresh machine that holds no bank -/

/-- No bank is held for a refresh. -/
def Free (s : CommandScheduler) : Prop := ∀ bank, s.refreshMachine.busyBank bank = false

theorem Free.refresh (free : s.Free) (quiet : s.Quiet) (spec : DeviceSpec) (check : Answers) :
    (s.refresh spec check).Free ∧ (s.refresh spec check).cmdQueueTimer = s.cmdQueueTimer := by
  have nothing := quiet.nothing
  have mechanism := quiet.1
  have kept : ∀ bank, s.refreshMachine.refresh.1.busyBank bank = false := by
    intro bank
    unfold RefreshMachine.refresh
    split
    · simp only [RefreshMachine.busyBank, RefreshMachine.releaseBanks, mechanism]
      exact free bank
    · exact free bank
  unfold CommandScheduler.refresh
  split
  · dsimp only
    rw [nothing]
    exact ⟨kept, rfl⟩
  · exact ⟨free, rfl⟩

theorem Free.sends {out : Option BusPacket} (free : s.Free) (sends : Sends spec check s s' out) :
    s'.Free := by
  cases sends with
  | idle left => exact free
  | send bound front can =>
    unfold Free
    rw [refreshMachine_issue]
    exact free

theorem Free.tick (free : s.Free) (quiet : s.Quiet) : s.tick.Free := by
  intro bank
  have held : s.refreshMachine.isRefreshingBank bank = false := free bank
  simp only [CommandScheduler.tick, RefreshMachine.busyBank, RefreshMachine.step]
  split
  · simp [RefreshMachine.commandGenerate, RefreshMachine.holdBanks, quiet.1, held]
  · exact held

/-- Without a bank held, a front can be issued when its queue's delay is over and the device takes it. -/
theorem candidate_of_front (general : s.General) (free : s.Free) {i : Nat} {c : BusPacket}
    (front : (s.waiting i).head? = some c) (ready : s.cmdQueueTimer i c.busPacketType = 0)
    (taken : check c = true) : s.candidate check i = some c := by
  have can : s.canIssue check i c = true := by
    simp [canIssue, isReady, isIssuable, CommandQueue.isPerRequestor, (general i).1, ready, free c.bank,
      taken]
  rw [candidate, front, Option.filter_some, if_pos can]

/-! ## The timers of the queues -/

/-- No queue waits longer than the longest delay. -/
def Within (τ : Nat) (s : CommandScheduler) : Prop := ∀ i t, s.cmdQueueTimer i t ≤ τ

theorem timer_sends {out : Option BusPacket} {τ : Nat} (general : s.General)
    (sends : Sends spec check s s' out) (delays : ∀ t t', spec.command_timing t t' ≤ τ)
    (within : s.Within τ) : s'.Within τ := by
  cases sends with
  | idle left => exact within
  | @send i c rest bound front can =>
    intro j t
    have perReq := (general i).1
    simp only [issue, sendCommand, CommandQueue.isPerRequestor, perReq, Bool.false_eq_true, if_false]
    split
    · unfold raiseTimer
      split
      · exact max_le (within i t) (delays _ _)
      · exact within i t
    · exact within j t

/-- Sending only raises timers, and the queue's own to the delays of what was sent. -/
theorem timer_rises {out : Option BusPacket} (perBank : s.PerBank) (sends : Sends spec check s s' out) :
    (∀ i t, s.cmdQueueTimer i t ≤ s'.cmdQueueTimer i t) ∧
      ∀ x, out = some x → ∀ t : BusPacketType, t.toNat < BusPacketType.PDE.toNat →
        spec.command_timing x.busPacketType t ≤ s'.cmdQueueTimer x.bank t := by
  cases sends with
  | idle left => exact ⟨fun _ _ => Nat.le_refl _, fun _ h => by cases h⟩
  | @send i c rest bound front can =>
    have perReq := (perBank.general i).1
    have own : c.bank = i := (perBank.queued i c (by simp [front])).1
    have raised : ∀ j t, (s.issue spec c i).cmdQueueTimer j t =
        if j = i then raiseTimer spec c (s.cmdQueueTimer i) t else s.cmdQueueTimer j t := by
      intro j t
      simp only [issue, sendCommand, CommandQueue.isPerRequestor, perReq, Bool.false_eq_true, if_false]
      split <;> rfl
    refine ⟨fun j t => ?_, ?_⟩
    · rw [raised]
      split
      · next here =>
        unfold raiseTimer
        split
        · exact here ▸ Nat.le_max_left _ _
        · exact here ▸ Nat.le_refl _
      · exact Nat.le_refl _
    · rintro x ⟨⟩ t timed
      rw [raised, if_pos own, raiseTimer, if_pos timed]
      exact Nat.le_max_right _ _

/-- What is sent was ready, and the device took it. -/
theorem ready_sends {out : Option BusPacket} (perBank : s.PerBank) (sends : Sends spec check s s' out) :
    ∀ x, out = some x → check x = true ∧ s.cmdQueueTimer x.bank x.busPacketType = 0 := by
  cases sends with
  | idle left => exact fun _ h => by cases h
  | @send i c rest bound front can =>
    rintro x ⟨⟩
    have own : c.bank = i := (perBank.queued i c (by simp [front])).1
    simp only [canIssue, isReady, isIssuable, CommandQueue.isPerRequestor, (perBank.general i).1,
      Bool.false_eq_true, if_false, Bool.and_eq_true, decide_eq_true_eq] at can
    obtain ⟨ready, takes⟩ := can
    refine ⟨?_, own ▸ ready⟩
    split at takes
    · exact takes
    · cases takes

theorem timer_tick (general : s.General) (i : Nat) (t : BusPacketType) :
    s.tick.cmdQueueTimer i t =
      if i < s.queueCount then s.cmdQueueTimer i t - 1 else s.cmdQueueTimer i t := by
  simp only [tick, CommandQueue.isPerRequestor, (general i).1, and_true]

end CommandScheduler

/-! ## A cycle of the memory system -/

namespace MemoryController

variable {ρ κ : Type} {setup : Setup} {parts : Components ρ κ} {c c' : MemoryController ρ κ}

/-- The first half of a cycle: a request is handed over, and the refresh machine has its turn. -/
theorem prepare_hands (open_ : setup.OpenPage) (opens : parts.OpenPage) (wired : c.Wired)
    (fits : c.Fits) (refreshCheck : Answers) :
    ∃ rs new priv, Hands c.requestScheduler rs new ∧
      c.prepare setup parts refreshCheck = some { c with
        requestScheduler := rs, requestPrivate := priv, stats := new.foldl trackCommand c.stats
        commandScheduler := (c.commandScheduler.receive (new.map (stamp c.clockCycle))).refresh
          setup.device refreshCheck } := by
  have rest : ∀ (rs : RequestScheduler) (new : List BusPacket) (priv : ρ),
      Hands c.requestScheduler rs new →
      parts.requestScheduler.requestSchedule parts.commandGenerator c.requestScheduler
        c.requestPrivate = some ({ rs with commandGenerator :=
          { rs.commandGenerator with commandBuffer := new } }, priv) →
      c.prepare setup parts refreshCheck = some { c with
        requestScheduler := rs, requestPrivate := priv, stats := new.foldl trackCommand c.stats
        commandScheduler := (c.commandScheduler.receive (new.map (stamp c.clockCycle))).refresh
          setup.device refreshCheck } := by
    intro rs new priv hands scheduled
    have enqueued := enqueueAll_eq (c := { c with
      requestScheduler := { rs with commandGenerator :=
        { rs.commandGenerator with commandBuffer := new } }
      requestPrivate := priv }) open_.toPerBank wired.commands
      fun x hx => (hands.commands wired.tabled wired.mapped x hx).1
    have clear : ({ rs.commandGenerator with commandBuffer := [] } : CommandGenerator) =
        rs.commandGenerator := by rw [← hands.emptied wired.emptied]
    unfold prepare
    rw [scheduled, Option.bind_some]
    dsimp only
    rw [enqueued, Option.map_some]
    simp only [clear]
    rfl
  obtain ⟨priv, idle | ⟨i, r, picks, scheduled⟩⟩ :=
    opens.requests c.requestScheduler c.requestPrivate wired.oneBuffer
  · refine ⟨c.requestScheduler, [], priv, .idle idle.1, rest _ _ priv (.idle idle.1) ?_⟩
    rw [opens.generator, idle.2, ← wired.emptied]
  · have bank : r.bank < 8 := fits r (List.mem_of_getElem? picks.at_)
    have hands : Hands c.requestScheduler _ _ := .take picks (.inr bank)
    refine ⟨_, _, priv, hands, rest _ _ priv hands ?_⟩
    rw [CommandGenerator.commandGenerateOpen_eq, if_pos (by simp [bank])] at scheduled
    rw [opens.generator, scheduled, wired.emptied]
    rfl

/-- The command scheduler that sends: it took the new commands, and its refresh machine had its turn. -/
theorem Wired.perBank_ready (wired : c.Wired) {rs : RequestScheduler} {new : List BusPacket}
    (hands : Hands c.requestScheduler rs new) (setup : Setup) (refreshCheck : Answers) :
    ((c.commandScheduler.receive (new.map (stamp c.clockCycle))).refresh setup.device
      refreshCheck).PerBank :=
  (wired.perBank_receive hands).refresh

/-- A cycle of the memory system, taken apart. Where nothing is sent, no front could be. -/
inductive Turn (setup : Setup) (refreshCheck check : Answers) (c : MemoryController ρ κ) :
    MemoryController ρ κ → Prop
  | mk {rs : RequestScheduler} {new : List BusPacket} {cs : CommandScheduler}
      {out : Option BusPacket} (priv : ρ) (priv' : κ) (hands : Hands c.requestScheduler rs new)
      (sends : Sends setup.device check
        ((c.commandScheduler.receive (new.map (stamp c.clockCycle))).refresh setup.device
          refreshCheck) cs out)
      (eager : out = none → ∀ i < 8,
        ((c.commandScheduler.receive (new.map (stamp c.clockCycle))).refresh setup.device
          refreshCheck).candidate check i = none) :
      Turn setup refreshCheck check c
        (MemorySystem.deviceUpdate setup (endCycle setup (c.scheduled rs priv new cs priv') out))

/-- **An update is a turn.** -/
theorem turn_of_step (open_ : setup.OpenPage) (opens : parts.OpenPage)
    (eager : parts.commandScheduler.Eager) (wired : c.Wired) (fits : c.Fits)
    {refreshCheck check : Answers} {o : Unit}
    (stepped : MemorySystem.step setup parts c (.update refreshCheck check) = some (c', o)) :
    Turn setup refreshCheck check c c' := by
  obtain ⟨rs, new, priv, hands, prepared⟩ := prepare_hands open_ opens wired fits refreshCheck
  have received := wired.perBank_ready hands setup refreshCheck
  obtain ⟨cs, priv', out, called, sends⟩ := opens.commands setup.device check _ c.commandPrivate
    received.general (by rw [received.queues]; decide)
  have updated : c.update setup parts refreshCheck check =
      some (endCycle setup (c.scheduled rs priv new cs priv') out) := by
    rw [update_eq, prepared, Option.bind_some]
    unfold schedule
    dsimp only
    rw [called]
    rfl
  simp only [MemorySystem.step, MemorySystem.update, updated, Option.map_some, Option.some.injEq,
    Prod.mk.injEq] at stepped
  rw [← stepped.1]
  refine .mk priv priv' hands sends fun idle i hi => ?_
  subst idle
  exact eager received.general called i (received.queues ▸ hi)

/-! ## The parts of a turn -/

/-- The command scheduler after a turn: it was ticked, and its device updated. -/
theorem commands_turn (setup : Setup) (rs : RequestScheduler) (new : List BusPacket)
    (cs : CommandScheduler) (out : Option BusPacket) (priv : ρ) (priv' : κ) (wired : c.Wired) :
    (MemorySystem.deviceUpdate setup
        (endCycle setup (c.scheduled rs priv new cs priv') out)).commandScheduler =
      { cs.tick with memoryDevice := (cs.memoryDevice.update setup.device).1 } := by
  rw [(MemorySystem.deviceUpdate_frame setup _).1,
    (endCycle_frame setup (c := c.scheduled rs priv new cs priv') out wired.writes).2.1]
  rfl

/-- A delivery leaves the buffered requests alone: the request it finds is in no buffer. -/
theorem deliver_buffered {buffered : List Request} {flight : Bool → List BusPacket}
    {queue : Nat → List BusPacket} (books : Books setup c.pendings buffered flight queue)
    (isRead : Bool) {p : BusPacket} {rest : List BusPacket} (front : flight isRead = p :: rest)
    (sub : ∀ r ∈ c.requestScheduler.buffered, r ∈ buffered) :
    (deliver setup isRead c p).requestScheduler.buffered = c.requestScheduler.buffered := by
  obtain ⟨index, r, found, at_, _, _, absent, _⟩ := books.matched front
  have found' : (c.pending isRead).findIdx? (matchesRequest p) = some index := found
  have at_' : (c.pending isRead)[index]? = some r := at_
  simp only [deliver, found', at_']
  split
  · cases isRead <;> rfl
  · exact Books.assignSize_of_absent fun x hx => absent x (sub x hx)

/-- Write data and read data stand in their lines in the order in which they leave. -/
structure Lined (setup : Setup) (c : MemoryController ρ κ) : Prop where
  writes : ∃ reg, reg.length = setup.device.constraints.writeDelay false ∧
    Keeps 0 reg c.sendDataBuffer c.sendDataCounter
  reads : ∃ reg, reg.length = setup.device.constraints.readDelay - 1 ∧
    Keeps 1 reg c.commandScheduler.memoryDevice.pendingReadData
      c.commandScheduler.memoryDevice.dataCycles

/-- What every event keeps that it takes to get through the work. -/
structure Able (setup : Setup) (c : MemoryController ρ κ) : Prop where
  accounted : Accounted setup c
  fits : c.Fits
  free : c.commandScheduler.Free
  eight : ∀ i, 8 ≤ i → c.commandScheduler.waiting i = []
  lined : c.Lined setup

/-- A device that takes its time over the data of a read and of a write. -/
structure Delays (setup : Setup) : Prop where
  writes : 0 < setup.device.constraints.writeDelay false
  reads : 0 < setup.device.constraints.readDelay

theorem able_create (open_ : setup.OpenPage) (noRefresh : setup.refresh_mechanism = .none)
    (parts : Components ρ κ) (refreshCounting bank_release : Nat) :
    Able setup (create setup parts refreshCounting bank_release) :=
  ⟨accounted_create open_ noRefresh parts refreshCounting bank_release,
    fun _ hr => absurd hr List.not_mem_nil, fun _ => rfl, fun _ _ => rfl,
    ⟨_, List.length_replicate, .free 0 _⟩, ⟨_, List.length_replicate, .free 1 _⟩⟩

theorem Able.arrive (open_ : setup.OpenPage) (able : Able setup c) {requestorID address size : Nat}
    {R_W : Bool} (fits : Event.Fits setup (.addRequest requestorID address R_W size))
    (sized : Sized setup.dataBusWidth size) :
    Able setup (c.arrived (incoming setup c requestorID address R_W size) R_W) := by
  refine ⟨able.accounted.arrive requestorID address R_W sized, fun r hr => ?_, able.free, able.eight,
    able.lined.writes, able.lined.reads⟩
  rcases List.mem_append.mp hr with hr | hr
  · exact able.fits r hr
  · exact List.mem_singleton.mp hr ▸ incoming_bank_lt open_.toPerBank c address R_W size fits

end MemoryController

namespace CommandScheduler

variable {s s' : CommandScheduler} {spec : DeviceSpec} {check : Answers} {out : Option BusPacket}

/-- A front that is sent is a command of the `OPEN` generator. -/
theorem OpenCommand.posts {bank : Nat} {x : BusPacket} (h : OpenCommand bank x) : x.Posts false :=
  ⟨h.ne_data.1, h.2.1⟩

theorem sends_kind (perBank : s.PerBank) (sends : Sends spec check s s' out) :
    ∀ x, out = some x → x.bank < 8 ∧ OpenCommand x.bank x := by
  cases sends with
  | idle left => exact fun _ h => by cases h
  | @send i c rest bound front can =>
    rintro x ⟨⟩
    have opens := perBank.queued i c (by simp [front])
    exact ⟨opens.1.symm ▸ perBank.queues ▸ bound, opens.1.symm ▸ opens⟩

/-- What is sent goes to the device, and nothing else does. -/
theorem device_sends (sends : Sends spec check s s' out) :
    s'.memoryDevice = s.memoryDevice.receives spec out := by
  cases sends with
  | idle left => rfl
  | send bound front can => exact memoryDevice_issue _ _ _ _

theorem trace_sends (perBank : s.PerBank) (sends : Sends spec check s s' out) :
    s'.memoryDevice.commandTrace = s.memoryDevice.commandTrace ++ out.toList := by
  have kind := sends_kind perBank sends
  rw [device_sends sends]
  cases out with
  | none => exact (List.append_nil _).symm
  | some x => exact MemoryDevice.receiveFromBus_trace (kind x rfl).2.2.1 (kind x rfl).2.ne_data.1

end CommandScheduler

/-- What is left in the buffer was in it. -/
theorem RequestScheduler.Hands.sub {s s' : RequestScheduler} {new : List BusPacket}
    (hands : Hands s s' new) : ∀ r ∈ s'.buffered, r ∈ s.buffered := by
  cases hands with
  | idle => exact fun _ => id
  | take => exact fun _ hr => List.mem_of_mem_eraseIdx hr

/-- A device without posted commands, updated: its read line shifts, and its trace stays. -/
theorem MemoryDevice.update_lines (spec : DeviceSpec) {d : MemoryDevice} (posted : d.postBuffer = [])
    {o : Option BusPacket} {reg : List (Option BusPacket)}
    (keeps : Keeps 1 (o :: reg) d.pendingReadData d.dataCycles) :
    (d.update spec).2 = o ∧
      Keeps 1 reg (d.update spec).1.pendingReadData (d.update spec).1.dataCycles ∧
      (d.update spec).1.commandTrace = d.commandTrace := by
  obtain ⟨received, rest, buffer, _⟩ := updateReads_line keeps
  have none_posted : d.updateReads.1.updatePosted spec = d.updateReads.1 := by
    unfold updatePosted
    rw [buffer, posted]
  have trace : d.updateReads.1.commandTrace = d.commandTrace := by
    unfold updateReads
    split
    · rfl
    · dsimp only
      split <;> rfl
  simp only [MemoryDevice.update, none_posted]
  exact ⟨received, rest, trace⟩

namespace MemoryController

variable {ρ κ : Type} {setup : Setup} {parts : Components ρ κ} {c c' : MemoryController ρ κ}

/-- **The write line over the end of a cycle.** What leaves the line finds its request outside the
buffers. -/
theorem endCycle_lines {buffered : List Request} {queue : Nat → List BusPacket}
    {flight : Bool → List BusPacket} (delays : Delays setup)
    (books : Books setup c.pendings buffered flight queue) (flying : flight false = c.sendDataBuffer)
    (sub : ∀ r ∈ c.requestScheduler.buffered, r ∈ buffered) {out : Option BusPacket}
    (kind : ∀ x, out = some x → x.Posts false) {reg : List (Option BusPacket)}
    (slots : reg.length = setup.device.constraints.writeDelay false)
    (keeps : Keeps 0 reg c.sendDataBuffer c.sendDataCounter) :
    (endCycle setup c out).requestScheduler.buffered = c.requestScheduler.buffered ∧
      Keeps 0 (reg ++ [out.bind (writeData c.clockCycle)]).tail (endCycle setup c out).sendDataBuffer
        (endCycle setup c out).sendDataCounter := by
  cases reg with
  | nil =>
    have positive := delays.writes
    rw [← slots] at positive
    exact absurd positive (Nat.lt_irrefl 0)
  | cons o reg =>
    have entered := queueWriteData_line kind slots keeps
    rw [List.cons_append] at entered
    obtain ⟨_, _, lines, _⟩ := @sendWriteData_line _ _ setup _ _ _ (by
      rw [List.length_append, List.length_singleton, ← List.length_cons, slots]
      exact Constraints.writeDelay_lt _ _) entered
    refine ⟨?_, lines⟩
    have scheduler := (queueWriteData_frame setup c out).1
    have pendings : (queueWriteData setup c out).pendings = c.pendings := by
      unfold queueWriteData
      split
      · rfl
      · split <;> rfl
    show (sendWriteData setup (queueWriteData setup c out)).requestScheduler.buffered = _
    rw [← scheduler]
    have leaves := entered.leaving
    have first := keeps.leaving
    have data := entered.items
    have before := keeps.items
    generalize queueWriteData setup c out = c₂ at *
    unfold sendWriteData
    dsimp only
    split
    · next zero =>
      rw [if_pos zero] at leaves
      cases o with
      | none =>
        cases found : c₂.sendDataBuffer with
        | nil => rfl
        | cons p rest =>
          rw [found] at leaves
          cases leaves
      | some p =>
        cases found : c₂.sendDataBuffer with
        | nil => rfl
        | cons q rest =>
          rw [found] at leaves
          obtain rfl : q = p := Option.some.inj leaves
          have front : flight false = q :: reg.reduceOption := flying.trans before
          let c₃ : MemoryController ρ κ := { c₂ with
            commandScheduler := { c₂.commandScheduler with
              memoryDevice := c₂.commandScheduler.memoryDevice.receiveFromBus setup.device q }
            stats := { c₂.stats with writeBytes := c₂.stats.writeBytes + setup.dataBusWidth } }
          have books₃ : Books setup c₃.pendings buffered flight queue := pendings.symm ▸ books
          exact deliver_buffered books₃ false front fun r hr => sub r (scheduler ▸ hr)
    · rfl

/-- The device's update leaves the buffered requests alone. -/
theorem deviceUpdate_buffered (h : Accounted setup c) :
    (MemorySystem.deviceUpdate setup c).requestScheduler.buffered = c.requestScheduler.buffered := by
  obtain ⟨d', _, ⟨none_, _⟩ | ⟨p, some_, front⟩⟩ := update_device setup.device h.posted
  · simp only [MemorySystem.deviceUpdate, none_]
  · simp only [MemorySystem.deviceUpdate, some_]
    let c₁ : MemoryController ρ κ :=
      { c with
        commandScheduler := { c.commandScheduler with memoryDevice := d' }
        stats := { c.stats with readBytes := c.stats.readBytes + setup.dataBusWidth } }
    have books : Books setup c₁.pendings c.requestScheduler.buffered c.flight
      c.commandScheduler.waiting := h.books
    exact deliver_buffered books true front fun _ hr => hr

/-! ## What a turn does to the work -/

section Turns

variable {rs : RequestScheduler} {new : List BusPacket} {cs : CommandScheduler}
  {out : Option BusPacket} {refreshCheck check : Answers}

/-- The buffered requests after a turn are those that were not handed over. -/
theorem buffered_turn (delays : Delays setup) (able : Able setup c) (priv : ρ) (priv' : κ)
    (hands : Hands c.requestScheduler rs new)
    (sends : Sends setup.device check
      ((c.commandScheduler.receive (new.map (stamp c.clockCycle))).refresh setup.device
        refreshCheck) cs out) :
    (MemorySystem.deviceUpdate setup
        (endCycle setup (c.scheduled rs priv new cs priv') out)).requestScheduler.buffered =
      rs.buffered := by
  have accounted := able.accounted
  have received := accounted.wired.perBank_ready hands setup refreshCheck
  obtain ⟨reg, slots, keeps⟩ := able.lined.writes
  have cycle : Cycle setup refreshCheck check c
    (endCycle setup (c.scheduled rs priv new cs priv') out) := .mk priv priv' hands sends
  rw [deviceUpdate_buffered (cycle.accounted accounted)]
  exact (endCycle_lines (c := c.scheduled rs priv new cs priv') delays accounted.books rfl hands.sub
    (fun x hx => (sends_kind received sends x hx).2.posts) slots keeps).1

/-- The write line after a turn. -/
theorem writes_turn (delays : Delays setup) (able : Able setup c) (priv : ρ) (priv' : κ)
    (hands : Hands c.requestScheduler rs new)
    (sends : Sends setup.device check
      ((c.commandScheduler.receive (new.map (stamp c.clockCycle))).refresh setup.device
        refreshCheck) cs out) {reg : List (Option BusPacket)}
    (slots : reg.length = setup.device.constraints.writeDelay false)
    (keeps : Keeps 0 reg c.sendDataBuffer c.sendDataCounter) :
    let c' := MemorySystem.deviceUpdate setup (endCycle setup (c.scheduled rs priv new cs priv') out)
    Keeps 0 (reg ++ [out.bind (writeData c.clockCycle)]).tail c'.sendDataBuffer c'.sendDataCounter := by
  have accounted := able.accounted
  have received := accounted.wired.perBank_ready hands setup refreshCheck
  have lines := (endCycle_lines (c := c.scheduled rs priv new cs priv') delays accounted.books rfl
    hands.sub (fun x hx => (sends_kind received sends x hx).2.posts) slots keeps).2
  obtain ⟨_, _, buffer, counters⟩ := MemorySystem.deviceUpdate_frame setup
    (endCycle setup (c.scheduled rs priv new cs priv') out)
  dsimp only
  rw [buffer, counters]
  exact lines

/-- The read line and the trace after a turn. -/
theorem reads_turn (delays : Delays setup) (able : Able setup c) (priv : ρ) (priv' : κ)
    (hands : Hands c.requestScheduler rs new)
    (sends : Sends setup.device check
      ((c.commandScheduler.receive (new.map (stamp c.clockCycle))).refresh setup.device
        refreshCheck) cs out) {reg : List (Option BusPacket)}
    (slots : reg.length = setup.device.constraints.readDelay - 1)
    (keeps : Keeps 1 reg c.commandScheduler.memoryDevice.pendingReadData
      c.commandScheduler.memoryDevice.dataCycles) :
    let d' := (MemorySystem.deviceUpdate setup
      (endCycle setup (c.scheduled rs priv new cs priv') out)).commandScheduler.memoryDevice
    Keeps 1 (reg ++ [out.bind readData]).tail d'.pendingReadData d'.dataCycles ∧
      d'.commandTrace = c.commandScheduler.memoryDevice.commandTrace ++ out.toList := by
  have accounted := able.accounted
  have received := accounted.wired.perBank_ready hands setup refreshCheck
  have quiet₁ : (c.commandScheduler.receive (new.map (stamp c.clockCycle))).Quiet := accounted.quiet
  have device₂ := (quiet₁.refresh setup.device refreshCheck).2
  have posted : cs.memoryDevice.postBuffer = [] := by
    rw [(sends_device received sends).1, device₂]
    exact accounted.posted
  have trace := trace_sends received sends
  have entered := keeps.enter (out.bind readData)
  rw [slots, Nat.add_sub_cancel' delays.reads] at entered
  obtain ⟨pending, cycles, _⟩ := @MemorySystem.lines_receives false setup.device
    ((c.commandScheduler.receive (new.map (stamp c.clockCycle))).refresh setup.device
      refreshCheck).memoryDevice out fun x hx => (sends_kind received sends x hx).2.posts
  rw [← device_sends sends, device₂] at pending cycles
  rw [device₂] at trace
  have line : Keeps 1 (reg ++ [out.bind readData]) cs.memoryDevice.pendingReadData
      cs.memoryDevice.dataCycles := by
    rw [pending, cycles]
    exact entered
  dsimp only
  rw [commands_turn _ _ _ _ _ priv priv' accounted.wired]
  cases whole : reg ++ [out.bind readData] with
  | nil => simp at whole
  | cons o reg' =>
    rw [whole] at line
    obtain ⟨_, rest, same⟩ := MemoryDevice.update_lines setup.device posted line
    exact ⟨rest, same.trans trace⟩

end Turns

variable {refreshCheck check : Answers}

/-- **A turn keeps what it takes to go on.** -/
theorem Turn.able (delays : Delays setup) (able : Able setup c)
    (turn : Turn setup refreshCheck check c c') : Able setup c' := by
  obtain ⟨priv, priv', hands, sends, eager⟩ := turn
  rename_i rs new cs out
  have accounted := able.accounted
  have wired := accounted.wired
  have received := wired.perBank_ready hands setup refreshCheck
  have cycle : Cycle setup refreshCheck check c
    (endCycle setup (c.scheduled rs priv new cs priv') out) := .mk priv priv' hands sends
  have quiet₁ : (c.commandScheduler.receive (new.map (stamp c.clockCycle))).Quiet := accounted.quiet
  have free₁ : (c.commandScheduler.receive (new.map (stamp c.clockCycle))).Free := able.free
  have quiet₂ := (quiet₁.refresh setup.device refreshCheck).1
  have commands := commands_turn setup rs new cs out priv priv' wired
  refine ⟨(cycle.accounted accounted).deviceUpdate, ?_, ?_, ?_, ?_, ?_⟩
  · intro r hr
    rw [buffered_turn delays able priv priv' hands sends] at hr
    exact able.fits r (hands.sub r hr)
  · rw [commands]
    exact ((free₁.refresh quiet₁ setup.device refreshCheck).1.sends sends).tick (quiet₂.sends sends)
  · intro i hi
    have ticked : ∀ d, ({ cs.tick with memoryDevice := d } : CommandScheduler).waiting i = cs.waiting i :=
      fun _ => waiting_tick (received.sends sends).general i
    have before : ((c.commandScheduler.receive (new.map (stamp c.clockCycle))).refresh setup.device
        refreshCheck).waiting i = [] := by
      rw [waiting_refresh, waiting_receive, able.eight i hi, List.nil_append, List.filter_eq_nil_iff]
      intro x hx
      obtain ⟨y, hy, rfl⟩ := List.mem_map.mp hx
      have small := (hands.commands wired.tabled wired.mapped y hy).1
      simp only [stamp, beq_iff_eq]
      omega
    rw [commands, ticked]
    cases sends with
    | idle left => exact before
    | send bound front can =>
      rw [waiting_issue received.general]
      split
      · next here =>
        rw [← here, before]
        rfl
      · exact before
  · obtain ⟨reg, slots, keeps⟩ := able.lined.writes
    refine ⟨_, ?_, writes_turn delays able priv priv' hands sends slots keeps⟩
    rw [List.length_tail, List.length_append, slots, List.length_singleton, Nat.add_sub_cancel]
  · obtain ⟨reg, slots, keeps⟩ := able.lined.reads
    refine ⟨_, ?_, (reads_turn delays able priv priv' hands sends slots keeps).1⟩
    rw [List.length_tail, List.length_append, slots, List.length_singleton, Nat.add_sub_cancel]

/-- A turn accepts no request. -/
theorem Turn.accepted (turn : Turn setup refreshCheck check c c') : c'.accepted = c.accepted := by
  have delivered : ∀ (isRead : Bool) (c : MemoryController ρ κ) (p : BusPacket),
      (deliver setup isRead c p).accepted = c.accepted := by
    intro isRead c p
    obtain ⟨_, h⟩ | ⟨index, r, _, ⟨_, h⟩ | ⟨_, h⟩⟩ := deliver_cases setup isRead c p
    · rw [h]
    · rw [h]
      cases isRead <;> rfl
    · rw [h]
      rfl
  obtain ⟨priv, priv', hands, sends, eager⟩ := turn
  rename_i rs new cs out
  have queued : (queueWriteData setup (c.scheduled rs priv new cs priv') out).accepted = c.accepted := by
    unfold queueWriteData
    split
    · rfl
    · split <;> rfl
  have ended : (endCycle setup (c.scheduled rs priv new cs priv') out).accepted = c.accepted := by
    rw [← queued]
    show (sendWriteData setup _).accepted = _
    unfold sendWriteData
    dsimp only
    split
    · split
      · rfl
      · exact delivered ..
    · rfl
  rw [← ended]
  unfold MemorySystem.deviceUpdate
  dsimp only
  split
  · rfl
  · exact delivered ..

/-! ### The measure -/

/-- The commands ahead at most: those that wait, and for each buffered request its beats, a precharge and
an activation. -/
def ahead (setup : Setup) (c : MemoryController ρ κ) : Nat :=
  c.commandScheduler.load +
    (c.requestScheduler.buffered.map fun r => CommandGenerator.beats setup.dataBusWidth r + 2).sum

/-- A request takes its beats and at most two row commands. -/
theorem length_commandsOf (g : CommandGenerator) (r : Request) (isOpen : Bool) :
    (g.commandsOf r isOpen).length ≤ CommandGenerator.beats g.dataBusSize r + 2 := by
  unfold CommandGenerator.commandsOf CommandGenerator.openCommands CommandGenerator.casCommands
  rw [List.length_append, List.length_map, List.length_range]
  split
  · simp
  · split <;> simp [Nat.add_comm]

/-- One request, at most, leaves the buffer, and its commands are counted in its place. -/
theorem hands_ahead {s s' : RequestScheduler} {new : List BusPacket} (hands : Hands s s' new)
    {width : Nat} (same : s.commandGenerator.dataBusSize = width) :
    s'.buffered.length = s.buffered.length - 1 ∧
      new.length + (s'.buffered.map fun r => CommandGenerator.beats width r + 2).sum ≤
        (s.buffered.map fun r => CommandGenerator.beats width r + 2).sum := by
  cases hands with
  | idle empty =>
    rw [empty]
    exact ⟨rfl, by simp⟩
  | @take i r picks bank =>
    obtain ⟨bound, at_⟩ := List.getElem?_eq_some_iff.mp picks.at_
    have made := length_commandsOf s.commandGenerator r (s.isRowHit r)
    have whole := ((List.getElem_cons_eraseIdx_perm bound).map
      fun r => CommandGenerator.beats width r + 2).sum_eq
    rw [List.map_cons, List.sum_cons, at_] at whole
    rw [same] at made
    rw [buffered_taken]
    exact ⟨List.length_eraseIdx_of_lt bound, by omega⟩

/-- Nothing in the pipelines takes longer than a number of cycles. -/
def Under (b : Nat) (c : MemoryController ρ κ) : Prop :=
  (∀ n ∈ c.sendDataCounter, n < b) ∧ ∀ n ∈ c.commandScheduler.memoryDevice.dataCycles, n < b + 1

/-- What a turn does to the work, with what it sends. -/
structure Works (setup : Setup) (check : Answers) (c c' : MemoryController ρ κ)
    (sent : Option BusPacket) : Prop where
  buffered : c'.requestScheduler.buffered.length = c.requestScheduler.buffered.length - 1
  ahead : c'.ahead setup + sent.toList.length ≤ c.ahead setup
  trace : c'.commandScheduler.memoryDevice.commandTrace =
    c.commandScheduler.memoryDevice.commandTrace ++ sent.toList
  load : c.requestScheduler.buffered = [] →
    c'.commandScheduler.load + sent.toList.length = c.commandScheduler.load
  waits : c.requestScheduler.buffered = [] → sent = none →
    ∀ i, c'.commandScheduler.waiting i = c.commandScheduler.waiting i
  timer : sent = none → ∀ i < 8, ∀ t,
    c'.commandScheduler.cmdQueueTimer i t = c.commandScheduler.cmdQueueTimer i t - 1
  refused : c.requestScheduler.buffered = [] → sent = none → ∀ i < 8, ∀ x,
    (c.commandScheduler.waiting i).head? = some x →
      c.commandScheduler.cmdQueueTimer i x.busPacketType = 0 → check x = false
  within : ∀ τ, (∀ t t', setup.device.command_timing t t' ≤ τ) → c.commandScheduler.Within τ →
    c'.commandScheduler.Within τ
  drains : sent = none → ∀ b, c.Under b → c'.Under (b - 1)
  sends : ∀ x, sent = some x → (x.bank < 8 ∧ OpenCommand x.bank x) ∧ check x = true ∧
    c.commandScheduler.cmdQueueTimer x.bank x.busPacketType = 0
  rises : ∀ i < 8, ∀ t, c.commandScheduler.cmdQueueTimer i t ≤
    c'.commandScheduler.cmdQueueTimer i t + 1
  asks : ∀ x, sent = some x → ∀ t : BusPacketType, t.toNat < BusPacketType.PDE.toNat →
    setup.device.command_timing x.busPacketType t ≤ c'.commandScheduler.cmdQueueTimer x.bank t + 1

/-- **A turn works.** -/
theorem Turn.works (delays : Delays setup) (able : Able setup c)
    (turn : Turn setup refreshCheck check c c') : ∃ sent, Works setup check c c' sent := by
  obtain ⟨priv, priv', hands, sends, eager⟩ := turn
  rename_i rs new cs out
  have accounted := able.accounted
  have wired := accounted.wired
  have received := wired.perBank_ready hands setup refreshCheck
  have quiet₁ : (c.commandScheduler.receive (new.map (stamp c.clockCycle))).Quiet := accounted.quiet
  have free₁ : (c.commandScheduler.receive (new.map (stamp c.clockCycle))).Free := able.free
  obtain ⟨free₂, timers₂⟩ := free₁.refresh quiet₁ setup.device refreshCheck
  have general := (received.sends sends).general
  have commands := commands_turn setup rs new cs out priv priv' wired
  have buffered := buffered_turn delays able priv priv' hands sends
  obtain ⟨shorter, fewer⟩ := hands_ahead hands accounted.width
  -- the queues: what was made joins them, what is sent leaves them
  have loads : ({ cs.tick with memoryDevice := (cs.memoryDevice.update setup.device).1 } :
      CommandScheduler).load + out.toList.length = c.commandScheduler.load + new.length := by
    have joined := load_receive (s := c.commandScheduler) (l := new.map (stamp c.clockCycle)) fun x hx => by
      obtain ⟨y, hy, rfl⟩ := List.mem_map.mp hx
      exact (hands.commands wired.tabled wired.mapped y hy).1
    rw [List.length_map] at joined
    have ticked : CommandScheduler.load { cs.tick with
        memoryDevice := (cs.memoryDevice.update setup.device).1 } = cs.load := load_tick general
    rw [ticked, load_sends received sends, load_refresh, joined]
  have idle : c.requestScheduler.buffered = [] → new = [] := by
    intro empty
    cases hands with
    | idle => rfl
    | take picks =>
      have at_ := picks.at_
      rw [empty] at at_
      cases at_
  have kind := sends_kind received sends
  obtain ⟨rises, asks⟩ := timer_rises received sends
  rw [timers₂] at rises
  have ticked : ∀ i < 8, ∀ t, (MemorySystem.deviceUpdate setup
      (endCycle setup (c.scheduled rs priv new cs priv') out)).commandScheduler.cmdQueueTimer i t =
        cs.cmdQueueTimer i t - 1 := by
    intro i hi t
    rw [commands]
    show cs.tick.cmdQueueTimer i t = _
    rw [timer_tick general, if_pos ((received.sends sends).queues ▸ hi)]
  refine ⟨out, ?_, ?_, ?_, ?_, ?_, ?_, ?_, ?_, ?_, ?_, ?_, ?_⟩
  · rw [buffered]
    exact shorter
  · unfold ahead
    rw [commands, buffered]
    omega
  · obtain ⟨reg, slots, keeps⟩ := able.lined.reads
    exact (reads_turn delays able priv priv' hands sends slots keeps).2
  · intro empty
    rw [commands, loads, idle empty]
    rfl
  · rintro empty rfl i
    rw [commands]
    show cs.tick.waiting i = _
    rw [waiting_tick general]
    cases sends with
    | idle left =>
      show ((c.commandScheduler.receive (new.map (stamp c.clockCycle))).refresh setup.device
        refreshCheck).waiting i = _
      rw [waiting_refresh, idle empty, List.map_nil, receive_nil]
  · rintro rfl i hi t
    rw [ticked i hi]
    cases sends with
    | idle left =>
      show ((c.commandScheduler.receive (new.map (stamp c.clockCycle))).refresh setup.device
        refreshCheck).cmdQueueTimer i t - 1 = _
      rw [timers₂]
      rfl
  · rintro empty rfl i hi x front ready
    by_contra taken
    have candidate : CommandScheduler.candidate _ check i = some x := candidate_of_front
      received.general free₂ (by rw [waiting_refresh, idle empty, List.map_nil, receive_nil]; exact front)
      (by rw [timers₂]; exact ready) (by simpa using taken)
    rw [eager rfl i hi] at candidate
    cases candidate
  · intro τ longest within
    rw [commands]
    intro i t
    show cs.tick.cmdQueueTimer i t ≤ τ
    have sent := timer_sends received.general sends longest (τ := τ) (by
      intro i t
      rw [timers₂]
      exact within i t) i t
    rw [timer_tick general]
    split <;> omega
  · rintro rfl b ⟨writes, reads⟩
    obtain ⟨reg, slots, keeps⟩ := able.lined.writes
    obtain ⟨reg', slots', keeps'⟩ := able.lined.reads
    refine ⟨keeps.falls (writes_turn delays able priv priv' hands sends slots keeps) writes, ?_⟩
    intro n hn
    have := keeps'.falls (reads_turn delays able priv priv' hands sends slots' keeps').1 reads n hn
    omega
  · intro x sent
    have ready := ready_sends received sends x sent
    rw [timers₂] at ready
    exact ⟨kind x sent, ready⟩
  · intro i hi t
    have raised : c.commandScheduler.cmdQueueTimer i t ≤ cs.cmdQueueTimer i t := rises i t
    rw [ticked i hi]
    omega
  · intro x sent t timed
    have asked := asks x sent t timed
    rw [ticked x.bank (kind x sent).1]
    omega

end MemoryController
end MCsim
