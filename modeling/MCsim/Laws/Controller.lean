import MCsim.MemoryController
import MCsim.Laws.RequestScheduler
import MCsim.Laws.General
import Mathlib.Data.List.Perm.Basic

/-!
# One cycle of the controller

`MemoryController.update` in the set-ups with one general request buffer and one command queue for
each of eight banks. `update_cycle` takes a cycle apart into what it is made of: `Hands` (a request
leaves its buffer and its commands join the queue of its bank), the refresh machine's command,
`CommandScheduler.Sends` (a front is sent) and the end of the cycle. `Wired` is what every such cycle
and every arrival keeps, whatever the refresh mechanism and the answers of the device.
-/

namespace MCsim

/-- One command queue for each of the eight banks of one rank, every level of the address decoded
and every requestor critical. -/
structure Setup.PerBank (setup : Setup) : Prop where
  build : setup.build ≠ .MULTI_RANK_BANK_PRIVATIZATION
  format : setup.format = [.Rank, .BankGroup, .Bank, .SubArray, .Row, .Column]
  rank : setup.memTable .Rank = 1
  bankGroup : setup.memTable .BankGroup = 1
  bank : setup.memTable .Bank = 8
  cmdMap : setup.cmdMap = [false, false, true, false]
  requestorCmdQ : setup.requestorCmdQ = false
  critical : ∀ id, setup.requestorCriticalTable id = true

/-- The set-ups of `FCFS.ini` and `FRFCFS.ini`: one general request buffer before the queues of the
banks. -/
structure Setup.OpenPage (setup : Setup) : Prop extends setup.PerBank where
  reqMap : setup.reqMap = [false, false, false, false]
  requestorReqQ : setup.requestorReqQ = false
  writeQueueEnable : setup.writeQueueEnable = false

/-- The request scheduler takes one request a cycle, the generator is `OPEN`, and the command
scheduler sends fronts. -/
structure Components.OpenPage {ρ κ : Type} (parts : Components ρ κ) : Prop where
  requests : parts.requestScheduler.TakesOne
  generator : parts.commandGenerator = openGenerator
  commands : parts.commandScheduler.SendsFronts

/-! ## Commands into the queues of their banks -/

namespace CommandScheduler

/-- Commands join the critical buffers of their banks' queues, in order. -/
def receive (s : CommandScheduler) (l : List BusPacket) : CommandScheduler :=
  { s with commandQueue := fun i =>
      { s.commandQueue i with hrtBuffer := s.waiting i ++ l.filter (·.bank == i) } }

@[simp] theorem waiting_receive (s : CommandScheduler) (l : List BusPacket) (i : Nat) :
    (s.receive l).waiting i = s.waiting i ++ l.filter (·.bank == i) := rfl

@[simp] theorem receive_nil (s : CommandScheduler) : s.receive [] = s := by
  simp [receive, waiting]

theorem receive_receive (s : CommandScheduler) (l l' : List BusPacket) :
    (s.receive l).receive l' = s.receive (l ++ l') := by
  simp [receive, waiting]

theorem General.receive {s : CommandScheduler} (h : s.General) (l : List BusPacket) :
    (s.receive l).General := h

/-- A critical command inserted into a general queue. -/
theorem insertCommand_eq_receive {s : CommandScheduler} (general : s.General) (c : BusPacket) :
    s.insertCommand c.bank c true = s.receive [c] := by
  unfold insertCommand
  rw [CommandQueue.insertCommand_critical (general c.bank).1]
  unfold setQueue receive waiting
  congr
  funext i
  by_cases h : i = c.bank
  · subst h
    simp
  · have other : (c.bank == i) = false := by simpa using fun e => h e.symm
    simp [h, other]

/-- A command the `OPEN` generator makes, for a bank. -/
def OpenCommand (bank : Nat) (c : BusPacket) : Prop :=
  c.bank = bank ∧ c.postCommand = false ∧
    (c.busPacketType = .PRE ∨ c.busPacketType = .ACT ∨ c.busPacketType.isCas = true)

/-- Eight general queues, each with commands for its own bank. -/
structure PerBank (s : CommandScheduler) : Prop where
  general : s.General
  queues : s.queueCount = 8
  queued : ∀ bank, ∀ c ∈ s.waiting bank, OpenCommand bank c

/-- What the `OPEN` generator makes of a request. -/
theorem openCommand_of_commandsOf {g : CommandGenerator} {r : Request} {isOpen : Bool}
    {c : BusPacket} (h : c ∈ g.commandsOf r isOpen) : OpenCommand r.bank c := by
  obtain ⟨bank, _, posted, type⟩ := CommandGenerator.mem_commandsOf h
  refine ⟨bank, posted, ?_⟩
  rcases type with h | h | h
  · exact .inl h
  · exact .inr (.inl h)
  · exact .inr (.inr (h ▸ CommandGenerator.casType_isCas r))

theorem OpenCommand.ne_data {bank : Nat} {c : BusPacket} (h : OpenCommand bank c) :
    c.busPacketType ≠ .DATA ∧ c.busPacketType ≠ .PREA := by
  obtain ⟨_, _, h | h | h⟩ := h
  · simp [h]
  · simp [h]
  · rcases BusPacketType.isCas_iff.mp h with h | h <;> simp [h]

namespace PerBank

variable {s s' : CommandScheduler} {spec : DeviceSpec} {check : Answers}

theorem receive (h : s.PerBank) {l : List BusPacket} (hl : ∀ c ∈ l, OpenCommand c.bank c) :
    (s.receive l).PerBank := by
  refine ⟨h.general.receive l, h.queues, fun bank c hc => ?_⟩
  rcases List.mem_append.mp hc with hc | hc
  · exact h.queued bank c hc
  · obtain ⟨mem, e⟩ := List.mem_filter.mp hc
    obtain rfl : c.bank = bank := by simpa using e
    exact hl c mem

theorem refresh (h : s.PerBank) : (s.refresh spec check).PerBank :=
  ⟨h.general.refresh spec check, (commandQueue_refresh s spec check).2 ▸ h.queues,
    fun bank => (waiting_refresh s spec check bank).symm ▸ h.queued bank⟩

theorem sends (h : s.PerBank) {out : Option BusPacket} (sends : Sends spec check s s' out) :
    s'.PerBank := by
  cases sends with
  | idle left => exact ⟨h.general, h.queues, h.queued⟩
  | @send i c rest bound front can =>
    refine ⟨h.general.issue spec c i, (queueCount_issue s spec c i).trans h.queues, ?_⟩
    intro bank x hx
    rw [waiting_issue h.general] at hx
    split at hx
    · next e => exact e ▸ h.queued i x (List.mem_of_mem_tail hx)
    · exact h.queued bank x hx

theorem tick (h : s.PerBank) : s.tick.PerBank :=
  ⟨h.general.tick, h.queues, fun bank => (waiting_tick h.general bank).symm ▸ h.queued bank⟩

/-- The device is not part of it. -/
theorem withDevice (h : s.PerBank) (d : MemoryDevice) : { s with memoryDevice := d }.PerBank :=
  ⟨h.general, h.queues, h.queued⟩

end PerBank
end CommandScheduler

open CommandScheduler

/-- A command with the arrival time the controller stamps on it. -/
def stamp (clockCycle : Nat) (c : BusPacket) : BusPacket :=
  { c with arriveTime := clockCycle % 2 ^ 32 }

/-- The commands of a request are all for its bank. -/
theorem filter_commandsOf (g : CommandGenerator) (r : Request) (isOpen : Bool)
    (clockCycle bank : Nat) :
    ((g.commandsOf r isOpen).map (stamp clockCycle)).filter (·.bank == bank) =
      if bank = r.bank then (g.commandsOf r isOpen).map (stamp clockCycle) else [] := by
  have banks : ∀ x ∈ (g.commandsOf r isOpen).map (stamp clockCycle), x.bank = r.bank := by
    intro x hx
    obtain ⟨y, hy, rfl⟩ := List.mem_map.mp hx
    exact (CommandGenerator.mem_commandsOf hy).1
  split
  · next e => exact List.filter_eq_self.mpr fun x hx => by simp [banks x hx, e]
  · next e => exact List.filter_eq_nil_iff.mpr fun x hx => by simpa [banks x hx] using fun h => e h.symm

theorem findIdx_none_marked : [false, false, false, false].findIdx? id = none := rfl

theorem findIdx_bank_marked : [false, false, true, false].findIdx? id = some 2 := rfl

theorem queueNumber_unmarked (setup : Setup) :
    queueNumber setup [false, false, false, false] = 1 := by
  rw [queueNumber, findIdx_none_marked]

theorem decodeQueue_unmarked (setup : Setup) (a : AddressMap) :
    decodeQueue setup a [false, false, false, false] = 0 := by
  rw [decodeQueue, findIdx_none_marked]

theorem Setup.PerBank.queueNumber_cmdMap {setup : Setup} (perBank : setup.PerBank) :
    queueNumber setup setup.cmdMap = 8 := by
  rw [queueNumber, perBank.cmdMap, findIdx_bank_marked]
  simp [List.range_succ, Setup.count, MemOrg.levels, perBank.rank, perBank.bankGroup, perBank.bank]

/-- A command goes to the queue of its bank. -/
theorem Setup.PerBank.commandIndex_eq {setup : Setup} (perBank : setup.PerBank) {c : BusPacket}
    (bank : c.bank < 8) : MemoryController.commandIndex setup c = c.bank := by
  rw [MemoryController.commandIndex, decodeQueue, perBank.cmdMap, findIdx_bank_marked]
  simp only [List.range_succ, List.range_zero, List.nil_append, List.cons_append, List.foldl_cons,
    List.foldl_nil, AddressMap.get, Nat.lt_irrefl, if_false, Nat.zero_mul, Nat.add_zero]
  exact Nat.mod_eq_of_lt (by omega)

namespace MemoryController

variable {ρ κ : Type} {setup : Setup} {parts : Components ρ κ}

/-- The controller after commands joined the queues of their banks. -/
def enqueued (c : MemoryController ρ κ) (l : List BusPacket) : MemoryController ρ κ :=
  { c with
    stats := l.foldl trackCommand c.stats
    commandScheduler := c.commandScheduler.receive (l.map (stamp c.clockCycle)) }

theorem enqueued_enqueued (c : MemoryController ρ κ) (l l' : List BusPacket) :
    (c.enqueued l).enqueued l' = c.enqueued (l ++ l') := by
  simp [enqueued, receive_receive]

theorem enqueueCommand_eq (perBank : setup.PerBank) {c : MemoryController ρ κ}
    (general : c.commandScheduler.General) (queues : c.commandScheduler.queueCount = 8)
    {cmd : BusPacket} (bank : cmd.bank < 8) :
    enqueueCommand setup c cmd = some (c.enqueued [cmd]) := by
  have inserted : c.commandScheduler.insertCommand cmd.bank (stamp c.clockCycle cmd) true =
      c.commandScheduler.receive [stamp c.clockCycle cmd] :=
    insertCommand_eq_receive general (stamp c.clockCycle cmd)
  simp only [enqueueCommand, perBank.commandIndex_eq bank, queues, bank, if_true, perBank.critical]
  exact congrArg (fun cs => some { c with stats := trackCommand c.stats cmd, commandScheduler := cs })
    inserted

/-- The loop over the generated commands sorts them into the queues of their banks. -/
theorem foldlM_enqueueCommand (perBank : setup.PerBank) (l : List BusPacket)
    {c : MemoryController ρ κ} (general : c.commandScheduler.General)
    (queues : c.commandScheduler.queueCount = 8) (banks : ∀ cmd ∈ l, cmd.bank < 8) :
    l.foldlM (enqueueCommand setup) c = some (c.enqueued l) := by
  induction l generalizing c with
  | nil => simp [enqueued]
  | cons cmd l ih =>
    rw [List.foldlM_cons, enqueueCommand_eq perBank general queues (banks cmd List.mem_cons_self)]
    have rest : l.foldlM (enqueueCommand setup) (c.enqueued [cmd]) =
        some ((c.enqueued [cmd]).enqueued l) :=
      ih (general.receive _) queues fun x hx => banks x (List.mem_cons_of_mem cmd hx)
    simpa [enqueued_enqueued] using rest

end MemoryController

/-! ## Requests into commands -/

namespace RequestScheduler

/-- The request scheduler's part of a cycle, with the commands it puts into the queues: nothing on an
empty buffer; otherwise one request is taken, and its commands are made as the row table tells. -/
inductive Hands (s : RequestScheduler) : RequestScheduler → List BusPacket → Prop
  | idle (empty : s.buffered = []) : Hands s s []
  | take {i : Nat} {r : Request} (picks : s.Picks i r) (bank : s.isRowHit r = true ∨ r.bank < 8) :
      Hands s (s.taken i r (s.commandGenerator.opened r (s.isRowHit r)))
        (s.commandGenerator.commandsOf r (s.isRowHit r))

/-- The row table and the generator agree on which banks were ever opened. -/
structure Tabled (s : RequestScheduler) : Prop where
  bound : ∀ bank, s.bankTable 0 bank ≠ none → bank < 8
  first : ∀ bank, bank < 8 → (s.commandGenerator.first bank = true ↔ s.bankTable 0 bank = none)

/-- A decoded request: its rank is 0 for the row table, and the two banks agree. -/
def Mapped (r : Request) : Prop := r.addressMap.rank = 0 ∧ r.addressMap.bank = r.bank

theorem Mapped.isRowHit {s : RequestScheduler} {r : Request} (h : Mapped r) :
    s.isRowHit r = (s.bankTable 0 r.bank == some r.row) := by
  rw [RequestScheduler.isRowHit, h.1, h.2]

/-- A request that is handed over is for one of the eight banks. -/
theorem Tabled.bank_lt {s : RequestScheduler} (h : s.Tabled) {r : Request} (mapped : Mapped r)
    (bank : s.isRowHit r = true ∨ r.bank < 8) : r.bank < 8 := by
  rcases bank with hit | bank
  · rw [mapped.isRowHit] at hit
    exact h.bound r.bank (by simp_all)
  · exact bank

/-- The row table and the generator's flags change together. -/
theorem Tabled.taken {s : RequestScheduler} (h : s.Tabled) {i : Nat} {r : Request}
    (mapped : Mapped r) (bank : s.isRowHit r = true ∨ r.bank < 8) :
    (s.taken i r (s.commandGenerator.opened r (s.isRowHit r))).Tabled := by
  have small := h.bank_lt mapped bank
  constructor
  · intro b
    rw [bankTable_taken, mapped.1, mapped.2]
    split
    · next e => exact fun _ => e.2 ▸ small
    · exact h.bound b
  · intro b hb
    rw [bankTable_taken, mapped.1, mapped.2, commandGenerator_taken]
    simp only [CommandGenerator.opened]
    by_cases e : b = r.bank
    · subst e
      have hit := mapped.isRowHit (s := s)
      have first := h.first r.bank small
      cases hr : s.isRowHit r <;> simp_all
    · simpa [e] using h.first b hb

namespace Hands

variable {s s' : RequestScheduler} {new : List BusPacket}

theorem oneBuffer (hands : Hands s s' new) (h : s.OneBuffer) : s'.OneBuffer := by
  cases hands with
  | idle => exact h
  | take => exact h.taken ..

theorem mapped (hands : Hands s s' new) (h : ∀ r ∈ s.buffered, Mapped r) :
    ∀ r ∈ s'.buffered, Mapped r := by
  cases hands with
  | idle => exact h
  | take => exact fun r hr => h r (List.mem_of_mem_eraseIdx hr)

theorem tabled (hands : Hands s s' new) (h : s.Tabled) (mapped : ∀ r ∈ s.buffered, Mapped r) :
    s'.Tabled := by
  cases hands with
  | idle => exact h
  | take picks bank => exact h.taken (mapped _ (List.mem_of_getElem? picks.at_)) bank

theorem emptied (hands : Hands s s' new) (h : s.commandGenerator.commandBuffer = []) :
    s'.commandGenerator.commandBuffer = [] := by
  cases hands <;> exact h

theorem commands (hands : Hands s s' new) (h : s.Tabled) (mapped : ∀ r ∈ s.buffered, Mapped r) :
    ∀ c ∈ new, c.bank < 8 ∧ OpenCommand c.bank c := by
  cases hands with
  | idle => exact fun c hc => absurd hc List.not_mem_nil
  | @take i r picks bank =>
    intro c hc
    have opens := openCommand_of_commandsOf hc
    have small := h.bank_lt (mapped _ (List.mem_of_getElem? picks.at_)) bank
    exact ⟨opens.1 ▸ small, opens.1.symm ▸ opens⟩

end Hands
end RequestScheduler

open RequestScheduler

/-! ## The search for the pending request -/

namespace MemoryController

variable {ρ κ : Type} {setup : Setup} {parts : Components ρ κ}

/-- The first pending request that a packet matches. -/
def Matched (c : MemoryController ρ κ) (isRead : Bool) (p : BusPacket) (index : Nat) (r : Request) :
    Prop :=
  (c.pending isRead).findIdx? (matchesRequest p) = some index ∧ (c.pending isRead)[index]? = some r

/-- The controller after a packet completed the pending request at a position. -/
def completed (c : MemoryController ρ κ) (isRead : Bool) (p : BusPacket) (index : Nat)
    (r : Request) : MemoryController ρ κ :=
  setPending isRead
    { c with
      callbacks := c.callbacks ++ [{ request := r, packet := p }]
      stats := trackCompletion isRead c.stats p }
    ((c.pending isRead).eraseIdx index)

/-- What a delivery does: nothing where no pending request matches; the first that does is completed
or counted down. -/
theorem deliver_cases (setup : Setup) (isRead : Bool) (c : MemoryController ρ κ) (p : BusPacket) :
    ((∀ r ∈ c.pending isRead, matchesRequest p r = false) ∧ deliver setup isRead c p = c) ∨
    ∃ index r, c.Matched isRead p index r ∧
      ((r.requestSize = setup.dataBusWidth ∧
          deliver setup isRead c p = c.completed isRead p index r) ∨
        (r.requestSize ≠ setup.dataBusWidth ∧ deliver setup isRead c p =
          c.assignSize r.handle ((r.requestSize + (2 ^ 32 - setup.dataBusWidth)) % 2 ^ 32))) := by
  unfold deliver
  cases hf : (c.pending isRead).findIdx? (matchesRequest p) with
  | none =>
    refine .inl ⟨fun r hr => ?_, rfl⟩
    simpa using List.findIdx?_eq_none_iff.mp hf r hr
  | some index =>
    obtain ⟨bound, _⟩ := List.findIdx?_eq_some_iff_getElem.mp hf
    have at_ : (c.pending isRead)[index]? = some (c.pending isRead)[index] :=
      List.getElem?_eq_getElem bound
    refine .inr ⟨index, _, ⟨hf, at_⟩, ?_⟩
    simp only [at_]
    split
    · next h => exact .inl ⟨h, rfl⟩
    · next h => exact .inr ⟨h, rfl⟩

/-! ## The shape that every cycle keeps -/

/-- The parts are wired as the set-up says: the request side, the row table and the generator's
flags, the queues of the banks, and write data that is data. -/
structure Wired (c : MemoryController ρ κ) : Prop where
  oneBuffer : c.requestScheduler.OneBuffer
  emptied : c.requestScheduler.commandGenerator.commandBuffer = []
  mapped : ∀ r ∈ c.requestScheduler.buffered, Mapped r
  tabled : c.requestScheduler.Tabled
  commands : c.commandScheduler.PerBank
  writes : ∀ p ∈ c.sendDataBuffer, p.busPacketType = .DATA ∧ p.postCommand = false

/-- The controller in mid-cycle: the two schedulers and the refresh machine have returned. -/
def scheduled (c : MemoryController ρ κ) (rs : RequestScheduler) (priv : ρ) (new : List BusPacket)
    (cs : CommandScheduler) (priv' : κ) : MemoryController ρ κ :=
  { c with
    requestScheduler := rs, requestPrivate := priv, stats := new.foldl trackCommand c.stats
    commandScheduler := cs, commandPrivate := priv' }

/-- One cycle: a request is handed over, the refresh machine has its turn, a front is sent. -/
inductive Cycle (setup : Setup) (refreshCheck check : Answers) (c : MemoryController ρ κ) :
    MemoryController ρ κ → Prop
  | mk {rs : RequestScheduler} {new : List BusPacket} {cs : CommandScheduler}
      {out : Option BusPacket} (priv : ρ) (priv' : κ)
      (hands : Hands c.requestScheduler rs new)
      (sends : Sends setup.device check
        ((c.commandScheduler.receive (new.map (stamp c.clockCycle))).refresh setup.device
          refreshCheck) cs out) :
      Cycle setup refreshCheck check c (endCycle setup (c.scheduled rs priv new cs priv') out)

theorem enqueueAll_eq (perBank : setup.PerBank) {c : MemoryController ρ κ}
    (commands : c.commandScheduler.PerBank)
    (banks : ∀ cmd ∈ c.requestScheduler.commandGenerator.commandBuffer, cmd.bank < 8) :
    enqueueAll setup c = some
      ({ c with requestScheduler :=
          { c.requestScheduler with commandGenerator :=
              { c.requestScheduler.commandGenerator with commandBuffer := [] } } }.enqueued
        c.requestScheduler.commandGenerator.commandBuffer) := by
  rw [enqueueAll, foldlM_enqueueCommand perBank _ commands.general commands.queues banks]
  rfl

/-- The cycle once the request scheduler returned: the commands `new` that it had the generator make
join the queues of their banks, and the command scheduler sends a front. -/
theorem update_scheduled (perBank : setup.PerBank) (fronts : parts.commandScheduler.SendsFronts)
    {c : MemoryController ρ κ} (commands : c.commandScheduler.PerBank) (refreshCheck check : Answers)
    {rs : RequestScheduler} {new : List BusPacket} {priv : ρ}
    (scheduled : parts.requestScheduler.requestSchedule parts.commandGenerator c.requestScheduler
      c.requestPrivate = some ({ rs with commandGenerator :=
        { rs.commandGenerator with commandBuffer := new } }, priv))
    (emptied : rs.commandGenerator.commandBuffer = [])
    (opens : ∀ cmd ∈ new, cmd.bank < 8 ∧ OpenCommand cmd.bank cmd) :
    (c.commandScheduler.receive (new.map (stamp c.clockCycle))).PerBank ∧
    ∃ cs priv' out, c.update setup parts refreshCheck check =
        some (endCycle setup (c.scheduled rs priv new cs priv') out) ∧
      Sends setup.device check
        ((c.commandScheduler.receive (new.map (stamp c.clockCycle))).refresh setup.device
          refreshCheck) cs out := by
  have received : (c.commandScheduler.receive (new.map (stamp c.clockCycle))).PerBank := by
    apply commands.receive
    intro x hx
    obtain ⟨y, hy, rfl⟩ := List.mem_map.mp hx
    exact (opens y hy).2
  obtain ⟨cs, priv', out, sent, sends⟩ := fronts setup.device check
    ((c.commandScheduler.receive (new.map (stamp c.clockCycle))).refresh setup.device
      refreshCheck) c.commandPrivate received.refresh.general
    (by rw [received.refresh.queues]; decide)
  have enqueued := enqueueAll_eq (c := { c with
    requestScheduler := { rs with commandGenerator :=
      { rs.commandGenerator with commandBuffer := new } }
    requestPrivate := priv }) perBank commands fun x hx => (opens x hx).1
  refine ⟨received, cs, priv', out, ?_, sends⟩
  unfold update
  rw [scheduled, Option.bind_some]
  dsimp only
  rw [enqueued, Option.bind_some]
  have clear : ({ rs.commandGenerator with commandBuffer := [] } : CommandGenerator) =
      rs.commandGenerator := by rw [← emptied]
  simp only [clear]
  exact (congrArg (Option.map _) sent).trans rfl

/-- **A cycle, taken apart.** It is undefined only where a request for a ninth bank waits. -/
theorem update_cycle (open_ : setup.OpenPage) (opens : parts.OpenPage) {c : MemoryController ρ κ}
    (wired : c.Wired) (refreshCheck check : Answers) :
    (c.update setup parts refreshCheck check = none ∧
      ∃ r ∈ c.requestScheduler.buffered, 8 ≤ r.bank) ∨
    ∃ c', c.update setup parts refreshCheck check = some c' ∧
      Cycle setup refreshCheck check c c' := by
  have rest : ∀ (rs : RequestScheduler) (new : List BusPacket) (priv : ρ),
      Hands c.requestScheduler rs new →
      parts.requestScheduler.requestSchedule parts.commandGenerator c.requestScheduler
        c.requestPrivate = some ({ rs with commandGenerator :=
          { rs.commandGenerator with commandBuffer := new } }, priv) →
      ∃ c', c.update setup parts refreshCheck check = some c' ∧
        Cycle setup refreshCheck check c c' := by
    intro rs new priv hands scheduled
    obtain ⟨_, cs, priv', out, updated, sends⟩ := update_scheduled open_.toPerBank opens.commands
      wired.commands refreshCheck check scheduled (hands.emptied wired.emptied)
      (hands.commands wired.tabled wired.mapped)
    exact ⟨_, updated, .mk priv priv' hands sends⟩
  obtain ⟨priv, idle | ⟨i, r, picks, scheduled⟩⟩ :=
    opens.requests c.requestScheduler c.requestPrivate wired.oneBuffer
  · refine .inr (rest _ _ priv (.idle idle.1) ?_)
    rw [opens.generator, idle.2, ← wired.emptied]
  · rw [CommandGenerator.commandGenerateOpen_eq] at scheduled
    split at scheduled
    · next bank =>
      refine .inr (rest _ _ priv (.take picks (by simpa using bank)) ?_)
      rw [opens.generator, scheduled, wired.emptied]
      rfl
    · next bank =>
      refine .inl ⟨?_, r, List.mem_of_getElem? picks.at_, ?_⟩
      · rw [update, opens.generator, scheduled]
        rfl
      · simp only [Bool.or_eq_true, decide_eq_true_eq, not_or] at bank
        omega

/-! ## The end of the cycle -/

/-- A pending request, taken out of its list. -/
theorem pending_erase (c : MemoryController ρ κ) {isRead : Bool} {index : Nat} {r : Request}
    (found : (c.pending isRead)[index]? = some r) :
    (c.pendingReadRequest ++ c.pendingWriteRequest).Perm
      (r :: ((setPending isRead c ((c.pending isRead).eraseIdx index)).pendingReadRequest ++
        (setPending isRead c ((c.pending isRead).eraseIdx index)).pendingWriteRequest)) := by
  obtain ⟨bound, rfl⟩ := List.getElem?_eq_some_iff.mp found
  have taken := List.getElem_cons_eraseIdx_perm bound
  cases isRead with
  | true => exact taken.symm.append_right c.pendingWriteRequest
  | false => exact (taken.symm.append_left c.pendingReadRequest).trans List.perm_middle

/-- A request scheduler after a delivery: a size may have been assigned through a pending pointer,
and its clock is nobody's business here. -/
inductive Resized (s : RequestScheduler) : RequestScheduler → Prop
  | same (clock : Nat) : Resized s { s with clockCycle := clock }
  | sized (clock handle n : Nat) : Resized s { s.assignSize handle n with clockCycle := clock }

namespace Resized

variable {s s' : RequestScheduler}

theorem refl (s : RequestScheduler) : Resized s s := .same s.clockCycle

theorem step (h : Resized s s') : Resized s s'.step := by
  cases h with
  | same clock => exact .same (clock + 1)
  | sized clock handle n => exact .sized (clock + 1) handle n

theorem oneBuffer (h : Resized s s') (one : s.OneBuffer) : s'.OneBuffer := by
  cases h <;> exact ⟨one.count, one.general, one.writes⟩

theorem table (h : Resized s s') : s'.bankTable = s.bankTable := by
  cases h <;> rfl

theorem generator (h : Resized s s') : s'.commandGenerator = s.commandGenerator := by
  cases h <;> rfl

/-- A request of a list after an assignment is one of before, up to its size. -/
theorem mem_assignSize {handle n : Nat} {l : List Request} {r' : Request}
    (h : r' ∈ Request.assignSize handle n l) : ∃ r ∈ l, ∃ n, r' = { r with requestSize := n } := by
  rcases Request.mem_assignSize h with ⟨hr, _⟩ | ⟨r, hr, _, same⟩
  · exact ⟨r', hr, r'.requestSize, rfl⟩
  · exact ⟨r, hr, n, same⟩

theorem requests (h : Resized s s') :
    ∀ r' ∈ s'.buffered, ∃ r ∈ s.buffered, ∃ n, r' = { r with requestSize := n } := by
  intro r' hr'
  cases h with
  | same => exact ⟨r', hr', r'.requestSize, rfl⟩
  | sized => exact mem_assignSize hr'

end Resized

/-- A delivery changes the pending lists, the callbacks and sizes of requests. -/
theorem deliver_frame (setup : Setup) (isRead : Bool) (c : MemoryController ρ κ) (p : BusPacket) :
    Resized c.requestScheduler (deliver setup isRead c p).requestScheduler ∧
      (deliver setup isRead c p).commandScheduler = c.commandScheduler ∧
      (deliver setup isRead c p).sendDataBuffer = c.sendDataBuffer ∧
      (deliver setup isRead c p).sendDataCounter = c.sendDataCounter := by
  obtain ⟨_, h⟩ | ⟨index, r, _, ⟨_, h⟩ | ⟨_, h⟩⟩ := deliver_cases setup isRead c p
  · rw [h]
    exact ⟨.refl _, rfl, rfl, rfl⟩
  · rw [h]
    cases isRead <;> exact ⟨.refl _, rfl, rfl, rfl⟩
  · rw [h]
    exact ⟨.sized _ _ _, rfl, rfl, rfl⟩

/-- Write data is swallowed by the device. -/
theorem receiveFromBus_data {spec : DeviceSpec} {d : MemoryDevice} {p : BusPacket}
    (data : p.busPacketType = .DATA) (posted : p.postCommand = false) :
    d.receiveFromBus spec p = d := by
  simp [MemoryDevice.receiveFromBus, data, posted]

/-- The write data sent in a cycle leaves the device as it is. -/
theorem sendWriteData_frame (setup : Setup) {c : MemoryController ρ κ}
    (writes : ∀ p ∈ c.sendDataBuffer, p.busPacketType = .DATA ∧ p.postCommand = false) :
    Resized c.requestScheduler (sendWriteData setup c).requestScheduler ∧
      (sendWriteData setup c).commandScheduler = c.commandScheduler ∧
      ∀ p ∈ (sendWriteData setup c).sendDataBuffer, p ∈ c.sendDataBuffer := by
  unfold sendWriteData
  dsimp only
  split
  · split
    · exact ⟨.refl _, rfl, fun _ => id⟩
    · next p rest h =>
      obtain ⟨data, posted⟩ := writes p (by simp [h])
      obtain ⟨resized, commands, _, _⟩ := deliver_frame setup false
        { c with
          commandScheduler := { c.commandScheduler with
            memoryDevice := c.commandScheduler.memoryDevice.receiveFromBus setup.device p }
          stats := { c.stats with writeBytes := c.stats.writeBytes + setup.dataBusWidth } } p
      rw [receiveFromBus_data data posted] at commands resized
      refine ⟨?_, ?_, fun q hq => h ▸ List.mem_cons_of_mem p hq⟩
      · rw [sendData, receiveFromBus_data data posted]
        exact resized
      · rw [sendData, receiveFromBus_data data posted]
        exact commands
  · exact ⟨.refl _, rfl, fun _ => id⟩

theorem queueWriteData_frame (setup : Setup) (c : MemoryController ρ κ) (out : Option BusPacket) :
    (queueWriteData setup c out).requestScheduler = c.requestScheduler ∧
      (queueWriteData setup c out).commandScheduler = c.commandScheduler ∧
      ∀ p ∈ (queueWriteData setup c out).sendDataBuffer,
        p ∈ c.sendDataBuffer ∨ (p.busPacketType = .DATA ∧ p.postCommand = false) := by
  unfold queueWriteData
  split
  · exact ⟨rfl, rfl, fun _ => .inl⟩
  · split
    · refine ⟨rfl, rfl, fun p hp => ?_⟩
      rcases List.mem_append.mp hp with hp | hp
      · exact .inl hp
      · rw [List.mem_singleton.mp hp]
        exact .inr ⟨rfl, rfl⟩
    · exact ⟨rfl, rfl, fun _ => .inl⟩

/-- The end of a cycle ticks the command scheduler and resizes requests. -/
theorem endCycle_frame (setup : Setup) {c : MemoryController ρ κ} (out : Option BusPacket)
    (writes : ∀ p ∈ c.sendDataBuffer, p.busPacketType = .DATA ∧ p.postCommand = false) :
    Resized c.requestScheduler (endCycle setup c out).requestScheduler ∧
      (endCycle setup c out).commandScheduler = c.commandScheduler.tick ∧
      ∀ p ∈ (endCycle setup c out).sendDataBuffer,
        p.busPacketType = .DATA ∧ p.postCommand = false := by
  obtain ⟨hrs, hcs, hdata⟩ := queueWriteData_frame setup c out
  have writes' : ∀ p ∈ (queueWriteData setup c out).sendDataBuffer,
      p.busPacketType = .DATA ∧ p.postCommand = false := fun p hp => (hdata p hp).elim (writes p) id
  obtain ⟨resized, commands, kept⟩ := sendWriteData_frame setup writes'
  rw [hrs] at resized
  rw [hcs] at commands
  refine ⟨resized.step, ?_, fun p hp => writes' p (kept p hp)⟩
  show (sendWriteData setup (queueWriteData setup c out)).commandScheduler.tick = _
  rw [commands]

theorem deliver_private (setup : Setup) (isRead : Bool) (c : MemoryController ρ κ) (p : BusPacket) :
    (deliver setup isRead c p).requestPrivate = c.requestPrivate ∧
      (deliver setup isRead c p).commandPrivate = c.commandPrivate := by
  obtain ⟨_, h⟩ | ⟨index, r, _, ⟨_, h⟩ | ⟨_, h⟩⟩ := deliver_cases setup isRead c p
  · rw [h]
    exact ⟨rfl, rfl⟩
  · rw [h]
    cases isRead <;> exact ⟨rfl, rfl⟩
  · rw [h]
    exact ⟨rfl, rfl⟩

/-- The end of a cycle leaves what the two schedulers keep for themselves alone. -/
theorem endCycle_private (setup : Setup) (c : MemoryController ρ κ) (out : Option BusPacket) :
    (endCycle setup c out).requestPrivate = c.requestPrivate ∧
      (endCycle setup c out).commandPrivate = c.commandPrivate := by
  have queued : (queueWriteData setup c out).requestPrivate = c.requestPrivate ∧
      (queueWriteData setup c out).commandPrivate = c.commandPrivate := by
    unfold queueWriteData
    split
    · exact ⟨rfl, rfl⟩
    · split <;> exact ⟨rfl, rfl⟩
  show (sendWriteData setup (queueWriteData setup c out)).requestPrivate = _ ∧
    (sendWriteData setup (queueWriteData setup c out)).commandPrivate = _
  rw [← queued.1, ← queued.2]
  unfold sendWriteData
  dsimp only
  split
  · split
    · exact ⟨rfl, rfl⟩
    · exact deliver_private ..
  · exact ⟨rfl, rfl⟩

/-! ## Every step keeps the shape -/

theorem Resized.tabled {s s' : RequestScheduler} (h : Resized s s') (t : s.Tabled) : s'.Tabled :=
  ⟨h.table ▸ t.bound, h.table ▸ h.generator ▸ t.first⟩

theorem Resized.mapped {s s' : RequestScheduler} (h : Resized s s')
    (mapped : ∀ r ∈ s.buffered, Mapped r) : ∀ r ∈ s'.buffered, Mapped r := by
  intro r' hr'
  obtain ⟨r, hr, n, rfl⟩ := h.requests r' hr'
  exact mapped r hr

/-- The queues of the banks after a request was handed over. -/
theorem Wired.perBank_receive {c : MemoryController ρ κ} (wired : c.Wired) {rs : RequestScheduler}
    {new : List BusPacket} (hands : Hands c.requestScheduler rs new) :
    (c.commandScheduler.receive (new.map (stamp c.clockCycle))).PerBank := by
  apply wired.commands.receive
  intro x hx
  obtain ⟨y, hy, rfl⟩ := List.mem_map.mp hx
  exact (hands.commands wired.tabled wired.mapped y hy).2

/-- **A cycle keeps the shape.** -/
theorem Cycle.wired {refreshCheck check : Answers} {c c' : MemoryController ρ κ}
    (cycle : Cycle setup refreshCheck check c c') (wired : c.Wired) : c'.Wired := by
  obtain ⟨priv, priv', hands, sends⟩ := cycle
  rename_i rs new cs out
  have received := wired.perBank_receive hands
  obtain ⟨resized, ticked, writes⟩ := endCycle_frame setup
    (c := c.scheduled rs priv new cs priv') out wired.writes
  refine ⟨resized.oneBuffer (hands.oneBuffer wired.oneBuffer), ?_,
    resized.mapped (hands.mapped wired.mapped),
    resized.tabled (hands.tabled wired.tabled wired.mapped), ?_, writes⟩
  · rw [resized.generator]
    exact hands.emptied wired.emptied
  · rw [ticked]
    exact (received.refresh.sends sends).tick

/-- The controller after a request joined the one general buffer. -/
def arrived (c : MemoryController ρ κ) (request : Request) (R_W : Bool) : MemoryController ρ κ :=
  { c with
    stats := if request.requestorID = 0 then
      { c.stats with totalRequest := c.stats.totalRequest + 1 } else c.stats
    requestScheduler := c.requestScheduler.setQueue 0
      { c.requestScheduler.requestQueue 0 with
        generalBuffer := c.requestScheduler.buffered ++ [request] }
    pendingReadRequest :=
      if R_W then c.pendingReadRequest ++ [request] else c.pendingReadRequest
    pendingWriteRequest :=
      if R_W then c.pendingWriteRequest else c.pendingWriteRequest ++ [request]
    nextHandle := c.nextHandle + 1
    accepted := c.accepted ++ [request] }

@[simp] theorem buffered_arrived (c : MemoryController ρ κ) (request : Request) (R_W : Bool) :
    (c.arrived request R_W).requestScheduler.buffered =
      c.requestScheduler.buffered ++ [request] := rfl

/-- The decoded request keeps what the requestor gave. -/
theorem incoming_same (setup : Setup) (c : MemoryController ρ κ) (requestorID address : Nat)
    (R_W : Bool) (size : Nat) :
    let r := incoming setup c requestorID address R_W size
    r.handle = c.nextHandle ∧ r.requestType = (if R_W then .DATA_READ else .DATA_WRITE) ∧
      r.requestorID = requestorID ∧ r.requestSize = size ∧ r.address = address := by
  obtain ⟨h₁, h₂, h₃, h₄, h₅, _⟩ := AddressMapping.same_addressMapping setup.build
    (AddressMapping.decodeIndex setup.format setup.memTable)
    { handle := c.nextHandle, requestType := if R_W then .DATA_READ else .DATA_WRITE,
      requestorID := requestorID, requestSize := size, address := address,
      arriveTime := c.clockCycle % 2 ^ 32 }
  exact ⟨h₁, h₂, h₃, h₄, h₅⟩

theorem incoming_mapped (setup : Setup) (c : MemoryController ρ κ) (requestorID address : Nat)
    (R_W : Bool) (size : Nat) : Mapped (incoming setup c requestorID address R_W size) := by
  unfold incoming Mapped
  rw [AddressMapping.addressMapping_addressMap]
  exact ⟨rfl, rfl⟩

/-- An arrival joins the one general buffer. -/
theorem addRequest_eq (open_ : setup.OpenPage) {c : MemoryController ρ κ} (wired : c.Wired)
    (requestorID address : Nat) (R_W : Bool) (size : Nat) :
    c.addRequest setup requestorID address R_W size =
      some (c.arrived (incoming setup c requestorID address R_W size) R_W) := by
  have one := wired.oneBuffer
  have sameID := (incoming_same setup c requestorID address R_W size).2.2.1
  simp only [addRequest, open_.reqMap, decodeQueue_unmarked, one.count, Nat.zero_lt_one, if_true,
    RequestQueue.insertRequest, one.writes, one.general, Bool.false_and, arrived, sameID]
  rfl

theorem wired_arrived {c : MemoryController ρ κ} (wired : c.Wired) {r : Request} (mapped : Mapped r)
    (R_W : Bool) : (c.arrived r R_W).Wired := by
  refine ⟨⟨wired.oneBuffer.count, wired.oneBuffer.general, wired.oneBuffer.writes⟩, wired.emptied,
    fun x hx => ?_, ⟨wired.tabled.bound, wired.tabled.first⟩, wired.commands, wired.writes⟩
  rcases List.mem_append.mp hx with hx | hx
  · exact wired.mapped x hx
  · exact List.mem_singleton.mp hx ▸ mapped

/-- The constructor wires the parts. -/
theorem wired_create (open_ : setup.OpenPage) (parts : Components ρ κ)
    (refreshCounting bank_release : Nat) :
    (create setup parts refreshCounting bank_release).Wired := by
  have one : queueNumber setup setup.reqMap = 1 := by rw [open_.reqMap, queueNumber_unmarked]
  refine ⟨⟨one, open_.requestorReqQ, open_.writeQueueEnable⟩, rfl,
    fun r hr => absurd hr List.not_mem_nil, ⟨fun _ h => absurd rfl h, fun _ _ => ?_⟩,
    ⟨fun _ => ⟨open_.requestorCmdQ, rfl⟩, open_.queueNumber_cmdMap,
      fun _ c hc => absurd hc List.not_mem_nil⟩, fun p hp => absurd hp List.not_mem_nil⟩
  exact ⟨fun _ => rfl, fun _ => rfl⟩

end MemoryController

/-! ## Runs -/

/-- The build with privatised banks gives every requestor the bank of its number, so it has room for
eight requestors. -/
def Event.Fits (setup : Setup) : Event → Prop
  | .addRequest requestorID _ _ _ =>
    setup.build = .SINGLE_RANK_BANK_PRIVATIZATION → requestorID < 8
  | .update _ _ => True

/-- `FCFS` or `FRFCFS` for requests, `OPEN`, and `PUSH`, `FCFS` or `FRFCFS` for commands. -/
def Components.General (parts : Components Unit Unit) : Prop :=
  (parts.requestScheduler = RequestFcfs.policy ∨ parts.requestScheduler = RequestFrfcfs.policy) ∧
    parts.commandGenerator = openGenerator ∧
    (parts.commandScheduler = Push.policy ∨ parts.commandScheduler = Fcfs.policy ∨
      parts.commandScheduler = Frfcfs.policy)

theorem Components.General.openPage {parts : Components Unit Unit} (h : parts.General) :
    parts.OpenPage := by
  obtain ⟨requests, generator, commands⟩ := h
  refine ⟨?_, generator, ?_⟩
  · rcases requests with h | h
    · exact h ▸ RequestFcfs.policy_takesOne
    · exact h ▸ RequestFrfcfs.policy_takesOne
  · rcases commands with h | h | h
    · exact h ▸ Push.policy_sendsFronts
    · exact h ▸ Fcfs.policy_sendsFronts
    · exact h ▸ Frfcfs.policy_sendsFronts

theorem Components.General.asksFronts {parts : Components Unit Unit} (h : parts.General) :
    parts.commandScheduler.AsksFronts := by
  rcases h.2.2 with h | h | h
  · exact h ▸ Push.policy_asksFronts
  · exact h ▸ Fcfs.policy_asksFronts
  · exact h ▸ Frfcfs.policy_asksFronts

namespace MemoryController

variable {ρ κ : Type} {setup : Setup} {parts : Components ρ κ}

/-- **What one event does** at a wired controller: a request arrives, or a cycle passes. -/
theorem step_cases (open_ : setup.OpenPage) (opens : parts.OpenPage) {c c' : MemoryController ρ κ}
    (wired : c.Wired) {e : Event} {o : Unit} (h : step setup parts c e = some (c', o)) :
    (∃ requestorID address R_W size, e = .addRequest requestorID address R_W size ∧
      c' = c.arrived (incoming setup c requestorID address R_W size) R_W) ∨
    ∃ refreshCheck check, e = .update refreshCheck check ∧ Cycle setup refreshCheck check c c' := by
  cases e with
  | addRequest requestorID address R_W size =>
    simp only [step, addRequest_eq open_ wired, Option.map_some, Option.some.injEq,
      Prod.mk.injEq] at h
    exact .inl ⟨requestorID, address, R_W, size, rfl, h.1.symm⟩
  | update refreshCheck check =>
    refine .inr ⟨refreshCheck, check, rfl, ?_⟩
    rcases update_cycle open_ opens wired refreshCheck check with ⟨hn, _⟩ | ⟨c'', hs, cycle⟩
    · simp [step, hn] at h
    · simp only [step, hs, Option.map_some, Option.some.injEq, Prod.mk.injEq] at h
      exact h.1 ▸ cycle

/-- Every waiting request is for one of the eight banks. -/
def Fits (c : MemoryController ρ κ) : Prop := ∀ r ∈ c.requestScheduler.buffered, r.bank < 8

theorem Cycle.fits {refreshCheck check : Answers} {c c' : MemoryController ρ κ}
    (cycle : Cycle setup refreshCheck check c c') (wired : c.Wired) (fits : c.Fits) : c'.Fits := by
  obtain ⟨priv, priv', hands, sends⟩ := cycle
  rename_i rs new cs out
  obtain ⟨resized, _, _⟩ := endCycle_frame setup
    (c := c.scheduled rs priv new cs priv') out wired.writes
  intro r hr
  obtain ⟨r', hr', n, rfl⟩ := resized.requests r hr
  cases hands with
  | idle => exact fits r' hr'
  | take => exact fits r' (List.mem_of_mem_eraseIdx hr')

/-- A decoded bank has three bits; a privatised one is the requestor's number. -/
theorem incoming_bank_lt (perBank : setup.PerBank) (c : MemoryController ρ κ)
    {requestorID : Nat} (address : Nat) (R_W : Bool) (size : Nat)
    (fits : setup.build = .SINGLE_RANK_BANK_PRIVATIZATION → requestorID < 8) :
    (incoming setup c requestorID address R_W size).bank < 8 := by
  have decoded : ∀ x : Nat, x % 2 ^ 3 < 8 := fun x => Nat.mod_lt x (by decide)
  cases hb : setup.build with
  | MULTI_RANK_BANK_PRIVATIZATION => exact absurd hb perBank.build
  | SINGLE_RANK_BANK_PRIVATIZATION =>
    have same := (incoming_same setup c requestorID address R_W size).2.2.1
    simp only [incoming, AddressMapping.addressMapping, hb, AddressMapping.privatize] at same ⊢
    rw [same]
    exact fits hb
  | none =>
    simp only [incoming, AddressMapping.addressMapping, hb, AddressMapping.privatize,
      perBank.format, AddressMapping.decodeIndex, List.map_cons, List.map_nil, List.reverse_cons,
      List.reverse_nil, List.nil_append, List.cons_append, List.foldl_cons, List.foldl_nil,
      AddressMapping.decodeStep, AddressMapping.assignLevel, perBank.bank,
      AddressMapping.log2_eight, AddressMapping.shift_xor]
    exact decoded _

/-- **Progress**: from a wired controller every event that fits can happen. -/
theorem step_defined (open_ : setup.OpenPage) (opens : parts.OpenPage) {c : MemoryController ρ κ}
    (wired : c.Wired) (fits : c.Fits) {e : Event} (he : e.Fits setup) :
    ∃ c' o, step setup parts c e = some (c', o) ∧ c'.Wired ∧ c'.Fits := by
  cases e with
  | addRequest requestorID address R_W size =>
    refine ⟨_, (), by rw [step, addRequest_eq open_ wired]; rfl, wired_arrived wired
      (incoming_mapped ..) R_W, fun r hr => ?_⟩
    rcases List.mem_append.mp hr with hr | hr
    · exact fits r hr
    · exact List.mem_singleton.mp hr ▸ incoming_bank_lt open_.toPerBank c address R_W size he
  | update refreshCheck check =>
    rcases update_cycle open_ opens wired refreshCheck check with ⟨_, r, hr, big⟩ | ⟨c', hs, cycle⟩
    · have := fits r hr
      omega
    · exact ⟨c', (), by rw [step, hs]; rfl, cycle.wired wired, cycle.fits wired fits⟩

end MemoryController
end MCsim
