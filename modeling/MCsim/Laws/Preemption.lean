import MCsim.Laws.DirectRows
import MCsim.Laws.MagRows
import MCsim.Traffic

/-!
# MAG in its set-up

DIRECT hands over a request of every requestor, `OPEN` makes their commands as the one row table tells,
and each command joins the side of its bank's queue that its requestor's criticality selects. Critical
commands overtake the others there, so neither the row table nor the order in which commands were made
describes a bank.

The rows are right in the runs whose cycles are spared (`Spares`): every row hit is one of its own side,
and MAG's call disturbs neither side. A run in which a column access of row 5 is compensated for shows what
happens otherwise: the activation that is to restore it opens row 0.
-/

namespace MCsim

open CommandScheduler RequestScheduler

/-- The set-up of `MAG.ini`: a buffer for each requestor before the queues of the banks, requestors of
either kind, and no refresh. -/
structure Setup.TwoSided (setup : Setup) : Prop where
  perBank : { setup with requestorCriticalTable := fun _ => true }.PerBank
  reqMap : setup.reqMap = [false, false, false, false]
  requestorReqQ : setup.requestorReqQ = true
  refresh : setup.refresh_mechanism = .none

/-! ## Commands onto the sides -/

namespace CommandScheduler

variable {s : CommandScheduler}

/-- Commands join the sides that the criticality of their requestors selects, in order. -/
def deal (critical : Nat → Bool) (s : CommandScheduler) (l : List BusPacket) : CommandScheduler :=
  l.foldl (fun s c => s.insertCommand c.bank c (critical c.requestorID)) s

theorem deal_frame (critical : Nat → Bool) (s : CommandScheduler) (l : List BusPacket) :
    (s.deal critical l).memoryDevice = s.memoryDevice ∧ (s.deal critical l).queueCount = s.queueCount ∧
      (s.deal critical l).refreshMachine = s.refreshMachine := by
  induction l generalizing s with
  | nil => exact ⟨rfl, rfl, rfl⟩
  | cons c l ih => exact ih (s.insertCommand c.bank c (critical c.requestorID))

theorem Sided.side_deal (sided : s.Sided) (critical : Nat → Bool) (l : List BusPacket) (bank : Nat)
    (side : Bool) : (s.deal critical l).side bank side =
      s.side bank side ++ Direct.sorted critical l side bank := by
  induction l generalizing s with
  | nil =>
    show s.side bank side = _
    simp [Direct.sorted]
  | cons c l ih =>
    have joined := ih (sided.insertCommand c.bank c (critical c.requestorID))
    rw [sided.side_insertCommand, List.append_assoc] at joined
    refine joined.trans (congrArg (s.side bank side ++ ·) ?_)
    unfold Direct.sorted
    rw [List.filter_cons]
    by_cases here : bank = c.bank ∧ side = critical c.requestorID
    · obtain ⟨rfl, rfl⟩ := here
      simp
    · have other : (c.bank == bank && critical c.requestorID == side) = false := by
        simp only [Bool.and_eq_false_iff, beq_eq_false_iff_ne]
        by_contra both
        simp only [not_or, not_not] at both
        exact here ⟨both.1.symm, both.2.symm⟩
      rw [if_neg here, other]
      rfl

end CommandScheduler

namespace Mag

variable {s s' : CommandScheduler} {p : MagState}

theorem Kept.deal (kept : Kept s p) (spec : DeviceSpec) (critical : Nat → Bool) {l : List BusPacket}
    (banks : ∀ c ∈ l, c.bank < s.queueCount) : Kept (s.deal critical l) p := by
  induction l generalizing s with
  | nil => exact kept
  | cons c l ih =>
    have inserted : BaseStep spec critical s (.insertCommand c.bank c)
        (s.insertCommand c.bank c (critical c.requestorID)) := .insertCommand (banks c List.mem_cons_self)
    refine ih (kept.base (fun e he => ?_) inserted) fun x hx => banks x (List.mem_cons_of_mem c hx)
    obtain rfl := Option.some.inj he
    rfl

/-- The row that a side's commands leave open, once they are sent. -/
def leftOpen (s : CommandScheduler) (p : MagState) (critical : Bool) (bank : Nat) : Option Nat :=
  casBuffer.after (openRow s bank) (stream s p critical bank)

theorem rows_create {queueCount : Nat} (positive : 0 < queueCount) (m : RefreshMachine) :
    Rows (CommandScheduler.create queueCount false m) {} := by
  have empty : ∀ critical bank,
      stream (CommandScheduler.create queueCount false m) {} critical bank = [] := by
    intro critical bank
    cases critical with
    | true => exact side_create ..
    | false => exact side_create ..
  refine ⟨kept_create queueCount m, positive, fun critical bank c hc => ?_, fun _ => trivial,
    fun critical bank => ?_⟩
  · rw [empty] at hc
    cases hc
  · rw [empty]
    trivial

/-- **Commands that are legal behind those of their side** may join it. -/
theorem Rows.deal (rows : Rows s p) (spec : DeviceSpec) {critical : Nat → Bool} {l : List BusPacket}
    (commands : ∀ c ∈ l, c.bank < s.queueCount ∧ OpenCommand c.bank c)
    (plays : ∀ side bank,
      casBuffer.Accepts (leftOpen s p side bank) (Direct.sorted critical l side bank)) :
    Rows (s.deal critical l) p := by
  obtain ⟨device, count, _⟩ := s.deal_frame critical l
  have joined : ∀ side bank, stream (s.deal critical l) p side bank =
      stream s p side bank ++ Direct.sorted critical l side bank := by
    intro side bank
    cases side with
    | true => exact rows.kept.sided.side_deal critical l bank true
    | false =>
      rw [stream_false, rows.kept.sided.side_deal, stream_false, List.append_assoc]
  have same : ∀ bank, openRow (s.deal critical l) bank = openRow s bank := by
    intro bank
    unfold openRow
    rw [device]
  refine ⟨rows.kept.deal spec critical fun c hc => (commands c hc).1, ?_, fun side bank c hc => ?_,
    fun bank => ?_, fun side bank => ?_⟩
  · rw [count]
    exact rows.index
  · rw [joined] at hc
    rcases List.mem_append.mp hc with old | new
    · exact rows.queued side bank c old
    · obtain ⟨mem, here⟩ := List.mem_filter.mp new
      simp only [Bool.and_eq_true, beq_iff_eq] at here
      exact here.1 ▸ (commands c mem).2
  · rw [device]
    exact rows.legal bank
  · rw [same, joined, casBuffer.accepts_append]
    exact ⟨rows.plays side bank, plays side bank⟩

theorem Rows.refresh (rows : Rows s p) (quiet : s.Quiet) (spec : DeviceSpec) (check : Answers) :
    Rows (s.refresh spec check) p := by
  obtain ⟨queues, count⟩ := commandQueue_refresh s spec check
  have call : BaseStep spec (fun _ => true) s (.refresh check) (s.refresh spec check) := .refresh check
  have nothing : SchedulerCall.Inserts ofBank (.refresh check) := by
    intro e inserted
    cases inserted
  refine rows.congr (rows.kept.base nothing call) ?_ ?_ fun critical bank => ?_
  · rw [count]
    exact rows.index
  · rw [(quiet.refresh spec check).2]
  · unfold stream side
    rw [queues]

theorem Rows.tick (rows : Rows s p) (spec : DeviceSpec) : Rows s.tick p := by
  have call : BaseStep spec (fun _ => true) s .tick s.tick := .tick
  have nothing : SchedulerCall.Inserts ofBank .tick := by
    intro e inserted
    cases inserted
  apply rows.congr (rows.kept.base nothing call) rows.index rfl
  intro critical bank
  unfold stream
  rw [side_tick, side_tick]

/-- A call changes neither the number of queues nor the refresh machine. -/
theorem Kept.schedule_frame (kept : Kept s p) {spec : DeviceSpec} {check : Answers} {p' : MagState}
    {sent : Option Candidate} (h : Mag.schedule spec check s p = some (s', p', sent)) :
    s'.queueCount = s.queueCount ∧ s'.refreshMachine = s.refreshMachine := by
  obtain ⟨t, chose, sends⟩ := Option.bind_eq_some_iff.mp h
  have alike := (kept.choose chose).1
  obtain ⟨_, _, count, _⟩ := send_cases (alike.sided kept.sided) sends
  refine ⟨count.trans alike.queueCount, ?_⟩
  have machine : t.scheduler.refreshMachine = s.refreshMachine := by rw [alike.same]
  rw [← machine]
  unfold send at sends
  split at sends
  · obtain rfl := congrArg Prod.fst (Option.some.inj sends)
    rfl
  · split at sends
    · obtain rfl := congrArg Prod.fst (Option.some.inj sends)
      exact refreshMachine_sendCommand ..
    · cases sends

end Mag

/-! ## A cycle -/

namespace MemoryController

variable {ρ κ : Type} {setup : Setup}

theorem enqueueCommand_deal (sided : setup.TwoSided) {c : MemoryController ρ κ}
    (queues : c.commandScheduler.queueCount = 8) {cmd : BusPacket} (bank : cmd.bank < 8) :
    enqueueCommand setup c cmd = some { c with
      stats := trackCommand c.stats cmd
      commandScheduler :=
        c.commandScheduler.deal setup.requestorCriticalTable [stamp c.clockCycle cmd] } := by
  have index : commandIndex setup cmd = cmd.bank := sided.perBank.commandIndex_eq bank
  unfold enqueueCommand
  rw [index, queues, if_pos bank]
  rfl

/-- The loop over the generated commands deals them to the sides of the banks' queues. -/
theorem foldlM_deal (sided : setup.TwoSided) (l : List BusPacket) {c : MemoryController ρ κ}
    (queues : c.commandScheduler.queueCount = 8) (banks : ∀ cmd ∈ l, cmd.bank < 8) :
    l.foldlM (enqueueCommand setup) c = some { c with
      stats := l.foldl trackCommand c.stats
      commandScheduler :=
        c.commandScheduler.deal setup.requestorCriticalTable (l.map (stamp c.clockCycle)) } := by
  induction l generalizing c with
  | nil => rfl
  | cons cmd l ih =>
    rw [List.foldlM_cons, enqueueCommand_deal sided queues (banks cmd List.mem_cons_self),
      Option.bind_eq_bind, Option.bind_some, ih]
    · rfl
    · rw [(deal_frame ..).2.1]
      exact queues
    · exact fun x hx => banks x (List.mem_cons_of_mem cmd hx)

end MemoryController

namespace Mag

open MemoryController

variable {setup : Setup} {c c' : MemoryController DirectState MagState} {refreshCheck check : Answers}

/-- What runs keep whose cycles are spared. -/
structure Inv (c : MemoryController DirectState MagState) : Prop where
  requests : Direct.Inv 1 c.requestScheduler c.requestPrivate
  mapped : Direct.MappedIn c.requestScheduler
  emptied : c.requestScheduler.commandGenerator.commandBuffer = []
  tabled : c.requestScheduler.Tabled
  queues : c.commandScheduler.queueCount = 8
  quiet : c.commandScheduler.Quiet
  rows : Rows c.commandScheduler c.commandPrivate
  writes : ∀ p ∈ c.sendDataBuffer, p.busPacketType = .DATA ∧ p.postCommand = false

/-- **A cycle that spares the rows of both sides.** The requests that DIRECT hands over hit the row table
where their own side leaves their row open; and the call of MAG that follows is clean. -/
def Spares (setup : Setup) (c : MemoryController DirectState MagState) : Event → Prop
  | .addRequest _ _ _ _ => True
  | .update refreshCheck check =>
    Direct.OwnHits setup.requestorCriticalTable (c.requestScheduler.bankTable 0)
        (leftOpen c.commandScheduler c.commandPrivate) (Direct.given c.requestScheduler c.requestPrivate 0) ∧
      ∀ c₁ ∈ c.prepare setup magIni refreshCheck, Clean check c₁.commandScheduler c₁.commandPrivate

instance (setup : Setup) (c : MemoryController DirectState MagState) : (e : Event) →
    Decidable (Spares setup c e)
  | .addRequest _ _ _ _ => inferInstanceAs (Decidable True)
  | .update _ _ => inferInstanceAs (Decidable (_ ∧ _))

theorem inv_create (sided : setup.TwoSided) (refreshCounting bank_release : Nat) :
    Inv (MemoryController.create setup magIni refreshCounting bank_release) := by
  have one : queueNumber setup setup.reqMap = 1 := by rw [sided.reqMap, queueNumber_unmarked]
  have eight : queueNumber setup setup.cmdMap = 8 := sided.perBank.queueNumber_cmdMap
  have plain : setup.requestorCmdQ = false := sided.perBank.requestorCmdQ
  have listed : (RequestQueue.create setup.requestorReqQ setup.writeQueueEnable).Listed := by
    rw [sided.requestorReqQ]
    exact .create setup.writeQueueEnable
  refine ⟨⟨one, rfl, fun _ _ => listed, fun index small => ⟨0, ?_, .inl rfl⟩⟩,
    fun _ _ waits => absurd waits List.not_mem_nil, rfl,
    ⟨fun _ h => absurd rfl h, fun _ _ => ⟨fun _ => rfl, fun _ => rfl⟩⟩, eight, ⟨sided.refresh, rfl⟩, ?_,
    fun _ h => absurd h List.not_mem_nil⟩
  · obtain rfl : index = 0 := by omega
    rfl
  · show Rows (CommandScheduler.create (queueNumber setup setup.cmdMap) setup.requestorCmdQ
      (RefreshMachine.create setup.refresh_mechanism setup.device refreshCounting bank_release)) {}
    rw [eight, plain]
    exact rows_create (by decide) _

/-- **The first half of a cycle** hands requests over and deals their commands out. -/
theorem Inv.prepare (inv : Inv c) (sided : setup.TwoSided)
    (hits : Direct.OwnHits setup.requestorCriticalTable (c.requestScheduler.bankTable 0)
      (leftOpen c.commandScheduler c.commandPrivate) (Direct.given c.requestScheduler c.requestPrivate 0))
    (h : c.prepare setup magIni refreshCheck = some c') : Inv c' := by
  obtain ⟨⟨rs, priv⟩, scheduled, h⟩ := Option.bind_eq_some_iff.mp h
  obtain ⟨c₁, enqueued, rfl⟩ := Option.map_eq_some_iff.mp h
  obtain ⟨⟨rs', p', handed⟩, called, same⟩ := Option.map_eq_some_iff.mp scheduled
  obtain ⟨rfl, rfl⟩ := Prod.mk.inj same
  obtain ⟨rfl, rfl, drained, requests, new, took⟩ := Direct.requestSchedule_took inv.requests called
  have mapped := inv.mapped.given c.requestPrivate
  have waits : Direct.MappedIn rs' := inv.mapped.drained drained
  obtain ⟨tabled, commands⟩ := took.tabled inv.tabled mapped
  have made : rs'.commandGenerator.commandBuffer = new := by rw [took.buffer, inv.emptied, List.nil_append]
  obtain ⟨c₂, looped, rfl⟩ := Option.map_eq_some_iff.mp enqueued
  have dealt := foldlM_deal (c := { c with requestScheduler := rs', requestPrivate := c.requestPrivate })
    sided new inv.queues fun x hx => (commands x hx).1
  dsimp only at looped dealt
  rw [made, dealt] at looped
  obtain rfl := Option.some.inj looped
  obtain ⟨_, count, machine⟩ :=
    c.commandScheduler.deal_frame setup.requestorCriticalTable (new.map (stamp c.clockCycle))
  have quiet : (c.commandScheduler.deal setup.requestorCriticalTable
      (new.map (stamp c.clockCycle))).Quiet := by
    unfold Quiet
    rw [machine]
    exact inv.quiet
  have stamped : ∀ x ∈ new.map (stamp c.clockCycle),
      x.bank < c.commandScheduler.queueCount ∧ OpenCommand x.bank x := by
    intro x hx
    obtain ⟨y, hy, rfl⟩ := List.mem_map.mp hx
    rw [inv.queues]
    exact commands y hy
  have rows := inv.rows.deal setup.device stamped (took.plays mapped hits c.clockCycle)
  refine ⟨⟨requests.count, requests.plain, requests.listed, requests.points⟩, waits, rfl,
    ⟨tabled.bound, tabled.first⟩, ?_, (quiet.refresh _ _).1,
    rows.refresh quiet setup.device refreshCheck, inv.writes⟩
  rw [(commandQueue_refresh ..).2, count]
  exact inv.queues

/-- **A spared cycle** keeps the rows right. -/
theorem Inv.update (inv : Inv c) (sided : setup.TwoSided)
    (spared : Spares setup c (.update refreshCheck check))
    (h : c.update setup magIni refreshCheck check = some c') : Inv c' := by
  rw [update_eq] at h
  obtain ⟨c₁, prepared, h⟩ := Option.bind_eq_some_iff.mp h
  obtain ⟨⟨c₂, out⟩, scheduled, rfl⟩ := Option.map_eq_some_iff.mp h
  obtain ⟨⟨cs, own, out'⟩, called, same⟩ := Option.map_eq_some_iff.mp scheduled
  obtain ⟨rfl, rfl⟩ := Prod.mk.inj same
  obtain ⟨⟨s', p', sent⟩, ran, same⟩ := Option.map_eq_some_iff.mp called
  cases same
  have inv₁ := inv.prepare sided spared.1 prepared
  have rows := inv₁.rows.schedule (spared.2 c₁ prepared) ran
  obtain ⟨count, machine⟩ := inv₁.rows.kept.schedule_frame ran
  obtain ⟨resized, ticked, writes⟩ := endCycle_frame setup
    (c := { c₁ with commandScheduler := cs, commandPrivate := own }) (sent.map (·.1)) inv₁.writes
  obtain ⟨pointers, private_⟩ := endCycle_private setup
    { c₁ with commandScheduler := cs, commandPrivate := own } (sent.map (·.1))
  have quiet : cs.Quiet := by
    unfold Quiet
    rw [machine]
    exact inv₁.quiet
  refine ⟨?_, inv₁.mapped.resized resized, ?_, resized.tabled inv₁.tabled, ?_, ?_, ?_, writes⟩
  · rw [pointers]
    exact inv₁.requests.resized resized
  · rw [resized.generator]
    exact inv₁.emptied
  · rw [ticked]
    exact count.trans inv₁.queues
  · rw [ticked]
    exact quiet.tick
  · rw [ticked, private_]
    exact rows.tick setup.device

/-- An arrival joins its requestor's buffer. -/
theorem Inv.addRequest (inv : Inv c) (sided : setup.TwoSided) {requestorID address size : Nat} {R_W : Bool}
    (h : c.addRequest setup requestorID address R_W size = some c') : Inv c' := by
  have mapped := incoming_mapped setup c requestorID address R_W size
  simp only [MemoryController.addRequest, sided.reqMap, decodeQueue_unmarked, inv.requests.count,
    Nat.zero_lt_one, if_true, Option.some.injEq] at h
  subst h
  exact ⟨inv.requests.insertRequest _, inv.mapped.insertRequest mapped, inv.emptied,
    ⟨inv.tabled.bound, inv.tabled.first⟩, inv.queues, inv.quiet, inv.rows, inv.writes⟩

theorem step_inv (sided : setup.TwoSided) {e : Event} {o : Unit} (inv : Inv c)
    (h : step setup magIni c e = some (c', o)) (spared : Spares setup c e) : Inv c' := by
  cases e with
  | addRequest requestorID address R_W size =>
    obtain ⟨c'', added, same⟩ := Option.map_eq_some_iff.mp h
    cases same
    exact inv.addRequest sided added
  | update refreshCheck check =>
    obtain ⟨c'', updated, same⟩ := Option.map_eq_some_iff.mp h
    cases same
    exact inv.update sided spared updated

/-- **Row-state legality of preemption**, in the runs whose cycles are spared: with requestors of either
kind, whatever the device answers, every `RD` and `WR` finds its bank open with its row. -/
theorem mag_casLegal (sided : setup.TwoSided) (refreshCounting bank_release : Nat) {events : List Event}
    (spared : Lib.Machine.Along (step setup magIni) (fun c e _ _ => Spares setup c e)
      (MemoryController.create setup magIni refreshCounting bank_release) events)
    {os : List Unit}
    (ran : Lib.Machine.run (step setup magIni)
      (MemoryController.create setup magIni refreshCounting bank_release) events = some (c, os))
    (bank : Nat) : CasLegal c.commandScheduler.memoryDevice.commandTrace bank := by
  have inv : Inv c := Lib.Machine.run_invariant_along Inv
    (fun inv h spared => step_inv sided inv h spared) (inv_create sided refreshCounting bank_release)
    spared ran
  exact inv.rows.legal bank

/-- The set-up with requestor 1 critical and no other. -/
def oneCritical : Setup := magSetup (· == 1)

theorem oneCritical_twoSided : oneCritical.TwoSided :=
  ⟨⟨by decide, rfl, rfl, rfl, rfl, rfl, rfl, fun _ => rfl⟩, rfl, rfl, rfl⟩

/-- Requestor 2 reads a row and its bank is activated. A critical read of row 7 of the bank arrives; it is
refused for a cycle, and then it is served. While a critical read of another bank is refused, the device
takes what is not critical. -/
def overtaking (row : Nat) : List Event :=
  [.addRequest 2 (row * 1024) true 64, .update (fun _ => true) fun _ => true,
    .addRequest 1 (7 * 1024) true 64, .update (fun _ => true) fun _ => false] ++
    List.replicate 3 (.update (fun _ => true) fun _ => true) ++
    [.addRequest 1 (3 * 33554432) true 64] ++
    List.replicate 3 (.update (fun _ => true) fun c => c.requestorID != 1)

/-- The law at a run in which a read of row 0 is preempted and its row restored. -/
theorem mag_casLegal_rowZero : ∃ c os,
    Lib.Machine.run (step oneCritical magIni) (MemoryController.create oneCritical magIni 0 0)
        (overtaking 0) = some (c, os) ∧
      CasLegal c.commandScheduler.memoryDevice.commandTrace 0 ∧
      c.commandScheduler.memoryDevice.commandTrace.map (fun x => (x.busPacketType, x.requestorID, x.row)) =
        [(.ACT, 2, 0), (.PRE, 1, 7), (.ACT, 1, 7), (.RD, 1, 7), (.PRE, 0, 0), (.ACT, 0, 0), (.RD, 2, 0)] := by
  obtain ⟨c, os, ran, trace⟩ := Lib.Machine.run_exists (step oneCritical magIni)
    (fun c => c.commandScheduler.memoryDevice.commandTrace.map
        (fun x => (x.busPacketType, x.requestorID, x.row)) =
      [(.ACT, 2, 0), (.PRE, 1, 7), (.ACT, 1, 7), (.RD, 1, 7), (.PRE, 0, 0), (.ACT, 0, 0), (.RD, 2, 0)])
    (MemoryController.create oneCritical magIni 0 0) (overtaking 0) (by decide +kernel)
  have spared := Lib.Machine.along_of_check (step oneCritical magIni)
    (fun c e _ => decide (Spares oneCritical c e)) (fun c e _ => Spares oneCritical c e)
    (MemoryController.create oneCritical magIni 0 0) (overtaking 0)
    (fun c e _ check => of_decide_eq_true check) (by decide +kernel)
  exact ⟨c, os, ran, mag_casLegal oneCritical_twoSided 0 0 spared ran 0, trace⟩

/-- **Compensation opens row 0**: the bank was activated with row 5 for a read, and a critical read of row 7
of the same bank preempts it. The compensation precharges and activates the bank again, with row 0, and the
read of row 5 is sent there. -/
theorem not_casLegal_rowFive : ∃ c os,
    Lib.Machine.run (step oneCritical magIni) (MemoryController.create oneCritical magIni 0 0)
        (overtaking 5) = some (c, os) ∧
      ¬ CasLegal c.commandScheduler.memoryDevice.commandTrace 0 ∧
      c.commandScheduler.memoryDevice.commandTrace.map (fun x => (x.busPacketType, x.requestorID, x.row)) =
        [(.ACT, 2, 5), (.PRE, 1, 7), (.ACT, 1, 7), (.RD, 1, 7), (.PRE, 0, 0), (.ACT, 0, 0), (.RD, 2, 5)] :=
  Lib.Machine.run_exists _ _ _ _ (by decide +kernel)

end Mag
end MCsim
