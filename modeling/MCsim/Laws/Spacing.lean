import MCsim.Laws.Gate
import MCsim.Laws.OnDevice

/-!
# Every timing is kept

The gate does not ask the bank about an activation, so it alone does not keep the row cycle and the time
of a precharge. The timers of the command queues do: a queue waits after each of its commands as long as
`command_timing` says, and a bank has its own queue. Between the two no declared timing is left out: in
every run of the memory system on its device, every command that is sent respects what the tables of the
channel, the rank and the bank ask of it (`Spaced`).
-/

namespace MCsim

open CommandScheduler RequestScheduler MemoryController Lib.Machine

namespace Dram

variable {T : Standard}

/-- Every command of a sequence respects the tables of all levels, whether its walk asks them or not. -/
def Spaced (T : Standard) (seq : List Timed) : Prop :=
  ∀ before y after, seq = before ++ y :: after → ∀ cy, convert_cmd y.1 = some cy →
    ∀ l ∈ .Channel :: T.below, Asked T l (before.filter (shares l · y)) cy y.2

theorem spaced_nil (T : Standard) : Spaced T [] := fun before y after h => by simp at h

theorem Spaced.concat {seq : List Timed} (spaced : Spaced T seq) {y : Timed}
    (last : ∀ cy, convert_cmd y.1 = some cy →
      ∀ l ∈ .Channel :: T.below, Asked T l (seq.filter (shares l · y)) cy y.2) :
    Spaced T (seq ++ [y]) := by
  intro before z after split
  rcases List.eq_nil_or_concat after with rfl | ⟨rest, w, rfl⟩
  · obtain ⟨rfl, one⟩ := List.append_inj' split rfl
    obtain rfl := (List.cons.inj one).1
    exact last
  · have inner : seq = before ++ z :: rest := by
      have whole : seq ++ [y] = (before ++ z :: rest) ++ [w] := by
        rw [split, List.concat_eq_append, List.append_assoc, List.cons_append]
      exact (List.append_inj' whole rfl).1
    exact spaced before z rest inner

/-- Where the walk of a command ends, the queues wait as long as the tables ask. -/
def Covered (T : Standard) (timing : BusPacketType → BusPacketType → Nat) : Prop :=
  ∀ {bank : Nat} {y : BusPacket} {cy : Command}, OpenCommand bank y → convert_cmd y = some cy →
    ∀ l ∈ .Channel :: T.below, l ∈ walk T cy ∨ l = .Bank ∧
      ∀ {x : BusPacket} {cx : Command}, OpenCommand bank x → convert_cmd x = some cx →
        ∀ e ∈ T.timing l cx, e.cmd = cy → e.val ≤ timing x.busPacketType y.busPacketType

end Dram

namespace OnDevice

variable {ρ κ : Type} {T : Dram.Standard} {setup : Setup} {parts : Components ρ κ}
  {s s' : OnDevice ρ κ T} {wait updates : Nat}

/-! ## The commands of a run, with their cycles -/

/-- The commands that the device is handed in an event, with the cycle. -/
def sentAt (s s' : OnDevice ρ κ T) : List Dram.Timed :=
  (handed s.controller s'.controller).map (·, clockCycle s.controller)

/-- The commands that the device is handed in a run. -/
def timed (setup : Setup) (parts : Components ρ κ) (s : OnDevice ρ κ T) (events : List Event) :
    List Dram.Timed :=
  collect (step setup parts) sentAt s events

/-- The queues wait for every command that was sent: at the start of a cycle no time is left where the
delay is over. -/
structure Waits (setup : Setup) (updates : Nat) (c : MemoryController ρ κ) (sent : List Dram.Timed) :
    Prop where
  opens : ∀ x ∈ sent, x.1.bank < 8 ∧ OpenCommand x.1.bank x.1
  timers : ∀ x ∈ sent, ∀ t : BusPacketType, t.toNat < BusPacketType.PDE.toNat →
    x.2 + setup.device.command_timing x.1.busPacketType t ≤
      updates + c.commandScheduler.cmdQueueTimer x.1.bank t

/-- What a run on the device keeps, with the commands sent so far. -/
structure Legal (setup : Setup) (wait updates : Nat) (s : OnDevice ρ κ T) (sent : List Dram.Timed) :
    Prop where
  kept : Kept setup wait updates s
  tree : Dram.Kept T s.channel sent
  waits : Waits setup updates s.controller sent
  spaced : Dram.Spaced T sent
  trace : sent.map Prod.fst = s.controller.sentTrace

variable {sent : List Dram.Timed}

/-- What a bank's table asks of a command beyond its walk is over: the queue has waited. -/
theorem Waits.asked {c : MemoryController ρ κ} (waits : Waits setup updates c sent) {y : BusPacket}
    (ready : c.commandScheduler.cmdQueueTimer y.bank y.busPacketType = 0)
    (counted : y.busPacketType.toNat < BusPacketType.PDE.toNat) {cy : Dram.Command}
    (covers : ∀ {x : BusPacket} {cx : Dram.Command}, OpenCommand y.bank x →
      Dram.convert_cmd x = some cx → ∀ e ∈ T.timing .Bank cx, e.cmd = cy →
        e.val ≤ setup.device.command_timing x.busPacketType y.busPacketType) :
    Dram.Asked T .Bank (sent.filter (Dram.shares .Bank · (y, updates))) cy updates := by
  intro cx e he _ same x hx
  have member := List.mem_filter.mp (List.mem_of_mem_take hx)
  obtain ⟨there, shared⟩ := List.mem_filter.mp member.1
  have bank : x.1.bank = y.bank := by simpa [Dram.shares, Dram.convert_addr] using shared
  have kind : Dram.convert_cmd x.1 = some cx := by simpa using member.2
  have opens := (waits.opens x there).2
  have passed := waits.timers x there y.busPacketType counted
  rw [bank] at opens passed
  rw [ready] at passed
  have within := covers opens kind e he same
  omega

/-- An `OPEN` command has a timer. -/
theorem openCommand_counted {bank : Nat} {x : BusPacket} (opens : OpenCommand bank x) :
    x.busPacketType.toNat < BusPacketType.PDE.toNat := by
  obtain ⟨_, _, type | type | type⟩ := opens
  · rw [type]
    decide
  · rw [type]
    decide
  · rcases BusPacketType.isCas_iff.mp type with type | type <;> rw [type] <;> decide

/-- **A cycle sends only what every table allows.** -/
theorem Legal.update (founded : Founded setup parts T wait) (recorded : T.Recorded)
    (covered : Dram.Covered T setup.device.command_timing) (small : updates < 2 ^ 32)
    (legal : Legal setup wait updates s sent) :
    ∃ s', step setup parts s .update = some (s', ()) ∧
      Legal setup wait (updates + 1) s' (sent ++ sentAt s s') := by
  obtain ⟨kept, tree, waits, spaced, trace⟩ := legal
  obtain ⟨s', stepped, same, _, reached, kept'⟩ := kept.update founded
  have turn := turn_of_step founded.open_ founded.opens founded.eager kept.able.accounted.wired
    kept.able.fits same
  obtain ⟨out, works⟩ := turn.works founded.delays kept.able
  have hands : handed s.controller s'.controller = out.toList := by
    rw [handed, works.trace, List.drop_left]
  have clock : clockCycle s.controller = updates := by rw [kept.clock, Nat.mod_eq_of_lt small]
  have now : sentAt s s' = out.toList.map (·, updates) := by rw [sentAt, hands, clock]
  rw [hands, clock] at reached
  -- the timers go down by one, whatever is sent
  have older : ∀ x ∈ sent, ∀ t : BusPacketType, t.toNat < BusPacketType.PDE.toNat →
      x.2 + setup.device.command_timing x.1.busPacketType t ≤
        updates + 1 + s'.controller.commandScheduler.cmdQueueTimer x.1.bank t := by
    intro x there t counted
    have before := waits.timers x there t counted
    have falls := works.rises x.1.bank (waits.opens x there).1 t
    omega
  have longer : (sent ++ sentAt s s').map Prod.fst = s'.controller.sentTrace := by
    have grown : s'.controller.sentTrace = s.controller.sentTrace ++ out.toList := works.trace
    rw [List.map_append, trace, now, List.map_map, grown]
    congr 1
    exact List.map_id _
  -- what is sent was accepted by the gate, and reaches the tree
  have accepted : ∀ x, out = some x → ∃ cy, Dram.convert_cmd x = some cy ∧
      Dram.check T cy (Dram.convert_addr x) updates .Channel s.channel = some true ∧
      Dram.update T cy (Dram.convert_addr x) updates s.channel = some s'.channel := by
    rintro x rfl
    obtain ⟨⟨_, opens⟩, taken, _⟩ := works.sends x rfl
    have checked : Dram.command_check T s.channel x updates = some true := by
      rw [clock] at taken
      exact beq_iff_eq.mp taken
    have received : Dram.receiveFromBus T s.channel x updates = some s'.channel := by
      simpa [receive] using reached
    refine Dram.accept_eq_some (y := (x, updates)) (o := ()) opens.2.1 ?_
    rw [Dram.accept, if_pos checked, received]
    rfl
  refine ⟨s', stepped, kept', ?_, ?_, ?_, longer⟩ <;> rw [now]
  · cases out with
    | none =>
      have still : s.channel = s'.channel := Option.some.inj reached
      rw [Option.toList_none, List.map_nil, List.append_nil, ← still]
      exact tree
    | some x =>
      obtain ⟨cy, kind, _, updated⟩ := accepted x rfl
      exact tree.update recorded (y := (x, updates)) kind updated
  · cases out with
    | none =>
      rw [Option.toList_none, List.map_nil, List.append_nil]
      exact ⟨waits.opens, older⟩
    | some x =>
      rw [Option.toList_some, List.map_singleton]
      constructor
      · intro y hy
        rcases List.mem_append.mp hy with old | new
        · exact waits.opens y old
        · rw [List.mem_singleton.mp new]
          exact (works.sends x rfl).1
      · intro y hy t counted
        rcases List.mem_append.mp hy with old | new
        · exact older y old t counted
        · rw [List.mem_singleton.mp new]
          have asked := works.asks x rfl t counted
          dsimp only
          omega
  · cases out with
    | none =>
      rw [Option.toList_none, List.map_nil, List.append_nil]
      exact spaced
    | some x =>
      obtain ⟨cy, kind, checked, _⟩ := accepted x rfl
      obtain ⟨⟨bank, opens⟩, _, ready⟩ := works.sends x rfl
      refine spaced.concat fun cy' kind' l hl => ?_
      obtain rfl := Option.some.inj (kind.symm.trans kind')
      rcases covered opens kind l hl with asked | ⟨rfl, covers⟩
      · exact (tree.check_iff (y := (x, updates)) (founded.banked.exists_ x bank)).mp checked l asked
      · exact waits.asked ready (openCommand_counted opens) covers

/-- An arrival sends nothing. -/
theorem Legal.arrive (open_ : setup.OpenPage) (legal : Legal setup wait updates s sent)
    {requestorID address size : Nat} {R_W : Bool}
    (fits : Event.Fits setup (.addRequest requestorID address R_W size)) :
    ∃ s', step setup parts s (.addRequest requestorID address R_W size) = some (s', ()) ∧
      Legal setup wait updates s' (sent ++ sentAt s s') := by
  obtain ⟨kept, tree, waits, spaced, trace⟩ := legal
  obtain ⟨s', stepped, kept'⟩ : ∃ s', step setup parts s (.addRequest requestorID address R_W size) =
      some (s', ()) ∧ _ := kept.arrive open_ fits
  refine ⟨s', stepped, ?_⟩
  rw [step, addRequest_eq open_ kept.able.accounted.wired, Option.map_some, Option.some.injEq,
    Prod.mk.injEq] at stepped
  obtain rfl := stepped.1
  have nothing : sentAt s { s with
      controller := s.controller.arrived (incoming setup s.controller requestorID address R_W size) R_W } =
        [] := by
    rw [sentAt, handed]
    show (s.controller.commandScheduler.memoryDevice.commandTrace.drop _).map _ = _
    rw [List.drop_length, List.map_nil]
  rw [nothing, List.append_nil]
  exact ⟨kept', tree, ⟨waits.opens, waits.timers⟩, spaced, trace⟩

theorem updatesOf_append (events : List Event) (e : Event) :
    updatesOf (events ++ [e]) = updatesOf events + if e.isUpdate then 1 else 0 := by
  rw [updatesOf, List.countP_append, List.countP_singleton]
  rfl

/-- **In every run every table is respected**, while the device's clock has not run over. -/
theorem onDevice_spaced (founded : Founded setup parts T wait) (recorded : T.Recorded)
    (covered : Dram.Covered T setup.device.command_timing)
    (noRefresh : setup.refresh_mechanism = .none) (refreshCounting bank_release : Nat)
    (events : List OnDevice.Event) (fit : ∀ e ∈ events, e.Fits setup)
    (small : updatesOf events ≤ 2 ^ 32) :
    ∃ s os, run (step setup parts) (create T setup parts refreshCounting bank_release) events =
        some (s, os) ∧
      Legal setup wait (updatesOf events) s
        (timed setup parts (create T setup parts refreshCounting bank_release) events) := by
  obtain ⟨start, created⟩ : ∃ start, create T setup parts refreshCounting bank_release = start :=
    ⟨_, rfl⟩
  have legal : Legal setup wait 0 start [] := by
    rw [← created]
    exact ⟨kept_create founded.open_ noRefresh parts wait refreshCounting bank_release,
      Dram.kept_channel T, ⟨fun x hx => absurd hx List.not_mem_nil, fun x hx => absurd hx List.not_mem_nil⟩,
      Dram.spaced_nil T, rfl⟩
  rw [created]
  induction events using List.reverseRecOn with
  | nil => exact ⟨start, [], rfl, legal⟩
  | append_singleton events e ih =>
    rw [updatesOf_append] at small ⊢
    obtain ⟨s, os, ran, here⟩ := ih (fun e he => fit e (List.mem_append_left _ he)) (by omega)
    have fits := fit e (by simp)
    have next : ∃ s', step setup parts s e = some (s', ()) ∧
        Legal setup wait (updatesOf events + if e.isUpdate then 1 else 0) s'
          (timed setup parts start events ++ sentAt s s') := by
      cases e with
      | addRequest requestorID address R_W size => exact here.arrive founded.open_ fits
      | update =>
        have room : updatesOf events + 1 ≤ 2 ^ 32 := small
        exact here.update founded recorded covered room
    obtain ⟨s', stepped, legal'⟩ := next
    have last : run (step setup parts) s [e] = some (s', [()]) :=
      run_cons_eq_some.mpr ⟨s', (), [], stepped, rfl, rfl⟩
    refine ⟨s', os ++ [()], run_append_eq_some.mpr ⟨s, os, [()], ran, last, rfl⟩, ?_⟩
    rw [timed, collect_concat sentAt ran stepped]
    exact legal'

/-! ## DDR3 -/

variable {org : Dram.DDR3.Org} {speed : Dram.DDR3.Speed} {ranks : Nat}

/-- What the bank's table asks of an activation, the queue of the bank waits for. -/
theorem timing_le_ACT (k : Dram.DDR3.SpeedEntry) {bank : Nat} {x : BusPacket} {cx : Dram.Command}
    (opens : OpenCommand bank x) (kind : Dram.convert_cmd x = some cx) :
    ∀ e ∈ Dram.pushed (Dram.DDR3.bankTiming k) cx, e.cmd = .ACT →
      e.val ≤ Dram.command_timing k.bankTimes x.busPacketType .ACT := by
  intro e he same
  have entry := Dram.mem_pushed he
  rw [Dram.convert_cmd] at kind
  obtain ⟨_, _, type | type | type⟩ := opens
  · rw [type] at kind ⊢
    obtain rfl : Dram.Command.PRE = cx := Option.some.inj kind
    simp only [Dram.DDR3.bankTiming, Dram.after, List.mem_cons, Prod.mk.injEq, reduceCtorEq, false_and,
      true_and, false_or, or_false, List.not_mem_nil] at entry
    rcases entry with rfl | rfl | rfl
    · exact Int.le_refl _
    · cases same
    · cases same
  · rw [type] at kind ⊢
    obtain rfl : Dram.Command.ACT = cx := Option.some.inj kind
    simp only [Dram.DDR3.bankTiming, Dram.after, List.mem_cons, Prod.mk.injEq, reduceCtorEq, false_and,
      true_and, false_or, or_false, List.not_mem_nil] at entry
    rcases entry with rfl | rfl | rfl | rfl | rfl | rfl
    · cases same
    · cases same
    · cases same
    · cases same
    · exact Int.le_refl _
    · cases same
  · rcases BusPacketType.isCas_iff.mp type with type | type
    · rw [type] at kind
      obtain rfl : Dram.Command.RD = cx := Option.some.inj kind
      simp only [Dram.DDR3.bankTiming, Dram.after, List.mem_cons, Prod.mk.injEq, reduceCtorEq, false_and,
        true_and, false_or, or_false, List.not_mem_nil] at entry
      rcases entry with rfl | rfl <;> cases same
    · rw [type] at kind
      obtain rfl : Dram.Command.WR = cx := Option.some.inj kind
      simp only [Dram.DDR3.bankTiming, Dram.after, List.mem_cons, Prod.mk.injEq, reduceCtorEq, false_and,
        true_and, false_or, or_false, List.not_mem_nil] at entry
      rcases entry with rfl | rfl <;> cases same

theorem covered_ddr3 (org : Dram.DDR3.Org) (speed : Dram.DDR3.Speed) (ranks : Nat) :
    Dram.Covered (Dram.DDR3.standard org speed ranks)
      (Dram.DDR3.device org speed ranks).command_timing := by
  intro bank y cy opens kind l hl
  rw [Dram.convert_cmd] at kind
  obtain ⟨_, _, type | type | type⟩ := opens
  · rw [type] at kind
    obtain rfl : Dram.Command.PRE = cy := Option.some.inj kind
    exact .inl hl
  · rw [type] at kind ⊢
    obtain rfl : Dram.Command.ACT = cy := Option.some.inj kind
    -- the walk of an activation ends at the rank
    have levels : l = .Channel ∨ l = .Rank ∨ l = .Bank := by
      simpa [Dram.DDR3.standard] using hl
    rcases levels with rfl | rfl | rfl
    · exact .inl List.mem_cons_self
    · exact .inl (List.mem_cons_of_mem _ List.mem_cons_self)
    · exact .inr ⟨rfl, fun opens kind => timing_le_ACT _ opens kind⟩
  · rcases BusPacketType.isCas_iff.mp type with type | type
    · rw [type] at kind
      obtain rfl : Dram.Command.RD = cy := Option.some.inj kind
      exact .inl hl
    · rw [type] at kind
      obtain rfl : Dram.Command.WR = cy := Option.some.inj kind
      exact .inl hl

/-- **Every timing of DDR3 is kept.** On a DDR3 device of any organisation and speed, with one queue for
each bank, the `OPEN` generator, no refresh and any of the general schedulers: in every run of at most
2^32 cycles every command sent respects every timing that the tables of the channel, the rank and its bank
declare after the commands sent before it, also those the gate does not ask for. -/
theorem ddr3_spaced {setup : Setup} (open_ : setup.OpenPage)
    (noRefresh : setup.refresh_mechanism = .none) {parts : Components Unit Unit} (general : parts.General)
    (some_rank : 0 < ranks) (device : setup.device = Dram.DDR3.device org speed ranks)
    (refreshCounting bank_release : Nat) (events : List OnDevice.Event)
    (fit : ∀ e ∈ events, e.Fits setup) (small : updatesOf events ≤ 2 ^ 32) :
    ∃ s os, run (step setup parts) (create (Dram.DDR3.standard org speed ranks) setup parts refreshCounting
        bank_release) events = some (s, os) ∧
      (timed setup parts (create (Dram.DDR3.standard org speed ranks) setup parts refreshCounting
        bank_release) events).map Prod.fst = s.controller.sentTrace ∧
      Dram.Spaced (Dram.DDR3.standard org speed ranks) (timed setup parts
        (create (Dram.DDR3.standard org speed ranks) setup parts refreshCounting bank_release) events) := by
  have founded := founded_ddr3 open_ general some_rank device
  obtain ⟨s, os, ran, legal⟩ := onDevice_spaced founded (Dram.IsAdapter.ddr3 org speed some_rank).recorded
    (by rw [device]; exact covered_ddr3 org speed ranks) noRefresh refreshCounting bank_release events fit
    small
  exact ⟨s, os, ran, legal.trace, legal.spaced⟩

/-- The law at two reads of one row, a read of another row of the bank, and two hundred cycles on the
default device. -/
theorem ddr3_spaced_frfcfsIni :
    ∃ s os, run (step openPageSetup frfcfsIni) (create (Dram.DDR3.standard .DDR3_2Gb_x8 .DDR3_1600H 1)
        openPageSetup frfcfsIni 0 0) ([.addRequest 1 0 true 128, .addRequest 1 64 true 64,
          .addRequest 1 (2 ^ 24) true 64] ++ List.replicate 200 .update) = some (s, os) ∧
      Dram.Spaced (Dram.DDR3.standard .DDR3_2Gb_x8 .DDR3_1600H 1) (timed openPageSetup frfcfsIni
        (create (Dram.DDR3.standard .DDR3_2Gb_x8 .DDR3_1600H 1) openPageSetup frfcfsIni 0 0)
        ([.addRequest 1 0 true 128, .addRequest 1 64 true 64, .addRequest 1 (2 ^ 24) true 64] ++
          List.replicate 200 .update)) := by
  obtain ⟨s, os, ran, _, spaced⟩ := @ddr3_spaced .DDR3_2Gb_x8 .DDR3_1600H 1 openPageSetup
    ⟨⟨by decide, rfl, rfl, rfl, rfl, rfl, rfl, fun _ => rfl⟩, rfl, rfl, rfl⟩ rfl
    frfcfsIni ⟨.inr rfl, rfl, .inl rfl⟩ Nat.one_pos rfl 0 0
    ([.addRequest 1 0 true 128, .addRequest 1 64 true 64, .addRequest 1 (2 ^ 24) true 64] ++
      List.replicate 200 .update)
    (fun e he => by
      rcases List.mem_append.mp he with he | he
      · simp only [List.mem_cons, List.not_mem_nil, or_false] at he
        rcases he with rfl | rfl | rfl <;>
          exact ⟨fun _ => by decide, by decide, by decide, by decide⟩
      · rw [List.eq_of_mem_replicate he]
        trivial)
    (by
      have cycles : updatesOf (List.replicate 200 .update) = 200 := List.countP_replicate
      rw [updatesOf, List.countP_append, ← updatesOf, ← updatesOf, cycles]
      decide)
  exact ⟨s, os, ran, spaced⟩

end OnDevice
end MCsim
