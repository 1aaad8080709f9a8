import MCsim.Laws.Controller
import MCsim.Setups
import MCsim.Spec.RowBuffer

/-!
# The row table and the banks

The row table is written when a request is cracked, long before its commands are sent, so it does not
describe a bank as it is but as it will be. `future` is what makes that precise: the commands already
sent to a bank followed by those waiting in its queue. The invariant `Agrees` says that this word is
legal for the bank's row buffer and leaves it as the row table says. Sending a front moves a command
from one half of the word to the other and changes nothing; a new request extends the word and the
table together.
-/

namespace MCsim

open CommandScheduler RequestScheduler

/-! ## Words of banks and a row table -/

/-- Every bank's word is legal for an automaton of row buffers, banks closed at first, and leaves the
bank as the table says. -/
def Follows (A : Lib.Automaton (Option Nat) BusPacket) (word : Nat → List BusPacket)
    (table : Nat → Option Nat) : Prop :=
  ∀ bank, A.Accepts none (word bank) ∧ A.after none (word bank) = table bank

/-- An automaton that cannot tell when a command arrived. -/
def Timeless (A : Lib.Automaton (Option Nat) BusPacket) : Prop :=
  ∀ (clockCycle : Nat) (open_ : Option Nat) (w : List BusPacket),
    (A.Accepts open_ (w.map (stamp clockCycle)) ↔ A.Accepts open_ w) ∧
      A.after open_ (w.map (stamp clockCycle)) = A.after open_ w

theorem rowBuffer_timeless : Timeless rowBuffer := fun clockCycle =>
  rowBuffer.map_invariant (f := stamp clockCycle) (fun _ _ => Iff.rfl) (fun _ _ => rfl)

theorem Follows.congr {A : Lib.Automaton (Option Nat) BusPacket} {word word' : Nat → List BusPacket}
    {table : Nat → Option Nat} (h : Follows A word table)
    (same : ∀ bank, word' bank = word bank) : Follows A word' table := fun bank => by
  rw [same]
  exact h bank

/-- **A request continues the word of its bank**: where its commands are legal from what the table
says and leave its row open, the table follows. -/
theorem Follows.request {A : Lib.Automaton (Option Nat) BusPacket} (timeless : Timeless A)
    {word : Nat → List BusPacket} {table : Nat → Option Nat} (h : Follows A word table)
    {g : CommandGenerator} {r : Request} {isOpen : Bool}
    (request : A.Accepts (table r.bank) (g.commandsOf r isOpen) ∧
      A.after (table r.bank) (g.commandsOf r isOpen) = some r.row) (clockCycle : Nat) :
    Follows A
      (fun bank => word bank ++
        ((g.commandsOf r isOpen).map (stamp clockCycle)).filter (·.bank == bank))
      fun bank => if bank = r.bank then some r.row else table bank := by
  intro bank
  obtain ⟨legal, leaves⟩ := h bank
  dsimp only
  rw [A.accepts_append, A.after_append, leaves, filter_commandsOf]
  split
  · next e =>
    subst e
    rw [(timeless ..).1, (timeless ..).2]
    exact ⟨⟨legal, request.1⟩, request.2⟩
  · next e => exact ⟨⟨legal, trivial⟩, rfl⟩

namespace CommandScheduler

/-- The commands sent to a bank and those that wait for it. -/
def future (s : CommandScheduler) (bank : Nat) : List BusPacket :=
  toBank bank s.memoryDevice.commandTrace ++ s.waiting bank

/-- The bank's commands are legal and leave it as the row table says. -/
def Agrees (s : CommandScheduler) (table : Nat → Option Nat) : Prop :=
  Follows rowBuffer s.future table

theorem future_receive (s : CommandScheduler) (l : List BusPacket) (bank : Nat) :
    (s.receive l).future bank = s.future bank ++ l.filter (·.bank == bank) := by
  simp [future, receive, waiting]

/-- Sending a front moves it from the queue to the trace. -/
theorem future_sends {s s' : CommandScheduler} {spec : DeviceSpec} {check : Answers}
    {out : Option BusPacket} (perBank : s.PerBank) (sends : Sends spec check s s' out)
    (bank : Nat) : s'.future bank = s.future bank := by
  cases sends with
  | idle => rfl
  | @send i c rest bound front can =>
    have cmd : OpenCommand i c := perBank.queued i c (by simp [front])
    obtain ⟨data, prea⟩ := OpenCommand.ne_data cmd
    obtain ⟨hbank, posted, _⟩ := cmd
    unfold future
    rw [memoryDevice_issue, MemoryDevice.receiveFromBus_trace posted data,
      waiting_issue perBank.general, toBank_append]
    by_cases e : bank = i
    · subst e
      simp [toBank, hbank, front]
    · have other : (c.bank == bank) = false := by simpa [hbank] using fun h => e h.symm
      simp [toBank, other, prea, e]

theorem future_tick {s : CommandScheduler} (general : s.General) (bank : Nat) :
    s.tick.future bank = s.future bank := by
  unfold future
  rw [waiting_tick general]
  rfl

/-- **A request keeps the agreement** where the generator was told the truth about its bank. -/
theorem Agrees.request {s : CommandScheduler} {table : Nat → Option Nat} (h : s.Agrees table)
    (g : CommandGenerator) (r : Request) {isOpen : Bool}
    (hit : isOpen = true → table r.bank = some r.row)
    (miss : isOpen = false → (g.first r.bank = true ↔ table r.bank = none)) (clockCycle : Nat) :
    (s.receive ((g.commandsOf r isOpen).map (stamp clockCycle))).Agrees
      fun bank => if bank = r.bank then some r.row else table bank :=
  (Follows.request rowBuffer_timeless h
    (CommandGenerator.rowBuffer_request hit miss g.dataBusSize) clockCycle).congr
    (future_receive s _)

/-- The request scheduler's part of a cycle keeps the agreement. -/
theorem Agrees.hands {s : CommandScheduler} {rs rs' : RequestScheduler} {new : List BusPacket}
    (h : s.Agrees (rs.bankTable 0)) (tabled : rs.Tabled) (mapped : ∀ r ∈ rs.buffered, Mapped r)
    (hands : Hands rs rs' new) (clockCycle : Nat) :
    (s.receive (new.map (stamp clockCycle))).Agrees (rs'.bankTable 0) := by
  cases hands with
  | idle => simpa using h
  | @take i r picks small =>
    have mappedR : Mapped r := mapped r (List.mem_of_getElem? picks.at_)
    have bound := tabled.bank_lt mappedR small
    have request := h.request rs.commandGenerator r
      (fun hit : rs.isRowHit r = true => by simpa [mappedR.isRowHit] using hit) (fun _ => tabled.first r.bank bound)
      clockCycle
    intro bank
    rw [bankTable_taken, mappedR.1, mappedR.2]
    simpa using request bank

/-- A refresh machine that is switched off: it holds no command. -/
def Quiet (s : CommandScheduler) : Prop :=
  s.refreshMachine.refresh_mechanism = .none ∧ s.refreshMachine.commandBuffer = []

/-- It has nothing to send. -/
theorem Quiet.nothing {s : CommandScheduler} (h : s.Quiet) : s.refreshMachine.refresh.2 = none := by
  have empty := h.2
  unfold RefreshMachine.refresh
  split
  · simp [empty]
  · split <;> simp [empty]

/-- It asks nothing. -/
theorem Quiet.refresh_asks {s : CommandScheduler} (h : s.Quiet) (spec : DeviceSpec)
    (check check' : Answers) : s.refresh spec check = s.refresh spec check' := by
  unfold CommandScheduler.refresh
  dsimp only
  rw [h.nothing]

theorem Quiet.refresh {s : CommandScheduler} (h : s.Quiet) (spec : DeviceSpec) (check : Answers) :
    (s.refresh spec check).Quiet ∧ (s.refresh spec check).memoryDevice = s.memoryDevice := by
  have nothing := h.nothing
  obtain ⟨mechanism, empty⟩ := h
  have kept : s.refreshMachine.refresh.1.refresh_mechanism = .none ∧
      s.refreshMachine.refresh.1.commandBuffer = [] := by
    unfold RefreshMachine.refresh
    split <;> exact ⟨mechanism, empty⟩
  unfold CommandScheduler.refresh
  split
  · dsimp only
    rw [nothing]
    exact ⟨kept, rfl⟩
  · exact ⟨⟨mechanism, empty⟩, rfl⟩

theorem Quiet.tick {s : CommandScheduler} (h : s.Quiet) : s.tick.Quiet := by
  obtain ⟨mechanism, empty⟩ := h
  constructor
  · show (s.refreshMachine.step s.queues).refresh_mechanism = .none
    unfold RefreshMachine.step
    dsimp only
    split <;> exact mechanism
  · show (s.refreshMachine.step s.queues).commandBuffer = []
    unfold RefreshMachine.step
    dsimp only
    split
    · simp [RefreshMachine.commandGenerate, RefreshMachine.group, mechanism, empty]
    · exact empty

theorem Quiet.sends {s s' : CommandScheduler} {spec : DeviceSpec} {check : Answers}
    {out : Option BusPacket} (h : s.Quiet) (sends : Sends spec check s s' out) : s'.Quiet := by
  cases sends with
  | idle => exact h
  | @send i c =>
    unfold Quiet
    rw [refreshMachine_issue s spec c i]
    exact h

/-- The command scheduler's part of a cycle without refresh moves commands from the queues to the
trace, and that is all. -/
theorem future_cycle {s s' : CommandScheduler} {spec : DeviceSpec} {refreshCheck check : Answers}
    {out : Option BusPacket} (quiet : s.Quiet) (perBank : s.PerBank)
    (sends : Sends spec check (s.refresh spec refreshCheck) s' out) :
    (∀ bank, s'.tick.future bank = s.future bank) ∧ s'.tick.Quiet := by
  obtain ⟨quiet₂, device⟩ := quiet.refresh spec refreshCheck
  refine ⟨fun bank => ?_, (quiet₂.sends sends).tick⟩
  rw [future_tick (perBank.refresh.sends sends).general, future_sends perBank.refresh sends]
  unfold future
  rw [device, waiting_refresh]

end CommandScheduler

namespace MemoryController

variable {ρ κ : Type} {setup : Setup} {parts : Components ρ κ}

/-- What runs without refresh keep: the wiring, and the agreement of row table and banks. -/
structure RowInv (c : MemoryController ρ κ) : Prop where
  wired : c.Wired
  quiet : c.commandScheduler.Quiet
  agrees : c.commandScheduler.Agrees (c.requestScheduler.bankTable 0)

/-- **A cycle keeps the agreement**, whatever the schedulers choose and the device answers. -/
theorem Cycle.rowInv {refreshCheck check : Answers} {c c' : MemoryController ρ κ}
    (cycle : Cycle setup refreshCheck check c c') (inv : c.RowInv) : c'.RowInv := by
  have wired' := cycle.wired inv.wired
  obtain ⟨priv, priv', hands, sends⟩ := cycle
  rename_i rs new cs out
  obtain ⟨wired, quiet, agrees⟩ := inv
  have received := wired.perBank_receive hands
  have agrees₁ := agrees.hands wired.tabled wired.mapped hands c.clockCycle
  have quiet₁ : (c.commandScheduler.receive (new.map (stamp c.clockCycle))).Quiet := quiet
  obtain ⟨same, quiet₂⟩ := future_cycle quiet₁ received sends
  obtain ⟨resized, ticked, _⟩ := endCycle_frame setup
    (c := c.scheduled rs priv new cs priv') out wired.writes
  refine ⟨wired', ?_, ?_⟩
  · rw [ticked]
    exact quiet₂
  · rw [ticked, resized.table]
    exact agrees₁.congr same

theorem rowInv_create (open_ : setup.OpenPage) (noRefresh : setup.refresh_mechanism = .none)
    (parts : Components ρ κ) (refreshCounting bank_release : Nat) :
    (create setup parts refreshCounting bank_release).RowInv :=
  ⟨wired_create open_ parts refreshCounting bank_release, ⟨noRefresh, rfl⟩,
    fun _ => ⟨trivial, rfl⟩⟩

/-- Every event keeps the agreement: arrivals touch neither the table nor the queues. -/
theorem step_rowInv (open_ : setup.OpenPage) (opens : parts.OpenPage) {c c' : MemoryController ρ κ}
    {e : Event} {o : Unit} (inv : c.RowInv) (h : step setup parts c e = some (c', o)) :
    c'.RowInv := by
  obtain ⟨requestorID, address, R_W, size, _, rfl⟩ | ⟨refreshCheck, check, _, cycle⟩ :=
    step_cases open_ opens inv.wired h
  · exact ⟨wired_arrived inv.wired (incoming_mapped ..) R_W, inv.quiet, inv.agrees⟩
  · exact cycle.rowInv inv

/-- Where the agreement holds, what was sent to a bank so far was legal. -/
theorem RowInv.bankLegal {c : MemoryController ρ κ} (inv : c.RowInv) (bank : Nat) :
    BankLegal c.commandScheduler.memoryDevice.commandTrace bank :=
  ((rowBuffer.accepts_append ..).mp (inv.agrees bank).1).1

/-- **Row-state legality.** With one general request buffer, a queue for each bank, `OPEN`, no
refresh and any of the general schedulers, every run that the source defines sends every bank a legal
sequence of commands, whatever the device answers; and every run is defined whose requestors have a
bank. -/
theorem openPage_bankLegal (open_ : setup.OpenPage) (noRefresh : setup.refresh_mechanism = .none)
    {parts : Components Unit Unit} (general : parts.General) (refreshCounting bank_release : Nat)
    (events : List Event) :
    (∀ c os, Lib.Machine.run (step setup parts)
        (create setup parts refreshCounting bank_release) events = some (c, os) →
      ∀ bank, BankLegal c.commandScheduler.memoryDevice.commandTrace bank) ∧
    ((∀ e ∈ events, e.Fits setup) → ∃ c os, Lib.Machine.run (step setup parts)
        (create setup parts refreshCounting bank_release) events = some (c, os)) := by
  have opens := general.openPage
  constructor
  · intro c os ran
    have inv : c.RowInv := Lib.Machine.run_invariant RowInv (fun inv h => step_rowInv open_ opens inv h)
      (rowInv_create open_ noRefresh parts refreshCounting bank_release) ran
    exact inv.bankLegal
  · intro fit
    refine Lib.Machine.run_defined (fun c => c.Wired ∧ c.Fits) (Event.Fits setup)
      (fun inv he => ?_) ⟨wired_create open_ parts refreshCounting bank_release, ?_⟩ fit
    · exact step_defined open_ opens inv.1 inv.2 he
    · exact fun r hr => absurd hr List.not_mem_nil

/-- The law at a read and a write of one bank and eight cycles in which the device takes everything,
in the set-up of `FRFCFS.ini`. -/
theorem openPage_bankLegal_frfcfsIni :
    ∃ c os, Lib.Machine.run (step openPageSetup frfcfsIni) (create openPageSetup frfcfsIni 0 0)
        ([.addRequest 1 0 true 128, .addRequest 1 64 false 64] ++
          List.replicate 8 (.update (fun _ => true) fun _ => true)) = some (c, os) ∧
      ∀ bank, BankLegal c.commandScheduler.memoryDevice.commandTrace bank := by
  have law := @openPage_bankLegal openPageSetup
    ⟨⟨by decide, rfl, rfl, rfl, rfl, rfl, rfl, fun _ => rfl⟩, rfl, rfl, rfl⟩ rfl
    frfcfsIni ⟨.inr rfl, rfl, .inl rfl⟩ 0 0
    ([.addRequest 1 0 true 128, .addRequest 1 64 false 64] ++
      List.replicate 8 (.update (fun _ => true) fun _ => true))
  obtain ⟨c, os, ran⟩ := law.2 fun e he => by
    rcases List.mem_append.mp he with he | he
    · simp only [List.mem_cons, List.not_mem_nil, or_false] at he
      rcases he with rfl | rfl <;> exact fun _ => by decide
    · rw [List.eq_of_mem_replicate he]
      trivial
  exact ⟨c, os, ran, law.1 c os ran⟩

end MemoryController
end MCsim
