import MCsim.Lib.Automaton
import MCsim.CommandGenerator

/-!
# The row buffer of a bank

What a bank is for the controller: a buffer that holds one row open, or none. An activation opens its
row and is legal only on a closed bank; a precharge closes and is legal only on an open one; a column
access is legal only while its own row is open. Banks start closed.

This is the abstract side of the row-state laws: a device is not asked, and the word of commands sent
to a bank either is a word of this automaton or is not.
-/

namespace MCsim

/-- The row a command leaves open. -/
def rowNext (open_ : Option Nat) (c : BusPacket) : Option Nat :=
  match c.busPacketType with
  | .ACT | .ACT_R | .ACT_W => some c.row
  | .PRE | .PREA | .RDA | .WRA => none
  | _ => open_

/-- When a command is legal. -/
def RowOk (open_ : Option Nat) (c : BusPacket) : Prop :=
  match c.busPacketType with
  | .ACT | .ACT_R | .ACT_W => open_ = none
  | .PRE => open_ ≠ none
  | .RD | .WR | .RDA | .WRA => open_ = some c.row
  | _ => True

instance (open_ : Option Nat) (c : BusPacket) : Decidable (RowOk open_ c) := by
  unfold RowOk
  split <;> infer_instance

/-- The row buffer as an automaton over the commands sent to its bank. -/
def rowBuffer : Lib.Automaton (Option Nat) BusPacket where
  ok := RowOk
  next := rowNext

instance (open_ : Option Nat) (c : BusPacket) : Decidable (rowBuffer.ok open_ c) :=
  inferInstanceAs (Decidable (RowOk open_ c))

/-- The commands of a trace that concern a bank: its own, and the precharge of all banks. -/
def toBank (bank : Nat) (trace : List BusPacket) : List BusPacket :=
  trace.filter fun c => c.bank == bank || c.busPacketType == .PREA

/-- The commands sent to a bank were legal, the bank closed at first. -/
def BankLegal (trace : List BusPacket) (bank : Nat) : Prop :=
  rowBuffer.Accepts none (toBank bank trace)

instance (trace : List BusPacket) (bank : Nat) : Decidable (BankLegal trace bank) :=
  inferInstanceAs (Decidable (rowBuffer.Accepts none (toBank bank trace)))

/-- The row buffer asked about column accesses alone. -/
def casBuffer : Lib.Automaton (Option Nat) BusPacket where
  ok := fun open_ c => c.busPacketType.isCas = true → open_ = some c.row
  next := rowNext

instance (open_ : Option Nat) (c : BusPacket) : Decidable (casBuffer.ok open_ c) :=
  inferInstanceAs (Decidable (c.busPacketType.isCas = true → open_ = some c.row))

theorem casBuffer_ok (open_ : Option Nat) (c : BusPacket) :
    casBuffer.ok open_ c ↔ (c.busPacketType.isCas = true → open_ = some c.row) := Iff.rfl

theorem casBuffer_next (open_ : Option Nat) (c : BusPacket) :
    casBuffer.next open_ c = rowNext open_ c := rfl

/-- Every `RD` and `WR` sent to a bank found it open with the row the command carries. -/
def CasLegal (trace : List BusPacket) (bank : Nat) : Prop :=
  casBuffer.Accepts none (toBank bank trace)

instance (trace : List BusPacket) (bank : Nat) : Decidable (CasLegal trace bank) :=
  inferInstanceAs (Decidable (casBuffer.Accepts none (toBank bank trace)))

/-- What the row buffer accepts, it accepts when asked about column accesses alone. -/
theorem casBuffer_accepts {open_ : Option Nat} {w : List BusPacket}
    (h : rowBuffer.Accepts open_ w) : casBuffer.Accepts open_ w := by
  refine Lib.Automaton.accepts_of_imp (A := rowBuffer) (B := casBuffer) rfl
    (fun open_ c ok cas => ?_) h
  rcases BusPacketType.isCas_iff.mp cas with type | type <;>
    simpa [rowBuffer, RowOk, type] using ok

theorem BankLegal.casLegal {trace : List BusPacket} {bank : Nat} (h : BankLegal trace bank) :
    CasLegal trace bank := casBuffer_accepts h

/-- The rows activated since the last precharge of all banks; nothing before the first. -/
def sincePrea : Lib.Automaton (Option (List Nat)) BusPacket where
  ok := fun rows c => c.busPacketType.isCas = true → ∀ l ∈ rows, c.row ∈ l
  next := fun rows c =>
    match c.busPacketType with
    | .PREA => some []
    | .ACT | .ACT_R | .ACT_W => rows.map (c.row :: ·)
    | _ => rows

instance (rows : Option (List Nat)) (c : BusPacket) : Decidable (sincePrea.ok rows c) :=
  inferInstanceAs (Decidable (c.busPacketType.isCas = true → ∀ l ∈ rows, c.row ∈ l))

/-- No `RD` or `WR` was sent to the bank after a precharge of all banks without an activation of its
row since. -/
def Reactivated (trace : List BusPacket) (bank : Nat) : Prop :=
  sincePrea.Accepts none (toBank bank trace)

instance (trace : List BusPacket) (bank : Nat) : Decidable (Reactivated trace bank) :=
  inferInstanceAs (Decidable (sincePrea.Accepts none (toBank bank trace)))

/-- A bank that is open was activated with that row since the last precharge of all banks. -/
theorem CasLegal.reactivated {trace : List BusPacket} {bank : Nat} (h : CasLegal trace bank) :
    Reactivated trace bank := by
  suffices walk : ∀ (w : List BusPacket) (open_ : Option Nat) (rows : Option (List Nat)),
      (∀ row ∈ open_, ∀ l ∈ rows, row ∈ l) → casBuffer.Accepts open_ w →
      sincePrea.Accepts rows w from
    walk (toBank bank trace) none none (by simp) h
  intro w
  induction w with
  | nil => exact fun _ _ _ _ => trivial
  | cons c w ih =>
    intro open_ rows since accepts
    refine ⟨fun cas l hl => since c.row (accepts.1 cas) l hl, ih _ _ ?_ accepts.2⟩
    intro row hrow l hl
    simp only [casBuffer, rowNext, sincePrea] at hrow hl
    cases type : c.busPacketType <;> simp only [type] at hrow hl <;>
      first
      | exact since row hrow l hl
      | simp_all
    all_goals
      obtain ⟨l', _, rfl⟩ := hl
      exact List.mem_cons_self

@[simp] theorem toBank_append (bank : Nat) (v w : List BusPacket) :
    toBank bank (v ++ w) = toBank bank v ++ toBank bank w := List.filter_append ..

namespace CommandGenerator

/-- The column accesses of a request leave its row as it is, once open. -/
theorem rowBuffer_casCommands (n : Nat) (r : Request) :
    rowBuffer.Accepts (some r.row) (casCommands n r) ∧
      rowBuffer.after (some r.row) (casCommands n r) = some r.row := by
  apply rowBuffer.accepts_of_stay
  intro c hc
  obtain ⟨htype, hrow, _⟩ := mem_casCommands hc
  rcases BusPacketType.isCas_iff.mp (htype ▸ casType_isCas r) with h | h <;>
    simp [rowBuffer, RowOk, rowNext, h, hrow]

/-- **A request's commands are legal** where the generator was told the truth: `isOpen` where the bank
will hold the request's row, and `first` where it will be closed. They leave the request's row
open. -/
theorem rowBuffer_request {g : CommandGenerator} {r : Request} {isOpen : Bool} {open_ : Option Nat}
    (hit : isOpen = true → open_ = some r.row)
    (miss : isOpen = false → (g.first r.bank = true ↔ open_ = none)) (n : Nat) :
    rowBuffer.Accepts open_ (g.openCommands r isOpen ++ casCommands n r) ∧
      rowBuffer.after open_ (g.openCommands r isOpen ++ casCommands n r) = some r.row := by
  have cas := rowBuffer_casCommands n r
  cases isOpen with
  | true =>
    obtain rfl := hit rfl
    simpa [openCommands] using cas
  | false =>
    cases hf : g.first r.bank with
    | true =>
      have closed := (miss rfl).mp hf
      simpa [openCommands, hf, rowBuffer, RowOk, rowNext, closed] using cas
    | false =>
      have opened : open_ ≠ none := fun h => by simp [(miss rfl).mpr h] at hf
      simpa [openCommands, hf, rowBuffer, RowOk, rowNext, opened] using cas

/-- A request's column accesses find its row open where `isOpen` was true of the bank. -/
theorem casBuffer_request (g : CommandGenerator) (r : Request) (isOpen : Bool) (open_ : Option Nat)
    (hit : isOpen = true → open_ = some r.row) :
    casBuffer.Accepts open_ (g.commandsOf r isOpen) ∧
      casBuffer.after open_ (g.commandsOf r isOpen) = some r.row := by
  have cas := rowBuffer_casCommands g.dataBusSize r
  have accepts := casBuffer_accepts cas.1
  have leaves : casBuffer.after (some r.row) (casCommands g.dataBusSize r) = some r.row := cas.2
  cases isOpen with
  | true =>
    obtain rfl := hit rfl
    simpa [commandsOf, openCommands] using ⟨accepts, leaves⟩
  | false =>
    cases hf : g.first r.bank <;>
      simpa [commandsOf, openCommands, hf, casBuffer_ok, casBuffer_next, rowNext] using
        ⟨accepts, leaves⟩

end CommandGenerator
end MCsim
