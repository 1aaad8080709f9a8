import MCsim.Spec.RowBuffer

/-!
# Accesses on closed pages

With closed pages a bank is opened for one column access and closed by it. What a bank is sent is then a
sequence of accesses, an activation and the column access that it was made for, and nothing else: no access
finds a row that another one opened.
-/

namespace MCsim

/-- The column access that closes the page belongs to the activation. -/
def BusPacket.Serves (access activation : BusPacket) : Prop :=
  access.row = activation.row ∧ access.column = activation.column ∧
    access.requestorID = activation.requestorID ∧ access.address = activation.address ∧
    access.origin = activation.origin

instance (c a : BusPacket) : Decidable (c.Serves a) := inferInstanceAs (Decidable (_ ∧ _))

/-- The activation that waits for its column access, after a command. -/
def accessNext (c : BusPacket) : Option BusPacket := if c.busPacketType = .ACT then some c else none

/-- When a command is next of a sequence of accesses. -/
def AccessOk (open_ : Option BusPacket) (c : BusPacket) : Prop :=
  match c.busPacketType with
  | .ACT => open_ = none
  | .RDA | .WRA => ∃ a ∈ open_, c.Serves a
  | _ => False

theorem accessOk_iff (open_ : Option BusPacket) (c : BusPacket) :
    (c.busPacketType = .ACT ∧ open_.isNone = true ∨
      (c.busPacketType = .RDA ∨ c.busPacketType = .WRA) ∧ open_.any (fun a => decide (c.Serves a)) = true) ↔
        AccessOk open_ c := by
  unfold AccessOk
  cases c.busPacketType <;> simp [Option.any_eq_true]

instance (open_ : Option BusPacket) (c : BusPacket) : Decidable (AccessOk open_ c) :=
  decidable_of_iff _ (accessOk_iff open_ c)

/-- Sequences of accesses as an automaton over the commands sent to a bank. -/
def accesses : Lib.Automaton (Option BusPacket) BusPacket where
  ok := AccessOk
  next := fun _ c => accessNext c

instance (open_ : Option BusPacket) (c : BusPacket) : Decidable (accesses.ok open_ c) :=
  inferInstanceAs (Decidable (AccessOk open_ c))

/-- A bank was sent a sequence of accesses, the last one perhaps without its column access yet. -/
def Isolated (trace : List BusPacket) (bank : Nat) : Prop := accesses.Accepts none (toBank bank trace)

instance (trace : List BusPacket) (bank : Nat) : Decidable (Isolated trace bank) :=
  inferInstanceAs (Decidable (accesses.Accepts none (toBank bank trace)))

/-- **A sequence of accesses is legal for the bank's row buffer.** -/
theorem Isolated.bankLegal {trace : List BusPacket} {bank : Nat} (h : Isolated trace bank) :
    BankLegal trace bank := by
  suffices walk : ∀ (w : List BusPacket) (open_ : Option BusPacket), accesses.Accepts open_ w →
      rowBuffer.Accepts (open_.map (·.row)) w from walk (toBank bank trace) none h
  intro w
  induction w with
  | nil => exact fun _ _ => trivial
  | cons c w ih =>
    rintro open_ ⟨ok, rest⟩
    have later := ih _ rest
    -- the column access closes the row that its activation opened
    cases type : c.busPacketType <;>
      simp only [accesses, AccessOk, accessNext, type, if_true, reduceCtorEq, if_false, Option.map_some,
        Option.map_none] at ok later
    · obtain ⟨a, rfl, row, _⟩ := ok
      exact ⟨by simp [rowBuffer, RowOk, type, row], by simpa [rowBuffer, rowNext, type] using later⟩
    · obtain ⟨a, rfl, row, _⟩ := ok
      exact ⟨by simp [rowBuffer, RowOk, type, row], by simpa [rowBuffer, rowNext, type] using later⟩
    · subst ok
      exact ⟨by simp [rowBuffer, RowOk, type], by simpa [rowBuffer, rowNext, type] using later⟩

end MCsim
