import Mathlib.Algebra.Group.Nat.Defs
import MCsim.Lib.Machine

/-!
# Requests and bus packets

The two records that travel through the controller: a `Request` from a requestor down to the command
generator, and a `BusPacket` (a command or a beat of data) from there to the device and back.

Both are heap objects in the source and are shared by pointer. `Request.handle` is that pointer: two
requests are the same object exactly when their handles agree, and an assignment through one of them
is an assignment to every copy (`Request.assignSize`). `BusPacket.origin` and `BusPacket.lastBeat`
are ghosts: the request a packet was cracked from, and whether it is the last beat of it. No function
of the model reads them.

Left out: `data` (always `NULL`), `returnTime`, `bankGroup` of a packet (never assigned).
-/

namespace MCsim

/-- The levels of the memory organisation, in the order of `memTable`. -/
inductive MemOrg where
  | Rank | BankGroup | Bank | SubArray | Row | Column
  deriving DecidableEq, Repr

/-- A packet's kind, in the order of the source's enumeration (comparisons use it). -/
inductive BusPacketType where
  | RD | RDA | WR | WRA
  | ACT_R | ACT_W | ACT | PRE | PREA
  | REF | REFPB
  | PDE | PDX | SRE | SRX
  | DATA
  deriving DecidableEq, Repr

namespace BusPacketType

/-- The enumeration's value. -/
def toNat : BusPacketType → Nat
  | RD => 0 | RDA => 1 | WR => 2 | WRA => 3
  | ACT_R => 4 | ACT_W => 5 | ACT => 6 | PRE => 7 | PREA => 8
  | REF => 9 | REFPB => 10
  | PDE => 11 | PDX => 12 | SRE => 13 | SRX => 14
  | DATA => 15

/-- `busPacketType < ACT`: what the schedulers take for a column access. It also admits `ACT_R` and
`ACT_W`, which stand before `ACT` in the enumeration. -/
def beforeACT (t : BusPacketType) : Bool := t.toNat < ACT.toNat

/-- A plain column access, `RD` or `WR`. -/
def isCas (t : BusPacketType) : Bool := t == RD || t == WR

@[simp] theorem isCas_iff {t : BusPacketType} : t.isCas = true ↔ t = RD ∨ t = WR := by
  simp [isCas]

theorem beforeACT_of_isCas {t : BusPacketType} (h : t.isCas = true) : t.beforeACT = true := by
  rcases isCas_iff.mp h with rfl | rfl <;> rfl

end BusPacketType

/-- A command, or a beat of data, on its way between controller and device. -/
structure BusPacket where
  busPacketType : BusPacketType
  requestorID : Nat
  address : Nat
  column : Nat
  row : Nat
  bank : Nat
  rank : Nat
  subArray : Nat
  arriveTime : Nat
  postCommand : Bool := false
  /-- Ghost: the request the packet was cracked from. -/
  origin : Nat := 0
  /-- Ghost: the packet is the last column access of its request, or the data of it. -/
  lastBeat : Bool := false
  deriving DecidableEq, Repr

inductive RequestType where
  | DATA_READ | DATA_WRITE
  deriving DecidableEq, Repr

/-- `Request::addressMap`. The source declares four cells and the mapping also writes two more past
them (`Row`, `Column`); nothing reads those two. -/
structure AddressMap where
  rank : Nat := 0
  bankGroup : Nat := 0
  bank : Nat := 0
  subArray : Nat := 0
  deriving DecidableEq, Repr

structure Request where
  /-- The object's address: requests with one handle are one object. -/
  handle : Nat
  requestType : RequestType
  requestorID : Nat
  requestSize : Nat
  address : Nat
  arriveTime : Nat
  rank : Nat := 0
  bankGroup : Nat := 0
  bank : Nat := 0
  subArray : Nat := 0
  row : Nat := 0
  col : Nat := 0
  addressMap : AddressMap := {}
  deriving DecidableEq, Repr

/-- The assignment `p->requestSize = n` through a pointer, seen by a container of pointers. -/
def Request.assignSize (handle n : Nat) (l : List Request) : List Request :=
  l.map fun r => if r.handle = handle then { r with requestSize := n } else r

/-- A request after an assignment is one of another handle, or the one that was assigned to. -/
theorem Request.mem_assignSize {handle n : Nat} {l : List Request} {x : Request}
    (h : x ∈ Request.assignSize handle n l) :
    x ∈ l ∧ x.handle ≠ handle ∨ ∃ y ∈ l, y.handle = handle ∧ x = { y with requestSize := n } := by
  obtain ⟨y, hy, rfl⟩ := List.mem_map.mp h
  by_cases e : y.handle = handle
  · exact .inr ⟨y, hy, e, if_pos e⟩
  · rw [if_neg e]
    exact .inl ⟨hy, e⟩

end MCsim
