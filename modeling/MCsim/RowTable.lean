import MCsim.AddressMapping
import MCsim.Lib.Machine
import MCsim.Lib.Subscript

/-!
# The row table as a map of maps

`bankTable` of the base class is a map from ranks to maps from banks to rows. `isRowHit` searches it and
reads it by subscripts, which enter an empty map for a rank and row 0 for a bank where there is none.
It takes the rank from two places: the map it searches is that of `request->rank`, the end it compares
with and the row it reads are those of `addressMap[Rank]`. `updateRowTable` is called with the ranks and
banks of `addressMap` by `FRFCFS`, and with the request's own by `DIRECT`, `BLISS` and `PARBS`.

Where the two ranks differ, `isRowHit` compares iterators of two maps. The language leaves that
undefined; the model takes what it does as a parameter `foreign`: nothing, or an answer. An
implementation that compares addresses of nodes answers that they are unequal.
-/

namespace MCsim

open Lib.Subscript

/-- `std::map<unsigned, std::map<unsigned, unsigned long>>`. -/
abbrev RowTable := Table Nat (Table Nat Nat)

namespace RowTable

/-- `RequestScheduler::isRowHit`, with the table it leaves. -/
def isRowHit (foreign : Option Bool) (bankTable : RowTable) (request : Request) :
    Option (Bool × RowTable) :=
  match bankTable request.addressMap.rank with
  | none => some (false, bankTable)
  | some _ =>
    let (searched, bankTable) := subscript empty bankTable request.rank
    let (banks, bankTable) := subscript empty bankTable request.addressMap.rank
    -- `find(..) != end()`, the two sides of one map or of two.
    let unequal :=
      if request.rank = request.addressMap.rank then some (searched request.addressMap.bank).isSome
      else foreign
    unequal.map fun unequal =>
      if unequal then
        let (row, banks) := subscript 0 banks request.addressMap.bank
        (row == request.row, enter bankTable request.addressMap.rank banks)
      else (false, bankTable)

/-- `RequestScheduler::updateRowTable`. -/
def updateRowTable (bankTable : RowTable) (rank bank row : Nat) : RowTable :=
  let (banks, bankTable) := subscript empty bankTable rank
  enter bankTable rank (enter banks bank row)

/-- The request schedulers, by the call of `updateRowTable` they make. -/
inductive Scheduler where
  | FRFCFS | DIRECT | BLISS | PARBS
  deriving DecidableEq, Repr

/-- The arguments `rank` and `bank` of the call for a scheduled request. -/
def Scheduler.place : Scheduler → Request → Nat × Nat
  | .FRFCFS, request => (request.addressMap.rank, request.addressMap.bank)
  | .DIRECT, request => (request.rank, request.bank)
  | .BLISS, request => (request.rank, request.bank)
  | .PARBS, request => (request.rank, request.bank)

/-- What the scheduling steps do to the table: test a request, as often and of whichever they like, and
record the one that was scheduled. -/
inductive Use where
  | isRowHit (request : Request)
  | schedule (request : Request)
  deriving DecidableEq, Repr

def Use.request : Use → Request
  | .isRowHit request => request
  | .schedule request => request

/-- The request that a use schedules. -/
def Use.scheduled : Use → List Request
  | .isRowHit _ => []
  | .schedule request => [request]

/-- One use of the table, with the answer of a test. -/
def step (kind : Scheduler) (foreign : Option Bool) : Lib.Machine.Step RowTable Use (Option Bool)
  | bankTable, .isRowHit request =>
    (isRowHit foreign bankTable request).map fun r => (r.2, some r.1)
  | bankTable, .schedule request =>
    some (updateRowTable bankTable (kind.place request).1 (kind.place request).2 request.row, none)

/-- The request's `addressMap` was filled by `addressMapping`. -/
def Mapped (request : Request) : Prop :=
  ∃ build index r, request = AddressMapping.addressMapping build index r

theorem Mapped.rank_eq {request : Request} (h : Mapped request) : request.addressMap.rank = 0 := by
  obtain ⟨build, index, r, rfl⟩ := h
  rfl

theorem Mapped.bank_eq {request : Request} (h : Mapped request) :
    request.addressMap.bank = request.bank := by
  obtain ⟨build, index, r, rfl⟩ := h
  rfl

end RowTable
end MCsim
