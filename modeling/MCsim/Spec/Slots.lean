import MCsim.Lib.Machine

/-!
# A server in its own time slot

What a time-division scheduler owes one of its clients: the client's jobs wait in arrival order, and
in the client's slot the next job is cut into parts, one of which is served each time the slot comes
round. Nothing here depends on the other clients but how many of them there are.
-/

namespace MCsim.Slots

/-- A client's job: who sent it, and what and how much of it. -/
structure Job (α : Type) where
  owner : Nat
  what : α
  size : Nat
  deriving DecidableEq

/-- The slot in progress, the calls left in it, and what the client has waiting and cut. -/
structure Server (α : Type) where
  turn : Nat := 0
  left : Nat := 0
  waiting : List (Job α) := []
  parts : List (Job α) := []

namespace Server

variable {α : Type}

/-- The parts of a job. -/
def cut (width : Nat) (job : Job α) : List (Job α) :=
  List.replicate (job.size / width) { job with size := width }

/-- Take the next job where no part is left. -/
def refill (width : Nat) (v : Server α) : Server α :=
  match v.parts, v.waiting with
  | [], job :: rest => { v with waiting := rest, parts := cut width job }
  | _, _ => v

/-- Serve one part. -/
def serve (v : Server α) : Server α × Option (Job α) :=
  ({ v with parts := v.parts.tail }, v.parts.head?)

/-- One call with the client's arrivals, at a schedule of `clients` slots of `length` calls each. -/
def step (clients length width client : Nat) (v : Server α) (arrivals : List (Job α)) :
    Server α × Option (Job α) :=
  let v := { v with waiting := v.waiting ++ arrivals }
  if v.left = 0 then
    let (served, part) := if v.turn = client then (v.refill width).serve else (v, none)
    ({ served with left := length - 1, turn := if v.turn + 1 = clients then 0 else v.turn + 1 }, part)
  else ({ v with left := v.left - 1 }, none)

/-- Arrivals join before anything else happens. -/
theorem step_arrivals (clients length width client : Nat) (v : Server α) (arrivals : List (Job α)) :
    step clients length width client v arrivals =
      step clients length width client { v with waiting := v.waiting ++ arrivals } [] := by
  simp [step]

/-- The start of a slot, by what it does to the client. -/
theorem step_slot {clients length width client : Nat} {v served : Server α} {part : Option (Job α)}
    (starts : v.left = 0)
    (serves : (served, part) =
      if v.turn = client then (v.refill width).serve else (v, none)) :
    step clients length width client v [] =
      ({ served with
        left := length - 1
        turn := if v.turn + 1 = clients then 0 else v.turn + 1 }, part) := by
  obtain ⟨turn, left, waiting, parts⟩ := v
  obtain rfl : left = 0 := starts
  simp only [step, List.append_nil, if_true]
  rw [← serves]

/-- A client is served in its own turn only. -/
theorem step_part {clients length width client : Nat} {v : Server α} {arrivals : List (Job α)}
    {v' : Server α} {part : Job α}
    (h : step clients length width client v arrivals = (v', some part)) : v.turn = client := by
  by_contra other
  simp only [step, if_neg other] at h
  split at h <;> simp at h

end Server
end MCsim.Slots
