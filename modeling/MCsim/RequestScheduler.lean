import MCsim.RequestQueue
import MCsim.CommandGenerator

/-!
# Request schedulers

The base class `RequestScheduler` with its row table, and the schedulers `FCFS` and `FRFCFS`.

The row table `bankTable` is what a scheduler believes about the banks: the row of the last request it
handed to the generator for each. It is written ahead of the commands, so it describes the banks as
they will be when every queued command was sent. `isRowHit` reads it, and the generator trusts the
answer.

`isRowHit` looks a bank up in the map of `request->rank` and compares the result with the end of the
map of `addressMap[Rank]`, which is 0. The model covers requests whose two ranks agree, as they do on
one rank; the source compares iterators of two containers otherwise.
-/

namespace MCsim

/-- A command generator subclass: the commands a request adds, and whether it was accepted. -/
abbrev Generator := CommandGenerator → Request → Bool → Option (CommandGenerator × Bool)

/-- The `OPEN` generator. -/
def openGenerator : Generator := fun g request isOpen =>
  (g.commandGenerateOpen request isOpen).map fun g => (g, true)

structure RequestScheduler where
  queueCount : Nat
  requestQueue : Nat → RequestQueue
  bankTable : Nat → Nat → Option Nat := fun _ _ => none
  commandGenerator : CommandGenerator
  clockCycle : Nat := 1

/-- A request scheduler subclass with private state `ρ`. -/
structure RequestPolicy (ρ : Type) where
  requestSchedule : Generator → RequestScheduler → ρ → Option (RequestScheduler × ρ)

namespace RequestScheduler

def setQueue (s : RequestScheduler) (index : Nat) (q : RequestQueue) : RequestScheduler :=
  { s with requestQueue := fun i => if i = index then q else s.requestQueue i }

def isRowHit (s : RequestScheduler) (request : Request) : Bool :=
  s.bankTable request.addressMap.rank request.addressMap.bank == some request.row

def updateRowTable (s : RequestScheduler) (rank bank row : Nat) : RequestScheduler :=
  { s with bankTable := fun r b => if r = rank ∧ b = bank then some row else s.bankTable r b }

/-- `isSchedulable`: hand a request to the generator. -/
def isSchedulable (gen : Generator) (s : RequestScheduler) (request : Request) (isOpen : Bool) :
    Option (RequestScheduler × Bool) :=
  (gen s.commandGenerator request isOpen).map fun r => ({ s with commandGenerator := r.1 }, r.2)

/-- Hand a request to the generator as the row table calls it; if it is accepted, write the row table
and remove the request that its queue handed out last. -/
def serve (gen : Generator) (s : RequestScheduler) (index : Nat) (request : Request) :
    Option (RequestScheduler × Bool) :=
  (s.isSchedulable gen request (s.isRowHit request)).bind fun (s, accepted) =>
    if accepted then
      (s.requestQueue index).removeRequest.map fun q =>
        ((s.updateRowTable request.addressMap.rank request.addressMap.bank request.row).setQueue
          index q, true)
    else some (s, false)

/-- The same for the schedulers that write the row table at the request's own rank and bank. -/
def serveOwn (gen : Generator) (s : RequestScheduler) (index : Nat) (request : Request) :
    Option (RequestScheduler × Bool) :=
  (s.isSchedulable gen request (s.isRowHit request)).bind fun (s, accepted) =>
    if accepted then
      (s.requestQueue index).removeRequest.map fun q =>
        ((s.updateRowTable request.rank request.bank request.row).setQueue index q, true)
    else some (s, false)

/-- `scheduleFR`: the first row hit of the general buffer, or its front. -/
def scheduleFR (s : RequestScheduler) (qIndex : Nat) : Option (Option Request × RequestQueue) :=
  let q := s.requestQueue qIndex
  q.getRequest ((q.generalBuffer.findIdx? s.isRowHit).getD 0)

def step (s : RequestScheduler) : RequestScheduler := { s with clockCycle := s.clockCycle + 1 }

/-- An assignment to a request's size is seen in every queue that holds it. -/
def assignSize (handle n : Nat) (s : RequestScheduler) : RequestScheduler :=
  { s with requestQueue := fun i => (s.requestQueue i).assignSize handle n }

end RequestScheduler

open RequestScheduler

/-! ## FRFCFS -/

namespace RequestFrfcfs

/-- One turn of the loop over the request queues. -/
def scheduleQueue (gen : Generator) (s : RequestScheduler) (index : Nat) : Option RequestScheduler :=
  if (s.requestQueue index).generalBuffer.length > 0 then
    (s.scheduleFR index).bind fun (request, q) =>
      let s := s.setQueue index q
      match request with
      | none => some s
      | some request => (s.serve gen index request).map (·.1)
  else some s

/-- `RequestScheduler_FRFCFS::requestSchedule`. -/
def requestSchedule (gen : Generator) (s : RequestScheduler) : Option RequestScheduler :=
  (List.range s.queueCount).foldlM (scheduleQueue gen) s

def policy : RequestPolicy Unit where
  requestSchedule gen s _ := (requestSchedule gen s).map fun s => (s, ())

end RequestFrfcfs

/-! ## FCFS -/

namespace RequestFcfs

/-- The candidate `checkRequest` with its position `numIndex`. -/
abbrev Candidate := Option (Request × Nat)

/-- The first scan over a per-requestor queue: the front of the first nonempty buffer. A queue with
none leaves the candidate of an earlier queue in place. -/
def firstFront (q : RequestQueue) (check : Candidate) : Candidate :=
  let found := (List.range q.getQueueSize).findSome? fun num =>
    match q.checkRequestIndex num 0 with
    | some (some r) => some (r, num)
    | _ => none
  found.or check

/-- The second scan: a front that arrived no later than the candidate replaces it. -/
def earlierFront (q : RequestQueue) (check : Candidate) : Candidate :=
  (List.range q.getQueueSize).foldl (fun check num =>
    match q.checkRequestIndex num 0, check with
    | some (some r), some best =>
      if r.arriveTime ≤ best.1.arriveTime then some (r, num) else some best
    | _, _ => check) check

/-- The branch for a per-requestor queue. The position is looked up in this queue, wherever the
candidate came from; a null answer is then dereferenced. -/
def scheduleRequestors (gen : Generator) (s : RequestScheduler) (index : Nat) (check : Candidate) :
    Option (RequestScheduler × Candidate) :=
  let q := s.requestQueue index
  let check := earlierFront q (firstFront q check)
  match check with
  | none => some (s, check)
  | some (_, numIndex) =>
    (q.getRequestOf numIndex 0).bind fun (request, q) =>
      request.bind fun request =>
        ((s.setQueue index q).serve gen index request).map fun r => (r.1, check)

/-- The branch for a general queue: its front. -/
def scheduleGeneral (gen : Generator) (s : RequestScheduler) (index : Nat) :
    Option RequestScheduler :=
  if (s.requestQueue index).generalBuffer.length > 0 then
    ((s.requestQueue index).getRequest 0).bind fun (request, q) =>
      let s := s.setQueue index q
      match request with
      | none => some s
      | some request => (s.serve gen index request).map (·.1)
  else some s

/-- One turn of the loop over the request queues. -/
def scheduleQueue (gen : Generator) (st : RequestScheduler × Candidate) (index : Nat) :
    Option (RequestScheduler × Candidate) :=
  if (st.1.requestQueue index).isPerRequestor then scheduleRequestors gen st.1 index st.2
  else (scheduleGeneral gen st.1 index).map fun s => (s, st.2)

/-- `RequestScheduler_FCFS::requestSchedule`. -/
def requestSchedule (gen : Generator) (s : RequestScheduler) : Option RequestScheduler :=
  ((List.range s.queueCount).foldlM (scheduleQueue gen) (s, none)).map (·.1)

def policy : RequestPolicy Unit where
  requestSchedule gen s _ := (requestSchedule gen s).map fun s => (s, ())

end RequestFcfs
end MCsim
