import MCsim.Requests.Calls

/-!
# The BLISS request scheduler

`RequestScheduler_BLISS` blacklists a requestor that was served four times in a row and once more, and
prefers requests of requestors that are not blacklisted, then row hits, then older ones. The choice is
`scheduleBLISS` of the base class: a scan that compares each request with the first one.

The locals `hit_1` and `hit_2` of the scan are set to true only, and have no value before; whatever they
start with is part of a call. `blacklist` is an array of 36 that the constructor sets for the requestors
it knows; what it holds elsewhere is arbitrary.
-/

namespace MCsim

structure BlissState where
  blacklist : Nat → Int
  counterstreak : Nat := 0
  last_pid : Nat := 4
  threshold : Nat := 4
  temporal_clock : Nat := 0

/-- What the locals `hit_1` and `hit_2` start with. -/
structure Uninitialized where
  hit_1 : Bool
  hit_2 : Bool
  deriving DecidableEq, Repr

namespace Bliss

open RequestScheduler

/-- `blacklist[request->requestorID] != 1`. -/
def allowed (blacklist : Nat → Int) (request : Request) : Bool := blacklist request.requestorID != 1

/-- The second loop of `scheduleBLISS` from an index on: the position it hands out. Where the statuses
differ, both branches of the source hand out the request at the loop's index. -/
def scan (blacklist : Nat → Int) (isRowHit : Request → Bool) (req1 : Request) :
    List Request → Nat → Bool → Bool → Nat
  | [], _, _, _ => 0
  | req2 :: rest, index, hit_1, hit_2 =>
    if allowed blacklist req1 ^^ allowed blacklist req2 then index
    else
      let hit_1 := hit_1 || isRowHit req1
      let hit_2 := hit_2 || isRowHit req2
      if hit_1 ^^ hit_2 then if hit_1 then 0 else index
      else scan blacklist isRowHit req1 rest (index + 1) hit_1 hit_2

/-- `RequestScheduler::scheduleBLISS`. The first loop finds the front: no pointer of a buffer is null. -/
def scheduleBLISS (blacklist : Nat → Int) (left : Uninitialized) (s : RequestScheduler) (qIndex : Nat) :
    Option (Option Request × RequestQueue) :=
  let q := s.requestQueue qIndex
  match q.generalBuffer with
  | [] => some (none, q)
  | req1 :: rest =>
    q.getRequest (scan blacklist s.isRowHit req1 (req1 :: rest) 0 left.hit_1 left.hit_2)

/-- `clear_marking`. -/
def clear_marking (requestors : Nat) (p : BlissState) : BlissState :=
  { p with blacklist := fun id => if id < requestors then 0 else p.blacklist id }

/-- The constructor, over what the array held. -/
def create (requestors : Nat) (held : Nat → Int) : BlissState := clear_marking requestors { blacklist := held }

/-- The streak of the requestor that is served, which blacklists it at the threshold. -/
def count (p : BlissState) (request : Request) : BlissState :=
  let p :=
    if request.requestorID = p.last_pid ∧ p.counterstreak < p.threshold then
      { p with counterstreak := p.counterstreak + 1 }
    else if request.requestorID = p.last_pid ∧ p.counterstreak = p.threshold then
      { p with
        blacklist := fun id => if id = request.requestorID then 1 else p.blacklist id
        counterstreak := 1 }
    else { p with counterstreak := 1 }
  { p with last_pid := request.requestorID }

/-- One turn of the loop over the request queues, with what was handed over. -/
def scheduleQueue (gen : Generator) (left : Nat → Uninitialized)
    (st : RequestScheduler × BlissState × List Request) (index : Nat) :
    Option (RequestScheduler × BlissState × List Request) :=
  let (s, p, handed) := st
  if (s.requestQueue index).generalBuffer.length > 0 then
    (scheduleBLISS p.blacklist (left index) s index).bind fun (request, q) =>
      let s := s.setQueue index q
      match request with
      | none => some (s, p, handed)
      | some request =>
        (s.serveOwn gen index request).map fun (s, accepted) =>
          (s, count p request, if accepted then handed ++ [request] else handed)
  else some st

/-- `RequestScheduler_BLISS::requestSchedule`. -/
def requestSchedule (requestors : Nat) (gen : Generator) :
    RequestScheduling BlissState (Nat → Uninitialized) := fun left s p =>
  let clock := (p.temporal_clock + 1) % 2 ^ 64
  let p := { p with temporal_clock := clock }
  let p := if clock % 10000 = 0 ∧ clock ≠ 1 then clear_marking requestors p else p
  (List.range s.queueCount).foldlM (scheduleQueue gen left) (s, p, [])

/-- Its clock counts the calls, so that what the locals start with may be another in each. -/
def policy (requestors : Nat) (left : BlissState → Nat → Uninitialized) : RequestPolicy BlissState where
  requestSchedule gen s p := (requestSchedule requestors gen (left p) s p).map fun r => (r.1, r.2.1)

end Bliss
end MCsim
