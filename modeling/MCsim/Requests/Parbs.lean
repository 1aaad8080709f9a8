import MCsim.Requests.Calls

/-!
# The PAR-BS request scheduler

`RequestScheduler_PARBS` serves requests in batches. Where no marked request is left (`markedCnt` is 0)
a call marks a new batch (`form_batch`), then hands over the best request of the buffer: marked requests
first, then row hits, then the requestors with the smaller load.

`marked` is a map from pointers, here from handles. The load arrays have 10 cells and are set for every
requestor when a batch is formed, which is undefined for more than 10; nothing sets them before, so what
they hold first is arbitrary. The loop over the banks counts its index down again for every request
nominated, so it comes back to the same bank until the queue of that bank is at the cap, and leaves the
loop there.

Left out: `rank`, which nothing reads.
-/

namespace MCsim

/-- `earliestperBankperReq`: of the requests of a requestor to a bank the first, replaced by every later
one that arrived strictly before. -/
def RequestQueue.earliestperBankperReq (q : RequestQueue) (p b : Nat) : Option Request :=
  let mine := q.generalBuffer.filter fun r => r.bank == b && r.requestorID == p
  mine.head?.map fun first =>
    mine.foldl (fun temp r => if r.arriveTime < temp.arriveTime then r else temp) first

structure ParbsState where
  markedCnt : Nat := 0
  marked : Nat → Bool := fun _ => false
  MarkableQ : Nat → Nat → List Request := fun _ _ => []
  markedMaxLoadPerProc : Nat → Nat
  markedTotalLoadPerProc : Nat → Nat

namespace Parbs

open RequestScheduler

def MarkingCap : Nat := 5

/-- `rmax * bmax`. -/
def localBcount : Nat := 8

/-- The cells of the load arrays. -/
def loadCells : Nat := 10

/-- `f[key] = value`. -/
def assign {β : Type} (f : Nat → β) (key : Nat) (value : β) : Nat → β :=
  fun k => if k = key then value else f k

/-- `BetterRequest`. -/
def BetterRequest (s : RequestScheduler) (p : ParbsState) (req1 req2 : Request) : Request :=
  if p.marked req1.handle ^^ p.marked req2.handle then
    if p.marked req1.handle then req1 else req2
  else if s.isRowHit req1 ^^ s.isRowHit req2 then
    if s.isRowHit req1 then req1 else req2
  else if p.markedMaxLoadPerProc req1.requestorID ≠ p.markedMaxLoadPerProc req2.requestorID then
    if p.markedMaxLoadPerProc req1.requestorID > p.markedMaxLoadPerProc req2.requestorID then req2
    else req1
  else if p.markedTotalLoadPerProc req1.requestorID ≠ p.markedTotalLoadPerProc req2.requestorID then
    if p.markedTotalLoadPerProc req1.requestorID > p.markedTotalLoadPerProc req2.requestorID then req2
    else req1
  else req2

/-- What nominating a request for the queue of a requestor and a bank does. -/
def nominate (p : ParbsState) (proc b : Nat) (request : Request) : ParbsState :=
  let markedCnt := (p.markedCnt + 1) % 2 ^ 32
  { p with
    MarkableQ := assign p.MarkableQ proc (assign (p.MarkableQ proc) b (request :: p.MarkableQ proc b))
    markedTotalLoadPerProc := assign p.markedTotalLoadPerProc proc (p.markedTotalLoadPerProc proc + 1)
    markedCnt := markedCnt
    marked := assign p.marked request.handle true
    markedMaxLoadPerProc :=
      if markedCnt > p.markedMaxLoadPerProc proc then assign p.markedMaxLoadPerProc proc markedCnt
      else p.markedMaxLoadPerProc }

/-- The turns of the loop over the banks that are spent at one bank, and whether they leave the loop.
Every turn but the last adds to the bank's queue, so one more than the cap are enough. -/
def bankTurns (q : RequestQueue) (proc b : Nat) : Nat → ParbsState → ParbsState × Bool
  | 0, p => (p, false)
  | turns + 1, p =>
    if (p.MarkableQ proc b).length = MarkingCap then (p, true)
    else if (p.MarkableQ proc b).length < MarkingCap then
      match q.earliestperBankperReq proc b with
      | some request => bankTurns q proc b turns (nominate p proc b request)
      | none => (p, false)
    else (p, false)

/-- The loop over the banks. -/
def bankLoop (q : RequestQueue) (proc : Nat) : List Nat → ParbsState → ParbsState
  | [], p => p
  | b :: rest, p =>
    match bankTurns q proc b (MarkingCap + 1) p with
    | (p, true) => p
    | (p, false) => bankLoop q proc rest p

/-- The first loop of `form_batch`. -/
def clear (requestors : Nat) (p : ParbsState) : ParbsState :=
  { p with
    MarkableQ := fun proc b => if proc < requestors ∧ b < localBcount then [] else p.MarkableQ proc b
    markedMaxLoadPerProc := fun proc => if proc < requestors then 0 else p.markedMaxLoadPerProc proc
    markedTotalLoadPerProc := fun proc =>
      if proc < requestors then 0 else p.markedTotalLoadPerProc proc }

/-- `form_batch`. -/
def form_batch (requestors : Nat) (q : RequestQueue) (p : ParbsState) : Option ParbsState :=
  if requestors ≤ loadCells then
    some ((List.range requestors).foldl
      (fun p proc => bankLoop q proc (List.range localBcount) p) (clear requestors p))
  else none

/-- The start of a call: a new batch where no marked request is counted. -/
def startBatch (requestors : Nat) (q : RequestQueue) (p : ParbsState) : Option ParbsState :=
  if p.markedCnt = 0 then form_batch requestors q p else some p

/-- One turn of the loop that looks for the best request: `temp` and `temp_index`. Two pointers into the
buffer are equal exactly if the requests are, which carry their handle. -/
def tournamentTurn (s : RequestScheduler) (p : ParbsState) (temp : Request × Nat) (next : Request × Nat) :
    Request × Nat :=
  let better := BetterRequest s p next.1 temp.1
  if temp.1 = better then temp else (better, next.2)

/-- The loop. -/
def tournament (s : RequestScheduler) (p : ParbsState) (front : Request) (rest : List Request) :
    Request × Nat :=
  (rest.zipIdx 1).foldl (tournamentTurn s p) (front, 0)

/-- What handing a request over does to the marks. -/
def unmark (p : ParbsState) (request : Request) : ParbsState :=
  { p with
    markedCnt := (p.markedCnt + (2 ^ 32 - 1)) % 2 ^ 32
    marked := assign p.marked request.handle false }

/-- `RequestScheduler_PARBS::requestSchedule`. -/
def requestSchedule (requestors : Nat) (gen : Generator) : RequestScheduling ParbsState Unit :=
  fun _ s p =>
    (startBatch requestors (s.requestQueue 0) p).bind fun p =>
      match (s.requestQueue 0).generalBuffer with
      | [] => some (s, p, [])
      | front :: rest =>
        ((s.requestQueue 0).getRequest (tournament s p front rest).2).bind fun (request, q) =>
          request.bind fun request =>
            ((s.setQueue 0 q).serveOwn gen 0 request).map fun (s, accepted) =>
              if accepted then (s, unmark p request, [request]) else (s, p, [])

def policy (requestors : Nat) : RequestPolicy ParbsState where
  requestSchedule gen s p := (requestSchedule requestors gen () s p).map fun r => (r.1, r.2.1)

end Parbs
end MCsim
