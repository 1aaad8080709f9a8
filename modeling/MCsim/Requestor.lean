import MCsim.Packet

/-!
# Requestors

A `Requestor` plays a trace: it reads a line when nothing is pending, holds the request until its
arrival time is reached and the memory system takes it, and keeps it in `corePendingData` until its
data came back. An in-order requestor reads the next line only when everything came back.

A trace line is given parsed, with its computation delay already in memory cycles (the source divides
by a floating point clock). A trace is the lines of the file, the last of them what stands after the
last line break; the end of the file is reached when all of them were read.

Left out: the cache, `waitingRequest`, `long_l`, the addresses for row hits and misses and `flushWrite`,
which sets a flag that no scheduler reads.
-/

namespace MCsim

structure TraceLine where
  addr : Nat
  requestType : RequestType
  compDelay : Nat
  deriving DecidableEq, Repr

structure Requestor where
  requestorID : Nat
  inOrder : Bool
  transFile : List (Option TraceLine)
  RequestSize : Nat := 64
  sim_done : Bool := false
  bypass_read : Bool := false
  currentClockCycle : Nat := 1
  prevArrive : Nat := 1
  prevComplete : Nat := 0
  wcLatency : Nat := 0
  compTime : Nat := 0
  completeRequest : Nat := 0
  requestRequest : Nat := 0
  latency : Nat := 0
  pendingRequest : Option Request := none
  corePendingData : List Request := []

namespace Requestor

/-- How many requests the general buffer and a requestor may hold before a request is held back. -/
def RequestBufferSize : Nat := 32

/-- The arrival time of a line: after the previous completion, or after the previous arrival. -/
def arrival (q : Requestor) (line : TraceLine) : Requestor × Nat :=
  if q.inOrder then
    ({ q with compTime := q.compTime + line.compDelay }, line.compDelay + q.prevComplete)
  else if line.compDelay = 0 ∧ q.currentClockCycle ≠ 1 then
    let prevArrive := (q.prevArrive + 1) % 2 ^ 32
    ({ q with prevArrive := prevArrive }, prevArrive)
  else
    let clockCycle := line.compDelay + q.prevArrive
    ({ q with prevArrive := clockCycle % 2 ^ 32 }, clockCycle)

/-- `readingTraceFile`, with the answer whether the trace is at its end. An empty line is no request. -/
def readingTraceFile (q : Requestor) : Requestor × Bool :=
  if q.inOrder && !q.corePendingData.isEmpty then (q, false)
  else if q.pendingRequest.isNone then
    match q.transFile with
    | [] => (q, true)
    | none :: rest => ({ q with transFile := rest, bypass_read := true }, false)
    | some line :: rest =>
      let (q, clockCycle) := q.arrival line
      ({ q with
        transFile := rest
        pendingRequest := some
          { handle := 0, requestType := line.requestType, requestorID := q.requestorID,
            requestSize := q.RequestSize, address := line.addr,
            arriveTime := clockCycle % 2 ^ 32 } }, false)
  else (q, false)

/-- The requestor after the first part of `update`. -/
def read (q : Requestor) : Requestor :=
  let (q, done) := { q with latency := q.latency + 1 }.readingTraceFile
  { q with sim_done := done }

/-- Whether `update` sends its pending request, given what the memory system answers. -/
def sends (q : Requestor) (writeMode : Bool) (generalBufferSize : Nat) : Option Request :=
  q.pendingRequest.filter fun request =>
    !writeMode && request.arriveTime ≤ q.currentClockCycle &&
      generalBufferSize ≤ RequestBufferSize && q.corePendingData.length ≤ RequestBufferSize

/-- The requestor after its request was added to the memory system. -/
def sent (q : Requestor) (request : Request) : Requestor :=
  { q with
    requestRequest := q.requestRequest + 1
    latency := 0
    corePendingData := q.corePendingData ++ [{ request with arriveTime := q.currentClockCycle }]
    pendingRequest := none }

/-- The last part of `update`. -/
def endUpdate (q : Requestor) : Requestor :=
  { q with
    sim_done := if q.corePendingData.isEmpty then q.sim_done else false
    currentClockCycle := (q.currentClockCycle + 1) % 2 ^ 32 }

/-- `returnData`: the first request of that address is done. Where there is none though something is
outstanding, the source aborts unless `latency` happens to be 0. -/
def returnData (q : Requestor) (returnTrans : Request) : Option Requestor :=
  match q.corePendingData.findIdx? fun r => returnTrans.address == r.address with
  | some index =>
    (q.corePendingData[index]?).map fun r =>
      { q with
        wcLatency := max q.wcLatency ((q.currentClockCycle + (2 ^ 32 - r.arriveTime)) % 2 ^ 32)
        prevComplete := q.currentClockCycle
        completeRequest := q.completeRequest + 1
        latency := 0
        corePendingData := q.corePendingData.eraseIdx index }
  | none => if !q.corePendingData.isEmpty && q.latency ≠ 0 then none else some q

end Requestor
end MCsim
