import MCsim.RequestScheduler

/-!
# The other command generators

`CLOSE`, `ROUND` and `PipeCAS`. The page policies differ: `CLOSE` opens and auto-precharges for every
column access, `ROUND` follows the row table as `OPEN` does and tells an `ACT` for a read from one for a
write, and `PipeCAS` closes pages for critical requestors and keeps them open for the others. The `MCMC`
generator is with its request scheduler.
-/

namespace MCsim
namespace CommandGenerator

/-! ## CLOSE -/

/-- `lookupTable`, filled in the constructor from the smallest size on: how many banks a request is
spread over, and how many column accesses each gets. A size that is not in it reads as none. -/
def lookupTable (dataBus requestSize : Nat) : Nat × Nat :=
  if requestSize = dataBus * 16 % 2 ^ 32 then (8, 2)
  else if requestSize = dataBus * 8 % 2 ^ 32 then (8, 1)
  else if requestSize = dataBus * 4 % 2 ^ 32 then (4, 1)
  else if requestSize = dataBus * 2 % 2 ^ 32 then (2, 1)
  else if requestSize = dataBus then (1, 1)
  else (0, 0)

/-- The column access of a request with auto-precharge. -/
def autoCasType (request : Request) : BusPacketType :=
  match request.requestType with
  | .DATA_READ => .RDA
  | .DATA_WRITE => .WRA

/-- What the `CLOSE` generator makes of a request: an `ACT` and a column access for each turn. -/
def closeCommands (dataBusSize : Nat) (request : Request) : List BusPacket :=
  let (banks, accesses) := lookupTable dataBusSize request.requestSize
  (List.range banks).flatMap fun bi =>
    (List.range accesses).flatMap fun bc =>
      [{ rowCommand .ACT request with bank := (request.bank + bi) % 16 },
        { rowCommand (autoCasType request) request with
          bank := (request.bank + bi) % 16
          lastBeat := bi + 1 == banks && bc + 1 == accesses }]

/-! ## ROUND -/

/-- A row command of the `ROUND` generator. -/
def roundRow (t : BusPacketType) (request : Request) : BusPacket :=
  { rowCommand t request with column := 0, rank := 0, subArray := 0 }

/-- `ACT_R` or `ACT_W`, by the direction of the request. -/
def actType (request : Request) : BusPacketType :=
  match request.requestType with
  | .DATA_READ => .ACT_R
  | .DATA_WRITE => .ACT_W

/-- What the `ROUND` generator puts before the column accesses. -/
def roundRows (g : CommandGenerator) (request : Request) (isOpen : Bool) : List BusPacket :=
  if isOpen then []
  else if g.first request.bank then [roundRow (actType request) request]
  else [roundRow .PRE request, roundRow (actType request) request]

/-- The column accesses of the `ROUND` generator, all at the column past the request. -/
def roundCas (dataBusSize : Nat) (request : Request) : List BusPacket :=
  (List.range (beats dataBusSize request)).map fun x =>
    { rowCommand (casType request) request with
      column := (request.col + beats dataBusSize request) % 2 ^ 32
      rank := 0
      subArray := 0
      lastBeat := x + 1 == beats dataBusSize request }

/-! ## PipeCAS -/

/-- A command of the `PipeCAS` generator. -/
def pipeCommand (t : BusPacketType) (request : Request) : BusPacket :=
  { rowCommand t request with subArray := 0 }

/-- What the `PipeCAS` generator makes of a request: the pages of critical requestors are closed after
each access, the others follow the row table. -/
def pipeCommands (critical : Bool) (request : Request) (isOpen : Bool) : List BusPacket :=
  if critical then
    [pipeCommand .ACT request, { pipeCommand (autoCasType request) request with lastBeat := true }]
  else
    (if isOpen then [] else [pipeCommand .PRE request, pipeCommand .ACT request]) ++
      [{ pipeCommand (casType request) request with lastBeat := true }]

end CommandGenerator

open CommandGenerator

/-- `CommandGenerator_Close::commandGenerate`. -/
def closeGenerator : Generator := fun g request _ =>
  some ({ g with commandBuffer := g.commandBuffer ++ closeCommands g.dataBusSize request }, true)

/-- `CommandGenerator_Round::commandGenerate`. -/
def roundGenerator : Generator := fun g request isOpen =>
  if isOpen || request.bank < 8 then
    some ({ g with
      commandBuffer := g.commandBuffer ++ g.roundRows request isOpen ++ roundCas g.dataBusSize request
      first := fun bank => if bank = request.bank ∧ ¬ isOpen then false else g.first bank }, true)
  else none

/-- `CommandGenerator_PipeCAS::commandGenerate`; a requestor that is not in the table is an exception. -/
def pipeGenerator (requestorCriticalTable : Nat → Option Bool) : Generator := fun g request isOpen =>
  (requestorCriticalTable request.requestorID).map fun critical =>
    ({ g with commandBuffer := g.commandBuffer ++ pipeCommands critical request isOpen }, true)

end MCsim
