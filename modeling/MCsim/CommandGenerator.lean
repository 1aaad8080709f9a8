import MCsim.Packet

/-!
# Command generators

A generator cracks one request into commands at the back of `commandBuffer`. It does not ask the
device whether a bank is open: the caller passes `open` (does the row table call the request a row
hit?) and `first` says whether the bank was ever activated.

`first` is an array of eight; a bank past it is undefined behaviour where the flag is read, and the
generator is partial there.
-/

namespace MCsim

structure CommandGenerator where
  dataBusSize : Nat
  first : Nat → Bool := fun _ => true
  commandBuffer : List BusPacket := []

namespace CommandGenerator

/-- A row command (`PRE`, `ACT`) of a request. -/
def rowCommand (t : BusPacketType) (request : Request) : BusPacket :=
  { busPacketType := t, requestorID := request.requestorID, address := request.address,
    column := request.col, row := request.row, bank := request.bank, rank := request.rank,
    subArray := request.subArray, arriveTime := 0, origin := request.handle }

/-- The column access of a request: `RD`, or `WR` for a write. -/
def casType (request : Request) : BusPacketType :=
  match request.requestType with
  | .DATA_READ => .RD
  | .DATA_WRITE => .WR

/-- How many data bus widths the request takes. -/
def beats (dataBusSize : Nat) (request : Request) : Nat := request.requestSize / dataBusSize

/-- The column accesses of a request, one for each beat, at consecutive columns. -/
def casCommands (dataBusSize : Nat) (request : Request) : List BusPacket :=
  (List.range (beats dataBusSize request)).map fun x =>
    { rowCommand (casType request) request with
      column := (request.col + x) % 2 ^ 32
      lastBeat := x + 1 == beats dataBusSize request }

/-- The commands the `OPEN` generator puts before the column accesses: none on a row hit, an `ACT`
for a bank never opened, a `PRE` and an `ACT` otherwise. -/
def openCommands (g : CommandGenerator) (request : Request) (isOpen : Bool) : List BusPacket :=
  if isOpen then []
  else if g.first request.bank then [rowCommand .ACT request]
  else [rowCommand .PRE request, rowCommand .ACT request]

/-- `CommandGenerator_Open::commandGenerate`. It always accepts. -/
def commandGenerateOpen (g : CommandGenerator) (request : Request) (isOpen : Bool) :
    Option CommandGenerator :=
  if isOpen || request.bank < 8 then
    some { g with
      commandBuffer := g.commandBuffer ++ g.openCommands request isOpen ++
        casCommands g.dataBusSize request
      first := fun bank => if bank = request.bank ∧ ¬ isOpen then false else g.first bank }
  else none

/-- Everything the `OPEN` generator makes of a request. -/
def commandsOf (g : CommandGenerator) (request : Request) (isOpen : Bool) : List BusPacket :=
  g.openCommands request isOpen ++ casCommands g.dataBusSize request

/-- The `OPEN` generator's flags after a request. -/
def opened (g : CommandGenerator) (request : Request) (isOpen : Bool) : CommandGenerator :=
  { g with first := fun bank => if bank = request.bank ∧ ¬ isOpen then false else g.first bank }

/-- What the `OPEN` generator does, and when it can. -/
theorem commandGenerateOpen_eq (g : CommandGenerator) (request : Request) (isOpen : Bool) :
    g.commandGenerateOpen request isOpen =
      if isOpen || request.bank < 8 then
        some { g.opened request isOpen with
          commandBuffer := g.commandBuffer ++ g.commandsOf request isOpen }
      else none := by
  simp only [commandGenerateOpen, commandsOf, List.append_assoc]
  rfl

@[simp] theorem rowCommand_type (t : BusPacketType) (r : Request) :
    (rowCommand t r).busPacketType = t := rfl

@[simp] theorem rowCommand_row (t : BusPacketType) (r : Request) : (rowCommand t r).row = r.row :=
  rfl

@[simp] theorem rowCommand_bank (t : BusPacketType) (r : Request) :
    (rowCommand t r).bank = r.bank := rfl

/-- A column access carries its request's row, bank, requestor and address. -/
theorem mem_casCommands {n : Nat} {r : Request} {c : BusPacket} (h : c ∈ casCommands n r) :
    c.busPacketType = casType r ∧ c.row = r.row ∧ c.bank = r.bank ∧
      c.requestorID = r.requestorID ∧ c.address = r.address ∧ c.origin = r.handle := by
  obtain ⟨x, _, rfl⟩ := List.mem_map.mp h
  exact ⟨rfl, rfl, rfl, rfl, rfl, rfl⟩

/-- The commands put before the column accesses are row commands of the request. -/
theorem mem_openCommands {g : CommandGenerator} {r : Request} {isOpen : Bool} {c : BusPacket}
    (h : c ∈ g.openCommands r isOpen) : c = rowCommand .PRE r ∨ c = rowCommand .ACT r := by
  unfold openCommands at h
  split at h
  · cases h
  · split at h
    · exact .inr (List.mem_singleton.mp h)
    · simpa using h

/-- The commands made of a request go to its bank with its row; they are not posted. -/
theorem mem_commandsOf {g : CommandGenerator} {r : Request} {isOpen : Bool} {c : BusPacket}
    (h : c ∈ g.commandsOf r isOpen) :
    c.bank = r.bank ∧ c.row = r.row ∧ c.postCommand = false ∧
      (c.busPacketType = .PRE ∨ c.busPacketType = .ACT ∨ c.busPacketType = casType r) := by
  rcases List.mem_append.mp h with h | h
  · rcases mem_openCommands h with rfl | rfl <;> simp [rowCommand]
  · obtain ⟨x, _, rfl⟩ := List.mem_map.mp h
    simp [rowCommand]

/-- They are for its requestor and address. -/
theorem commandsOf_requestor {g : CommandGenerator} {r : Request} {isOpen : Bool} {c : BusPacket}
    (h : c ∈ g.commandsOf r isOpen) : c.requestorID = r.requestorID ∧ c.address = r.address := by
  rcases List.mem_append.mp h with h | h
  · rcases mem_openCommands h with rfl | rfl <;> exact ⟨rfl, rfl⟩
  · obtain ⟨x, _, rfl⟩ := List.mem_map.mp h
    exact ⟨rfl, rfl⟩

theorem casType_isCas (r : Request) : (casType r).isCas = true := by
  unfold casType
  cases r.requestType <;> rfl

end CommandGenerator
end MCsim
