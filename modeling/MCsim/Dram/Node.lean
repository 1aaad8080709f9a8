import Mathlib.Data.List.Basic
import Mathlib.Tactic.Common

/-!
# The DRAM tree

`DRAM<T>` is a tree of nodes, from the channel over ranks (and bank groups) down to the banks; rows
are not nodes. Every node keeps, for each command, the earliest cycle at which it could be taken
(`next`) and the cycles at which it was last applied (`prev`). `check` walks from the channel towards
the addressed bank, asks each node on the way, and stops at the command's scope. `update_timing`
visits the addressed nodes and their siblings and raises `next` by the timing table of each level.

A standard `T` (DDR3, DDR4) gives the tables. Both declare the same commands and the same states.
A node's `level` and `id` are its place in the tree: the constructor gives the child at position `i`
the id `i` and the next level. The type `Node below` is that of the nodes with the levels `below`
under them.

Left out: the statistics of `update_timing`, and the lookups `decode`, `check_row_hit`,
`check_row_open` and `get_next`, which nothing of the controller asks. Addresses are never negative.
-/

namespace MCsim.Dram

/-- The levels of both standards; DDR3 has no bank groups. -/
inductive Level where
  | Channel | Rank | BankGroup | Bank | Row | Column
  deriving DecidableEq, Repr

/-- `T::Command`, in order. -/
inductive Command where
  | ACT_R | ACT_W | ACT | PRE | PREA
  | RD | WR | RDA | WRA
  | REF | PDE | PDX | SRE | SRX
  deriving DecidableEq, Repr

/-- `T::State`; `MAX` stands for no state. -/
inductive State where
  | Opened | Closed | PowerUp | ActPowerDown | PrePowerDown | SelfRefresh | MAX
  deriving DecidableEq, Repr

/-- `T::TimingEntry`: a command `cmd` may follow only `val` cycles after the `dist`-th last command
of the entry's own kind. -/
structure TimingEntry where
  cmd : Command
  dist : Nat
  val : Int
  sibling : Bool := false
  deriving DecidableEq, Repr

/-- What a node keeps for itself. -/
structure Fields where
  next : Command → Int
  prev : Command → List Int
  state : State
  row_state : Nat → Option State

/-- A node with the levels `below` under it. -/
inductive Node : List Level → Type where
  | bank (here : Fields) : Node []
  | node {level : Level} {below : List Level} (here : Fields) (children : Nat → Node below) :
      Node (level :: below)

namespace Node

def here : {below : List Level} → Node below → Fields
  | _, .bank f => f
  | _, .node f _ => f

/-- The node with other fields, its children kept. -/
def setHere (f : Fields) : {below : List Level} → Node below → Node below
  | _, .bank _ => .bank f
  | _, .node _ children => .node f children

/-- A change of the fields of every bank under a node. -/
def mapBanks (f : Fields → Fields) : {below : List Level} → Node below → Node below
  | _, .bank h => .bank (f h)
  | _, .node h children => .node h fun i => mapBanks f (children i)

end Node

/-- A standard: the levels under the channel that are nodes, how many children each has, and the
tables by level and command. -/
structure Standard where
  below : List Level
  count : Level → Nat
  start : Level → State
  scope : Command → Level
  timing : Level → Command → List TimingEntry
  lambda : Level → Command → {below : List Level} → Node below → Nat → Node below

variable (T : Standard)

/-! ## Construction -/

/-- The constructor's own part: no command has a time, and the history is as long as the largest
distance of the command's timing entries. -/
def freshFields (level : Level) : Fields :=
  { next := fun _ => -1
    prev := fun cmd =>
      List.replicate ((T.timing level cmd).foldl (fun dist t => max dist t.dist) 0) (-1)
    state := T.start level
    row_state := fun _ => none }

/-- The constructor. -/
def construct (level : Level) : (below : List Level) → Node below
  | [] => .bank (freshFields T level)
  | child :: below => .node (freshFields T level) fun _ => construct child below

/-- The channel of a fresh device. -/
def channel : Node T.below := construct T .Channel T.below

/-! ## check -/

/-- A command's own time at a node: `next[cmd] == -1 || clk >= next[cmd]`. -/
def Fields.due (f : Fields) (cmd : Command) (clk : Nat) : Bool :=
  f.next cmd = -1 || f.next cmd ≤ clk

/-- `check`, undefined where a child's number is out of range. -/
def check (cmd : Command) (addr : Level → Nat) (clk : Nat) (level : Level) :
    {below : List Level} → Node below → Option Bool
  | _, .bank f => some (f.due cmd clk)
  | child :: _, .node f children =>
    if f.due cmd clk = false then some false
    else if level = T.scope cmd ∨ T.count child = 0 then some true
    else if addr child < T.count child then check cmd addr clk child (children (addr child))
    else none

/-! ## update -/

/-- `next[t.cmd] = max(next[t.cmd], future)`. -/
def Fields.raise (f : Fields) (cmd : Command) (future : Int) : Fields :=
  { f with next := fun c => if c = cmd then max (f.next c) future else f.next c }

/-- The command joins its node's history, the oldest entry leaving. -/
def Fields.record (f : Fields) (cmd : Command) (clk : Nat) : Fields :=
  { f with prev := fun c =>
      if c = cmd ∧ f.prev c ≠ [] then (clk : Int) :: (f.prev c).dropLast else f.prev c }

/-- A node on the way to the target: the entries of its level that are not for siblings. -/
def Fields.applyTarget (f : Fields) (entries : List TimingEntry) (cmd : Command) (clk : Nat) :
    Fields :=
  entries.foldl (fun f t =>
    if t.sibling then f
    else
      let past := ((f.prev cmd)[t.dist - 1]?).getD (-1)
      if past < 0 then f else f.raise t.cmd (past + t.val)) (f.record cmd clk)

/-- A sibling of a node on the way: the entries that are for siblings. -/
def Fields.applySibling (f : Fields) (entries : List TimingEntry) (clk : Nat) : Fields :=
  entries.foldl (fun f t => if t.sibling then f.raise t.cmd (clk + t.val) else f) f

/-- `update_timing`, at the node with number `id` of its level. -/
def update_timing (cmd : Command) (addr : Level → Nat) (clk : Nat) (level : Level) (id : Nat) :
    {below : List Level} → Node below → Node below
  | _, .bank f =>
    if id ≠ addr level then .bank (f.applySibling (T.timing level cmd) clk)
    else .bank (f.applyTarget (T.timing level cmd) cmd clk)
  | child :: _, .node f children =>
    if id ≠ addr level then .node (f.applySibling (T.timing level cmd) clk) children
    else .node (f.applyTarget (T.timing level cmd) cmd clk) fun i =>
      update_timing cmd addr clk child i (children i)

/-- `update_state`: the command's effect at each node down to its scope, undefined where a child's
number is out of range. Under a bank the address goes on with the row. -/
def update_state (cmd : Command) (addr : Level → Nat) (level : Level) :
    (below : List Level) → Node below → Option (Node below)
  | [], n => some (T.lambda level cmd n (addr .Row))
  | child :: below, n =>
    let n := T.lambda level cmd n (addr child)
    if level = T.scope cmd ∨ T.count child = 0 then some n
    else if addr child < T.count child then
      match n with
      | .node f children =>
        (update_state cmd addr child below (children (addr child))).map fun c =>
          .node f fun i => if i = addr child then c else children i
    else none

/-- `update`, at the channel. -/
def update (cmd : Command) (addr : Level → Nat) (clk : Nat) (n : Node T.below) :
    Option (Node T.below) :=
  (update_state T cmd addr .Channel T.below n).map (update_timing T cmd addr clk .Channel 0)

/-! ## What the two standards share -/

/-- The array `scope`. The enumeration of commands was extended at its front by `ACT_R` and `ACT_W`;
the array was not, so its twelve initialisers go to the first twelve commands, two places early, and
the last two commands have the value of an omitted initialiser. -/
def extendedScope : Command → Level
  | .ACT_R => .Row | .ACT_W => .Bank | .ACT => .Rank
  | .PRE => .Column | .PREA => .Column | .RD => .Column | .WR => .Column
  | .RDA => .Rank | .WRA => .Rank | .REF => .Rank | .PDE => .Rank | .PDX => .Rank
  | .SRE => .Channel | .SRX => .Channel

def Fields.openRow (f : Fields) (id : Nat) : Fields :=
  { f with state := .Opened, row_state := fun row => if row = id then some .Opened else f.row_state row }

def Fields.close (f : Fields) : Fields := { f with state := .Closed, row_state := fun _ => none }

/-- `init_lambda`, for the commands a packet is converted to. `PREA` goes through the banks of a rank
directly, or through those of its bank groups. -/
def bankLambda (level : Level) (cmd : Command) {below : List Level} (n : Node below) (id : Nat) :
    Node below :=
  match level, cmd with
  | .Bank, .ACT | .Bank, .ACT_R | .Bank, .ACT_W => n.setHere (n.here.openRow id)
  | .Bank, .PRE | .Bank, .RDA | .Bank, .WRA => n.setHere n.here.close
  | .Rank, .PREA => n.mapBanks Fields.close
  | _, _ => n

/-- `t[first].push_back({cmd, 1, val})`. -/
def after (first cmd : Command) (val : Int) : Command × TimingEntry :=
  (first, { cmd := cmd, dist := 1, val := val })

/-- `t[first].push_back({cmd, 4, val})`. -/
def afterFour (first cmd : Command) (val : Int) : Command × TimingEntry :=
  (first, { cmd := cmd, dist := 4, val := val })

/-- `t[first].push_back({cmd, 1, val, true})`. -/
def afterSibling (first cmd : Command) (val : Int) : Command × TimingEntry :=
  (first, { cmd := cmd, dist := 1, val := val, sibling := true })

/-- The entries pushed for a command, in order. -/
def pushed (entries : List (Command × TimingEntry)) (cmd : Command) : List TimingEntry :=
  entries.filterMap fun e => if e.1 = cmd then some e.2 else none

end MCsim.Dram
