import MCsim.Laws.Gate

/-!
# One burst at a time

Every rank shares the data bus of its channel. A read puts its data on the bus `tRL` cycles after the
command, a write `tWL` cycles, each for `tBus` cycles; these are the constraints by which the device
returns data and the controller counts writes down. No part of the source looks at the bus itself: that no
two bursts meet on it is left to the entries of the rank's table between column accesses. The gate asks
them of every column access, with and without a precharge of its own, so in a sequence that it accepts the
bursts follow each other, and the bus rests for two cycles where it turns (`bursts_apart`).
-/

namespace MCsim.Dram

variable {T : Standard} {k : Constraints}

/-! ## Bursts -/

/-- A column access reads or writes. -/
def Command.direction : Command → Option Bool
  | .RD | .RDA => some true
  | .WR | .WRA => some false
  | _ => none

/-- The cycles from a column access to its data. -/
def latency (k : Constraints) (isRead : Bool) : Nat := if isRead then k.tRL else k.tWL

/-- A command's burst: its direction, and the cycle in which it starts. -/
def burst (k : Constraints) (x : Timed) : Option (Bool × Nat) :=
  ((convert_cmd x.1).bind Command.direction).map fun isRead => (isRead, x.2 + latency k isRead)

/-- The cycles between two bursts. -/
def turnaround (first second : Bool) : Nat := if first = second then 0 else 2

/-- The bursts of a sequence follow each other on the bus. -/
def BurstsApart (k : Constraints) (seq : List Timed) : Prop :=
  seq.Pairwise fun x y => ∀ b ∈ burst k x, ∀ b' ∈ burst k y,
    b.2 + k.tBus + turnaround b.1 b'.1 ≤ b'.2

theorem burst_eq_some {x : Timed} {b : Bool × Nat} (h : b ∈ burst k x) :
    ∃ cmd, convert_cmd x.1 = some cmd ∧ cmd.direction = some b.1 ∧ b.2 = x.2 + latency k b.1 := by
  obtain ⟨isRead, directed, rfl⟩ := Option.map_eq_some_iff.mp h
  obtain ⟨cmd, kind, direction⟩ := Option.bind_eq_some_iff.mp directed
  exact ⟨cmd, kind, direction, rfl⟩

theorem Command.direction_eq {cmd : Command} {isRead : Bool} (h : cmd.direction = some isRead) :
    (isRead = true ∧ (cmd = .RD ∨ cmd = .RDA)) ∨ (isRead = false ∧ (cmd = .WR ∨ cmd = .WRA)) := by
  cases cmd <;> simp_all [Command.direction]

/-! ## The entries between column accesses -/

/-- What a rank's table holds between two column accesses, by their directions. -/
def casEntry (ccd readToWrite writeToRead : Int) : Bool → Bool → Int
  | true, false => readToWrite
  | false, true => writeToRead
  | _, _ => ccd

theorem DDR3.casEntry_mem (s : DDR3.SpeedEntry) {cx cy : Command} {d d' : Bool}
    (hx : cx.direction = some d) (hy : cy.direction = some d') :
    after cx cy (casEntry s.nCCD (s.nCL + s.nCCD + 2 - s.nCWL) (s.nCWL + s.nBL + s.nWTR) d d') ∈
      DDR3.rankTiming s := by
  rcases Command.direction_eq hx with ⟨rfl, rfl | rfl⟩ | ⟨rfl, rfl | rfl⟩ <;>
    rcases Command.direction_eq hy with ⟨rfl, rfl | rfl⟩ | ⟨rfl, rfl | rfl⟩ <;>
    simp [DDR3.rankTiming, after, casEntry]

theorem DDR4.casEntry_mem (s : DDR4.SpeedEntry) {cx cy : Command} {d d' : Bool}
    (hx : cx.direction = some d) (hy : cy.direction = some d') :
    after cx cy (casEntry s.nCCDS (s.nCL + s.nCCDS + 2 - s.nCWL) (s.nCWL + s.nBL + s.nWTRS) d d') ∈
      DDR4.rankTiming s := by
  rcases Command.direction_eq hx with ⟨rfl, rfl | rfl⟩ | ⟨rfl, rfl | rfl⟩ <;>
    rcases Command.direction_eq hy with ⟨rfl, rfl | rfl⟩ | ⟨rfl, rfl | rfl⟩ <;>
    simp [DDR4.rankTiming, after, casEntry]

/-- What the law needs of a table: an entry between any two column accesses, long enough for the first
one's burst and the turn. -/
def Standard.Buses (T : Standard) (k : Constraints) : Prop :=
  ∀ {cx cy : Command} {d d' : Bool}, cx.direction = some d → cy.direction = some d' →
    ∃ e ∈ T.timing .Rank cx, e.sibling = false ∧ e.cmd = cy ∧ e.dist = 1 ∧
      (latency k d : Int) + k.tBus + turnaround d d' ≤ e.val + latency k d'

theorem mem_pushed_of {entries : List (Command × TimingEntry)} {cmd : Command} {e : TimingEntry}
    (h : (cmd, e) ∈ entries) : e ∈ pushed entries cmd :=
  List.mem_filterMap.mpr ⟨(cmd, e), h, if_pos rfl⟩

/-- Entries that leave time for a burst between two of one direction, and two cycles more where the bus
turns. -/
theorem casEntry_enough {ccd readToWrite writeToRead : Int} (same : (k.tBus : Int) ≤ ccd)
    (write : (k.tRL : Int) + k.tBus + 2 ≤ readToWrite + k.tWL)
    (read : (k.tWL : Int) + k.tBus + 2 ≤ writeToRead + k.tRL) (d d' : Bool) :
    (latency k d : Int) + k.tBus + turnaround d d' ≤
      casEntry ccd readToWrite writeToRead d d' + latency k d' := by
  cases d <;> cases d' <;> simp [latency, turnaround, casEntry] <;> omega

theorem DDR3.buses (org : DDR3.Org) (speed : DDR3.Speed) (ranks : Nat) :
    (DDR3.standard org speed ranks).Buses (DDR3.device org speed ranks).constraints := by
  intro cx cy d d' hx hy
  refine ⟨_, mem_pushed_of (DDR3.casEntry_mem (DDR3.speed_entry org speed) hx hy), rfl, rfl, rfl, ?_⟩
  have burst_le : (DDR3.speed_table speed).nBL ≤ (DDR3.speed_table speed).nCCD := by
    cases speed <;> decide
  have turn : 2 ≤ (DDR3.speed_table speed).nWTR := by
    cases speed <;> decide
  apply casEntry_enough
  · show ((DDR3.speed_table speed).nBL : Int) ≤ (DDR3.speed_table speed).nCCD
    omega
  · show ((DDR3.speed_table speed).nCL : Int) + (DDR3.speed_table speed).nBL + 2 ≤
      (DDR3.speed_table speed).nCL + (DDR3.speed_table speed).nCCD + 2 - (DDR3.speed_table speed).nCWL +
        (DDR3.speed_table speed).nCWL
    omega
  · show ((DDR3.speed_table speed).nCWL : Int) + (DDR3.speed_table speed).nBL + 2 ≤
      (DDR3.speed_table speed).nCWL + (DDR3.speed_table speed).nBL + (DDR3.speed_table speed).nWTR +
        (DDR3.speed_table speed).nCL
    omega

theorem DDR4.buses (org : DDR4.Org) (speed : DDR4.Speed) (ranks : Nat) :
    (DDR4.standard org speed ranks).Buses (DDR4.device org speed ranks).constraints := by
  intro cx cy d d' hx hy
  refine ⟨_, mem_pushed_of (DDR4.casEntry_mem (DDR4.speed_entry org speed) hx hy), rfl, rfl, rfl, ?_⟩
  have burst_le : (DDR4.speed_table speed).nBL ≤ (DDR4.speed_table speed).nCCDS := by
    cases speed <;> decide
  have turn : 2 ≤ (DDR4.speed_table speed).nWTRS := by
    cases speed <;> decide
  apply casEntry_enough
  · show ((DDR4.speed_table speed).nBL : Int) ≤ (DDR4.speed_table speed).nCCDS
    omega
  · show ((DDR4.speed_table speed).nCL : Int) + (DDR4.speed_table speed).nBL + 2 ≤
      (DDR4.speed_table speed).nCL + (DDR4.speed_table speed).nCCDS + 2 - (DDR4.speed_table speed).nCWL +
        (DDR4.speed_table speed).nCWL
    omega
  · show ((DDR4.speed_table speed).nCWL : Int) + (DDR4.speed_table speed).nBL + 2 ≤
      (DDR4.speed_table speed).nCWL + (DDR4.speed_table speed).nBL + (DDR4.speed_table speed).nWTRS +
        (DDR4.speed_table speed).nCL
    omega

/-! ## The law -/

/-- A standard with the constraints of its device. -/
inductive IsDevice : Standard → Constraints → Prop
  | ddr3 (org : DDR3.Org) (speed : DDR3.Speed) {ranks : Nat} (some_rank : 0 < ranks) :
      IsDevice (DDR3.standard org speed ranks) (DDR3.device org speed ranks).constraints
  | ddr4 (org : DDR4.Org) (speed : DDR4.Speed) {ranks : Nat} (some_rank : 0 < ranks) :
      IsDevice (DDR4.standard org speed ranks) (DDR4.device org speed ranks).constraints

theorem IsDevice.adapter (device : IsDevice T k) : IsAdapter T := by
  cases device with
  | ddr3 org speed some_rank => exact .ddr3 org speed some_rank
  | ddr4 org speed some_rank => exact .ddr4 org speed some_rank

theorem IsDevice.buses (device : IsDevice T k) : T.Buses k := by
  cases device with
  | ddr3 org speed some_rank => exact DDR3.buses org speed _
  | ddr4 org speed some_rank => exact DDR4.buses org speed _

/-- The rank is on the walk of every column access. -/
theorem IsAdapter.rank_walked (adapter : IsAdapter T) {cmd : Command} {isRead : Bool}
    (cas : cmd.direction = some isRead) : Level.Rank ∈ walk T cmd := by
  cases adapter <;>
    rcases Command.direction_eq cas with ⟨_, rfl | rfl⟩ | ⟨_, rfl | rfl⟩ <;>
    exact List.mem_cons_of_mem _ List.mem_cons_self

/-- A column access that the tables allow leaves the bus to those before it. -/
theorem burst_after (device : IsDevice T k) {before : List Timed} {x y : Timed}
    (respected : Respected T before y) (earlier : x ∈ before) {b b' : Bool × Nat}
    (first : b ∈ burst k x) (second : b' ∈ burst k y) :
    b.2 + k.tBus + turnaround b.1 b'.1 ≤ b'.2 := by
  obtain ⟨cx, kind, cas, starts⟩ := burst_eq_some first
  obtain ⟨cy, kind', cas', starts'⟩ := burst_eq_some second
  obtain ⟨cy', same, asked⟩ := respected
  obtain rfl := Option.some.inj (kind'.symm.trans same)
  obtain ⟨e, he, own, target, dist, enough⟩ := device.buses cas cas'
  have there : x ∈ (ofKind cx (before.filter (shares .Rank · y))).rdrop (e.dist - 1) := by
    have shared : x ∈ before.filter (shares .Rank · y) :=
      List.mem_filter.mpr ⟨earlier, beq_self_eq_true 0⟩
    rw [dist, Nat.sub_self, List.rdrop_zero]
    exact List.mem_filter.mpr ⟨shared, by simp [kind]⟩
  have apart := asked .Rank (device.adapter.rank_walked cas') cx e he own target x there
  omega

/-- **No two bursts meet on the data bus.** On DDR3 and DDR4 devices of every organisation and speed, for
every timed sequence of unposted commands to banks that exist: if the gate accepts it, then of any two
column accesses the burst of the later one starts only when that of the earlier one is over, and two
cycles later where one reads and the other writes. -/
theorem bursts_apart (device : IsDevice T k) {seq : List Timed}
    (unposted : ∀ y ∈ seq, y.1.postCommand = false) (banks : ∀ y ∈ seq, y.1.bank < T.count .Bank)
    (accepted : (Lib.Machine.run (accept T) (channel T) seq).isSome = true) : BurstsApart k seq := by
  have adapter := device.adapter
  have respected : AllRespected T seq := (adapter.recorded.accepted_iff fun y hy =>
    ⟨unposted y hy, adapter.exists_ (banks y hy)⟩).mp accepted
  rw [BurstsApart, List.pairwise_iff_getElem]
  intro i j hi hj before b first b' second
  have split : seq = seq.take j ++ seq[j] :: seq.drop (j + 1) := by
    rw [List.getElem_cons_drop, List.take_append_drop]
  have earlier : seq[i] ∈ seq.take j := List.mem_take_iff_getElem.mpr ⟨i, by omega, rfl⟩
  exact burst_after device (respected (seq.take j) seq[j] (seq.drop (j + 1)) split) earlier first second

/-- An activation, two reads and a write that the gate accepts. -/
def readsAndWrite : List Timed :=
  [(onBus .ACT 0 1, 10), (onBus .RD 0 1, 21), (onBus .RD 0 1, 25), (onBus .WR 0 1, 34)]

/-- The law at it: the bursts of the two reads and of the write start in the cycles 32, 36 and 42. -/
theorem bursts_apart_readsAndWrite :
    BurstsApart (DDR3.device .DDR3_2Gb_x8 .DDR3_1600K 1).constraints readsAndWrite :=
  bursts_apart (.ddr3 .DDR3_2Gb_x8 .DDR3_1600K (by decide)) (by decide) (by decide) (by decide)

end MCsim.Dram
