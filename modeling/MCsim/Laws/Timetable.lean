import Mathlib.Data.Nat.ModEq
import MCsim.Laws.ClosePage
import MCsim.Laws.OnDevice
import MCsim.Laws.RoundRobinWait
import MCsim.Laws.Spacing

/-!
# A timetable of accesses

The set-up of `AMC.ini` grants one request in each slot of `timeSlot` cycles. With closed pages a request
of one data bus width is an activation and a column access, and a slot is long enough for both and for the
bank to be closed again. So the grants alone fix every cycle in which a command is due (`timetable`), if
the device asks for no more time between two commands than the timetable leaves (`InTime`).
-/

namespace MCsim

open CommandGenerator RoundRobin

/-! ## Slots -/

/-- A request with the cycle in which it was granted. -/
structure Slot where
  request : Request
  start : Nat

namespace Slot

def activation (x : Slot) : BusPacket :=
  { rowCommand .ACT x.request with arriveTime := x.start % 2 ^ 32 }

/-- The column access, which closes the page. -/
def access (x : Slot) : BusPacket :=
  { rowCommand (autoCasType x.request) x.request with
    lastBeat := true
    arriveTime := x.start % 2 ^ 32 }

/-- The two commands, with the cycles in which they are due. -/
def commands (tRCD : Nat) (x : Slot) : List Dram.Timed :=
  [(x.activation, x.start), (x.access, x.start + tRCD)]

theorem access_type (x : Slot) : x.access.busPacketType = .RDA ∨ x.access.busPacketType = .WRA := by
  show autoCasType x.request = .RDA ∨ autoCasType x.request = .WRA
  unfold autoCasType
  cases x.request.requestType
  · exact .inl rfl
  · exact .inr rfl

end Slot

/-- The commands of a sequence of slots. -/
def timetable (tRCD : Nat) (slots : List Slot) : List Dram.Timed := slots.flatMap (Slot.commands tRCD)

theorem timetable_append (tRCD : Nat) (slots slots' : List Slot) :
    timetable tRCD (slots ++ slots') = timetable tRCD slots ++ timetable tRCD slots' :=
  List.flatMap_append ..

theorem timetable_singleton (tRCD : Nat) (x : Slot) : timetable tRCD [x] = x.commands tRCD := by
  simp [timetable]

/-- A width of 32 bits is not a multiple of itself, but for once itself, where the multiples wrap. -/
theorem ne_multiple {width n : Nat} (positive : 0 < width) (small : width < 2 ^ 32)
    (odd : Nat.Coprime (2 ^ 32) n) : width ≠ width * (n + 1) % 2 ^ 32 := by
  intro same
  have cycle : width ≡ width * (n + 1) [MOD 2 ^ 32] := by
    rw [Nat.ModEq, ← same, Nat.mod_eq_of_lt small]
  have divides : 2 ^ 32 ∣ width * (n + 1) - width :=
    (Nat.modEq_iff_dvd' (Nat.le_mul_of_pos_right width (Nat.succ_pos n))).mp cycle
  rw [Nat.mul_succ, Nat.add_sub_cancel] at divides
  exact absurd (Nat.le_of_dvd positive (odd.dvd_of_dvd_mul_right divides)) (by omega)

/-- What the `CLOSE` generator makes of a request of one data bus width. -/
theorem closeCommands_one {width : Nat} (positive : 0 < width) (small : width < 2 ^ 32) {r : Request}
    (one : r.requestSize = width) (bank : r.bank < 8) (clockCycle : Nat) :
    (closeCommands width r).map (stamp clockCycle) =
      [Slot.activation ⟨r, clockCycle⟩, Slot.access ⟨r, clockCycle⟩] := by
  have single : lookupTable width r.requestSize = (1, 1) := by
    have sixteen : width ≠ width * 16 % 2 ^ 32 := ne_multiple positive small (by decide)
    have eight : width ≠ width * 8 % 2 ^ 32 := ne_multiple positive small (by decide)
    have four : width ≠ width * 4 % 2 ^ 32 := ne_multiple positive small (by decide)
    have two : width ≠ width * 2 % 2 ^ 32 := ne_multiple positive small (by decide)
    rw [lookupTable, one, if_neg sixteen, if_neg eight, if_neg four, if_neg two, if_pos rfl]
  have inside : (r.bank + 0) % 16 = r.bank := Nat.mod_eq_of_lt (by omega)
  unfold closeCommands
  rw [single]
  simp only [List.range_one, List.flatMap_cons, List.flatMap_nil, List.append_nil, inside]
  rfl

/-! ## The time between commands -/

/-- The cycles that the timetable leaves at least from a command to a later one, by their types. -/
def gap (tRCD : Nat) (first second : BusPacketType) : Nat :=
  if first = .ACT then if second = .ACT then timeSlot else tRCD
  else if second = .ACT then timeSlot - tRCD else timeSlot

/-- Between two activations, and between two column accesses, it leaves a slot. -/
theorem gap_alike {tRCD : Nat} {first second : BusPacketType} (alike : first = .ACT ↔ second = .ACT) :
    gap tRCD first second = timeSlot := by
  unfold gap
  by_cases row : first = .ACT
  · rw [if_pos row, if_pos (alike.mp row)]
  · rw [if_neg row, if_neg fun row' => row (alike.mpr row')]

/-- Slots follow each other without overlapping. -/
def Spread (slots : List Slot) : Prop := slots.Pairwise fun x y => x.start + timeSlot ≤ y.start

/-- **A timetable leaves the gaps.** -/
theorem pairwise_timetable {tRCD : Nat} (short : tRCD ≤ timeSlot) {slots : List Slot}
    (spread : Spread slots) :
    (timetable tRCD slots).Pairwise fun x y =>
      x.2 + gap tRCD x.1.busPacketType y.1.busPacketType ≤ y.2 := by
  have column : ∀ x : Slot, x.access.busPacketType ≠ .ACT := fun x => by
    rcases x.access_type with type | type <;> simp [type]
  have row : ∀ x : Slot, x.activation.busPacketType = .ACT := fun _ => rfl
  induction slots with
  | nil => exact .nil
  | cons x slots ih =>
    obtain ⟨first, rest⟩ := List.pairwise_cons.mp spread
    have apart : ∀ y ∈ timetable tRCD slots,
        x.start + gap tRCD .ACT y.1.busPacketType ≤ y.2 ∧
          x.start + tRCD + gap tRCD x.access.busPacketType y.1.busPacketType ≤ y.2 := by
      intro y hy
      obtain ⟨z, hz, made⟩ := List.mem_flatMap.mp hy
      have later := first z hz
      simp only [Slot.commands, List.mem_cons, List.not_mem_nil, or_false] at made
      rcases made with rfl | rfl <;> simp only [gap, row, column, if_true, if_false] <;> omega
    have within : x.start + gap tRCD .ACT x.access.busPacketType ≤ x.start + tRCD := by
      rw [gap, if_pos rfl, if_neg (column x)]
    refine List.pairwise_cons.mpr ⟨fun y hy => ?_, List.pairwise_cons.mpr ⟨fun y hy => ?_, ih rest⟩⟩
    · rcases List.mem_cons.mp hy with rfl | hy
      · exact within
      · exact (apart y hy).1
    · exact (apart y hy).2

/-! ## Devices that ask for no more -/

/-- A command that the timetable has. -/
def OfAccess (t : BusPacketType) : Prop := t = .ACT ∨ t = .RDA ∨ t = .WRA

theorem Slot.ofAccess {tRCD : Nat} {slots : List Slot} {x : Dram.Timed} (hx : x ∈ timetable tRCD slots) :
    OfAccess x.1.busPacketType := by
  obtain ⟨z, _, made⟩ := List.mem_flatMap.mp hx
  simp only [Slot.commands, List.mem_cons, List.not_mem_nil, or_false] at made
  rcases made with rfl | rfl
  · exact .inl rfl
  · exact .inr z.access_type

theorem OfAccess.convert {p : BusPacket} (type : OfAccess p.busPacketType) :
    ∃ cmd, Dram.convert_cmd p = some cmd := by
  rcases type with type | type | type <;> exact ⟨_, by rw [Dram.convert_cmd, type]⟩

/-- **A device is in time for the timetable**: neither the tables that the gate asks nor the delays of the
queues ask for more than the gaps, and the queues hold a column access back by `tRCD`. -/
structure InTime (T : Dram.Standard) (spec : DeviceSpec) : Prop where
  opens : 0 < spec.constraints.tRCD
  short : spec.constraints.tRCD < timeSlot
  asks : ∀ {x y : BusPacket} {cx cy : Dram.Command}, OfAccess x.busPacketType →
    OfAccess y.busPacketType → Dram.convert_cmd x = some cx → Dram.convert_cmd y = some cy →
      ∀ l ∈ Dram.walk T cy, ∀ e ∈ T.timing l cx, e.sibling = false → e.cmd = cy →
        e.val ≤ gap spec.constraints.tRCD x.busPacketType y.busPacketType
  waits : ∀ {x y : BusPacketType}, OfAccess x → OfAccess y →
    spec.command_timing x y ≤ gap spec.constraints.tRCD x y
  column : ∀ {y : BusPacketType}, y = .RDA ∨ y = .WRA → spec.command_timing .ACT y = spec.constraints.tRCD

/-- **The gate takes what is due**, when everything before it was sent as the timetable has it. -/
theorem InTime.asked {T : Dram.Standard} {spec : DeviceSpec} (inTime : InTime T spec)
    {sent : List Dram.Timed} (known : ∀ x ∈ sent, OfAccess x.1.busPacketType) {y : Dram.Timed}
    (due : OfAccess y.1.busPacketType)
    (apart : ∀ x ∈ sent,
      x.2 + gap spec.constraints.tRCD x.1.busPacketType y.1.busPacketType ≤ y.2) {cy : Dram.Command}
    (kind : Dram.convert_cmd y.1 = some cy) :
    ∀ l ∈ Dram.walk T cy, Dram.Asked T l (sent.filter (Dram.shares l · y)) cy y.2 := by
  intro l hl cx e he own same x hx
  have member := List.mem_filter.mp (List.mem_of_mem_take hx)
  have there : x ∈ sent := (List.mem_filter.mp member.1).1
  have kind' : Dram.convert_cmd x.1 = some cx := by simpa using member.2
  have enough := inTime.asks (known x there) due kind' kind l hl e he own same
  have leaves := apart x there
  omega

/-! ## DDR3 -/

namespace Dram.DDR3

/-- The slot is as long as the longest access needs, a write, from its activation to the next one of its
bank. -/
def SpeedEntry.Fits (s : SpeedEntry) : Prop := s.nRCD + s.nCWL + s.nBL + s.nWR + s.nRP ≤ timeSlot

instance (s : SpeedEntry) : Decidable s.Fits := inferInstanceAs (Decidable (_ ≤ _))

/-- It is long enough for everything else between two accesses. -/
structure SpeedEntry.Roomy (s : SpeedEntry) : Prop where
  opens : 0 < s.nRCD
  bursts : s.nBL = 4
  columns : s.nCCD ≤ timeSlot
  cycle : s.nRC ≤ timeSlot
  read : s.nRCD + s.nRTP + s.nRP ≤ timeSlot
  write : s.nRCD + s.nCWL + s.nBL + s.nWR + s.nRP ≤ timeSlot
  data : s.nRCD + s.nCL + s.nCCD + 2 ≤ timeSlot
  turn : s.nCWL + s.nBL + s.nWTR ≤ timeSlot
  recovery : 0 < s.nWR
  activations : s.nRRD ≤ timeSlot
  window : s.nFAW ≤ timeSlot

theorem activations_le (org : OrgEntry) (s : SpeedEntry) :
    (init_speed org s).nRRD ≤ timeSlot ∧ (init_speed org s).nFAW ≤ timeSlot := by
  unfold init_speed timeSlot
  constructor
  · dsimp only
    split <;> split <;> decide
  · dsimp only
    split <;> split <;> decide

theorem times_le {speed : Speed} (fits : (speed_table speed).Fits) :
    0 < (speed_table speed).nRCD ∧ (speed_table speed).nBL = 4 ∧ (speed_table speed).nCCD ≤ timeSlot ∧
      (speed_table speed).nRC ≤ timeSlot ∧
      (speed_table speed).nRCD + (speed_table speed).nRTP + (speed_table speed).nRP ≤ timeSlot ∧
      (speed_table speed).nRCD + (speed_table speed).nCL + (speed_table speed).nCCD + 2 ≤ timeSlot ∧
      (speed_table speed).nCWL + (speed_table speed).nBL + (speed_table speed).nWTR ≤ timeSlot ∧
      0 < (speed_table speed).nWR := by
  revert fits
  cases speed <;> decide

theorem roomy {org : Org} {speed : Speed} (fits : (speed_entry org speed).Fits) :
    (speed_entry org speed).Roomy := by
  have short : (speed_table speed).Fits := fits
  obtain ⟨opens, bursts, columns, cycle, read, data, turn, recovery⟩ := times_le short
  obtain ⟨activations, window⟩ := activations_le (org_table org) (speed_table speed)
  exact ⟨opens, bursts, columns, cycle, read, fits, data, turn, recovery, activations, window⟩

/-- A command that the timetable has, as the tree knows it. -/
def OfAccess (cmd : Command) : Prop := cmd = .ACT ∨ cmd = .RDA ∨ cmd = .WRA

/-- The table of the channel is about commands of one kind, and a slot is longer than what it asks. -/
theorem SpeedEntry.Roomy.channel {k : SpeedEntry} (roomy : k.Roomy) {first second : Command}
    (of : OfAccess first) (of' : OfAccess second) :
    ∀ e ∈ pushed (channelTiming k) first, e.cmd = second →
      (first = .ACT ↔ second = .ACT) ∧ e.val ≤ timeSlot := by
  obtain ⟨_, _, _, _, _, _, _, _, _, _, _⟩ := roomy
  rcases of with rfl | rfl | rfl <;> rcases of' with rfl | rfl | rfl <;>
    simp [pushed, channelTiming, after] <;> omega

/-- So is that of the rank. -/
theorem SpeedEntry.Roomy.rank {k : SpeedEntry} (roomy : k.Roomy) {first second : Command}
    (of : OfAccess first) (of' : OfAccess second) :
    ∀ e ∈ pushed (rankTiming k) first, e.sibling = false → e.cmd = second →
      (first = .ACT ↔ second = .ACT) ∧ e.val ≤ timeSlot := by
  obtain ⟨_, _, _, _, _, _, _, _, _, _, _⟩ := roomy
  rcases of with rfl | rfl | rfl <;> rcases of' with rfl | rfl | rfl <;>
    simp [pushed, rankTiming, after, afterFour, afterSibling] <;> omega

end Dram.DDR3

theorem OfAccess.convert_eq {p : BusPacket} (type : OfAccess p.busPacketType) {cmd : Dram.Command}
    (kind : Dram.convert_cmd p = some cmd) :
    Dram.DDR3.OfAccess cmd ∧ (cmd = .ACT ↔ p.busPacketType = .ACT) := by
  rcases type with type | type | type
  · rw [Dram.convert_cmd, type, Option.some.injEq] at kind
    exact ⟨.inl kind.symm, by simp [type, kind.symm]⟩
  · rw [Dram.convert_cmd, type, Option.some.injEq] at kind
    exact ⟨.inr (.inl kind.symm), by simp [type, ← kind]⟩
  · rw [Dram.convert_cmd, type, Option.some.injEq] at kind
    exact ⟨.inr (.inr kind.symm), by simp [type, ← kind]⟩

variable {org : Dram.DDR3.Org} {speed : Dram.DDR3.Speed} {ranks : Nat}

/-- The bank is not asked about them: their walks end at the rank. -/
theorem walk_ddr3 {cmd : Dram.Command} (of : Dram.DDR3.OfAccess cmd) :
    Dram.walk (Dram.DDR3.standard org speed ranks) cmd = [.Channel, .Rank] := by
  rcases of with rfl | rfl | rfl <;> rfl

/-- **DDR3 is in time** where a slot is as long as a write with its precharge. -/
theorem inTime_ddr3 (fits : (Dram.DDR3.speed_entry org speed).Fits) :
    InTime (Dram.DDR3.standard org speed ranks) (Dram.DDR3.device org speed ranks) := by
  have roomy := Dram.DDR3.roomy fits
  refine ⟨roomy.opens, ?_, ?_, ?_, ?_⟩
  · show (Dram.DDR3.speed_entry org speed).nRCD < timeSlot
    have := roomy.write
    have := roomy.recovery
    omega
  · intro x y cx cy ofx ofy kindx kindy l hl e he own same
    obtain ⟨known, row⟩ := ofx.convert_eq kindx
    obtain ⟨known', row'⟩ := ofy.convert_eq kindy
    have alike : (cx = .ACT ↔ cy = .ACT) ∧ e.val ≤ timeSlot := by
      rw [walk_ddr3 known'] at hl
      simp only [List.mem_cons, List.not_mem_nil, or_false] at hl
      rcases hl with rfl | rfl
      · exact roomy.channel known known' e he same
      · exact roomy.rank known known' e he own same
    rw [gap_alike (row.symm.trans (alike.1.trans row'))]
    exact alike.2
  · intro x y ofx ofy
    show Dram.command_timing (Dram.DDR3.speed_entry org speed).bankTimes x y ≤
      gap (Dram.DDR3.speed_entry org speed).nRCD x y
    obtain ⟨opens, bursts, _, cycle, read, write, _, _, _, _, _⟩ := roomy
    rcases ofx with rfl | rfl | rfl <;> rcases ofy with rfl | rfl | rfl <;>
      simp [Dram.command_timing, gap, Dram.DDR3.SpeedEntry.bankTimes] <;> omega
  · rintro y (rfl | rfl) <;> rfl

end MCsim
