import MCsim.Dram.Adapter

/-!
# The bank timings and the gate

The timing table of the level `Bank` says how far apart two commands to one bank must be. A bank's
entry `next[c]` is the largest of what the table asks of `c` after the commands applied to the bank
(`History`), so a command is far enough from all earlier ones exactly when its entry is due.

`check` asks the bank only if the command's scope lets the walk come that far. With the scope array
as it stands, the walk of `ACT`, `RDA` and `WRA` ends at the rank, and what the bank asks of these
three is not looked at.
-/

namespace MCsim.Dram

/-! ## The addressed bank -/

/-- The fields of the bank at an address. -/
def Node.reach (addr : Level → Nat) : {below : List Level} → Node below → Fields
  | _, .bank f => f
  | child :: _, .node _ children => (children (addr child)).reach addr

/-- What the laws need of a standard: banks at the bottom, and a bank table without distances and
without siblings. -/
structure Standard.Regular (T : Standard) : Prop where
  last : T.below.getLast? = some .Bank
  counts : ∀ l ∈ T.below, T.count l ≠ 0
  upper : ∀ l ∈ T.below.dropLast, l = .Rank ∨ l = .BankGroup
  bank : ∀ cmd, ∀ e ∈ T.timing .Bank cmd, e.dist = 1 ∧ e.sibling = false
  refresh : ∀ cmd, ∀ e ∈ T.timing .Bank cmd, e.cmd ≠ .REF
  scope : T.scope = extendedScope
  lambda : @T.lambda = @bankLambda

variable {T : Standard}

theorem Fields.due_iff {f : Fields} {cmd : Command} {clk : Nat} :
    f.due cmd clk = true ↔ f.next cmd ≤ clk := by
  simp only [Fields.due, Bool.or_eq_true, decide_eq_true_eq]
  omega

/-- A walk that is not stopped on its way ends with the bank's own answer. -/
theorem check_reach {cmd : Command} {addr : Level → Nat} {clk : Nat} {below : List Level}
    (n : Node below) {level : Level} (counts : ∀ l ∈ below, T.count l ≠ 0)
    (deep : ∀ l ∈ below.dropLast, l ≠ T.scope cmd) (here : below ≠ [] → level ≠ T.scope cmd)
    (h : check T cmd addr clk level n = some true) : (n.reach addr).due cmd clk = true := by
  induction n generalizing level with
  | bank f => simpa [check, Node.reach] using h
  | @node child below f children ih =>
    have some_child := counts child List.mem_cons_self
    rw [check] at h
    split at h
    · cases h
    · rw [if_neg (by simp [here (by simp), some_child])] at h
      split at h
      · refine ih (addr child) (fun l hl => counts l (List.mem_cons_of_mem child hl)) ?_ ?_ h
        · intro l hl
          cases below with
          | nil => cases hl
          | cons b rest => exact deep l (by simpa using .inr hl)
        · intro nonempty
          obtain ⟨b, rest, rfl⟩ := List.exists_cons_of_ne_nil nonempty
          exact deep child (by simp)
      · cases h

/-! ## What a command does to the banks -/

theorem Fields.raise_next_le {f : Fields} {cmd c : Command} {future t : Int} :
    (f.raise cmd future).next c ≤ t ↔ f.next c ≤ t ∧ (c = cmd → future ≤ t) := by
  simp only [Fields.raise]
  split
  · next h =>
    subst h
    rw [Int.max_le, forall_prop_of_true rfl]
  · next h => simp [h]

/-- A target's entry after a command: no earlier than before, and no earlier than each entry of the
table asks from the command's history, this cycle included. -/
theorem Fields.applyTarget_next_le {f : Fields} {entries : List TimingEntry} {cmd c : Command}
    {clk : Nat} {t : Int} :
    (f.applyTarget entries cmd clk).next c ≤ t ↔
      f.next c ≤ t ∧ ∀ e ∈ entries, e.sibling = false → e.cmd = c → ∀ past,
        ((f.record cmd clk).prev cmd)[e.dist - 1]? = some past → 0 ≤ past → past + e.val ≤ t := by
  -- the fold leaves the history alone
  have fold : ∀ (entries : List TimingEntry) (g : Fields),
      ((entries.foldl (fun f t =>
        if t.sibling then f
        else
          let past := ((f.prev cmd)[t.dist - 1]?).getD (-1)
          if past < 0 then f else f.raise t.cmd (past + t.val)) g).next c ≤ t ↔
        g.next c ≤ t ∧ ∀ e ∈ entries, e.sibling = false → e.cmd = c → ∀ past,
          (g.prev cmd)[e.dist - 1]? = some past → 0 ≤ past → past + e.val ≤ t) := by
    intro entries
    induction entries with
    | nil => simp
    | cons e entries ih =>
      intro g
      rw [List.foldl_cons, List.forall_mem_cons]
      cases sibling : e.sibling with
      | true => simpa [sibling] using ih g
      | false =>
        cases found : (g.prev cmd)[e.dist - 1]? with
        | none => simpa [sibling, found] using ih g
        | some past =>
          by_cases never : past < 0
          · have later : ¬ 0 ≤ past := by omega
            simpa [sibling, found, never, later] using ih g
          · have asked : 0 ≤ past := by omega
            simp only [Option.getD_some, never, if_false, Bool.false_eq_true]
            rw [ih (g.raise e.cmd (past + e.val)), Fields.raise_next_le]
            constructor
            · rintro ⟨⟨before, here⟩, rest⟩
              refine ⟨before, fun _ same p hp _ => ?_, rest⟩
              exact Option.some.inj hp ▸ here same.symm
            · rintro ⟨before, here, rest⟩
              exact ⟨⟨before, fun same => here trivial same.symm past rfl asked⟩, rest⟩
  exact fold entries (f.record cmd clk)

/-- The same for a table without distances and without siblings. -/
theorem Fields.applyTarget_next_le_plain {f : Fields} {entries : List TimingEntry} {cmd c : Command}
    {clk : Nat} {t : Int} (plain : ∀ e ∈ entries, e.dist = 1 ∧ e.sibling = false)
    (history : entries ≠ [] → f.prev cmd ≠ []) :
    (f.applyTarget entries cmd clk).next c ≤ t ↔
      f.next c ≤ t ∧ ∀ e ∈ entries, e.cmd = c → (clk : Int) + e.val ≤ t := by
  rw [Fields.applyTarget_next_le]
  refine and_congr Iff.rfl (forall₂_congr fun e he => ?_)
  obtain ⟨dist, sibling⟩ := plain e he
  have now : ((f.record cmd clk).prev cmd)[e.dist - 1]? = some (clk : Int) := by
    simp [Fields.record, history (List.ne_nil_of_mem he), dist]
  rw [now]
  constructor
  · exact fun asked same => asked sibling same clk rfl (by omega)
  · intro asked _ same past found _
    exact Option.some.inj found ▸ asked same

theorem Fields.applyTarget_prev {f : Fields} {entries : List TimingEntry} {cmd : Command}
    {clk : Nat} (c : Command) :
    (f.applyTarget entries cmd clk).prev c = (f.record cmd clk).prev c := by
  have fold : ∀ (entries : List TimingEntry) (g : Fields),
      (entries.foldl (fun f t =>
        if t.sibling then f
        else
          let past := ((f.prev cmd)[t.dist - 1]?).getD (-1)
          if past < 0 then f else f.raise t.cmd (past + t.val)) g).prev c = g.prev c := by
    intro entries
    induction entries with
    | nil => exact fun g => rfl
    | cons e entries ih =>
      intro g
      rw [List.foldl_cons, ih]
      split
      · rfl
      · dsimp only
        split <;> rfl
  exact fold entries (f.record cmd clk)

/-- No entry of the table is for siblings. -/
theorem Fields.applySibling_plain {f : Fields} {entries : List TimingEntry} {clk : Nat}
    (plain : ∀ e ∈ entries, e.dist = 1 ∧ e.sibling = false) : f.applySibling entries clk = f := by
  unfold Fields.applySibling
  induction entries with
  | nil => rfl
  | cons e entries ih =>
    rw [List.foldl_cons, if_neg (by simp [(plain e List.mem_cons_self).2])]
    exact ih fun x hx => plain x (List.mem_cons_of_mem e hx)

/-- `update_timing` seen from a bank: the addressed bank applies its table, another bank beside it
the entries for siblings. -/
theorem reach_update_timing {cmd : Command} {addr addr' : Level → Nat} {clk : Nat}
    {below : List Level} (n : Node below) {level l : Level} {id : Nat} (target : id = addr level)
    (last : below.getLast? = some l) (agree : ∀ l ∈ below.dropLast, addr' l = addr l) :
    (update_timing T cmd addr clk level id n).reach addr' =
      if addr' l = addr l then (n.reach addr').applyTarget (T.timing l cmd) cmd clk
      else (n.reach addr').applySibling (T.timing l cmd) clk := by
  induction n generalizing level id with
  | bank f => cases last
  | @node child below f children ih =>
    rw [update_timing, if_neg (by simp [target])]
    simp only [Node.reach]
    cases below with
    | nil =>
      obtain rfl : child = l := by simpa using last
      cases hc : children (addr' child) with
      | bank g =>
        rw [update_timing]
        by_cases e : addr' child = addr child <;> simp [e, Node.reach]
    | cons b rest =>
      apply ih (addr' child) (agree child (by simp)) (by simpa using last)
      intro x hx
      exact agree x (by simpa using .inr hx)

/-! ## The state of the banks is beside the point -/

/-- Two banks with the same times. -/
def Fields.SameTimes (f g : Fields) : Prop := g.next = f.next ∧ g.prev = f.prev

theorem reach_setHere {below : List Level} (n : Node below) (addr : Level → Nat) {g : Fields}
    (same : n.here.SameTimes g) : (n.reach addr).SameTimes ((n.setHere g).reach addr) := by
  cases n with
  | bank f => exact same
  | node f children => exact ⟨rfl, rfl⟩

theorem reach_mapBanks {below : List Level} (n : Node below) (addr : Level → Nat)
    {g : Fields → Fields} (same : ∀ f : Fields, f.SameTimes (g f)) :
    (n.reach addr).SameTimes ((n.mapBanks g).reach addr) := by
  induction n with
  | bank f => exact same f
  | node f children ih => exact ih (addr _)

theorem reach_bankLambda (level : Level) (cmd : Command) {below : List Level} (n : Node below)
    (id : Nat) (addr : Level → Nat) :
    (n.reach addr).SameTimes ((bankLambda level cmd n id).reach addr) := by
  unfold bankLambda
  split
  · exact reach_setHere n addr ⟨rfl, rfl⟩
  · exact reach_setHere n addr ⟨rfl, rfl⟩
  · exact reach_setHere n addr ⟨rfl, rfl⟩
  · exact reach_setHere n addr ⟨rfl, rfl⟩
  · exact reach_setHere n addr ⟨rfl, rfl⟩
  · exact reach_setHere n addr ⟨rfl, rfl⟩
  · exact reach_mapBanks n addr fun f => ⟨rfl, rfl⟩
  · exact ⟨rfl, rfl⟩

/-- `update_state` changes no times. -/
theorem reach_update_state (lambda : @T.lambda = @bankLambda) {cmd : Command}
    {addr addr' : Level → Nat} {below : List Level} {n n' : Node below} {level : Level}
    (h : update_state T cmd addr level below n = some n') :
    (n.reach addr').SameTimes (n'.reach addr') := by
  induction below generalizing level with
  | nil =>
    rw [update_state, Option.some.injEq, lambda] at h
    exact h ▸ reach_bankLambda ..
  | cons child below ih =>
    rw [update_state, lambda] at h
    have here := reach_bankLambda level cmd n (addr child) addr'
    generalize bankLambda level cmd n (addr child) = m at h here
    split at h
    · rw [Option.some.injEq] at h
      exact h ▸ here
    · split at h
      · cases m with
        | node f children =>
          obtain ⟨c, hc, rfl⟩ := Option.map_eq_some_iff.mp h
          have deeper := ih hc
          simp only [Node.reach] at here ⊢
          by_cases e : addr' child = addr child
          · rw [if_pos e]
            rw [e] at here
            exact ⟨deeper.1.trans here.1, deeper.2.trans here.2⟩
          · rw [if_neg e]
            exact here
      · cases h

/-! ## A bank's entries are its history -/

/-- The way to a bank: rank and bank group are 0. -/
def bankAddr (bank : Nat) : Level → Nat
  | .Bank => bank
  | _ => 0

theorem reach_congr {below : List Level} (n : Node below) {addr addr' : Level → Nat}
    (agree : ∀ l ∈ below, addr l = addr' l) : n.reach addr = n.reach addr' := by
  induction n with
  | bank f => rfl
  | @node child below f children ih =>
    simp only [Node.reach]
    rw [agree child List.mem_cons_self]
    exact ih _ fun l hl => agree l (List.mem_cons_of_mem child hl)

/-- The fields of a bank. -/
def bankOf (n : Node T.below) (bank : Nat) : Fields := n.reach (bankAddr bank)

namespace Standard.Regular

variable (regular : T.Regular)
include regular

theorem mem_below {l : Level} (h : l ∈ T.below) : l = .Rank ∨ l = .BankGroup ∨ l = .Bank := by
  have nonempty : T.below ≠ [] := fun e => by simp [e] at h
  rw [← List.dropLast_append_getLast nonempty] at h
  rcases List.mem_append.mp h with h | h
  · rcases regular.upper l h with h | h
    · exact .inl h
    · exact .inr (.inl h)
  · have last := regular.last
    rw [List.getLast?_eq_some_getLast nonempty, Option.some.injEq] at last
    exact .inr (.inr (last ▸ List.mem_singleton.mp h))

/-- A packet goes to the bank it names. -/
theorem reach_convert_addr (n : Node T.below) (p : BusPacket) :
    n.reach (convert_addr p) = bankOf n p.bank := by
  apply reach_congr n
  intro l hl
  rcases regular.mem_below hl with rfl | rfl | rfl <;> rfl

end Standard.Regular

theorem reach_construct (level : Level) (below : List Level) (addr : Level → Nat) :
    (construct T level below).reach addr = freshFields T (below.getLast?.getD level) := by
  induction below generalizing level with
  | nil => rfl
  | cons child below ih =>
    rw [construct, Node.reach, ih]
    cases below <;> rfl

/-- The timing table asks no more than what lies between two commands: an entry for the second after
the first, on one bank, is respected. -/
def Apart (T : Standard) (x y : Timed) : Prop :=
  x.1.bank = y.1.bank → ∀ cx cy, convert_cmd x.1 = some cx → convert_cmd y.1 = some cy →
    ∀ e ∈ T.timing .Bank cx, e.cmd = cy → (x.2 : Int) + e.val ≤ y.2

/-- The entries of every bank are what the commands applied so far ask. -/
structure History (n : Node T.below) (applied : List Timed) : Prop where
  prev : ∀ bank cmd, T.timing .Bank cmd ≠ [] → (bankOf n bank).prev cmd ≠ []
  next : ∀ bank c (t : Nat), (bankOf n bank).next c ≤ t ↔
    ∀ x ∈ applied, x.1.bank = bank → ∀ cx, convert_cmd x.1 = some cx →
      ∀ e ∈ T.timing .Bank cx, e.cmd = c → (x.2 : Int) + e.val ≤ t

theorem foldl_max_pos {entries : List TimingEntry} (plain : ∀ e ∈ entries, e.dist = 1)
    (nonempty : entries ≠ []) : entries.foldl (fun dist t => max dist t.dist) 0 ≠ 0 := by
  obtain ⟨e, rest, rfl⟩ := List.exists_cons_of_ne_nil nonempty
  have grows : ∀ (l : List TimingEntry) (d : Nat), d ≤ l.foldl (fun dist t => max dist t.dist) d := by
    intro l
    induction l with
    | nil => exact fun d => Nat.le_refl d
    | cons a l ih => exact fun d => Nat.le_trans (Nat.le_max_left d a.dist) (ih _)
  have first := grows rest (max 0 e.dist)
  rw [plain e List.mem_cons_self] at first
  rw [List.foldl_cons, plain e List.mem_cons_self]
  omega

theorem history_channel (regular : T.Regular) : History (channel T) [] := by
  have fresh : ∀ bank, bankOf (channel T) bank = freshFields T .Bank := fun bank => by
    rw [bankOf, channel, reach_construct, regular.last]
    rfl
  constructor
  · intro bank cmd nonempty
    rw [fresh]
    have long := foldl_max_pos (fun e he => (regular.bank cmd e he).1) nonempty
    simp only [freshFields, ne_eq, List.replicate_eq_nil_iff]
    exact long
  · intro bank c t
    rw [fresh]
    simp only [freshFields, List.not_mem_nil, false_implies, implies_true, iff_true]
    omega

/-- A bank's entry is due exactly when the command is far enough from those before it. -/
theorem History.due_iff {n : Node T.below} {applied : List Timed} (history : History n applied)
    {y : Timed} {cy : Command} (cmd : convert_cmd y.1 = some cy) :
    (bankOf n y.1.bank).due cy y.2 = true ↔ ∀ x ∈ applied, Apart T x y := by
  rw [Fields.due_iff, history.next]
  constructor
  · intro h x hx same cx cy' hcx hcy e he hec
    obtain rfl : cy' = cy := by rw [cmd] at hcy; exact (Option.some.inj hcy).symm
    exact h x hx same cx hcx e he hec
  · intro h x hx same cx hcx e he hec
    exact h x hx same cx cy hcx cmd e he hec

/-- What was accepted is a command, and was applied to the tree. -/
theorem accept_eq_some {n n' : Node T.below} {y : Timed} {o : Unit}
    (unposted : y.1.postCommand = false) (h : accept T n y = some (n', o)) :
    ∃ cy, convert_cmd y.1 = some cy ∧
      check T cy (convert_addr y.1) y.2 .Channel n = some true ∧
      update T cy (convert_addr y.1) y.2 n = some n' := by
  unfold accept at h
  split at h
  · next checked =>
    simp only [command_check, unposted, Bool.false_eq_true, if_false] at checked
    obtain ⟨cy, cmd, checked⟩ := Option.bind_eq_some_iff.mp checked
    obtain ⟨n'', received, e⟩ := Option.map_eq_some_iff.mp h
    obtain rfl : n'' = n' := congrArg Prod.fst e
    have notData : y.1.busPacketType ≠ .DATA := fun e => by simp [convert_cmd, e] at cmd
    simp only [receiveFromBus, unposted, notData, Bool.false_eq_true, or_self, if_false, cmd,
      Option.bind_some] at received
    exact ⟨cy, cmd, checked, received⟩
  · cases h

/-- **An accepted command joins the history of its bank** and of no other. -/
theorem History.accept (regular : T.Regular) {n n' : Node T.below} {applied : List Timed}
    (history : History n applied) {y : Timed} {cy : Command} (cmd : convert_cmd y.1 = some cy)
    (updated : update T cy (convert_addr y.1) y.2 n = some n') : History n' (applied ++ [y]) := by
  obtain ⟨m, stated, rfl⟩ := Option.map_eq_some_iff.mp updated
  have plain := regular.bank cy
  have times : ∀ bank, (bankOf n bank).SameTimes (bankOf m bank) :=
    fun bank => reach_update_state regular.lambda stated
  have timed : ∀ bank, bankOf (update_timing T cy (convert_addr y.1) y.2 .Channel 0 m) bank =
      if bank = y.1.bank then (bankOf m bank).applyTarget (T.timing .Bank cy) cy y.2
      else bankOf m bank := by
    intro bank
    rw [bankOf, reach_update_timing m (by rfl) regular.last]
    · rw [Fields.applySibling_plain plain]
      rfl
    · intro l hl
      rcases regular.upper l hl with rfl | rfl <;> rfl
  constructor
  · intro bank c nonempty
    have before := history.prev bank c nonempty
    rw [timed]
    split
    · rw [Fields.applyTarget_prev]
      simp only [Fields.record, (times bank).2]
      split
      · exact List.cons_ne_nil _ _
      · exact before
    · rw [(times bank).2]
      exact before
  · intro bank c t
    rw [timed]
    simp only [List.mem_append, List.mem_singleton, or_imp, forall_and, forall_eq]
    rw [← history.next]
    split
    · next same =>
      rw [Fields.applyTarget_next_le_plain plain (fun nonempty => by
        rw [(times bank).2]
        exact history.prev bank cy nonempty), (times bank).1]
      refine and_congr Iff.rfl ⟨fun h _ cx hcx => ?_, fun h => h same.symm cy cmd⟩
      obtain rfl : cy = cx := by rw [cmd] at hcx; exact Option.some.inj hcx
      exact h
    · next other =>
      rw [(times bank).1]
      exact ⟨fun h => ⟨h, fun same => absurd same.symm other⟩, fun h => h.1⟩

/-! ## The gate -/

/-- The commands whose walk ends at the rank, before the bank is asked. -/
def skipsBank (cmd : Command) : Bool := cmd == .ACT || cmd == .RDA || cmd == .WRA

/-- Where the walk skips the bank, the bank's own entry is due. -/
def SkippedDue (n : Node T.below) (y : Timed) : Prop :=
  ∀ cy, convert_cmd y.1 = some cy → skipsBank cy = true →
    (bankOf n y.1.bank).due cy y.2 = true

/-- The walk of every other command passes the levels over the banks. -/
theorem scope_of_asked {p : BusPacket} {cmd : Command} (h : convert_cmd p = some cmd)
    (asked : skipsBank cmd = false) : cmd = .REF ∨
      (extendedScope cmd ≠ .Channel ∧ extendedScope cmd ≠ .Rank ∧ extendedScope cmd ≠ .BankGroup) := by
  unfold convert_cmd at h
  split at h <;> cases h <;> revert asked <;> decide

/-- The gate asks the bank for every other command; a refresh has no entry there. -/
theorem due_of_check (regular : T.Regular) {n : Node T.below} {applied : List Timed}
    (history : History n applied) {y : Timed} {cy : Command} (cmd : convert_cmd y.1 = some cy)
    (asked : skipsBank cy = false)
    (checked : check T cy (convert_addr y.1) y.2 .Channel n = some true) :
    (bankOf n y.1.bank).due cy y.2 = true := by
  rcases scope_of_asked cmd asked with rfl | ⟨channel, rank, group⟩
  · rw [Fields.due_iff, history.next]
    exact fun x _ _ cx _ e he hec => absurd hec (regular.refresh cx e he)
  · rw [← regular.reach_convert_addr]
    refine check_reach n regular.counts (fun l hl => ?_) (fun _ => ?_) checked
    · rw [regular.scope]
      rcases regular.upper l hl with rfl | rfl
      · exact rank.symm
      · exact group.symm
    · rw [regular.scope]
      exact channel.symm

/-- One accepted command: it is far enough from the earlier ones exactly where the entry that the
walk may have skipped is due. -/
theorem apart_iff_skippedDue (regular : T.Regular) {n : Node T.below} {applied : List Timed}
    (history : History n applied) {y : Timed} {cy : Command} (cmd : convert_cmd y.1 = some cy)
    (checked : check T cy (convert_addr y.1) y.2 .Channel n = some true) :
    (∀ x ∈ applied, Apart T x y) ↔ SkippedDue n y := by
  rw [← history.due_iff cmd]
  constructor
  · intro due cy' cmd' _
    obtain rfl : cy = cy' := by rw [cmd] at cmd'; exact Option.some.inj cmd'
    exact due
  · intro skipped
    cases h : skipsBank cy with
    | true => exact skipped cy cmd h
    | false => exact due_of_check regular history cmd h checked

/-- The declared bank timings hold between the commands of a sequence. -/
def BankSpaced (T : Standard) (seq : List Timed) : Prop := seq.Pairwise (Apart T)

/-- The condition holds along an accepted sequence exactly where the commands are far enough apart,
from each other and from those applied before. -/
theorem along_iff_spaced (regular : T.Regular) {n n' : Node T.below} {applied seq : List Timed}
    {os : List Unit} (history : History n applied) (unposted : ∀ y ∈ seq, y.1.postCommand = false)
    (ran : Lib.Machine.run (accept T) n seq = some (n', os)) :
    ((∀ x ∈ applied, ∀ y ∈ seq, Apart T x y) ∧ BankSpaced T seq) ↔
      Lib.Machine.Along (accept T) (fun n y _ _ => SkippedDue n y) n seq := by
  induction seq generalizing n applied os with
  | nil => simp [BankSpaced, Lib.Machine.Along]
  | cons y seq ih =>
    obtain ⟨m, o, os', first, rest, rfl⟩ := Lib.Machine.run_cons_eq_some.mp ran
    obtain ⟨cy, cmd, checked, updated⟩ := accept_eq_some (unposted y List.mem_cons_self) first
    have here := apart_iff_skippedDue regular history cmd checked
    have later := ih (history.accept regular cmd updated)
      (fun z hz => unposted z (List.mem_cons_of_mem y hz)) rest
    simp only [BankSpaced, List.pairwise_cons, List.mem_cons, forall_eq_or_imp, Lib.Machine.Along]
    constructor
    · rintro ⟨earlier, now, spaced⟩ m' o' step
      obtain ⟨rfl, rfl⟩ : m = m' ∧ o = o' := by simpa [first] using step
      refine ⟨here.mp fun x hx => (earlier x hx).1, later.mp ⟨fun x hx z hz => ?_, spaced⟩⟩
      rcases List.mem_append.mp hx with hx | hx
      · exact (earlier x hx).2 z hz
      · exact List.mem_singleton.mp hx ▸ now z hz
    · intro along
      obtain ⟨skipped, along⟩ := along m o first
      obtain ⟨apart, spaced⟩ := later.mpr along
      refine ⟨fun x hx => ⟨here.mpr skipped x hx, fun z hz => ?_⟩, fun z hz => ?_, spaced⟩
      · exact apart x (List.mem_append_left _ hx) z hz
      · exact apart y (List.mem_append_right _ (List.mem_singleton.mpr rfl)) z hz

/-! ## DDR3 and DDR4 -/

/-- The standards of the two adapters, on at least one rank. -/
inductive IsAdapter : Standard → Prop
  | ddr3 (org : DDR3.Org) (speed : DDR3.Speed) {ranks : Nat} (some_rank : 0 < ranks) :
      IsAdapter (DDR3.standard org speed ranks)
  | ddr4 (org : DDR4.Org) (speed : DDR4.Speed) {ranks : Nat} (some_rank : 0 < ranks) :
      IsAdapter (DDR4.standard org speed ranks)

theorem mem_pushed {entries : List (Command × TimingEntry)} {cmd : Command} {e : TimingEntry}
    (h : e ∈ pushed entries cmd) : (cmd, e) ∈ entries := by
  obtain ⟨⟨c, e'⟩, hx, hi⟩ := List.mem_filterMap.mp h
  split at hi
  · next hc =>
    obtain rfl : e' = e := by simpa using hi
    exact hc ▸ hx
  · cases hi

/-- An entry without a distance, not for siblings, and not for a refresh. -/
def PlainEntry (e : Command × TimingEntry) : Prop :=
  (e.2.dist = 1 ∧ e.2.sibling = false) ∧ e.2.cmd ≠ .REF

theorem DDR3.plain_bankTiming (s : DDR3.SpeedEntry) : ∀ e ∈ DDR3.bankTiming s, PlainEntry e := by
  simp [DDR3.bankTiming, PlainEntry, after]

theorem DDR4.plain_bankTiming (s : DDR4.SpeedEntry) : ∀ e ∈ DDR4.bankTiming s, PlainEntry e := by
  simp [DDR4.bankTiming, PlainEntry, after]

theorem IsAdapter.regular (h : IsAdapter T) : T.Regular := by
  cases h with
  | ddr3 org speed some_rank =>
    refine ⟨rfl, ?_, ?_, fun cmd e he => ?_, fun cmd e he => ?_, rfl, rfl⟩
    · intro l hl
      simp only [DDR3.standard, List.mem_cons, List.not_mem_nil, or_false] at hl
      rcases hl with rfl | rfl
      · exact Nat.pos_iff_ne_zero.mp some_rank
      · show (DDR3.org_table org).banks ≠ 0
        cases org <;> decide
    · simp [DDR3.standard]
    · exact (DDR3.plain_bankTiming _ _ (mem_pushed he)).1
    · exact (DDR3.plain_bankTiming _ _ (mem_pushed he)).2
  | ddr4 org speed some_rank =>
    refine ⟨rfl, ?_, ?_, fun cmd e he => ?_, fun cmd e he => ?_, rfl, rfl⟩
    · intro l hl
      simp only [DDR4.standard, List.mem_cons, List.not_mem_nil, or_false] at hl
      rcases hl with rfl | rfl | rfl
      · exact Nat.pos_iff_ne_zero.mp some_rank
      · show (DDR4.org_table org).bankGroups ≠ 0
        cases org <;> decide
      · show (DDR4.org_table org).banks ≠ 0
        cases org <;> decide
    · simp [DDR4.standard]
    · exact (DDR4.plain_bankTiming _ _ (mem_pushed he)).1
    · exact (DDR4.plain_bankTiming _ _ (mem_pushed he)).2

/-- **When the gate keeps the bank timings.** A sequence of commands that the gate accepted respects
every timing declared for banks exactly when each `ACT`, `RDA` and `WRA` of it came no earlier than
its bank's own entry, which the walk of these three does not ask. -/
theorem bankSpaced_iff_skippedDue (adapter : IsAdapter T) {seq : List Timed}
    (unposted : ∀ y ∈ seq, y.1.postCommand = false) {n : Node T.below} {os : List Unit}
    (ran : Lib.Machine.run (accept T) (channel T) seq = some (n, os)) :
    BankSpaced T seq ↔
      Lib.Machine.Along (accept T) (fun n y _ _ => SkippedDue n y) (channel T) seq := by
  have regular := adapter.regular
  have whole := along_iff_spaced regular (history_channel regular) unposted ran
  simpa using whole

/-- A command on the bus for a bank and a row. -/
def onBus (type : BusPacketType) (bank row : Nat) : BusPacket :=
  { busPacketType := type, requestorID := 0, address := 0, column := 0, row := row, bank := bank,
    rank := 0, subArray := 0, arriveTime := 0 }

/-- Two activations of one bank, `nRRD` cycles apart. -/
def earlyActivation : List Timed := [(onBus .ACT 0 1, 10), (onBus .ACT 0 2, 15)]

/-- An activation, its row cycle, and an access. -/
def timelyAccess : List Timed :=
  [(onBus .ACT 0 1, 10), (onBus .RD 0 1, 21), (onBus .PRE 0 1, 38), (onBus .ACT 0 2, 49)]

/-- The device that the two sequences are for. -/
def ddr3_1600K : Standard := DDR3.standard .DDR3_2Gb_x8 .DDR3_1600K 1

/-- The gate accepts a second activation of a bank after the rank's `nRRD`, far below `nRC`. -/
theorem not_bankSpaced_earlyActivation :
    ¬ ∀ (seq : List Timed) (n : Node ddr3_1600K.below) (os : List Unit),
      (∀ y ∈ seq, y.1.postCommand = false) →
      Lib.Machine.run (accept ddr3_1600K) (channel ddr3_1600K) seq = some (n, os) →
      BankSpaced ddr3_1600K seq := by
  intro sound
  have accepted : (Lib.Machine.run (accept ddr3_1600K) (channel ddr3_1600K)
      earlyActivation).isSome = true := by decide
  obtain ⟨⟨n, os⟩, ran⟩ := Option.isSome_iff_exists.mp accepted
  have spaced := sound earlyActivation n os (by decide) ran
  have apart : Apart ddr3_1600K (onBus .ACT 0 1, 10) (onBus .ACT 0 2, 15) :=
    (List.pairwise_cons.mp spaced).1 _ (List.mem_singleton.mpr rfl)
  have nRC := apart rfl .ACT .ACT rfl rfl { cmd := .ACT, dist := 1, val := 39 } (by decide) rfl
  exact absurd nRC (by decide)

/-- The law at a sequence that opens, reads, closes and reopens a bank. -/
theorem bankSpaced_iff_timelyAccess :
    ∃ n os, Lib.Machine.run (accept ddr3_1600K) (channel ddr3_1600K) timelyAccess = some (n, os) ∧
      (BankSpaced ddr3_1600K timelyAccess ↔
        Lib.Machine.Along (accept ddr3_1600K) (fun n y _ _ => SkippedDue n y) (channel ddr3_1600K)
          timelyAccess) := by
  have accepted : (Lib.Machine.run (accept ddr3_1600K) (channel ddr3_1600K)
      timelyAccess).isSome = true := by decide
  obtain ⟨⟨n, os⟩, ran⟩ := Option.isSome_iff_exists.mp accepted
  exact ⟨n, os, ran, bankSpaced_iff_skippedDue (.ddr3 .DDR3_2Gb_x8 .DDR3_1600K (by decide))
    (by decide) ran⟩

end MCsim.Dram
