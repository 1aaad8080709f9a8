import Mathlib.Data.List.Forall2
import MCsim.Laws.Gate

/-!
# The three activations

`ACT_R` and `ACT_W` were added beside `ACT` for the Round controller, to act exactly like it. They do
not: the scope array was not extended with them, so the walk of `ACT` ends at the rank and opens no
bank, while that of `ACT_R` and `ACT_W` goes on to the bank and opens its row. In the timing tables
`ACT` stands on one side and the two others on the other, and each of the three has a history of its
own, so the window of four activations is kept for each kind and not for a mixture.

What a sequence leaves open can be read off it (`leftOpen`), and what the gate answers off the tables
(`Respected`). The tables ask the same of every other command after the three activations, so only the
answers to activations can differ. A relabelled sequence behaves like its original exactly when every row
that it leaves open is left open by the original too and the tables allow its activations where they
allow the original's (`activations_alike`).
-/

namespace MCsim.Dram

open Lib.Window

variable {T : Standard}

/-! ## Rows -/

/-- What a bank has open: its state and its rows. -/
def Fields.rows (f : Fields) : State × (Nat → Option State) := (f.state, f.row_state)

def rows (n : Node T.below) (bank : Nat) : State × (Nat → Option State) := (bankOf n bank).rows

/-- Nothing is open. -/
def shut : State × (Nat → Option State) := (.Closed, fun _ => none)

theorem rows_channel (adapter : IsAdapter T) (bank : Nat) : rows (channel T) bank = shut := by
  rw [rows, bankOf, channel, reach_construct, adapter.regular.last]
  cases adapter <;> rfl

theorem Fields.applyTarget_rows (f : Fields) (entries : List TimingEntry) (cmd : Command) (clk : Nat) :
    (f.applyTarget entries cmd clk).rows = f.rows := by
  unfold Fields.applyTarget
  refine List.foldlRecOn (motive := fun g : Fields => g.rows = f.rows) entries _ rfl ?_
  intro g same e _
  split
  · exact same
  · dsimp only
    split <;> exact same

theorem Fields.applySibling_rows (f : Fields) (entries : List TimingEntry) (clk : Nat) :
    (f.applySibling entries clk).rows = f.rows := by
  unfold Fields.applySibling
  apply List.foldlRecOn (motive := fun g : Fields => g.rows = f.rows) entries _ rfl
  intro g same e _
  split <;> exact same

/-- The timing part of an update opens and closes nothing. -/
theorem rows_update_timing (regular : T.Regular) (cmd : Command) (p : BusPacket) (clk : Nat)
    (n : Node T.below) (bank : Nat) :
    rows (update_timing T cmd (convert_addr p) clk .Channel 0 n) bank = rows n bank := by
  rw [rows, bankOf, reach_update_timing n (by rfl) regular.last]
  · split
    · exact Fields.applyTarget_rows ..
    · exact Fields.applySibling_rows ..
  · intro l hl
    rcases regular.upper l hl with rfl | rfl <;> rfl

/-- What a command does at a bank. -/
def Fields.obey (f : Fields) (cmd : Command) (row : Nat) : Fields :=
  match cmd with
  | .ACT | .ACT_R | .ACT_W => f.openRow row
  | .PRE | .RDA | .WRA => f.close
  | _ => f

theorem bankLambda_bank (cmd : Command) (f : Fields) (row : Nat) :
    bankLambda .Bank cmd (.bank f) row = .bank (f.obey cmd row) := by
  cases cmd <;> rfl

/-- Over the banks only `PREA` does anything, at the rank. -/
theorem bankLambda_upper {level : Level} {cmd : Command} (upper : level ≠ .Bank)
    (plain : level = .Rank → cmd ≠ .PREA) {below : List Level} (n : Node below) (id : Nat) :
    bankLambda level cmd n id = n := by
  cases level with
  | Bank => exact absurd rfl upper
  | Rank => cases cmd <;> first | rfl | exact absurd rfl (plain rfl)
  | _ => cases cmd <;> rfl

/-- **A walk that comes down to the banks** changes the addressed one. -/
theorem reach_update_state_bank (lambda : @T.lambda = @bankLambda) {cmd : Command}
    {addr addr' : Level → Nat} {below : List Level} {n n' : Node below} {level : Level}
    (counts : ∀ l ∈ below, T.count l ≠ 0)
    (upper : ∀ l ∈ (level :: below).dropLast, l ≠ .Bank ∧ l ≠ T.scope cmd ∧ (l = .Rank → cmd ≠ .PREA))
    (last : (level :: below).getLast? = some .Bank)
    (h : update_state T cmd addr level below n = some n') :
    n'.reach addr' = if ∀ l ∈ below, addr' l = addr l then (n.reach addr').obey cmd (addr .Row)
      else n.reach addr' := by
  induction below generalizing level with
  | nil =>
    obtain rfl : level = .Bank := by simpa using last
    cases n with
    | bank f =>
      rw [update_state, lambda, bankLambda_bank, Option.some.injEq] at h
      rw [← h, if_pos (by simp)]
      rfl
  | cons child below ih =>
    obtain ⟨notBank, notScope, plain⟩ := upper level (by simp)
    have some_child := counts child List.mem_cons_self
    rw [update_state, lambda, bankLambda_upper notBank plain,
      if_neg (by simp [notScope, some_child])] at h
    split at h
    · cases n with
      | node f children =>
        obtain ⟨c, hc, rfl⟩ := Option.map_eq_some_iff.mp h
        have deeper := ih (fun l hl => counts l (List.mem_cons_of_mem child hl))
          (fun l hl => upper l (by simpa using .inr hl)) (by simpa using last) hc
        simp only [Node.reach, List.forall_mem_cons]
        by_cases here : addr' child = addr child
        · rw [if_pos here, deeper, here]
          simp
        · rw [if_neg here, if_neg (by simp [here])]
    · cases h

/-- A walk that ends at the rank changes no bank, where it is not that of `PREA`. -/
theorem reach_update_state_rank {cmd : Command} (scope : T.scope cmd = .Rank)
    (lambda : @T.lambda = @bankLambda) (plain : cmd ≠ .PREA)
    {rest : List Level} {addr addr' : Level → Nat} {n n' : Node (.Rank :: rest)}
    (h : update_state T cmd addr .Channel (.Rank :: rest) n = some n') :
    n'.reach addr' = n.reach addr' := by
  have rank : ∀ (c : Node rest) c', update_state T cmd addr .Rank rest c = some c' → c' = c := by
    intro c c' h
    cases rest with
    | nil =>
      rw [update_state, lambda, bankLambda_upper (by decide) fun _ => plain] at h
      exact (Option.some.inj h).symm
    | cons child rest =>
      rw [update_state, lambda, scope, if_pos (.inl rfl),
        bankLambda_upper (by decide) fun _ => plain] at h
      exact (Option.some.inj h).symm
  rw [update_state, lambda, bankLambda_upper (by decide) fun _ => plain] at h
  split at h
  · exact Option.some.inj h ▸ rfl
  · split at h
    · cases n with
      | node f children =>
        obtain ⟨c, hc, rfl⟩ := Option.map_eq_some_iff.mp h
        obtain rfl := rank _ c hc
        simp only [Node.reach]
        split
        · next same => rw [same]
        · rfl
    · cases h

/-- Every bank under a node is shut. -/
def Node.Shut : {below : List Level} → Node below → Prop
  | _, .bank f => f.rows = shut
  | _, .node _ children => ∀ i, (children i).Shut

theorem Node.Shut.reach {below : List Level} {n : Node below} (closed : n.Shut) (addr : Level → Nat) :
    (n.reach addr).rows = shut := by
  induction n with
  | bank f => exact closed
  | node f children ih => exact ih _ (closed _)

theorem Node.Shut.mapBanks {below : List Level} (n : Node below) : (n.mapBanks Fields.close).Shut := by
  induction n with
  | bank f => rfl
  | node f children ih => exact fun i => ih i

theorem Node.Shut.bankLambda {below : List Level} {n : Node below} (closed : n.Shut) (level : Level)
    (id : Nat) : (bankLambda level .PREA n id).Shut := by
  cases level with
  | Rank => exact Node.Shut.mapBanks n
  | _ => exact closed

/-- `PREA` opens no bank on its way down. -/
theorem Node.Shut.update_state (lambda : @T.lambda = @Dram.bankLambda) {addr : Level → Nat}
    {below : List Level} {n n' : Node below} {level : Level} (closed : n.Shut)
    (h : Dram.update_state T .PREA addr level below n = some n') : n'.Shut := by
  induction below generalizing level with
  | nil =>
    rw [Dram.update_state, lambda, Option.some.injEq] at h
    exact h ▸ closed.bankLambda level _
  | cons child below ih =>
    rw [Dram.update_state, lambda] at h
    have here := closed.bankLambda level (addr child)
    generalize Dram.bankLambda level .PREA n (addr child) = m at h here
    split at h
    · exact Option.some.inj h ▸ here
    · split at h
      · cases m with
        | node f children =>
          obtain ⟨c, hc, rfl⟩ := Option.map_eq_some_iff.mp h
          intro i
          dsimp only
          split
          · exact ih (here _) hc
          · exact here i
      · cases h

/-- `PREA` shuts every bank of the rank. -/
theorem reach_update_state_PREA (lambda : @T.lambda = @bankLambda) {rest : List Level}
    {addr addr' : Level → Nat} {n n' : Node (.Rank :: rest)} (some_rank : T.count .Rank ≠ 0)
    (deep : T.scope .PREA = .Column) (same : addr' .Rank = addr .Rank)
    (h : update_state T .PREA addr .Channel (.Rank :: rest) n = some n') :
    (n'.reach addr').rows = shut := by
  have rank : ∀ (c : Node rest) c', update_state T .PREA addr .Rank rest c = some c' → c'.Shut := by
    intro c c' h
    cases rest with
    | nil =>
      rw [update_state, lambda] at h
      exact Option.some.inj h ▸ Node.Shut.mapBanks c
    | cons child rest =>
      rw [update_state, lambda] at h
      have closed : (bankLambda .Rank .PREA c (addr child)).Shut := Node.Shut.mapBanks c
      generalize bankLambda .Rank .PREA c (addr child) = m at h closed
      split at h
      · exact Option.some.inj h ▸ closed
      · split at h
        · cases m with
          | node f children =>
            obtain ⟨d, hd, rfl⟩ := Option.map_eq_some_iff.mp h
            intro i
            dsimp only
            split
            · exact (closed _).update_state lambda hd
            · exact closed i
        · cases h
  rw [update_state, lambda, bankLambda_upper (by decide) (fun other => by cases other), deep,
    if_neg (by simp [some_rank])] at h
  split at h
  · cases n with
    | node f children =>
      obtain ⟨c, hc, rfl⟩ := Option.map_eq_some_iff.mp h
      rw [Node.reach, if_pos same]
      exact (rank _ c hc).reach addr'
  · cases h

/-- **What an update opens and closes.** -/
theorem rows_update (adapter : IsAdapter T) {n n' : Node T.below} {p : BusPacket} {clk : Nat}
    {cmd : Command} (kind : convert_cmd p = some cmd)
    (h : update T cmd (convert_addr p) clk n = some n') (bank : Nat) :
    rows n' bank = if cmd = .PREA then shut
      else if T.scope cmd ≠ .Rank ∧ bank = p.bank then ((bankOf n bank).obey cmd p.row).rows
      else rows n bank := by
  have regular := adapter.regular
  obtain ⟨m, stated, rfl⟩ := Option.map_eq_some_iff.mp h
  rw [rows_update_timing regular]
  split
  · next all =>
    subst all
    have some_rank : T.count .Rank ≠ 0 := by
      cases adapter with
      | ddr3 _ _ some_rank => exact Nat.pos_iff_ne_zero.mp some_rank
      | ddr4 _ _ some_rank => exact Nat.pos_iff_ne_zero.mp some_rank
    have same : bankAddr bank .Rank = convert_addr p .Rank := rfl
    cases adapter <;> exact reach_update_state_PREA rfl some_rank rfl same stated
  · next plain =>
    by_cases scope : T.scope cmd = .Rank
    · rw [if_neg (fun deep => deep.1 scope)]
      have same : m.reach (bankAddr bank) = n.reach (bankAddr bank) := by
        cases adapter <;> exact reach_update_state_rank scope rfl plain stated
      rw [rows, bankOf, same]
      rfl
    · have deep : T.scope cmd ≠ .Channel ∧ T.scope cmd ≠ .BankGroup := by
        rw [regular.scope]
        unfold convert_cmd at kind
        split at kind <;> cases kind <;> decide
      have nonempty : T.below ≠ [] := fun empty => by simpa [empty] using regular.last
      have came : m.reach (bankAddr bank) = if ∀ l ∈ T.below, bankAddr bank l = convert_addr p l then
          (n.reach (bankAddr bank)).obey cmd p.row else n.reach (bankAddr bank) := by
        refine reach_update_state_bank regular.lambda regular.counts (fun l hl => ?_)
          (by rw [regular.levels_eq, List.getLast?_concat]) stated
        rw [List.dropLast_cons_of_ne_nil nonempty] at hl
        rcases List.mem_cons.mp hl with rfl | hl
        · exact ⟨by decide, deep.1.symm, fun other => by cases other⟩
        · rcases regular.upper l hl with rfl | rfl
          · exact ⟨by decide, Ne.symm scope, fun _ => plain⟩
          · exact ⟨by decide, deep.2.symm, fun other => by cases other⟩
      have addressed : (∀ l ∈ T.below, bankAddr bank l = convert_addr p l) ↔ bank = p.bank := by
        constructor
        · exact fun all => all .Bank (List.mem_of_getLast? regular.last)
        · rintro rfl l hl
          rcases regular.mem_below hl with rfl | rfl | rfl <;> rfl
      rw [rows, bankOf, came]
      by_cases here : bank = p.bank
      · rw [if_pos (addressed.mpr here), if_pos ⟨scope, here⟩]
        rfl
      · rw [if_neg (mt addressed.mp here), if_neg (fun deep => here deep.2)]
        rfl

/-! ## What a sequence leaves open -/

/-- The rows that a bank has open after one more command: the walk of `ACT` does not come to the bank,
and neither do those of `RDA` and `WRA`. -/
def leave (bank : Nat) (opened : List Nat) (x : Timed) : List Nat :=
  match x.1.busPacketType with
  | .ACT_R | .ACT_W => if bank = x.1.bank then x.1.row :: opened else opened
  | .PRE => if bank = x.1.bank then [] else opened
  | .PREA => []
  | _ => opened

/-- The rows that a sequence leaves open in a bank. -/
def leftOpen (bank : Nat) (seq : List Timed) : List Nat := seq.foldl (leave bank) []

theorem leftOpen_concat (bank : Nat) (seq : List Timed) (x : Timed) :
    leftOpen bank (seq ++ [x]) = leave bank (leftOpen bank seq) x := List.foldl_concat ..

/-- A bank with rows open. -/
def opening (opened : List Nat) : State × (Nat → Option State) :=
  (if opened = [] then .Closed else .Opened, fun row => if row ∈ opened then some .Opened else none)

/-- What a bank shows after one more row was opened. -/
theorem opening_cons {f : Fields} {opened : List Nat} (before : f.rows = opening opened) (row : Nat) :
    (f.openRow row).rows = opening (row :: opened) := by
  have row_state : f.row_state = (opening opened).2 := congrArg Prod.snd before
  refine Prod.ext rfl (funext fun r => ?_)
  show (if r = row then some .Opened else f.row_state r) = if r ∈ row :: opened then some .Opened else none
  rw [row_state]
  by_cases same : r = row <;> simp [opening, same]

/-- **One update and one more command.** -/
theorem opening_update (adapter : IsAdapter T) {n n' : Node T.below} {x : Timed} {cmd : Command}
    (kind : convert_cmd x.1 = some cmd) (h : update T cmd (convert_addr x.1) x.2 n = some n') {bank : Nat}
    {opened : List Nat} (before : rows n bank = opening opened) :
    rows n' bank = opening (leave bank opened x) := by
  rw [rows_update adapter kind h, adapter.regular.scope]
  have activation : (if bank = x.1.bank then ((bankOf n bank).openRow x.1.row).rows else rows n bank) =
      opening (if bank = x.1.bank then x.1.row :: opened else opened) := by
    split
    · exact opening_cons before x.1.row
    · exact before
  have precharge : (if bank = x.1.bank then (bankOf n bank).close.rows else rows n bank) =
      opening (if bank = x.1.bank then [] else opened) := by
    split
    · rfl
    · exact before
  have unchanged : (if bank = x.1.bank then rows n bank else rows n bank) = opening opened := by
    rw [ite_self, before]
  unfold convert_cmd at kind
  unfold leave
  split at kind <;> cases kind <;> next type =>
    rw [type]
    simp only [extendedScope, Fields.obey, ne_eq, reduceCtorEq, not_false_eq_true, not_true_eq_false,
      true_and, false_and, if_false, if_true]
    first | exact before | exact activation | exact precharge | exact unchanged | rfl

theorem opening_nil : opening [] = shut := by
  simp [opening, shut]

/-! ## The answers of a sequence -/

/-- A command that reaches the tree, of a bank that exists. -/
def Reaches (T : Standard) (x : Timed) : Prop :=
  x.1.postCommand = false ∧ (convert_cmd x.1).isSome = true ∧ x.1.bank < T.count .Bank

instance (T : Standard) (x : Timed) : Decidable (Reaches T x) := inferInstanceAs (Decidable (_ ∧ _))

/-- A command is answered and applied, whatever the answer. -/
def feed (T : Standard) : Lib.Machine.Step (Node T.below) Timed (Option Bool) := fun n x =>
  (receiveFromBus T n x.1 x.2).map (·, command_check T n x.1 x.2)

/-- **The answer to a command is that of the tables**, and the command joins the books. -/
theorem Reaches.feed (adapter : IsAdapter T) {x : Timed} (reaches : Reaches T x) {n : Node T.below}
    {applied : List Timed} (kept : Kept T n applied)
    (left : ∀ bank, rows n bank = opening (leftOpen bank applied)) :
    ∃ n' b, Dram.feed T n x = some (n', some b) ∧ (b = true ↔ Respected T applied x) ∧
      Kept T n' (applied ++ [x]) ∧ ∀ bank, rows n' bank = opening (leftOpen bank (applied ++ [x])) := by
  obtain ⟨unposted, known, bank⟩ := reaches
  obtain ⟨cmd, kind⟩ := Option.isSome_iff_exists.mp known
  have exists_ := adapter.exists_ bank
  have command : x.1.busPacketType ≠ .DATA := fun data => by simp [convert_cmd, data] at kind
  obtain ⟨n', updated⟩ := exists_update cmd x.2 n exists_
  have received : receiveFromBus T n x.1 x.2 = some n' := by
    rw [receiveFromBus, if_neg (by simp [unposted, command]), kind]
    exact updated
  obtain ⟨b, answered⟩ := Option.isSome_iff_exists.mp
    (check_isSome exists_ : (check T cmd (convert_addr x.1) x.2 .Channel n).isSome = true)
  have checked : command_check T n x.1 x.2 = some b := by
    rw [command_check, unposted, if_neg Bool.false_ne_true, kind]
    exact answered
  refine ⟨n', b, by rw [Dram.feed, received, checked]; rfl, ?_, kept.update adapter.recorded kind updated,
    fun bank => ?_⟩
  · have allowed : check T cmd (convert_addr x.1) x.2 .Channel n = some true ↔
        ∀ l ∈ walk T cmd, Asked T l (applied.filter (shares l · x)) cmd x.2 := kept.check_iff exists_
    rw [answered, Option.some.injEq] at allowed
    rw [allowed]
    constructor
    · exact fun asked => ⟨cmd, kind, asked⟩
    · rintro ⟨c, kind', asked⟩
      obtain rfl := Option.some.inj (kind.symm.trans kind')
      exact asked
  · rw [leftOpen_concat]
    exact opening_update adapter kind updated (left bank)

/-- **The answers of a sequence are those of the tables**, and what it leaves open can be read off it. -/
theorem feed_run (adapter : IsAdapter T) {seq : List Timed} (reaches : ∀ x ∈ seq, Reaches T x) :
    ∃ n answers, Lib.Machine.run (feed T) (channel T) seq = some (n, answers) ∧ Kept T n seq ∧
      (∀ bank, rows n bank = opening (leftOpen bank seq)) ∧ answers.length = seq.length ∧
      ∀ k x, seq[k]? = some x → ∃ b, answers[k]? = some (some b) ∧
        (b = true ↔ Respected T (seq.take k) x) := by
  induction seq using List.reverseRecOn with
  | nil =>
    refine ⟨channel T, [], rfl, kept_channel T, fun bank => ?_, rfl, fun k x h => by simp at h⟩
    rw [rows_channel adapter, ← opening_nil]
    rfl
  | append_singleton seq y ih =>
    obtain ⟨n, answers, ran, kept, left, length, told⟩ := ih fun x hx => reaches x (by simp [hx])
    obtain ⟨n', b, fed, allowed, kept', left'⟩ := (reaches y (by simp)).feed adapter kept left
    have last : Lib.Machine.run (feed T) n [y] = some (n', [some b]) :=
      Lib.Machine.run_cons_eq_some.mpr ⟨n', some b, [], fed, rfl, rfl⟩
    refine ⟨n', answers ++ [some b], Lib.Machine.run_append_eq_some.mpr ⟨n, answers, [some b], ran, last, rfl⟩,
      kept', left', by simp [length], fun k x found => ?_⟩
    rcases Nat.lt_trichotomy k seq.length with before | rfl | after
    · rw [List.getElem?_append_left before] at found
      rw [List.getElem?_append_left (length ▸ before), List.take_append_of_le_length (Nat.le_of_lt before)]
      exact told k x found
    · rw [List.getElem?_concat_length, Option.some.injEq] at found
      subst found
      rw [← length, List.getElem?_concat_length, length, List.take_left]
      exact ⟨b, rfl, allowed⟩
    · have none : (seq ++ [y])[k]? = none := List.getElem?_eq_none (by simp; omega)
      rw [none] at found
      cases found

/-! ## Relabelling -/

/-- A command that activates. -/
def Command.activates : Command → Bool
  | .ACT | .ACT_R | .ACT_W => true
  | _ => false

/-- A packet that activates. -/
def activates (p : BusPacket) : Bool :=
  p.busPacketType == .ACT || p.busPacketType == .ACT_R || p.busPacketType == .ACT_W

theorem activates_convert {p : BusPacket} {cmd : Command} (kind : convert_cmd p = some cmd) :
    cmd.activates = activates p := by
  unfold convert_cmd at kind
  split at kind <;> cases kind <;> next type => simp [activates, type, Command.activates]

theorem exists_of_activates {p : BusPacket} (act : activates p = true) :
    ∃ cmd : Command, cmd.activates = true ∧ convert_cmd p = some cmd := by
  simp only [activates, Bool.or_eq_true, beq_iff_eq] at act
  rcases act with (type | type) | type <;>
    exact ⟨_, rfl, by rw [convert_cmd, type]⟩

/-- A command and what may stand in its place: itself, or, for an `ACT`, an `ACT_R` or `ACT_W` of the
same cycle. -/
inductive Relabels : Timed → Timed → Prop
  | same (x : Timed) : Relabels x x
  | replaced {p : BusPacket} {clk : Nat} {kind : BusPacketType} (act : p.busPacketType = .ACT)
      (other : kind = .ACT_R ∨ kind = .ACT_W) :
      Relabels (p, clk) ({ p with busPacketType := kind }, clk)

/-- Two commands alike but for the kind of an activation. -/
structure Twins (x y : Timed) : Prop where
  cycle : x.2 = y.2
  addr : convert_addr x.1 = convert_addr y.1
  kind : x = y ∨ activates x.1 = true ∧ activates y.1 = true

theorem Twins.symm {x y : Timed} (twins : Twins x y) : Twins y x :=
  ⟨twins.cycle.symm, twins.addr.symm, twins.kind.imp Eq.symm And.symm⟩

theorem Relabels.twins {x y : Timed} (relabels : Relabels x y) : Twins x y := by
  cases relabels with
  | same => exact ⟨rfl, rfl, .inl rfl⟩
  | replaced act other =>
    refine ⟨rfl, rfl, .inr ⟨by simp [activates, act], ?_⟩⟩
    rcases other with rfl | rfl <;> rfl

theorem Relabels.reaches {x y : Timed} (relabels : Relabels x y) (reaches : Reaches T x) : Reaches T y := by
  cases relabels with
  | same => exact reaches
  | replaced _ other => exact ⟨reaches.1, by rcases other with rfl | rfl <;> rfl, reaches.2.2⟩

/-- What the relabelled sequence leaves open beyond the original is what replaced activations open. -/
theorem leftOpen_subset {xs ys : List Timed} (relabelled : List.Forall₂ Relabels xs ys) (bank : Nat) :
    leftOpen bank xs ⊆ leftOpen bank ys := by
  have grows : ∀ {l l' : List Nat}, l ⊆ l' → xs.foldl (leave bank) l ⊆ ys.foldl (leave bank) l' := by
    induction relabelled with
    | nil => exact id
    | @cons x y xs ys relabels _ ih =>
      intro l l' inside
      refine ih ?_
      cases relabels with
      | same =>
        unfold leave
        split
        · split <;> simp [inside]
        · split <;> simp [inside]
        · split <;> simp [inside]
        · simp
        · exact inside
      | @replaced p clk kind act other =>
        have kept : leave bank l (p, clk) = l := by simp [leave, act]
        rw [kept]
        rcases other with rfl | rfl <;> dsimp only [leave] <;> split <;>
          first | exact List.subset_cons_of_subset _ inside | exact inside
  exact grows (List.Subset.refl [])

/-- The tables ask the same of every other command after the three activations, one command back. -/
def Standard.Even (T : Standard) : Prop := ∀ l cx, cx.activates = true →
  (T.timing l cx).filter (fun e => !e.cmd.activates) = (T.timing l .ACT).filter (fun e => !e.cmd.activates) ∧
    ((T.timing l .ACT).filter fun e => !e.cmd.activates).all (fun e => e.dist == 1) = true

theorem IsAdapter.even (adapter : IsAdapter T) : T.Even := by
  intro l cx act
  have kinds : cx = .ACT_R ∨ cx = .ACT_W ∨ cx = .ACT := by
    cases cx <;> simp [Command.activates] at act ⊢
  cases adapter <;> cases l <;> rcases kinds with rfl | rfl | rfl <;> exact ⟨rfl, rfl⟩

theorem Standard.Even.entry (even : T.Even) {l : Level} {cx cx' : Command} (act : cx.activates = true)
    (act' : cx'.activates = true) {e : TimingEntry} (he : e ∈ T.timing l cx)
    (other : e.cmd.activates = false) : e ∈ T.timing l cx' ∧ e.dist = 1 := by
  have there : e ∈ (T.timing l cx).filter fun e => !e.cmd.activates :=
    List.mem_filter.mpr ⟨he, by simp [other]⟩
  obtain ⟨same, back⟩ := even l cx act
  rw [same] at there
  refine ⟨?_, by simpa using List.all_eq_true.mp back e there⟩
  rw [← (even l cx' act').1] at there
  exact (List.mem_filter.mp there).1

theorem ofKind_twins {xs ys : List Timed} (twins : List.Forall₂ Twins xs ys) {cmd : Command}
    (other : cmd.activates = false) : ofKind cmd xs = ofKind cmd ys := by
  induction twins with
  | nil => rfl
  | @cons x y xs ys first _ ih =>
    rcases first.kind with rfl | ⟨act, act'⟩
    · unfold ofKind at ih ⊢
      rw [List.filter_cons, List.filter_cons, ih]
    · have none_ : ∀ z : Timed, activates z.1 = true → (convert_cmd z.1 == some cmd) = false := by
        intro z act
        simp only [beq_eq_false_iff_ne, ne_eq]
        intro kind
        rw [← activates_convert kind, other] at act
        cases act
      rw [ofKind, ofKind, List.filter_cons_of_neg (by simp [none_ x act]),
        List.filter_cons_of_neg (by simp [none_ y act'])]
      exact ih

/-- **What the tables ask of another command** does not tell the activations from each other. -/
theorem asked_twins (even : T.Even) {xs ys : List Timed} (twins : List.Forall₂ Twins xs ys) {l : Level}
    {c : Command} (other : c.activates = false) {t : Int} (asked : Asked T l xs c t) : Asked T l ys c t := by
  rintro cx e he own rfl y hy
  cases act : cx.activates with
  | false => exact asked cx e he own rfl y (ofKind_twins twins act ▸ hy)
  | true =>
    obtain ⟨_, back⟩ := even.entry act act he other
    rw [back, Nat.sub_self, List.rdrop_zero] at hy
    obtain ⟨there, kind⟩ := List.mem_filter.mp hy
    obtain ⟨x, hx, twin⟩ : ∃ x ∈ xs, Twins x y := by
      obtain ⟨i, bound, rfl⟩ := List.getElem_of_mem there
      have length := twins.length_eq
      exact ⟨xs[i], List.getElem_mem _, List.forall₂_iff_get.mp twins |>.2 i (length ▸ bound) bound⟩
    have kind' : convert_cmd y.1 = some cx := by simpa using kind
    obtain ⟨cx', act', known⟩ : ∃ cx' : Command, cx'.activates = true ∧ convert_cmd x.1 = some cx' := by
      rcases twin.kind with rfl | ⟨actx, _⟩
      · exact ⟨cx, act, kind'⟩
      · exact exists_of_activates actx
    obtain ⟨he', _⟩ := even.entry act act' he other
    have late := asked cx' e he' own rfl x (by
      rw [back, Nat.sub_self, List.rdrop_zero]
      exact List.mem_filter.mpr ⟨hx, by simp [known]⟩)
    rwa [twin.cycle] at late

theorem respected_twins (even : T.Even) {xs ys : List Timed} (twins : List.Forall₂ Twins xs ys) {z : Timed}
    (other : activates z.1 = false) (allowed : Respected T xs z) : Respected T ys z := by
  obtain ⟨cz, kind, asked⟩ := allowed
  refine ⟨cz, kind, fun l hl => asked_twins even ?_ ((activates_convert kind).trans other) (asked l hl)⟩
  refine List.rel_filter ?_ twins
  intro x y twin
  simp only [shares, twin.addr]

/-- **What the tables say of a relabelled sequence**: the same as of the original, of every command that
does not activate. -/
theorem respected_relabelled (even : T.Even) {xs ys : List Timed} (relabelled : List.Forall₂ Relabels xs ys)
    {z : Timed} (other : activates z.1 = false) : Respected T xs z ↔ Respected T ys z := by
  have twins : List.Forall₂ Twins xs ys := relabelled.imp fun _ _ => Relabels.twins
  exact ⟨respected_twins even twins other,
    respected_twins even (twins.flip.imp fun _ _ => Twins.symm) other⟩

/-! ## The law -/

/-- Two sequences get the same answers, each command at its cycle, and after them the same banks are open
with the same rows. -/
def Alike (T : Standard) (xs ys : List Timed) : Prop :=
  ∃ n m answers, Lib.Machine.run (feed T) (channel T) xs = some (n, answers) ∧
    Lib.Machine.run (feed T) (channel T) ys = some (m, answers) ∧ ∀ bank, rows n bank = rows m bank

/-- When a relabelling does no harm: the tables allow each activation after the commands before it where
they allow what it stands for after those of the original, and no bank is left open with a row that the
original does not leave open. -/
structure Harmless (T : Standard) (xs ys : List Timed) : Prop where
  timed : ∀ (k : Nat) x y, xs[k]? = some x → ys[k]? = some y → activates x.1 = true →
    (Respected T (xs.take k) x ↔ Respected T (ys.take k) y)
  closed : ∀ bank, leftOpen bank ys ⊆ leftOpen bank xs

theorem opening_inj {l l' : List Nat} (same : opening l = opening l') : l ⊆ l' := by
  intro row hrow
  have shown := congrFun (congrArg Prod.snd same) row
  simp only [opening, hrow, if_true] at shown
  by_contra absent
  rw [if_neg absent] at shown
  cases shown

theorem opening_congr {l l' : List Nat} (sub : l ⊆ l') (sub' : l' ⊆ l) : opening l = opening l' := by
  have none_ : l = [] ↔ l' = [] := by
    constructor
    · rintro rfl
      exact List.subset_nil.mp sub'
    · rintro rfl
      exact List.subset_nil.mp sub
  have rows_ : ∀ row, row ∈ l ↔ row ∈ l' := fun row => ⟨@sub row, @sub' row⟩
  simp only [opening, none_, rows_]

section Relabelled

variable {xs ys : List Timed} (relabelled : List.Forall₂ Relabels xs ys)

include relabelled

theorem relabels_at {k : Nat} {x y : Timed} (hx : xs[k]? = some x) (hy : ys[k]? = some y) :
    Relabels x y := by
  obtain ⟨hk, rfl⟩ := List.getElem?_eq_some_iff.mp hx
  obtain ⟨hk', rfl⟩ := List.getElem?_eq_some_iff.mp hy
  exact (List.forall₂_iff_get.mp relabelled).2 k hk hk'

theorem exists_relabelled {k : Nat} {y : Timed} (hy : ys[k]? = some y) : ∃ x, xs[k]? = some x := by
  obtain ⟨hk, _⟩ := List.getElem?_eq_some_iff.mp hy
  exact ⟨_, List.getElem?_eq_getElem (relabelled.length_eq ▸ hk)⟩

theorem reaches_relabelled (reaches : ∀ x ∈ xs, Reaches T x) : ∀ y ∈ ys, Reaches T y := by
  intro y hy
  obtain ⟨k, hk⟩ := List.mem_iff_getElem?.mp hy
  obtain ⟨x, hx⟩ := exists_relabelled relabelled hk
  exact (relabels_at relabelled hx hk).reaches (reaches x (List.mem_of_getElem? hx))

/-- Where a relabelling does no harm, the tables allow each command where they allow the original's. -/
theorem Harmless.agree (even : T.Even) (harmless : Harmless T xs ys) {k : Nat} {x y : Timed}
    (hx : xs[k]? = some x) (hy : ys[k]? = some y) :
    Respected T (xs.take k) x ↔ Respected T (ys.take k) y := by
  cases act : activates x.1 with
  | true => exact harmless.timed k x y hx hy act
  | false =>
    cases relabels_at relabelled hx hy with
    | same => exact respected_relabelled even (List.forall₂_take k relabelled) act
    | replaced isACT _ => simp [activates, isACT] at act

/-- **When a relabelled sequence behaves like its original.** -/
theorem alike_iff (adapter : IsAdapter T) (reaches : ∀ x ∈ xs, Reaches T x) :
    Alike T xs ys ↔ Harmless T xs ys := by
  have length := relabelled.length_eq
  obtain ⟨n, answers, ran, _, left, long, told⟩ := feed_run adapter reaches
  obtain ⟨m, answers', ran', _, left', long', told'⟩ := feed_run adapter
    (reaches_relabelled relabelled reaches)
  constructor
  · rintro ⟨n₁, m₁, same, ran₁, ran₁', open_⟩
    obtain ⟨rfl, rfl⟩ := Prod.mk.inj (Option.some.inj (ran.symm.trans ran₁))
    obtain ⟨rfl, rfl⟩ := Prod.mk.inj (Option.some.inj (ran'.symm.trans ran₁'))
    refine ⟨fun k x y hx hy _ => ?_, fun bank => ?_⟩
    · obtain ⟨b, found, allowed⟩ := told k x hx
      obtain ⟨b', found', allowed'⟩ := told' k y hy
      obtain rfl : b = b' := by simpa using found.symm.trans found'
      exact allowed.symm.trans allowed'
    · have shown := open_ bank
      rw [left, left'] at shown
      exact opening_inj shown.symm
  · intro harmless
    refine ⟨n, m, answers, ran, ?_, fun bank => ?_⟩
    · have same : answers' = answers := by
        refine List.ext_getElem? fun k => ?_
        cases hy : ys[k]? with
        | none =>
          have past := List.getElem?_eq_none_iff.mp hy
          rw [List.getElem?_eq_none (by omega), List.getElem?_eq_none (by omega)]
        | some y =>
          obtain ⟨x, hx⟩ := exists_relabelled relabelled hy
          obtain ⟨b, found, allowed⟩ := told k x hx
          obtain ⟨b', found', allowed'⟩ := told' k y hy
          have agree := harmless.agree relabelled adapter.even hx hy
          rw [found, found', Bool.eq_iff_iff.mpr (allowed.trans (agree.trans allowed'.symm))]
      rw [ran', same]
    · rw [left, left']
      exact opening_congr (leftOpen_subset relabelled bank) (harmless.closed bank)

end Relabelled

/-! ## The window of four activations -/

/-- `nFAW`: what the rank table asks after the fourth last `ACT`. -/
def Standard.nFAW (T : Standard) : Int :=
  (((T.timing .Rank .ACT).find? fun e => e.dist = 4).map (·.val)).getD 0

theorem DDR3.standard_nFAW (org : DDR3.Org) (speed : DDR3.Speed) (ranks : Nat) :
    (DDR3.standard org speed ranks).nFAW = (DDR3.speed_entry org speed).nFAW := rfl

theorem DDR4.standard_nFAW (org : DDR4.Org) (speed : DDR4.Speed) (ranks : Nat) :
    (DDR4.standard org speed ranks).nFAW = (DDR4.speed_entry org speed).nFAW := rfl

/-- The rank table asks `nFAW` after the fourth last `ACT`, and the walk of `ACT` comes to the rank. -/
theorem IsAdapter.window (adapter : IsAdapter T) :
    (∃ e ∈ T.timing .Rank .ACT, e.sibling = false ∧ e.cmd = .ACT ∧ e.dist = 4 ∧ e.val = T.nFAW) ∧
      .Rank ∈ walk T .ACT := by
  cases adapter with
  | ddr3 org speed _ =>
    exact ⟨⟨{ cmd := .ACT, dist := 4, val := (DDR3.speed_entry org speed).nFAW },
      List.mem_cons_of_mem _ List.mem_cons_self, rfl, rfl, rfl, rfl⟩,
      List.mem_cons_of_mem _ List.mem_cons_self⟩
  | ddr4 org speed _ =>
    exact ⟨⟨{ cmd := .ACT, dist := 4, val := (DDR4.speed_entry org speed).nFAW },
      List.mem_cons_of_mem _ List.mem_cons_self, rfl, rfl, rfl, rfl⟩,
      List.mem_cons_of_mem _ List.mem_cons_self⟩

/-- The cycles of the activations of a sequence, of any kinds. -/
def activations (seq : List Timed) : List Nat := (seq.filter fun x => activates x.1).map (·.2)

/-- No five activations of a sequence that is accepted throughout are within `nFAW` cycles. -/
def WindowKept (T : Standard) (seq : List Timed) : Prop :=
  (Lib.Machine.run (accept T) (channel T) seq).isSome = true →
    ∀ a b c d e, [a, b, c, d, e].Sublist (activations seq) → (a : Int) + T.nFAW ≤ e

/-- None of the two activations put beside `ACT`. -/
def Plain (x : Timed) : Prop := x.1.busPacketType ≠ .ACT_R ∧ x.1.busPacketType ≠ .ACT_W

instance (x : Timed) : Decidable (Plain x) := inferInstanceAs (Decidable (_ ∧ _))

theorem Plain.kind {x : Timed} (plain : Plain x) (act : activates x.1 = true) :
    convert_cmd x.1 = some .ACT := by
  have type : x.1.busPacketType = .ACT := by simpa [activates, plain.1, plain.2] using act
  rw [convert_cmd, type]

/-- **The window of `ACT`s**: what the tables allow keeps it. -/
theorem AllRespected.window (adapter : IsAdapter T) {seq : List Timed} (plain : ∀ x ∈ seq, Plain x)
    (allowed : AllRespected T seq) {a b c d e : Nat} (sub : [a, b, c, d, e].Sublist (activations seq)) :
    (a : Int) + T.nFAW ≤ e := by
  obtain ⟨acts, inside, cycles⟩ := List.sublist_map_iff.mp sub
  obtain ⟨x, from_y, rfl, rfl, cycles_y⟩ := List.map_eq_cons_iff.mp cycles.symm
  obtain ⟨y, from_z, rfl, rfl, cycles_z⟩ := List.map_eq_cons_iff.mp cycles_y
  obtain ⟨z, from_w, rfl, rfl, cycles_w⟩ := List.map_eq_cons_iff.mp cycles_z
  obtain ⟨w, from_v, rfl, rfl, cycles_v⟩ := List.map_eq_cons_iff.mp cycles_w
  obtain ⟨v, rest, rfl, rfl, none_⟩ := List.map_eq_cons_iff.mp cycles_v
  obtain rfl := List.map_eq_nil_iff.mp none_
  have kind : ∀ u ∈ [x, y, z, w, v], convert_cmd u.1 = some .ACT := by
    intro u hu
    obtain ⟨there, act⟩ := List.mem_filter.mp (inside.subset hu)
    exact (plain u there).kind act
  -- the four earlier ones are among the commands applied before the fifth
  obtain ⟨front, back, rfl, four, fifth⟩ := List.append_sublist_iff.mp
    (show ([x, y, z, w] ++ [v]).Sublist seq from inside.trans List.filter_sublist)
  obtain ⟨between, after, rfl⟩ := List.append_of_mem (List.singleton_sublist.mp fifth)
  obtain ⟨cv, kindv, asked⟩ := allowed (front ++ between) v after (by rw [List.append_assoc])
  obtain rfl := Option.some.inj ((kind v (by simp)).symm.trans kindv)
  obtain ⟨⟨entry, listed, own, next, back, value⟩, walked⟩ := adapter.window
  have rank : (front ++ between).filter (shares .Rank · v) = front ++ between :=
    List.filter_eq_self.mpr fun u _ => by simp [shares, convert_addr]
  have late := asked .Rank walked .ACT entry listed own next x (by
    rw [rank, back]
    have among : ([x, y, z, w].filter fun u => convert_cmd u.1 == some .ACT).Sublist
        (ofKind .ACT (front ++ between)) :=
      (four.trans (List.sublist_append_left front between)).filter _
    rw [List.filter_eq_self.mpr fun u hu => by simp [kind u (by simp at hu ⊢; tauto)]] at among
    exact mem_rdrop_of_sublist among rfl)
  rwa [value] at late

theorem activations_relabelled {xs ys : List Timed} (relabelled : List.Forall₂ Relabels xs ys) :
    activations ys = activations xs := by
  induction relabelled with
  | nil => rfl
  | @cons x y xs ys first _ ih =>
    have act : activates y.1 = activates x.1 := by
      cases first with
      | same => rfl
      | replaced isACT other => rcases other with rfl | rfl <;> simp [activates, isACT]
    unfold activations at ih ⊢
    rw [List.filter_cons, List.filter_cons, act]
    split
    · rw [List.map_cons, List.map_cons, ih, first.twins.cycle]
    · exact ih

theorem allRespected_of_accepted (adapter : IsAdapter T) {seq : List Timed}
    (reaches : ∀ x ∈ seq, Reaches T x)
    (accepted : (Lib.Machine.run (accept T) (channel T) seq).isSome = true) : AllRespected T seq :=
  (adapter.recorded.accepted_iff fun y hy =>
    ⟨(reaches y hy).1, adapter.exists_ (reaches y hy).2.2⟩).mp accepted

theorem AllRespected.at_ {seq : List Timed} (allowed : AllRespected T seq) {k : Nat} {x : Timed}
    (hx : seq[k]? = some x) : Respected T (seq.take k) x := by
  obtain ⟨hk, rfl⟩ := List.getElem?_eq_some_iff.mp hx
  exact allowed _ _ (seq.drop (k + 1)) (by simp)

/-- **A relabelling that does no harm keeps the window** of four `ACT`s. -/
theorem Harmless.window (adapter : IsAdapter T) {xs ys : List Timed} (reaches : ∀ x ∈ xs, Reaches T x)
    (relabelled : List.Forall₂ Relabels xs ys) (harmless : Harmless T xs ys) (plain : ∀ x ∈ xs, Plain x) :
    WindowKept T ys := by
  intro accepted a b c d e sub
  have allowed := allRespected_of_accepted adapter (reaches_relabelled relabelled reaches) accepted
  rw [activations_relabelled relabelled] at sub
  refine AllRespected.window adapter plain ?_ sub
  rintro before x after rfl
  have hx : (before ++ x :: after)[before.length]? = some x := by simp
  obtain ⟨y, hy⟩ : ∃ y, ys[before.length]? = some y :=
    ⟨_, List.getElem?_eq_getElem (relabelled.length_eq ▸ by simp)⟩
  have agree := harmless.agree relabelled adapter.even hx hy
  rw [List.take_left] at agree
  exact agree.mpr (allowed.at_ hy)

/-- **When the three activations stand for each other.** On DDR3 and DDR4 devices of every organisation
and speed, for every timed sequence of commands and every way to put `ACT_R` or `ACT_W` in the place of
some of its `ACT`s: the two sequences get the same answers and leave the same banks open with the same
rows, and where the activations of the original are `ACT`s no five of the other's are accepted within
`nFAW` cycles, exactly when the relabelling does no harm. -/
theorem activations_alike (adapter : IsAdapter T) {xs ys : List Timed} (reaches : ∀ x ∈ xs, Reaches T x)
    (relabelled : List.Forall₂ Relabels xs ys) :
    (Alike T xs ys ∧ ((∀ x ∈ xs, Plain x) → WindowKept T ys)) ↔ Harmless T xs ys := by
  rw [alike_iff relabelled adapter reaches]
  exact and_iff_left_of_imp fun harmless => harmless.window adapter reaches relabelled

/-- The activation, the access and the precharge of `timelyAccess` and the next activation, the first one
of the kind given. -/
def firstActivation (kind : BusPacketType) : List Timed :=
  [(onBus kind 0 1, 10), (onBus .RD 0 1, 21), (onBus .PRE 0 1, 38), (onBus .ACT 0 2, 49)]

/-- The law at an access whose `ACT` is replaced by `ACT_R` and whose bank is closed again. -/
theorem activations_alike_closed :
    Alike ddr3_1600K (firstActivation .ACT) (firstActivation .ACT_R) ∧
      WindowKept ddr3_1600K (firstActivation .ACT_R) := by
  have adapter : IsAdapter ddr3_1600K := .ddr3 .DDR3_2Gb_x8 .DDR3_1600K Nat.one_pos
  have allowed : AllRespected ddr3_1600K (firstActivation .ACT) :=
    allRespected_of_accepted adapter (by decide) (by decide)
  have allowed' : AllRespected ddr3_1600K (firstActivation .ACT_R) :=
    allRespected_of_accepted adapter (by decide) (by decide)
  have harmless : Harmless ddr3_1600K (firstActivation .ACT) (firstActivation .ACT_R) := by
    refine ⟨fun k x y hx hy _ => ⟨fun _ => allowed'.at_ hy, fun _ => allowed.at_ hx⟩, fun bank => ?_⟩
    by_cases here : bank = 0 <;> simp [leftOpen, leave, firstActivation, onBus, here]
  obtain ⟨alike, window⟩ := (activations_alike adapter (by decide) (.cons (.replaced rfl (.inl rfl))
    (List.forall₂_same.mpr fun x _ => .same x))).mpr harmless
  exact ⟨alike, window (by decide)⟩

/-- Five activations of five banks, some cycles apart, of the kinds given. -/
def fiveActivations (gap : Nat) (kinds : Nat → BusPacketType) : List Timed :=
  (List.range 5).map fun i => (onBus (kinds i) i 1, 10 + gap * i)

/-- One `ACT` opens no bank where an `ACT_R` opens it, and a mixture of `ACT_R` and `ACT_W` has five
activations accepted in 20 cycles, below the `nFAW` of 24. -/
theorem activations_differ :
    ¬ Alike ddr3_1600K [(onBus .ACT 0 1, 10)] [(onBus .ACT_R 0 1, 10)] ∧
    ¬ WindowKept ddr3_1600K (fiveActivations 5 fun i => if i < 3 then .ACT_R else .ACT_W) := by
  constructor
  · rintro ⟨n, m, answers, ran, ran', same⟩
    have closed : ((Lib.Machine.run (feed ddr3_1600K) (channel ddr3_1600K) [(onBus .ACT 0 1, 10)]).map
      fun r => (rows r.1 0).1) = some .Closed := by decide
    have opened : ((Lib.Machine.run (feed ddr3_1600K) (channel ddr3_1600K) [(onBus .ACT_R 0 1, 10)]).map
      fun r => (rows r.1 0).1) = some .Opened := by decide
    rw [ran, Option.map_some, same 0] at closed
    rw [ran', Option.map_some, closed] at opened
    cases opened
  · intro kept
    have close := kept (by decide) 10 15 20 25 30 (List.Sublist.refl _)
    revert close
    decide

end MCsim.Dram
