import MCsim.Lib.Window
import MCsim.Laws.Rest

/-!
# The gate is the tables

The tree keeps, at each node, one time for each command and the last few cycles of each command. All of
that stands for the sequence of commands applied so far: a node's time is the largest of what its table
asks after the commands that went through it, and its history is the last of them (`Books`). The tree
walks from the channel to the addressed bank and stops at the command's scope, so `command_check` accepts
a command exactly when the tables of the levels on that walk ask no more than what lies between it and the
commands before it (`Kept.check_iff`).

It follows which sequences the gate lets through, in terms of the tables and the scopes alone
(`accepted_iff_respected`). Besides the bank's timings these are those of the rank, with the four
activations of a window, the turn from reading to writing and back, and the cycles of a refresh.
-/

namespace MCsim.Dram

open Lib.Window

variable {T : Standard}

/-! ## What the tables ask -/

/-- The commands of a kind. -/
def ofKind (cmd : Command) (seq : List Timed) : List Timed :=
  seq.filter fun x => convert_cmd x.1 == some cmd

/-- Two commands go through one node of a level. -/
def shares (l : Level) (x y : Timed) : Bool := convert_addr x.1 l == convert_addr y.1 l

/-- What the table of a level asks of a command in a cycle, after the commands applied to a node: an entry
counts from each command of its first kind that has `dist - 1` later ones. -/
def Asked (T : Standard) (l : Level) (applied : List Timed) (c : Command) (t : Int) : Prop :=
  ∀ cx, ∀ e ∈ T.timing l cx, e.sibling = false → e.cmd = c →
    ∀ x ∈ (ofKind cx applied).rdrop (e.dist - 1), (x.2 : Int) + e.val ≤ t

/-- The levels that are asked of a command, from the channel down to its scope. -/
def walk (T : Standard) (cmd : Command) : List Level :=
  through (fun l => l == T.scope cmd) (.Channel :: T.below)

/-- A command may follow others: every level on its walk asks no more than what lies between. -/
def Respected (T : Standard) (applied : List Timed) (y : Timed) : Prop :=
  ∃ cy, convert_cmd y.1 = some cy ∧
    ∀ l ∈ walk T cy, Asked T l (applied.filter (shares l · y)) cy y.2

/-- Each command of a sequence may follow those before it. -/
def AllRespected (T : Standard) (seq : List Timed) : Prop :=
  ∀ before y after, seq = before ++ y :: after → Respected T before y

/-! ## The books of a node -/

/-- How many cycles a node remembers of a command. -/
def depth (T : Standard) (l : Level) (cmd : Command) : Nat :=
  (T.timing l cmd).foldl (fun dist t => max dist t.dist) 0

/-- Every entry looks back, and no further than is remembered. -/
def Standard.Looks (T : Standard) (l : Level) : Prop :=
  ∀ cmd, ∀ e ∈ T.timing l cmd, 1 ≤ e.dist ∧ e.dist ≤ depth T l cmd

/-- A node's fields stand for the commands that went through it. -/
structure Books (T : Standard) (l : Level) (f : Fields) (applied : List Timed) : Prop where
  prev : ∀ cmd, f.prev cmd = latest (depth T l cmd) (-1) ((ofKind cmd applied).map fun x => (x.2 : Int))
  next : ∀ c (t : Nat), f.next c ≤ t ↔ Asked T l applied c t

theorem Books.fresh (T : Standard) (l : Level) : Books T l (freshFields T l) [] := by
  constructor
  · exact fun cmd => (latest_nil _ _).symm
  · intro c t
    have nothing : Asked T l [] c t := fun _ _ _ _ _ x hx => absurd hx (by simp [ofKind])
    have unset : (freshFields T l).next c = -1 := rfl
    rw [unset]
    exact ⟨fun _ => nothing, fun _ => by omega⟩

theorem Books.congr {l : Level} {f g : Fields} {applied : List Timed} (books : Books T l f applied)
    (same : f.SameTimes g) : Books T l g applied := by
  constructor
  · intro cmd
    rw [same.2]
    exact books.prev cmd
  · intro c t
    rw [same.1]
    exact books.next c t

theorem ofKind_concat {cmd : Command} {x : Timed} (kind : convert_cmd x.1 = some cmd)
    (applied : List Timed) : ofKind cmd (applied ++ [x]) = ofKind cmd applied ++ [x] := by
  rw [ofKind, List.filter_append, List.filter_cons_of_pos (by simp [kind])]
  rfl

theorem ofKind_other {cmd c : Command} {x : Timed} (kind : convert_cmd x.1 = some cmd) (other : c ≠ cmd)
    (applied : List Timed) : ofKind c (applied ++ [x]) = ofKind c applied := by
  rw [ofKind, List.filter_append, List.filter_cons_of_neg (by simp [kind, Ne.symm other])]
  exact List.append_nil _

/-- What is asked after one more command: the same as before, and what the command's own entries ask from
the one that is `dist - 1` back now. -/
theorem asked_concat {l : Level} {cmd c : Command} {x : Timed} (kind : convert_cmd x.1 = some cmd)
    {applied : List Timed} {t : Int} :
    Asked T l (applied ++ [x]) c t ↔ Asked T l applied c t ∧
      ∀ e ∈ T.timing l cmd, e.sibling = false → e.cmd = c → ∀ y,
        (ofKind cmd applied ++ [x]).reverse[e.dist - 1]? = some y → (y.2 : Int) + e.val ≤ t := by
  constructor
  · intro asked
    refine ⟨fun cx e he own same y hy => asked cx e he own same y ?_, fun e he own same y hy => ?_⟩
    · by_cases h : cx = cmd
      · subst h
        rw [ofKind_concat kind, mem_rdrop_concat]
        exact .inl hy
      · rw [ofKind_other kind h]
        exact hy
    · refine asked cmd e he own same y ?_
      rw [ofKind_concat kind, mem_rdrop_concat]
      exact .inr hy
  · rintro ⟨before, now⟩ cx e he own same y hy
    by_cases h : cx = cmd
    · subst h
      rw [ofKind_concat kind, mem_rdrop_concat] at hy
      rcases hy with old | new
      · exact before cx e he own same y old
      · exact now e he own same y new
    · rw [ofKind_other kind h] at hy
      exact before cx e he own same y hy

/-- The command joins the history. -/
theorem Books.record {l : Level} {f : Fields} {applied : List Timed} (books : Books T l f applied)
    {cmd : Command} {x : Timed} (kind : convert_cmd x.1 = some cmd) (c : Command) :
    (f.record cmd x.2).prev c =
      latest (depth T l c) (-1) ((ofKind c (applied ++ [x])).map fun x => (x.2 : Int)) := by
  simp only [Fields.record]
  split
  · next h =>
    obtain ⟨rfl, remembers⟩ := h
    rw [books.prev, ne_eq, latest_eq_nil] at remembers
    rw [ofKind_concat kind, List.map_append, List.map_singleton, latest_concat remembers, books.prev]
  · next h =>
    by_cases same : c = cmd
    · subst same
      have forgets : depth T l c = 0 := by
        rw [← latest_eq_nil, ← books.prev c]
        exact not_not.mp fun remembers => h ⟨rfl, remembers⟩
      rw [books.prev, forgets]
      rfl
    · rw [ofKind_other kind same]
      exact books.prev c

/-- **A command that goes through a node joins its books.** -/
theorem Books.apply {l : Level} (looks : T.Looks l) {f : Fields} {applied : List Timed}
    (books : Books T l f applied) {cmd : Command} {x : Timed} (kind : convert_cmd x.1 = some cmd) :
    Books T l (f.applyTarget (T.timing l cmd) cmd x.2) (applied ++ [x]) := by
  constructor
  · intro c
    rw [Fields.applyTarget_prev]
    exact books.record kind c
  · intro c t
    rw [Fields.applyTarget_next_le, books.next, asked_concat kind]
    refine and_congr_right fun _ => forall₂_congr fun e he => forall₂_congr fun _ _ => ?_
    obtain ⟨back, remembered⟩ := looks cmd e he
    -- the place `dist - 1` of the history is the cycle of the command that is so far back
    rw [books.record kind cmd, getElem?_latest (by omega), ofKind_concat kind, ← List.map_reverse,
      List.getElem?_map]
    cases found : (ofKind cmd applied ++ [x]).reverse[e.dist - 1]? with
    | none => simp
    | some y => simp

/-! ## The nodes on the way -/

/-- The nodes from one of a level down to the addressed bank. -/
def Node.way (addr : Level → Nat) : Level → {below : List Level} → Node below → List (Level × Fields)
  | level, _, .bank f => [(level, f)]
  | level, child :: _, .node f children => (level, f) :: (children (addr child)).way addr child

theorem way_levels {below : List Level} (n : Node below) (addr : Level → Nat) (level : Level) :
    (n.way addr level).map Prod.fst = level :: below := by
  induction n generalizing level with
  | bank f => rfl
  | @node child below f children ih => exact congrArg (level :: ·) (ih (addr child) child)

/-- **`check` asks the nodes on the way** up to the command's scope. -/
theorem check_way {cmd : Command} {addr : Level → Nat} {clk : Nat} {below : List Level} (n : Node below)
    (level : Level) (exists_ : ∀ l ∈ below, addr l < T.count l) :
    check T cmd addr clk level n = some true ↔
      ∀ a ∈ through (fun a : Level × Fields => a.1 == T.scope cmd) (n.way addr level),
        a.2.due cmd clk = true := by
  induction n generalizing level with
  | bank f =>
    rw [check, Option.some.injEq, Node.way, through]
    split <;> simp [through]
  | @node child below f children ih =>
    have here := exists_ child List.mem_cons_self
    have some_child : T.count child ≠ 0 := by omega
    rw [check, Node.way, through]
    cases due : f.due cmd clk with
    | false =>
      rw [if_pos rfl]
      split <;> simp [due]
    | true =>
      rw [if_neg (by simp)]
      by_cases last : level = T.scope cmd
      · rw [if_pos (.inl last), if_pos (by simpa using last)]
        simp [due]
      · rw [if_neg (by simp [last, some_child]), if_pos here, if_neg (by simpa using last),
          ih (addr child) child fun l hl => exists_ l (List.mem_cons_of_mem child hl),
          List.forall_mem_cons]
        simp [due]

theorem mem_way_construct {level : Level} {below : List Level} {addr : Level → Nat} {a : Level × Fields}
    (h : a ∈ (construct T level below).way addr level) : a = (a.1, freshFields T a.1) := by
  induction below generalizing level with
  | nil => rw [List.mem_singleton.mp h]
  | cons child below ih =>
    rcases List.mem_cons.mp h with rfl | deeper
    · rfl
    · exact ih deeper

/-- Every node on a way has its times from a node on another one. -/
def TimesFrom (way way' : List (Level × Fields)) : Prop :=
  ∀ b ∈ way', ∃ a ∈ way, a.1 = b.1 ∧ a.2.SameTimes b.2

theorem TimesFrom.refl (way : List (Level × Fields)) : TimesFrom way way :=
  fun b hb => ⟨b, hb, rfl, rfl, rfl⟩

theorem TimesFrom.cons {way way' : List (Level × Fields)} (deeper : TimesFrom way way') {f g : Fields}
    (l : Level) (same : f.SameTimes g) : TimesFrom ((l, f) :: way) ((l, g) :: way') := by
  intro b hb
  rcases List.mem_cons.mp hb with rfl | hb
  · exact ⟨(l, f), List.mem_cons_self, rfl, same⟩
  · obtain ⟨a, ha, from_⟩ := deeper b hb
    exact ⟨a, List.mem_cons_of_mem _ ha, from_⟩

theorem TimesFrom.trans {way way' way'' : List (Level × Fields)} (h : TimesFrom way way')
    (h' : TimesFrom way' way'') : TimesFrom way way'' := by
  intro c hc
  obtain ⟨b, hb, level, same⟩ := h' c hc
  obtain ⟨a, ha, level', same'⟩ := h b hb
  exact ⟨a, ha, level'.trans level, same.1.trans same'.1, same.2.trans same'.2⟩

section State

variable {below : List Level} (n : Node below) (addr : Level → Nat) (level : Level)

theorem way_setHere {g : Fields} (same : n.here.SameTimes g) :
    TimesFrom (n.way addr level) ((n.setHere g).way addr level) := by
  cases n with
  | bank f => exact TimesFrom.cons (TimesFrom.refl []) level same
  | node f children => exact TimesFrom.cons (TimesFrom.refl _) level same

theorem way_mapBanks {g : Fields → Fields} (same : ∀ f : Fields, f.SameTimes (g f)) :
    TimesFrom (n.way addr level) ((n.mapBanks g).way addr level) := by
  induction n generalizing level with
  | bank f => exact TimesFrom.cons (TimesFrom.refl []) level (same f)
  | @node child below f children ih => exact TimesFrom.cons (ih (addr child) child) level ⟨rfl, rfl⟩

theorem way_bankLambda (l : Level) (cmd : Command) (id : Nat) :
    TimesFrom (n.way addr level) ((bankLambda l cmd n id).way addr level) := by
  unfold bankLambda
  split
  · exact way_setHere n addr level ⟨rfl, rfl⟩
  · exact way_setHere n addr level ⟨rfl, rfl⟩
  · exact way_setHere n addr level ⟨rfl, rfl⟩
  · exact way_setHere n addr level ⟨rfl, rfl⟩
  · exact way_setHere n addr level ⟨rfl, rfl⟩
  · exact way_setHere n addr level ⟨rfl, rfl⟩
  · exact way_mapBanks n addr level fun f => ⟨rfl, rfl⟩
  · exact TimesFrom.refl _

end State

/-- `update_state` changes no times. -/
theorem way_update_state (lambda : @T.lambda = @bankLambda) {cmd : Command} {addr addr' : Level → Nat}
    {below : List Level} {n n' : Node below} {level : Level}
    (h : update_state T cmd addr level below n = some n') :
    TimesFrom (n.way addr' level) (n'.way addr' level) := by
  induction below generalizing level with
  | nil =>
    rw [update_state, Option.some.injEq, lambda] at h
    exact h ▸ way_bankLambda n addr' level level cmd _
  | cons child below ih =>
    rw [update_state, lambda] at h
    apply (way_bankLambda n addr' level level cmd (addr child)).trans
    generalize bankLambda level cmd n (addr child) = m at h ⊢
    split at h
    · rw [Option.some.injEq] at h
      exact h ▸ TimesFrom.refl _
    · split at h
      · cases m with
        | node f children =>
          obtain ⟨c, hc, rfl⟩ := Option.map_eq_some_iff.mp h
          refine TimesFrom.cons ?_ level ⟨rfl, rfl⟩
          dsimp only
          by_cases here : addr' child = addr child
          · rw [if_pos here, here]
            exact ih hc
          · rw [if_neg here]
            exact TimesFrom.refl _
      · cases h

/-- `update_timing` on a way that leaves the command's own at its end, if at all. -/
theorem way_update_timing {cmd : Command} {addr addr' : Level → Nat} {clk : Nat} {below : List Level}
    (n : Node below) (level : Level) (agree : ∀ l ∈ (level :: below).dropLast, addr' l = addr l)
    {b : Level × Fields}
    (h : b ∈ (update_timing T cmd addr clk level (addr' level) n).way addr' level) :
    ∃ a ∈ n.way addr' level, a.1 = b.1 ∧ b.2 =
      if addr' a.1 = addr a.1 then a.2.applyTarget (T.timing a.1 cmd) cmd clk
      else a.2.applySibling (T.timing a.1 cmd) clk := by
  induction n generalizing level with
  | bank f =>
    rw [update_timing] at h
    refine ⟨(level, f), List.mem_singleton_self _, ?_⟩
    split at h
    · next away =>
      rw [List.mem_singleton.mp h, if_neg away]
      exact ⟨rfl, rfl⟩
    · next here =>
      rw [List.mem_singleton.mp h, if_pos (not_not.mp here)]
      exact ⟨rfl, rfl⟩
  | @node child below f children ih =>
    have here : addr' level = addr level := agree level (by simp)
    rw [update_timing, if_neg (by simp [here])] at h
    rcases List.mem_cons.mp h with rfl | deeper
    · exact ⟨(level, f), List.mem_cons_self, rfl, by rw [if_pos here]⟩
    · obtain ⟨a, ha, from_⟩ := ih (addr' child) child
        (fun l hl => agree l (List.mem_cons_of_mem level hl)) deeper
      exact ⟨a, List.mem_cons_of_mem _ ha, from_⟩

/-! ## The books of a tree -/

/-- What the gate's law needs of a standard: the levels over the banks have one node each that commands
go through, and the tables look back no further than is remembered. -/
structure Standard.Recorded (T : Standard) : Prop where
  regular : T.Regular
  looks : ∀ l ∈ .Channel :: T.below, T.Looks l

/-- Every node that a command can go through has its books. -/
def Kept (T : Standard) (n : Node T.below) (applied : List Timed) : Prop :=
  ∀ p : Timed, ∀ a ∈ n.way (convert_addr p.1) .Channel, Books T a.1 a.2 (applied.filter (shares a.1 · p))

theorem kept_channel (T : Standard) : Kept T (channel T) [] := by
  intro p a ha
  rw [mem_way_construct ha]
  exact Books.fresh T a.1

theorem Standard.Regular.levels_eq (regular : T.Regular) :
    .Channel :: T.below = (.Channel :: T.below).dropLast ++ [.Bank] := by
  have nonempty : T.below ≠ [] := fun empty => by simpa [empty] using regular.last
  have last := regular.last
  rw [List.getLast?_eq_some_getLast nonempty, Option.some.injEq] at last
  rw [List.dropLast_cons_of_ne_nil nonempty, List.cons_append, ← last,
    List.dropLast_append_getLast nonempty]

/-- The nodes of every level but the last are on everybody's way. -/
theorem Standard.Regular.agree (regular : T.Regular) (p q : BusPacket) :
    ∀ l ∈ (Level.Channel :: T.below).dropLast, convert_addr p l = convert_addr q l := by
  intro l hl
  have nonempty : T.below ≠ [] := fun empty => by simpa [empty] using regular.last
  rw [List.dropLast_cons_of_ne_nil nonempty] at hl
  rcases List.mem_cons.mp hl with rfl | hl
  · rfl
  · rcases regular.upper l hl with rfl | rfl <;> rfl

theorem mem_levels {n : Node T.below} {addr : Level → Nat} {a : Level × Fields}
    (h : a ∈ n.way addr .Channel) : a.1 ∈ .Channel :: T.below :=
  way_levels n addr .Channel ▸ List.mem_map_of_mem h

/-- **A command joins the books of the nodes it goes through.** -/
theorem Kept.update (standard : T.Recorded) {n n' : Node T.below} {applied : List Timed}
    (kept : Kept T n applied) {y : Timed} {cy : Command} (kind : convert_cmd y.1 = some cy)
    (updated : update T cy (convert_addr y.1) y.2 n = some n') : Kept T n' (applied ++ [y]) := by
  obtain ⟨m, stated, rfl⟩ := Option.map_eq_some_iff.mp updated
  intro p b hb
  have agree := standard.regular.agree p.1 y.1
  obtain ⟨a, ha, level, timed⟩ := way_update_timing m .Channel agree hb
  obtain ⟨a', ha', level', same⟩ := way_update_state standard.regular.lambda stated a ha
  have before : Books T a.1 a.2 (applied.filter (shares a.1 · p)) :=
    level' ▸ (kept p a' ha').congr same
  have looks := standard.looks a.1 (mem_levels ha)
  rw [← level, timed, List.filter_append]
  by_cases here : convert_addr p.1 a.1 = convert_addr y.1 a.1
  · rw [if_pos here, List.filter_cons_of_pos (by simp [shares, here]), List.filter_nil]
    exact before.apply looks kind
  · rw [if_neg here, List.filter_cons_of_neg (by simp [shares, Ne.symm here]), List.filter_nil,
      List.append_nil]
    -- ways part at the bank only
    have bank : a.1 = .Bank := by
      have inside := mem_levels ha
      rw [standard.regular.levels_eq] at inside
      rcases List.mem_append.mp inside with upper | last
      · exact absurd (agree a.1 upper) here
      · exact List.mem_singleton.mp last
    rw [bank, Fields.applySibling_plain (standard.regular.bank cy), ← bank]
    exact before

/-- **The tree's answer is that of the tables.** -/
theorem Kept.check_iff {n : Node T.below} {applied : List Timed}
    (kept : Kept T n applied) {y : Timed} {cy : Command}
    (exists_ : ∀ l ∈ T.below, convert_addr y.1 l < T.count l) :
    check T cy (convert_addr y.1) y.2 .Channel n = some true ↔
      ∀ l ∈ walk T cy, Asked T l (applied.filter (shares l · y)) cy y.2 := by
  rw [check_way n .Channel exists_, walk, ← way_levels n (convert_addr y.1) .Channel, ← map_through,
    List.forall_mem_map]
  refine forall₂_congr fun a ha => ?_
  rw [Fields.due_iff]
  exact (kept y a ((through_sublist _ _).subset ha)).next cy y.2

/-- A command of a bank that exists is accepted exactly where the tables allow it. -/
theorem Kept.accept_iff {n : Node T.below} {applied : List Timed} (kept : Kept T n applied) {y : Timed}
    (unposted : y.1.postCommand = false) (exists_ : T.Exists (convert_addr y.1)) :
    (accept T n y).isSome = true ↔ Respected T applied y := by
  constructor
  · intro taken
    obtain ⟨⟨n', o⟩, accepted⟩ := Option.isSome_iff_exists.mp taken
    obtain ⟨cy, kind, checked, _⟩ := accept_eq_some unposted accepted
    exact ⟨cy, kind, (kept.check_iff exists_).mp checked⟩
  · rintro ⟨cy, kind, asked⟩
    have checked : command_check T n y.1 y.2 = some true := by
      rw [command_check, unposted, if_neg Bool.false_ne_true, kind]
      exact (kept.check_iff exists_).mpr asked
    have command : y.1.busPacketType ≠ .DATA := fun data => by simp [convert_cmd, data] at kind
    obtain ⟨n', updated⟩ := exists_update cy y.2 n exists_
    rw [accept, if_pos checked, receiveFromBus, if_neg (by simp [unposted, command]), kind, Option.bind_some,
      updated]
    rfl

/-- **What the gate accepts is what the tables allow.** -/
theorem Standard.Recorded.accepted_iff (recorded : T.Recorded) {seq : List Timed}
    (exists_ : ∀ y ∈ seq, y.1.postCommand = false ∧ T.Exists (convert_addr y.1)) :
    (Lib.Machine.run (accept T) (channel T) seq).isSome = true ↔ AllRespected T seq := by
  refine Lib.Machine.run_isSome_iff (fun applied n => Kept T n applied)
    (fun y => y.1.postCommand = false ∧ T.Exists (convert_addr y.1)) ?_ ?_ (kept_channel T) exists_
  · exact fun kept fits => kept.accept_iff fits.1 fits.2
  · intro applied n y n' o kept fits accepted
    obtain ⟨cy, kind, _, updated⟩ := accept_eq_some fits.1 accepted
    exact kept.update recorded kind updated

/-! ## DDR3 and DDR4 -/

/-- A packet's address exists where its bank does. -/
theorem IsAdapter.exists_ (adapter : IsAdapter T) {p : BusPacket} (bank : p.bank < T.count .Bank) :
    T.Exists (convert_addr p) := by
  intro l hl
  have counts := adapter.regular.counts l hl
  rcases adapter.regular.mem_below hl with rfl | rfl | rfl
  · exact Nat.pos_iff_ne_zero.mpr counts
  · exact Nat.pos_iff_ne_zero.mpr counts
  · exact bank

theorem dist_le_depth {l : Level} {cmd : Command} {e : TimingEntry} (he : e ∈ T.timing l cmd) :
    e.dist ≤ depth T l cmd := by
  have grows : ∀ (entries : List TimingEntry) (d : Nat),
      d ≤ entries.foldl (fun dist t => max dist t.dist) d ∧
        ∀ e ∈ entries, e.dist ≤ entries.foldl (fun dist t => max dist t.dist) d := by
    intro entries
    induction entries with
    | nil => exact fun d => ⟨Nat.le_refl d, fun e he => by cases he⟩
    | cons a entries ih =>
      intro d
      obtain ⟨least, rest⟩ := ih (max d a.dist)
      refine ⟨Nat.le_trans (Nat.le_max_left d a.dist) least, fun e he => ?_⟩
      rcases List.mem_cons.mp he with rfl | he
      · exact Nat.le_trans (Nat.le_max_right d e.dist) least
      · exact rest e he
  exact (grows (T.timing l cmd) 0).2 e he

/-- The tables of both standards look one or four commands back. -/
def Back (entries : List (Command × TimingEntry)) : Prop := ∀ x ∈ entries, 1 ≤ x.2.dist

theorem Back.pushed {entries : List (Command × TimingEntry)} (back : Back entries) {cmd : Command}
    {e : TimingEntry} (he : e ∈ pushed entries cmd) : 1 ≤ e.dist :=
  back _ (mem_pushed he)

theorem DDR3.back (s : DDR3.SpeedEntry) (l : Level) (cmd : Command) :
    ∀ e ∈ DDR3.timing s l cmd, 1 ≤ e.dist := by
  intro e he
  cases l with
  | Channel => exact Back.pushed (by simp [Back, DDR3.channelTiming, after]) he
  | Rank => exact Back.pushed (by simp [Back, DDR3.rankTiming, after, afterFour, afterSibling]) he
  | Bank => exact Back.pushed (by simp [Back, DDR3.bankTiming, after]) he
  | BankGroup => cases he
  | Row => cases he
  | Column => cases he

theorem DDR4.back (s : DDR4.SpeedEntry) (l : Level) (cmd : Command) :
    ∀ e ∈ DDR4.timing s l cmd, 1 ≤ e.dist := by
  intro e he
  cases l with
  | Channel => exact Back.pushed (by simp [Back, DDR4.channelTiming, after]) he
  | Rank => exact Back.pushed (by simp [Back, DDR4.rankTiming, after, afterFour, afterSibling]) he
  | BankGroup => exact Back.pushed (by simp [Back, DDR4.bankGroupTiming, after]) he
  | Bank => exact Back.pushed (by simp [Back, DDR4.bankTiming, after]) he
  | Row => cases he
  | Column => cases he

theorem IsAdapter.recorded (adapter : IsAdapter T) : T.Recorded := by
  refine ⟨adapter.regular, fun l _ cmd e he => ⟨?_, dist_le_depth he⟩⟩
  cases adapter with
  | ddr3 org speed some_rank => exact DDR3.back _ l cmd e he
  | ddr4 org speed some_rank => exact DDR4.back _ l cmd e he

/-- **The gate is the tables.** On DDR3 and DDR4 devices of every organisation and speed, for every timed
sequence of unposted commands to banks that exist: the gate accepts the whole sequence exactly when, for
each command of it, no table of a level on the command's walk asks more than what lies between it and the
commands before it. -/
theorem accepted_iff_respected (adapter : IsAdapter T) {seq : List Timed}
    (unposted : ∀ y ∈ seq, y.1.postCommand = false) (banks : ∀ y ∈ seq, y.1.bank < T.count .Bank) :
    (Lib.Machine.run (accept T) (channel T) seq).isSome = true ↔ AllRespected T seq :=
  adapter.recorded.accepted_iff fun y hy => ⟨unposted y hy, adapter.exists_ (banks y hy)⟩

/-- The law at a sequence that opens, reads, closes and reopens a bank. -/
theorem accepted_iff_respected_timelyAccess : AllRespected ddr3_1600K timelyAccess :=
  (accepted_iff_respected (.ddr3 .DDR3_2Gb_x8 .DDR3_1600K (by decide)) (by decide) (by decide)).mp
    (by decide)

end MCsim.Dram
