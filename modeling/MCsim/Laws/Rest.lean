import MCsim.Laws.BankTiming

/-!
# A DRAM tree comes to rest

Every time in the tree was written by a command: it is the cycle of one of the last commands and an entry
of the tables. So no time lies further ahead than the longest entry of the tables, counted from the last
command applied, and once that long has passed `check` answers true for every command whose address
exists.
-/

namespace MCsim.Dram

variable {T : Standard}

/-! ## Every node of a tree -/

/-- Every node of a tree satisfies a predicate. -/
def Node.All (P : Fields → Prop) : {below : List Level} → Node below → Prop
  | _, .bank f => P f
  | _, .node f children => P f ∧ ∀ i, (children i).All P

/-- A predicate of the times. -/
def OfTimes (P : Fields → Prop) : Prop := ∀ {f g : Fields}, f.SameTimes g → P f → P g

namespace Node.All

variable {P Q : Fields → Prop} {below : List Level}

theorem mono (weaker : ∀ f, P f → Q f) {n : Node below} (all : n.All P) : n.All Q := by
  induction n with
  | bank f => exact weaker f all
  | node f children ih => exact ⟨weaker f all.1, fun i => ih i (all.2 i)⟩

theorem construct {level : Level} (fresh : ∀ level, P (freshFields T level)) :
    (Dram.construct T level below).All P := by
  induction below generalizing level with
  | nil => exact fresh level
  | cons child below ih => exact ⟨fresh level, fun _ => ih⟩

theorem here {n : Node below} (all : n.All P) : P n.here := by
  cases n with
  | bank f => exact all
  | node f children => exact all.1

theorem setHere {n : Node below} (all : n.All P) {f : Fields} (hf : P f) : (n.setHere f).All P := by
  cases n with
  | bank g => exact hf
  | node g children => exact ⟨hf, all.2⟩

theorem mapBanks {n : Node below} (all : n.All P) {f : Fields → Fields} (keep : ∀ g, P g → P (f g)) :
    (n.mapBanks f).All P := by
  induction n with
  | bank g => exact keep g all
  | node g children ih => exact ⟨all.1, fun i => ih i (all.2 i)⟩

/-- The state of the banks is beside the point. -/
theorem bankLambda (times : OfTimes P) {n : Node below} (all : n.All P) (level : Level) (cmd : Command)
    (id : Nat) : (Dram.bankLambda level cmd n id).All P := by
  have opened : P (n.here.openRow id) :=
    times (show n.here.SameTimes (n.here.openRow id) from ⟨rfl, rfl⟩) all.here
  have closed : ∀ f : Fields, P f → P f.close := fun f hf =>
    times (show f.SameTimes f.close from ⟨rfl, rfl⟩) hf
  unfold Dram.bankLambda
  split
  · exact all.setHere opened
  · exact all.setHere opened
  · exact all.setHere opened
  · exact all.setHere (closed _ all.here)
  · exact all.setHere (closed _ all.here)
  · exact all.setHere (closed _ all.here)
  · exact all.mapBanks closed
  · exact all

theorem update_state (times : OfTimes P) (lambda : @T.lambda = @Dram.bankLambda) {cmd : Command}
    {addr : Level → Nat} {n n' : Node below} {level : Level} (all : n.All P)
    (h : Dram.update_state T cmd addr level below n = some n') : n'.All P := by
  induction below generalizing level with
  | nil =>
    rw [Dram.update_state, Option.some.injEq, lambda] at h
    exact h ▸ all.bankLambda times ..
  | cons child below ih =>
    rw [Dram.update_state, lambda] at h
    have here := all.bankLambda times level cmd (addr child)
    generalize Dram.bankLambda level cmd n (addr child) = m at h here
    split at h
    · rw [Option.some.injEq] at h
      exact h ▸ here
    · split at h
      · cases m with
        | node f children =>
          obtain ⟨c, hc, rfl⟩ := Option.map_eq_some_iff.mp h
          refine ⟨here.1, fun i => ?_⟩
          dsimp only
          split
          · exact ih (here.2 (addr child)) hc
          · exact here.2 i
      · cases h

theorem update_timing {clk : Nat} {cmd : Command} {addr : Level → Nat} {n : Node below} {level : Level}
    (target : ∀ level f, P f → Q (f.applyTarget (T.timing level cmd) cmd clk))
    (sibling : ∀ level f, P f → Q (f.applySibling (T.timing level cmd) clk))
    (beside : ∀ f, P f → Q f) (all : n.All P) (id : Nat) :
    (Dram.update_timing T cmd addr clk level id n).All Q := by
  induction n generalizing level id with
  | bank f =>
    rw [Dram.update_timing]
    split
    · exact sibling level f all
    · exact target level f all
  | node f children ih =>
    rw [Dram.update_timing]
    split
    · exact ⟨sibling level f all.1, fun i => (all.2 i).mono beside⟩
    · exact ⟨target level f all.1, fun i => ih i (all.2 i) i⟩

end Node.All

/-! ## Times and the longest entry -/

/-- No entry of the tables is longer. -/
def Standard.Longest (T : Standard) (longest : Nat) : Prop :=
  ∀ level cmd, ∀ e ∈ T.timing level cmd, e.val ≤ longest

/-- All that a node knows was written by a cycle. -/
structure Fields.By (longest : Nat) (t : Int) (f : Fields) : Prop where
  next : ∀ cmd, f.next cmd ≤ t + longest
  prev : ∀ cmd, ∀ past ∈ f.prev cmd, past ≤ t

namespace Fields.By

variable {longest : Nat} {t t' : Int} {f : Fields}

theorem mono (h : f.By longest t) (later : t ≤ t') : f.By longest t' :=
  ⟨fun cmd => by have := h.next cmd; omega, fun cmd past hp => by have := h.prev cmd past hp; omega⟩

theorem ofTimes : OfTimes (Fields.By longest t) := fun same h =>
  ⟨fun cmd => same.1 ▸ h.next cmd, fun cmd => same.2 ▸ h.prev cmd⟩

theorem fresh (T : Standard) (level : Level) (longest : Nat) (t : Nat) :
    (freshFields T level).By longest t := by
  refine ⟨fun cmd => ?_, fun cmd past hp => ?_⟩
  · have : (freshFields T level).next cmd = -1 := rfl
    omega
  · have := List.eq_of_mem_replicate hp
    omega

theorem record {clk : Nat} (h : f.By longest t) (now : (clk : Int) ≤ t) (cmd : Command) :
    ∀ c, ∀ past ∈ (f.record cmd clk).prev c, past ≤ t := by
  intro c past hp
  simp only [Fields.record] at hp
  split at hp
  · rcases List.mem_cons.mp hp with rfl | hp
    · exact now
    · exact h.prev c past (List.dropLast_subset _ hp)
  · exact h.prev c past hp

theorem applyTarget {clk : Nat} (h : f.By longest t) (now : (clk : Int) ≤ t)
    {entries : List TimingEntry} (short : ∀ e ∈ entries, e.val ≤ longest) (cmd : Command) :
    (f.applyTarget entries cmd clk).By longest t := by
  refine ⟨fun c => ?_, fun c past hp => ?_⟩
  · rw [Fields.applyTarget_next_le]
    refine ⟨h.next c, fun e he _ _ past found _ => ?_⟩
    have := h.record now cmd cmd past (List.mem_of_getElem? found)
    have := short e he
    omega
  · rw [Fields.applyTarget_prev] at hp
    exact h.record now cmd c past hp

theorem applySibling {clk : Nat} (h : f.By longest t) (now : (clk : Int) ≤ t)
    {entries : List TimingEntry} (short : ∀ e ∈ entries, e.val ≤ longest) :
    (f.applySibling entries clk).By longest t := by
  unfold Fields.applySibling
  induction entries generalizing f with
  | nil => exact h
  | cons e entries ih =>
    rw [List.foldl_cons]
    apply ih _ fun x hx => short x (List.mem_cons_of_mem e hx)
    split
    · refine ⟨fun c => ?_, h.prev⟩
      rw [Fields.raise_next_le]
      refine ⟨h.next c, fun _ => ?_⟩
      have := short e List.mem_cons_self
      omega
    · exact h

end Fields.By

/-- **A command writes only its own cycle and what the tables ask from there.** -/
theorem by_update {longest clk : Nat} {t : Int} (longest_ : T.Longest longest)
    (lambda : @T.lambda = @bankLambda) {n n' : Node T.below} (all : n.All (Fields.By longest t))
    (now : (clk : Int) ≤ t) {cmd : Command} {addr : Level → Nat}
    (h : update T cmd addr clk n = some n') : n'.All (Fields.By longest t) := by
  obtain ⟨m, stated, rfl⟩ := Option.map_eq_some_iff.mp h
  have kept := all.update_state Fields.By.ofTimes lambda stated
  exact kept.update_timing (fun level f hf => hf.applyTarget now (longest_ level cmd) cmd)
    (fun level f hf => hf.applySibling now (longest_ level cmd)) (fun _ => id) 0

/-! ## Answers and definedness -/

/-- Every child on the way exists. -/
def Standard.Exists (T : Standard) (addr : Level → Nat) : Prop := ∀ l ∈ T.below, addr l < T.count l

/-- **A tree at rest takes every command** whose address exists. -/
theorem check_of_rest {longest clk : Nat} {t : Int} (cmd : Command) {addr : Level → Nat}
    {below : List Level} {n : Node below} (level : Level) (all : n.All (Fields.By longest t))
    (rest : t + longest ≤ clk) (exists_ : ∀ l ∈ below, addr l < T.count l) :
    check T cmd addr clk level n = some true := by
  have due : ∀ {f : Fields}, f.By longest t → f.due cmd clk = true := by
    intro f h
    rw [Fields.due_iff]
    have := h.next cmd
    omega
  induction n generalizing level with
  | bank f => rw [check, due all]
  | @node child below f children ih =>
    rw [check, due all.1, if_neg (by simp)]
    split
    · rfl
    · rw [if_pos (exists_ child List.mem_cons_self)]
      exact ih (addr child) child (all.2 _) fun l hl => exists_ l (List.mem_cons_of_mem child hl)

/-- A command whose address exists has an answer. -/
theorem check_isSome {clk : Nat} {cmd : Command} {addr : Level → Nat} {below : List Level}
    {n : Node below} {level : Level} (exists_ : ∀ l ∈ below, addr l < T.count l) :
    (check T cmd addr clk level n).isSome = true := by
  induction n generalizing level with
  | bank f => rfl
  | @node child below f children ih =>
    rw [check]
    split
    · rfl
    · split
      · rfl
      · rw [if_pos (exists_ child List.mem_cons_self)]
        exact ih (addr child) fun l hl => exists_ l (List.mem_cons_of_mem child hl)

/-- A command whose address exists can be applied. -/
theorem exists_update (cmd : Command) (clk : Nat) {addr : Level → Nat} (n : Node T.below)
    (exists_ : T.Exists addr) :
    ∃ n', update T cmd addr clk n = some n' := by
  have stated : ∀ {below : List Level} (n : Node below) (level : Level),
      (∀ l ∈ below, addr l < T.count l) → ∃ n', update_state T cmd addr level below n = some n' := by
    intro below
    induction below with
    | nil => exact fun n level _ => ⟨_, rfl⟩
    | cons child below ih =>
      intro n level exists_
      rw [update_state]
      generalize T.lambda level cmd n (addr child) = m
      split
      · exact ⟨m, rfl⟩
      · rw [if_pos (exists_ child List.mem_cons_self)]
        cases m with
        | node f children =>
          obtain ⟨c, hc⟩ := ih (children (addr child)) child fun l hl =>
            exists_ l (List.mem_cons_of_mem child hl)
          exact ⟨_, congrArg (Option.map _) hc⟩
  obtain ⟨m, hm⟩ := stated n .Channel exists_
  exact ⟨_, by rw [update, hm]; rfl⟩

end MCsim.Dram
