import Mathlib.Data.List.MinMax
import MCsim.Laws.Oldest

/-!
# Column accesses first

`FRFCFS` is to issue the oldest column access that is ready and issuable before any activation or
precharge. On a per-requestor queue it does. On one queue for each bank its scan is a tournament in
which a column access is compared by arrival time with whatever is kept, so an older activation keeps a
column access out.

`entering` is what the scan does to a list of offered fronts, without the queues; `held` is the row
command that a prefix of the list leaves in the way. A column access enters where it is older than what
is held, and from then on the oldest column access stays in front: `CasLeads` says of a list of fronts
that this gives the oldest one of all.
-/

namespace MCsim

open CommandScheduler

/-- The commands that a call should choose among, and what it issued: a column access is issued where
there is one, and then an oldest one; an activation or a precharge is issued where there is one and no
column access. -/
structure CasPriority (heads : BusPacket → Prop) (issued : Option BusPacket) : Prop where
  cas : (∃ c, heads c ∧ c.busPacketType.isCas = true) →
    ∃ c, issued = some c ∧ heads c ∧ c.busPacketType.isCas = true ∧
      ∀ d, heads d → d.busPacketType.isCas = true → c.arriveTime ≤ d.arriveTime
  row : (∀ c, heads c → c.busPacketType.isCas = false) →
    (∃ c, heads c ∧ (c.busPacketType = .ACT ∨ c.busPacketType = .PRE)) →
    ∃ c, issued = some c ∧ heads c ∧ (c.busPacketType = .ACT ∨ c.busPacketType = .PRE)

namespace Frfcfs

/-- The commands of a type. -/
def ofType (t : BusPacketType) (l : List BusPacket) : List BusPacket :=
  l.filter (·.busPacketType == t)

/-- The column accesses. -/
def accesses (l : List BusPacket) : List BusPacket := l.filter (·.busPacketType.isCas)

/-- The oldest command of a list, the first among equals. -/
abbrev oldest (l : List BusPacket) : Option BusPacket := l.argmin (·.arriveTime)

/-- What the fronts of some queues leave in the way of a column access: the oldest activation, without
one the oldest precharge. A front of any other type stays where it came first. -/
def held (l : List BusPacket) : Option BusPacket :=
  match l.filter (!·.busPacketType.isCas) with
  | [] => none
  | c :: _ =>
    if c.busPacketType = .ACT ∨ c.busPacketType = .PRE then
      (oldest (ofType .ACT l)).or (oldest (ofType .PRE l))
    else some c

/-- A column access enters: nothing is held, or something younger. -/
def Enters (ahead : List BusPacket) (c : BusPacket) : Prop :=
  c.busPacketType.isCas = true ∧ ∀ b ∈ held ahead, c.arriveTime < b.arriveTime

/-- Where the offered fronts, in the order of their queues, have a column access, one enters at or
before an oldest one; where they have none but an activation or a precharge, the first is one of
these. -/
def CasLeads (l : List BusPacket) : Prop :=
  (accesses l ≠ [] → ∃ ahead c after, l = ahead ++ c :: after ∧ Enters ahead c ∧
    ∃ d ∈ accesses (c :: after), ∀ e ∈ accesses l, d.arriveTime ≤ e.arriveTime) ∧
  (accesses l = [] → (∃ c ∈ l, c.busPacketType = .ACT ∨ c.busPacketType = .PRE) →
    ∃ c, l.head? = some c ∧ (c.busPacketType = .ACT ∨ c.busPacketType = .PRE))

/-! ## The tournament -/

/-- A turn of the tournament, without the queue index. -/
def entering (best : Option BusPacket) (c : BusPacket) : Option BusPacket :=
  (better (best.map (·, 0)) c 0).map (·.1)

theorem better_map (best : Option (BusPacket × Nat)) (c : BusPacket) (i : Nat) :
    (better best c i).map (·.1) = entering (best.map (·.1)) c := by
  unfold entering better
  cases best with
  | none => rfl
  | some b =>
    simp only [Option.map_some]
    cases c.busPacketType <;> dsimp only
    all_goals repeat' split
    all_goals rfl

/-- What the tournament leaves of a list. -/
def winner (l : List BusPacket) : Option BusPacket := l.foldl entering none

theorem winner_concat (l : List BusPacket) (c : BusPacket) :
    winner (l ++ [c]) = entering (winner l) c := by
  simp [winner]

theorem entering_none (c : BusPacket) : entering none c = some c := rfl

theorem entering_cas (b : BusPacket) {c : BusPacket} (cas : c.busPacketType.isCas = true) :
    entering (some b) c = if c.arriveTime < b.arriveTime then some c else some b := by
  unfold entering better
  rcases BusPacketType.isCas_iff.mp cas with type | type <;> rw [type] <;> dsimp only [Option.map_some] <;>
    split <;> rfl

theorem entering_act (b : BusPacket) {c : BusPacket} (type : c.busPacketType = .ACT) :
    entering (some b) c =
      if b.busPacketType = .ACT then if c.arriveTime < b.arriveTime then some c else some b
      else if b.busPacketType = .PRE then some c else some b := by
  unfold entering better
  rw [type]
  dsimp only [Option.map_some]
  repeat' split
  all_goals rfl

theorem entering_pre (b : BusPacket) {c : BusPacket} (type : c.busPacketType = .PRE) :
    entering (some b) c =
      if b.busPacketType = .PRE ∧ c.arriveTime < b.arriveTime then some c else some b := by
  unfold entering better
  rw [type]
  dsimp only [Option.map_some]
  split <;> rfl

theorem entering_other (b : BusPacket) {c : BusPacket} (cas : c.busPacketType.isCas = false)
    (act : c.busPacketType ≠ .ACT) (pre : c.busPacketType ≠ .PRE) : entering (some b) c = some b := by
  unfold entering better
  cases type : c.busPacketType <;> simp_all [BusPacketType.isCas]

/-- A column access that is kept is not displaced by a row command. -/
theorem entering_row {b c : BusPacket} (kept : b.busPacketType.isCas = true)
    (cas : c.busPacketType.isCas = false) : entering (some b) c = some b := by
  have notAct : b.busPacketType ≠ .ACT := by
    intro type
    rw [type] at kept
    cases kept
  have notPre : b.busPacketType ≠ .PRE := by
    intro type
    rw [type] at kept
    cases kept
  by_cases act : c.busPacketType = .ACT
  · rw [entering_act b act, if_neg notAct, if_neg notPre]
  · by_cases pre : c.busPacketType = .PRE
    · rw [entering_pre b pre, if_neg fun both => notPre both.1]
    · exact entering_other b cas act pre

/-! ## What is held -/

theorem oldest_concat (l : List BusPacket) (c : BusPacket) :
    oldest (l ++ [c]) = match oldest l with
      | none => some c
      | some b => if c.arriveTime < b.arriveTime then some c else some b := by
  unfold oldest
  rw [List.argmin_concat]
  cases List.argmin (·.arriveTime) l <;> rfl

theorem ofType_concat (t : BusPacketType) (l : List BusPacket) (c : BusPacket) :
    ofType t (l ++ [c]) = ofType t l ++ if c.busPacketType = t then [c] else [] := by
  unfold ofType
  rw [List.filter_append]
  congr 1
  by_cases type : c.busPacketType = t <;> simp [type]

theorem type_of_oldest {t : BusPacketType} {l : List BusPacket} {c : BusPacket}
    (h : oldest (ofType t l) = some c) : c.busPacketType = t := by
  have member := List.argmin_mem h
  simpa using (List.mem_filter.mp member).2

/-- A column access holds nothing. -/
theorem held_concat_cas (l : List BusPacket) {c : BusPacket} (cas : c.busPacketType.isCas = true) :
    held (l ++ [c]) = held l := by
  have act : c.busPacketType ≠ .ACT := by
    intro type
    rw [type] at cas
    cases cas
  have pre : c.busPacketType ≠ .PRE := by
    intro type
    rw [type] at cas
    cases cas
  unfold held
  rw [ofType_concat, ofType_concat, if_neg act, if_neg pre, List.append_nil, List.append_nil,
    List.filter_append]
  simp [cas]

/-- **A row command changes what is held as the tournament does.** -/
theorem held_concat (l : List BusPacket) {c : BusPacket} (cas : c.busPacketType.isCas = false) :
    held (l ++ [c]) = entering (held l) c := by
  have rest : (l ++ [c]).filter (!·.busPacketType.isCas) =
      l.filter (!·.busPacketType.isCas) ++ [c] := by
    rw [List.filter_append]
    simp [cas]
  unfold held
  rw [rest, ofType_concat, ofType_concat]
  cases rows : l.filter (!·.busPacketType.isCas) with
  | nil =>
    -- the first row command
    have none : ∀ t, BusPacketType.isCas t = false → ofType t l = [] := by
      intro t row
      apply List.filter_eq_nil_iff.mpr
      intro d member same
      have kept := List.filter_eq_nil_iff.mp rows d member
      rw [beq_iff_eq.mp same, row] at kept
      exact kept rfl
    rw [none .ACT rfl, none .PRE rfl]
    by_cases act : c.busPacketType = .ACT
    · simp [act, entering_none, oldest]
    · by_cases pre : c.busPacketType = .PRE
      · simp [pre, entering_none, oldest]
      · simp [act, pre, entering_none]
  | cons d l' =>
    dsimp only [List.cons_append]
    split
    · next row =>
      have member : d ∈ l := List.mem_of_mem_filter (rows ▸ List.mem_cons_self)
      cases acts : oldest (ofType .ACT l) with
      | some a =>
        have type := type_of_oldest acts
        rw [Option.some_or]
        by_cases act : c.busPacketType = .ACT
        · rw [if_pos act, oldest_concat, acts, entering_act a act, if_pos type]
          dsimp only
          split <;> rfl
        · rw [if_neg act, List.append_nil, acts, Option.some_or]
          by_cases pre : c.busPacketType = .PRE
          · rw [entering_pre a pre, if_neg fun both => by simp [type] at both]
          · exact (entering_other a cas act pre).symm
      | none =>
        have noAct : ofType .ACT l = [] := List.argmin_eq_none.mp acts
        rw [Option.none_or, noAct, List.nil_append]
        cases pres : oldest (ofType .PRE l) with
        | none =>
          -- the first row command is one of the two types
          have noPre : ofType .PRE l = [] := List.argmin_eq_none.mp pres
          rcases row with type | type
          · exact absurd (beq_iff_eq.mpr type) (List.filter_eq_nil_iff.mp noAct d member)
          · exact absurd (beq_iff_eq.mpr type) (List.filter_eq_nil_iff.mp noPre d member)
        | some b =>
          have type := type_of_oldest pres
          by_cases act : c.busPacketType = .ACT
          · rw [if_pos act, entering_act b act,
              if_neg (show b.busPacketType ≠ .ACT by simp [type]), if_pos type]
            rfl
          · rw [if_neg act]
            by_cases pre : c.busPacketType = .PRE
            · rw [if_pos pre, oldest_concat, pres, entering_pre b pre]
              simp [oldest, type]
            · rw [if_neg pre, List.append_nil, pres, entering_other b cas act pre]
              rfl
    · next other =>
      obtain ⟨notAct, notPre⟩ := not_or.mp other
      by_cases act : c.busPacketType = .ACT
      · rw [entering_act d act, if_neg notAct, if_neg notPre]
      · by_cases pre : c.busPacketType = .PRE
        · rw [entering_pre d pre, if_neg fun both => notPre both.1]
        · exact (entering_other d cas act pre).symm

/-! ## What wins -/

/-- Where a column access enters first. -/
structure FirstEntry (l ahead : List BusPacket) (c : BusPacket) (after : List BusPacket) : Prop where
  split : l = ahead ++ c :: after
  enters : Enters ahead c
  first : ∀ ahead' c' after', l = ahead' ++ c' :: after' → Enters ahead' c' →
    ahead.length ≤ ahead'.length

theorem accesses_concat (l : List BusPacket) (c : BusPacket) :
    accesses (l ++ [c]) = accesses l ++ if c.busPacketType.isCas = true then [c] else [] := by
  unfold accesses
  rw [List.filter_append]
  congr 1
  by_cases cas : c.busPacketType.isCas = true <;> simp [cas]

/-- A split of a longer list is a split of the list or at its end. -/
theorem concat_split {l ahead after : List BusPacket} {c d : BusPacket}
    (h : l ++ [c] = ahead ++ d :: after) :
    (∃ after', after = after' ++ [c] ∧ l = ahead ++ d :: after') ∨
      after = [] ∧ ahead = l ∧ d = c := by
  rcases List.eq_nil_or_concat after with rfl | ⟨after', e, rfl⟩
  · obtain ⟨rfl, same⟩ := List.append_inj' h rfl
    exact .inr ⟨rfl, rfl, (List.head_eq_of_cons_eq same).symm⟩
  · rw [List.concat_eq_append, ← List.cons_append, ← List.append_assoc] at h
    obtain ⟨front, last⟩ := List.append_inj' h rfl
    obtain rfl := List.head_eq_of_cons_eq last
    exact .inl ⟨after', by simp, front⟩

/-- **The tournament**: without a column access that enters, what is held wins; from the first that
enters on, the oldest column access does. -/
theorem winner_cases (l : List BusPacket) :
    (winner l = held l ∧ ∀ ahead c after, l = ahead ++ c :: after → ¬ Enters ahead c) ∨
      ∃ ahead c after, FirstEntry l ahead c after ∧ winner l = oldest (accesses (c :: after)) := by
  induction l using List.reverseRecOn with
  | nil => exact .inl ⟨rfl, fun ahead c after h => absurd h (by simp)⟩
  | append_singleton l c ih =>
    rw [winner_concat]
    rcases ih with ⟨held_, never⟩ | ⟨ahead, d, after, entry, won⟩
    · rw [held_]
      -- a split at the end is an entry of `c` itself
      have earlier : ¬ Enters l c → ∀ ahead d after, l ++ [c] = ahead ++ d :: after →
          ¬ Enters ahead d := by
        intro out ahead d after split
        rcases concat_split split with ⟨after', _, split'⟩ | ⟨_, rfl, rfl⟩
        · exact never ahead d after' split'
        · exact out
      cases cas : c.busPacketType.isCas with
      | false =>
        refine .inl ⟨(held_concat l cas).symm, earlier fun enters => ?_⟩
        rw [enters.1] at cas
        cases cas
      | true =>
        by_cases enters : Enters l c
        · refine .inr ⟨l, c, [], ⟨rfl, enters, fun ahead' d after' split enters' => ?_⟩, ?_⟩
          · rcases concat_split split with ⟨after'', _, split'⟩ | ⟨_, rfl, _⟩
            · exact absurd enters' (never ahead' d after'' split')
            · exact Nat.le_refl _
          · have alone : accesses [c] = [c] := by simp [accesses, cas]
            rw [alone]
            cases kept : held l with
            | none => rfl
            | some b =>
              rw [entering_cas b cas, if_pos (enters.2 b kept)]
              rfl
        · refine .inl ⟨?_, earlier enters⟩
          rw [held_concat_cas l cas]
          cases kept : held l with
          | none => exact absurd ⟨cas, fun b hb => by simp [kept] at hb⟩ enters
          | some b =>
            rw [entering_cas b cas, if_neg fun younger => enters ⟨cas, fun b' hb => ?_⟩]
            obtain rfl : b = b' := Option.some.inj (kept.symm.trans hb)
            exact younger
    · refine .inr ⟨ahead, d, after ++ [c], ⟨?_, entry.enters, ?_⟩, ?_⟩
      · rw [entry.split, List.append_assoc]
        rfl
      · intro ahead' c' after' split enters
        rcases concat_split split with ⟨after'', _, split'⟩ | ⟨_, rfl, _⟩
        · exact entry.first ahead' c' after'' split' enters
        · rw [entry.split]
          simp
      · rw [won, ← List.cons_append, accesses_concat]
        have some_ : ∃ w, oldest (accesses (d :: after)) = some w := by
          cases found : oldest (accesses (d :: after)) with
          | some w => exact ⟨w, rfl⟩
          | none =>
            have empty := List.argmin_eq_none.mp found
            simp [accesses, entry.enters.1] at empty
        obtain ⟨w, found⟩ := some_
        have access : w.busPacketType.isCas = true := (List.mem_filter.mp (List.argmin_mem found)).2
        rw [found]
        cases cas : c.busPacketType.isCas with
        | true =>
          rw [entering_cas w cas, if_pos rfl, oldest_concat, found]
        | false =>
          rw [entering_row access cas, if_neg Bool.false_ne_true, List.append_nil, found]

theorem held_not_cas {l : List BusPacket} {c : BusPacket} (h : held l = some c) :
    c ∈ l ∧ c.busPacketType.isCas = false := by
  unfold held at h
  split at h
  · cases h
  · next d l' rows =>
    have member : d ∈ l.filter (!·.busPacketType.isCas) := rows ▸ List.mem_cons_self
    split at h
    · rcases Option.or_eq_some_iff.mp h with found | ⟨_, found⟩
      · exact ⟨List.mem_of_mem_filter (List.argmin_mem found), by rw [type_of_oldest found]; rfl⟩
      · exact ⟨List.mem_of_mem_filter (List.argmin_mem found), by rw [type_of_oldest found]; rfl⟩
    · obtain rfl := Option.some.inj h
      exact ⟨List.mem_of_mem_filter member, by simpa using (List.mem_filter.mp member).2⟩

theorem mem_accesses {l : List BusPacket} {c : BusPacket} :
    c ∈ accesses l ↔ c ∈ l ∧ c.busPacketType.isCas = true := List.mem_filter

theorem accesses_eq_nil {l : List BusPacket} :
    accesses l = [] ↔ ∀ c ∈ l, c.busPacketType.isCas = false := by
  unfold accesses
  rw [List.filter_eq_nil_iff]
  simp only [Bool.not_eq_true]

/-- What is held without any column access: the first command decides. -/
theorem held_of_rows {l : List BusPacket} (rows : accesses l = []) :
    held l = l.head?.bind fun c =>
      if c.busPacketType = .ACT ∨ c.busPacketType = .PRE then
        (oldest (ofType .ACT l)).or (oldest (ofType .PRE l))
      else some c := by
  have all : l.filter (!·.busPacketType.isCas) = l :=
    List.filter_eq_self.mpr fun c hc => by simp [accesses_eq_nil.mp rows c hc]
  unfold held
  rw [all]
  cases l <;> rfl

/-- A list that has an activation or a precharge has an oldest one. -/
theorem oldest_row {l : List BusPacket} {c : BusPacket} (member : c ∈ l)
    (type : c.busPacketType = .ACT ∨ c.busPacketType = .PRE) :
    ∃ d, (oldest (ofType .ACT l)).or (oldest (ofType .PRE l)) = some d ∧ d ∈ l ∧
      (d.busPacketType = .ACT ∨ d.busPacketType = .PRE) := by
  cases acts : oldest (ofType .ACT l) with
  | some d =>
    exact ⟨d, rfl, List.mem_of_mem_filter (List.argmin_mem acts), .inl (type_of_oldest acts)⟩
  | none =>
    cases pres : oldest (ofType .PRE l) with
    | some d =>
      exact ⟨d, rfl, List.mem_of_mem_filter (List.argmin_mem pres), .inr (type_of_oldest pres)⟩
    | none =>
      have noAct := List.filter_eq_nil_iff.mp (List.argmin_eq_none.mp acts) c member
      have noPre := List.filter_eq_nil_iff.mp (List.argmin_eq_none.mp pres) c member
      rcases type with type | type
      · exact absurd (beq_iff_eq.mpr type) noAct
      · exact absurd (beq_iff_eq.mpr type) noPre

/-- What stands from a later entry on stands from the first one on. -/
theorem FirstEntry.mem_of_later {l ahead ahead' after after' : List BusPacket} {c c' d : BusPacket}
    (entry : FirstEntry l ahead c after) (split : l = ahead' ++ c' :: after') (enters : Enters ahead' c')
    (member : d ∈ accesses (c' :: after')) : d ∈ accesses (c :: after) := by
  have longer := entry.first ahead' c' after' split enters
  have same : ahead ++ c :: after = ahead' ++ c' :: after' := entry.split.symm.trans split
  rcases List.append_eq_append_iff.mp same with ⟨between, _, tail⟩ | ⟨between, front, tail⟩
  · rw [mem_accesses] at member ⊢
    rw [tail]
    exact ⟨List.mem_append_right between member.1, member.2⟩
  · obtain rfl : between = [] := by
      have lengths := congrArg List.length front
      rw [List.length_append] at lengths
      exact List.eq_nil_of_length_eq_zero (by omega)
    rw [List.nil_append] at tail
    rw [← tail]
    exact member

/-- **Column accesses come first exactly where one leads.** -/
theorem winner_casPriority (l : List BusPacket) : CasPriority (· ∈ l) (winner l) ↔ CasLeads l := by
  have some_access : accesses l ≠ [] ↔ ∃ c, c ∈ l ∧ c.busPacketType.isCas = true := by
    simp only [← mem_accesses]
    exact ⟨List.exists_mem_of_ne_nil _, fun ⟨c, hc⟩ => List.ne_nil_of_mem hc⟩
  constructor
  · rintro ⟨cas, row⟩
    refine ⟨fun some => ?_, fun none exists_ => ?_⟩
    · obtain ⟨c, won, _, access, least⟩ := cas (some_access.mp some)
      rcases winner_cases l with ⟨kept, _⟩ | ⟨ahead, d, after, entry, best⟩
      · have impossible := (held_not_cas (kept.symm.trans won)).2
        rw [access] at impossible
        cases impossible
      · refine ⟨ahead, d, after, entry.split, entry.enters, c, List.argmin_mem (best.symm.trans won), ?_⟩
        exact fun e he => least e (mem_accesses.mp he).1 (mem_accesses.mp he).2
    · obtain ⟨c, won, _, type⟩ := row (accesses_eq_nil.mp none) exists_
      rcases winner_cases l with ⟨kept, _⟩ | ⟨ahead, d, after, entry, _⟩
      · rw [won, held_of_rows none] at kept
        obtain ⟨first, head, chosen⟩ := Option.bind_eq_some_iff.mp kept.symm
        refine ⟨first, head, ?_⟩
        split at chosen
        · next row => exact row
        · rw [Option.some.inj chosen]
          exact type
      · have rowish := accesses_eq_nil.mp none d (by rw [entry.split]; simp)
        rw [entry.enters.1] at rowish
        cases rowish
  · rintro ⟨leads, first⟩
    refine ⟨fun exists_ => ?_, fun none exists_ => ?_⟩
    · obtain ⟨ahead, c, after, split, enters, d, member, least⟩ := leads (some_access.mpr exists_)
      rcases winner_cases l with ⟨_, never⟩ | ⟨ahead', c', after', entry, best⟩
      · exact absurd enters (never ahead c after split)
      · have there := entry.mem_of_later split enters member
        cases found : oldest (accesses (c' :: after')) with
        | none =>
          rw [List.argmin_eq_none.mp found] at there
          cases there
        | some w =>
          have mine := mem_accesses.mp (List.argmin_mem found)
          refine ⟨w, best.trans found, ?_, mine.2, fun e he access => ?_⟩
          · rw [entry.split]
            exact List.mem_append_right ahead' mine.1
          · exact (List.le_of_mem_argmin there found).trans (least e (mem_accesses.mpr ⟨he, access⟩))
    · have rows := accesses_eq_nil.mpr none
      obtain ⟨c, head, type⟩ := first rows exists_
      obtain ⟨d, chosen, member, kind⟩ := oldest_row (List.mem_of_mem_head? head) type
      refine ⟨d, ?_, member, kind⟩
      rcases winner_cases l with ⟨kept, _⟩ | ⟨ahead, e, after, entry, _⟩
      · rw [kept, held_of_rows rows, head, Option.bind_some, if_pos type]
        exact chosen
      · have rowish := none e (by rw [entry.split]; simp)
        rw [entry.enters.1] at rowish
        cases rowish

/-! ## A call -/

/-- The fronts that the queues from an index on offer, in their order. -/
def offeredFrom (check : Answers) (s : CommandScheduler) (indices : List Nat) : List BusPacket :=
  indices.filterMap fun i => (s.side i true).head?.filter (s.canIssue check i)

/-- The fronts that are ready and issuable, in the order of their queues. -/
def offered (check : Answers) (s : CommandScheduler) : List BusPacket :=
  offeredFrom check s (List.range s.queueCount)

theorem mem_offered {check : Answers} {s : CommandScheduler} {c : BusPacket} :
    c ∈ offered check s ↔ ∃ i, s.Offers check i c := by
  unfold offered offeredFrom Offers
  simp only [List.mem_filterMap, List.mem_range, Option.filter_eq_some_iff]

/-- A turn of the scan over general queues. -/
theorem keep_map {check : Answers} {s s' : CommandScheduler} (alike : Alike s s') (index : Nat)
    (best : Option (BusPacket × Nat)) :
    (keep check s' index best (s.side index true).head?).map (·.1) =
      (offeredFrom check s [index]).foldl entering (best.map (·.1)) := by
  unfold keep offeredFrom
  cases head : (s.side index true).head? with
  | none => simp [head]
  | some c =>
    dsimp only
    rw [alike.canIssue]
    cases can : s.canIssue check index c with
    | true => simp [head, can, Option.filter, better_map]
    | false => simp [head, can, Option.filter]

/-- **The scan over general queues is the tournament** over what they offer. -/
theorem scheduleFrom_general (spec : DeviceSpec) (check : Answers) {s s' : CommandScheduler} {k : Nat}
    {best : Option (BusPacket × Nat)} (sided : s.Sided) (scanned : Scanned s s' k)
    (cleared : s'.scheduledCommand = none) {n : Nat} (sum : k + n = s.queueCount)
    (waits : n = 0 → best = none) :
    (scheduleFrom spec check (List.range' k n) s' best).2 =
      (offeredFrom check s (List.range' k n)).foldl entering (best.map (·.1)) := by
  induction n generalizing k s' best with
  | zero =>
    rw [waits rfl]
    exact cleared
  | succ n ih =>
    have kind : (s'.commandQueue k).isPerRequestor = false := scanned.alike.sided sided k
    have parts : offeredFrom check s (k :: List.range' (k + 1) n) =
        offeredFrom check s [k] ++ offeredFrom check s (List.range' (k + 1) n) := by
      unfold offeredFrom
      rw [← List.singleton_append, List.filterMap_append]
    rw [List.range'_succ, scheduleFrom, kind, if_neg Bool.false_ne_true, parts, List.foldl_append]
    cases looks : s'.look k true with
    | mk s₂ front =>
      obtain ⟨scanned₂, rfl⟩ := scanned.look (Nat.le_refl k) looks
      rw [Nat.max_eq_right (Nat.le_succ k)] at scanned₂
      have cleared₂ : s₂.scheduledCommand = none := by
        rw [(look_cases looks).1.same]
        exact cleared
      rw [← keep_map scanned₂.alike]
      dsimp only
      rw [scanned₂.alike.queueCount]
      split
      · next last =>
        obtain rfl : n = 0 := by omega
        cases keep check s₂ k best (s.side k true).head? with
        | some e => rfl
        | none => exact cleared₂
      · next more =>
        exact ih scanned₂ cleared₂ (by omega) fun zero => by omega

/-- The fronts of a per-requestor queue that are ready and issuable. -/
def requestorHeads (check : Answers) (s : CommandScheduler) : List BusPacket :=
  (s.commandQueue 0).requestorFronts.filter (s.canIssue check 0)

/-- The oldest of a list, its first command to start from. -/
theorem foldl_older (l : List BusPacket) (c : BusPacket) :
    some (l.foldl older c) = oldest (c :: l) := by
  induction l using List.reverseRecOn with
  | nil => rfl
  | append_singleton l d ih =>
    rw [List.foldl_append, ← List.cons_append, oldest_concat, ← ih]
    simp only [List.foldl_cons, List.foldl_nil, older]
    split <;> rfl

/-- The oldest of a list that starts from one of its commands. -/
theorem foldl_older_spec {l : List BusPacket} {c : BusPacket} (member : c ∈ l) :
    l.foldl older c ∈ l ∧ ∀ d ∈ l, (l.foldl older c).arriveTime ≤ d.arriveTime := by
  have found := (foldl_older l c).symm
  refine ⟨?_, fun d hd => List.le_of_mem_argmin (List.mem_cons_of_mem c hd) found⟩
  rcases List.mem_cons.mp (List.argmin_mem found) with same | there
  · rw [same]
    exact member
  · exact there

/-- The activations and precharges. -/
def rowCommands (l : List BusPacket) : List BusPacket :=
  l.filter fun c => c.busPacketType == .ACT || c.busPacketType == .PRE

theorem ofRequestors_eq (check : Answers) (s : CommandScheduler) :
    ofRequestors check s 0 =
      match (accesses (requestorHeads check s)).head? with
      | some c => some ((accesses (requestorHeads check s)).foldl older c)
      | none => (rowCommands (requestorHeads check s)).getLast?.map fun c =>
          (rowCommands (requestorHeads check s)).foldl older c := rfl

/-- On a per-requestor queue the choice is right. -/
theorem ofRequestors_casPriority (check : Answers) (s : CommandScheduler) :
    CasPriority (· ∈ requestorHeads check s) (ofRequestors check s 0) := by
  rw [ofRequestors_eq]
  refine ⟨fun ⟨c, head, cas⟩ => ?_, fun rows ⟨c, head, row⟩ => ?_⟩
  · have member : c ∈ accesses (requestorHeads check s) := mem_accesses.mpr ⟨head, cas⟩
    cases first : (accesses (requestorHeads check s)).head? with
    | none =>
      rw [List.head?_eq_none_iff.mp first] at member
      cases member
    | some b =>
      obtain ⟨there, least⟩ := foldl_older_spec (List.mem_of_mem_head? first)
      obtain ⟨head', cas'⟩ := mem_accesses.mp there
      exact ⟨_, rfl, head', cas', fun d hd access => least d (mem_accesses.mpr ⟨hd, access⟩)⟩
  · have member : c ∈ rowCommands (requestorHeads check s) :=
      List.mem_filter.mpr ⟨head, by simpa using row⟩
    rw [accesses_eq_nil.mpr rows]
    cases last : (rowCommands (requestorHeads check s)).getLast? with
    | none =>
      rw [List.getLast?_eq_none_iff.mp last] at member
      cases member
    | some b =>
      obtain ⟨there, _⟩ := foldl_older_spec (List.mem_of_getLast? last)
      obtain ⟨head', row'⟩ := List.mem_filter.mp there
      exact ⟨_, rfl, head', by simpa using row'⟩

/-- **FRFCFS gives column accesses priority** on a per-requestor queue, and on one queue for each bank
exactly where a column access leads: some read or write at or before an oldest one, in the order of the
queues, is older than the oldest activation that is offered ahead of it (than the oldest precharge,
where no activation is). Any contents, timers and answers of the device. -/
theorem frfcfs_casPriority (spec : DeviceSpec) (check : Answers) (s : CommandScheduler) :
    (s.Sided →
      (CasPriority (fun c => ∃ i, s.Offers check i c) (commandSchedule spec check s).2 ↔
        CasLeads (offered check s))) ∧
    (s.queueCount = 1 → (s.commandQueue 0).isPerRequestor = true →
      CasPriority (· ∈ requestorHeads check s) (commandSchedule spec check s).2) := by
  constructor
  · intro sided
    have scan := scheduleFrom_general spec check (s := s) (k := 0) (n := s.queueCount) sided
      (scanned_zero (.refl s none)) rfl (Nat.zero_add _) fun _ => rfl
    rw [← List.range_eq_range'] at scan
    unfold commandSchedule
    rw [scan]
    simp only [← mem_offered]
    exact winner_casPriority (offered check s)
  · intro one per
    have heads := ofRequestors_casPriority check { s with scheduledCommand := none }
    have range : List.range s.queueCount = [0] := by rw [one]; rfl
    have out : (commandSchedule spec check s).2 =
        ofRequestors check { s with scheduledCommand := none } 0 := by
      unfold commandSchedule
      rw [range, scheduleFrom, if_pos per]
      cases ofRequestors check { s with scheduledCommand := none } 0 <;> rfl
    rw [out]
    exact heads

theorem sided_withFronts (l : List (BusPacketType × Nat)) : (Push.withFronts l).Sided := by
  unfold Push.withFronts
  generalize l.zipIdx = entries
  suffices any : ∀ s : CommandScheduler, s.Sided → (entries.foldl (fun s e =>
      s.insertCommand e.2 { sampleCommand e.1.1 0 e.2 with arriveTime := e.1.2 } true) s).Sided from
    any _ (sided_create l.length _)
  induction entries with
  | nil => exact fun s sided => sided
  | cons e entries ih => exact fun s sided => ih _ (sided.insertCommand _ _ _)

/-- The law at a younger activation ahead of a read: the read enters, and it is issued. -/
theorem frfcfs_casPriority_youngerAct :
    CasPriority (fun c => ∃ i, (Push.withFronts [(.ACT, 5), (.RD, 1)]).Offers (fun _ => true) i c)
      (commandSchedule openPageSetup.device (fun _ => true)
        (Push.withFronts [(.ACT, 5), (.RD, 1)])).2 := by
  apply ((frfcfs_casPriority _ _ _).1 (sided_withFronts _)).mpr
  have fronts : offered (fun _ => true) (Push.withFronts [(.ACT, 5), (.RD, 1)]) =
      [{ sampleCommand .ACT 0 0 with arriveTime := 5 }, { sampleCommand .RD 0 1 with arriveTime := 1 }] := by
    decide +kernel
  rw [fronts]
  refine ⟨fun _ => ⟨[_], _, [], rfl, ⟨rfl, ?_⟩, _, List.mem_cons_self, by decide⟩, by decide⟩
  decide

/-- Where the activation ahead of the read is older, it is issued in the read's place. -/
theorem frfcfs_casPriority_olderAct :
    (commandSchedule openPageSetup.device (fun _ => true) (Push.withFronts [(.ACT, 1), (.RD, 5)])).2 =
        some { sampleCommand .ACT 0 0 with arriveTime := 1 } ∧
      ¬ CasPriority
        (fun c => ∃ i, (Push.withFronts [(.ACT, 1), (.RD, 5)]).Offers (fun _ => true) i c)
        (commandSchedule openPageSetup.device (fun _ => true)
          (Push.withFronts [(.ACT, 1), (.RD, 5)])).2 := by
  have issued : (commandSchedule openPageSetup.device (fun _ => true)
      (Push.withFronts [(.ACT, 1), (.RD, 5)])).2 =
        some { sampleCommand .ACT 0 0 with arriveTime := 1 } := by decide +kernel
  refine ⟨issued, fun priority => ?_⟩
  have waits : (Push.withFronts [(.ACT, 1), (.RD, 5)]).Offers (fun _ => true) 1
      { sampleCommand .RD 0 1 with arriveTime := 5 } := by
    refine ⟨by decide, by decide +kernel, by decide +kernel⟩
  obtain ⟨c, chosen, _, cas, _⟩ := priority.cas ⟨_, ⟨1, waits⟩, rfl⟩
  rw [issued] at chosen
  obtain rfl := Option.some.inj chosen
  cases cas

end Frfcfs
end MCsim
