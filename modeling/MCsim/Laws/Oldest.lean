import MCsim.Laws.Sides
import MCsim.Setups

/-!
# Which front the general schedulers choose

`PUSH` and `FRFCFS` scan the critical fronts that are ready and issuable and keep a candidate. The laws
here are about one call from any state: any contents of the queues, on both sides and with any note of
the side looked at last, any timers and any answers of the device.

`PUSH` chooses the oldest one, of the last queue among equals (`push_oldest`).
-/

namespace MCsim

namespace CommandScheduler

variable {s s' s'' : CommandScheduler} {check : Answers}

/-- A queue offers its critical front: it is ready, and the device takes it. -/
def Offers (s : CommandScheduler) (check : Answers) (index : Nat) (c : BusPacket) : Prop :=
  index < s.queueCount ∧ (s.side index true).head? = some c ∧ s.canIssue check index c = true

theorem Offers.unique {index : Nat} {c d : BusPacket} (h : s.Offers check index c)
    (h' : s.Offers check index d) : c = d :=
  Option.some.inj (h.2.1.symm.trans h'.2.1)

theorem Alike.canIssue (alike : Alike s s') (check : Answers) (index : Nat) (c : BusPacket) :
    s'.canIssue check index c = s.canIssue check index c := by
  unfold CommandScheduler.canIssue
  rw [alike.isReady, alike.isIssuable]

/-- The critical fronts of the queues below an index were looked at. -/
structure Scanned (s s' : CommandScheduler) (n : Nat) : Prop where
  alike : Alike s s'
  noted : ∀ i < n, s.side i true ≠ [] → s'.last i = true

theorem scanned_zero (alike : Alike s s') : Scanned s s' 0 :=
  ⟨alike, fun i hi => absurd hi (Nat.not_lt_zero i)⟩

/-- Looking at the next critical front, or at one that was looked at before. -/
theorem Scanned.look {n i : Nat} (scanned : Scanned s s' n) (bound : i ≤ n) {found : Option BusPacket}
    (h : s'.look i true = (s'', found)) :
    Scanned s s'' (max n (i + 1)) ∧ found = (s.side i true).head? := by
  obtain ⟨looked, head, unchanged, noted⟩ := look_cases h
  rw [scanned.alike.side] at head
  refine ⟨⟨scanned.alike.trans looked.alike, fun j hj waits => ?_⟩, head⟩
  by_cases here : j = i
  · subst here
    apply noted
    rw [head]
    obtain ⟨c, l, cons⟩ := List.exists_cons_of_ne_nil waits
    rw [cons]
    rfl
  · rw [looked.last here]
    exact scanned.noted j (by omega) waits

/-- Sending the front of a queue that was looked at takes it from the critical side. -/
theorem Scanned.side_issue {n i : Nat} {c : BusPacket} (scanned : Scanned s s' n) (sided : s.Sided)
    (bound : i < n) (front : (s.side i true).head? = some c) (spec : DeviceSpec) (j : Nat) (k : Bool) :
    (s'.issue spec c i).side j k =
      if j = i ∧ k = true then (s.side j k).tail else s.side j k := by
  have waits : s.side i true ≠ [] := by
    intro empty
    rw [empty] at front
    cases front
  rw [(scanned.alike.sided sided).side_issue, scanned.noted i bound waits, scanned.alike.side]

end CommandScheduler

open CommandScheduler

namespace Push

variable {s s' : CommandScheduler} {check : Answers}

/-- The first scan keeps a front that is offered, if there is one. -/
theorem firstScan_spec (check : Answers) (s : CommandScheduler) {n : Nat} (bound : n ≤ s.queueCount) :
    ∃ s' best, (List.range n).foldl (firstScan check) (s, none) = (s', best) ∧ Scanned s s' n ∧
      (∀ c i, best = some (c, i) → s.Offers check i c) ∧
      (best = none → ∀ i < n, ∀ c, ¬ s.Offers check i c) := by
  induction n with
  | zero =>
    exact ⟨s, none, rfl, scanned_zero (.refl s _), nofun, fun _ i hi => absurd hi (Nat.not_lt_zero i)⟩
  | succ n ih =>
    obtain ⟨s₁, best, folded, scanned, offers, nothing⟩ := ih (by omega)
    rw [List.range_succ, List.foldl_append, folded, List.foldl_cons, List.foldl_nil]
    unfold firstScan
    dsimp only
    cases looks : s₁.look n true with
    | mk s₂ front =>
      obtain ⟨scanned', head⟩ := scanned.look (Nat.le_refl n) looks
      rw [Nat.max_eq_right (Nat.le_succ n)] at scanned'
      -- a queue below `n + 1` that offers is the last one or was there before
      have earlier : ∀ i < n + 1, ∀ c, s.Offers check i c → i < n ∨ i = n ∧ front = some c := by
        intro i hi c offered
        rcases Nat.lt_succ_iff_lt_or_eq.mp hi with before | rfl
        · exact .inl before
        · exact .inr ⟨rfl, head.trans offered.2.1⟩
      cases front with
      | none =>
        refine ⟨s₂, best, rfl, scanned', offers, fun none i hi c offered => ?_⟩
        rcases earlier i hi c offered with before | ⟨_, impossible⟩
        · exact nothing none i before c offered
        · cases impossible
      | some c =>
        dsimp only
        rw [scanned'.alike.canIssue]
        split
        · next can =>
          refine ⟨s₂, some (c, n), rfl, scanned', fun d i chosen => ?_, nofun⟩
          obtain ⟨rfl, rfl⟩ : c = d ∧ n = i := by simpa using chosen
          exact ⟨by omega, head.symm, can⟩
        · next cannot =>
          refine ⟨s₂, best, rfl, scanned', offers, fun none i hi d offered => ?_⟩
          rcases earlier i hi d offered with before | ⟨rfl, same⟩
          · exact nothing none i before d offered
          · obtain rfl := Option.some.inj same
            exact cannot offered.2.2

/-- The candidate after the second scan looked at some queues: no front offered there is older, and an
equally old one is of no later queue. -/
structure Leads (s : CommandScheduler) (check : Answers) (n : Nat) (e : BusPacket × Nat) : Prop where
  offers : s.Offers check e.2 e.1
  oldest : ∀ j < n, ∀ d, s.Offers check j d →
    e.1.arriveTime < d.arriveTime ∨ e.1.arriveTime = d.arriveTime ∧ j ≤ e.2

/-- A turn of the second scan. -/
theorem Leads.turn {n : Nat} {e : BusPacket × Nat} {c : BusPacket} (leads : Leads s check n e)
    (offered : s.Offers check n c) :
    Leads s check (n + 1) (if c.arriveTime ≤ e.1.arriveTime then (c, n) else e) := by
  split
  · next older =>
    refine ⟨offered, fun j hj d other => ?_⟩
    rcases Nat.lt_succ_iff_lt_or_eq.mp hj with before | rfl
    · rcases leads.oldest j before d other with younger | ⟨same, _⟩
      · exact .inl (Nat.lt_of_le_of_lt older younger)
      · rcases Nat.lt_or_eq_of_le older with less | equal
        · exact .inl (same ▸ less)
        · exact .inr ⟨equal.trans same, Nat.le_of_lt before⟩
    · exact .inr ⟨congrArg _ (offered.unique other), Nat.le_refl j⟩
  · next younger =>
    refine ⟨leads.offers, fun j hj d other => ?_⟩
    rcases Nat.lt_succ_iff_lt_or_eq.mp hj with before | rfl
    · exact leads.oldest j before d other
    · rw [← offered.unique other]
      exact .inl (Nat.lt_of_not_le younger)

theorem Leads.skip {n : Nat} {e : BusPacket × Nat} (leads : Leads s check n e)
    (nothing : ∀ c, ¬ s.Offers check n c) : Leads s check (n + 1) e := by
  refine ⟨leads.offers, fun j hj d other => ?_⟩
  rcases Nat.lt_succ_iff_lt_or_eq.mp hj with before | rfl
  · exact leads.oldest j before d other
  · exact absurd other (nothing d)

/-- **The second scan is defined**: it has a candidate to compare with wherever it finds a front that is
offered, and it ends with the oldest. -/
theorem secondScan_spec {best : Option (BusPacket × Nat)} (scanned : Scanned s s' s.queueCount)
    (offers : ∀ c i, best = some (c, i) → s.Offers check i c)
    (nothing : best = none → ∀ i < s.queueCount, ∀ c, ¬ s.Offers check i c) {n : Nat}
    (bound : n ≤ s.queueCount) :
    ∃ s'' best', (List.range n).foldlM (secondScan check) (s', best) = some (s'', best') ∧
      Scanned s s'' s.queueCount ∧ (best' = none ↔ best = none) ∧
      ∀ e, best' = some e → Leads s check n e := by
  induction n with
  | zero =>
    refine ⟨s', best, rfl, scanned, Iff.rfl, fun e chosen => ⟨offers e.1 e.2 chosen, fun j hj => ?_⟩⟩
    exact absurd hj (Nat.not_lt_zero j)
  | succ n ih =>
    obtain ⟨s₁, best₁, folded, scanned₁, same, leads⟩ := ih (by omega)
    rw [List.range_succ, List.foldlM_append, folded]
    simp only [Option.bind_eq_bind, Option.bind_some, List.foldlM_cons, List.foldlM_nil]
    unfold secondScan
    dsimp only
    cases looks : s₁.look n true with
    | mk s₂ front =>
      obtain ⟨scanned₂, head⟩ := scanned₁.look (show n ≤ s.queueCount by omega) looks
      rw [Nat.max_eq_left bound] at scanned₂
      have idle : (∀ c, ¬ s.Offers check n c) → ∀ e, best₁ = some e → Leads s check (n + 1) e :=
        fun none e chosen => (leads e chosen).skip none
      cases front with
      | none =>
        refine ⟨s₂, best₁, rfl, scanned₂, same, idle fun c offered => ?_⟩
        cases head.trans offered.2.1
      | some c =>
        dsimp only
        rw [scanned₂.alike.canIssue]
        split
        · next can =>
          have offered : s.Offers check n c := ⟨by omega, head.symm, can⟩
          cases kept : best₁ with
          | none => exact absurd offered (nothing (same.mp kept) n (by omega) c)
          | some e =>
            refine ⟨s₂, some (if c.arriveTime ≤ e.1.arriveTime then (c, n) else e), ?_, scanned₂, ?_,
              fun d chosen => Option.some.inj chosen ▸ (leads e kept).turn offered⟩
            · rw [apply_ite some]
              rfl
            · rw [← same, kept]
              simp
        · next cannot =>
          refine ⟨s₂, best₁, rfl, scanned₂, same, idle fun d offered => ?_⟩
          obtain rfl : c = d := Option.some.inj (head.trans offered.2.1)
          exact cannot offered.2.2

/-- **PUSH is oldest-first**, for any number of queues with two sides and any contents, timers and
answers. A call is defined (the second scan never reads a missing candidate). It returns nothing
exactly where no queue offers its critical front, and then leaves the queues as they are; otherwise it
returns a front that is offered, of the smallest arrival time among all that are, of the last queue
among those. That front leaves its own queue, and nothing else leaves or joins one. Without any queue
the field `scheduledCommand` is returned as it stands, and that is as the constructor left it. -/
theorem push_oldest (spec : DeviceSpec) (check : Answers) {s : CommandScheduler} (sided : s.Sided)
    (fresh : s.queueCount = 0 → s.scheduledCommand = none) :
    ∃ s' out, commandSchedule spec check s = some (s', out) ∧
      (out = none ↔ ∀ i c, ¬ s.Offers check i c) ∧
      (out = none → ∀ j k, s'.side j k = s.side j k) ∧
      ∀ c, out = some c → ∃ i, s.Offers check i c ∧
        (∀ j d, s.Offers check j d →
          c.arriveTime < d.arriveTime ∨ c.arriveTime = d.arriveTime ∧ j ≤ i) ∧
        ∀ j k, s'.side j k = if j = i ∧ k = true then (s.side j k).tail else s.side j k := by
  obtain ⟨s₁, best, first, scanned, offers, nothing⟩ :=
    firstScan_spec check s (Nat.le_refl s.queueCount)
  obtain ⟨s₂, chosen, second, scanned₂, same, leads⟩ :=
    secondScan_spec scanned offers nothing (Nat.le_refl s.queueCount)
  unfold commandSchedule
  dsimp only
  rw [first, second, Option.map_some]
  cases chosen with
  | none =>
    have nobody : ∀ i c, ¬ s.Offers check i c := fun i c offered =>
      nothing (same.mp rfl) i offered.1 c offered
    have left : (if s.queueCount = 0 then s₂.scheduledCommand else none) = none := by
      split
      · next zero =>
        -- no queue: neither scan has touched the scheduler
        rw [zero] at first second
        obtain ⟨rfl, rfl⟩ : s = s₁ ∧ none = best := by simpa using first
        obtain rfl : s = s₂ := by simpa using second
        exact fresh zero
      · rfl
    rw [left]
    exact ⟨_, _, rfl, iff_of_true rfl nobody, fun _ j k => scanned₂.alike.side j k, nofun⟩
  | some e =>
    obtain ⟨c, i⟩ := e
    have led := leads (c, i) rfl
    refine ⟨_, _, rfl, iff_of_false nofun fun none => none i c led.offers, nofun, fun d returned => ?_⟩
    obtain rfl := Option.some.inj returned
    exact ⟨i, led.offers, fun j d offered => led.oldest j offered.1 d offered,
      scanned₂.side_issue sided led.offers.1 led.offers.2.1 spec⟩

/-- Queues with one critical front each, of a type and an arrival time. -/
def withFronts (fronts : List (BusPacketType × Nat)) : CommandScheduler :=
  fronts.zipIdx.foldl (fun s e =>
    s.insertCommand e.2 { sampleCommand e.1.1 0 e.2 with arriveTime := e.1.2 } true)
    (create fronts.length false (.create .none openPageSetup.device 0 0))

/-- The law at three fronts, the two later ones equally old: the last one goes. -/
theorem push_oldest_ofThree :
    ∃ s' i, commandSchedule openPageSetup.device (fun _ => true)
        (withFronts [(.ACT, 7), (.RD, 3), (.PRE, 3)]) =
          some (s', some { sampleCommand .PRE 0 2 with arriveTime := 3 }) ∧
      s'.side i true = ((withFronts [(.ACT, 7), (.RD, 3), (.PRE, 3)]).side i true).tail := by
  have sided : (withFronts [(.ACT, 7), (.RD, 3), (.PRE, 3)]).Sided :=
    (((sided_create 3 _).insertCommand _ _ _).insertCommand _ _ _).insertCommand _ _ _
  obtain ⟨s', out, scheduled, _, _, chosen⟩ :=
    push_oldest openPageSetup.device (fun _ => true) sided nofun
  have told : (commandSchedule openPageSetup.device (fun _ => true)
      (withFronts [(.ACT, 7), (.RD, 3), (.PRE, 3)])).map (·.2) =
        some (some { sampleCommand .PRE 0 2 with arriveTime := 3 }) := by decide +kernel
  rw [scheduled] at told
  obtain rfl := Option.some.inj told
  obtain ⟨i, _, _, sides⟩ := chosen _ rfl
  refine ⟨s', i, scheduled, ?_⟩
  rw [sides, if_pos ⟨rfl, rfl⟩]

end Push
end MCsim
