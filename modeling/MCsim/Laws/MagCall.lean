import MCsim.Laws.Mag
import Mathlib.Data.Nat.ModEq

/-!
# What a call of MAG queues and sends

A call described from the state before it: the non-critical fronts that the preemption generator is
called for (`preempted`), the compensation that is queued when the first loop ends (`compensated`), the
candidates of the second loop (`offered`), and the command that goes (`Chose`).

The generator looks at the non-critical side of a queue, and `removeCommand` takes from the side looked
at last. A critical command of a queue that the generator has looked at since the command was found stays
in its queue when it is sent, and the non-critical front leaves instead (`loses`).
-/

namespace MCsim
namespace Mag

open CommandScheduler

variable {check : Answers} {s s' : CommandScheduler} {p p' : MagState}

/-! ## The first loop, seen from the state before the call -/

/-- The real-time loop gets as far as a turn. -/
def reached (check : Answers) (s : CommandScheduler) (p : MagState) (k : Nat) : Prop :=
  (0 < k → p.casBlocking = false) ∧ ∀ j < k, passes check s p j = true

instance (k : Nat) : Decidable (reached check s p k) := by
  unfold reached
  infer_instance

/-- The non-critical front that the generator is called for in a turn, if it is called. -/
def preempted (check : Answers) (s : CommandScheduler) (p : MagState) (k : Nat) : Option BusPacket :=
  if k < s.queueCount ∧ reached check s p k ∧ (seen s p (k + 1)).isSome = true ∧
      s.side (place s p k) false ≠ [] ∧ p.compensateCommands k = [] then
    (s.side k false).head?
  else none

/-- The compensation commands of a queue at the end of the loop. -/
def compensated (check : Answers) (s : CommandScheduler) (p : MagState) (i : Nat) : List BusPacket :=
  (preempted check s p i).elim (p.compensateCommands i) compensationFor

/-- The critical front that a turn chooses. -/
def chosen (check : Answers) (s : CommandScheduler) (p : MagState) (k : Nat) : Option BusPacket :=
  (found s p k).filter fun c =>
    (p.casBlocking || s.isReady c (place s p k)) && s.isIssuable check c

/-- The generator looks at the queue of a turn's front in that turn or later. -/
def loses (check : Answers) (s : CommandScheduler) (p : MagState) (k : Nat) : Bool :=
  decide (k ≤ place s p k) && (preempted check s p (place s p k)).isSome

/-! ## One turn -/

/-- The front that the generator looks at in a pass. -/
def called (t : Pass) (index : Nat) : Option BusPacket :=
  if enters t index then (t.scheduler.side index false).head? else none

/-- The end of a turn of the loop: the generator's part. -/
theorem generator_fields (t : Pass) (index : Nat) :
    let t' := if enters t index then compensateGenerator t index else t
    (∀ i, t'.own.compensateCommands i =
      if i = index then (called t index).elim (t.own.compensateCommands i) compensationFor
      else t.own.compensateCommands i) ∧
    ∀ i, t'.scheduler.last i =
      if i = index ∧ (called t index).isSome = true then false else t.scheduler.last i := by
  unfold called
  cases runs : enters t index with
  | false => simp
  | true =>
    have none_yet : t.own.compensateCommands index = [] := by
      simp only [enters, Bool.and_eq_true, List.isEmpty_iff] at runs
      exact runs.2
    simp only [if_true]
    unfold compensateGenerator
    cases looks : t.scheduler.look index false with
    | mk s₁ front =>
      obtain ⟨looked, head, same, noted⟩ := look_cases looks
      cases front with
      | none => simp [← head]
      | some c =>
        rw [← head]
        refine ⟨fun i => ?_, fun i => ?_⟩
        · by_cases here : i = index
          · simp [here, none_yet]
          · simp [here]
        · by_cases here : i = index
          · subst here
            simpa using noted rfl
          · simpa [here] using looked.last here

/-- What a turn offers: the critical front found is noted, and it is chosen where the device takes it and
it is ready, or has been before. -/
theorem lookRT_fields {t u : Pass} (h : lookRT check t = some u) :
    u.own.compensateCommands = t.own.compensateCommands ∧ u.own.indexRT = t.own.indexRT ∧
      Alike t.scheduler u.scheduler ∧
      (∀ i, u.scheduler.last i = if i = t.own.indexRT ∧
          (t.scheduler.side t.own.indexRT true).head?.isSome = true then true
        else t.scheduler.last i) ∧
      u.tempCmd = ((t.scheduler.side t.own.indexRT true).head?.map fun c => (c, .realTime)).or t.tempCmd ∧
      u.scheduledCommand = (((t.scheduler.side t.own.indexRT true).head?.filter fun c =>
          (t.own.casBlocking || t.scheduler.isReady c t.own.indexRT) &&
            t.scheduler.isIssuable check c).map fun c => (c, .realTime)).or t.scheduledCommand := by
  unfold lookRT at h
  cases looks : t.scheduler.look t.own.indexRT true with
  | mk s₁ front =>
    obtain ⟨looked, head, same, noted⟩ := look_cases looks
    rw [looks] at h
    rw [← head]
    cases front with
    | none =>
      obtain rfl := same rfl
      dsimp only at h
      split at h
      · cases h
      · obtain rfl := Option.some.inj h
        exact ⟨rfl, rfl, looked.alike, by simp, rfl, rfl⟩
    | some c =>
      obtain rfl := Option.some.inj h
      obtain ⟨scheduler, temp, index, _, comp⟩ := offer_fields check { t with scheduler := s₁ } c
      refine ⟨comp, index, scheduler ▸ looked.alike, fun i => ?_, temp, ?_⟩
      · rw [scheduler]
        by_cases here : i = t.own.indexRT
        · subst here
          simpa using noted rfl
        · simpa [here] using looked.last here
      · rw [Option.filter_some, ← looked.alike.isReady c, ← looked.alike.isIssuable check c]
        unfold offer
        dsimp only
        cases t.own.casBlocking <;> cases s₁.isReady c t.own.indexRT <;>
          cases s₁.isIssuable check c <;> simp
        split <;> rfl

/-- Different turns have different queues. -/
theorem place_inj {j k : Nat} (hj : j < s.queueCount) (hk : k < s.queueCount)
    (same : place s p j = place s p k) : j = k :=
  Nat.ModEq.eq_of_lt_of_lt (Nat.ModEq.add_left_cancel' p.indexRT same) hj hk

/-- A pass before a turn, with what the generator has queued, and with the side of each queue that was
looked at last. -/
structure Tracking (check : Answers) (s : CommandScheduler) (p : MagState) (k : Nat) (t : Pass) :
    Prop where
  turning : Turning check s p k t
  comp : ∀ i, t.own.compensateCommands i =
    if i < k then compensated check s p i else p.compensateCommands i
  noted : ∀ j < k, (found s p j).isSome = true →
    t.scheduler.last (place s p j) = !(loses check s p j && decide (place s p j < k))

/-- What a turn leaves: the fields of a pass after turn `k`. -/
structure Turned (check : Answers) (s : CommandScheduler) (p : MagState) (k : Nat) (t : Pass) :
    Prop where
  comp : ∀ i, t.own.compensateCommands i =
    if i < k + 1 then compensated check s p i else p.compensateCommands i
  noted : ∀ j < k + 1, (found s p j).isSome = true →
    t.scheduler.last (place s p j) = !(loses check s p j && decide (place s p j < k + 1))
  scheduled : t.scheduledCommand = (chosen check s p k).map fun c => (c, .realTime)

/-- The front that a turn looks at. -/
theorem Tracking.front {k : Nat} {t : Pass} (tracking : Tracking check s p k t) :
    (t.scheduler.side t.own.indexRT true).head? = found s p k := by
  rw [found, ← tracking.turning.index, tracking.turning.alike.side]

/-- The generator is called in a turn where `preempted` says so, for the front it says. -/
theorem Tracking.called {k : Nat} {t u : Pass} (tracking : Tracking check s p k t)
    (bound : k < s.queueCount) (looks : lookRT check t = some u) :
    Mag.called u k = preempted check s p k := by
  have front := tracking.front
  obtain ⟨turning, comp, _⟩ := tracking
  obtain ⟨compU, indexU, alikeU, _, tempU, _⟩ := lookRT_fields looks
  have temp : u.tempCmd.isSome = (seen s p (k + 1)).isSome := by
    rw [tempU, front, turning.tempCmd, seen]
    cases found s p k <;> simp
  have waits : (u.scheduler.commandQueue u.own.indexRT).getSize false > 0 ↔
      s.side (place s p k) false ≠ [] := by
    have side : (u.scheduler.commandQueue u.own.indexRT).general false =
        s.side (place s p k) false := by
      rw [← turning.index, ← indexU]
      exact (alikeU.side u.own.indexRT false).trans (turning.alike.side u.own.indexRT false)
    unfold CommandQueue.getSize
    rw [side]
    exact List.length_pos_iff
  have none_yet : u.own.compensateCommands k = p.compensateCommands k := by
    rw [compU, comp, if_neg (Nat.lt_irrefl k)]
  have side : u.scheduler.side k false = s.side k false := by
    rw [alikeU.side, turning.alike.side]
  have conditions : enters u k = true ↔ (seen s p (k + 1)).isSome = true ∧
      s.side (place s p k) false ≠ [] ∧ p.compensateCommands k = [] := by
    simp only [enters, Bool.and_eq_true, decide_eq_true_eq, waits, temp, none_yet, List.isEmpty_iff,
      and_assoc]
  have gets : reached check s p k := ⟨turning.free, turning.passed⟩
  unfold Mag.called preempted
  rw [side]
  by_cases runs : enters u k = true
  · rw [if_pos runs, if_pos ⟨bound, gets, conditions.mp runs⟩]
  · rw [if_neg runs, if_neg fun all => runs (conditions.mpr all.2.2)]

/-- The side that a turn leaves noted of its own queue: the critical one, unless the generator looked at
this queue in the same turn. -/
theorem looks_own {k : Nat} :
    (if place s p k = k ∧ (preempted check s p k).isSome = true then false else true) =
      !(loses check s p k && decide (place s p k < k + 1)) := by
  unfold loses
  by_cases here : place s p k = k
  · rw [here]
    cases lost : (preempted check s p k).isSome <;> simp
  · rw [if_neg fun both => here both.1]
    rcases Nat.lt_or_gt_of_ne here with less | more
    · simp [Nat.not_le.mpr less]
    · simp [Nat.not_lt.mpr (show k + 1 ≤ place s p k by omega)]

/-- The side noted of an earlier turn's queue: the generator may look at it in this turn. -/
theorem looks_earlier {j k : Nat} (earlier : j < k) :
    (if place s p j = k ∧ (preempted check s p k).isSome = true then false
      else !(loses check s p j && decide (place s p j < k))) =
      !(loses check s p j && decide (place s p j < k + 1)) := by
  by_cases here : place s p j = k
  · unfold loses
    rw [here]
    cases lost : (preempted check s p k).isSome
    · simp
    · simp [Nat.le_of_lt earlier]
  · have before : place s p j < k + 1 ↔ place s p j < k := by omega
    simp [here, before]

/-- **A turn of the loop**: its queue is looked at, its front is chosen where it can go, and the generator
queues the compensation of the queue with the turn's number. -/
theorem Tracking.turn {k : Nat} {t t' : Pass} (tracking : Tracking check s p k t)
    (bound : k < s.queueCount) (turned : turnRT check t k = some t') : Turned check s p k t' := by
  obtain ⟨u, looks, rfl⟩ := Option.map_eq_some_iff.mp turned
  have calls := tracking.called bound looks
  have front := tracking.front
  obtain ⟨turning, comp, noted⟩ := tracking
  obtain ⟨compU, _, _, lastU, _, scheduledU⟩ := lookRT_fields looks
  obtain ⟨compT, lastT⟩ := generator_fields u k
  refine ⟨fun i => ?_, fun j hj head => ?_, ?_⟩
  · rw [compT, calls]
    by_cases here : i = k
    · subst here
      rw [if_pos rfl, if_pos (Nat.lt_succ_self i), compU, comp, if_neg (Nat.lt_irrefl i)]
      rfl
    · rw [if_neg here, compU, comp]
      have before : i < k + 1 ↔ i < k := by omega
      simp only [before]
  · rw [lastT, calls]
    rcases Nat.lt_succ_iff_lt_or_eq.mp hj with earlier | rfl
    · -- an earlier turn's queue is not this turn's
      have other : place s p j ≠ place s p k := fun same =>
        absurd (place_inj (by omega) bound same) (by omega)
      have kept : u.scheduler.last (place s p j) =
          !(loses check s p j && decide (place s p j < k)) := by
        rw [lastU, turning.index, if_neg fun both => other both.1, noted j earlier head]
      rw [kept]
      exact looks_earlier earlier
    · have looked : u.scheduler.last (place s p j) = true := by
        rw [lastU, front, turning.index, if_pos ⟨rfl, head⟩]
      rw [looked]
      exact looks_own
  · have chooses : ∀ c, ((t.own.casBlocking || t.scheduler.isReady c t.own.indexRT) &&
        t.scheduler.isIssuable check c) =
        ((p.casBlocking || s.isReady c (place s p k)) && s.isIssuable check c) := by
      intro c
      rw [turning.blocking, turning.index, turning.alike.isReady, turning.alike.isIssuable]
    have same : (if enters u k then compensateGenerator u k else u).scheduledCommand =
        u.scheduledCommand := (generated_preempt u k).fields.2.1
    rw [same, scheduledU, turning.unchosen, front, Option.or_none]
    unfold chosen
    simp only [chooses]

/-! ## The first loop -/

theorem preempted_reached {i : Nat} {c : BusPacket} (h : preempted check s p i = some c) :
    i < s.queueCount ∧ reached check s p i ∧ p.compensateCommands i = [] ∧
      (s.side i false).head? = some c := by
  unfold preempted at h
  split at h
  · next all => exact ⟨all.1, all.2.1, all.2.2.2.2, h⟩
  · cases h

/-- A loop that stops in a turn calls the generator for no queue of a later number. -/
theorem preempted_stopped {i k : Nat} (held : p.casBlocking = true ∨ passes check s p k = false)
    (later : k < i) : preempted check s p i = none := by
  apply Option.eq_none_iff_forall_ne_some.mpr
  intro c called
  obtain ⟨free, passed⟩ := (preempted_reached called).2.1
  rcases held with blocked | stops
  · rw [free (by omega)] at blocked
    cases blocked
  · rw [passed k later] at stops
    cases stops

/-- How the real-time loop ends. -/
inductive RealTimeEnds (check : Answers) (s : CommandScheduler) (p : MagState) (t : Pass) : Prop
  | blocked (unchosen : t.scheduledCommand = none) (blocked : t.own.casBlocking = true)
      (comp : ∀ i, t.own.compensateCommands i = compensated check s p i)
  | critical {k : Nat} {c : BusPacket} (bound : k < s.queueCount) (gets : reached check s p k)
      (head : chosen check s p k = some c) (sent : t.scheduledCommand = some (c, .realTime))
      (comp : ∀ i, t.own.compensateCommands i = compensated check s p i)
      (noted : t.scheduler.last (place s p k) = !loses check s p k)
  | passed (tracking : Tracking check s p s.queueCount t)

/-- **The real-time loop, in full.** -/
theorem Kept.realTime_ends (kept : Kept s p) {t : Pass}
    (h : Mag.realTime check (List.range s.queueCount)
      { scheduler := { s with scheduledCommand := none }, own := p } = some t) :
    RealTimeEnds check s p t := by
  have ends := realTime_rule (Tracking check s p) (RealTimeEnds check s p) ?_ ?_ h
  · rcases ends with done | tracking
    · exact done
    · exact .passed tracking
  · intro k t t' bound tracking turned
    obtain ⟨comp, noted, scheduled⟩ := tracking.turn bound turned
    obtain ⟨blocks, goes, onward⟩ := tracking.turning.turn kept bound turned
    have stops : (p.casBlocking = true ∨ passes check s p k = false) →
        (∀ i, t'.own.compensateCommands i = compensated check s p i) ∧
          ((found s p k).isSome = true → t'.scheduler.last (place s p k) = !loses check s p k) := by
      intro held
      have none_later : ∀ i, k < i → preempted check s p i = none :=
        fun i later => preempted_stopped held later
      refine ⟨fun i => ?_, fun head => ?_⟩
      · rw [comp]
        by_cases early : i < k + 1
        · rw [if_pos early]
        · rw [if_neg early, compensated, none_later i (by omega)]
          rfl
      · rw [noted k (Nat.lt_succ_self k) head]
        by_cases early : place s p k < k + 1
        · simp [early]
        · simp [loses, none_later (place s p k) (by omega)]
    rcases tracking.turning.outcome kept turned with
      ⟨c, head, _, held, ⟨sent, free⟩ | ⟨unchosen, blocked⟩⟩ | ⟨unchosen, free, _, _, _⟩
    · obtain ⟨comps, last⟩ := stops held
      have chose : chosen check s p k = some c := by
        rw [sent] at scheduled
        obtain ⟨d, chose, same⟩ := Option.map_eq_some_iff.mp scheduled.symm
        obtain rfl : d = c := congrArg Prod.fst same
        exact chose
      refine ⟨fun blocked => ?_, fun _ _ => ?_, fun _ none => ?_⟩
      · rw [free] at blocked
        cases blocked
      · exact .critical bound ⟨tracking.turning.free, tracking.turning.passed⟩ chose sent comps
          (last (by rw [head]; rfl))
      · rw [sent] at none
        cases none
    · obtain ⟨comps, _⟩ := stops held
      refine ⟨fun _ => .blocked unchosen blocked comps, fun free => ?_, fun free => ?_⟩
      all_goals
        rw [blocked] at free
        cases free
    · refine ⟨fun blocked => ?_, fun _ some' => ?_, fun _ _ => ?_⟩
      · rw [free] at blocked
        cases blocked
      · rw [unchosen] at some'
        cases some'
      · exact ⟨onward free unchosen, comp, noted⟩
  · refine ⟨?_, fun i => ?_, fun j hj => absurd hj (Nat.not_lt_zero j)⟩
    · exact ⟨.refl s none, kept.place_zero.symm, rfl, fun _ _ => rfl, rfl, rfl, rfl,
        fun j hj => absurd hj (Nat.not_lt_zero j), fun h => absurd h (Nat.lt_irrefl 0)⟩
    · rw [if_neg (Nat.not_lt_zero i)]

/-! ## The second loop, seen from the state before the call -/

/-- What the second loop finds at a queue: the first of its compensation and its non-critical commands. -/
def own (check : Answers) (s : CommandScheduler) (p : MagState) (i : Nat) : Option BusPacket :=
  (compensated check s p i ++ s.side i false).head?

/-- The queue of a turn. -/
def placeHP (s : CommandScheduler) (p : MagState) (k : Nat) : Nat := (p.indexHP + k) % s.queueCount

/-- The candidate of a turn: the queue's own, or the one of the turn before, or the last critical front
that the first loop has seen. -/
def offered (check : Answers) (s : CommandScheduler) (p : MagState) : Nat → Option BusPacket
  | 0 => (own check s p (placeHP s p 0)).or (seen s p s.queueCount)
  | k + 1 => (own check s p (placeHP s p (k + 1))).or (offered check s p k)

/-- The command that a turn takes from its own queue: the first loop let every front pass, and every
candidate before was refused. -/
def taken (check : Answers) (s : CommandScheduler) (p : MagState) (k : Nat) : Option BusPacket :=
  if reached check s p s.queueCount ∧
      ∀ j < k, (offered check s p j).any (fun c => !s.isIssuable check c) = true then
    (own check s p (placeHP s p k)).filter (s.isIssuable check)
  else none

/-- The critical front of a turn goes: the first loop chooses it, or the second one overlooks that it is
not ready. -/
def Goes (check : Answers) (s : CommandScheduler) (p : MagState) (k : Nat) (c : BusPacket) : Prop :=
  reached check s p k ∧ chosen check s p k = some c ∨
    Overlooked check s p ∧ found s p k = some c ∧ ∀ j < s.queueCount, k < j → found s p j = none

/-- **The command that a call chooses**, with the compensation that is left and the side of its queue that
was looked at last. -/
inductive Chose (check : Answers) (s : CommandScheduler) (p : MagState) (t : Pass) : Prop
  | nothing (unchosen : t.scheduledCommand = none)
      (comp : ∀ i, t.own.compensateCommands i = compensated check s p i)
  | critical {k : Nat} {c : BusPacket} (bound : k < s.queueCount) (goes : Goes check s p k c)
      (sent : t.scheduledCommand = some (c, .realTime))
      (comp : ∀ i, t.own.compensateCommands i = compensated check s p i)
      (noted : t.scheduler.last (place s p k) = !loses check s p k)
  | compensation {k : Nat} {c : BusPacket} (bound : k < s.queueCount) (takes : taken check s p k = some c)
      (sent : t.scheduledCommand = some (c, .compensation))
      (front : (compensated check s p (placeHP s p k)).head? = some c)
      (comp : ∀ i, t.own.compensateCommands i =
        if i = placeHP s p k then (compensated check s p i).tail else compensated check s p i)
  | other {k : Nat} {c : BusPacket} (bound : k < s.queueCount) (takes : taken check s p k = some c)
      (sent : t.scheduledCommand = some (c, .highPerformance))
      (empty : compensated check s p (placeHP s p k) = [])
      (front : (s.side (placeHP s p k) false).head? = some c)
      (comp : ∀ i, t.own.compensateCommands i = compensated check s p i)
      (noted : t.scheduler.last (placeHP s p k) = false)

/-- The last critical front seen is one that a turn found, and no turn found one after it. -/
theorem seen_last {k : Nat} {c : BusPacket} (h : seen s p k = some c) :
    ∃ j < k, found s p j = some c ∧ ∀ i < k, j < i → found s p i = none := by
  induction k with
  | zero => cases h
  | succ k ih =>
    rw [seen] at h
    cases here : found s p k with
    | some d =>
      rw [here] at h
      obtain rfl : d = c := Option.some.inj h
      exact ⟨k, Nat.lt_succ_self k, here, fun i hi later => by omega⟩
    | none =>
      rw [here] at h
      obtain ⟨j, earlier, there, nothing⟩ := ih h
      refine ⟨j, Nat.lt_succ_of_lt earlier, there, fun i hi later => ?_⟩
      rcases Nat.lt_succ_iff_lt_or_eq.mp hi with before | rfl
      · exact nothing i before later
      · exact here

/-- A pass of the second loop before a turn: every candidate so far was refused, and `tempCmd` is the last
one of them. -/
structure Seconding (check : Answers) (s : CommandScheduler) (p : MagState) (k : Nat) (t : Pass) :
    Prop where
  serving : Serving s (place s p s.queueCount) t
  comp : ∀ i, t.own.compensateCommands i = compensated check s p i
  index : t.own.indexHP = placeHP s p k
  first : k = 0 → t.tempCmd = (seen s p s.queueCount).map (fun c => (c, .realTime)) ∧
    ∀ j < s.queueCount, (found s p j).isSome = true →
      t.scheduler.last (place s p j) = !loses check s p j
  later : ∀ j, k = j + 1 → ∃ e, t.tempCmd = some e ∧ offered check s p j = some e.1
  refused : ∀ j < k, (offered check s p j).any (fun c => !s.isIssuable check c) = true

/-- A turn that is refused. -/
theorem Seconding.refuse {k : Nat} {t : Pass} {e : Candidate} (seconding : Seconding check s p k t)
    (positive : 0 < s.queueCount) (temp : (lookHP t).tempCmd = some e)
    (offers : offered check s p k = some e.1) (no : s.isIssuable check e.1 = false) :
    Seconding check s p (k + 1) (advanceHP (lookHP t)) := by
  obtain ⟨alike, same, _⟩ := lookHP_frame t
  refine ⟨seconding.serving.look.advance, fun i => ?_, ?_, nofun, fun j next => ?_, fun j hj => ?_⟩
  · rw [← seconding.comp i, ← same]
    rfl
  · have moved : (advanceHP (lookHP t)).own.indexHP =
        Lib.Rotation.next (lookHP t).scheduler.queueCount (lookHP t).own.indexHP := rfl
    rw [moved, same, seconding.index, alike.queueCount, seconding.serving.alike.queueCount]
    exact Lib.Rotation.next_mod positive p.indexHP k
  · obtain rfl : k = j := Nat.succ.inj next
    exact ⟨e, temp, offers⟩
  · rcases Nat.lt_succ_iff_lt_or_eq.mp hj with earlier | rfl
    · exact seconding.refused j earlier
    · rw [offers]
      simp [no]

/-- A candidate that the queue of the turn has itself. -/
theorem own_some {k : Nat} {c : BusPacket} (mine : own check s p (placeHP s p k) = some c) :
    offered check s p k = some c := by
  cases k <;> rw [offered, mine] <;> rfl

/-- Where the queue of the turn has nothing itself. -/
theorem own_none {i : Nat} (none_left : compensated check s p i = []) (nothing : s.side i false = []) :
    own check s p i = none := by
  rw [own, none_left, nothing]
  rfl

theorem Seconding.taken {k : Nat} {t : Pass} {c : BusPacket} (seconding : Seconding check s p k t)
    (all : reached check s p s.queueCount) (mine : own check s p (placeHP s p k) = some c)
    (issuable : s.isIssuable check c = true) : Mag.taken check s p k = some c := by
  rw [Mag.taken, if_pos ⟨all, seconding.refused⟩, mine, Option.filter_some, if_pos issuable]

/-- The candidate of a turn: it is `tempCmd` after the look, and taking it is what the call chooses. -/
structure Decides (check : Answers) (s : CommandScheduler) (p : MagState) (k : Nat) (t : Pass)
    (e : Candidate) : Prop where
  temp : (lookHP t).tempCmd = some e
  offers : offered check s p k = some e.1
  takes : ∀ {u}, s.isIssuable check e.1 = true → take (lookHP t) e = some u → Chose check s p u

/-- The first of the queue's compensation. -/
theorem Seconding.compensation {k : Nat} {t : Pass} {e : Candidate}
    (seconding : Seconding check s p k t) (bound : k < s.queueCount)
    (all : reached check s p s.queueCount) (same : lookHP t = { t with tempCmd := some e })
    (kind : e.2 = .compensation)
    (front : (t.own.compensateCommands t.own.indexHP).head? = some e.1) :
    Decides check s p k t e := by
  rw [seconding.comp, seconding.index] at front
  have mine : own check s p (placeHP s p k) = some e.1 := by
    rw [own, List.head?_append, front]
    rfl
  refine ⟨by rw [same], own_some mine, fun issuable takes => ?_⟩
  have took := seconding.taken all mine issuable
  obtain ⟨sent, _, _, _, comps⟩ := take_cases takes
  obtain ⟨c, origin⟩ := e
  obtain rfl : origin = .compensation := kind
  refine .compensation bound took sent front fun i => ?_
  rw [comps, same]
  dsimp only
  rw [seconding.comp, seconding.index]
  simp

/-- The queue's non-critical front, where it has no compensation. -/
theorem Seconding.other {k : Nat} {t : Pass} {s₁ : CommandScheduler} {e : Candidate}
    (seconding : Seconding check s p k t) (bound : k < s.queueCount)
    (all : reached check s p s.queueCount)
    (same : lookHP t = { t with scheduler := s₁, tempCmd := some e }) (kind : e.2 = .highPerformance)
    (last : s₁.last t.own.indexHP = false)
    (none_left : t.own.compensateCommands t.own.indexHP = [])
    (front : (t.scheduler.side t.own.indexHP false).head? = some e.1) : Decides check s p k t e := by
  rw [seconding.comp, seconding.index] at none_left
  rw [seconding.index, seconding.serving.alike.side] at front
  have mine : own check s p (placeHP s p k) = some e.1 := by
    rw [own, none_left, List.nil_append, front]
  refine ⟨by rw [same], own_some mine, fun issuable takes => ?_⟩
  have took := seconding.taken all mine issuable
  obtain ⟨sent, scheduler, _, _, comps⟩ := take_cases takes
  obtain ⟨c, origin⟩ := e
  obtain rfl : origin = .highPerformance := kind
  refine .other bound took sent none_left front (fun i => ?_) ?_
  · rw [comps, same]
    dsimp only
    rw [seconding.comp]
    simp
  · rw [scheduler, same, ← seconding.index]
    exact last

/-- The last critical front of the first loop, where the first queue has nothing. -/
theorem Seconding.lastFront {t : Pass} {c : BusPacket} (seconding : Seconding check s p 0 t)
    (all : reached check s p s.queueCount) (bound : p.indexHP < s.queueCount) (stays : lookHP t = t)
    (none_left : compensated check s p (placeHP s p 0) = [])
    (nothing : s.side (placeHP s p 0) false = []) (last : seen s p s.queueCount = some c) :
    Decides check s p 0 t (c, .realTime) := by
  obtain ⟨temp, noted⟩ := seconding.first rfl
  refine ⟨?_, ?_, fun issuable takes => ?_⟩
  · rw [stays, temp, last]
    rfl
  · rw [offered, own_none none_left nothing, Option.none_or, last]
  · obtain ⟨j, small, head, none_later⟩ := seen_last last
    obtain ⟨sent, scheduler, _, _, comps⟩ := take_cases takes
    rw [stays] at scheduler comps
    have start : placeHP s p 0 = p.indexHP := Nat.mod_eq_of_lt bound
    rw [start] at none_left nothing
    have none_before : p.compensateCommands p.indexHP = [] := by
      cases calls : preempted check s p p.indexHP with
      | none =>
        rw [compensated, calls] at none_left
        exact none_left
      | some d => exact (preempted_reached calls).2.2.1
    have overlooked : Overlooked check s p := by
      refine ⟨all.1 (Nat.zero_lt_of_lt bound), all.2, none_before, nothing, ?_⟩
      rw [last]
      exact issuable
    refine .critical small (.inr ⟨overlooked, head, none_later⟩) sent (fun i => ?_) ?_
    · rw [comps, if_neg (by simp), seconding.comp]
    · rw [scheduler]
      exact noted j small (by rw [head]; rfl)

/-- The candidate of the turn before, which was refused. -/
theorem Seconding.stale {j : Nat} {t : Pass} (seconding : Seconding check s p (j + 1) t)
    (stays : lookHP t = t) (mine : own check s p (placeHP s p (j + 1)) = none) :
    ∃ e, Decides check s p (j + 1) t e := by
  obtain ⟨e, temp, before⟩ := seconding.later j rfl
  have refused : s.isIssuable check e.1 = false := by
    have no := seconding.refused j (Nat.lt_succ_self j)
    rw [before] at no
    simpa using no
  refine ⟨e, by rw [stays, temp], ?_, fun issuable _ => ?_⟩
  · rw [offered, mine, Option.none_or, before]
  · rw [refused] at issuable
    cases issuable

/-- **A turn of the second loop**: it has a candidate, unless nothing was found so far. -/
theorem Seconding.turn {k : Nat} {t : Pass} (seconding : Seconding check s p k t)
    (few : k < s.queueCount) (all : reached check s p s.queueCount) (bound : p.indexHP < s.queueCount) :
    (lookHP t = t ∧ t.tempCmd = none) ∨ ∃ e, Decides check s p k t e := by
  rcases lookHP_cases t with ⟨stays, none_left, nothing⟩ |
      ⟨s₁, e, same, _, ⟨kind, rfl, front⟩ | ⟨kind, last, none_left, front⟩⟩
  · rw [seconding.comp, seconding.index] at none_left
    rw [seconding.index, seconding.serving.alike.side] at nothing
    cases k with
    | zero =>
      cases last : seen s p s.queueCount with
      | none =>
        left
        rw [(seconding.first rfl).1, last]
        exact ⟨stays, rfl⟩
      | some c =>
        exact .inr ⟨(c, .realTime), seconding.lastFront all bound stays none_left nothing last⟩
    | succ j => exact .inr (seconding.stale stays (own_none none_left nothing))
  · exact .inr ⟨e, seconding.compensation few all same kind front⟩
  · exact .inr ⟨e, seconding.other few all same kind last none_left front⟩

/-- **The second loop, in full.** -/
theorem Seconding.ends {k turns : Nat} {t t' : Pass} (seconding : Seconding check s p k t)
    (few : k + turns ≤ s.queueCount) (all : reached check s p s.queueCount) (bound : p.indexHP < s.queueCount)
    (h : highPerformance check turns t = some t') : Chose check s p t' := by
  induction turns generalizing k t with
  | zero =>
    obtain rfl : t = t' := Option.some.inj h
    exact .nothing seconding.serving.unchosen seconding.comp
  | succ turns ih =>
    rw [highPerformance] at h
    rcases seconding.turn (by omega) all bound with ⟨stays, none_⟩ | ⟨e, decides⟩
    · -- without a candidate the pass stays as it is
      rw [stays, none_] at h
      exact ih seconding (by omega) h
    · rw [decides.temp] at h
      dsimp only at h
      rw [seconding.serving.look.alike.isIssuable check] at h
      cases takes : s.isIssuable check e.1 with
      | true =>
        rw [takes, if_pos rfl] at h
        exact decides.takes takes h
      | false =>
        rw [takes, if_neg Bool.false_ne_true] at h
        exact ih (seconding.refuse (by omega) decides.temp decides.offers takes) (by omega) h

/-! ## A call -/

/-- **The loops of a call, in full.** -/
theorem Kept.chose (kept : Kept s p) (bound : p.indexHP < s.queueCount) {t : Pass}
    (h : Mag.choose check s p = some t) : Alike s t.scheduler ∧ Chose check s p t := by
  refine ⟨(kept.choose h).1, ?_⟩
  unfold Mag.choose at h
  obtain ⟨u, loop, h⟩ := Option.bind_eq_some_iff.mp h
  cases kept.realTime_ends loop with
  | blocked unchosen blocked comp =>
    obtain rfl : u = t := by simpa [unchosen, blocked] using h
    exact .nothing unchosen comp
  | critical small gets head sent comp noted =>
    obtain rfl : u = t := by simpa [sent] using h
    exact .critical small (.inl ⟨gets, head⟩) sent comp noted
  | passed tracking =>
    obtain ⟨turning, comp, noted⟩ := tracking
    obtain ⟨free, serving⟩ := turning.serving kept
    have second : highPerformance check s.queueCount u = some t := by
      simpa [serving.unchosen, serving.free] using h
    have all : reached check s p s.queueCount := ⟨turning.free, turning.passed⟩
    have start : Seconding check s p 0 u := by
      refine ⟨serving, fun i => ?_, ?_, fun _ => ⟨turning.tempCmd, ?_⟩, nofun,
        fun j hj => absurd hj (Nat.not_lt_zero j)⟩
      · rw [comp]
        by_cases inside : i < s.queueCount
        · rw [if_pos inside]
        · have nothing : preempted check s p i = none := by
            rw [preempted, if_neg fun all => inside all.1]
          rw [if_neg inside, compensated, nothing]
          rfl
      · rw [turning.hp]
        exact (Nat.mod_eq_of_lt bound).symm
      · intro j hj head
        have small : place s p j < s.queueCount := Nat.mod_lt _ (by omega)
        rw [noted j hj head]
        simp [small]
    exact start.ends (Nat.le_of_eq (Nat.zero_add _)) all bound second

/-- The pointer of the second loop stays at a queue. -/
theorem Kept.choose_indexHP (kept : Kept s p) (bound : p.indexHP < s.queueCount) {t : Pass}
    (h : Mag.choose check s p = some t) : t.own.indexHP < s.queueCount := by
  unfold Mag.choose at h
  obtain ⟨u, loop, h⟩ := Option.bind_eq_some_iff.mp h
  have first : u.own.indexHP = p.indexHP ∧ u.scheduler.queueCount = s.queueCount := by
    have ends := realTime_rule (Turning check s p)
      (fun t => t.own.indexHP = p.indexHP ∧ t.scheduler.queueCount = s.queueCount) ?_ ?_ loop
    rcases ends with done | turning
    · exact done
    · exact ⟨turning.hp, turning.alike.queueCount⟩
    · intro k t t' small turning turned
      obtain ⟨alike, _, hp, _⟩ := turning.frame turned
      exact ⟨fun _ => ⟨hp, alike.queueCount⟩, fun _ _ => ⟨hp, alike.queueCount⟩,
        fun free unchosen => (turning.turn kept small turned).2.2 free unchosen⟩
    · exact ⟨.refl s none, kept.place_zero.symm, rfl, fun _ _ => rfl, rfl, rfl, rfl,
        fun j hj => absurd hj (Nat.not_lt_zero j), fun h => absurd h (Nat.lt_irrefl 0)⟩
  split at h
  · have moves : ∀ t : Pass, t.own.indexHP < s.queueCount ∧ t.scheduler.queueCount = s.queueCount →
        (advanceHP (lookHP t)).own.indexHP < s.queueCount ∧
          (advanceHP (lookHP t)).scheduler.queueCount = s.queueCount := by
      rintro t ⟨small, count⟩
      obtain ⟨alike, same, _⟩ := lookHP_frame t
      have count' := alike.queueCount.trans count
      refine ⟨?_, count'⟩
      have next : (advanceHP (lookHP t)).own.indexHP =
          Lib.Rotation.next (lookHP t).scheduler.queueCount (lookHP t).own.indexHP := rfl
      rw [next, count', same]
      exact Lib.Rotation.next_lt small
    have ends := highPerformance_rule
      (fun t => t.own.indexHP < s.queueCount ∧ t.scheduler.queueCount = s.queueCount)
      (fun t => t.own.indexHP < s.queueCount) (fun inv _ => ?_) (fun inv _ _ => moves _ inv) ?_
      ⟨first.1 ▸ bound, first.2⟩ h
    · exact ends.elim id And.left
    · obtain ⟨alike, same, _⟩ := lookHP_frame _
      rw [same, alike.queueCount]
      exact inv
    · intro t e t' inv _ _ takes
      have same : t'.own.indexHP = (advanceHP (lookHP t)).own.indexHP := by
        unfold take at takes
        dsimp only at takes
        split at takes
        · split at takes
          · cases takes
          · obtain rfl := Option.some.inj takes
            rfl
        · obtain rfl := Option.some.inj takes
          rfl
      rw [same]
      exact (moves t inv).1
  · obtain rfl := Option.some.inj h
    rw [first.1]
    exact bound

end Mag
end MCsim
