import MCsim.Schedulers.Mag
import MCsim.Laws.Sides
import MCsim.Setups

/-!
# MAG and the readiness of what it sends

The real-time loop asks `isReady` before it sends a critical command. The high-performance loop does
not, and it starts from the candidate that the real-time loop left: where the queue at `indexHP` has
neither a compensation command nor a non-critical one, the last critical front seen is offered to the
device as it stands. `Overlooked` says of the state before a call that this happens and that the device
takes it; a run returns ready critical commands only, exactly if no call of it is like that
(`mag_ready`).
-/

namespace MCsim
namespace Mag

open CommandScheduler

variable {check : Answers} {s s' : CommandScheduler} {p p' : MagState}

/-! ## The turns of the real-time loop, seen from the state before the call -/

/-- The queue of a turn. -/
def place (s : CommandScheduler) (p : MagState) (k : Nat) : Nat := (p.indexRT + k) % s.queueCount

/-- The critical front that a turn finds. -/
def found (s : CommandScheduler) (p : MagState) (k : Nat) : Option BusPacket :=
  (s.side (place s p k) true).head?

/-- The last critical front found before a turn. -/
def seen (s : CommandScheduler) (p : MagState) : Nat → Option BusPacket
  | 0 => none
  | k + 1 => (found s p k).or (seen s p k)

/-- A turn lets the loop go on: it finds no critical front, or one that is not ready, or one that is
refused and no column access. -/
def passes (check : Answers) (s : CommandScheduler) (p : MagState) (k : Nat) : Bool :=
  (found s p k).all fun c =>
    !s.isReady c (place s p k) || (!s.isIssuable check c && !c.busPacketType.beforeACT)

/-- Every turn passes, the queue at `indexHP` has nothing for the second loop, and the device takes the
last critical front seen. -/
def Overlooked (check : Answers) (s : CommandScheduler) (p : MagState) : Prop :=
  p.casBlocking = false ∧ (∀ k < s.queueCount, passes check s p k = true) ∧
    p.compensateCommands p.indexHP = [] ∧ s.side p.indexHP false = [] ∧
    (seen s p s.queueCount).any (s.isIssuable check) = true

instance : Decidable (Overlooked check s p) := by
  unfold Overlooked
  infer_instance

/-! ## One turn -/

/-- What the generator may change: notes, and the compensation of queues with non-critical commands. -/
structure Generated (t t' : Pass) : Prop where
  alike : Alike t.scheduler t'.scheduler
  comp : ∀ i, t.scheduler.side i false = [] →
    t'.own.compensateCommands i = t.own.compensateCommands i
  same : t' = { t with
    scheduler := t'.scheduler
    own := { t.own with compensateCommands := t'.own.compensateCommands } }

theorem generated_refl (t : Pass) : Generated t t := by
  refine ⟨?_, fun _ _ => rfl, rfl⟩
  exact .refl t.scheduler t.scheduler.scheduledCommand

theorem generated_compensateGenerator (t : Pass) (index : Nat) :
    Generated t (compensateGenerator t index) := by
  unfold compensateGenerator
  cases looks : t.scheduler.look index false with
  | mk s₁ front =>
    obtain ⟨looked, head, _, _⟩ := look_cases looks
    cases front with
    | none => exact generated_refl t
    | some c =>
      refine ⟨looked.alike, fun i empty => ?_, rfl⟩
      have apart : i ≠ index := by
        rintro rfl
        rw [empty] at head
        cases head
      simp [apart]

theorem generated_preempt (t : Pass) (index : Nat) :
    Generated t (if enters t index then compensateGenerator t index else t) := by
  split
  · exact generated_compensateGenerator t index
  · exact generated_refl t

theorem Generated.fields {t t' : Pass} (h : Generated t t') :
    t'.tempCmd = t.tempCmd ∧ t'.scheduledCommand = t.scheduledCommand ∧
      t'.own.casBlocking = t.own.casBlocking ∧ t'.own.indexRT = t.own.indexRT ∧
      t'.own.indexHP = t.own.indexHP := by
  rw [h.same]
  exact ⟨rfl, rfl, rfl, rfl, rfl⟩

/-- **What becomes of a critical front**: it is chosen, or it blocks the loop, or the loop goes on. -/
inductive Offered (check : Answers) (t : Pass) (c : BusPacket) (u : Pass) : Prop
  | chosen (issuable : t.scheduler.isIssuable check c = true)
      (ready : t.own.casBlocking = true ∨ t.scheduler.isReady c t.own.indexRT = true)
      (scheduled : u.scheduledCommand = some (c, .realTime)) (free : u.own.casBlocking = false)
  | blocked (ready : t.own.casBlocking = true ∨ t.scheduler.isReady c t.own.indexRT = true)
      (kind : t.own.casBlocking = true ∨ c.busPacketType.beforeACT = true)
      (same : u.scheduledCommand = t.scheduledCommand) (blocked : u.own.casBlocking = true)
  | passed (held : t.scheduler.isReady c t.own.indexRT = false ∨
        t.scheduler.isIssuable check c = false ∧ c.busPacketType.beforeACT = false)
      (same : u.scheduledCommand = t.scheduledCommand) (free : t.own.casBlocking = false)
      (still : u.own.casBlocking = false)

theorem offer_offered (check : Answers) (t : Pass) (c : BusPacket) :
    Offered check t c (offer check t c) := by
  unfold offer
  dsimp only
  cases blocking : t.own.casBlocking with
  | true =>
    cases issuable : t.scheduler.isIssuable check c with
    | true => exact .chosen issuable (.inl blocking) rfl rfl
    | false => exact .blocked (.inl blocking) (.inl blocking) rfl blocking
  | false =>
    cases ready : t.scheduler.isReady c t.own.indexRT with
    | false => exact .passed (.inl ready) rfl blocking blocking
    | true =>
      cases issuable : t.scheduler.isIssuable check c with
      | true => exact .chosen issuable (.inr ready) rfl blocking
      | false =>
        cases kind : c.busPacketType.beforeACT with
        | true => exact .blocked (.inr ready) (.inr kind) rfl rfl
        | false => exact .passed (.inr ⟨issuable, kind⟩) rfl blocking blocking

/-- Offering a front changes neither the queues nor the indices. -/
theorem offer_fields (check : Answers) (t : Pass) (c : BusPacket) :
    (offer check t c).scheduler = t.scheduler ∧ (offer check t c).tempCmd = some (c, .realTime) ∧
      (offer check t c).own.indexRT = t.own.indexRT ∧ (offer check t c).own.indexHP = t.own.indexHP ∧
      (offer check t c).own.compensateCommands = t.own.compensateCommands := by
  unfold offer
  dsimp only
  repeat' split
  all_goals exact ⟨rfl, rfl, rfl, rfl, rfl⟩

/-- What a turn of the loop makes of a pass: the front found is offered, then the generator may run. -/
theorem turnRT_cases {t t' : Pass} {index : Nat} (h : turnRT check t index = some t') :
    ∃ u s₁, Generated u t' ∧ Alike t.scheduler s₁ ∧
      ((∃ c, (t.scheduler.side t.own.indexRT true).head? = some c ∧
          u = offer check { t with scheduler := s₁ } c) ∨
        ((t.scheduler.side t.own.indexRT true).head? = none ∧ t.own.casBlocking = false ∧ u = t)) := by
  unfold turnRT at h
  obtain ⟨u, looks, rfl⟩ := Option.map_eq_some_iff.mp h
  refine ⟨u, ?_⟩
  unfold lookRT at looks
  cases front : t.scheduler.look t.own.indexRT true with
  | mk s₁ head =>
    obtain ⟨looked, is, _, _⟩ := look_cases front
    rw [front] at looks
    refine ⟨s₁, generated_preempt u index, looked.alike, ?_⟩
    cases head with
    | some c =>
      obtain rfl : _ = u := by simpa using looks
      exact .inl ⟨c, is.symm, rfl⟩
    | none =>
      dsimp only at looks
      split at looks
      · cases looks
      · next free =>
        obtain rfl : _ = u := by simpa using looks
        exact .inr ⟨is.symm, by simpa using free, rfl⟩

/-- **Induction over the real-time loop**: what every turn that lets it go on keeps holds at its end,
unless a turn blocked it or chose a command. -/
theorem realTime_rule (Inv : Nat → Pass → Prop) (Done : Pass → Prop) {turns : Nat}
    (turn : ∀ {k t t'}, k < turns → Inv k t → turnRT check t k = some t' →
      (t'.own.casBlocking = true → Done t') ∧
      (t'.own.casBlocking = false → t'.scheduledCommand.isSome = true → Done (advanceRT t')) ∧
      (t'.own.casBlocking = false → t'.scheduledCommand = none → Inv (k + 1) (advanceRT t')))
    {t t' : Pass} (start : Inv 0 t) (h : realTime check (List.range turns) t = some t') :
    Done t' ∨ Inv turns t' := by
  suffices rest : ∀ n k t, k + n = turns → Inv k t → realTime check (List.range' k n) t = some t' →
      Done t' ∨ Inv turns t' by
    apply rest turns 0 t (Nat.zero_add turns) start
    rw [← List.range_eq_range']
    exact h
  intro n
  induction n with
  | zero =>
    intro k t sum inv done
    obtain rfl : t = t' := by simpa [realTime] using done
    obtain rfl : k = turns := by omega
    exact .inr inv
  | succ n ih =>
    intro k t sum inv done
    rw [List.range'_succ, realTime] at done
    obtain ⟨u, turned, done⟩ := Option.bind_eq_some_iff.mp done
    obtain ⟨blocks, goes, passes⟩ := turn (by omega) inv turned
    cases blocked : u.own.casBlocking with
    | true =>
      obtain rfl : u = t' := by simpa [blocked] using done
      exact .inl (blocks blocked)
    | false =>
      cases scheduled : u.scheduledCommand with
      | some e =>
        obtain rfl : advanceRT u = t' := by simpa [blocked, scheduled] using done
        exact .inl (goes blocked (by rw [scheduled]; rfl))
      | none =>
        rw [blocked, scheduled] at done
        exact ih (k + 1) (advanceRT u) (by omega) (passes blocked scheduled) (by simpa using done)

/-- A pass before a turn: every turn so far passed, and `tempCmd` is the last front seen. Only the first
turn may find the loop blocked. -/
structure Turning (check : Answers) (s : CommandScheduler) (p : MagState) (k : Nat) (t : Pass) :
    Prop where
  alike : Alike s t.scheduler
  index : t.own.indexRT = place s p k
  hp : t.own.indexHP = p.indexHP
  comp : ∀ i, s.side i false = [] → t.own.compensateCommands i = p.compensateCommands i
  blocking : t.own.casBlocking = p.casBlocking
  unchosen : t.scheduledCommand = none
  tempCmd : t.tempCmd = (seen s p k).map fun c => (c, .realTime)
  passed : ∀ j < k, passes check s p j = true
  free : 0 < k → p.casBlocking = false

/-- The real-time loop chose a ready critical front, or is blocked at one. -/
structure Stopped (check : Answers) (s : CommandScheduler) (p : MagState) (t : Pass) : Prop where
  alike : Alike s t.scheduler
  held : p.casBlocking = true ∨ ∃ k < s.queueCount, passes check s p k = false
  index : t.own.indexRT < s.queueCount
  ready : (∃ i c, t.scheduledCommand = some (c, .realTime) ∧ t.own.casBlocking = false ∧
      (s.side i true).head? = some c ∧ s.isReady c i = true) ∨
    ∃ c, t.scheduledCommand = none ∧ t.own.casBlocking = true ∧
      (s.side t.own.indexRT true).head? = some c ∧ s.isReady c t.own.indexRT = true

/-- What the calls of a scheduler with one queue for each bank keep. -/
structure Kept (s : CommandScheduler) (p : MagState) : Prop where
  sided : s.Sided
  bank : ∀ i critical, ∀ c ∈ s.side i critical, c.bank = i
  index : s.queueCount = 0 ∨ p.indexRT < s.queueCount
  blocked : p.casBlocking = true → p.indexRT < s.queueCount ∧
    ∃ c, (s.side p.indexRT true).head? = some c ∧ s.isReady c p.indexRT = true

theorem Kept.place_zero (kept : Kept s p) : place s p 0 = p.indexRT := by
  unfold place
  rcases kept.index with zero | small
  · rw [zero, Nat.mod_zero]
    rfl
  · rw [Nat.add_zero]
    exact Nat.mod_eq_of_lt small

/-- A front that a turn offers is ready where the turn chooses it or blocks at it. -/
theorem Turning.ready {k : Nat} {t : Pass} {c : BusPacket} (turning : Turning check s p k t)
    (kept : Kept s p) (front : (s.side t.own.indexRT true).head? = some c)
    (ready : t.own.casBlocking = true ∨ s.isReady c t.own.indexRT = true) :
    s.isReady c t.own.indexRT = true := by
  rcases ready with blocking | ready
  · -- a blocked loop does not ask; it was ready when it blocked
    rw [turning.blocking] at blocking
    obtain rfl : k = 0 := by
      by_contra later
      rw [turning.free (Nat.pos_of_ne_zero later)] at blocking
      cases blocking
    obtain ⟨_, d, head, ready⟩ := kept.blocked blocking
    rw [turning.index, kept.place_zero] at front ⊢
    obtain rfl : c = d := Option.some.inj (front.symm.trans head)
    exact ready
  · exact ready

/-- What every turn leaves alone. -/
theorem Turning.frame {k : Nat} {t t' : Pass} (turning : Turning check s p k t)
    (turned : turnRT check t k = some t') :
    Alike s t'.scheduler ∧ t'.own.indexRT = place s p k ∧ t'.own.indexHP = p.indexHP ∧
      ∀ i, s.side i false = [] → t'.own.compensateCommands i = p.compensateCommands i := by
  obtain ⟨u, s₁, generated, alike₁, offered⟩ := turnRT_cases turned
  obtain ⟨_, _, _, index, hp⟩ := generated.fields
  have before : Alike s u.scheduler ∧ u.own.indexRT = t.own.indexRT ∧
      u.own.indexHP = t.own.indexHP ∧ u.own.compensateCommands = t.own.compensateCommands := by
    rcases offered with ⟨c, _, rfl⟩ | ⟨_, _, rfl⟩
    · obtain ⟨scheduler, _, index, hp, comp⟩ := offer_fields check { t with scheduler := s₁ } c
      rw [scheduler]
      exact ⟨turning.alike.trans alike₁, index, hp, comp⟩
    · exact ⟨turning.alike, rfl, rfl, rfl⟩
  obtain ⟨alikeU, indexU, hpU, compU⟩ := before
  refine ⟨alikeU.trans generated.alike, (index.trans indexU).trans turning.index,
    (hp.trans hpU).trans turning.hp, fun i empty => ?_⟩
  rw [generated.comp i (by rw [alikeU.side, empty]), compU, turning.comp i empty]

/-- **How a turn ends**: a ready critical front is chosen or blocks the loop, or the turn passes. -/
theorem Turning.outcome {k : Nat} {t t' : Pass} (turning : Turning check s p k t) (kept : Kept s p)
    (turned : turnRT check t k = some t') :
    (∃ c, found s p k = some c ∧ s.isReady c (place s p k) = true ∧
      (p.casBlocking = true ∨ passes check s p k = false) ∧
      (t'.scheduledCommand = some (c, .realTime) ∧ t'.own.casBlocking = false ∨
        t'.scheduledCommand = none ∧ t'.own.casBlocking = true)) ∨
    t'.scheduledCommand = none ∧ t'.own.casBlocking = false ∧ p.casBlocking = false ∧
      passes check s p k = true ∧ t'.tempCmd = (seen s p (k + 1)).map fun c => (c, .realTime) := by
  obtain ⟨u, s₁, generated, alike₁, offered⟩ := turnRT_cases turned
  obtain ⟨temp, scheduled, blocking, _, _⟩ := generated.fields
  rw [temp, scheduled, blocking]
  rw [turning.alike.side] at offered
  rcases offered with ⟨c, front, rfl⟩ | ⟨front, free, rfl⟩
  · have head : found s p k = some c := by rw [found, ← turning.index, front]
    have ready₁ : s₁.isReady c t.own.indexRT = s.isReady c t.own.indexRT :=
      (turning.alike.trans alike₁).isReady c _
    have issuable₁ : s₁.isIssuable check c = s.isIssuable check c :=
      (turning.alike.trans alike₁).isIssuable check c
    have readyOf := turning.ready kept front
    rw [turning.index] at ready₁ readyOf
    -- a front that is ready keeps its turn from passing where the device takes it or it may block
    have stops : s.isReady c (place s p k) = true →
        s.isIssuable check c = true ∨ c.busPacketType.beforeACT = true →
        passes check s p k = false := by
      intro ready kind
      rw [passes, head]
      rcases kind with issuable | kind
      · simp [ready, issuable]
      · simp [ready, kind]
    cases offer_offered check { t with scheduler := s₁ } c with
    | chosen issuable ready scheduled free =>
      dsimp only at ready issuable
      rw [turning.index, ready₁] at ready
      rw [issuable₁] at issuable
      exact .inl ⟨c, head, readyOf ready, .inr (stops (readyOf ready) (.inl issuable)),
        .inl ⟨scheduled, free⟩⟩
    | blocked ready kind unchosen blocked =>
      dsimp only at ready kind
      rw [turning.index, ready₁] at ready
      rw [turning.blocking] at kind
      exact .inl ⟨c, head, readyOf ready, kind.imp_right fun kind => stops (readyOf ready) (.inr kind),
        .inr ⟨unchosen.trans turning.unchosen, blocked⟩⟩
    | passed held unchosen free still =>
      refine .inr ⟨unchosen.trans turning.unchosen, still, ?_, ?_, ?_⟩
      · rw [← turning.blocking]
        exact free
      · dsimp only at held
        rw [turning.index, ready₁, issuable₁] at held
        rw [passes, head]
        rcases held with held | ⟨refused, kind⟩
        · simp [held]
        · simp [refused, kind]
      · rw [(offer_fields check { t with scheduler := s₁ } c).2.1, seen, head]
        rfl
  · have head : found s p k = none := by rw [found, ← turning.index, front]
    refine .inr ⟨turning.unchosen, free, ?_, ?_, ?_⟩
    · rw [← turning.blocking]
      exact free
    · rw [passes, head]
      rfl
    · rw [turning.tempCmd, seen, head]
      rfl

/-- **A turn of the real-time loop.** -/
theorem Turning.turn {k : Nat} {t t' : Pass} (turning : Turning check s p k t) (kept : Kept s p)
    (bound : k < s.queueCount) (turned : turnRT check t k = some t') :
    (t'.own.casBlocking = true → Stopped check s p t') ∧
      (t'.own.casBlocking = false → t'.scheduledCommand.isSome = true → Stopped check s p (advanceRT t')) ∧
      (t'.own.casBlocking = false → t'.scheduledCommand = none →
        Turning check s p (k + 1) (advanceRT t')) := by
  obtain ⟨alike, index, hp, comp⟩ := turning.frame turned
  have positive : 0 < s.queueCount := by omega
  have small : t'.own.indexRT < s.queueCount := by
    rw [index]
    exact Nat.mod_lt _ positive
  have moved : (advanceRT t').own.indexRT = Lib.Rotation.next s.queueCount t'.own.indexRT := by
    rw [← alike.queueCount]
    rfl
  have smaller : (advanceRT t').own.indexRT < s.queueCount := by
    rw [moved]
    exact Lib.Rotation.next_lt small
  have onward : (advanceRT t').own.indexRT = place s p (k + 1) := by
    rw [moved, index]
    exact Lib.Rotation.next_mod positive p.indexRT k
  rcases turning.outcome kept turned with ⟨c, head, ready, held, ⟨scheduled, free⟩ | ⟨none, blocked⟩⟩ |
    ⟨none, free, before, passed, temp⟩
  · refine ⟨fun blocked => ?_, fun _ _ => ⟨alike, held.imp_right (⟨k, bound, ·⟩), smaller, .inl ⟨place s p k, c, scheduled, free, head,
      ready⟩⟩, fun _ none => ?_⟩
    · rw [free] at blocked
      cases blocked
    · rw [scheduled] at none
      cases none
  · refine ⟨fun _ => ⟨alike, held.imp_right (⟨k, bound, ·⟩), small, .inr ⟨c, none, blocked, ?_, ?_⟩⟩,
      fun free => ?_, fun free => ?_⟩
    · rw [index]
      exact head
    · rw [index]
      exact ready
    all_goals
      rw [blocked] at free
      cases free
  · refine ⟨fun blocked => ?_, fun _ some => ?_, fun _ _ => ⟨alike, onward, hp, comp, ?_, none, temp, ?_,
      fun _ => before⟩⟩
    · rw [free] at blocked
      cases blocked
    · rw [none] at some
      cases some
    · exact free.trans before.symm
    · intro j hj
      rcases Nat.lt_succ_iff_lt_or_eq.mp hj with earlier | rfl
      · exact turning.passed j earlier
      · exact passed

/-- **The real-time loop** stops at a ready critical front, or lets every front pass. -/
theorem Kept.realTime (kept : Kept s p) {t : Pass}
    (h : realTime check (List.range s.queueCount)
      { scheduler := { s with scheduledCommand := none }, own := p } = some t) :
    Stopped check s p t ∨ Turning check s p s.queueCount t := by
  refine realTime_rule (Turning check s p) (Stopped check s p) (fun bound turning turned =>
    turning.turn kept bound turned) ?_ h
  exact ⟨.refl s none, kept.place_zero.symm, rfl, fun _ _ => rfl, rfl, rfl, rfl,
    fun j hj => absurd hj (Nat.not_lt_zero j), fun h => absurd h (Nat.lt_irrefl 0)⟩

/-! ## The high-performance loop -/

/-- **Induction over the high-performance loop.** -/
theorem highPerformance_rule (Inv Done : Pass → Prop)
    (idle : ∀ {t}, Inv t → (lookHP t).tempCmd = none → Inv (lookHP t))
    (refuse : ∀ {t e}, Inv t → (lookHP t).tempCmd = some e →
      (lookHP t).scheduler.isIssuable check e.1 = false → Inv (advanceHP (lookHP t)))
    (choose : ∀ {t e t'}, Inv t → (lookHP t).tempCmd = some e →
      (lookHP t).scheduler.isIssuable check e.1 = true → take (lookHP t) e = some t' → Done t')
    {turns : Nat} {t t' : Pass} (start : Inv t) (h : highPerformance check turns t = some t') :
    Done t' ∨ Inv t' := by
  induction turns generalizing t with
  | zero =>
    obtain rfl : t = t' := by simpa [highPerformance] using h
    exact .inr start
  | succ turns ih =>
    rw [highPerformance] at h
    cases temp : (lookHP t).tempCmd with
    | none =>
      rw [temp] at h
      exact ih (idle start temp) h
    | some e =>
      rw [temp] at h
      dsimp only at h
      cases issuable : (lookHP t).scheduler.isIssuable check e.1 with
      | true =>
        rw [issuable, if_pos rfl] at h
        exact .inl (choose start temp issuable h)
      | false =>
        rw [issuable, if_neg Bool.false_ne_true] at h
        exact ih (refuse start temp issuable) h

/-- The candidate of a turn is new, or the queue has nothing and the old one stays. -/
theorem lookHP_cases (t : Pass) :
    (lookHP t = t ∧ t.own.compensateCommands t.own.indexHP = [] ∧
      t.scheduler.side t.own.indexHP false = []) ∨
    ∃ s₁ e, lookHP t = { t with scheduler := s₁, tempCmd := some e } ∧ Looked t.scheduler s₁ t.own.indexHP ∧
      ((e.2 = .compensation ∧ s₁ = t.scheduler ∧
          (t.own.compensateCommands t.own.indexHP).head? = some e.1) ∨
        (e.2 = .highPerformance ∧ s₁.last t.own.indexHP = false ∧
          t.own.compensateCommands t.own.indexHP = [] ∧
          (t.scheduler.side t.own.indexHP false).head? = some e.1)) := by
  unfold lookHP
  cases comp : t.own.compensateCommands t.own.indexHP with
  | cons c l => exact .inr ⟨t.scheduler, (c, .compensation), rfl, .refl _ _, .inl ⟨rfl, rfl, rfl⟩⟩
  | nil =>
    cases looks : t.scheduler.look t.own.indexHP false with
    | mk s₁ front =>
      obtain ⟨looked, head, _, noted⟩ := look_cases looks
      cases front with
      | none => exact .inl ⟨rfl, rfl, List.head?_eq_none_iff.mp head.symm⟩
      | some c =>
        exact .inr ⟨s₁, (c, .highPerformance), rfl, looked, .inr ⟨rfl, noted rfl, rfl, head.symm⟩⟩

/-- What a turn of the high-performance loop leaves alone. -/
theorem lookHP_frame (t : Pass) :
    Alike t.scheduler (lookHP t).scheduler ∧ (lookHP t).own = t.own ∧
      (lookHP t).scheduledCommand = t.scheduledCommand := by
  rcases lookHP_cases t with ⟨same, _⟩ | ⟨s₁, e, same, looked, _⟩
  · rw [same]
    exact ⟨.refl t.scheduler _, rfl, rfl⟩
  · rw [same]
    exact ⟨looked.alike, rfl, rfl⟩

/-- What taking a candidate does. -/
theorem take_cases {t t' : Pass} {e : Candidate} (h : take t e = some t') :
    t'.scheduledCommand = some e ∧ t'.scheduler = t.scheduler ∧
      t'.own.indexRT = t.own.indexRT ∧ t'.own.casBlocking = t.own.casBlocking ∧
      ∀ i, t'.own.compensateCommands i =
        if e.2 = .compensation ∧ i = t.own.indexHP then (t.own.compensateCommands i).tail
        else t.own.compensateCommands i := by
  unfold take advanceHP at h
  dsimp only at h
  split at h
  · next kind =>
    split at h
    · cases h
    · next c rest comp =>
      obtain rfl := Option.some.inj h
      refine ⟨rfl, rfl, rfl, rfl, fun i => ?_⟩
      by_cases here : i = t.own.indexHP
      · simp [here, comp, kind]
      · simp [here]
  · next kind =>
    obtain rfl := Option.some.inj h
    exact ⟨rfl, rfl, rfl, rfl, fun i => by simp [kind]⟩

/-- Where a pass of the high-performance loop stands: it chose nothing yet. -/
structure Serving (s : CommandScheduler) (index : Nat) (t : Pass) : Prop where
  alike : Alike s t.scheduler
  index : t.own.indexRT = index
  free : t.own.casBlocking = false
  unchosen : t.scheduledCommand = none

theorem Serving.look {index : Nat} {t : Pass} (serving : Serving s index t) :
    Serving s index (lookHP t) := by
  obtain ⟨alike, own, same⟩ := lookHP_frame t
  refine ⟨serving.alike.trans alike, ?_, ?_, same.trans serving.unchosen⟩
  · rw [own]
    exact serving.index
  · rw [own]
    exact serving.free

theorem Serving.advance {index : Nat} {t : Pass} (serving : Serving s index t) :
    Serving s index (advanceHP t) :=
  ⟨serving.alike, serving.index, serving.free, serving.unchosen⟩

/-- A critical candidate of a turn is the one left over, and the queue has nothing. -/
theorem lookHP_realTime {t : Pass} {c : BusPacket} (h : (lookHP t).tempCmd = some (c, .realTime)) :
    lookHP t = t ∧ t.own.compensateCommands t.own.indexHP = [] ∧
      t.scheduler.side t.own.indexHP false = [] := by
  rcases lookHP_cases t with stays | ⟨s₁, e, same, _, kind⟩
  · exact stays
  · rw [same] at h
    obtain rfl : e = (c, .realTime) := Option.some.inj h
    rcases kind with ⟨impossible, _⟩ | ⟨impossible, _⟩ <;> cases impossible

/-- The high-performance loop leaves the real-time index and the blocking alone. -/
theorem Serving.highPerformance {index turns : Nat} {t t' : Pass} (serving : Serving s index t)
    (h : highPerformance check turns t = some t') :
    Alike s t'.scheduler ∧ t'.own.indexRT = index ∧ t'.own.casBlocking = false := by
  have ends := highPerformance_rule (Serving s index)
    (fun t' => Alike s t'.scheduler ∧ t'.own.indexRT = index ∧ t'.own.casBlocking = false)
    (fun serving _ => serving.look) (fun serving _ _ => serving.look.advance) ?_ serving h
  · rcases ends with done | ⟨alike, index, free, _⟩
    · exact done
    · exact ⟨alike, index, free⟩
  · intro t e t' serving _ _ taken
    obtain ⟨_, scheduler, index, blocking, _⟩ := take_cases taken
    obtain ⟨alike, own, same⟩ := lookHP_frame t
    rw [scheduler, index, blocking, own]
    exact ⟨serving.alike.trans alike, serving.index, serving.free⟩

/-- A critical command is chosen in the first turn of the loop or not at all: the device that refused it
once refuses it again. -/
theorem Serving.not_realTime {index turns : Nat} {t t' : Pass} (serving : Serving s index t)
    (held : ∀ c, (lookHP t).tempCmd = some (c, .realTime) → s.isIssuable check c = false)
    (h : Mag.highPerformance check turns t = some t') (c : BusPacket) :
    t'.scheduledCommand ≠ some (c, .realTime) := by
  have ends := highPerformance_rule
    (fun t => Serving s index t ∧
      ∀ c, (lookHP t).tempCmd = some (c, .realTime) → s.isIssuable check c = false)
    (fun t' => ∀ c, t'.scheduledCommand ≠ some (c, .realTime)) ?_ ?_ ?_ ⟨serving, held⟩ h
  · rcases ends with done | ⟨serving, _⟩
    · exact done c
    · rw [serving.unchosen]
      exact nofun
  · rintro t ⟨serving, held⟩ temp
    refine ⟨serving.look, fun c again => ?_⟩
    rw [(lookHP_realTime again).1, temp] at again
    cases again
  · rintro t e ⟨serving, held⟩ temp refused
    refine ⟨serving.look.advance, fun c again => ?_⟩
    rw [(lookHP_realTime again).1] at again
    exact held c again
  · rintro t e t' ⟨serving, held⟩ temp issuable taken c
    rw [(take_cases taken).1]
    intro same
    obtain rfl := Option.some.inj same
    rw [serving.look.alike.isIssuable, held c temp] at issuable
    cases issuable

/-! ## A call -/

/-- The last critical front seen is one that a turn found. -/
theorem seen_found {k : Nat} {c : BusPacket} (h : seen s p k = some c) :
    ∃ j < k, found s p j = some c := by
  induction k with
  | zero => cases h
  | succ k ih =>
    rw [seen] at h
    cases here : found s p k with
    | some d =>
      rw [here] at h
      obtain rfl : d = c := Option.some.inj h
      exact ⟨k, Nat.lt_succ_self k, here⟩
    | none =>
      rw [here] at h
      obtain ⟨j, earlier, there⟩ := ih h
      exact ⟨j, Nat.lt_succ_of_lt earlier, there⟩

/-- A front that passed its turn although the device takes it is not ready. -/
theorem not_ready_of_passes {j : Nat} {c : BusPacket} (passed : passes check s p j = true)
    (head : found s p j = some c) (issuable : s.isIssuable check c = true) :
    s.isReady c (place s p j) = false := by
  rw [passes, head] at passed
  simpa [issuable] using passed

/-- The critical front of a queue is for its bank. -/
theorem Kept.bank_of_head (kept : Kept s p) {i : Nat} {c : BusPacket}
    (head : (s.side i true).head? = some c) : c.bank = i :=
  kept.bank i true c (List.mem_of_mem_head? head)

/-- Where every turn passed, the second loop starts free, from the last critical front seen. -/
theorem Turning.serving {t : Pass} (turning : Turning check s p s.queueCount t) (kept : Kept s p) :
    p.casBlocking = false ∧ Serving s (place s p s.queueCount) t := by
  have free : p.casBlocking = false := by
    by_contra blocked
    have bound := (kept.blocked (by simpa using blocked)).1
    exact blocked (turning.free (by omega))
  exact ⟨free, turning.alike, turning.index, turning.blocking.trans free, turning.unchosen⟩

/-- **The second loop chooses a critical command exactly where the call overlooks it**, and then one
that is not ready. -/
theorem Turning.overlooked {t t' : Pass} (turning : Turning check s p s.queueCount t) (kept : Kept s p)
    (h : highPerformance check s.queueCount t = some t') :
    (∀ c, t'.scheduledCommand = some (c, .realTime) → s.isReady c c.bank = true) ↔
      ¬ Overlooked check s p := by
  obtain ⟨free, serving⟩ := turning.serving kept
  constructor
  · rintro ready ⟨_, passed, comp, empty, left⟩
    obtain ⟨c, last, issuable⟩ := (Option.any_eq_true _ _).mp left
    have stays : lookHP t = t := by
      rcases lookHP_cases t with ⟨same, _⟩ | ⟨s₁, e, _, _, ⟨_, _, head⟩ | ⟨_, _, _, head⟩⟩
      · exact same
      · rw [turning.hp, turning.comp _ empty, comp] at head
        cases head
      · rw [turning.hp, turning.alike.side, empty] at head
        cases head
    have temp : t.tempCmd = some (c, .realTime) := by rw [turning.tempCmd, last]; rfl
    obtain ⟨j, bound, head⟩ := seen_found last
    -- the first turn of the second loop takes it as it stands
    have taken : take t (c, .realTime) = some t' := by
      obtain ⟨turns, count⟩ := Nat.exists_eq_succ_of_ne_zero (Nat.ne_zero_of_lt bound)
      rw [count, highPerformance, stays, temp] at h
      dsimp only at h
      rwa [turning.alike.isIssuable, issuable, if_pos rfl] at h
    have claimed := ready c (take_cases taken).1
    rw [kept.bank_of_head head, not_ready_of_passes (passed j bound) head issuable] at claimed
    cases claimed
  · intro attentive c chosen
    refine absurd chosen (serving.not_realTime (fun d temp => ?_) h c)
    obtain ⟨stays, comp, empty⟩ := lookHP_realTime temp
    rw [turning.hp, turning.alike.side] at empty
    rw [turning.hp, turning.comp _ empty] at comp
    rw [stays, turning.tempCmd] at temp
    obtain ⟨e, last, same⟩ := Option.map_eq_some_iff.mp temp
    obtain rfl : e = d := congrArg Prod.fst same
    by_contra issuable
    refine attentive ⟨free, turning.passed, comp, empty, ?_⟩
    rw [last]
    simpa using issuable

/-- **The loops of a call**: a critical command is chosen ready, unless the call overlooks that it is
not. -/
theorem Kept.choose (kept : Kept s p) {t : Pass} (h : choose check s p = some t) :
    Alike s t.scheduler ∧ (s.queueCount = 0 ∨ t.own.indexRT < s.queueCount) ∧
      (t.own.casBlocking = true → t.scheduledCommand = none ∧ t.own.indexRT < s.queueCount ∧
        ∃ c, (s.side t.own.indexRT true).head? = some c ∧ s.isReady c t.own.indexRT = true) ∧
      ((∀ c, t.scheduledCommand = some (c, .realTime) → s.isReady c c.bank = true) ↔
        ¬ Overlooked check s p) := by
  unfold Mag.choose at h
  obtain ⟨u, loop, h⟩ := Option.bind_eq_some_iff.mp h
  rcases kept.realTime loop with stopped | turning
  · have attentive : ¬ Overlooked check s p := by
      rintro ⟨free, passed, _⟩
      rcases stopped.held with blocked | ⟨k, bound, stops⟩
      · rw [free] at blocked
        cases blocked
      · rw [passed k bound] at stops
        cases stops
    rcases stopped.ready with ⟨i, c, scheduled, free, head, ready⟩ | ⟨c, unchosen, blocked, head, ready⟩
    · obtain rfl : u = t := by simpa [scheduled] using h
      refine ⟨stopped.alike, .inr stopped.index, fun blocked => ?_,
        iff_of_true (fun d chosen => ?_) attentive⟩
      · rw [free] at blocked
        cases blocked
      · rw [scheduled] at chosen
        obtain rfl : c = d := congrArg Prod.fst (Option.some.inj chosen)
        rw [kept.bank_of_head head]
        exact ready
    · obtain rfl : u = t := by simpa [unchosen, blocked] using h
      refine ⟨stopped.alike, .inr stopped.index, fun _ => ⟨unchosen, stopped.index, c, head, ready⟩,
        iff_of_true (fun d chosen => ?_) attentive⟩
      rw [unchosen] at chosen
      cases chosen
  · obtain ⟨free, serving⟩ := turning.serving kept
    have second : highPerformance check s.queueCount u = some t := by
      simpa [serving.unchosen, serving.free] using h
    obtain ⟨alike, index, stays⟩ := serving.highPerformance second
    refine ⟨alike, ?_, fun blocked => ?_, turning.overlooked kept second⟩
    · rcases Nat.eq_zero_or_pos s.queueCount with zero | positive
      · exact .inl zero
      · rw [index]
        exact .inr (Nat.mod_lt _ positive)
    · rw [stays] at blocked
      cases blocked

/-- Sending takes commands from the sides and adds none. -/
theorem send_cases {spec : DeviceSpec} {t : Pass} {sent : Option Candidate} (sided : t.scheduler.Sided)
    (h : send spec t = some (s', p', sent)) :
    p' = t.own ∧ sent = t.scheduledCommand ∧ s'.queueCount = t.scheduler.queueCount ∧ s'.Sided ∧
      (∀ i critical, ∀ c ∈ s'.side i critical, c ∈ t.scheduler.side i critical) ∧
      (sent = none → s' = t.scheduler) := by
  unfold send at h
  cases chosen : t.scheduledCommand with
  | none =>
    rw [chosen] at h
    obtain ⟨rfl, rfl, rfl⟩ : _ ∧ _ ∧ _ := by simpa using h
    exact ⟨rfl, rfl, rfl, sided, fun _ _ _ => id, fun _ => rfl⟩
  | some e =>
    obtain ⟨c, origin⟩ := e
    rw [chosen] at h
    dsimp only at h
    split at h
    · obtain ⟨rfl, rfl, rfl⟩ : _ ∧ _ ∧ _ := by simpa using h
      have sided' : { t.scheduler with scheduledCommand := some c }.Sided := sided
      refine ⟨rfl, rfl, ?_, sided'.send spec c c.bank _, fun i critical d hd => ?_, nofun⟩
      · unfold sendCommand setQueue
        dsimp only
        split <;> rfl
      · exact sided'.mem_send hd
    · cases h

/-- **A call keeps what the runs keep**, and tells whether a critical command it returns is ready. -/
theorem Kept.schedule (kept : Kept s p) {spec : DeviceSpec} {sent : Option Candidate}
    (h : schedule spec check s p = some (s', p', sent)) :
    Kept s' p' ∧ ((∀ c, sent = some (c, .realTime) → s.isReady c c.bank = true) ↔
      ¬ Overlooked check s p) := by
  obtain ⟨t, chosen, sends⟩ := Option.bind_eq_some_iff.mp h
  obtain ⟨alike, index, blocked, ready⟩ := kept.choose chosen
  obtain ⟨rfl, rfl, count, sided, mem, idle⟩ := send_cases (alike.sided kept.sided) sends
  refine ⟨⟨sided, fun i critical c hc => ?_, ?_, fun blocking => ?_⟩, ready⟩
  · have waits := mem i critical c hc
    rw [alike.side] at waits
    exact kept.bank i critical c waits
  · rw [count, alike.queueCount]
    exact index
  · obtain ⟨unchosen, bound, c, head, ready⟩ := blocked blocking
    rw [idle unchosen, alike.queueCount]
    refine ⟨bound, c, ?_, ?_⟩
    · rw [alike.side]
      exact head
    · rw [alike.isReady]
      exact ready

/-! ## Runs -/

theorem kept_create (queueCount : Nat) (m : RefreshMachine) : Kept (create queueCount false m) {} where
  sided := sided_create queueCount m
  bank i critical c hc := by
    rw [side_create] at hc
    cases hc
  index := Nat.eq_zero_or_pos queueCount
  blocked := nofun

/-- The calls that the base class answers. -/
theorem Kept.base (kept : Kept s p) {spec : DeviceSpec} {table : Nat → Bool} {call : SchedulerCall}
    (fits : call.Inserts ofBank) (base : BaseStep spec table s call s') : Kept s' p := by
  cases base with
  | @insertCommand index command bound =>
    refine ⟨kept.sided.insertCommand index command _, fun i critical c hc => ?_, kept.index, fun blocking => ?_⟩
    · rw [kept.sided.side_insertCommand] at hc
      rcases List.mem_append.mp hc with old | new
      · exact kept.bank i critical c old
      · split at new
        · next here =>
          rw [List.mem_singleton.mp new, here.1]
          exact fits (command, index) rfl
        · cases new
    · obtain ⟨small, c, head, ready⟩ := kept.blocked blocking
      refine ⟨small, c, ?_, ?_⟩
      · rw [kept.sided.side_insertCommand, List.head?_append, head]
        rfl
      · rw [isReady_insertCommand]
        exact ready
  | refresh check =>
    obtain ⟨queues, count⟩ := commandQueue_refresh s spec check
    have sides : ∀ i critical, (s.refresh spec check).side i critical = s.side i critical := by
      intro i critical
      unfold side
      rw [queues]
    refine ⟨fun i => ?_, fun i critical c hc => ?_, ?_, fun blocking => ?_⟩
    · rw [queues]
      exact kept.sided i
    · rw [sides] at hc
      exact kept.bank i critical c hc
    · rw [count]
      exact kept.index
    · obtain ⟨small, c, head, ready⟩ := kept.blocked blocking
      rw [count, sides]
      refine ⟨small, c, head, ?_⟩
      rw [isReady_refresh]
      exact ready
  | tick =>
    refine ⟨kept.sided.tick, fun i critical c hc => ?_, kept.index, fun blocking => ?_⟩
    · rw [side_tick] at hc
      exact kept.bank i critical c hc
    · obtain ⟨small, c, head, ready⟩ := kept.blocked blocking
      rw [side_tick]
      exact ⟨small, c, head, kept.sided.isReady_tick ready⟩

/-- The call does not overlook that a critical command is not ready. -/
def Attentive (st : CommandScheduler × MagState) : SchedulerCall → Prop
  | .commandSchedule check => ¬ Overlooked check st.1 st.2
  | _ => True

instance (st : CommandScheduler × MagState) : (call : SchedulerCall) → Decidable (Attentive st call)
  | .commandSchedule check => inferInstanceAs (Decidable (¬ Overlooked check st.1 st.2))
  | .insertCommand _ _ | .refresh _ | .tick => inferInstanceAs (Decidable True)

/-- A critical command that a call returns is ready for its own queue. -/
def ReturnsReady (st : CommandScheduler × MagState) (told : Option (Option Candidate)) : Prop :=
  ∀ c, told = some (some (c, .realTime)) → st.1.isReady c c.bank = true

/-- **MAG issues ready commands, as long as it overlooks none.** With one command queue for each bank,
any criticality of the requestors, any refresh machine and any answers of the device: along a run of
insertions, refreshes, scheduling calls and ticks every critical command returned is ready for its own
queue in that cycle, exactly if no scheduling call of the run lets every critical front pass, finds
neither a compensation command nor a non-critical one in the queue at `indexHP`, and has the device
take the last critical front seen. -/
theorem mag_ready (spec : DeviceSpec) (table : Nat → Bool) (queueCount : Nat) (m : RefreshMachine)
    {calls : List SchedulerCall} (banks : ∀ call ∈ calls, call.Inserts ofBank) :
    Lib.Machine.Along ((schedule spec).step spec table) (fun st _ _ told => ReturnsReady st told)
        (create queueCount false m, {}) calls ↔
      Lib.Machine.Along ((schedule spec).step spec table) (fun st call _ _ => Attentive st call)
        (create queueCount false m, {}) calls := by
  refine Lib.Machine.along_congr (fun st => Kept st.1 st.2) ?_ (kept_create queueCount m) banks
  rintro ⟨s, p⟩ call st' told kept fits stepped
  rcases Scheduling.step_cases stepped with
    ⟨s', base, rfl, rfl⟩ | ⟨check, s', p', sent, rfl, scheduled, rfl, rfl⟩
  · refine ⟨kept.base fits base, iff_of_true nofun ?_⟩
    cases base <;> trivial
  · obtain ⟨kept', ready⟩ := kept.schedule scheduled
    refine ⟨kept', ?_⟩
    rw [Attentive, ← ready]
    exact ⟨fun returned c is => returned c (congrArg some is),
      fun returned c is => returned c (Option.some.inj is)⟩

/-- Eight queues at the start of a run, and its calls, every requestor critical. -/
def magStart : CommandScheduler × MagState :=
  (create 8 false (.create .none openPageSetup.device 0 0), {})

def magStep : Lib.Machine.Step (CommandScheduler × MagState) SchedulerCall (Option (Option Candidate)) :=
  (schedule openPageSetup.device).step openPageSetup.device fun _ => true

/-- An activation is sent and a read of the same bank joins, with some cycles between. -/
def actThenRead (cycles : Nat) : List SchedulerCall :=
  [.insert 0 .ACT 0 0, .commandSchedule fun _ => true] ++ List.replicate cycles .tick ++
    [.insert 0 .RD 0 0]

/-- The read is offered to a device that takes everything. -/
def offerAll : SchedulerCall := .commandSchedule fun _ => true

theorem actThenRead_banks (cycles : Nat) :
    ∀ call ∈ actThenRead cycles ++ [offerAll], call.Inserts ofBank := by
  intro call member e inserted
  simp only [actThenRead, offerAll, List.mem_append, List.mem_cons, List.mem_replicate,
    List.not_mem_nil, or_false] at member
  rcases member with (((rfl | rfl) | ⟨_, rfl⟩) | rfl) | rfl <;> cases inserted <;> rfl

/-- The law at a run that waits for the activation: the read is returned, and it is ready. -/
theorem mag_ready_afterDelay :
    Lib.Machine.Along magStep (fun st _ _ told => ReturnsReady st told) magStart
        (actThenRead 9 ++ [offerAll]) ∧
      ∃ st told, Lib.Machine.run magStep magStart (actThenRead 9 ++ [offerAll]) = some (st, told) ∧
        told.getLast? = some (some (some (sampleCommand .RD 0 0, .realTime))) := by
  constructor
  · apply (mag_ready _ _ 8 _ (actThenRead_banks 9)).mpr
    exact Lib.Machine.along_of_check _ (fun st call _ => decide (Attentive st call))
      (fun st call _ => Attentive st call) _ _ (fun _ _ _ => of_decide_eq_true) (by decide +kernel)
  · exact Lib.Machine.run_exists_told magStep (fun _ told =>
      told.getLast? = some (some (some (sampleCommand .RD 0 0, .realTime)))) magStart _ (by decide +kernel)

/-- Without the delay the read is returned although its queue's timer still runs. -/
theorem mag_ready_early :
    (∀ call ∈ actThenRead 0 ++ [offerAll], call.Inserts ofBank) ∧
      ¬ Lib.Machine.Along magStep (fun st _ _ told => ReturnsReady st told) magStart
        (actThenRead 0 ++ [offerAll]) := by
  refine ⟨actThenRead_banks 0, fun along => ?_⟩
  obtain ⟨st, _, ran, returned, held⟩ := Lib.Machine.run_exists_told magStep (fun st _ =>
    (magStep st offerAll).any (fun r => r.2 = some (some (sampleCommand .RD 0 0, .realTime))) = true ∧
      st.1.isReady (sampleCommand .RD 0 0) 0 = false) magStart (actThenRead 0) (by decide +kernel)
  obtain ⟨⟨st', told⟩, stepped, is⟩ := (Option.any_eq_true _ _).mp returned
  have ready := Lib.Machine.along_last along ran stepped _ (of_decide_eq_true is)
  exact absurd (held.symm.trans ready) Bool.false_ne_true

end Mag
end MCsim
