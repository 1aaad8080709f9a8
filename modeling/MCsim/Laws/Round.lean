import MCsim.Schedulers.Round
import MCsim.Setups

/-!
# Round discipline

The flags of the Round scheduler change in three ways only. `clean_buffers` clears them, and runs only
where nobody is accepted; accepting sets a flag; and a column access takes its requestor from accepted
to served. So while a requestor is accepted the round stands still, and whoever is served in the
meantime stays served: each other requestor gets one column access.
-/

namespace MCsim
namespace Round

open CommandScheduler

variable {spec : DeviceSpec} {check : Answers} {table : Nat → Bool} {s s' : CommandScheduler}
variable {p p' q : RoundState} {out : Option BusPacket} {r k : Nat}

/-! ## What the phases before sending do -/

/-- The state moves on within one round: nobody is served or cleaned away, and whoever is accepted
stays accepted. -/
structure Within (p q : RoundState) : Prop where
  round : q.roundType = p.roundType
  served : q.servicebuffer = p.servicebuffer
  cleanings : q.cleanings = p.cleanings
  considered : ∀ k, p.consideredScheduled k = 1 → q.consideredScheduled k = 1

theorem Within.refl (p : RoundState) : Within p p := ⟨rfl, rfl, rfl, fun _ h => h⟩

theorem Within.trans {p q q' : RoundState} (h : Within p q) (h' : Within q q') : Within p q' where
  round := h'.round.trans h.round
  served := h'.served.trans h.served
  cleanings := h'.cleanings.trans h.cleanings
  considered k hk := h'.considered k (h.considered k hk)

/-- A loop whose turns stay within a round stays within it. -/
theorem Within.foldl {α : Type} {turn : RoundState → α → RoundState}
    (within : ∀ p a, Within p (turn p a)) (p : RoundState) (l : List α) :
    Within p (l.foldl turn p) := by
  induction l generalizing p with
  | nil => exact .refl p
  | cons a l ih => exact (within p a).trans (ih (turn p a))

/-- The latched command of a requestor is that requestor's. -/
def Named (p : RoundState) : Prop := ∀ k c, p.tempqueue k = some c → c.requestorID = k

/-- A loop that keeps a property at every turn keeps it. -/
theorem foldl_keeps {α : Type} (P : RoundState → Prop) {turn : RoundState → α → RoundState}
    (keeps : ∀ p a, P p → P (turn p a)) {p : RoundState} (h : P p) (l : List α) :
    P (l.foldl turn p) := by
  induction l generalizing p with
  | nil => exact h
  | cons a l ih => exact ih (keeps p a h)

theorem countdown_within (p : RoundState) : Within p (countdown p) := ⟨rfl, rfl, rfl, fun _ h => h⟩

theorem latchCommand_within (p : RoundState) (c : BusPacket) : Within p (latchCommand p c) := by
  unfold latchCommand
  dsimp only
  split
  case h_3 | h_4 => split <;> exact ⟨rfl, rfl, rfl, fun _ h => h⟩
  all_goals exact ⟨rfl, rfl, rfl, fun _ h => h⟩

theorem latchFront_within (s : CommandScheduler) (index : Nat) (p : RoundState) (num : Nat) :
    Within p (latchFront s index p num) := by
  unfold latchFront
  split
  · exact .refl p
  · split
    · exact latchCommand_within p _
    · exact .refl p

theorem latch_within (s : CommandScheduler) (p : RoundState) : Within p (latch s p) :=
  Within.foldl (fun p index => Within.foldl (latchFront_within s index) p _) p _

theorem latchCommand_tempqueue (p : RoundState) (c : BusPacket) :
    (latchCommand p c).tempqueue = assign p.tempqueue c.requestorID (some c) := by
  unfold latchCommand
  dsimp only
  split
  case h_3 | h_4 => split <;> rfl
  all_goals rfl

theorem latchFront_named (s : CommandScheduler) (index : Nat) (p : RoundState) (num : Nat)
    (named : Named p) : Named (latchFront s index p num) := by
  unfold latchFront
  split
  · exact named
  · next c _ =>
    split
    · intro k d latched
      rw [latchCommand_tempqueue, assign] at latched
      split at latched
      · next same =>
        cases latched
        exact same.symm
      · exact named k d latched
    · exact named

theorem latch_named (s : CommandScheduler) (named : Named p) : Named (latch s p) :=
  foldl_keeps Named (fun _ index named => foldl_keeps Named (latchFront_named s index) named _)
    named _

/-! ## The switch -/

/-- While a requestor is accepted the round is not looked at. -/
theorem switchRound_eq {spec : DeviceSpec} {clock : Nat} (small : r < maxRequestors)
    (considered : p.consideredScheduled r = 1) : switchRound spec clock p = p := by
  have some' : noneConsidered p = false := by
    refine List.all_eq_false.mpr ⟨r, List.mem_range.mpr small, ?_⟩
    simp [considered]
  rw [switchRound, some']
  rfl

/-- Neither what is latched nor the two orders change. -/
structure FlagsOnly (p q : RoundState) : Prop where
  tempqueue : q.tempqueue = p.tempqueue
  OrderPRE : q.OrderPRE = p.OrderPRE
  Order : q.Order = p.Order
  closestatemap : q.closestatemap = p.closestatemap
  queuePending : q.queuePending = p.queuePending

theorem FlagsOnly.refl (p : RoundState) : FlagsOnly p p := ⟨rfl, rfl, rfl, rfl, rfl⟩

theorem FlagsOnly.trans {p q q' : RoundState} (h : FlagsOnly p q) (h' : FlagsOnly q q') :
    FlagsOnly p q' :=
  ⟨h'.tempqueue.trans h.tempqueue, h'.OrderPRE.trans h.OrderPRE, h'.Order.trans h.Order,
    h'.closestatemap.trans h.closestatemap, h'.queuePending.trans h.queuePending⟩

/-- A loop whose turns change flags only changes flags only. -/
theorem FlagsOnly.foldl {α : Type} {turn : RoundState → α → RoundState}
    (same : ∀ p a, FlagsOnly p (turn p a)) (p : RoundState) (l : List α) :
    FlagsOnly p (l.foldl turn p) :=
  foldl_keeps (FlagsOnly p) (fun q a h => h.trans (same q a)) (.refl p) l

theorem turnTimers_flags (spec : DeviceSpec) (clock gap : Nat) (p : RoundState) (c : BusPacket) :
    FlagsOnly p (turnTimers spec clock gap p c) := by
  unfold turnTimers
  split
  · exact ⟨rfl, rfl, rfl, rfl, rfl⟩
  · split <;> exact ⟨rfl, rfl, rfl, rfl, rfl⟩

theorem turnToWrite_flags (spec : DeviceSpec) (clock : Nat) (p : RoundState) (c : BusPacket) :
    FlagsOnly p (turnToWrite spec clock p c) := by
  unfold turnToWrite
  split
  · have timers := turnTimers_flags spec clock spec.constraints.tRTW
      { clean_buffers p with roundType := false } c
    exact ⟨timers.tempqueue, timers.OrderPRE, timers.Order, timers.closestatemap,
      timers.queuePending⟩
  · exact .refl p

theorem turnToRead_flags (spec : DeviceSpec) (clock : Nat) (p : RoundState) (c : BusPacket) :
    FlagsOnly p (turnToRead spec clock p c) := by
  unfold turnToRead
  split
  · have timers := turnTimers_flags spec clock (tWtoR spec)
      { clean_buffers p with roundType := true } c
    exact ⟨timers.tempqueue, timers.OrderPRE, timers.Order, timers.closestatemap,
      timers.queuePending⟩
  · exact .refl p

theorem restart_flags (read : Bool) (p : RoundState) (c : BusPacket) :
    FlagsOnly p (restart read p c) := by
  unfold restart
  split <;> exact ⟨rfl, rfl, rfl, rfl, rfl⟩

theorem switchRound_flags (spec : DeviceSpec) (clock : Nat) (p : RoundState) :
    FlagsOnly p (switchRound spec clock p) := by
  have turned : FlagsOnly p (if p.roundType then (latched p).foldl (turnToWrite spec clock) p
      else (latched p).foldl (turnToRead spec clock) p) := by
    split
    · exact FlagsOnly.foldl (turnToWrite_flags spec clock) p _
    · exact FlagsOnly.foldl (turnToRead_flags spec clock) p _
  have restarted : ∀ q : RoundState, FlagsOnly p q →
      FlagsOnly p (if q.jump then q else (latched p).foldl (restart p.roundType) q) := by
    intro q same
    split
    · exact same
    · exact same.trans (FlagsOnly.foldl (restart_flags p.roundType) q _)
  unfold switchRound
  split
  · obtain ⟨tempqueue, orderPRE, order, closestatemap, queuePending⟩ := restarted _ turned
    exact ⟨tempqueue, orderPRE, order, closestatemap, queuePending⟩
  · exact .refl p

/-! ## Holding back and accepting -/

theorem holdActivations_within (spec : DeviceSpec) (p : RoundState) :
    Within p (holdActivations spec p) := by
  unfold holdActivations
  split
  · exact ⟨rfl, rfl, rfl, fun _ h => h⟩
  · exact .refl p

theorem holdActivations_flags (spec : DeviceSpec) (p : RoundState) :
    FlagsOnly p (holdActivations spec p) := by
  unfold holdActivations
  split <;> exact ⟨rfl, rfl, rfl, rfl, rfl⟩

theorem consider_within (p : RoundState) (k : Nat) : Within p (consider p k) := by
  unfold consider
  split
  · exact .refl p
  · refine ⟨rfl, rfl, rfl, fun j hj => ?_⟩
    dsimp only [assign]
    split
    · rfl
    · exact hj

theorem consider_flags (p : RoundState) (k : Nat) : FlagsOnly p (consider p k) := by
  unfold consider
  split <;> exact ⟨rfl, rfl, rfl, rfl, rfl⟩

theorem acceptRow_within (act : BusPacketType) (p : RoundState) (k : Nat) :
    Within p (acceptRow act p k) := by
  unfold acceptRow
  split
  · exact consider_within p k
  · exact .refl p

theorem acceptRow_flags (act : BusPacketType) (p : RoundState) (k : Nat) :
    FlagsOnly p (acceptRow act p k) := by
  unfold acceptRow
  split
  · exact consider_flags p k
  · exact .refl p

theorem acceptTurn_within (p : RoundState) (k : Nat) : Within p (acceptTurn p k) := by
  unfold acceptTurn
  split
  · split
    · exact consider_within p k
    · split
      · exact (Within.foldl (acceptRow_within _) p _).trans (consider_within _ k)
      · exact .refl p
  · exact .refl p

theorem acceptTurn_flags (p : RoundState) (k : Nat) : FlagsOnly p (acceptTurn p k) := by
  unfold acceptTurn
  split
  · split
    · exact consider_flags p k
    · split
      · exact (FlagsOnly.foldl (acceptRow_flags _) p _).trans (consider_flags _ k)
      · exact .refl p
  · exact .refl p

/-- A call that finds a requestor accepted stays within the round until it sends. -/
theorem prepare_within (small : r < maxRequestors) (considered : p.consideredScheduled r = 1) :
    Within p (prepare spec s p) := by
  have latching := (countdown_within p).trans (latch_within s (countdown p))
  unfold prepare
  rw [switchRound_eq small (latching.considered r considered)]
  exact (latching.trans (holdActivations_within spec _)).trans (Within.foldl acceptTurn_within _ _)

/-- Once the fronts are latched, a call changes flags only until it sends. -/
theorem prepare_flags (spec : DeviceSpec) (s : CommandScheduler) (p : RoundState) :
    FlagsOnly (latch s (countdown p)) (prepare spec s p) :=
  ((switchRound_flags spec s.clock _).trans (holdActivations_flags spec _)).trans
    (FlagsOnly.foldl acceptTurn_flags _ _)

theorem prepare_named (named : Named p) : Named (prepare spec s p) := by
  have latching : Named (latch s (countdown p)) := latch_named s named
  unfold Named
  rw [(prepare_flags spec s p).tempqueue]
  exact latching

/-! ## Sending -/

theorem roundACT_not_cas (read : Bool) : (roundACT read).isCas = false := by cases read <;> rfl

/-- What an activation is chosen by. -/
theorem rowChoice_spec {place : Nat × Nat} {chosen : Choice}
    (h : rowChoice check s p place = some chosen) :
    p.tempqueue chosen.RR = some chosen.command ∧
      chosen.command.busPacketType = roundACT p.roundType := by
  obtain ⟨c, latched, h⟩ := Option.bind_eq_some_iff.mp h
  split at h
  · next fits =>
    cases h
    exact ⟨latched, fits.1⟩
  · cases h

/-- What a command of the round is chosen by. -/
theorem casChoice_spec {place : Nat × Nat} {chosen : Choice}
    (h : casChoice check s p place = some chosen) :
    p.tempqueue chosen.RR = some chosen.command ∧
      (chosen.command.busPacketType = roundACT p.roundType ∨
        chosen.command.busPacketType = roundCAS p.roundType ∧ p.servicebuffer chosen.RR = 0 ∧
          p.consideredScheduled chosen.RR = 1) := by
  obtain ⟨c, latched, h⟩ := Option.bind_eq_some_iff.mp h
  split at h
  · next cas =>
    rcases Option.or_eq_some_iff.mp h with h | ⟨_, h⟩
    · obtain ⟨place', _, h⟩ := List.exists_of_findSome?_eq_some h
      obtain ⟨latched', act⟩ := rowChoice_spec h
      exact ⟨latched', .inl act⟩
    · split at h
      · next fits =>
        cases h
        exact ⟨latched, .inr ⟨cas.1, cas.2, fits.1⟩⟩
      · cases h
  · cases h

theorem chooseRound_spec {chosen : Choice} (h : chooseRound check s p = some chosen) :
    p.tempqueue chosen.RR = some chosen.command ∧
      (chosen.command.busPacketType = roundACT p.roundType ∨
        chosen.command.busPacketType = roundCAS p.roundType ∧ p.servicebuffer chosen.RR = 0 ∧
          p.consideredScheduled chosen.RR = 1) := by
  obtain ⟨place, _, h⟩ := List.exists_of_findSome?_eq_some h
  rcases Option.or_eq_some_iff.mp h with h | ⟨_, h⟩
  · obtain ⟨latched, act⟩ := rowChoice_spec h
    exact ⟨latched, .inl act⟩
  · exact casChoice_spec h

theorem choosePRE_spec {chosen : Choice} (h : choosePRE check s p = some chosen) :
    chosen.command.busPacketType = .PRE := by
  obtain ⟨place, _, h⟩ := List.exists_of_findSome?_eq_some h
  obtain ⟨c, _, h⟩ := Option.bind_eq_some_iff.mp h
  split at h
  · next fits =>
    cases h
    exact fits.1
  · cases h

/-- What sending does to the flags of the state `q` the choice is made in. -/
inductive Sends (q : RoundState) : RoundState → Option BusPacket → Prop
  | other {q' : RoundState} {out : Option BusPacket} (within : Within q q')
      (quiet : ∀ c, out = some c → c.busPacketType.isCas = false) : Sends q q' out
  | cas {q' : RoundState} {c : BusPacket} (type : c.busPacketType = roundCAS q.roundType)
      (unserved : q.servicebuffer c.requestorID = 0)
      (considered : q.consideredScheduled c.requestorID = 1)
      (round : q'.roundType = q.roundType) (cleanings : q'.cleanings = q.cleanings)
      (serves : q'.servicebuffer = assign q.servicebuffer c.requestorID 1)
      (settles : q'.consideredScheduled = assign q.consideredScheduled c.requestorID 0) :
      Sends q q' (some c)

theorem countActivation_within (spec : DeviceSpec) (p : RoundState) :
    Within p (countActivation spec p) := by
  unfold countActivation
  split
  · exact ⟨rfl, rfl, rfl, fun _ h => h⟩
  · split
    · split
      · exact ⟨rfl, rfl, rfl, fun _ h => h⟩
      · exact .refl p
    · exact ⟨rfl, rfl, rfl, fun _ h => h⟩

theorem countActivation_flags (spec : DeviceSpec) (p : RoundState) :
    FlagsOnly p (countActivation spec p) := by
  unfold countActivation
  split
  · exact ⟨rfl, rfl, rfl, rfl, rfl⟩
  · split
    · split <;> exact ⟨rfl, rfl, rfl, rfl, rfl⟩
    · exact ⟨rfl, rfl, rfl, rfl, rfl⟩

theorem settle_tempqueue (spec : DeviceSpec) (clock : Nat) (p : RoundState) (chosen : Choice)
    (pre : Bool) : (settle spec clock p chosen pre).tempqueue = p.tempqueue := by
  unfold settle
  split
  · rfl
  · split
    case h_1 | h_2 => exact (countActivation_flags spec { p with first := false }).tempqueue
    all_goals rfl

theorem send_precedure_named (named : Named p) (chosen : Choice) (pre : Bool) :
    Named (send_precedure spec s p chosen pre).2.1 := by
  intro k c latched
  dsimp only [send_precedure, assign] at latched
  split at latched
  · cases latched
  · rw [settle_tempqueue] at latched
    exact named k c latched

/-- A command that is no column access moves no flag. -/
theorem send_precedure_other {chosen : Choice} {pre : Bool}
    (quiet : chosen.command.busPacketType.isCas = false) :
    Sends p (send_precedure spec s p chosen pre).2.1 (some chosen.command) := by
  refine .other ?_ fun c hc => Option.some.inj hc ▸ quiet
  suffices within : Within p (settle spec s.clock p chosen pre) from
    ⟨within.round, within.served, within.cleanings, within.considered⟩
  unfold settle
  split
  · exact ⟨rfl, rfl, rfl, fun _ h => h⟩
  · split
    case h_1 | h_2 =>
      have begun : Within p { p with first := false } := ⟨rfl, rfl, rfl, fun _ h => h⟩
      exact begun.trans (countActivation_within spec _)
    case h_3 type | h_4 type => exact absurd quiet (by rw [type]; decide)
    · exact .refl p

/-- A column access serves its requestor. -/
theorem send_precedure_cas {chosen : Choice} (named : chosen.command.requestorID = chosen.RR)
    (type : chosen.command.busPacketType = roundCAS p.roundType)
    (unserved : p.servicebuffer chosen.RR = 0) (considered : p.consideredScheduled chosen.RR = 1) :
    Sends p (send_precedure spec s p chosen false).2.1 (some chosen.command) := by
  rw [← named] at unserved considered
  have cas : chosen.command.busPacketType = .RD ∨ chosen.command.busPacketType = .WR := by
    cases round : p.roundType <;> simp [round, roundCAS] at type <;> simp [type]
  rcases cas with rd | wr
  · refine .cas type unserved considered ?_ ?_ ?_ ?_ <;> simp [send_precedure, settle, rd, named]
  · refine .cas type unserved considered ?_ ?_ ?_ ?_ <;> simp [send_precedure, settle, wr, named]

theorem send_named (named : Named p) : Named (send spec check s p).2.1 := by
  unfold send
  split
  · exact send_precedure_named named _ _
  · split
    · exact send_precedure_named named _ _
    · exact named

/-- Whatever is sent is chosen by the flags. -/
theorem send_sends (named : Named p) :
    Sends p (send spec check s p).2.1 (send spec check s p).2.2 := by
  unfold send
  split
  · next chosen h =>
    obtain ⟨latched, act | ⟨type, unserved, considered⟩⟩ := chooseRound_spec h
    · exact send_precedure_other (act ▸ roundACT_not_cas _)
    · exact send_precedure_cas (named _ _ latched) type unserved considered
  · split
    · next chosen h => exact send_precedure_other (by rw [choosePRE_spec h]; rfl)
    · exact .other (.refl p) fun c hc => nomatch hc

/-! ## Calls -/

/-- A column access of the requestor was sent. -/
def casOf (k : Nat) : Option (Option BusPacket) → Bool
  | some (some c) => c.busPacketType.isCas && c.requestorID == k
  | _ => false

theorem casOf_some {c : BusPacket} (h : casOf k (some (some c)) = true) :
    c.busPacketType.isCas = true ∧ c.requestorID = k := by
  obtain ⟨cas, same⟩ := Bool.and_eq_true_iff.mp h
  exact ⟨cas, beq_iff_eq.mp same⟩

theorem schedule_sends (named : Named p) (h : schedule spec check s p = some (s', p', out)) :
    Named p' ∧ Sends (prepare spec s p) p' out := by
  have sent := Option.some.inj h
  have prepared : Named (prepare spec s p) := prepare_named named
  have named' : Named (send spec check { s with scheduledCommand := none } (prepare spec s p)).2.1 :=
    send_named prepared
  have sends : Sends (prepare spec s p)
      (send spec check { s with scheduledCommand := none } (prepare spec s p)).2.1
      (send spec check { s with scheduledCommand := none } (prepare spec s p)).2.2 :=
    send_sends prepared
  rw [sent] at named' sends
  exact ⟨named', sends⟩

/-- The states before and after a call, with the column access it sent. -/
inductive Called (p : RoundState) : RoundState → Option (Option BusPacket) → Prop
  | base : Called p p none
  | sends {q p' : RoundState} {out : Option BusPacket} (sends : Sends q p' out)
      (within : ∀ r < maxRequestors, p.consideredScheduled r = 1 → Within p q) :
      Called p p' (some out)

theorem step_called {st : CommandScheduler × RoundState} {call : SchedulerCall}
    {o : Option (Option BusPacket)} (named : Named p)
    (h : (schedule spec).step spec table (s, p) call = some (st, o)) :
    Named st.2 ∧ Called p st.2 o := by
  obtain ⟨s', _, rfl, rfl⟩ | ⟨check, s', p', out, rfl, scheduled, rfl, rfl⟩ :=
    Scheduling.step_cases h
  · exact ⟨named, .base⟩
  · obtain ⟨named', sends⟩ := schedule_sends named scheduled
    exact ⟨named', .sends sends fun r small considered => prepare_within small considered⟩

/-- While a requestor is accepted the round stands still and nothing is cleaned, and the requestor
stays accepted until its column access is sent. -/
theorem Called.holds {o : Option (Option BusPacket)} (called : Called p p' o)
    (small : r < maxRequestors) (considered : p.consideredScheduled r = 1) :
    p'.roundType = p.roundType ∧ p'.cleanings = p.cleanings ∧
      (casOf r o = false → p'.consideredScheduled r = 1) := by
  cases called with
  | base => exact ⟨rfl, rfl, fun _ => considered⟩
  | sends sends within =>
    have first := within r small considered
    cases sends with
    | other later _ =>
      have both := first.trans later
      exact ⟨both.round, both.cleanings, fun _ => both.considered r considered⟩
    | @cas c type _ _ round cleanings _ settles =>
      refine ⟨round.trans first.round, cleanings.trans first.cleanings, fun other => ?_⟩
      have cas : c.busPacketType.isCas = true := by
        rw [type]
        unfold roundCAS
        split <;> rfl
      have apart : r ≠ c.requestorID := by
        rintro rfl
        simp [casOf, cas] at other
      rw [settles, assign, if_neg apart]
      exact first.considered r considered

/-- A column access leaves its requestor served. -/
theorem Called.latches {o : Option (Option BusPacket)} (called : Called p p' o)
    (sent : casOf k o = true) : p'.servicebuffer k = 1 := by
  cases called with
  | base => cases sent
  | @sends _ _ out sends _ =>
    cases sends with
    | other _ quiet =>
      cases out with
      | none => cases sent
      | some c => exact absurd (casOf_some sent).1 (by simp [quiet c rfl])
    | cas _ _ _ _ _ serves _ =>
      obtain ⟨_, rfl⟩ := casOf_some sent
      simp [serves, assign]

/-- While a requestor is accepted, whoever is served stays served and gets no column access. -/
theorem Called.stays {o : Option (Option BusPacket)} (called : Called p p' o)
    (small : r < maxRequestors) (considered : p.consideredScheduled r = 1)
    (served : p.servicebuffer k = 1) : casOf k o = false ∧ p'.servicebuffer k = 1 := by
  cases called with
  | base => exact ⟨rfl, served⟩
  | @sends q _ out sends within =>
    have kept : q.servicebuffer k = 1 := by rw [(within r small considered).served, served]
    cases sends with
    | other later quiet =>
      refine ⟨?_, by rw [later.served, kept]⟩
      cases out with
      | none => rfl
      | some c => simp [casOf, quiet c rfl]
    | @cas c _ unserved _ _ _ serves _ =>
      have apart : k ≠ c.requestorID := by
        rintro rfl
        omega
      refine ⟨by simp [casOf, Ne.symm apart], ?_⟩
      rw [serves, assign, if_neg apart, kept]

/-- What a sent command says about the state it was chosen in. -/
theorem Sends.fits {c : BusPacket} (sends : Sends q p' (some c)) :
    (c.busPacketType = .RD → q.roundType = true) ∧ (c.busPacketType = .WR → q.roundType = false) ∧
      (c.busPacketType.isCas = true →
        q.consideredScheduled c.requestorID = 1 ∧ q.servicebuffer c.requestorID = 0) := by
  cases sends with
  | other _ quiet =>
    have none := quiet c rfl
    exact ⟨fun rd => absurd none (by rw [rd]; decide), fun wr => absurd none (by rw [wr]; decide),
      fun cas => absurd cas (by simp [none])⟩
  | cas type unserved considered _ _ _ _ =>
    refine ⟨fun rd => ?_, fun wr => ?_, fun _ => ⟨considered, unserved⟩⟩
    · cases round : q.roundType with
      | true => rfl
      | false => simp [type, round, roundCAS] at rd
    · cases round : q.roundType with
      | false => rfl
      | true => simp [type, round, roundCAS] at wr

/-- The requestor is accepted, in the round and since the cleaning that `p` is in. -/
structure Held (r : Nat) (p q : RoundState) : Prop where
  round : q.roundType = p.roundType
  cleanings : q.cleanings = p.cleanings
  considered : q.consideredScheduled r = 1

/-- It stays so along a stretch in which no column access of the requestor is sent. -/
theorem stretch_held (small : r < maxRequestors) {st st' : CommandScheduler × RoundState}
    {stretch : List SchedulerCall} {told : List (Option (Option BusPacket))} (named : Named st.2)
    (accepted : st.2.consideredScheduled r = 1)
    (ran : Lib.Machine.run ((schedule spec).step spec table) st stretch = some (st', told))
    (others : ∀ o ∈ told, casOf r o = false) :
    (Named st'.2 ∧ Held r st.2 st'.2) ∧
      Lib.Machine.Along ((schedule spec).step spec table)
        (fun _ _ st'' _ => st''.2.consideredScheduled r = 1) st stretch := by
  have quiet := Lib.Machine.along_of_outputs ran others
  have keep : ∀ {t t' : CommandScheduler × RoundState} {call : SchedulerCall}
      {o : Option (Option BusPacket)}, Named t.2 ∧ Held r st.2 t.2 →
      (schedule spec).step spec table t call = some (t', o) → casOf r o = false →
      Named t'.2 ∧ Held r st.2 t'.2 := by
    rintro t t' call o ⟨named, held⟩ h other
    obtain ⟨named', called⟩ := step_called named h
    obtain ⟨round, cleanings, kept⟩ := called.holds small held.considered
    exact ⟨named', round.trans held.round, cleanings.trans held.cleanings, kept other⟩
  have start : Named st.2 ∧ Held r st.2 st.2 := ⟨named, rfl, rfl, accepted⟩
  refine ⟨Lib.Machine.run_invariant_along (fun t => Named t.2 ∧ Held r st.2 t.2) keep start quiet ran,
    ?_⟩
  refine Lib.Machine.along_invariant (fun t => Named t.2 ∧ Held r st.2 t.2) ?_ start quiet
  intro t call t' o inv h other
  exact ⟨keep inv h other, (keep inv h other).2.considered⟩

/-- Along a stretch throughout which a requestor is accepted, and in the call before it, every
requestor has at most one column access sent. -/
theorem stretch_count (small : r < maxRequestors) {call : SchedulerCall}
    {st st' : CommandScheduler × RoundState} {o : Option (Option BusPacket)}
    {stretch : List SchedulerCall} {told : List (Option (Option BusPacket))} (named : Named p)
    (first : (schedule spec).step spec table (s, p) call = some (st, o))
    (accepted : st.2.consideredScheduled r = 1)
    (along : Lib.Machine.Along ((schedule spec).step spec table)
      (fun _ _ st'' _ => st''.2.consideredScheduled r = 1) st stretch)
    (ran : Lib.Machine.run ((schedule spec).step spec table) st stretch = some (st', told)) :
    (o :: told).countP (casOf k) ≤ 1 := by
  have whole := Lib.Machine.run_cons_eq_some.mpr ⟨st, o, told, first, ran, rfl⟩
  refine Lib.Machine.count_le_one (fun st => Named st.2) (fun st => st.2.consideredScheduled r = 1)
    (fun st => st.2.servicebuffer k = 1) ?_ ?_ ?_ named (fun _ _ => trivial) ?_ whole
  · exact fun named _ h => (step_called named h).1
  · exact fun named h sent => (step_called named h).2.latches sent
  · exact fun named held served h _ => (step_called named h).2.stays small held served
  · intro st'' o' h
    obtain ⟨rfl, rfl⟩ : st = st'' ∧ o = o' := by simpa [first] using h
    exact ⟨accepted, along⟩

/-- One command is one requestor's. -/
theorem casOf_apart {o : Option (Option BusPacket)} (apart : r ≠ k) (sent : casOf r o = true) :
    casOf k o = false := by
  match o, sent with
  | some (some c), sent =>
    obtain ⟨_, rfl⟩ := casOf_some sent
    simp [casOf, apart]

/-- **Round discipline.** In every state a run reaches, for any device answers: a read is sent in a
read round and a write in a write round, by a requestor that is accepted and not served; and from the
call after which a requestor `r` is accepted until its column access is sent, that call included, the
round does not change, `clean_buffers` is not called, and every other requestor has at most one column
access sent. -/
theorem round_discipline (spec : DeviceSpec) (table : Nat → Bool) (queueCount : Nat)
    (m : RefreshMachine) {calls : List SchedulerCall} {s : CommandScheduler} {p : RoundState}
    {told : List (Option (Option BusPacket))}
    (ran : Lib.Machine.run ((schedule spec).step spec table)
      (CommandScheduler.create queueCount true m, {}) calls = some ((s, p), told)) :
    (∀ check s' p' c, schedule spec check s p = some (s', p', some c) →
      (c.busPacketType = .RD → (prepare spec s p).roundType = true) ∧
      (c.busPacketType = .WR → (prepare spec s p).roundType = false) ∧
      (c.busPacketType.isCas = true →
        (prepare spec s p).consideredScheduled c.requestorID = 1 ∧
        (prepare spec s p).servicebuffer c.requestorID = 0)) ∧
    ∀ r < maxRequestors, ∀ call st₁ o₁, (schedule spec).step spec table (s, p) call = some (st₁, o₁) →
      st₁.2.consideredScheduled r = 1 →
      ∀ stretch st₂ told₂, Lib.Machine.run ((schedule spec).step spec table) st₁ stretch =
        some (st₂, told₂) → (∀ o ∈ told₂, casOf r o = false) →
      ∀ call' st₃ o₃, (schedule spec).step spec table st₂ call' = some (st₃, o₃) →
        st₃.2.roundType = st₁.2.roundType ∧ st₃.2.cleanings = st₁.2.cleanings ∧
        ∀ k, k ≠ r → (o₁ :: told₂ ++ [o₃]).countP (casOf k) ≤ 1 := by
  have named : Named p := by
    refine Lib.Machine.run_invariant (fun st => Named st.2) ?_ (fun k c h => ?_) ran
    · exact fun named h => (step_called named h).1
    · cases h
  refine ⟨fun check s' p' c scheduled => (schedule_sends named scheduled).2.fits,
    fun r small call st₁ o₁ first accepted stretch st₂ told₂ ran others call' st₃ o₃ last => ?_⟩
  obtain ⟨named₁, _⟩ := step_called named first
  -- the requestor stays accepted along the stretch
  obtain ⟨⟨named₂, held⟩, along⟩ := stretch_held small named₁ accepted ran others
  obtain ⟨_, called⟩ := step_called named₂ last
  obtain ⟨round, cleanings, kept⟩ := called.holds small held.considered
  refine ⟨round.trans held.round, cleanings.trans held.cleanings, fun k other => ?_⟩
  cases mine : casOf r o₃ with
  | true =>
    -- the last call sends the requestor's own column access, and no other's
    have none : casOf k o₃ = false := casOf_apart (Ne.symm other) mine
    rw [List.countP_append, List.countP_singleton, none]
    exact stretch_count small named first accepted along ran
  | false =>
    have ran' : Lib.Machine.run ((schedule spec).step spec table) st₁ (stretch ++ [call']) =
        some (st₃, told₂ ++ [o₃]) :=
      Lib.Machine.run_append_eq_some.mpr ⟨st₂, told₂, [o₃], ran,
        Lib.Machine.run_cons_eq_some.mpr ⟨st₃, o₃, [], last, rfl, rfl⟩, rfl⟩
    have others' : ∀ o ∈ told₂ ++ [o₃], casOf r o = false := by
      intro o ho
      rcases List.mem_append.mp ho with ho | ho
      · exact others o ho
      · rw [List.mem_singleton.mp ho, mine]
    exact stretch_count small named first accepted
      (stretch_held small named₁ accepted ran' others').2 ran'

/-- A read of requestor 0 waits, and two of requestor 1. -/
def rivalReads : List SchedulerCall := [.insert 0 .RD 0 0, .insert 0 .RD 1 1, .insert 0 .RD 1 1]

/-- The device takes commands for bank 1 only. -/
def favouringCall : SchedulerCall := .commandSchedule fun c => c.bank = 1

/-- It does so again after five cycles. -/
def favouringStretch : List SchedulerCall := List.replicate 5 .tick ++ [favouringCall]

/-- The scheduler at a device without refresh, with one queue. -/
def sampleRound : Lib.Machine.Step (CommandScheduler × RoundState) SchedulerCall
    (Option (Option BusPacket)) :=
  (schedule openPageSetup.device).step openPageSetup.device fun _ => true

def sampleStart : CommandScheduler × RoundState :=
  (CommandScheduler.create 1 true (.create .none openPageSetup.device 0 0), {})

/-- The law at a run in which requestor 0 is accepted and cannot be served for a while: requestor 1
has one read sent and not the other, until requestor 0 has its own. -/
theorem round_discipline_rivalReads :
    ∃ st₁ o₁ st₂ told₂ st₃ o₃,
      Lib.Machine.run sampleRound sampleStart (rivalReads ++ [favouringCall]) =
        some (st₁, [none, none, none, o₁]) ∧
      Lib.Machine.run sampleRound st₁ favouringStretch = some (st₂, told₂) ∧
      sampleRound st₂ (.commandSchedule fun _ => true) = some (st₃, o₃) ∧
      casOf 1 o₁ = true ∧ casOf 0 o₃ = true ∧
      st₃.2.roundType = st₁.2.roundType ∧ st₃.2.cleanings = st₁.2.cleanings ∧
      (o₁ :: told₂ ++ [o₃]).countP (casOf 1) ≤ 1 := by
  obtain ⟨⟨s, p⟩, told, inserted, waits⟩ := Lib.Machine.run_exists_told sampleRound
    (fun st told => told = [none, none, none] ∧ (sampleRound st favouringCall).any (fun r =>
      r.1.2.consideredScheduled 0 = 1 ∧ casOf 1 r.2 ∧
      (Lib.Machine.run sampleRound r.1 favouringStretch).any (fun r₂ =>
        (∀ o ∈ r₂.2, casOf 0 o = false) ∧
        (sampleRound r₂.1 (.commandSchedule fun _ => true)).any fun r₃ => casOf 0 r₃.2)))
    sampleStart rivalReads (by decide +kernel)
  obtain ⟨rfl, called⟩ := waits
  obtain ⟨⟨st₁, o₁⟩, first, called⟩ := (Option.any_eq_true _ _).mp called
  obtain ⟨accepted, sent, called⟩ := of_decide_eq_true called
  obtain ⟨⟨st₂, told₂⟩, ran, called⟩ := (Option.any_eq_true _ _).mp called
  obtain ⟨others, called⟩ := of_decide_eq_true called
  obtain ⟨⟨st₃, o₃⟩, last, own⟩ := (Option.any_eq_true _ _).mp called
  obtain ⟨round, cleanings, count⟩ := (round_discipline openPageSetup.device (fun _ => true) 1
    (.create .none openPageSetup.device 0 0) inserted).2 0 (by decide) favouringCall st₁ o₁ first
    accepted favouringStretch st₂ told₂ ran others (.commandSchedule fun _ => true) st₃ o₃ last
  refine ⟨st₁, o₁, st₂, told₂, st₃, o₃, ?_, ran, last, sent, own, round, cleanings,
    count 1 (by decide)⟩
  exact Lib.Machine.run_append_eq_some.mpr ⟨(s, p), [none, none, none], [o₁], inserted,
    Lib.Machine.run_cons_eq_some.mpr ⟨st₁, o₁, [], first, rfl, rfl⟩, rfl⟩

end Round
end MCsim
