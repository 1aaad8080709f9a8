import MCsim.Laws.Latch
import MCsim.Laws.Round
import MCsim.Lib.Recency

/-!
# What a Round call holds back and whom it precharges

**Reads and writes.** The section that holds activations back is written twice, for the two kinds of
round. `mirror` exchanges reads and writes in a state. The two copies count the accepted requestors
alike, but both count the *reads* among the fresh ones, so a write round takes no notice of the writes
that are about to be accepted. `blockACT_mirror` says exactly when the two rounds decide alike.

**Precharges.** They are found through `OrderPRE` alone: the requestors in the order of their last
precharge, whoever had one going to the end. The list starts with the requestors below 8, and nobody
ever joins it, though there may be 16: the precharge of any other requestor is never sent.
-/

namespace MCsim
namespace Round

open CommandScheduler

variable {spec : DeviceSpec} {check : Answers} {table : Nat → Bool} {s s' : CommandScheduler}
variable {p p' : RoundState} {k : Nat}

/-! ## Reads and writes exchanged -/

/-- A read for a write and back, and their activations likewise. -/
def mirrorType : BusPacketType → BusPacketType
  | .RD => .WR
  | .WR => .RD
  | .ACT_R => .ACT_W
  | .ACT_W => .ACT_R
  | t => t

/-- The same state in the other kind of round, with every latched command exchanged. -/
def mirror (p : RoundState) : RoundState :=
  { p with
    roundType := !p.roundType
    tempqueue := fun k =>
      (p.tempqueue k).map fun c => { c with busPacketType := mirrorType c.busPacketType } }

theorem mirrorType_eq_iff {t u : BusPacketType} : mirrorType t = u ↔ t = mirrorType u := by
  cases t <;> cases u <;> decide

theorem roundACT_not (read : Bool) : mirrorType (roundACT (!read)) = roundACT read := by
  cases read <;> rfl

theorem latchedAs_mirror (p : RoundState) (k : Nat) (t : BusPacketType) :
    latchedAs (mirror p) k t = latchedAs p k (mirrorType t) := by
  have exchanged : (mirror p).tempqueue k =
      (p.tempqueue k).map fun c => { c with busPacketType := mirrorType c.busPacketType } := rfl
  unfold latchedAs
  rw [exchanged]
  cases p.tempqueue k with
  | none => rfl
  | some c => simp [mirrorType_eq_iff]

/-- How many fresh requestors in `Order` have a command of a type latched. -/
def freshWith (p : RoundState) (t : BusPacketType) : Nat :=
  p.Order.countP fun k => fresh p k && latchedAs p k t

theorem checkD_mirror (p : RoundState) : checkD (mirror p) = freshWith p .WR := by
  simp only [checkD, freshWith, latchedAs_mirror]
  rfl

theorem checkA_mirror (p : RoundState) : checkA (mirror p) = checkA p := by
  have act : mirrorType (roundACT (mirror p).roundType) = roundACT p.roundType :=
    roundACT_not p.roundType
  simp only [checkA, latchedAs_mirror, act]
  rfl

/-- The slack with a number of fresh requestors counted in, an unsigned number read as a signed
one. -/
def slack (spec : DeviceSpec) (p : RoundState) (waiting : Nat) : Int :=
  ((((checkB p + waiting) * tCCD + p.CAStimer : Nat) : Int) - spec.constraints.tRCD -
    compensation).bmod (2 ^ 32)

theorem signCheck_mirror (spec : DeviceSpec) (p : RoundState) :
    signCheck spec (mirror p) = slack spec p (freshWith p .WR) := by
  rw [signCheck, checkD_mirror]
  rfl

/-- The section decides: no activation timer runs, a command of the round was sent, and no accepted
requestor has its activation latched. -/
def Decides (p : RoundState) : Prop :=
  p.ACTtimer = 0 ∧ p.first = false ∧
    ∀ k ∈ p.Order, accepted p k = true → latchedAs p k (roundACT p.roundType) = false

theorem checkA_eq_false : checkA p = false ↔
    ∀ k ∈ p.Order, accepted p k = true → latchedAs p k (roundACT p.roundType) = false := by
  simp [checkA]

theorem holdActivations_blockACT (spec : DeviceSpec) (p : RoundState) :
    (Decides p → (holdActivations spec p).blockACT = decide (signCheck spec p < 0)) ∧
      (¬ Decides p → (holdActivations spec p).blockACT = p.blockACT) := by
  unfold Decides holdActivations
  constructor
  · rintro ⟨timer, first, quiet⟩
    rw [if_pos ⟨timer, first, checkA_eq_false.mpr quiet⟩]
  · intro decides
    rw [if_neg fun h => decides ⟨h.1, h.2.1, checkA_eq_false.mp h.2.2⟩]

theorem decides_mirror : Decides (mirror p) ↔ Decides p := by
  unfold Decides
  rw [← checkA_eq_false, ← checkA_eq_false, checkA_mirror]
  rfl

/-- **Read and write rounds hold activations back alike** exactly where the section does not decide,
or the reads and the writes among the fresh requestors leave the slack on the same side of 0. -/
theorem blockACT_mirror (spec : DeviceSpec) (p : RoundState) :
    (holdActivations spec (mirror p)).blockACT = (holdActivations spec p).blockACT ↔
      (Decides p →
        (slack spec p (freshWith p .WR) < 0 ↔ slack spec p (freshWith p .RD) < 0)) := by
  have here := holdActivations_blockACT spec p
  have there := holdActivations_blockACT spec (mirror p)
  rw [decides_mirror] at there
  by_cases decides : Decides p
  · rw [here.1 decides, there.1 decides, signCheck_mirror, decide_eq_decide]
    exact ⟨fun same _ => same, fun same => same decides⟩
  · rw [here.2 decides, there.2 decides]
    exact ⟨fun _ d => absurd d decides, fun _ => rfl⟩

/-- Reads of requestors 0 and 1 wait, the first one is sent, and a read of requestor 2 arrives. -/
def lateRead : List SchedulerCall :=
  [.insert 0 .RD 0 0, .insert 0 .RD 1 1, .commandSchedule fun _ => true, .tick, .insert 0 .RD 2 2]

/-- In the next call, the read round lets activations pass. Had all three been writes in a write
round, it would hold them back. -/
theorem blockACT_lateRead :
    ∃ s p told, Lib.Machine.run sampleRound sampleStart lateRead = some ((s, p), told) ∧
      (holdActivations openPageSetup.device
        (switchRound openPageSetup.device s.clock (latch s (countdown p)))).blockACT = false ∧
      (holdActivations openPageSetup.device
        (mirror (switchRound openPageSetup.device s.clock (latch s (countdown p))))).blockACT =
          true := by
  obtain ⟨⟨s, p⟩, told, ran, differ⟩ := Lib.Machine.run_exists sampleRound
    (fun st => (holdActivations openPageSetup.device
        (switchRound openPageSetup.device st.1.clock (latch st.1 (countdown st.2)))).blockACT = false ∧
      (holdActivations openPageSetup.device (mirror (switchRound openPageSetup.device st.1.clock
        (latch st.1 (countdown st.2))))).blockACT = true)
    sampleStart lateRead (by decide +kernel)
  exact ⟨s, p, told, ran, differ⟩

/-! ## Precharges -/

/-- A precharge of the requestor was sent. -/
def preOf (k : Nat) : Option (Option BusPacket) → Bool
  | some (some c) => c.busPacketType == .PRE && c.requestorID == k
  | _ => false

/-- When, in what was told of a run, the requestor had its last precharge: 0 if it had none. -/
def lastPRE (told : List (Option (Option BusPacket))) (k : Nat) : Nat :=
  Lib.Recency.lastAt (preOf k) told

/-- A precharge of the requestor is latched, and the device takes it. -/
def PreReady (check : Answers) (s : CommandScheduler) (p : RoundState) (k : Nat) : Prop :=
  ∃ c, p.tempqueue k = some c ∧ c.busPacketType = .PRE ∧ s.isIssuable check c = true

/-- What a precharge is chosen by. -/
theorem preChoice_eq_some {place : Nat × Nat} {chosen : Choice} :
    preChoice check s p place = some chosen ↔
      chosen.RR = place.1 ∧ chosen.i = place.2 ∧ p.tempqueue chosen.RR = some chosen.command ∧
        chosen.command.busPacketType = .PRE ∧ s.isIssuable check chosen.command = true := by
  obtain ⟨c, RR, i⟩ := chosen
  constructor
  · intro h
    obtain ⟨d, latched, h⟩ := Option.bind_eq_some_iff.mp h
    split at h
    · next fits =>
      cases h
      exact ⟨rfl, rfl, latched, fits.1, fits.2⟩
    · cases h
  · rintro ⟨rfl, rfl, latched, type, issuable⟩
    refine Option.bind_eq_some_iff.mpr ⟨c, latched, ?_⟩
    rw [if_pos ⟨type, issuable⟩]

/-! ### What the phases before sending leave alone -/

theorem latchCommand_OrderPRE (p : RoundState) (c : BusPacket) :
    (latchCommand p c).OrderPRE = p.OrderPRE := by
  unfold latchCommand
  dsimp only
  split
  case h_3 | h_4 => split <;> rfl
  all_goals rfl

theorem latchFront_OrderPRE (s : CommandScheduler) (index : Nat) (p : RoundState) (num : Nat) :
    (latchFront s index p num).OrderPRE = p.OrderPRE := by
  unfold latchFront
  split
  · rfl
  · split
    · exact latchCommand_OrderPRE p _
    · rfl

/-- A loop whose turns leave `OrderPRE` alone leaves it alone. -/
theorem foldl_OrderPRE {α : Type} {turn : RoundState → α → RoundState}
    (same : ∀ p a, (turn p a).OrderPRE = p.OrderPRE) (p : RoundState) (l : List α) :
    (l.foldl turn p).OrderPRE = p.OrderPRE :=
  foldl_keeps (fun q => q.OrderPRE = p.OrderPRE) (fun q a h => (same q a).trans h) rfl l

theorem latch_OrderPRE (s : CommandScheduler) (p : RoundState) : (latch s p).OrderPRE = p.OrderPRE :=
  foldl_OrderPRE (fun p index => foldl_OrderPRE (latchFront_OrderPRE s index) p _) p _

theorem prepare_OrderPRE (spec : DeviceSpec) (s : CommandScheduler) (p : RoundState) :
    (prepare spec s p).OrderPRE = p.OrderPRE := by
  rw [(prepare_flags spec s p).OrderPRE, latch_OrderPRE]
  rfl

/-- Where a list with its positions is split, the list is, and the position is where. -/
theorem zipIdx_split {order : List Nat} {before after : List (Nat × Nat)} {a : Nat × Nat}
    (h : order.zipIdx = before ++ a :: after) :
    order = before.map Prod.fst ++ a.1 :: after.map Prod.fst ∧
      a.2 = (before.map Prod.fst).length := by
  have here : order.zipIdx[before.length]? = some a := by simp [h]
  rw [List.getElem?_zipIdx] at here
  obtain ⟨x, _, rfl⟩ := Option.map_eq_some_iff.mp here
  refine ⟨?_, by simp⟩
  calc order = order.zipIdx.map Prod.fst := (List.zipIdx_map_fst 0 order).symm
    _ = _ := by rw [h, List.map_append, List.map_cons]

/-- **The precharge that is chosen**: its requestor's is ready, and none before it in `OrderPRE`
is. -/
theorem choosePRE_split {chosen : Choice} (h : choosePRE check s p = some chosen) :
    p.tempqueue chosen.RR = some chosen.command ∧ chosen.command.busPacketType = .PRE ∧
      s.isIssuable check chosen.command = true ∧
      ∃ before after, p.OrderPRE = before ++ chosen.RR :: after ∧ chosen.i = before.length ∧
        ∀ k ∈ before, ¬ PreReady check s p k := by
  obtain ⟨before, place, after, split, found, none⟩ := List.findSome?_eq_some_iff.mp h
  obtain ⟨requestor, position, latched, type, issuable⟩ := preChoice_eq_some.mp found
  obtain ⟨order, index⟩ := zipIdx_split split
  refine ⟨latched, type, issuable, _, _, requestor ▸ order, position.trans index, ?_⟩
  rintro k hk ⟨c, waits, pre, takes⟩
  obtain ⟨passed, hp, rfl⟩ := List.mem_map.mp hk
  have goes : preChoice check s p passed = some ⟨c, passed.1, passed.2⟩ :=
    preChoice_eq_some.mpr ⟨rfl, rfl, waits, pre, takes⟩
  rw [none passed hp] at goes
  cases goes

/-- A ready precharge of a requestor in `OrderPRE` is not passed over. -/
theorem choosePRE_isSome (listed : k ∈ p.OrderPRE) (ready : PreReady check s p k) :
    ∃ chosen, choosePRE check s p = some chosen := by
  obtain ⟨c, latched, type, issuable⟩ := ready
  obtain ⟨i, hi⟩ := List.getElem?_of_mem listed
  have placed : (k, i) ∈ p.OrderPRE.zipIdx := by
    refine List.mem_of_getElem? (i := i) ?_
    rw [List.getElem?_zipIdx, hi]
    simp
  have goes : preChoice check s p (k, i) = some ⟨c, k, i⟩ :=
    preChoice_eq_some.mpr ⟨rfl, rfl, latched, type, issuable⟩
  exact Option.isSome_iff_exists.mp
    (List.findSome?_isSome_iff.mpr ⟨(k, i), placed, by rw [goes]; rfl⟩)

/-! ### Runs -/

/-- The command's requestor has flags; and if it is a precharge, `OrderPRE` starts with its
requestor. -/
def Listed (c : BusPacket) : Prop :=
  c.requestorID < maxRequestors ∧ (c.busPacketType = .PRE → c.requestorID < 8)

/-- What a run has made of the queues, the latched commands and the order of precharges. -/
structure PreHistory (st : CommandScheduler × RoundState) (told : List (Option (Option BusPacket))) :
    Prop where
  shaped : st.1.Shaped true
  holds : st.1.Holds fun _ => Listed
  named : Named st.2
  latched : ∀ k c, st.2.tempqueue k = some c → Listed c
  ranked : Lib.Recency.Ranked (lastPRE told) st.2.OrderPRE
  covers : ∀ k < 8, k ∈ st.2.OrderPRE

theorem preHistory_create (queueCount : Nat) (m : RefreshMachine) :
    PreHistory (CommandScheduler.create queueCount true m, {}) [] where
  shaped := shaped_create queueCount true m
  holds := holds_create _ queueCount true m
  named _ _ h := nomatch h
  latched _ _ h := nomatch h
  ranked := ⟨List.nodup_range, List.Pairwise.imp (fun _ => Nat.le_refl 0) (List.pairwise_lt_range)⟩
  covers _ small := List.mem_range.mpr small

variable {told : List (Option (Option BusPacket))}

/-- What is latched comes from the front of a buffer. -/
theorem latchFront_listed (shaped : s.Shaped true) (holds : s.Holds fun _ => Listed) (index : Nat)
    (p : RoundState) (num : Nat) (latched : ∀ k c, p.tempqueue k = some c → Listed c) :
    ∀ k c, (latchFront s index p num).tempqueue k = some c → Listed c := by
  unfold latchFront
  split
  · exact latched
  · next c front =>
    split
    · intro k d hd
      rw [latchCommand_tempqueue, assign] at hd
      split at hd
      · cases hd
        obtain ⟨id, _, front⟩ := Option.bind_eq_some_iff.mp front
        apply holds index id c
        rw [bufferOf, CommandQueue.lane, CommandQueue.isPerRequestor, (shaped index).kind, if_pos rfl]
        exact List.mem_of_mem_head? front
      · exact latched k d hd
    · exact latched

theorem latch_listed (shaped : s.Shaped true) (holds : s.Holds fun _ => Listed)
    (latched : ∀ k c, p.tempqueue k = some c → Listed c) :
    ∀ k c, (latch s p).tempqueue k = some c → Listed c :=
  foldl_keeps (fun p => ∀ k c, p.tempqueue k = some c → Listed c)
    (fun _ index h => foldl_keeps (fun p => ∀ k c, p.tempqueue k = some c → Listed c)
      (latchFront_listed shaped holds index) h _) latched _

/-- A call, seen before it sends. -/
theorem PreHistory.prepare (history : PreHistory (s, p) told) :
    PreHistory (s, prepare spec s p) told where
  shaped := history.shaped
  holds := history.holds
  named := prepare_named history.named
  latched := by
    rw [(prepare_flags spec s p).tempqueue]
    exact latch_listed (p := countdown p) history.shaped history.holds history.latched
  ranked := by
    rw [prepare_OrderPRE]
    exact history.ranked
  covers := by
    rw [prepare_OrderPRE]
    exact history.covers

/-- What is told that is no precharge leaves everything about precharges as it is. -/
theorem PreHistory.quiet (history : PreHistory (s, p) told) (shaped : s'.Shaped true)
    (holds : s'.Holds fun _ => Listed) {o : Option (Option BusPacket)}
    (other : ∀ k, preOf k o = false) : PreHistory (s', p) (told ++ [o]) where
  shaped := shaped
  holds := holds
  named := history.named
  latched := history.latched
  ranked := history.ranked.congr fun k _ => Lib.Recency.lastAt_other (other k) told
  covers := history.covers

/-- Sending frees the requestor. -/
theorem send_precedure_latched {chosen : Choice} {pre : Bool}
    (latched : ∀ k c, p.tempqueue k = some c → Listed c) :
    ∀ k c, (send_precedure spec s p chosen pre).2.1.tempqueue k = some c → Listed c := by
  intro k c hc
  dsimp only [send_precedure, assign] at hc
  split at hc
  · cases hc
  · rw [settle_tempqueue] at hc
    exact latched k c hc

/-- A command of the round leaves the order of precharges alone. -/
theorem settle_OrderPRE (spec : DeviceSpec) (clock : Nat) (p : RoundState) (chosen : Choice) :
    (settle spec clock p chosen false).OrderPRE = p.OrderPRE := by
  unfold settle
  rw [if_neg Bool.false_ne_true]
  split
  case h_1 | h_2 => exact (countActivation_flags spec { p with first := false }).OrderPRE
  all_goals rfl

/-- What is sent for a choice keeps the queues in shape. -/
theorem PreHistory.sent (history : PreHistory (s, p) told) (spec : DeviceSpec) (chosen : Choice) :
    (s.issue spec chosen.command 0).Shaped true ∧
      (s.issue spec chosen.command 0).Holds fun _ => Listed :=
  ⟨(history.shaped.issue spec (chosen.command, 0)).1,
    history.holds.issue history.shaped spec (chosen.command, 0)⟩

/-- **A command of the round is sent.** -/
theorem PreHistory.sendRound (history : PreHistory (s, p) told) {chosen : Choice}
    (h : chooseRound check s p = some chosen) :
    PreHistory ((send_precedure spec s p chosen false).1, (send_precedure spec s p chosen false).2.1)
      (told ++ [some (some chosen.command)]) := by
  obtain ⟨shaped, holds⟩ := history.sent spec chosen
  have other : ∀ k, preOf k (some (some chosen.command)) = false := by
    intro k
    obtain ⟨_, act | ⟨cas, _⟩⟩ := chooseRound_spec h
    · cases round : p.roundType <;> simp [preOf, act, roundACT, round]
    · cases round : p.roundType <;> simp [preOf, cas, roundCAS, round]
  have same : (send_precedure spec s p chosen false).2.1.OrderPRE = p.OrderPRE :=
    settle_OrderPRE spec s.clock p chosen
  refine ⟨shaped, holds, send_precedure_named history.named chosen false,
    send_precedure_latched history.latched, ?_, ?_⟩
  · rw [same]
    exact history.ranked.congr fun k _ => Lib.Recency.lastAt_other (other k) told
  · rw [same]
    exact history.covers

/-- **A precharge is sent**: its requestor goes to the end. -/
theorem PreHistory.sendPRE (history : PreHistory (s, p) told) {chosen : Choice}
    (h : choosePRE check s p = some chosen) :
    PreHistory ((send_precedure spec s p chosen true).1, (send_precedure spec s p chosen true).2.1)
      (told ++ [some (some chosen.command)]) := by
  obtain ⟨shaped, holds⟩ := history.sent spec chosen
  obtain ⟨latched, type, _, before, after, split, position, _⟩ := choosePRE_split h
  have own : chosen.command.requestorID = chosen.RR := history.named _ _ latched
  have order : (send_precedure spec s p chosen true).2.1.OrderPRE =
      before ++ after ++ [chosen.RR] := by
    have erased : p.OrderPRE.eraseIdx chosen.i = before ++ after := by
      rw [split, position, List.eraseIdx_append_of_length_le (Nat.le_refl _)]
      simp
    simp only [send_precedure, settle, if_true, erased]
  have ranked : Lib.Recency.Ranked (lastPRE told) (before ++ chosen.RR :: after) :=
    split ▸ history.ranked
  have fresh : chosen.RR ∉ before ++ after :=
    (List.nodup_cons.mp (List.perm_middle.nodup_iff.mp ranked.once)).1
  refine ⟨shaped, holds, send_precedure_named history.named chosen true,
    send_precedure_latched history.latched, ?_, fun k small => ?_⟩
  · rw [order]
    refine ranked.serve (fun k hk => Lib.Recency.lastAt_other ?_ told) fun k _ => ?_
    · have apart : chosen.RR ≠ k := fun same => fresh (same ▸ hk)
      simp [preOf, type, own, apart]
    · have now : preOf chosen.RR (some (some chosen.command)) = true := by simp [preOf, type, own]
      calc lastPRE told k ≤ told.length := Lib.Recency.lastAt_le _ told
        _ ≤ told.length + 1 := Nat.le_succ _
        _ = lastPRE (told ++ [some (some chosen.command)]) chosen.RR :=
          (Lib.Recency.lastAt_event now told).symm
  · have listed := history.covers k small
    rw [order]
    rw [split] at listed
    simpa [or_comm, or_left_comm] using listed

/-- **One call** carries the history on. -/
theorem PreHistory.step {call : SchedulerCall} {st : CommandScheduler × RoundState}
    {o : Option (Option BusPacket)} (history : PreHistory (s, p) told)
    (h : (schedule spec).step spec table (s, p) call = some (st, o))
    (fits : call.Inserts fun _ => Listed) : PreHistory st (told ++ [o]) := by
  obtain ⟨s', base, rfl, rfl⟩ | ⟨check, s', p', out, rfl, scheduled, rfl, rfl⟩ :=
    Scheduling.step_cases h
  · have latching : Latching true (fun _ => Listed) Entry.requestor s [] fun _ => false :=
      ⟨history.shaped, history.holds, .empty _ s⟩
    have kept := latching.base (fun per => nomatch per) fits base
    exact history.quiet kept.shaped kept.holds fun _ => rfl
  · have prepared : PreHistory ({ s with scheduledCommand := none }, Round.prepare spec s p) told :=
      let h := history.prepare
      ⟨h.shaped, h.holds, h.named, h.latched, h.ranked, h.covers⟩
    have sent := Option.some.inj scheduled
    unfold send at sent
    split at sent
    · next chosen round =>
      cases sent
      exact prepared.sendRound round
    · split at sent
      · next chosen pre =>
        cases sent
        exact prepared.sendPRE pre
      · cases sent
        exact prepared.quiet prepared.shaped prepared.holds fun _ => rfl

/-- **No latched precharge is ignored.** In every state of a run in which every inserted precharge is of
a requestor below 8, and for any device answers: a call that sends neither an activation nor a column
access sends a precharge if one that the device takes is latched, and it is one of a requestor whose
last precharge is the longest ago. -/
theorem precharge_longestAgo (spec : DeviceSpec) (table : Nat → Bool) (queueCount : Nat)
    (m : RefreshMachine) {calls : List SchedulerCall} {s : CommandScheduler} {p : RoundState}
    {told : List (Option (Option BusPacket))}
    (fits : ∀ call ∈ calls, call.Inserts fun _ => Listed)
    (ran : Lib.Machine.run ((schedule spec).step spec table)
      (CommandScheduler.create queueCount true m, {}) calls = some ((s, p), told)) :
    ∀ check s' p' out, schedule spec check s p = some (s', p', out) →
      (∀ c, out = some c → c.busPacketType.beforeACT = false) →
      (∃ k, PreReady check s (prepare spec s p) k) →
      ∃ c, out = some c ∧ c.busPacketType = .PRE ∧
        (prepare spec s p).tempqueue c.requestorID = some c ∧ s.isIssuable check c = true ∧
        ∀ k, PreReady check s (prepare spec s p) k → lastPRE told c.requestorID ≤ lastPRE told k := by
  have history : PreHistory (s, p) told := by
    refine Lib.Machine.run_history_along (fun _ st told => PreHistory st told) ?_
      (preHistory_create queueCount m) (Lib.Machine.along_of_forall _ _ fits) ran
    exact fun history h fits => history.step h fits
  intro check s' p' out scheduled noRound waiting
  have prepared := @PreHistory.prepare spec s p told history
  have listed : ∀ k, PreReady check s (prepare spec s p) k → k ∈ (prepare spec s p).OrderPRE := by
    rintro k ⟨d, latched, type, _⟩
    have small := (prepared.latched k d latched).2 type
    rw [prepared.named k d latched] at small
    exact prepared.covers k small
  have sent := Option.some.inj scheduled
  unfold send at sent
  split at sent
  · -- a command of the round is none that may be sent here
    next chosen round =>
    cases sent
    have before := noRound chosen.command rfl
    obtain ⟨_, act | ⟨cas, _⟩⟩ := chooseRound_spec round
    · cases type : (prepare spec s p).roundType <;> simp [act, type, roundACT] at before <;>
        cases before
    · cases type : (prepare spec s p).roundType <;> simp [cas, type, roundCAS] at before <;>
        cases before
  · obtain ⟨k, ready⟩ := waiting
    obtain ⟨chosen, pre⟩ := choosePRE_isSome (listed k ready) ready
    have pre' : choosePRE check { s with scheduledCommand := none } (prepare spec s p) =
      some chosen := pre
    rw [pre'] at sent
    cases sent
    obtain ⟨latched, type, issuable, before, after, split, _, passed⟩ := choosePRE_split pre
    have own : chosen.command.requestorID = chosen.RR := prepared.named _ _ latched
    refine ⟨chosen.command, rfl, type, own.symm ▸ latched, issuable, fun k ready => ?_⟩
    rw [own]
    have ranked : Lib.Recency.Ranked (lastPRE told) (before ++ chosen.RR :: after) :=
      split ▸ prepared.ranked
    apply ranked.le
    have member := listed k ready
    rw [split] at member
    exact (List.mem_append.mp member).resolve_left fun h => passed k h ready

/-- A precharge of requestor 1 is sent, then one of requestor 0; then one of each waits, that of requestor
0 in front. -/
def fourPrecharges : List SchedulerCall :=
  [.insert 0 .PRE 1 1, .commandSchedule fun _ => true, .tick,
    .insert 0 .PRE 0 0, .commandSchedule fun _ => true, .tick, .insert 0 .PRE 0 0, .insert 0 .PRE 1 1]

/-- Requestor 1 has its precharge sent first, since its last one is longer ago. -/
theorem precharge_longestAgo_fourPrecharges :
    ∃ s p told s' p' c, Lib.Machine.run sampleRound sampleStart fourPrecharges = some ((s, p), told) ∧
      schedule openPageSetup.device (fun _ => true) s p = some (s', p', some c) ∧
      c.busPacketType = .PRE ∧ c.requestorID = 1 ∧
      0 < lastPRE told c.requestorID ∧ lastPRE told c.requestorID ≤ lastPRE told 0 := by
  obtain ⟨⟨s, p⟩, told, ran, s', p', out, scheduled, quiet, own, zero, sentBefore⟩ :
      ∃ st told, Lib.Machine.run sampleRound sampleStart fourPrecharges = some (st, told) ∧
        ∃ s' p' out, schedule openPageSetup.device (fun _ => true) st.1 st.2 = some (s', p', out) ∧
          (∀ c, out = some c → c.busPacketType.beforeACT = false) ∧
          (∀ c, out = some c → c.requestorID = 1) ∧
          PreReady (fun _ => true) st.1 (prepare openPageSetup.device st.1 st.2) 0 ∧
          0 < lastPRE told 1 := by
    refine ⟨_, _, rfl, _, _, _, rfl, ?_, ?_, ⟨_, rfl, rfl, rfl⟩, by decide⟩ <;>
      (rintro c ⟨⟩; rfl)
  have fits : ∀ call ∈ fourPrecharges, call.Inserts fun _ => Listed := by
    intro call hc e he
    simp only [fourPrecharges, List.mem_cons, List.not_mem_nil, or_false] at hc
    rcases hc with rfl | rfl | rfl | rfl | rfl | rfl | rfl | rfl <;> cases he <;>
      exact ⟨by decide, fun _ => by decide⟩
  obtain ⟨c, rfl, type, _, _, least⟩ := precharge_longestAgo openPageSetup.device (fun _ => true) 1
    (.create .none openPageSetup.device 0 0) fits ran (fun _ => true) s' p' out scheduled quiet
    ⟨0, zero⟩
  exact ⟨s, p, told, s', p', c, ran, scheduled, type, own c rfl, own c rfl ▸ sentBefore, least 0 zero⟩

/-- A precharge of requestor 8 is latched and the device takes it, and nothing is sent. -/
theorem precharge_eighthIgnored :
    ∃ s p told s' p',
      Lib.Machine.run sampleRound sampleStart [.insert 0 .PRE 8 0] = some ((s, p), told) ∧
      schedule openPageSetup.device (fun _ => true) s p = some (s', p', none) ∧
      PreReady (fun _ => true) s (prepare openPageSetup.device s p) 8 :=
  ⟨_, _, _, _, _, rfl, rfl, _, rfl, rfl, rfl⟩

end Round
end MCsim
