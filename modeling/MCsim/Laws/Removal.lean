import MCsim.Laws.Fifo
import MCsim.Laws.Sides

/-!
# What is sent is what is removed

`removeCommand` removes from the side of a queue that `getCommand` looked at last. DCmc looks at a
front when it latches it and removes it when it sends it, which may be many cycles later. No look of
its own comes between, because the queue is pending; but the refresh machine looks at the critical side
of every queue when it generates a group.

A queue whose latched command is critical is not disturbed by that. One whose latched command is not
critical is, where a critical command joined it meanwhile: `Undisturbed` says that no tick of a run
finds one, and then every command sent is the one removed (`dcmc_removal`).
-/

namespace MCsim

open CommandScheduler

/-- The entry waits on a side of a queue, the side of its requestor's criticality. -/
def Entry.onSide (table : Nat → Bool) (index : Nat) (critical : Bool) (e : Entry) : Bool :=
  e.2 = index && table e.1.requestorID = critical

/-- The commands among some entries that wait on a side of a queue. -/
def ofSide (table : Nat → Bool) (index : Nat) (critical : Bool) (l : List Entry) : List BusPacket :=
  (l.filter (Entry.onSide table index critical)).map (·.1)

theorem ofSide_append (table : Nat → Bool) (index : Nat) (critical : Bool) (l l' : List Entry) :
    ofSide table index critical (l ++ l') =
      ofSide table index critical l ++ ofSide table index critical l' := by
  simp [ofSide]

theorem ofSide_singleton (table : Nat → Bool) (index : Nat) (critical : Bool) (e : Entry) :
    ofSide table index critical [e] =
      if index = e.2 ∧ critical = table e.1.requestorID then [e.1] else [] := by
  by_cases here : index = e.2 <;> by_cases own : critical = table e.1.requestorID <;>
    simp [ofSide, Entry.onSide, here, own, Ne.symm]

namespace Dcmc

variable {table : Nat → Bool} {s s' : CommandScheduler} {p p' : FifoState}

/-- What DCmc holds latched. -/
def latchedEntries (p : FifoState) : List Entry := p.cmdFIFO ++ p.srtFIFO

/-- Every latched command is the front of its side, its side is the one its queue notes, and the
pending queues are those of the latched commands, each of one. -/
structure Noted (table : Nat → Bool) (s : CommandScheduler) (p : FifoState) : Prop where
  sided : s.Sided
  sorted : ∀ i critical, ∀ c ∈ s.side i critical, table c.requestorID = critical
  hard : ∀ e ∈ p.cmdFIFO, table e.1.requestorID = true
  front : ∀ e ∈ latchedEntries p, (s.side e.2 (table e.1.requestorID)).head? = some e.1
  noted : ∀ e ∈ latchedEntries p, s.last e.2 = table e.1.requestorID
  once : ((latchedEntries p).map Entry.queue).Nodup
  pending : ∀ k, p.queuePending k = true ↔ k ∈ (latchedEntries p).map Entry.queue

theorem noted_create (table : Nat → Bool) (queueCount : Nat) (m : RefreshMachine) :
    Noted table (create queueCount false m) {} where
  sided := sided_create queueCount m
  sorted i critical c hc := by
    rw [side_create] at hc
    cases hc
  hard e he := (nomatch he)
  front e he := (nomatch he)
  noted e he := (nomatch he)
  once := List.nodup_nil
  pending k := by simp [latchedEntries]

/-- The invariant only sees the sides and the notes. -/
theorem Noted.of_sides (h : Noted table s p) (sided : s'.Sided)
    (sorted : ∀ i critical, ∀ c ∈ s'.side i critical, table c.requestorID = critical)
    (same : ∀ e ∈ latchedEntries p, (s'.side e.2 (table e.1.requestorID)).head? = some e.1 ∧
      s'.last e.2 = s.last e.2) : Noted table s' p :=
  ⟨sided, sorted, h.hard, fun e he => (same e he).1, fun e he => (same e he).2.trans (h.noted e he),
    h.once, h.pending⟩

/-! ## A call -/

/-- A front of a queue without a pending command joins, on the FIFO of its criticality. -/
theorem Noted.push (h : Noted table s p) {e : Entry}
    (front : (s.side e.2 (s.last e.2)).head? = some e.1) (free : p.queuePending e.2 = false)
    (joined : (latchedEntries p').Perm (latchedEntries p ++ [e]))
    (hard : ∀ e ∈ p'.cmdFIFO, table e.1.requestorID = true)
    (raised : ∀ k, p'.queuePending k = if k = e.2 then true else p.queuePending k) :
    Noted table s p' := by
  have own : table e.1.requestorID = s.last e.2 :=
    h.sorted e.2 (s.last e.2) e.1 (List.mem_of_mem_head? front)
  have member : ∀ d ∈ latchedEntries p', d ∈ latchedEntries p ∨ d = e := by
    intro d hd
    simpa using joined.mem_iff.mp hd
  have fresh : e.2 ∉ (latchedEntries p).map Entry.queue := fun absurd_ => by
    rw [(h.pending e.2).mpr absurd_] at free
    cases free
  refine ⟨h.sided, h.sorted, hard, fun d hd => ?_, fun d hd => ?_, ?_, fun k => ?_⟩
  · rcases member d hd with old | rfl
    · exact h.front d old
    · rw [own]
      exact front
  · rcases member d hd with old | rfl
    · exact h.noted d old
    · exact own.symm
  · apply (joined.map Entry.queue).nodup_iff.mpr
    rw [List.map_append]
    exact List.nodup_append_comm.mp (List.nodup_cons.mpr ⟨fresh, h.once⟩)
  · rw [raised, (joined.map Entry.queue).mem_iff, List.map_append, List.mem_append]
    by_cases here : k = e.2
    · simp [here, Entry.queue]
    · simp [here, h.pending, Entry.queue]

/-- The turn of a queue. -/
theorem Noted.latch (h : Noted table s p) (index : Nat) :
    ∃ s' p', latch table (s, p) index = (s', p') ∧ Noted table s' p' ∧
      s' = { s with commandQueue := s'.commandQueue } ∧
      ∀ i critical, s'.side i critical = s.side i critical := by
  unfold Dcmc.latch
  dsimp only
  cases looked : s.freeFront (p.queuePending index) index with
  | mk s₁ found =>
    obtain ⟨turned, unchanged, front⟩ := freeFront_cases looked
    -- the note changes only where nothing is pending, and there nothing is latched
    have kept : Noted table s₁ p := by
      refine h.of_sides (turned.sided h.sided) (fun i critical c hc => ?_) fun e he => ?_
      · rw [turned.side] at hc
        exact h.sorted i critical c hc
      · rw [turned.side]
        refine ⟨h.front e he, ?_⟩
        by_cases here : e.2 = index
        · rw [unchanged]
          rw [← here, h.pending]
          exact List.mem_map_of_mem he
        · exact turned.last here
    cases found with
    | none => exact ⟨s₁, p, rfl, kept, turned.same, turned.side⟩
    | some c =>
      obtain ⟨free, head⟩ := front c rfl
      rw [← turned.side] at head
      have own : table c.requestorID = s₁.last index :=
        kept.sorted index _ c (List.mem_of_mem_head? head)
      dsimp only
      split
      · split
        · next critical =>
          refine ⟨_, _, rfl, ?_, turned.same, turned.side⟩
          refine kept.push (e := (c, index)) head free ?_ ?_ fun _ => rfl
          · show (p.cmdFIFO ++ [(c, index)] ++ p.srtFIFO).Perm (p.cmdFIFO ++ p.srtFIFO ++ [(c, index)])
            rw [List.append_assoc, List.append_assoc]
            exact List.perm_append_comm.append_left _
          · intro d hd
            rcases List.mem_append.mp hd with old | new
            · exact kept.hard d old
            · rw [List.mem_singleton.mp new]
              exact critical
        · refine ⟨_, _, rfl, ?_, turned.same, turned.side⟩
          refine kept.push (e := (c, index)) head free ?_ kept.hard fun _ => rfl
          exact List.Perm.of_eq (List.append_assoc ..).symm
      · exact ⟨s₁, p, rfl, kept, turned.same, turned.side⟩

theorem Noted.foldl_latch (h : Noted table s p) (l : List Nat) :
    ∃ s' p', l.foldl (Dcmc.latch table) (s, p) = (s', p') ∧ Noted table s' p' ∧
      s' = { s with commandQueue := s'.commandQueue } ∧
      ∀ i critical, s'.side i critical = s.side i critical := by
  induction l generalizing s p with
  | nil => exact ⟨s, p, rfl, h, rfl, fun _ _ => rfl⟩
  | cons index l ih =>
    obtain ⟨s₁, p₁, turned, noted, same, sides⟩ := h.latch index
    obtain ⟨s₂, p₂, folded, noted', same', sides'⟩ := ih noted
    refine ⟨s₂, p₂, ?_, noted', ?_, fun i critical => (sides' i critical).trans (sides i critical)⟩
    · rw [List.foldl_cons, turned]
      exact folded
    · rw [same', same]

/-- What a call does to the sides and the device: a command that is sent leaves its side, and nothing
else does. -/
structure Removes (spec : DeviceSpec) (table : Nat → Bool) (s s' : CommandScheduler)
    (issued : Option Entry) : Prop where
  sides : ∀ i critical, s.side i critical =
    ofSide table i critical issued.toList ++ s'.side i critical
  device : s'.memoryDevice =
    issued.elim s.memoryDevice fun e => s.memoryDevice.receiveFromBus spec e.1

/-- **Sending a latched command** removes it, and keeps the others latched. -/
theorem Noted.issue (h : Noted table s p) (spec : DeviceSpec) {e : Entry}
    (taken : (latchedEntries p).Perm (e :: latchedEntries p'))
    (hard : ∀ e ∈ p'.cmdFIFO, table e.1.requestorID = true)
    (lowered : ∀ k, p'.queuePending k = if k = e.2 then false else p.queuePending k) :
    Noted table (s.issue spec e.1 e.2) p' ∧ Removes spec table s (s.issue spec e.1 e.2) (some e) := by
  have member : e ∈ latchedEntries p := taken.mem_iff.mpr List.mem_cons_self
  have note := h.noted e member
  obtain ⟨fresh, once⟩ := List.nodup_cons.mp ((taken.map Entry.queue).nodup_iff.mp h.once)
  have other : ∀ d ∈ latchedEntries p', d.2 ≠ e.2 := fun d hd same =>
    fresh (List.mem_map.mpr ⟨d, hd, same⟩)
  have older : ∀ d ∈ latchedEntries p', d ∈ latchedEntries p := fun d hd =>
    taken.mem_iff.mpr (List.mem_cons_of_mem e hd)
  refine ⟨⟨h.sided.issue spec e.1 e.2, fun i critical c hc => ?_, hard, fun d hd => ?_, fun d hd => ?_,
    once, fun k => ?_⟩, fun i critical => ?_, memoryDevice_issue s spec e.1 e.2⟩
  · rw [h.sided.side_issue] at hc
    split at hc
    · exact h.sorted i critical c (List.mem_of_mem_tail hc)
    · exact h.sorted i critical c hc
  · rw [h.sided.side_issue, if_neg fun same => other d hd same.1]
    exact h.front d (older d hd)
  · rw [h.sided.last_issue]
    exact h.noted d (older d hd)
  · rw [lowered]
    by_cases same : k = e.2
    · simpa [same, Entry.queue] using fresh
    · rw [if_neg same, h.pending, (taken.map Entry.queue).mem_iff]
      simp [same, Entry.queue]
  · rw [h.sided.side_issue, Option.toList_some, ofSide_singleton, note]
    split
    · next here =>
      obtain ⟨rfl, rfl⟩ := here
      obtain ⟨rest, cons⟩ := List.head?_eq_some_iff.mp (h.front e member)
      rw [cons]
      rfl
    · rfl

/-- **A call of DCmc** removes what it sends. -/
theorem Noted.schedule (h : Noted table s p) {spec : DeviceSpec} {check : Answers}
    {record : FifoRecord} (scheduled : Dcmc.schedule spec table check s p = some (s', p', record)) :
    Noted table s' p' ∧ Removes spec table s s' record.issued := by
  obtain ⟨s₁, p₁, folded, noted, same, sides⟩ := h.foldl_latch (List.range s.queueCount)
  have device : s₁.memoryDevice = s.memoryDevice := by rw [same]
  have cleared : Noted table { s₁ with scheduledCommand := none } p₁ :=
    noted.of_sides noted.sided noted.sorted fun e he => ⟨noted.front e he, rfl⟩
  have sent : ∀ {t : CommandScheduler} {q : FifoState} {issued : Option Entry},
      send spec check s₁ p₁ = (t, q, issued) →
      Noted table t q ∧ Removes spec table { s₁ with scheduledCommand := none } t issued := by
    intro t q issued sends
    unfold send at sends
    dsimp only at sends
    split at sends
    · split at sends
      · next i e found =>
        obtain ⟨rfl, rfl, rfl⟩ : _ ∧ _ ∧ _ := by simpa using sends
        obtain ⟨before, after, stops⟩ := Lib.Scan.firstFree_split found
        refine cleared.issue spec ?_ noted.hard fun _ => rfl
        exact (stops.perm.append_left p₁.cmdFIFO).trans List.perm_middle
      · obtain ⟨rfl, rfl, rfl⟩ : _ ∧ _ ∧ _ := by simpa using sends
        exact ⟨cleared, fun _ _ => rfl, rfl⟩
    · split at sends
      · next i e found =>
        obtain ⟨rfl, rfl, rfl⟩ : _ ∧ _ ∧ _ := by simpa using sends
        obtain ⟨before, after, stops⟩ := Lib.Scan.firstFree_split found
        refine cleared.issue spec (stops.perm.append_right p₁.srtFIFO) ?_ fun _ => rfl
        exact fun d hd => noted.hard d (List.mem_of_mem_eraseIdx hd)
      · obtain ⟨rfl, rfl, rfl⟩ : _ ∧ _ ∧ _ := by simpa using sends
        exact ⟨cleared, fun _ _ => rfl, rfl⟩
  cases sends : send spec check s₁ p₁ with
  | mk t rest =>
    simp only [Dcmc.schedule, folded, sends, Option.some.injEq, Prod.mk.injEq] at scheduled
    obtain ⟨rfl, rfl, rfl⟩ := scheduled
    obtain ⟨noted', removes⟩ := sent sends
    refine ⟨noted', fun i critical => ?_, ?_⟩
    · rw [← sides]
      exact removes.sides i critical
    · rw [removes.device]
      dsimp only
      rw [device]

/-! ## Runs -/

/-- A tick that ends a refresh interval finds no queue with a command latched from its other side and
a command waiting on its critical side. -/
def Undisturbed (st : CommandScheduler × FifoState) : SchedulerCall → Prop
  | .tick => st.1.refreshMachine.countdown = 0 → ∀ e ∈ st.2.srtFIFO, st.1.side e.2 true = []
  | _ => True

instance (st : CommandScheduler × FifoState) : (call : SchedulerCall) → Decidable (Undisturbed st call)
  | .tick => inferInstanceAs (Decidable (_ → ∀ e ∈ st.2.srtFIFO, st.1.side e.2 true = []))
  | .insertCommand _ _ | .refresh _ | .commandSchedule _ => inferInstanceAs (Decidable True)

/-- The calls that the base class answers keep what is latched. -/
theorem Noted.base (h : Noted table s p) {spec : DeviceSpec} {call : SchedulerCall}
    (undisturbed : Undisturbed (s, p) call) (base : BaseStep spec table s call s') :
    Noted table s' p := by
  cases base with
  | @insertCommand index command bound =>
    refine h.of_sides (h.sided.insertCommand index command _) (fun i critical c hc => ?_)
      fun e he => ⟨?_, last_insertCommand s index command _ e.2⟩
    · rw [h.sided.side_insertCommand] at hc
      rcases List.mem_append.mp hc with old | new
      · exact h.sorted i critical c old
      · split at new
        · next here =>
          obtain rfl := List.mem_singleton.mp new
          exact here.2.symm
        · cases new
    · rw [h.sided.side_insertCommand, List.head?_append, h.front e he]
      rfl
  | refresh check =>
    have same := (commandQueue_refresh s spec check).1
    refine h.of_sides (fun i => ?_) (fun i critical c hc => ?_) fun e he => ⟨?_, ?_⟩
    · rw [same]
      exact h.sided i
    · unfold side at hc
      rw [same] at hc
      exact h.sorted i critical c hc
    · unfold side
      rw [same]
      exact h.front e he
    · unfold last
      rw [same]
  | tick =>
    refine h.of_sides h.sided.tick (fun i critical c hc => ?_) fun e he => ⟨?_, ?_⟩
    · rw [side_tick] at hc
      exact h.sorted i critical c hc
    · rw [side_tick]
      exact h.front e he
    · obtain ⟨note, queue, kept | ⟨ends, waits, rfl⟩⟩ := s.queue_tick e.2
      · unfold last at *
        rw [queue, kept]
      · -- a critical command's note stays; no other command is latched where a critical one waits
        have critical : table e.1.requestorID = true := by
          rcases List.mem_append.mp he with hard | soft
          · exact h.hard e hard
          · exact absurd (undisturbed ends e soft) waits
        have before := h.noted e he
        rw [critical] at before
        rw [before]
        unfold last
        rw [queue]

/-- What was inserted into each side of each queue is what was sent from it and what still waits, in
this order. -/
def Conserves (table : Nat → Bool) (calls : List SchedulerCall) (s : CommandScheduler)
    (told : List (Option FifoRecord)) : Prop :=
  ∀ i critical, ofSide table i critical (insertedOf calls) =
    ofSide table i critical (issuedOf told) ++ s.side i critical

theorem Conserves.base {calls : List SchedulerCall} {told : List (Option FifoRecord)}
    (h : Conserves table calls s told) (noted : Noted table s p) {spec : DeviceSpec}
    {call : SchedulerCall} (base : BaseStep spec table s call s') :
    Conserves table (calls ++ [call]) s' (told ++ [none]) := by
  intro i critical
  have before := h i critical
  have silent : issuedOf (told ++ [none]) = issuedOf told := by simp [issuedOf]
  rw [silent]
  cases base with
  | @insertCommand index command bound =>
    have joined : insertedOf (calls ++ [.insertCommand index command]) =
        insertedOf calls ++ [(command, index)] := by simp [insertedOf, SchedulerCall.inserted]
    rw [joined, ofSide_append, ofSide_singleton, noted.sided.side_insertCommand, before,
      List.append_assoc]
  | refresh check =>
    have same : insertedOf (calls ++ [.refresh check]) = insertedOf calls := by
      simp [insertedOf, SchedulerCall.inserted]
    unfold side at *
    rw [same, before, (commandQueue_refresh s spec check).1]
  | tick =>
    have same : insertedOf (calls ++ [.tick]) = insertedOf calls := by
      simp [insertedOf, SchedulerCall.inserted]
    rw [same, before, side_tick]

theorem Conserves.schedule {calls : List SchedulerCall} {told : List (Option FifoRecord)}
    {spec : DeviceSpec} {check : Answers} {record : FifoRecord} (h : Conserves table calls s told)
    (removes : Removes spec table s s' record.issued) :
    Conserves table (calls ++ [.commandSchedule check]) s' (told ++ [some record]) := by
  intro i critical
  have same : insertedOf (calls ++ [.commandSchedule check]) = insertedOf calls := by
    simp [insertedOf, SchedulerCall.inserted]
  rw [same, issuedOf_append, ofSide_append, h i critical, removes.sides i critical, List.append_assoc]

/-- **What DCmc sends is what it removes.** With one command queue for each bank, any criticality of
the requestors and any refresh machine, in every run of insertions, refreshes, scheduling calls and
ticks in which no refresh interval ends while a queue has a command latched from its other side and
one waiting on its critical side: nothing inserted was dropped unsent and nothing sent is still
queued, and the next call removes exactly the command it sends to the device. -/
theorem dcmc_removal (spec : DeviceSpec) (table : Nat → Bool) (queueCount : Nat) (m : RefreshMachine)
    {calls : List SchedulerCall} {s : CommandScheduler} {p : FifoState}
    {told : List (Option FifoRecord)}
    (undisturbed : Lib.Machine.Along ((schedule spec table).step spec table)
      (fun st call _ _ => Undisturbed st call) (create queueCount false m, {}) calls)
    (ran : Lib.Machine.run ((schedule spec table).step spec table) (create queueCount false m, {})
      calls = some ((s, p), told)) :
    Conserves table calls s told ∧
      ∀ {check s' p' record}, schedule spec table check s p = some (s', p', record) →
        Removes spec table s s' record.issued := by
  have start : Noted table (create queueCount false m) {} ∧
      Conserves table [] (create queueCount false m) [] := by
    refine ⟨noted_create table queueCount m, fun i critical => ?_⟩
    rw [side_create]
    rfl
  have history : Noted table s p ∧ Conserves table calls s told := by
    refine Lib.Machine.run_history_along (fun calls st told => Noted table st.1 st.2 ∧
      Conserves table calls st.1 told) ?_ start undisturbed ran
    rintro calls ⟨s, p⟩ told call st' o ⟨noted, conserves⟩ stepped quiet
    rcases Scheduling.step_cases stepped with
      ⟨s', base, rfl, rfl⟩ | ⟨check, s', p', record, rfl, scheduled, rfl, rfl⟩
    · exact ⟨noted.base quiet base, conserves.base noted base⟩
    · obtain ⟨noted', removes⟩ := noted.schedule scheduled
      exact ⟨noted', conserves.schedule removes⟩
  exact ⟨history.2, fun scheduled => (history.1.schedule scheduled).2⟩

/-- Requestor 0 is critical and requestor 1 is not. -/
def firstCritical : Nat → Bool := fun id => id = 0

/-- The ticks of the first refresh interval but the last. -/
def almostInterval : List SchedulerCall := List.replicate 779 .tick

/-- A read of requestor 1 is latched, the interval ends, and then a read of requestor 0 joins the same
queue. The device refuses at first. -/
def intervalBetween : List SchedulerCall :=
  almostInterval ++ [.insert 1 .RD 1 1, .commandSchedule fun _ => false, .tick, .insert 1 .RD 0 1,
    .commandSchedule fun _ => true]

/-- The same with the interval ending after the read of requestor 0 joined. -/
def intervalAfter : List SchedulerCall :=
  almostInterval ++ [.insert 1 .RD 1 1, .commandSchedule fun _ => false, .insert 1 .RD 0 1, .tick,
    .commandSchedule fun _ => true]

/-- A scheduler on two queues at the start of a run with per-bank refresh. -/
def refreshedStart : CommandScheduler × FifoState :=
  (create 2 false (.create .perBank openPageSetup.device 0 0), {})

/-- The law at a run whose interval ends while a command that is not critical is latched. -/
theorem dcmc_removal_intervalBetween :
    ∃ s p told, Lib.Machine.run ((schedule openPageSetup.device firstCritical).step
        openPageSetup.device firstCritical) refreshedStart intervalBetween = some ((s, p), told) ∧
      issuedOf told = [(sampleCommand .RD 1 1, 1)] ∧
      Conserves firstCritical intervalBetween s told := by
  obtain ⟨⟨s, p⟩, told, ran, sent⟩ := Lib.Machine.run_exists_told
    ((schedule openPageSetup.device firstCritical).step openPageSetup.device firstCritical)
    (fun _ told => issuedOf told = [(sampleCommand .RD 1 1, 1)]) refreshedStart intervalBetween
    (by decide +kernel)
  refine ⟨s, p, told, ran, sent, (dcmc_removal _ _ 2 _ ?_ ran).1⟩
  exact Lib.Machine.along_of_check _ (fun st call _ => decide (Undisturbed st call))
    (fun st call _ => Undisturbed st call) _ _ (fun _ _ _ => of_decide_eq_true) (by decide +kernel)

/-- Where the interval ends after the critical read joined, the read of requestor 1 is sent and stays
queued, and the read of requestor 0 is gone unsent. -/
theorem dcmc_removal_intervalAfter :
    ∃ s p told, Lib.Machine.run ((schedule openPageSetup.device firstCritical).step
        openPageSetup.device firstCritical) refreshedStart intervalAfter = some ((s, p), told) ∧
      issuedOf told = [(sampleCommand .RD 1 1, 1)] ∧
      s.side 1 false = [sampleCommand .RD 1 1] ∧ s.side 1 true = [] ∧
      ¬ Conserves firstCritical intervalAfter s told := by
  obtain ⟨⟨s, p⟩, told, ran, sent, soft, hard⟩ := Lib.Machine.run_exists_told
    ((schedule openPageSetup.device firstCritical).step openPageSetup.device firstCritical)
    (fun st told => issuedOf told = [(sampleCommand .RD 1 1, 1)] ∧
      st.1.side 1 false = [sampleCommand .RD 1 1] ∧ st.1.side 1 true = []) refreshedStart intervalAfter
    (by decide +kernel)
  refine ⟨s, p, told, ran, sent, soft, hard, fun conserves => ?_⟩
  have lost := conserves 1 true
  rw [sent, hard] at lost
  revert lost
  decide +kernel

end Dcmc
end MCsim
