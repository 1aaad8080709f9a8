import MCsim.Laws.Latch
import MCsim.Schedulers.Fifo
import MCsim.Setups

/-!
# FIFO arbitration

ORP and DCmc differ in which fronts they latch and in whose pending flag they raise; `key` is that
difference. What both do in a call is `FifoCall`: fronts that are ready and whose key is not pending
join `cmdFIFO`, and then the scan with CAS blocking sends one entry or none.

`FifoHistory` is what runs keep: what was latched and sent, and what was inserted and sent, agree with
what the FIFO and the buffers hold. `FifoLaw` is what follows.
-/

namespace MCsim

open CommandScheduler

/-! ## A call -/

/-- What latched commands ORP and DCmc hold: those of `cmdFIFO`, and none in `srtFIFO`. -/
structure FifoState.Latched (key : Entry → Nat) (s : CommandScheduler) (p : FifoState) : Prop where
  fifo : MCsim.Latched key s p.cmdFIFO p.queuePending
  srt : p.srtFIFO = []

variable {key : Entry → Nat} {s s' : CommandScheduler} {p p' p₁ : FifoState}

/-- Latching: the invariant holds after it, and what stood in `cmdFIFO` stands there before what
joined. -/
structure Latches (key : Entry → Nat) (s : CommandScheduler) (p p₁ : FifoState) : Prop where
  latched : p₁.Latched key s
  extends_ : p.cmdFIFO <+: p₁.cmdFIFO

theorem Latches.refl (latched : p.Latched key s) : Latches key s p p :=
  ⟨latched, List.prefix_refl _⟩

theorem Latches.push (latches : Latches key s p p₁) {e : Entry}
    (head : (s.bufferOf e.2 e.1.requestorID).head? = some e.1) (ready : s.isReady e.1 e.2 = true)
    (free : p₁.queuePending (key e) = false) : Latches key s p (p₁.push e (key e)) :=
  ⟨⟨latches.latched.fifo.push head ready free fun _ => rfl, latches.latched.srt⟩,
    latches.extends_.trans (List.prefix_append p₁.cmdFIFO [e])⟩

/-- The second half of a call, on the entries latched. -/
inductive FifoSends (key : Entry → Nat) (spec : DeviceSpec) (check : Answers)
    (s : CommandScheduler) (p₁ : FifoState) : CommandScheduler → FifoState → Option Entry → Prop
  | idle (nothing : casScan s check p₁.cmdFIFO = none) :
      FifoSends key spec check s p₁ { s with scheduledCommand := none } p₁ none
  | send {i : Nat} {e : Entry} (found : casScan s check p₁.cmdFIFO = some (i, e)) :
      FifoSends key spec check s p₁ (s.issue spec e.1 e.2)
        ({ p₁ with cmdFIFO := p₁.cmdFIFO.eraseIdx i }.setPending (key e) false) (some e)

/-- A call of `commandSchedule`: latching, then sending. -/
def FifoCall (key : Entry → Nat) (spec : DeviceSpec) (check : Answers) (s : CommandScheduler)
    (p : FifoState) (s' : CommandScheduler) (p' : FifoState) (record : FifoRecord) : Prop :=
  ∃ p₁ : FifoState, p₁.Latched key s ∧ p₁.cmdFIFO = p.cmdFIFO ++ record.entered ∧
    FifoSends key spec check s p₁ s' p' record.issued

/-- A scheduler that arbitrates by FIFO, on queues of a kind. -/
def Arbitrates (perRequestor : Bool) (key : Entry → Nat) (spec : DeviceSpec)
    (schedule : Scheduling FifoState FifoRecord) : Prop :=
  ∀ ⦃check s p s' p' record⦄, s.Shaped perRequestor → p.Latched key s →
    schedule check s p = some (s', p', record) → FifoCall key spec check s p s' p' record

theorem Latches.call {spec : DeviceSpec} {check : Answers} (latches : Latches key s p p₁)
    {issued : Option Entry} (sends : FifoSends key spec check s p₁ s' p' issued) :
    FifoCall key spec check s p s' p'
      { entered := p₁.cmdFIFO.drop p.cmdFIFO.length, issued := issued } :=
  ⟨p₁, latches.latched, (List.prefix_iff_eq_append.mp latches.extends_).symm, sends⟩

/-- Sending keeps the invariant, and the queues' shape. -/
theorem FifoSends.latched {perRequestor : Bool} {spec : DeviceSpec} {check : Answers}
    {issued : Option Entry} (separates : Separates perRequestor key)
    (shaped : s.Shaped perRequestor) (latched : p.Latched key s)
    (sends : FifoSends key spec check s p s' p' issued) :
    s'.Shaped perRequestor ∧ p'.Latched key s' := by
  cases sends with
  | idle => exact ⟨shaped, latched.fifo.of_entries fun _ _ head ready => ⟨head, ready⟩, latched.srt⟩
  | @send i e found =>
    obtain ⟨before, after, stops⟩ := Lib.Scan.firstFree_split found
    refine ⟨(shaped.issue spec e).1, ?_, latched.srt⟩
    have all := latched.fifo
    rw [stops.split] at all
    have rest : Latched key (s.issue spec e.1 e.2) (before ++ after)
        (fun k => if k = key e then false else p.queuePending k) :=
      all.issue separates shaped spec fun _ => rfl
    rw [← stops.eraseIdx] at rest
    exact rest

/-! ## ORP -/

namespace Orp

theorem latchRequestor_latches {index : Nat} {c : BusPacket} (latches : Latches Entry.requestor s p p₁)
    (front : (s.bufferOf index c.requestorID).head? = some c) :
    Latches Entry.requestor s p (latchRequestor s index p₁ c) := by
  unfold latchRequestor
  split
  · next can =>
    obtain ⟨free, ready⟩ := Bool.and_eq_true_iff.mp can
    exact latches.push (e := (c, index)) front ready (of_decide_eq_true free)
  · exact latches

/-- The fronts of a per-requestor queue are the heads of its buffers. -/
theorem head_of_requestorFronts (shaped : s.Shaped true) {index : Nat} {c : BusPacket}
    (h : c ∈ (s.commandQueue index).requestorFronts) :
    (s.bufferOf index c.requestorID).head? = some c := by
  obtain ⟨id, _, front⟩ := List.mem_filterMap.mp h
  have own := (shaped index).owned id c (List.mem_of_mem_head? front)
  simpa [bufferOf, CommandQueue.lane, CommandQueue.isPerRequestor, (shaped index).kind, own]
    using front

theorem foldl_latch (shaped : s.Shaped true) (latched : p.Latched Entry.requestor s) (l : List Nat) :
    ∃ p₁, l.foldl latch (s, p) = (s, p₁) ∧ Latches Entry.requestor s p p₁ := by
  refine List.foldlRecOn (motive := fun st => ∃ p₁, st = (s, p₁) ∧ Latches Entry.requestor s p p₁) l latch
    ⟨p, rfl, .refl latched⟩ ?_
  rintro _ ⟨p₁, rfl, latches⟩ index _
  refine ⟨_, if_pos (shaped index).kind, ?_⟩
  exact List.foldlRecOn _ _ latches fun _ latches c hc =>
    latchRequestor_latches latches (head_of_requestorFronts shaped hc)

theorem send_sends (spec : DeviceSpec) (check : Answers) (shaped : s.Shaped true)
    (latched : p.Latched Entry.requestor s) :
    ∃ s' p' issued, send spec check s p = (s', p', issued) ∧
      FifoSends Entry.requestor spec check s p s' p' issued := by
  have scan : casScan { s with scheduledCommand := none } check p.cmdFIFO =
      casScan s check p.cmdFIFO := rfl
  unfold send
  dsimp only
  rw [scan]
  cases found : casScan s check p.cmdFIFO with
  | none =>
    refine ⟨_, p, none, ?_, .idle found⟩
    simp [latched.srt, Lib.Scan.firstFree, Lib.Scan.freeFrom]
  | some r =>
    have kind : pendingKey { s with scheduledCommand := none } r.2 = Entry.requestor r.2 :=
      if_pos (shaped r.2.2).kind
    refine ⟨_, _, _, rfl, ?_⟩
    rw [kind]
    exact .send found

theorem schedule_arbitrates (spec : DeviceSpec) : Arbitrates true Entry.requestor spec (schedule spec) := by
  intro check s p s' p' record shaped latched h
  obtain ⟨p₁, folded, latches⟩ := foldl_latch shaped latched (List.range s.queueCount)
  obtain ⟨t, q, issued, sent, sends⟩ :=
    send_sends spec check shaped latches.latched
  simp only [schedule, folded, sent, Option.some.injEq, Prod.mk.injEq] at h
  obtain ⟨rfl, rfl, rfl⟩ := h
  exact latches.call sends

end Orp

/-! ## DCmc -/

namespace Dcmc

variable {requestorCriticalTable : Nat → Bool}

theorem latch_latches (critical : ∀ id, requestorCriticalTable id = true) (shaped : s.Shaped false)
    (latches : Latches Entry.queue s p p₁) (index : Nat) :
    ∃ p₂, latch requestorCriticalTable (s, p₁) index = (s, p₂) ∧ Latches Entry.queue s p p₂ := by
  unfold latch
  dsimp only
  rw [shaped.freeFront]
  cases front : if p₁.queuePending index then none else (s.waiting index).head? with
  | none => exact ⟨p₁, rfl, latches⟩
  | some c =>
    obtain ⟨free, head⟩ := shaped.head_of_freeFront front
    dsimp only
    rw [critical c.requestorID]
    cases ready : s.isReady c index with
    | false => exact ⟨p₁, rfl, latches⟩
    | true => exact ⟨_, rfl, latches.push (e := (c, index)) head ready free⟩

theorem foldl_latch (critical : ∀ id, requestorCriticalTable id = true) (shaped : s.Shaped false)
    (latched : p.Latched Entry.queue s) (l : List Nat) :
    ∃ p₁, l.foldl (latch requestorCriticalTable) (s, p) = (s, p₁) ∧ Latches Entry.queue s p p₁ := by
  refine List.foldlRecOn (motive := fun st => ∃ p₁, st = (s, p₁) ∧ Latches Entry.queue s p p₁) l _
    ⟨p, rfl, .refl latched⟩ ?_
  rintro _ ⟨p₁, rfl, latches⟩ index _
  exact latch_latches critical shaped latches index

theorem send_sends (spec : DeviceSpec) (check : Answers) (latched : p.Latched Entry.queue s) :
    ∃ s' p' issued, send spec check s p = (s', p', issued) ∧
      FifoSends Entry.queue spec check s p s' p' issued := by
  have scan : casScan { s with scheduledCommand := none } check p.cmdFIFO =
      casScan s check p.cmdFIFO := rfl
  unfold send
  dsimp only
  rw [scan]
  cases found : casScan s check p.cmdFIFO with
  | none =>
    refine ⟨_, p, none, ?_, .idle found⟩
    simp [latched.srt, Lib.Scan.firstFree, Lib.Scan.freeFrom]
  | some r =>
    have some_entry : p.cmdFIFO.isEmpty = false := by
      cases h : p.cmdFIFO with
      | nil => simp [casScan, h, Lib.Scan.firstFree, Lib.Scan.freeFrom] at found
      | cons => rfl
    rw [some_entry]
    exact ⟨_, _, _, rfl, .send found⟩

theorem schedule_arbitrates (spec : DeviceSpec)
    (critical : ∀ id, requestorCriticalTable id = true) :
    Arbitrates false Entry.queue spec (schedule spec requestorCriticalTable) := by
  intro check s p s' p' record shaped latched h
  obtain ⟨p₁, folded, latches⟩ := foldl_latch critical shaped latched (List.range s.queueCount)
  obtain ⟨t, q, issued, sent, sends⟩ := send_sends spec check latches.latched
  simp only [schedule, folded, sent, Option.some.injEq, Prod.mk.injEq] at h
  obtain ⟨rfl, rfl, rfl⟩ := h
  exact latches.call sends

end Dcmc

/-! ## Runs -/

/-- What a run inserted, latched and sent, in order. -/
def insertedOf (calls : List SchedulerCall) : List Entry := calls.filterMap SchedulerCall.inserted

theorem insertedOf_append (calls : List SchedulerCall) (call : SchedulerCall) :
    insertedOf (calls ++ [call]) = insertedOf calls ++ call.inserted.toList := by
  unfold insertedOf
  cases inserted : call.inserted <;> simp [inserted]

def enteredOf (told : List (Option FifoRecord)) : List Entry :=
  (told.filterMap id).flatMap (·.entered)

def issuedOf (told : List (Option FifoRecord)) : List Entry :=
  told.filterMap fun o => o.bind (·.issued)

/-- The entry is a column access. -/
def Entry.isCas (e : Entry) : Bool := e.1.busPacketType.isCas

/-- The history of a run: column accesses were sent in the order they were latched, and each buffer's
commands in the order they were inserted. -/
structure FifoHistory (perRequestor : Bool) (key : Entry → Nat) (calls : List SchedulerCall)
    (st : CommandScheduler × FifoState) (told : List (Option FifoRecord)) : Prop where
  shaped : st.1.Shaped perRequestor
  latched : st.2.Latched key st.1
  blocking : (enteredOf told).filter Entry.blocks =
    (issuedOf told).filter Entry.blocks ++ st.2.cmdFIFO.filter Entry.blocks
  buffered : ∀ index id, (insertedOf calls).filter (Entry.inBuffer perRequestor index id) =
    (issuedOf told).filter (Entry.inBuffer perRequestor index id) ++
      (st.1.bufferOf index id).map (·, index)

theorem fifoHistory_create (perRequestor : Bool) (key : Entry → Nat) (queueCount : Nat)
    (m : RefreshMachine) :
    FifoHistory perRequestor key [] (create queueCount perRequestor m, {}) [] where
  shaped := shaped_create queueCount perRequestor m
  latched := ⟨.empty key _, rfl⟩
  blocking := rfl
  buffered := Buffered.create queueCount perRequestor m

section

variable {perRequestor : Bool} {calls : List SchedulerCall} {told : List (Option FifoRecord)}
  {spec : DeviceSpec} {check : Answers}

/-- A call that inserts and sends nothing, and leaves the buffers alone. -/
theorem FifoHistory.quiet (history : FifoHistory perRequestor key calls (s, p) told)
    {call : SchedulerCall} (nothing : call.inserted = none) (shaped : s'.Shaped perRequestor)
    (buffers : ∀ index id, s'.bufferOf index id = s.bufferOf index id)
    (fifo : Latched key s' p.cmdFIFO p.queuePending) :
    FifoHistory perRequestor key (calls ++ [call]) (s', p) (told ++ [none]) where
  shaped := shaped
  latched := ⟨fifo, history.latched.srt⟩
  blocking := by simpa [enteredOf, issuedOf] using history.blocking
  buffered := by
    have same := Buffered.congr history.buffered buffers
    simpa [Buffered, insertedOf, issuedOf, nothing] using same

/-- Inserting appends to one buffer; the heads latched stay heads. -/
theorem FifoHistory.insert (history : FifoHistory perRequestor key calls (s, p) told) (e : Entry)
    {critical : Bool} (served : perRequestor = false → critical = true) :
    FifoHistory perRequestor key (calls ++ [.insertCommand e.2 e.1])
      (s.insertCommand e.2 e.1 critical, p) (told ++ [none]) := by
  refine ⟨(history.shaped.insertCommand e served).1,
    ⟨history.latched.fifo.insertCommand history.shaped e served, history.latched.srt⟩, ?_, ?_⟩
  · simpa [enteredOf, issuedOf] using history.blocking
  · have joined := Buffered.insertCommand history.buffered history.shaped e served
    simpa [Buffered, insertedOf_append, SchedulerCall.inserted, issuedOf] using joined

/-- A head that is sent leaves its buffer, and no other. -/
theorem FifoSends.buffered {issued : Option Entry} {inserted sent : List Entry}
    (shaped : s.Shaped perRequestor) (latched : p.Latched key s)
    (buffered : Buffered perRequestor inserted sent s)
    (sends : FifoSends key spec check s p s' p' issued) :
    Buffered perRequestor inserted (sent ++ issued.toList) s' := by
  cases sends with
  | idle =>
    rw [Option.toList_none, List.append_nil]
    exact buffered.congr fun _ _ => rfl
  | @send i e found =>
    obtain ⟨before, after, stops⟩ := Lib.Scan.firstFree_split found
    exact buffered.issue shaped spec (latched.fifo.head e stops.mem)

/-- The entries that block, sent and left, are in the order they had. -/
theorem FifoSends.blocking {issued : Option Entry}
    (sends : FifoSends key spec check s p s' p' issued) :
    p.cmdFIFO.filter Entry.blocks =
      issued.toList.filter Entry.blocks ++ p'.cmdFIFO.filter Entry.blocks := by
  cases sends with
  | idle => rfl
  | send found =>
    obtain ⟨before, after, stops⟩ := Lib.Scan.firstFree_split found
    exact stops.filter_eq

theorem enteredOf_append (told : List (Option FifoRecord)) (record : FifoRecord) :
    enteredOf (told ++ [some record]) = enteredOf told ++ record.entered := by
  simp [enteredOf]

theorem issuedOf_append (told : List (Option FifoRecord)) (record : FifoRecord) :
    issuedOf (told ++ [some record]) = issuedOf told ++ record.issued.toList := by
  cases h : record.issued <;> simp [issuedOf, h]

/-- **A call carries the history on.** -/
theorem FifoHistory.call (separates : Separates perRequestor key)
    (history : FifoHistory perRequestor key calls (s, p) told) {record : FifoRecord}
    (call : FifoCall key spec check s p s' p' record) :
    FifoHistory perRequestor key (calls ++ [.commandSchedule check]) (s', p')
      (told ++ [some record]) := by
  obtain ⟨p₁, latched, joined, sends⟩ := call
  obtain ⟨shaped', latched'⟩ := sends.latched separates history.shaped latched
  refine ⟨shaped', latched', ?_, ?_⟩
  · have order := sends.blocking
    rw [joined, List.filter_append] at order
    rw [enteredOf_append, issuedOf_append, List.filter_append, List.filter_append,
      history.blocking, List.append_assoc, List.append_assoc, order]
  · have sent := sends.buffered history.shaped latched history.buffered
    rw [insertedOf_append, issuedOf_append]
    simpa [Buffered, SchedulerCall.inserted] using sent

/-- Every run has its history. -/
theorem run_fifoHistory {schedule : Scheduling FifoState FifoRecord} {table : Nat → Bool}
    (arbitrates : Arbitrates perRequestor key spec schedule) (separates : Separates perRequestor key)
    (critical : perRequestor = false → ∀ id, table id = true) (queueCount : Nat)
    (m : RefreshMachine) {st : CommandScheduler × FifoState}
    (ran : Lib.Machine.run (schedule.step spec table) (create queueCount perRequestor m, {}) calls =
      some (st, told)) : FifoHistory perRequestor key calls st told := by
  refine Lib.Machine.run_history (FifoHistory perRequestor key) (fun {is st os i st' o} history h => ?_)
    (fifoHistory_create perRequestor key queueCount m) ran
  obtain ⟨s, p⟩ := st
  rcases Scheduling.step_cases h with ⟨s', base, rfl, rfl⟩ | ⟨_, _, _, _, rfl, scheduled, rfl, rfl⟩
  · cases base with
    | @insertCommand index command bound =>
      exact history.insert (command, index) fun general => critical general _
    | refresh check =>
      exact history.quiet rfl (history.shaped.refresh spec check) (bufferOf_refresh s spec check)
        (history.latched.fifo.refresh spec check)
    | tick =>
      exact history.quiet rfl history.shaped.tick history.shaped.bufferOf_tick
        (history.latched.fifo.tick history.shaped)
  · exact history.call separates (arbitrates history.shaped history.latched scheduled)

/-! ## The law -/

/-- FIFO arbitration, of a run that made `calls`, told `told` and ended in `s` and `p`. -/
structure FifoLaw (perRequestor : Bool) (key : Entry → Nat)
    (schedule : Scheduling FifoState FifoRecord) (calls : List SchedulerCall)
    (told : List (Option FifoRecord)) (s : CommandScheduler) (p : FifoState) : Prop where
  /-- `cmdFIFO` holds at most one entry for each key. -/
  once : (p.cmdFIFO.map key).Nodup
  /-- Each entry is the head of its buffer. -/
  head : ∀ e ∈ p.cmdFIFO, (s.bufferOf e.2 e.1.requestorID).head? = some e.1
  /-- The pending flags are those of the entries. -/
  pending : ∀ k, p.queuePending k = true ↔ k ∈ p.cmdFIFO.map key
  /-- Column accesses are sent in the order in which they entered `cmdFIFO`. -/
  casOrder : (enteredOf told).filter Entry.isCas =
    (issuedOf told).filter Entry.isCas ++ p.cmdFIFO.filter Entry.isCas
  /-- A `PRE` or an `ACT` overtakes whatever is refused before it. -/
  overtakes : ∀ {check s' p' record}, schedule check s p = some (s', p', record) →
    ∀ {before after : List Entry} {e : Entry},
      p.cmdFIFO ++ record.entered = before ++ e :: after →
      e.1.busPacketType = .PRE ∨ e.1.busPacketType = .ACT →
      s.isIssuable check e.1 = true → (∀ d ∈ before, s.isIssuable check d.1 = false) →
      record.issued = some e
  /-- What enters `cmdFIFO` is ready, and so is what leaves it. -/
  ready : ∀ {check s' p' record}, schedule check s p = some (s', p', record) →
    (∀ e ∈ record.entered, s.isReady e.1 e.2 = true) ∧
      ∀ e ∈ record.issued, s.isReady e.1 e.2 = true
  /-- Of each buffer, what was inserted is what was sent and what still waits, in this order. -/
  insertionOrder : ∀ index id, (insertedOf calls).filter (Entry.inBuffer perRequestor index id) =
    (issuedOf told).filter (Entry.inBuffer perRequestor index id) ++
      (s.bufferOf index id).map (·, index)

theorem filter_isCas_blocks (l : List Entry) :
    (l.filter Entry.blocks).filter Entry.isCas = l.filter Entry.isCas := by
  rw [List.filter_filter]
  apply List.filter_congr
  intro e _
  cases h : e.isCas with
  | false => rfl
  | true => simp [Entry.blocks, BusPacketType.beforeACT_of_isCas h]

theorem FifoHistory.law {schedule : Scheduling FifoState FifoRecord}
    (arbitrates : Arbitrates perRequestor key spec schedule)
    (history : FifoHistory perRequestor key calls (s, p) told) :
    FifoLaw perRequestor key schedule calls told s p where
  once := history.latched.fifo.once
  head := history.latched.fifo.head
  pending := history.latched.fifo.pending
  casOrder := by
    have order := congrArg (List.filter Entry.isCas) history.blocking
    simpa only [List.filter_append, filter_isCas_blocks] using order
  overtakes h before after e split kind can refused := by
    obtain ⟨p₁, _, joined, sends⟩ := arbitrates history.shaped history.latched h
    have other : e.blocks = false := by
      rcases kind with kind | kind <;> simp [Entry.blocks, kind] <;> rfl
    have found := Lib.Scan.firstFree_overtakes Entry.blocks
      (fun e : Entry => s.isIssuable _ e.1) after can other refused
    rw [← split, ← joined] at found
    generalize hi : FifoRecord.issued _ = issued at sends ⊢
    cases sends with
    | idle nothing => simp [casScan, found] at nothing
    | send scan =>
      obtain ⟨_, rfl⟩ : _ ∧ _ := by simpa [casScan, found] using scan
      rfl
  ready h := by
    obtain ⟨p₁, latched, joined, sends⟩ := arbitrates history.shaped history.latched h
    refine ⟨fun e he => latched.fifo.ready e (by simp [joined, he]), fun e he => ?_⟩
    generalize hi : FifoRecord.issued _ = issued at sends he
    cases sends with
    | idle => cases he
    | send scan =>
      obtain rfl : _ = e := by simpa using he
      obtain ⟨before, after, stops⟩ := Lib.Scan.firstFree_split scan
      exact latched.fifo.ready _ stops.mem
  insertionOrder := history.buffered

end

/-- **FIFO arbitration of ORP and DCmc**: in every run of insertions, refreshes, scheduling calls and
ticks, with any answers of the device, ORP on per-requestor queues and DCmc on general queues obey
the law, with one entry for each requestor and for each queue. -/
theorem fifo_arbitration (spec : DeviceSpec) {requestorCriticalTable : Nat → Bool}
    (critical : ∀ id, requestorCriticalTable id = true) (queueCount : Nat) (m : RefreshMachine)
    (calls : List SchedulerCall) {s : CommandScheduler} {p : FifoState} {told : List (Option FifoRecord)} :
    (Lib.Machine.run ((Orp.schedule spec).step spec requestorCriticalTable)
        (create queueCount true m, {}) calls = some ((s, p), told) →
      FifoLaw true Entry.requestor (Orp.schedule spec) calls told s p) ∧
    (Lib.Machine.run ((Dcmc.schedule spec requestorCriticalTable).step spec requestorCriticalTable)
        (create queueCount false m, {}) calls = some ((s, p), told) →
      FifoLaw false Entry.queue (Dcmc.schedule spec requestorCriticalTable) calls told s p) := by
  constructor
  · intro ran
    have arbitrates := Orp.schedule_arbitrates spec
    exact (run_fifoHistory arbitrates Entry.requestor_separates (fun _ => critical) queueCount m ran).law
      arbitrates
  · intro ran
    have arbitrates := Dcmc.schedule_arbitrates spec critical
    exact (run_fifoHistory arbitrates (Entry.queue_separates false) (fun _ => critical) queueCount m ran).law
      arbitrates

/-- Two reads and a precharge, of which the device refuses the reads in the first call. -/
def overtakingCalls (index : Nat → Nat) : List SchedulerCall :=
  [.insert (index 0) .RD 0 0, .insert (index 1) .RD 1 1, .insert (index 2) .PRE 2 2,
    .commandSchedule fun c => c.busPacketType = .PRE, .tick,
    .commandSchedule fun c => c.requestorID = 1, .tick,
    .commandSchedule fun _ => true, .tick, .commandSchedule fun _ => true]

/-- The law at a run of each scheduler in which the precharge overtakes, and the second read waits
for the first. -/
theorem fifo_arbitration_overtaking :
    (∃ st told, Lib.Machine.run
        ((Orp.schedule openPageSetup.device).step openPageSetup.device fun _ => true)
        (create 1 true (.create .none openPageSetup.device 0 0), {}) (overtakingCalls fun _ => 0) =
          some (st, told) ∧
      FifoLaw true Entry.requestor (Orp.schedule openPageSetup.device) (overtakingCalls fun _ => 0)
        told st.1 st.2 ∧
      st.1.memoryDevice.commandTrace.map (·.requestorID) = [2, 0, 1]) ∧
    ∃ st told, Lib.Machine.run
        ((Dcmc.schedule openPageSetup.device fun _ => true).step openPageSetup.device
          fun _ => true)
        (create 3 false (.create .none openPageSetup.device 0 0), {}) (overtakingCalls id) =
          some (st, told) ∧
      FifoLaw false Entry.queue (Dcmc.schedule openPageSetup.device fun _ => true)
        (overtakingCalls id) told st.1 st.2 ∧
      st.1.memoryDevice.commandTrace.map (·.requestorID) = [2, 0, 1] := by
  constructor
  · obtain ⟨st, told, ran, trace⟩ := Lib.Machine.run_exists
      ((Orp.schedule openPageSetup.device).step openPageSetup.device fun _ => true)
      (fun st => st.1.memoryDevice.commandTrace.map (·.requestorID) = [2, 0, 1])
      (create 1 true (.create .none openPageSetup.device 0 0), {})
      (overtakingCalls fun _ => 0) (by decide +kernel)
    exact ⟨st, told, ran, (fifo_arbitration _ (fun _ => rfl) 1 _ _).1 ran, trace⟩
  · obtain ⟨st, told, ran, trace⟩ := Lib.Machine.run_exists
      ((Dcmc.schedule openPageSetup.device fun _ => true).step openPageSetup.device
        fun _ => true)
      (fun st => st.1.memoryDevice.commandTrace.map (·.requestorID) = [2, 0, 1])
      (create 3 false (.create .none openPageSetup.device 0 0), {})
      (overtakingCalls id) (by decide +kernel)
    exact ⟨st, told, ran, (fifo_arbitration _ (fun _ => rfl) 3 _ _).2 ran, trace⟩

end MCsim
