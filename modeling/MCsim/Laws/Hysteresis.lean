import MCsim.Laws.Batching
import MCsim.Laws.RequestScheduler

/-!
# Write batching between the watermarks

`sw` and the write mode of the queue are two flags of two classes, and they are always set together:
past the high watermark both are on, and below the low watermark a call that finds them on turns both
off. In between they stay as they are, which is the hysteresis. The rest of a call, reads and an idle
write, touches neither the flags nor the watermarks (`Framed`); with a generator that accepts, it is
defined whatever is queued (`readOrIdle_total`).
-/

namespace MCsim
namespace Batching

open RequestScheduler

variable {next : CommandGenerator → Request → Bool → CommandGenerator}
  {s s' t : RequestScheduler} {waiting : List Request}

/-- The watermarks of the write queue. -/
def marks (s : RequestScheduler) : Option (Nat × Nat) :=
  (s.requestQueue 0).writeQueue.map fun w => (w.lowwatermark, w.highwatermark)

/-- The write mode and the watermarks are as they were. -/
def Framed (s s' : RequestScheduler) : Prop :=
  (s'.requestQueue 0).writeMode = (s.requestQueue 0).writeMode ∧ marks s' = marks s

theorem Framed.refl (s : RequestScheduler) : Framed s s := ⟨rfl, rfl⟩

theorem Framed.trans (first : Framed s s') (later : Framed s' t) : Framed s t :=
  ⟨later.1.trans first.1, later.2.trans first.2⟩

/-- The writes that wait. -/
def waitingWrites (s : RequestScheduler) : List Request :=
  ((s.requestQueue 0).writeQueue.map (·.writeQueue)).getD []

theorem Batched.waitingWrites_eq (h : Batched s waiting) : waitingWrites s = waiting := by
  obtain ⟨w, found, rfl⟩ := h.queue
  simp [waitingWrites, found]

/-! ## What a call does besides the flags -/

variable (next) in
/-- A write queue with something in it hands over its front. -/
theorem serveWrite_front {r : Request} {rest : List Request} (h : Batched s (r :: rest)) :
    ∃ s', serveWrite (accepting next) s 0 = some (s', some r) ∧ Framed s s' := by
  obtain ⟨w, found, writes⟩ := h.queue
  have front : w.getWrite 0 = some r := by simp [WriteQueue.getWrite, writes]
  have popped : w.popWrite 0 = some { w with writeQueue := rest } := by
    simp [WriteQueue.popWrite, writes]
  simp only [serveWrite, found, front, popped, isSchedulable, accepting, Option.bind_some,
    Option.map_some, if_true]
  refine ⟨_, rfl, rfl, ?_⟩
  simp [marks, setQueue, found]

variable (next) in
theorem idleWrite_total (h : Batched s waiting) :
    ∃ s' writes, idleWrite (accepting next) s = some (s', writes) ∧ Framed s s' := by
  obtain ⟨w, found, writes⟩ := h.queue
  simp only [idleWrite, found, Option.bind_some, WriteQueue.bufferSize, writes]
  cases waiting with
  | nil => exact ⟨s, [], rfl, Framed.refl s⟩
  | cons r rest =>
    obtain ⟨s', served, framed⟩ := serveWrite_front next h
    refine ⟨s', [r], ?_, framed⟩
    simp [served]

variable (next) in
/-- A turn of the read loop. -/
theorem readTurn_total (s : RequestScheduler) (handed : List Request) (empty : Bool) :
    ∃ s' handed', readTurn (accepting next) 0 (s, handed) empty = some (s', handed') ∧
      Framed s s' := by
  cases empty with
  | false => exact ⟨s, handed, rfl, Framed.refl s⟩
  | true =>
    by_cases none : (s.requestQueue 0).generalBuffer = []
    · refine ⟨s.setQueue 0 (s.requestQueue 0), handed, ?_, rfl, rfl⟩
      simp [readTurn, scheduleFR, RequestQueue.getRequest, none]
    · obtain ⟨r, picks⟩ := RequestFrfcfs.picks_scheduleFR none
      have chosen : s.scheduleFR 0 = _ := RequestQueue.getRequest_of_at picks.at_
      have bound := (List.getElem?_eq_some_iff.mp picks.at_).1
      simp only [buffered] at bound chosen
      simp only [readTurn, if_true, chosen, Option.bind_some, serve, isSchedulable, accepting,
        Option.map_some, setQueue, RequestQueue.removeRequest, bound]
      exact ⟨_, _, rfl, rfl, rfl⟩

variable (next) in
theorem readTurns_total (empties : List Bool) (s : RequestScheduler) (handed : List Request) :
    ∃ s' handed', empties.foldlM (readTurn (accepting next) 0) (s, handed) = some (s', handed') ∧
      Framed s s' := by
  induction empties generalizing s handed with
  | nil => exact ⟨s, handed, rfl, Framed.refl s⟩
  | cons empty empties ih =>
    obtain ⟨s₁, handed₁, first, framed⟩ := readTurn_total next s handed empty
    obtain ⟨s', handed', later, framed'⟩ := ih s₁ handed₁
    refine ⟨s', handed', ?_, framed.trans framed'⟩
    rw [List.foldlM_cons, first]
    exact later

variable (next) in
/-- **The part of a call after the drain** is defined, and leaves the flags and the watermarks alone. -/
theorem readOrIdle_total {st : Progress} (empties : List Bool) (h : Batched st.s waiting) :
    ∃ st', readOrIdle (accepting next) empties st = some st' ∧ Framed st.s st'.s ∧
      st'.sw = st.sw := by
  obtain ⟨s₁, reads, turned, framed⟩ := readTurns_total next empties st.s []
  have looped : readLoop (accepting next) empties st.s = some (s₁, reads) := by
    simpa [readLoop, h.one, List.range_succ] using turned
  obtain ⟨batched, _⟩ := readLoop_batched h looped
  obtain ⟨s₂, writes, idle, framed₂⟩ := idleWrite_total next batched
  simp only [readOrIdle, looped, Option.bind_some, idle, Option.map_some]
  split
  · exact ⟨_, rfl, framed.trans framed₂, rfl⟩
  · exact ⟨_, rfl, framed, rfl⟩

/-! ## Calls -/

/-- The flags agree, and the watermarks are the constructor's. -/
structure Flagged (s : RequestScheduler) (sw : Bool) : Prop where
  mode : (s.requestQueue 0).writeMode = sw
  marks : marks s = some (4, 10)

theorem Flagged.framed {sw : Bool} (h : Flagged s sw) (framed : Framed s s') : Flagged s' sw :=
  ⟨framed.1.trans h.mode, framed.2.trans h.marks⟩

/-- What a call that finds these writes does with the mode, and with the requests. -/
structure Switches (waiting : List Request) (before after : Bool) (handed : List Request) : Prop where
  enters : before = false → after = true → 10 < waiting.length
  leaves : before = true → after = false → waiting.length < 4
  drains : 4 ≤ waiting.length → before = true ∨ 10 < waiting.length →
    ∃ write, handed = [write] ∧ isWrite write = true

variable (next) in
/-- Draining one write, once the flags are on. -/
theorem drain_front (st : Progress) (h : Batched st.s waiting) (flags : Flagged st.s true)
    (on : st.sw = true) (enough : 4 ≤ waiting.length) :
    ∃ s' write, serveWrite (accepting next) st.s 0 = some (s', some write) ∧ Flagged s' st.sw ∧
      isWrite write = true := by
  cases waiting with
  | nil => simp at enough
  | cons r rest =>
    obtain ⟨s', served, framed⟩ := serveWrite_front next h
    refine ⟨s', r, served, ?_, h.writes r List.mem_cons_self⟩
    rw [on]
    exact flags.framed framed

variable (next) in
/-- **The drain** hands over the front write and ends the call there, or it hands over nothing and
settles the mode. -/
theorem drainTurn_total {sw : Bool} (h : Batched s waiting) (flags : Flagged s sw) :
    ∃ st, drainTurn (accepting next) { s := s, sw := sw } 0 = some st ∧ Flagged st.s st.sw ∧
      (st.cont_1 = false → Switches waiting sw st.sw st.handed) ∧
      (st.cont_1 = true → st.handed = [] ∧ Batched st.s waiting ∧
        ∀ handed, Switches waiting sw st.sw handed) := by
  obtain ⟨w, found, writes⟩ := h.queue
  obtain ⟨low, high⟩ : w.lowwatermark = 4 ∧ w.highwatermark = 10 := by
    simpa [marks, found] using flags.marks
  have above : w.highWatermark = decide (10 < waiting.length) := by
    rw [WriteQueue.highWatermark, writes, high]
  have below : w.lowWatermark = decide (waiting.length < 4) := by
    rw [WriteQueue.lowWatermark, writes, low]
  simp only [drainTurn, found, above, below]
  by_cases many : 10 < waiting.length
  · -- past the high watermark the drain begins, or goes on
    have few : ¬ waiting.length < 4 := by omega
    obtain ⟨s', write, served, flags', isW⟩ := drain_front next
      { s := setWriteMode s true, sw := true } (setWriteMode_batched h true)
      ⟨rfl, flags.marks⟩ rfl (by omega)
    simp only [many, few, served, decide_true, decide_false, if_true, Bool.false_eq_true, if_false,
      Option.map_some]
    refine ⟨_, rfl, flags', ?_, nofun⟩
    intro _
    exact ⟨fun _ _ => many, nofun, fun _ _ => ⟨write, rfl, isW⟩⟩
  · cases sw with
    | false =>
      simp only [many, decide_false, Bool.false_eq_true, if_false]
      refine ⟨_, rfl, flags, nofun, ?_⟩
      intro _
      exact ⟨rfl, h, fun handed => ⟨nofun, nofun, fun _ on => absurd on (by simp [many])⟩⟩
    | true =>
      by_cases few : waiting.length < 4
      · simp only [many, few, decide_true, decide_false, Bool.false_eq_true, if_false, if_true]
        refine ⟨_, rfl, ⟨rfl, flags.marks⟩, nofun, ?_⟩
        intro _
        refine ⟨rfl, setWriteMode_batched h false, fun handed => ⟨nofun, fun _ _ => few, ?_⟩⟩
        intro enough _
        omega
      · obtain ⟨s', write, served, flags', isW⟩ := drain_front next
          { s := s, sw := true } h flags rfl (by omega)
        simp only [many, few, served, decide_false, Bool.false_eq_true, if_false, if_true,
          Option.map_some]
        refine ⟨_, rfl, flags', ?_, nofun⟩
        intro _
        exact ⟨nofun, nofun, fun _ _ => ⟨write, rfl, isW⟩⟩

variable (next) in
/-- **A call** is defined, keeps the flags together, and switches them at the watermarks only. -/
theorem requestSchedule_switches {sw : Bool} (empties : List Bool) (h : Batched s waiting)
    (flags : Flagged s sw) :
    ∃ s' sw' handed, requestSchedule (accepting next) empties s sw = some (s', sw', handed) ∧
      Flagged s' sw' ∧ Switches waiting sw sw' handed := by
  obtain ⟨st, drained, flags', ends, goes⟩ := drainTurn_total next h flags
  have enabled : (s.requestQueue 0).isWriteEnable = true := h.enabled
  have looped : (List.range s.queueCount).foldlM (drainTurn (accepting next))
      { s := s, sw := sw } = some st := by
    simpa [h.one, List.range_succ] using drained
  simp only [requestSchedule, enabled, if_true, looped, Option.bind_some]
  cases cont : st.cont_1 with
  | false =>
    simp only [Bool.false_eq_true, if_false]
    exact ⟨_, _, _, rfl, flags', ends cont⟩
  | true =>
    obtain ⟨_, batched, switches⟩ := goes cont
    obtain ⟨st', after, framed, same⟩ := readOrIdle_total next empties batched
    simp only [if_true, after]
    refine ⟨_, _, _, rfl, ?_, ?_⟩
    · rw [same]
      exact flags'.framed framed
    · rw [same]
      exact switches st'.handed

/-! ## Runs -/

/-- What holds between the calls of a run. -/
structure Hysteresis (calls : List (RequestCall (List Bool))) (st : RequestScheduler × Bool)
    (handed : List (List Request)) : Prop where
  batched : Batched st.1 (waitingWrites st.1)
  flags : Flagged st.1 st.2
  books : (calls.flatMap RequestCall.inserted).filter isWrite =
    handed.flatten.filter isWrite ++ waitingWrites st.1

theorem insertRequest_flagged {sw : Bool} (h : Batched s waiting) (flags : Flagged s sw)
    (r : Request) : Flagged (s.setQueue 0 ((s.requestQueue 0).insertRequest r)) sw := by
  obtain ⟨w, found, _⟩ := h.queue
  have known : marks s = some (w.lowwatermark, w.highwatermark) := by simp [marks, found]
  cases write : isWrite r with
  | true =>
    have type : (r.requestType == .DATA_WRITE) = true := write
    refine ⟨?_, ?_⟩
    · simp [setQueue, RequestQueue.insertRequest, type, h.enabled, flags.mode]
    · rw [← flags.marks, known]
      simp [marks, setQueue, RequestQueue.insertRequest, type, h.enabled, found,
        WriteQueue.insertWrite]
  | false =>
    have type : (r.requestType == .DATA_WRITE) = false := write
    refine ⟨?_, ?_⟩
    · simp [setQueue, RequestQueue.insertRequest, type, h.general, flags.mode]
    · rw [← flags.marks]
      simp [marks, setQueue, RequestQueue.insertRequest, type, h.general]

theorem step_hysteresis {calls : List (RequestCall (List Bool))} {st st' : RequestScheduler × Bool}
    {handed : List (List Request)} {call : RequestCall (List Bool)} {told : List Request}
    (history : Hysteresis calls st handed)
    (h : (requestSchedule (accepting next)).step st call = some (st', told)) :
    Hysteresis (calls ++ [call]) st' (handed ++ [told]) := by
  obtain ⟨batched, flags, books⟩ := history
  obtain ⟨s, sw⟩ := st
  rcases RequestScheduling.step_cases h with ⟨index, r, rfl, bound, rfl, rfl⟩ | ⟨seen, rfl, called⟩
  · obtain rfl : index = 0 := by
      have one : s.queueCount = 1 := batched.one
      omega
    have joined := insertRequest_batched batched r
    refine ⟨?_, insertRequest_flagged batched flags r, ?_⟩
    · rw [joined.waitingWrites_eq]
      exact joined
    · rw [joined.waitingWrites_eq]
      simp [RequestCall.inserted, books]
  · obtain ⟨s', sw', handed', called', flags', _⟩ :=
      requestSchedule_switches next seen batched flags
    obtain ⟨left, split, batched'⟩ := requestSchedule_moves batched called
    have same : st' = (s', sw') ∧ told = handed' := by
      simp only [called] at called'
      obtain ⟨rfl, rfl, rfl⟩ : _ ∧ _ ∧ _ := by simpa using called'
      exact ⟨rfl, rfl⟩
    obtain ⟨rfl, rfl⟩ := same
    refine ⟨?_, flags', ?_⟩
    · rw [batched'.waitingWrites_eq]
      exact batched'
    · rw [batched'.waitingWrites_eq]
      simp only [List.flatMap_append, List.filter_append, books, List.flatten_append]
      rw [split]
      simp [RequestCall.inserted]

/-- **Write batching hysteresis.** On one queue with a write queue, with `sw` off at the start and a
generator that accepts, in every state that a run of insertions and calls reaches: the queue's write
mode is `sw`; the writes handed over and the writes waiting are together the writes that arrived, in
order; and whatever the command queues hold, the next call is defined, enters the write mode only if it
sees more than 10 writes, leaves it only if it sees fewer than 4, and hands over one write and nothing
else if it sees at least 4 and the mode is on or goes on. -/
theorem batching_hysteresis (next : CommandGenerator → Request → Bool → CommandGenerator)
    (dataBusSize : Nat) {calls : List (RequestCall (List Bool))} {st : RequestScheduler × Bool}
    {handed : List (List Request)}
    (ran : Lib.Machine.run (requestSchedule (accepting next)).step
      (RequestScheduler.create false true dataBusSize, false) calls = some (st, handed)) :
    (st.1.requestQueue 0).isWriteMode = st.2 ∧
    (calls.flatMap RequestCall.inserted).filter isWrite =
      handed.flatten.filter isWrite ++ waitingWrites st.1 ∧
    ∀ empties, ∃ s' sw' told,
      requestSchedule (accepting next) empties st.1 st.2 = some (s', sw', told) ∧
      (s'.requestQueue 0).isWriteMode = sw' ∧
      ((st.1.requestQueue 0).isWriteMode = false → (s'.requestQueue 0).isWriteMode = true →
        10 < (waitingWrites st.1).length) ∧
      ((st.1.requestQueue 0).isWriteMode = true → (s'.requestQueue 0).isWriteMode = false →
        (waitingWrites st.1).length < 4) ∧
      (4 ≤ (waitingWrites st.1).length →
        (st.1.requestQueue 0).isWriteMode = true ∨ 10 < (waitingWrites st.1).length →
        ∃ write, told = [write] ∧ isWrite write = true) := by
  have history : Hysteresis calls st handed := by
    apply Lib.Machine.run_history Hysteresis (fun history stepped => step_hysteresis history stepped)
      ?_ ran
    refine ⟨⟨rfl, rfl, rfl, ?_, ?_, _, rfl, rfl⟩, ⟨rfl, rfl⟩, rfl⟩
    · simp [RequestScheduler.create, RequestQueue.create]
    · simp [waitingWrites, RequestScheduler.create, RequestQueue.create]
  obtain ⟨batched, flags, books⟩ := history
  have mode : (st.1.requestQueue 0).isWriteMode = st.2 := flags.mode
  refine ⟨mode, books, ?_⟩
  intro empties
  obtain ⟨s', sw', told, called, flags', switches⟩ :=
    requestSchedule_switches next empties batched flags
  have mode' : (s'.requestQueue 0).isWriteMode = sw' := flags'.mode
  rw [mode]
  refine ⟨s', sw', told, called, mode', ?_, ?_, switches.drains⟩
  · rw [mode']
    exact switches.enters
  · rw [mode']
    exact switches.leaves

/-- Eleven writes arrive, told apart by their addresses. -/
def elevenWrites : List (RequestCall (List Bool)) :=
  (List.range 11).map fun i => .insertRequest 0 (sampleRequest .DATA_WRITE 0 (64 * i))

/-- The law after eleven writes and nine calls: eight writes were handed over, the ninth call has seen
three and left the mode. -/
theorem batching_hysteresis_elevenWrites :
    ∃ st handed, Lib.Machine.run (requestSchedule (accepting fun g _ _ => g)).step
        (RequestScheduler.create false true 64, false)
        (elevenWrites ++ List.replicate 9 (.requestSchedule allBusy)) = some (st, handed) ∧
      handed.flatten = (List.range 8).map (fun i => sampleRequest .DATA_WRITE 0 (64 * i)) ∧
      st.2 = false ∧ (st.1.requestQueue 0).isWriteMode = st.2 := by
  obtain ⟨st, handed, ran, drained, off⟩ := Lib.Machine.run_exists_told
    (requestSchedule (accepting fun g _ _ => g)).step
    (fun st handed => handed.flatten = (List.range 8).map
      (fun i => sampleRequest .DATA_WRITE 0 (64 * i)) ∧ st.2 = false)
    (RequestScheduler.create false true 64, false)
    (elevenWrites ++ List.replicate 9 (.requestSchedule allBusy)) (by decide +kernel)
  exact ⟨st, handed, ran, drained, off, (batching_hysteresis (fun g _ _ => g) 64 ran).1⟩

end Batching
end MCsim
