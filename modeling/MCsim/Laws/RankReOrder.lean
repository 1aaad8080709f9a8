import MCsim.Laws.Latch
import MCsim.Schedulers.RankReOrder
import MCsim.Setups

/-!
# Bounded bypass of RankReOrder

Each buffer and the queue numbers beside it have one length; read as pairs, they are latched heads
(`entries`), a queue being pending exactly while one of its commands is among them. A column access
that is sent marks its queue as served, a served queue gets no other one buffered, and the marks are
taken back only where the column buffers are empty. So while a column access of one queue stays
buffered, every other queue gets one through at most.
-/

namespace MCsim
namespace RankReOrder

open CommandScheduler

/-- A command goes to the queue of its bank, and its rank is one of two. -/
def ofRank (index : Nat) (command : BusPacket) : Prop :=
  command.bank = index ∧ command.rank < rank_num

/-! ## Buffers and queue numbers as pairs -/

/-- The column accesses of a rank with their queues. -/
def casEntries (p : RankReOrderState) (rank : Nat) : List Entry :=
  (p.CASBuffer rank).zip (p.CASQueueIndex rank)

/-- The other commands with theirs. -/
def rowEntries (p : RankReOrderState) : List Entry := p.ACT_PREBuffer.zip p.CMDQueueIndex

/-- Everything that is buffered. -/
def entries (p : RankReOrderState) : List Entry :=
  casEntries p 0 ++ (casEntries p 1 ++ rowEntries p)

/-- A column access of a queue is buffered. -/
def Buffered (queue : Nat) (p : RankReOrderState) : Prop :=
  ∃ rank < rank_num, ∃ c, (c, queue) ∈ casEntries p rank

/-- Where a rank's column accesses stand among the entries, whatever they are. -/
theorem entries_rank (p : RankReOrderState) {rank : Nat} (small : rank < rank_num) :
    ∃ left right, entries p = left ++ (casEntries p rank ++ right) ∧
      ∀ commands indices, entries (setCas p rank commands indices) =
        left ++ (commands.zip indices ++ right) := by
  have ranks : rank = 0 ∨ rank = 1 := by
    unfold rank_num at small
    omega
  rcases ranks with rfl | rfl
  · exact ⟨[], casEntries p 1 ++ rowEntries p, rfl, fun _ _ => rfl⟩
  · exact ⟨casEntries p 0, rowEntries p, rfl, fun _ _ => rfl⟩

theorem casEntries_setCas (p : RankReOrderState) (rank : Nat) (commands : List BusPacket)
    (indices : List Nat) (r : Nat) : casEntries (setCas p rank commands indices) r =
      if r = rank then commands.zip indices else casEntries p r := by
  unfold casEntries setCas
  dsimp only
  split <;> rfl

/-- An entry joins the end of a part of the entries. -/
theorem perm_join (left right : List Entry) (e : Entry) :
    (left ++ right ++ [e]).Perm (left ++ ([e] ++ right)) := by
  rw [List.append_assoc]
  exact List.Perm.append_left left List.perm_append_comm

/-! ## The invariant -/

/-- What runs keep: the buffers and the queue numbers beside them are in step and hold latched heads,
and the turn is one of the ranks. -/
structure Inv (s : CommandScheduler) (p : RankReOrderState) : Prop where
  latching : Latching false ofRank Entry.queue s (entries p) p.queuePending
  paired : ∀ rank, (p.CASBuffer rank).length = (p.CASQueueIndex rank).length
  pairedRows : p.ACT_PREBuffer.length = p.CMDQueueIndex.length
  rows : ∀ c ∈ p.ACT_PREBuffer, c.busPacketType.beforeACT = false
  turn : p.rankIndex < rank_num

variable {s s' : CommandScheduler} {p p' p₁ : RankReOrderState} {spec : DeviceSpec}
  {check : Answers}

theorem inv_create (queueCount : Nat) (m : RefreshMachine) :
    Inv (CommandScheduler.create queueCount false m) {} :=
  ⟨.create false ofRank Entry.queue queueCount m, fun _ => rfl, rfl,
    fun _ h => absurd h List.not_mem_nil, by decide⟩

theorem mem_entries_of_cas {rank : Nat} (small : rank < rank_num) {e : Entry}
    (he : e ∈ casEntries p rank) : e ∈ entries p := by
  obtain ⟨left, right, split, _⟩ := entries_rank p small
  rw [split]
  exact List.mem_append_right left (List.mem_append_left right he)

theorem Buffered.mem_keys {queue : Nat} (buffered : Buffered queue p) :
    queue ∈ (entries p).map Entry.queue := by
  obtain ⟨rank, small, c, hc⟩ := buffered
  exact List.mem_map_of_mem (mem_entries_of_cas small hc)

/-! ## Buffering -/

/-- Buffering fronts: the invariant stays, round and type stay, and a served queue gets no column
access buffered. -/
structure Latches (s : CommandScheduler) (p p₁ : RankReOrderState) : Prop where
  inv : Inv s p₁
  served : p₁.servedFlag = p.servedFlag
  type : p₁.bundlingType = p.bundlingType
  barred : ∀ queue, p.servedFlag queue = true → Buffered queue p₁ → Buffered queue p

theorem buffer_inv (inv : Inv s p) {c : BusPacket} {index : Nat}
    (free : p.queuePending index = false) (head : (s.bufferOf index c.requestorID).head? = some c)
    (ready : s.isReady c index = true) : Inv s (buffer p c index) := by
  obtain ⟨⟨shaped, holds, latched⟩, paired, pairedRows, rows, turn⟩ := inv
  have joined := latched.push (e := (c, index)) head ready free fun _ => rfl
  unfold buffer
  split
  · split
    · have small : c.rank < rank_num := (holds index _ c (List.mem_of_mem_head? head)).2
      obtain ⟨left, right, split, replaced⟩ := entries_rank p small
      refine ⟨⟨shaped, holds, ?_⟩, fun rank => ?_, pairedRows, rows, turn⟩
      · have moved := replaced (p.CASBuffer c.rank ++ [c]) (p.CASQueueIndex c.rank ++ [index])
        rw [List.zip_append (paired c.rank)] at moved
        rw [split, ← List.append_assoc] at joined
        have same := joined.perm (perm_join (left ++ casEntries p c.rank) right (c, index))
        rw [List.append_assoc left, ← List.append_assoc (casEntries p c.rank)] at same
        rw [show entries (setCas (setPending p index true) c.rank (p.CASBuffer c.rank ++ [c])
          (p.CASQueueIndex c.rank ++ [index])) = _ from moved]
        exact same
      · unfold setCas setPending
        dsimp only
        split
        · rw [List.length_append, List.length_append, paired]
          rfl
        · exact paired rank
    · exact ⟨⟨shaped, holds, latched⟩, paired, pairedRows, rows, turn⟩
  · next row =>
    refine ⟨⟨shaped, holds, ?_⟩, paired, ?_, fun d hd => ?_, turn⟩
    · have moved : entries { setPending p index true with
          ACT_PREBuffer := p.ACT_PREBuffer ++ [c], CMDQueueIndex := p.CMDQueueIndex ++ [index] } =
          entries p ++ [(c, index)] := by
        simp only [entries, rowEntries, casEntries, setPending, List.zip_append pairedRows,
          List.append_assoc]
        rfl
      rw [moved]
      exact joined
    · simp [pairedRows]
    · rcases List.mem_append.mp hd with hd | hd
      · exact rows d hd
      · rw [List.mem_singleton.mp hd]
        simpa using row

theorem buffer_frame (p : RankReOrderState) (c : BusPacket) (index : Nat)
    (paired : ∀ rank, (p.CASBuffer rank).length = (p.CASQueueIndex rank).length) :
    (buffer p c index).servedFlag = p.servedFlag ∧
      (buffer p c index).bundlingType = p.bundlingType ∧
      ∀ queue, p.servedFlag queue = true → Buffered queue (buffer p c index) →
        Buffered queue p := by
  unfold buffer
  split
  · split
    · next free =>
      refine ⟨rfl, rfl, fun queue served buffered => ?_⟩
      obtain ⟨rank, small, d, hd⟩ := buffered
      rw [casEntries_setCas] at hd
      split at hd
      · next same =>
        rw [List.zip_append (paired c.rank), List.mem_append] at hd
        rcases hd with hd | hd
        · exact ⟨rank, small, d, same ▸ hd⟩
        · obtain ⟨rfl, rfl⟩ : d = c ∧ queue = index := by simpa using hd
          rw [served] at free
          cases free
      · exact ⟨rank, small, d, hd⟩
    · exact ⟨rfl, rfl, fun _ _ h => h⟩
  · exact ⟨rfl, rfl, fun _ _ h => h⟩

theorem latch_latches (latches : Latches s p p₁) (index : Nat) :
    ∃ p₂, latch (s, p₁) index = (s, p₂) ∧ Latches s p p₂ := by
  obtain ⟨inv, served, type, barred⟩ := latches
  have shaped := inv.latching.shaped
  unfold latch
  dsimp only
  rw [shaped.freeFront]
  cases front : if p₁.queuePending index then none else (s.waiting index).head? with
  | none => exact ⟨p₁, rfl, inv, served, type, barred⟩
  | some c =>
    obtain ⟨free, head⟩ := shaped.head_of_freeFront front
    dsimp only
    cases ready : s.isReady c index with
    | false => exact ⟨p₁, rfl, inv, served, type, barred⟩
    | true =>
      obtain ⟨served', type', barred'⟩ := buffer_frame p₁ c index inv.paired
      refine ⟨_, rfl, buffer_inv inv free head ready, served'.trans served, type'.trans type, ?_⟩
      intro queue mark buffered
      exact barred queue mark (barred' queue (served ▸ mark) buffered)

/-- Renewing touches neither buffers nor flags of queues. -/
theorem renew_inv (inv : Inv s p) (queueCount : Nat) : Inv s (renew queueCount p) :=
  ⟨inv.latching, inv.paired, inv.pairedRows, inv.rows, inv.turn⟩

/-- **The first half of a call**: renewing, then buffering. -/
theorem prepare_eq (inv : Inv s p) :
    ∃ p₁, prepare s p = ({ s with scheduledCommand := none }, p₁) ∧
      Latches { s with scheduledCommand := none } (renew s.queueCount p) p₁ := by
  have cleared : Inv { s with scheduledCommand := none } p :=
    ⟨inv.latching.cleared none, inv.paired, inv.pairedRows, inv.rows, inv.turn⟩
  unfold prepare
  refine List.foldlRecOn (motive := fun st => ∃ p₁, st = ({ s with scheduledCommand := none }, p₁) ∧
    Latches { s with scheduledCommand := none } (renew s.queueCount p) p₁) _ _
    ⟨_, rfl, renew_inv cleared s.queueCount, rfl, rfl, fun _ _ h => h⟩ ?_
  rintro _ ⟨p₁, rfl, latches⟩ index _
  exact latch_latches latches index

/-! ## Sending -/

theorem nextRank_lt (rank : Nat) (small : rank < rank_num) : nextRank rank < rank_num := by
  unfold nextRank rank_num at *
  split <;> omega

/-- The turns end at a rank, and what they found is a choice of that rank. -/
theorem rankScan_spec (check : Answers) (s : CommandScheduler) (p : RankReOrderState)
    (turns : Nat) {rank : Nat} (small : rank < rank_num) :
    (rankScan check s p turns rank).1 < rank_num ∧
      ∀ found, (rankScan check s p turns rank).2 = some found →
        rankChoice check s p (rankScan check s p turns rank).1 = some found := by
  induction turns generalizing rank with
  | zero => exact ⟨small, fun _ h => by cases h⟩
  | succ turns ih =>
    unfold rankScan
    cases choice : rankChoice check s p rank with
    | none => exact ih (nextRank_lt rank small)
    | some found =>
      refine ⟨small, fun other h => ?_⟩
      obtain rfl : found = other := by simpa using h
      exact choice

/-- What sending a command leaves: it was buffered and is no longer, nothing else was touched, and a
column access marks its queue. -/
structure Sent (p p' : RankReOrderState) (c : BusPacket) : Prop where
  gone : c.busPacketType.isCas = true → ¬ Buffered c.bank p'
  was : c.busPacketType.isCas = true → Buffered c.bank p
  left : ∀ queue, Buffered queue p' → Buffered queue p
  served : ∀ queue, p'.servedFlag queue =
    if c.busPacketType.beforeACT = true ∧ queue = c.bank then true else p.servedFlag queue

/-- The second half of a call: nothing is sent but the turn may move, or a command is. -/
inductive Serves (s : CommandScheduler) (p : RankReOrderState) :
    CommandScheduler → RankReOrderState → Option BusPacket → Prop
  | idle (rank : Nat) : Serves s p s { p with rankIndex := rank } none
  | send {c : BusPacket} {s' : CommandScheduler} {p' : RankReOrderState} (sent : Sent p p' c) :
      Serves s p s' p' (some c)

/-- `dispatch` marks the queue of a column access and frees the queue, on whatever buffers. -/
theorem dispatch_eq (spec : DeviceSpec) (s : CommandScheduler) (p : RankReOrderState)
    (c : BusPacket) (index : Nat) : dispatch spec s p c index =
      (s.issue spec c index,
        { p with
          queuePending := fun i => if i = index then false else p.queuePending i
          servedFlag := fun i =>
            if c.busPacketType.beforeACT = true ∧ i = index then true else p.servedFlag i },
        some c) := by
  unfold dispatch setPending
  cases c.busPacketType.beforeACT <;> simp

/-- The entry sent leaves the rest in order. -/
theorem latching_sent {before after : List Entry} {c : BusPacket} {index : Nat}
    (latching : Latching false ofRank Entry.queue s (entries p) p.queuePending)
    (split : entries p = before ++ (c, index) :: after) (spec : DeviceSpec) :
    Latching false ofRank Entry.queue (s.issue spec c index) (before ++ after)
        (fun i => if i = index then false else p.queuePending i) ∧
      c.bank = index ∧ index ∉ (before ++ after).map Entry.queue := by
  have mine : (c, index) ∈ entries p := by simp [split]
  have bank : c.bank = index := (latching.fits_entry mine).1
  rw [split] at latching
  have once := (latching.latched.perm List.perm_middle).once
  exact ⟨latching.issue (e := (c, index)) (Entry.queue_separates false) spec fun _ => rfl, bank,
    (List.nodup_cons.mp once).1⟩

/-- **The second half of a call** is defined, keeps the invariant and sends as described. -/
theorem send_serves (spec : DeviceSpec) (check : Answers) (inv : Inv s p) :
    ∃ s' p' out, send spec check s p = some (s', p', out) ∧ Inv s' p' ∧ Serves s p s' p' out := by
  obtain ⟨latching, paired, pairedRows, rows, turn⟩ := inv
  obtain ⟨small, chosen⟩ := rankScan_spec check s p rank_num turn
  unfold send
  cases scan : rankScan check s p rank_num p.rankIndex with
  | mk rank found =>
    rw [scan] at small chosen
    cases found with
    | some found =>
      obtain ⟨i, c⟩ := found
      obtain ⟨first, _⟩ := Option.filter_eq_some_iff.mp (chosen (i, c) rfl)
      obtain ⟨before, after, stops⟩ := Lib.Scan.firstFree_split first
      obtain ⟨index, left, right, at_, zipped, erased, length⟩ :=
        Lib.Scan.zip_split (paired rank) stops.split stops.length
      obtain ⟨front, back, split, replaced⟩ := entries_rank p small
      have whole : entries p = (front ++ left) ++ (c, index) :: (right ++ back) := by
        rw [split]
        unfold casEntries
        rw [zipped]
        simp
      obtain ⟨latching', rfl, fresh⟩ := latching_sent latching whole spec
      have rest : entries (setCas p rank ((p.CASBuffer rank).eraseIdx i)
          ((p.CASQueueIndex rank).eraseIdx i)) = (front ++ left) ++ (right ++ back) := by
        rw [replaced, erased]
        simp
      have smaller : ∀ queue, Buffered queue (setCas p rank ((p.CASBuffer rank).eraseIdx i)
          ((p.CASQueueIndex rank).eraseIdx i)) → Buffered queue p := by
        rintro queue ⟨r, hr, d, hd⟩
        rw [casEntries_setCas] at hd
        split at hd
        · next same =>
          refine ⟨r, hr, d, ?_⟩
          rw [same]
          unfold casEntries
          rw [erased] at hd
          rw [zipped]
          rcases List.mem_append.mp hd with hd | hd <;> simp [hd]
        · exact ⟨r, hr, d, hd⟩
      dsimp only
      rw [at_, Option.map_some, dispatch_eq]
      refine ⟨_, _, _, rfl, ⟨?_, fun r => ?_, pairedRows, rows, small⟩, .send ⟨fun _ => ?_, fun _ => ?_,
        smaller, fun _ => rfl⟩⟩
      · exact rest ▸ latching'
      · unfold setCas
        dsimp only
        split
        · exact length
        · exact paired r
      · intro buffered
        exact fresh (rest ▸ Buffered.mem_keys (p := setCas p rank ((p.CASBuffer rank).eraseIdx i)
          ((p.CASQueueIndex rank).eraseIdx i)) buffered)
      · refine ⟨rank, small, c, ?_⟩
        unfold casEntries
        rw [zipped]
        simp
    | none =>
      dsimp only
      cases first : Lib.Scan.firstThat (s.isIssuable check) p.ACT_PREBuffer with
      | none =>
        exact ⟨s, { p with rankIndex := rank }, none, rfl,
          ⟨latching, paired, pairedRows, rows, small⟩, .idle rank⟩
      | some found =>
        obtain ⟨i, c⟩ := found
        obtain ⟨before, after, stops⟩ := Lib.Scan.firstFree_split first
        obtain ⟨index, left, right, at_, zipped, erased, length⟩ :=
          Lib.Scan.zip_split pairedRows stops.split stops.length
        have row := rows c stops.mem
        have whole : entries p =
            (casEntries p 0 ++ (casEntries p 1 ++ left)) ++ (c, index) :: right := by
          unfold entries rowEntries
          rw [zipped]
          simp
        obtain ⟨latching', rfl, _⟩ := latching_sent latching whole spec
        have noCas : c.busPacketType.isCas = true → False := fun cas => by
          rw [BusPacketType.beforeACT_of_isCas cas] at row
          cases row
        dsimp only
        rw [at_, Option.map_some, dispatch_eq]
        refine ⟨_, _, _, rfl, ⟨?_, paired, length, fun d hd => ?_, small⟩,
          .send ⟨fun cas => (noCas cas).elim, fun cas => (noCas cas).elim, fun _ h => h,
            fun _ => rfl⟩⟩
        · have rest : entries { p with
              ACT_PREBuffer := p.ACT_PREBuffer.eraseIdx i
              CMDQueueIndex := p.CMDQueueIndex.eraseIdx i } =
              (casEntries p 0 ++ (casEntries p 1 ++ left)) ++ right := by
            unfold entries rowEntries
            dsimp only
            rw [erased]
            simp [casEntries]
          exact rest ▸ latching'
        · exact rows d (List.mem_of_mem_eraseIdx hd)

/-! ## Calls -/

/-- **A call of `commandSchedule`, taken apart**: round and type renewed, fronts buffered, and a
command sent or none. -/
theorem schedule_spec (inv : Inv s p) {out : Option BusPacket}
    (h : schedule spec check s p = some (s', p', out)) :
    Inv s' p' ∧ ∃ p₁, Latches { s with scheduledCommand := none } (renew s.queueCount p) p₁ ∧
      Serves { s with scheduledCommand := none } p₁ s' p' out := by
  obtain ⟨p₁, prepared, latches⟩ := prepare_eq inv
  obtain ⟨t, q, o, sent, inv', serves⟩ := send_serves spec check latches.inv
  simp only [schedule, prepared, sent, Option.some.injEq, Prod.mk.injEq] at h
  obtain ⟨rfl, rfl, rfl⟩ := h
  exact ⟨inv', p₁, latches, serves⟩

variable {table : Nat → Bool} (critical : ∀ id, table id = true)
  {st st' : CommandScheduler × RankReOrderState} {call : SchedulerCall}
  {o : Option (Option BusPacket)} {A B : Nat}

include critical in
theorem step_inv (inv : Inv st.1 st.2) (fit : call.Inserts ofRank)
    (h : (schedule spec).step spec table st call = some (st', o)) : Inv st'.1 st'.2 := by
  rcases Scheduling.step_cases h with ⟨s', base, rfl, _⟩ | ⟨_, _, _, _, _, scheduled, rfl, _⟩
  · exact ⟨inv.latching.base (fun _ => critical) fit base, inv.paired, inv.pairedRows, inv.rows,
      inv.turn⟩
  · exact (schedule_spec inv scheduled).1

/-- The marks are taken back only where no column access is buffered. -/
theorem renew_served (queueCount : Nat) {rank : Nat} (small : rank < rank_num)
    (some_ : p.CASBuffer rank ≠ []) : (renew queueCount p).servedFlag = p.servedFlag := by
  refine if_neg fun none => some_ ?_
  have empty := List.all_eq_true.mp none rank (List.mem_range.mpr small)
  exact List.isEmpty_iff.mp empty

theorem casBuffer_ne_nil {rank : Nat} {c : BusPacket} (h : (c, A) ∈ casEntries p rank) :
    p.CASBuffer rank ≠ [] := by
  intro empty
  unfold casEntries at h
  rw [empty] at h
  cases h

/-- A mark that a call takes back. -/
theorem step_resets (inv : Inv st.1 st.2)
    (h : (schedule spec).step spec table st call = some (st', o))
    (marked : st.2.servedFlag A = true) (gone : st'.2.servedFlag A = false) :
    ∀ rank < rank_num, st.2.CASBuffer rank = [] := by
  intro rank small
  by_contra some_
  rcases Scheduling.step_cases h with ⟨_, _, rfl, _⟩ | ⟨_, _, _, _, _, scheduled, rfl, _⟩
  · rw [marked] at gone
    cases gone
  · obtain ⟨_, p₁, latches, serves⟩ := schedule_spec inv scheduled
    have kept : p₁.servedFlag A = true := by
      rw [latches.served, renew_served _ small some_]
      exact marked
    cases serves with
    | idle =>
      rw [show p₁.servedFlag A = false from gone] at kept
      cases kept
    | send sent =>
      dsimp only at gone
      rw [sent.served, kept, ite_self] at gone
      cases gone

/-- A call told of a column access of a queue. -/
def casOf (queue : Nat) : Option (Option BusPacket) → Bool
  | some (some c) => c.busPacketType.isCas && c.bank == queue
  | _ => false

/-- The queue was served, and none of its column accesses is buffered. -/
def Barred (queue : Nat) (p : RankReOrderState) : Prop :=
  p.servedFlag queue = true ∧ ¬ Buffered queue p

/-- A column access that is sent bars its queue. -/
theorem step_bars (inv : Inv st.1 st.2)
    (h : (schedule spec).step spec table st call = some (st', o)) (cas : casOf A o = true) :
    Barred A st'.2 := by
  rcases Scheduling.step_cases h with ⟨_, _, _, rfl⟩ | ⟨_, _, _, _, _, scheduled, rfl, rfl⟩
  · cases cas
  · obtain ⟨_, p₁, _, serves⟩ := schedule_spec inv scheduled
    cases serves with
    | idle => cases cas
    | send sent =>
      obtain ⟨isCas, bank⟩ := Bool.and_eq_true_iff.mp cas
      obtain rfl := beq_iff_eq.mp bank
      refine ⟨?_, sent.gone isCas⟩
      rw [sent.served, if_pos ⟨BusPacketType.beforeACT_of_isCas isCas, rfl⟩]

/-- While a column access stays buffered, a queue that is barred stays barred and gets none sent. -/
theorem step_stays (inv : Inv st.1 st.2) (waits : Buffered B st.2) (barred : Barred A st.2)
    (h : (schedule spec).step spec table st call = some (st', o)) :
    casOf A o = false ∧ Barred A st'.2 := by
  rcases Scheduling.step_cases h with ⟨_, _, rfl, rfl⟩ | ⟨_, _, _, _, _, scheduled, rfl, rfl⟩
  · exact ⟨rfl, barred⟩
  · obtain ⟨_, p₁, latches, serves⟩ := schedule_spec inv scheduled
    obtain ⟨rank, small, c, hc⟩ := waits
    have kept := renew_served st.1.queueCount small (casBuffer_ne_nil hc)
    -- after buffering the queue is barred still
    have mark : p₁.servedFlag A = true := by
      rw [latches.served, kept]
      exact barred.1
    have none : ¬ Buffered A p₁ := fun buffered =>
      barred.2 (latches.barred A (by rw [kept]; exact barred.1) buffered)
    cases serves with
    | idle => exact ⟨rfl, mark, none⟩
    | @send d _ _ sent =>
      refine ⟨?_, ?_, fun buffered => none (sent.left A buffered)⟩
      · cases cas : casOf A (some (some d)) with
        | false => rfl
        | true =>
          obtain ⟨isCas, bank⟩ := Bool.and_eq_true_iff.mp cas
          obtain rfl := beq_iff_eq.mp bank
          exact absurd (sent.was isCas) none
      · dsimp only
        rw [sent.served, mark, ite_self]

/-- The pairs of a buffer and the queue numbers beside it are heads of queues. -/
theorem paired_heads {commands : List BusPacket} {indices : List Nat}
    (latching : Latching false ofRank Entry.queue s (entries p) p.queuePending)
    (among : ∀ e ∈ commands.zip indices, e ∈ entries p) {i queue : Nat} {c : BusPacket}
    (command : commands[i]? = some c) (index : indices[i]? = some queue) :
    (s.waiting queue).head? = some c := by
  have pair : (commands.zip indices)[i]? = some (c, queue) :=
    List.getElem?_zip_eq_some.mpr ⟨command, index⟩
  have head := latching.latched.head (c, queue) (among _ (List.mem_of_getElem? pair))
  rwa [latching.shaped.bufferOf_false] at head

/-- **Bounded bypass of RankReOrder.** With a queue for each bank, every requestor critical and ranks
below two, in every state a run reaches: the buffers and the queue numbers beside them are of one
length, and position by position the number is that of the queue whose head the command is; a call
takes a served mark back only where no column access is buffered; and over a stretch of calls after
each of which a column access of one queue is buffered, at most one of any queue is sent. -/
theorem rankReOrder_boundedBypass (spec : DeviceSpec) (critical : ∀ id, table id = true)
    (queueCount : Nat) (m : RefreshMachine) {calls : List SchedulerCall}
    (fit : ∀ call ∈ calls, call.Inserts ofRank) {s : CommandScheduler} {p : RankReOrderState}
    {told : List (Option (Option BusPacket))}
    (ran : Lib.Machine.run ((schedule spec).step spec table)
      (CommandScheduler.create queueCount false m, {}) calls = some ((s, p), told)) :
    (∀ rank < rank_num, (p.CASBuffer rank).length = (p.CASQueueIndex rank).length ∧
      ∀ (i : Nat) (c : BusPacket) (queue : Nat), (p.CASBuffer rank)[i]? = some c →
        (p.CASQueueIndex rank)[i]? = some queue → (s.waiting queue).head? = some c) ∧
    (p.ACT_PREBuffer.length = p.CMDQueueIndex.length ∧
      ∀ (i : Nat) (c : BusPacket) (queue : Nat), p.ACT_PREBuffer[i]? = some c →
        p.CMDQueueIndex[i]? = some queue → (s.waiting queue).head? = some c) ∧
    (∀ call st' o queue, (schedule spec).step spec table (s, p) call = some (st', o) →
      p.servedFlag queue = true → st'.2.servedFlag queue = false →
        ∀ rank < rank_num, p.CASBuffer rank = []) ∧
    ∀ A B stretch st' told', (∀ call ∈ stretch, SchedulerCall.Inserts ofRank call) →
      Lib.Machine.Along ((schedule spec).step spec table) (fun _ _ st _ => Buffered B st.2) (s, p)
        stretch →
      Lib.Machine.run ((schedule spec).step spec table) (s, p) stretch = some (st', told') →
      told'.countP (casOf A) ≤ 1 := by
  have along := Lib.Machine.along_of_forall ((schedule spec).step spec table)
    (CommandScheduler.create queueCount false m, {}) fit
  have inv : Inv s p := by
    refine Lib.Machine.run_invariant_along (fun st => Inv st.1 st.2) ?_ (inv_create queueCount m)
      along ran
    exact fun inv h fit => step_inv critical inv fit h
  refine ⟨fun rank small => ⟨inv.paired rank, fun i c queue command index => ?_⟩,
    ⟨inv.pairedRows, fun i c queue command index => ?_⟩, fun call st' o queue h => ?_,
    fun A B stretch st' told' fit along ran => ?_⟩
  · exact paired_heads inv.latching (fun _ he => mem_entries_of_cas small he) command index
  · refine paired_heads inv.latching (fun e he => ?_) command index
    exact List.mem_append_right _ (List.mem_append_right _ he)
  · exact step_resets inv h
  · exact Lib.Machine.count_le_one (fun st => Inv st.1 st.2) (fun st => Buffered B st.2)
      (fun st => Barred A st.2) (fun inv fit h => step_inv critical inv fit h)
      (fun inv h => step_bars inv h) (fun inv waits barred h _ => step_stays inv waits barred h)
      inv fit along ran

/-- Two reads wait for bank 0 of rank 0 and one for bank 1 of rank 1. -/
def rivalRanks : List SchedulerCall :=
  [.insert 0 .RD 0 0, .insert 0 .RD 0 0,
    .insertCommand 1 { sampleCommand .RD 1 1 with rank := 1 }]

/-- The scheduler they wait in. -/
def rivalState : CommandScheduler :=
  ((((CommandScheduler.create 2 false (.create .none openPageSetup.device 0 0)).insertCommand
    0 (sampleCommand .RD 0 0) true).insertCommand 0 (sampleCommand .RD 0 0) true).insertCommand
    1 { sampleCommand .RD 1 1 with rank := 1 } true)

/-- The device takes commands for bank 0 only, in two calls six cycles apart. -/
def favouredBank : List SchedulerCall :=
  [.commandSchedule fun c => c.bank = 0] ++ List.replicate 6 .tick ++
    [.commandSchedule fun c => c.bank = 0]

/-- The law at a stretch in which the read of rank 1 stays buffered: the first read of rank 0 goes
through, and the second one is not even buffered. -/
theorem rankReOrder_boundedBypass_rivalRanks :
    ∃ st told, Lib.Machine.run ((schedule openPageSetup.device).step openPageSetup.device
        fun _ => true) (rivalState, {}) favouredBank = some (st, told) ∧
      told.countP (casOf 0) ≤ 1 ∧
      st.1.memoryDevice.commandTrace.map (·.bank) = [0] ∧
      st.2.CASQueueIndex 0 = [] ∧ st.2.CASQueueIndex 1 = [1] := by
  obtain ⟨st, told, ran, sent⟩ := Lib.Machine.run_exists
    ((schedule openPageSetup.device).step openPageSetup.device fun _ => true)
    (fun st => st.1.memoryDevice.commandTrace.map (·.bank) = [0] ∧
      st.2.CASQueueIndex 0 = [] ∧ st.2.CASQueueIndex 1 = [1])
    (rivalState, {}) favouredBank (by decide +kernel)
  have along := Lib.Machine.along_of_check
    ((schedule openPageSetup.device).step openPageSetup.device fun _ => true)
    (fun _ _ st => (casEntries st.2 1).any fun e => e.2 == 1)
    (fun _ _ st => Buffered 1 st.2) (rivalState, {}) favouredBank
    (fun _ _ st check => ?_) (by decide +kernel)
  · have law := @rankReOrder_boundedBypass (fun _ => true) openPageSetup.device (fun _ => rfl) 2
      (.create .none openPageSetup.device 0 0) rivalRanks ?_ rivalState {} [none, none, none] rfl
    · refine ⟨st, told, ran, law.2.2.2 0 1 favouredBank st told ?_ along ran, sent⟩
      simp [favouredBank, SchedulerCall.Inserts, SchedulerCall.inserted]
    · simp [rivalRanks, SchedulerCall.Inserts, SchedulerCall.inserted, SchedulerCall.insert,
        sampleCommand, ofRank, rank_num]
  · obtain ⟨⟨c, queue⟩, he, same⟩ := List.any_eq_true.mp check
    obtain rfl : queue = 1 := beq_iff_eq.mp same
    exact ⟨1, by decide, c, he⟩

end RankReOrder
end MCsim
