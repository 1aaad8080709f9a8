import MCsim.Laws.RoundChoice
import Mathlib.Data.List.Chain

/-!
# Who stands in `Order`

A requestor's commands come in segments: the activation of a request, perhaps behind a precharge, and
its column accesses; or these alone, where the row is open already. So what follows an activation is a
column access (`Streamed.answered`), and that is all the bookkeeping rests on.

A requestor enters `Order` when its activation is latched, and keeps its place until its first column
access is sent; a column access that no activation came before enters on its own. `closestatemap` tells
the two apart: it is set exactly while the activation is latched, or sent with nothing sent since.
`Registers` says so of the registers of the scheduler alone, given whose activation was sent last.
-/

namespace MCsim

/-- An activation of one direction. -/
def BusPacketType.opensRow (t : BusPacketType) : Bool := t == .ACT_R || t == .ACT_W

theorem BusPacketType.opensRow_iff {t : BusPacketType} :
    t.opensRow = true ↔ t = .ACT_R ∨ t = .ACT_W := by
  simp [opensRow]

namespace Round

open CommandScheduler

variable {spec : DeviceSpec} {check : Answers} {table : Nat → Bool} {s s' : CommandScheduler}
variable {p q : RoundState} {k r : Nat} {c : BusPacket}

/-! ## Streams -/

/-- The commands of a request, by their types: an activation, perhaps behind a precharge, and column
accesses of its direction, or only these. -/
inductive Segment : List BusPacketType → Prop
  | opens (pre read : Bool) (more : Nat) :
      Segment ((if pre then [.PRE] else []) ++
        roundACT read :: List.replicate (more + 1) (roundCAS read))
  | hits (read : Bool) (more : Nat) : Segment (List.replicate (more + 1) (roundCAS read))

/-- A stream up to some point, which may be within a segment. -/
def Streamed (types : List BusPacketType) : Prop :=
  ∃ segments : List (List BusPacketType), (∀ g ∈ segments, Segment g) ∧ types <+: segments.flatten

/-- After an activation comes a column access. -/
def Answered (t u : BusPacketType) : Prop := t.opensRow = true → u.isCas = true

theorem roundACT_opensRow (read : Bool) : (roundACT read).opensRow = true := by cases read <;> rfl

theorem roundCAS_isCas (read : Bool) : (roundCAS read).isCas = true := by cases read <;> rfl

theorem roundCAS_not_opensRow (read : Bool) : (roundCAS read).opensRow = false := by
  cases read <;> rfl

/-- Column accesses. -/
theorem hits_answered (read : Bool) (n : Nat) :
    (List.replicate n (roundCAS read)).IsChain Answered ∧
      ∀ t ∈ (List.replicate n (roundCAS read)).getLast?, t.opensRow = false := by
  constructor
  · apply List.isChain_replicate_of_rel
    intro opens
    rw [roundCAS_not_opensRow] at opens
    cases opens
  · intro t ht
    rw [List.eq_of_mem_replicate (List.mem_of_getLast? ht)]
    exact roundCAS_not_opensRow read

/-- A segment answers its activation, and does not end with one. -/
theorem Segment.answered {g : List BusPacketType} (segment : Segment g) :
    g.IsChain Answered ∧ ∀ t ∈ g.getLast?, t.opensRow = false := by
  cases segment with
  | hits read more => exact hits_answered read (more + 1)
  | opens pre read more =>
    obtain ⟨chain, last⟩ := hits_answered read (more + 1)
    have opened : (roundACT read :: List.replicate (more + 1) (roundCAS read)).IsChain Answered := by
      apply List.IsChain.cons chain
      intro t ht
      rw [List.eq_of_mem_replicate (List.mem_of_head? ht)]
      exact fun _ => roundCAS_isCas read
    have ends : ∀ t ∈ (roundACT read :: List.replicate (more + 1) (roundCAS read)).getLast?,
        t.opensRow = false := by
      rw [List.replicate_succ, List.getLast?_cons_cons, ← List.replicate_succ]
      exact last
    cases pre with
    | false => exact ⟨opened, ends⟩
    | true =>
      refine ⟨List.IsChain.cons opened ?_, ?_⟩
      · intro t _ opens
        cases opens
      · rw [if_pos rfl, List.singleton_append, List.getLast?_cons_cons]
        exact ends

/-- **In a stream, a column access follows each activation.** -/
theorem Streamed.answered {types : List BusPacketType} (streamed : Streamed types) :
    types.IsChain Answered := by
  obtain ⟨segments, each, cut⟩ := streamed
  refine List.IsChain.infix ?_ cut.isInfix
  clear cut
  induction segments with
  | nil => exact .nil
  | cons g segments ih =>
    obtain ⟨here, later⟩ := List.forall_mem_cons.mp each
    obtain ⟨chain, last⟩ := here.answered
    rw [List.flatten_cons]
    apply chain.append (ih later)
    intro t ht _ _ opens
    rw [last t ht] at opens
    cases opens

/-! ## The registers -/

/-- The requestor's activation is latched. -/
def Opens (p : RoundState) (k : Nat) : Prop :=
  ∃ c, p.tempqueue k = some c ∧ c.busPacketType.opensRow = true

/-- The requestor's activation is latched, or its column access. -/
def Waits (p : RoundState) (k : Nat) : Prop :=
  ∃ c, p.tempqueue k = some c ∧ (c.busPacketType.opensRow = true ∨ c.busPacketType.isCas = true)

/-- What the registers say, given whose last command was an activation: the pending requestors are those
with a command latched, `Order` lists once who waits or has its activation sent, and `closestatemap` is
set for whose activation is latched or sent. -/
structure Registers (opened : Nat → Prop) (p : RoundState) : Prop where
  pending : ∀ k, p.queuePending k = (p.tempqueue k).isSome
  once : p.Order.Nodup
  listed : ∀ k, k ∈ p.Order ↔ Waits p k ∨ opened k
  closed : ∀ k, p.closestatemap k = true ↔ Opens p k ∨ opened k

variable {opened opened' : Nat → Prop}

theorem registers_init (opened : Nat → Prop) (nobody : ∀ k, ¬ opened k) : Registers opened {} := by
  refine ⟨fun _ => rfl, .nil, fun k => ?_, fun k => ?_⟩
  · simp [Waits, nobody]
  · simp [Opens, nobody]

/-- Only these registers matter. -/
theorem Registers.flags (registers : Registers opened p) (same : FlagsOnly p q) :
    Registers opened q := by
  obtain ⟨pending, once, listed, closed⟩ := registers
  refine ⟨?_, ?_, ?_, ?_⟩
  · rw [same.queuePending, same.tempqueue]
    exact pending
  · rw [same.Order]
    exact once
  · unfold Waits
    rw [same.Order, same.tempqueue]
    exact listed
  · unfold Opens
    rw [same.closestatemap, same.tempqueue]
    exact closed

/-- Whoever is not pending has nothing latched. -/
theorem Registers.free (registers : Registers opened p) (free : p.queuePending k = false) :
    p.tempqueue k = none := by
  rw [registers.pending] at free
  exact Option.isSome_eq_false_iff.mp free |> Option.isNone_iff_eq_none.mp

/-- A latched command, seen by another requestor and by its own. -/
theorem latched_iff {P : BusPacket → Prop} (same : q.tempqueue = assign p.tempqueue r (some c)) (k : Nat) :
    (∃ d, q.tempqueue k = some d ∧ P d) ↔
      if k = r then P c else ∃ d, p.tempqueue k = some d ∧ P d := by
  rw [same]
  by_cases own : k = r
  · simp [assign, own]
  · simp [assign, own]

/-- **Latching** a front of a requestor that has nothing latched. If it is an activation, the last command
sent of the requestor was none. -/
theorem Registers.latchCommand (registers : Registers opened p)
    (free : p.queuePending c.requestorID = false)
    (fresh : c.busPacketType.opensRow = true → ¬ opened c.requestorID) :
    Registers opened (latchCommand p c) := by
  have nothing := registers.free free
  have unlisted : c.requestorID ∈ p.Order ↔ opened c.requestorID := by
    rw [registers.listed]
    simp [Waits, nothing]
  have unset : p.closestatemap c.requestorID = true ↔ opened c.requestorID := by
    rw [registers.closed]
    simp [Opens, nothing]
  have queue : (Round.latchCommand p c).tempqueue = assign p.tempqueue c.requestorID (some c) :=
    latchCommand_tempqueue p c
  have flags : (Round.latchCommand p c).queuePending = assign p.queuePending c.requestorID true := by
    unfold Round.latchCommand
    dsimp only
    split
    case h_3 | h_4 => split <;> rfl
    all_goals rfl
  -- what is left is how the command changes the two registers
  suffices change : (Round.latchCommand p c).Order.Nodup ∧
      (∀ k, k ∈ (Round.latchCommand p c).Order ↔ k ∈ p.Order ∨ k = c.requestorID ∧
        (c.busPacketType.opensRow = true ∨ c.busPacketType.isCas = true)) ∧
      ∀ k, (Round.latchCommand p c).closestatemap k = true ↔
        p.closestatemap k = true ∨ k = c.requestorID ∧ c.busPacketType.opensRow = true by
    obtain ⟨once, listed, closed⟩ := change
    refine ⟨fun k => ?_, once, fun k => ?_, fun k => ?_⟩
    · rw [flags, queue]
      by_cases own : k = c.requestorID
      · simp [assign, own]
      · simp [assign, own, registers.pending]
    · rw [listed, Waits, latched_iff queue]
      by_cases own : k = c.requestorID
      · simp only [own, true_and, if_true, unlisted]
        exact or_comm
      · simp only [own, false_and, or_false, if_false]
        exact registers.listed k
    · rw [closed, Opens, latched_iff queue]
      by_cases own : k = c.requestorID
      · simp only [own, true_and, if_true, unset]
        exact or_comm
      · simp only [own, false_and, or_false, if_false]
        exact registers.closed k
  have joins : ¬ opened c.requestorID → (p.Order ++ [c.requestorID]).Nodup := by
    intro closed
    have absent := mt unlisted.mp closed
    exact List.nodup_append_comm.mp (List.nodup_cons.mpr ⟨absent, registers.once⟩)
  unfold Round.latchCommand
  dsimp only
  split
  case h_1 type | h_2 type =>
    refine ⟨joins (fresh (by rw [type]; rfl)), fun k => ?_, fun k => ?_⟩
    · simp [type, BusPacketType.opensRow]
    · by_cases own : k = c.requestorID
      · simp [assign, own, type, BusPacketType.opensRow]
      · simp [assign, own]
  case h_3 type | h_4 type =>
    have cas : c.busPacketType.opensRow = false ∧ c.busPacketType.isCas = true := by
      rw [type]
      exact ⟨rfl, rfl⟩
    split
    · -- the activation's place is the column access's
      next set =>
      refine ⟨registers.once, fun k => ?_, fun k => by simp [cas.1]⟩
      constructor
      · exact .inl
      · rintro (here | ⟨rfl, _⟩)
        · exact here
        · exact unlisted.mpr (unset.mp set)
    · next clear =>
      exact ⟨joins (mt unset.mpr clear), fun k => by simp [cas.2], fun k => by simp [cas.1]⟩
  case h_5 notACT_R notACT_W notRD notWR =>
    have other : c.busPacketType.opensRow = false ∧ c.busPacketType.isCas = false := by
      cases type : c.busPacketType <;> first | exact ⟨rfl, rfl⟩ | exact absurd type (by assumption)
    exact ⟨registers.once, fun k => by simp [other.1, other.2], fun k => by simp [other.1]⟩

/-! ## Sending -/

/-- Whose last command was an activation, once a command was sent. -/
def sentLast (opened : Nat → Prop) (c : BusPacket) (k : Nat) : Prop :=
  if k = c.requestorID then c.busPacketType.opensRow = true else opened k

/-- A command leaves the registers: its requestor is free again, and stands in `Order` and in
`closestatemap` exactly if the command was an activation. -/
theorem Registers.sent (registers : Registers opened p)
    (frees : q.tempqueue = assign p.tempqueue c.requestorID none)
    (lowers : q.queuePending = assign p.queuePending c.requestorID false) (once : q.Order.Nodup)
    (place : ∀ k, k ∈ q.Order ↔
      if k = c.requestorID then c.busPacketType.opensRow = true else k ∈ p.Order)
    (flag : ∀ k, q.closestatemap k = true ↔
      if k = c.requestorID then c.busPacketType.opensRow = true else p.closestatemap k = true) :
    Registers (sentLast opened c) q := by
  refine ⟨fun k => ?_, once, fun k => ?_, fun k => ?_⟩
  · rw [frees, lowers]
    by_cases own : k = c.requestorID
    · simp [assign, own]
    · simp [assign, own, registers.pending]
  · rw [place, Waits, frees]
    by_cases own : k = c.requestorID
    · simp [sentLast, assign, own]
    · simp only [sentLast, assign, own, if_false]
      exact registers.listed k
  · rw [flag, Opens, frees]
    by_cases own : k = c.requestorID
    · simp [sentLast, assign, own]
    · simp only [sentLast, assign, own, if_false]
      exact registers.closed k

/-- An activation moves timers only. -/
theorem settle_row (spec : DeviceSpec) (clock : Nat) (p : RoundState) {chosen : Choice}
    (opens : chosen.command.busPacketType.opensRow = true) :
    FlagsOnly p (settle spec clock p chosen false) := by
  have counted := countActivation_flags spec { p with first := false }
  have same : settle spec clock p chosen false = countActivation spec { p with first := false } := by
    rcases BusPacketType.opensRow_iff.mp opens with type | type <;> simp [settle, type]
  rw [same]
  exact ⟨counted.tempqueue, counted.OrderPRE, counted.Order, counted.closestatemap,
    counted.queuePending⟩

/-- A column access gives up its requestor's place and flag. -/
theorem settle_cas (spec : DeviceSpec) (clock : Nat) (p : RoundState) {chosen : Choice}
    (cas : chosen.command.busPacketType.isCas = true) :
    (settle spec clock p chosen false).Order = p.Order.eraseIdx chosen.i ∧
      (settle spec clock p chosen false).closestatemap =
        assign p.closestatemap chosen.command.requestorID false ∧
      (settle spec clock p chosen false).queuePending = p.queuePending := by
  unfold settle
  rw [if_neg Bool.false_ne_true]
  rcases BusPacketType.isCas_iff.mp cas with type | type <;> rw [type] <;> exact ⟨rfl, rfl, rfl⟩

/-- **An activation is sent.** -/
theorem Registers.sendRow (registers : Registers opened p) {chosen : Choice}
    (latched : p.tempqueue chosen.RR = some chosen.command)
    (named : chosen.command.requestorID = chosen.RR)
    (opens : chosen.command.busPacketType.opensRow = true) :
    Registers (sentLast opened chosen.command) (send_precedure spec s p chosen false).2.1 := by
  have same := settle_row spec s.clock p opens
  have waits : Waits p chosen.command.requestorID := ⟨chosen.command, named ▸ latched, .inl opens⟩
  have own : Opens p chosen.command.requestorID := ⟨chosen.command, named ▸ latched, opens⟩
  refine registers.sent ?_ ?_ ?_ (fun k => ?_) fun k => ?_
  · rw [named]
    exact congrArg (assign · chosen.RR none) same.tempqueue
  · exact congrArg (assign · _ false) same.queuePending
  · exact same.Order ▸ registers.once
  · have order : (send_precedure spec s p chosen false).2.1.Order = p.Order := same.Order
    rw [order]
    split
    · next here => exact iff_of_true ((registers.listed k).mpr (.inl (here ▸ waits))) opens
    · rfl
  · have flags : (send_precedure spec s p chosen false).2.1.closestatemap = p.closestatemap :=
      same.closestatemap
    rw [flags]
    split
    · next here => exact iff_of_true ((registers.closed k).mpr (.inl (here ▸ own))) opens
    · rfl

/-- **A column access is sent**: what goes from `Order` is its requestor's place. -/
theorem Registers.sendCAS (registers : Registers opened p) {chosen : Choice}
    (named : chosen.command.requestorID = chosen.RR) (place : p.Order[chosen.i]? = some chosen.RR)
    (cas : chosen.command.busPacketType.isCas = true) :
    Registers (sentLast opened chosen.command) (send_precedure spec s p chosen false).2.1 ∧
      chosen.command.requestorID ∈ p.Order ∧
      (send_precedure spec s p chosen false).2.1.Order =
        p.Order.erase chosen.command.requestorID := by
  obtain ⟨order, flags, pending⟩ := settle_cas spec s.clock p cas
  have closes : chosen.command.busPacketType.opensRow = false := by
    rcases BusPacketType.isCas_iff.mp cas with type | type <;> rw [type] <;> rfl
  obtain ⟨bound, here⟩ := List.getElem?_eq_some_iff.mp place
  have erased : (send_precedure spec s p chosen false).2.1.Order =
      p.Order.erase chosen.command.requestorID := by
    have first : (send_precedure spec s p chosen false).2.1.Order = p.Order.eraseIdx chosen.i := order
    rw [first, named, ← here]
    exact (registers.once.erase_getElem chosen.i bound).symm
  refine ⟨registers.sent ?_ ?_ ?_ (fun k => ?_) fun k => ?_, ?_, erased⟩
  · rw [named]
    exact congrArg (assign · chosen.RR none) (settle_tempqueue spec s.clock p chosen false)
  · exact congrArg (assign · _ false) pending
  · rw [erased]
    exact registers.once.erase _
  · rw [erased, registers.once.mem_erase_iff, closes]
    by_cases own : k = chosen.command.requestorID <;> simp [own]
  · have lowered : (send_precedure spec s p chosen false).2.1.closestatemap =
        assign p.closestatemap chosen.command.requestorID false := flags
    rw [lowered, closes]
    by_cases own : k = chosen.command.requestorID <;> simp [assign, own]
  · rw [named]
    exact List.mem_of_getElem? place

/-- **A precharge is sent** of a requestor whose last command was no activation. -/
theorem Registers.sendPRE (registers : Registers opened p) {chosen : Choice}
    (latched : p.tempqueue chosen.RR = some chosen.command)
    (named : chosen.command.requestorID = chosen.RR)
    (type : chosen.command.busPacketType = .PRE) (closed : ¬ opened chosen.command.requestorID) :
    Registers (sentLast opened chosen.command) (send_precedure spec s p chosen true).2.1 := by
  have closes : chosen.command.busPacketType.opensRow = false := by rw [type]; rfl
  rw [← named] at latched
  have unlisted : chosen.command.requestorID ∉ p.Order := by
    rw [registers.listed]
    simp [Waits, latched, type, closed, BusPacketType.opensRow]
  have unset : ¬ p.closestatemap chosen.command.requestorID = true := by
    rw [registers.closed]
    simp [Opens, latched, type, closed, BusPacketType.opensRow]
  refine registers.sent ?_ rfl registers.once (fun k => ?_) fun k => ?_
  · rw [named]
    rfl
  · have order : (send_precedure spec s p chosen true).2.1.Order = p.Order := rfl
    rw [order, closes]
    by_cases own : k = chosen.command.requestorID
    · simp [own, unlisted]
    · simp [own]
  · have flags : (send_precedure spec s p chosen true).2.1.closestatemap = p.closestatemap := rfl
    rw [flags, closes]
    by_cases own : k = chosen.command.requestorID
    · simp [own, unset]
    · simp [own]

/-- A command of the round stands where its requestor does. -/
theorem chooseRound_place {chosen : Choice} (h : chooseRound check s p = some chosen) :
    p.Order[chosen.i]? = some chosen.RR := by
  have row : ∀ {place chosen}, place ∈ p.Order.zipIdx → rowChoice check s p place = some chosen →
      p.Order[chosen.i]? = some chosen.RR := by
    intro place chosen listed h
    obtain ⟨c, _, h⟩ := Option.bind_eq_some_iff.mp h
    split at h
    · cases h
      exact List.mem_zipIdx_iff_getElem?.mp listed
    · cases h
  obtain ⟨place, listed, h⟩ := List.exists_of_findSome?_eq_some h
  rcases Option.or_eq_some_iff.mp h with h | ⟨_, h⟩
  · exact row listed h
  · obtain ⟨c, _, h⟩ := Option.bind_eq_some_iff.mp h
    split at h
    · rcases Option.or_eq_some_iff.mp h with h | ⟨_, h⟩
      · obtain ⟨place', listed', h⟩ := List.exists_of_findSome?_eq_some h
        exact row listed' h
      · split at h
        · cases h
          exact List.mem_zipIdx_iff_getElem?.mp listed
        · cases h
    · cases h

/-! ## Runs -/

/-- The commands inserted for a requestor. -/
def streamOf (k : Nat) (calls : List SchedulerCall) : List BusPacket :=
  calls.filterMap fun call => (call.inserted.map Prod.fst).filter fun c => c.requestorID = k

/-- The commands sent of a requestor. -/
def sentOf (k : Nat) (told : List (Option (Option BusPacket))) : List BusPacket :=
  told.filterMap fun o => o.join.filter fun c => c.requestorID = k

/-- The last command sent of the requestor is an activation: its column access is still to come. -/
def Opened (told : List (Option (Option BusPacket))) (k : Nat) : Prop :=
  ∃ c, (sentOf k told).getLast? = some c ∧ c.busPacketType.opensRow = true

variable {calls : List SchedulerCall} {told : List (Option (Option BusPacket))}

theorem sentOf_none (k : Nat) (told : List (Option (Option BusPacket)))
    {o : Option (Option BusPacket)} (nothing : o.join = none) : sentOf k (told ++ [o]) = sentOf k told := by
  simp [sentOf, nothing]

theorem sentOf_some (k : Nat) (told : List (Option (Option BusPacket))) (c : BusPacket) :
    sentOf k (told ++ [some (some c)]) =
      if k = c.requestorID then sentOf k told ++ [c] else sentOf k told := by
  by_cases own : k = c.requestorID
  · simp [sentOf, own, Option.filter]
  · simp [sentOf, own, Ne.symm own]

theorem opened_none (told : List (Option (Option BusPacket))) {o : Option (Option BusPacket)}
    (nothing : o.join = none) : Opened (told ++ [o]) = Opened told := by
  funext k
  unfold Opened
  rw [sentOf_none k told nothing]

theorem opened_some (told : List (Option (Option BusPacket))) (c : BusPacket) :
    Opened (told ++ [some (some c)]) = sentLast (Opened told) c := by
  funext k
  unfold Opened sentLast
  rw [sentOf_some]
  by_cases own : k = c.requestorID
  · simp [own]
  · simp [own]

/-- What a run has made of the buffers and the registers: a requestor's stream is what was sent of it and
what still waits, and what is latched of it is the front. -/
structure Bookkeeping (calls : List SchedulerCall) (st : CommandScheduler × RoundState)
    (told : List (Option (Option BusPacket))) : Prop where
  shaped : st.1.Shaped true
  holds : st.1.Holds fun index _ => index = 0
  stream : ∀ k, sentOf k told ++ st.1.bufferOf 0 k = streamOf k calls
  head : ∀ k c, st.2.tempqueue k = some c → (st.1.bufferOf 0 k).head? = some c
  registers : Registers (Opened told) st.2

theorem bookkeeping_create (queueCount : Nat) (m : RefreshMachine) :
    Bookkeeping [] (CommandScheduler.create queueCount true m, {}) [] where
  shaped := shaped_create queueCount true m
  holds := holds_create _ queueCount true m
  stream k := by
    rw [bufferOf_create]
    rfl
  head _ _ h := nomatch h
  registers := registers_init _ fun _ ⟨_, last, _⟩ => nomatch last

/-- A front of any queue is the front of its requestor's buffer in the first one. -/
theorem Bookkeeping.front (book : Bookkeeping calls (s, p) told) {index num : Nat}
    (front : (s.commandQueue index).getRequestorCommand num = some c) :
    (s.bufferOf 0 c.requestorID).head? = some c := by
  obtain ⟨id, _, front⟩ := Option.bind_eq_some_iff.mp front
  have lane : s.bufferOf index id = (s.commandQueue index).buffer id := by
    rw [bufferOf, CommandQueue.lane, CommandQueue.isPerRequestor, (book.shaped index).kind, if_pos rfl]
  have inside : c ∈ (s.commandQueue index).buffer id := List.mem_of_mem_head? front
  have own : c.requestorID = id := (book.shaped index).owned id c inside
  have first : index = 0 := book.holds index id c (lane ▸ inside)
  subst first
  rw [own, lane]
  exact front

/-- **What the stream says**: behind an activation that was sent, a column access waits. -/
theorem Bookkeeping.answers (book : Bookkeeping calls (s, p) told)
    (streamed : Streamed ((streamOf k calls).map BusPacket.busPacketType)) (opened : Opened told k)
    (front : (s.bufferOf 0 k).head? = some c) : c.busPacketType.isCas = true := by
  obtain ⟨a, last, opens⟩ := opened
  have chain := streamed.answered
  rw [← book.stream k, List.map_append] at chain
  have here := (List.isChain_append.mp chain).2.2 a.busPacketType ?_ c.busPacketType ?_
  · exact here opens
  · rw [List.getLast?_map, last]
    rfl
  · rw [List.head?_map, front]
    rfl

/-- The command latched of a requestor is that requestor's. -/
theorem Bookkeeping.named (book : Bookkeeping calls (s, p) told) : Named p := by
  intro k c latched
  have front := book.head k c latched
  apply (book.shaped 0).owned k c
  rw [bufferOf, CommandQueue.lane, CommandQueue.isPerRequestor, (book.shaped 0).kind, if_pos rfl] at front
  exact List.mem_of_mem_head? front

/-! ### A call, up to the choice -/

theorem Bookkeeping.latchFront (book : Bookkeeping calls (s, p) told)
    (streams : ∀ k, Streamed ((streamOf k calls).map BusPacket.busPacketType)) (index num : Nat) :
    Bookkeeping calls (s, latchFront s index p num) told := by
  unfold Round.latchFront
  split
  · exact book
  · next c front =>
    split
    · next asked =>
      have head := book.front front
      have free : p.queuePending c.requestorID = false := by
        simpa using (Bool.and_eq_true_iff.mp asked).1
      refine { book with head := fun k d latched => ?_, registers := ?_ }
      · dsimp only at latched
        rw [latchCommand_tempqueue, assign] at latched
        split at latched
        · next own =>
          cases latched
          rw [own]
          exact head
        · exact book.head k d latched
      · apply book.registers.latchCommand free
        intro opens opened
        have cas := book.answers (streams c.requestorID) opened head
        rcases BusPacketType.opensRow_iff.mp opens with type | type <;> rw [type] at cas <;> cases cas
    · exact book

/-- A phase that changes flags only. -/
theorem Bookkeeping.flags (book : Bookkeeping calls (s, p) told) (same : FlagsOnly p q) :
    Bookkeeping calls (s, q) told :=
  { book with
    head := fun k c latched => book.head k c (same.tempqueue ▸ latched)
    registers := book.registers.flags same }

/-- **A call, seen before it sends.** -/
theorem Bookkeeping.prepare (book : Bookkeeping calls (s, p) told)
    (streams : ∀ k, Streamed ((streamOf k calls).map BusPacket.busPacketType)) (spec : DeviceSpec) :
    Bookkeeping calls (s, prepare spec s p) told := by
  have counted : Bookkeeping calls (s, countdown p) told := book.flags ⟨rfl, rfl, rfl, rfl, rfl⟩
  have latched : Bookkeeping calls (s, latch s (countdown p)) told :=
    foldl_keeps (fun p => Bookkeeping calls (s, p) told)
      (fun _ index book => foldl_keeps (fun p => Bookkeeping calls (s, p) told)
        (fun _ num book => book.latchFront streams index num) book _) counted _
  exact latched.flags (prepare_flags spec s p)

/-! ### What is sent -/

/-- A command that is latched leaves its buffer. -/
theorem Bookkeeping.sent (book : Bookkeeping calls (s, p) told) (spec : DeviceSpec) {chosen : Choice}
    {pre : Bool} (latched : p.tempqueue chosen.RR = some chosen.command)
    (registers : Registers (sentLast (Opened told) chosen.command)
      (send_precedure spec s p chosen pre).2.1) :
    Bookkeeping calls
      ((send_precedure spec s p chosen pre).1, (send_precedure spec s p chosen pre).2.1)
      (told ++ [some (some chosen.command)]) := by
  have own : chosen.command.requestorID = chosen.RR := book.named _ _ latched
  have head := book.head _ _ latched
  obtain ⟨shaped, buffers⟩ := book.shaped.issue spec (chosen.command, 0)
  have buffer : ∀ k, (s.issue spec chosen.command 0).bufferOf 0 k =
      if k = chosen.RR then (s.bufferOf 0 k).tail else s.bufferOf 0 k := by
    intro k
    have here := buffers 0 k
    by_cases same : k = chosen.RR
    · simpa [Entry.inBuffer, own, same] using here
    · simpa [Entry.inBuffer, own, same, Ne.symm same] using here
  refine ⟨shaped, book.holds.issue book.shaped spec (chosen.command, 0), fun k => ?_, fun k c hc => ?_, ?_⟩
  · have before := book.stream k
    have now := buffer k
    rw [sentOf_some, own]
    show _ ++ (s.issue spec chosen.command 0).bufferOf 0 k = _
    rw [now, ← before]
    by_cases same : k = chosen.RR
    · subst same
      obtain ⟨rest, front⟩ := List.head?_eq_some_iff.mp head
      simp [front]
    · simp [same]
  · show ((s.issue spec chosen.command 0).bufferOf 0 k).head? = some c
    rw [buffer]
    dsimp only [send_precedure, assign] at hc
    split at hc
    · cases hc
    · next other =>
      rw [settle_tempqueue] at hc
      rw [if_neg other]
      exact book.head k c hc
  · rw [opened_some]
    exact registers

/-- **A command of the round is sent.** A column access takes its requestor's place along. -/
theorem Bookkeeping.sendRound (book : Bookkeeping calls (s, p) told) (spec : DeviceSpec)
    {chosen : Choice} (h : chooseRound check s p = some chosen) :
    Bookkeeping calls
        ((send_precedure spec s p chosen false).1, (send_precedure spec s p chosen false).2.1)
        (told ++ [some (some chosen.command)]) ∧
      (chosen.command.busPacketType.isCas = true → chosen.command.requestorID ∈ p.Order ∧
        (send_precedure spec s p chosen false).2.1.Order =
          p.Order.erase chosen.command.requestorID) := by
  obtain ⟨latched, act | ⟨type, _⟩⟩ := chooseRound_spec h
  · have opens : chosen.command.busPacketType.opensRow = true := by
      rw [act]
      exact roundACT_opensRow p.roundType
    have own := book.named _ _ latched
    refine ⟨book.sent spec latched (book.registers.sendRow latched own opens), fun cas => ?_⟩
    rw [act, roundACT_not_cas] at cas
    cases cas
  · have own := book.named _ _ latched
    have cas : chosen.command.busPacketType.isCas = true := by
      rw [type]
      exact roundCAS_isCas p.roundType
    have settled : Registers (sentLast _ chosen.command) (send_precedure spec s p chosen false).2.1 ∧ _ :=
      book.registers.sendCAS own (chooseRound_place h) cas
    obtain ⟨registers, listed, erased⟩ := settled
    exact ⟨book.sent spec latched registers, fun _ => ⟨listed, erased⟩⟩

/-- **A precharge is sent.** -/
theorem Bookkeeping.sendPRE (book : Bookkeeping calls (s, p) told)
    (streams : ∀ k, Streamed ((streamOf k calls).map BusPacket.busPacketType)) (spec : DeviceSpec)
    {chosen : Choice} (h : choosePRE check s p = some chosen) :
    Bookkeeping calls
      ((send_precedure spec s p chosen true).1, (send_precedure spec s p chosen true).2.1)
      (told ++ [some (some chosen.command)]) := by
  obtain ⟨latched, type, _⟩ := choosePRE_split h
  have own := book.named _ _ latched
  refine book.sent spec latched (book.registers.sendPRE latched own type ?_)
  intro opened
  have head := book.head _ _ latched
  rw [← own] at head
  have cas := book.answers (streams _) opened head
  rw [type] at cas
  cases cas

/-! ### Steps -/

/-- A call that inserts nothing leaves every stream as it is. -/
theorem streamOf_quiet (k : Nat) (calls : List SchedulerCall) {call : SchedulerCall}
    (quiet : call.inserted = none) : streamOf k (calls ++ [call]) = streamOf k calls := by
  simp [streamOf, quiet]

/-- **The calls that the base class answers.** -/
theorem Bookkeeping.base (book : Bookkeeping calls (s, p) told) {call : SchedulerCall}
    (fit : call.Inserts fun index _ => index = 0) (step : BaseStep spec table s call s') :
    Bookkeeping (calls ++ [call]) (s', p) (told ++ [none]) := by
  have latching : Latching true (fun index _ => index = 0) Entry.requestor s [] fun _ => false :=
    ⟨book.shaped, book.holds, .empty _ s⟩
  have kept := latching.base (fun per => nomatch per) fit step
  suffices buffers : ∀ k, ∃ more, s'.bufferOf 0 k = s.bufferOf 0 k ++ more ∧
      streamOf k (calls ++ [call]) = streamOf k calls ++ more by
    refine ⟨kept.shaped, kept.holds, fun k => ?_, fun k c latched => ?_, ?_⟩
    · obtain ⟨more, buffer, stream⟩ := buffers k
      show _ ++ s'.bufferOf 0 k = _
      rw [sentOf_none k told rfl, buffer, stream, ← book.stream k, List.append_assoc]
    · obtain ⟨more, buffer, _⟩ := buffers k
      show (s'.bufferOf 0 k).head? = some c
      rw [buffer, List.head?_append, book.head k c latched]
      rfl
    · rw [opened_none told rfl]
      exact book.registers
  intro k
  cases step with
  | @insertCommand index command bound =>
    have first : index = 0 := fit (command, index) rfl
    subst first
    have served : true = false → table command.requestorID = true := fun per => nomatch per
    obtain ⟨_, buffer⟩ := book.shaped.insertCommand (command, 0) served
    by_cases own : k = command.requestorID
    · refine ⟨[command], ?_, ?_⟩
      · rw [buffer, own]
        simp [Entry.inBuffer]
      · simp [streamOf, SchedulerCall.inserted, own, Option.filter]
    · refine ⟨[], ?_, ?_⟩
      · rw [buffer]
        simp [Entry.inBuffer, Ne.symm own]
      · simp [streamOf, SchedulerCall.inserted, Ne.symm own]
  | refresh check =>
    refine ⟨[], ?_, ?_⟩
    · rw [bufferOf_refresh, List.append_nil]
    · rw [streamOf_quiet k calls rfl, List.append_nil]
  | tick =>
    refine ⟨[], ?_, ?_⟩
    · rw [book.shaped.bufferOf_tick, List.append_nil]
    · rw [streamOf_quiet k calls rfl, List.append_nil]

/-- **One call** of a run whose streams are made of segments. -/
theorem Bookkeeping.step (book : Bookkeeping calls (s, p) told)
    (streams : ∀ k, Streamed ((streamOf k calls).map BusPacket.busPacketType)) {call : SchedulerCall}
    {st : CommandScheduler × RoundState} {o : Option (Option BusPacket)}
    (fit : call.Inserts fun index _ => index = 0)
    (h : (schedule spec).step spec table (s, p) call = some (st, o)) :
    Bookkeeping (calls ++ [call]) st (told ++ [o]) := by
  obtain ⟨s', base, rfl, rfl⟩ | ⟨check, s', p', out, rfl, scheduled, rfl, rfl⟩ :=
    Scheduling.step_cases h
  · exact book.base fit base
  · have same : ∀ k, streamOf k (calls ++ [.commandSchedule check]) = streamOf k calls :=
      fun k => streamOf_quiet k calls rfl
    have prepared := book.prepare streams spec
    have called : Bookkeeping (calls ++ [.commandSchedule check])
        ({ s with scheduledCommand := none }, Round.prepare spec s p) told :=
      ⟨prepared.shaped, prepared.holds, fun k => (prepared.stream k).trans (same k).symm, prepared.head,
        prepared.registers⟩
    have streams' : ∀ k, Streamed
        ((streamOf k (calls ++ [.commandSchedule check])).map BusPacket.busPacketType) := by
      intro k
      rw [same]
      exact streams k
    have sent := Option.some.inj scheduled
    unfold send at sent
    split at sent
    · next chosen round =>
      cases sent
      exact (called.sendRound spec round).1
    · split at sent
      · next chosen pre =>
        cases sent
        exact called.sendPRE streams' spec pre
      · cases sent
        refine ⟨called.shaped, called.holds, fun k => ?_, called.head, ?_⟩
        · rw [sentOf_none k told rfl]
          exact called.stream k
        · rw [opened_none told rfl]
          exact called.registers

theorem Streamed.of_cut {types types' : List BusPacketType} (streamed : Streamed types')
    (cut : types <+: types') : Streamed types := by
  obtain ⟨segments, each, whole⟩ := streamed
  exact ⟨segments, each, cut.trans whole⟩

/-- **The bookkeeping of `Order`.** Every requestor's commands come in segments, in the first queue, from
which all commands are sent. In every state that a run reaches, with any answers of the device: `Order`
lists nobody twice, and lists exactly the requestors that have an activation or a column access latched,
or an activation sent and its column access still to come; `closestatemap` is set exactly for those whose
activation is latched, or sent with its column access still to come; and a call that sends a column
access takes from `Order` the place of its requestor, and nothing else. -/
theorem order_bookkeeping (spec : DeviceSpec) (table : Nat → Bool) (queueCount : Nat)
    (m : RefreshMachine) {calls : List SchedulerCall} {s : CommandScheduler} {p : RoundState}
    {told : List (Option (Option BusPacket))}
    (streams : ∀ k, Streamed ((streamOf k calls).map BusPacket.busPacketType))
    (first : ∀ call ∈ calls, call.Inserts fun index _ => index = 0)
    (ran : Lib.Machine.run ((schedule spec).step spec table)
      (CommandScheduler.create queueCount true m, {}) calls = some ((s, p), told)) :
    p.Order.Nodup ∧ (∀ k, k ∈ p.Order ↔ Waits p k ∨ Opened told k) ∧
      (∀ k, p.closestatemap k = true ↔ Opens p k ∨ Opened told k) ∧
      ∀ check s' p' c, schedule spec check s p = some (s', p', some c) →
        c.busPacketType.isCas = true →
        (prepare spec s p).Order.Nodup ∧ c.requestorID ∈ (prepare spec s p).Order ∧
          p'.Order = (prepare spec s p).Order.erase c.requestorID := by
  have history : (∀ k, Streamed ((streamOf k calls).map BusPacket.busPacketType)) →
      (∀ call ∈ calls, call.Inserts fun index _ => index = 0) → Bookkeeping calls (s, p) told := by
    refine Lib.Machine.run_history (fun calls st told =>
      (∀ k, Streamed ((streamOf k calls).map BusPacket.busPacketType)) →
        (∀ call ∈ calls, call.Inserts fun index _ => index = 0) → Bookkeeping calls st told)
      ?_ (fun _ _ => bookkeeping_create queueCount m) ran
    intro calls st told call st' o history h streams first
    have before : ∀ k, Streamed ((streamOf k calls).map BusPacket.busPacketType) := by
      intro k
      refine (streams k).of_cut (List.IsPrefix.map _ ?_)
      exact ⟨streamOf k [call], (List.filterMap_append ..).symm⟩
    have book := history before fun c hc => first c (List.mem_append_left _ hc)
    exact book.step before (first call (List.mem_append_right _ List.mem_cons_self)) h
  have book := history streams first
  refine ⟨book.registers.once, book.registers.listed, book.registers.closed, ?_⟩
  intro check s' p' c scheduled cas
  have prepared := book.prepare streams spec
  have called : Bookkeeping calls ({ s with scheduledCommand := none }, prepare spec s p) told :=
    ⟨prepared.shaped, prepared.holds, prepared.stream, prepared.head, prepared.registers⟩
  have sent := Option.some.inj scheduled
  unfold send at sent
  split at sent
  · next chosen round =>
    cases sent
    obtain ⟨listed, erased⟩ := (called.sendRound spec round).2 cas
    exact ⟨prepared.registers.once, listed, erased⟩
  · split at sent
    · next chosen pre =>
      cases sent
      rw [choosePRE_spec pre] at cas
      cases cas
    · cases sent

/-- A read that opens its row is inserted, and the device takes the activation. -/
def openedRead : List SchedulerCall :=
  [.insert 0 .ACT_R 0 0, .insert 0 .RD 0 0, .commandSchedule fun _ => true]

/-- The law where the activation was sent and the read is still to come. -/
theorem order_bookkeeping_openedRead :
    ∃ s p told, Lib.Machine.run sampleRound sampleStart openedRead = some ((s, p), told) ∧
      p.Order = [0] ∧ Opened told 0 ∧ p.Order.Nodup ∧ (∀ k, k ∈ p.Order ↔ Waits p k ∨ Opened told k) ∧
      p.closestatemap 0 = true := by
  obtain ⟨⟨s, p⟩, told, ran, order, opened⟩ := Lib.Machine.run_exists_told sampleRound
    (fun st told => st.2.Order = [0] ∧
      ((sentOf 0 told).getLast?.any fun c => c.busPacketType.opensRow) = true)
    sampleStart openedRead (by decide +kernel)
  obtain ⟨c, last, opens⟩ := (Option.any_eq_true _ _).mp opened
  have streams : ∀ k, Streamed ((streamOf k openedRead).map BusPacket.busPacketType) := by
    intro k
    by_cases own : k = 0
    · subst own
      refine ⟨[[.ACT_R, .RD]], ?_, List.prefix_rfl⟩
      intro g hg
      rw [List.mem_singleton.mp hg]
      exact .opens false true 0
    · have none_of : streamOf k openedRead = [] := by
        simp [streamOf, openedRead, SchedulerCall.insert, SchedulerCall.inserted, sampleCommand,
          Ne.symm own]
      rw [none_of]
      refine ⟨[], ?_, List.nil_prefix⟩
      intro g hg
      cases hg
  have first : ∀ call ∈ openedRead, call.Inserts fun index _ => index = 0 := by
    intro call hc e he
    simp only [openedRead, List.mem_cons, List.not_mem_nil, or_false] at hc
    rcases hc with rfl | rfl | rfl <;> cases he <;> rfl
  obtain ⟨once, listed, closed, _⟩ := order_bookkeeping openPageSetup.device (fun _ => true) 1
    (.create .none openPageSetup.device 0 0) streams first ran
  exact ⟨s, p, told, ran, order, ⟨c, last, opens⟩, once, listed,
    (closed 0).mpr (.inr ⟨c, last, opens⟩)⟩

end Round
end MCsim
