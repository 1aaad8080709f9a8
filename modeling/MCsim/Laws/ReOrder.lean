import MCsim.Laws.Latch
import MCsim.Schedulers.ReOrder
import MCsim.Setups

/-!
# Bounded bypass of ReOrder

With a queue for each bank and critical requestors only, `commandRegisters` holds latched heads, each
registered under its bank. A bank is served once a round: sending a column access sets its bank's
served flag, a served bank's column access is not chosen, and the flags are reset only in a call whose
survey finds no unserved column access registered. So while one bank's column access waits unserved,
every other bank gets one at most.
-/

namespace MCsim
namespace ReOrder

open CommandScheduler

variable {requestorCriticalTable : Nat → Bool}

/-- The register holds a column access whose bank is not served. -/
def Unserved (p : ReOrderState) (e : Entry) : Prop :=
  e.1.busPacketType.beforeACT = true ∧ p.servedFlags e.1.bank = false

/-! ## The survey -/

/-- What a survey from flags `v` to flags `v'` says of the registers: a new round is found only where
nothing is unserved, a new type only where nothing of the current type is, and another column access
only where there is one. -/
structure Surveyed (p : ReOrderState) (l : List Entry) (v v' : Survey) : Prop where
  round : v'.newRound = true → v.newRound = true ∧ ∀ e ∈ l, ¬ Unserved p e
  type : v'.newType = true →
    v.newType = true ∧ ∀ e ∈ l, e.1.busPacketType = p.bundlingType → ¬ Unserved p e
  cas : v'.newCAS = true →
    v.newCAS = true ∨ ∃ e ∈ l, Unserved p e ∧ e.1.busPacketType ≠ p.bundlingType

/-- A register that is not unserved is passed over. -/
theorem Surveyed.pass {p : ReOrderState} {e : Entry} {rest : List Entry} {v v' : Survey}
    (surveyed : Surveyed p rest v v') (other : ¬ Unserved p e) : Surveyed p (e :: rest) v v' := by
  refine ⟨fun h => ?_, fun h => ?_, fun h => ?_⟩
  · obtain ⟨before, none⟩ := surveyed.round h
    exact ⟨before, List.forall_mem_cons.mpr ⟨other, none⟩⟩
  · obtain ⟨before, none⟩ := surveyed.type h
    exact ⟨before, List.forall_mem_cons.mpr ⟨fun _ => other, none⟩⟩
  · exact (surveyed.cas h).imp_right fun ⟨d, hd, found⟩ => ⟨d, List.mem_cons_of_mem e hd, found⟩

section Survey

variable {p : ReOrderState} (critical : ∀ id, requestorCriticalTable id = true)

include critical

/-- What the survey reads of a register that stands under its bank. -/
theorem surveyCell_eq {e : Entry} (banked : e.2 = e.1.bank) :
    surveyCell requestorCriticalTable p e = e.1.bank := by
  rw [surveyCell, critical, if_pos rfl, banked]

theorem serveCell_eq (c : BusPacket) : serveCell requestorCriticalTable p c = c.bank := by
  rw [serveCell, critical, if_pos rfl]

theorem survey_surveyed {l : List Entry} (banked : ∀ e ∈ l, e.2 = e.1.bank) (v : Survey) :
    Surveyed p l v (survey requestorCriticalTable p l v) := by
  induction l generalizing v with
  | nil => exact ⟨fun h => ⟨h, fun _ he => absurd he List.not_mem_nil⟩,
      fun h => ⟨h, fun _ he => absurd he List.not_mem_nil⟩, .inl⟩
  | cons e rest ih =>
    have tail := ih fun d hd => banked d (List.mem_cons_of_mem e hd)
    rw [survey, surveyCell_eq (p := p) critical (banked e List.mem_cons_self)]
    split
    · next cas =>
      split
      · next free =>
        split
        · exact ⟨fun h => absurd h Bool.false_ne_true, fun h => absurd h Bool.false_ne_true, .inl⟩
        · next other =>
          have later := tail { v with haveCAS := true, newRound := false, newCAS := true }
          refine ⟨fun h => absurd (later.round h).1 Bool.false_ne_true, fun h => ?_, fun _ => ?_⟩
          · obtain ⟨before, none⟩ := later.type h
            exact ⟨before, List.forall_mem_cons.mpr ⟨fun same => absurd same other, none⟩⟩
          · exact .inr ⟨e, List.mem_cons_self, ⟨cas, free⟩, other⟩
      · next served =>
        obtain ⟨round, type, cas⟩ := tail { v with haveCAS := true }
        exact Surveyed.pass ⟨round, type, cas⟩ fun h => served h.2
    · next row => exact (tail v).pass fun h => row h.1

end Survey

/-! ## The invariant -/

/-- What runs keep: the registers are latched heads, each bank's queue holds its commands, and nothing
waits for a virtual channel. -/
structure Inv (s : CommandScheduler) (p : ReOrderState) : Prop where
  latching : Latching false ofBank Entry.queue s p.commandRegisters p.queuePending
  channels : p.virChannelRegister = []
  srt : p.srtFIFO = []

variable {s s' : CommandScheduler} {p p' p₁ : ReOrderState} {spec : DeviceSpec} {check : Answers}

theorem inv_create (queueCount : Nat) (m : RefreshMachine) :
    Inv (CommandScheduler.create queueCount false m) {} :=
  ⟨.create false ofBank Entry.queue queueCount m, rfl, rfl⟩

/-- A register stands under its bank. -/
theorem Inv.banked (inv : Inv s p) {e : Entry} (he : e ∈ p.commandRegisters) : e.2 = e.1.bank :=
  (inv.latching.fits_entry he).symm

/-! ## Registering -/

/-- Registering adds latched heads behind the registers and changes nothing else. -/
structure Registers (s : CommandScheduler) (p p₁ : ReOrderState) : Prop where
  inv : Inv s p₁
  extends_ : p.commandRegisters <+: p₁.commandRegisters
  served : p₁.servedFlags = p.servedFlags
  type : p₁.bundlingType = p.bundlingType

section Prepare

variable (critical : ∀ id, requestorCriticalTable id = true)

include critical

theorem register_registers (registers : Registers s p p₁) (index : Nat) :
    ∃ p₂, register requestorCriticalTable (s, p₁) index = (s, p₂) ∧ Registers s p p₂ := by
  obtain ⟨⟨⟨shaped, holds, latched⟩, channels, srt⟩, extends_, served, type⟩ := registers
  unfold register
  dsimp only
  rw [shaped.freeFront]
  cases front : if p₁.queuePending index then none else (s.waiting index).head? with
  | none => exact ⟨p₁, rfl, ⟨⟨shaped, holds, latched⟩, channels, srt⟩, extends_, served, type⟩
  | some c =>
    obtain ⟨free, head⟩ := shaped.head_of_freeFront front
    dsimp only
    rw [critical c.requestorID]
    cases ready : s.isReady c index with
    | false => exact ⟨p₁, rfl, ⟨⟨shaped, holds, latched⟩, channels, srt⟩, extends_, served, type⟩
    | true =>
      have bank : c.bank = index := holds index _ c (List.mem_of_mem_head? head)
      refine ⟨_, rfl, ⟨⟨shaped, holds, ?_⟩, channels, srt⟩, ?_, served, type⟩
      · rw [bank]
        exact latched.push (e := (c, index)) head ready free fun _ => rfl
      · exact extends_.trans (List.prefix_append _ _)

theorem foldl_register (inv : Inv s p) (l : List Nat) :
    ∃ p₁, l.foldl (register requestorCriticalTable) (s, p) = (s, p₁) ∧ Registers s p p₁ := by
  refine List.foldlRecOn (motive := fun st => ∃ p₁, st = (s, p₁) ∧ Registers s p p₁) l _
    ⟨p, rfl, inv, List.prefix_refl _, rfl, rfl⟩ ?_
  rintro _ ⟨p₁, rfl, registers⟩ index _
  exact register_registers critical registers index

/-- **The first half of a call**: registering, then renewing. -/
theorem prepare_eq (inv : Inv s p) :
    ∃ p₁, prepare requestorCriticalTable s p = ({ s with scheduledCommand := none },
        renew requestorCriticalTable s.queueCount p₁) ∧
      Registers { s with scheduledCommand := none } p p₁ := by
  have cleared : Inv { s with scheduledCommand := none } p :=
    ⟨inv.latching.cleared none, inv.channels, inv.srt⟩
  obtain ⟨p₁, folded, registers⟩ := foldl_register critical cleared (List.range s.queueCount)
  refine ⟨p₁, ?_, registers⟩
  rw [prepare, folded]
  dsimp only
  rw [registers.inv.channels]
  rfl

/-- What renewing can change, and when. -/
theorem renew_spec (inv : Inv s p) (queueCount : Nat) :
    Inv s (renew requestorCriticalTable queueCount p) ∧
      (renew requestorCriticalTable queueCount p).commandRegisters = p.commandRegisters ∧
      ((∃ e ∈ p.commandRegisters, Unserved p e) →
        (renew requestorCriticalTable queueCount p).servedFlags = p.servedFlags) ∧
      ((renew requestorCriticalTable queueCount p).bundlingType ≠ p.bundlingType →
        (∀ e ∈ p.commandRegisters, e.1.busPacketType = p.bundlingType → ¬ Unserved p e) ∧
          ∃ e ∈ p.commandRegisters, Unserved p e ∧ e.1.busPacketType ≠ p.bundlingType) := by
  have surveyed := survey_surveyed (p := p) critical (fun e he => inv.banked he) {}
  unfold renew
  split
  · exact ⟨inv, rfl, fun _ => rfl, fun h => absurd rfl h⟩
  · refine ⟨⟨inv.latching, inv.channels, inv.srt⟩, rfl, ?_, fun changed => ?_⟩
    · rintro ⟨e, he, unserved⟩
      apply if_neg
      intro round
      exact (surveyed.round round).2 e he unserved
    · dsimp only at changed
      split at changed
      · next due =>
        obtain ⟨_, due⟩ := Bool.and_eq_true_iff.mp due
        obtain ⟨type, cas⟩ := Bool.and_eq_true_iff.mp due
        exact ⟨(surveyed.type type).2, (surveyed.cas cas).resolve_left Bool.false_ne_true⟩
      · exact absurd rfl changed

end Prepare

/-! ## Sending -/

/-- The state once a register is sent and `left` remain: its queue is free, and the bank of a column
access is served. -/
def served (p : ReOrderState) (e : Entry) (left : List Entry) : ReOrderState :=
  { p with
    commandRegisters := left
    queuePending := fun k => if k = e.2 then false else p.queuePending k
    servedFlags := fun b =>
      if e.1.busPacketType.beforeACT = true ∧ b = e.1.bank then true else p.servedFlags b }

/-- The second half of a call: nothing is sent, or a register leaves, and if it is a column access it
is of the bundle and its bank was not served before. -/
inductive Serves (spec : DeviceSpec) (s : CommandScheduler) (p : ReOrderState) :
    CommandScheduler → ReOrderState → Option BusPacket → Prop
  | idle : Serves spec s p s p none
  | send {e : Entry} {before after : List Entry}
      (split : p.commandRegisters = before ++ e :: after)
      (bundled : e.1.busPacketType.isCas = true →
        e.1.busPacketType = p.bundlingType ∧ p.servedFlags e.1.bank = false) :
      Serves spec s p (s.issue spec e.1 e.2) (served p e (before ++ after)) (some e.1)

theorem sendRegister_eq (critical : ∀ id, requestorCriticalTable id = true) (i : Nat) (e : Entry) :
    sendRegister requestorCriticalTable spec s p i e =
      (s.issue spec e.1 e.2, served p e (p.commandRegisters.eraseIdx i)) := by
  unfold sendRegister served setPending
  dsimp only
  rw [critical, serveCell_eq critical]
  cases e.1.busPacketType.beforeACT <;> simp

theorem choose_split (critical : ∀ id, requestorCriticalTable id = true) {i : Nat} {e : Entry}
    (h : choose requestorCriticalTable check s p = some (i, e)) :
    (∃ before after, p.commandRegisters = before ++ e :: after ∧
      p.commandRegisters.eraseIdx i = before ++ after) ∧
    (e.1.busPacketType.isCas = true →
      e.1.busPacketType = p.bundlingType ∧ p.servedFlags e.1.bank = false) := by
  unfold choose at h
  dsimp only at h
  rcases Option.or_eq_some_iff.mp h with cas | ⟨_, rows⟩
  · obtain ⟨before, after, stops⟩ := Lib.Scan.firstFree_split cas
    refine ⟨⟨before, after, stops.split, stops.eraseIdx⟩, fun _ => ?_⟩
    have can := stops.can
    simp only [serveCell_eq critical, Bool.and_eq_true, decide_eq_true_eq] at can
    exact ⟨can.1.2, can.1.1⟩
  · -- an `ACT` or a `PRE` is no column access
    have row : ∀ kind, (kind = .ACT ∨ kind = .PRE) →
        Lib.Scan.firstThat (fun e : Entry => decide (e.1.busPacketType = kind) &&
          s.isIssuable check e.1) p.commandRegisters = some (i, e) →
        (∃ before after, p.commandRegisters = before ++ e :: after ∧
          p.commandRegisters.eraseIdx i = before ++ after) ∧
        (e.1.busPacketType.isCas = true →
          e.1.busPacketType = p.bundlingType ∧ p.servedFlags e.1.bank = false) := by
      intro kind rows found
      obtain ⟨before, after, stops⟩ := Lib.Scan.firstFree_split found
      refine ⟨⟨before, after, stops.split, stops.eraseIdx⟩, fun cas => ?_⟩
      have same := of_decide_eq_true (Bool.and_eq_true_iff.mp stops.can).1
      rcases rows with rfl | rfl <;> simp [same] at cas
    rcases Option.or_eq_some_iff.mp rows with act | ⟨_, pre⟩
    · exact row .ACT (.inl rfl) act
    · exact row .PRE (.inr rfl) pre

theorem send_serves (spec : DeviceSpec) (check : Answers)
    (critical : ∀ id, requestorCriticalTable id = true) (inv : Inv s p) :
    ∃ s' p' out, send requestorCriticalTable spec check s p = (s', p', out) ∧
      Serves spec s p s' p' out := by
  unfold send
  cases chosen : choose requestorCriticalTable check s p with
  | none =>
    refine ⟨s, p, none, ?_, .idle⟩
    simp [inv.srt, Lib.Scan.firstFree, Lib.Scan.freeFrom]
  | some r =>
    obtain ⟨⟨before, after, split, erased⟩, bundled⟩ := choose_split critical chosen
    dsimp only
    rw [sendRegister_eq critical, erased]
    exact ⟨_, _, _, rfl, .send split bundled⟩

theorem Serves.inv {out : Option BusPacket} (inv : Inv s p) (serves : Serves spec s p s' p' out) :
    Inv s' p' := by
  cases serves with
  | idle => exact inv
  | @send e before after split bundled =>
    have latching := inv.latching
    rw [split] at latching
    exact ⟨latching.issue (Entry.queue_separates false) spec fun _ => rfl, inv.channels, inv.srt⟩

/-! ## A call -/

/-- **A call of `commandSchedule`, taken apart**: heads are registered, round and type renewed, and a
register is served or none. -/
theorem schedule_spec (critical : ∀ id, requestorCriticalTable id = true) (inv : Inv s p)
    {out : Option BusPacket}
    (h : schedule requestorCriticalTable spec check s p = some (s', p', out)) :
    ∃ p₁, Registers { s with scheduledCommand := none } p p₁ ∧
      (prepare requestorCriticalTable s p).2 = renew requestorCriticalTable s.queueCount p₁ ∧
      Serves spec { s with scheduledCommand := none }
        (renew requestorCriticalTable s.queueCount p₁) s' p' out := by
  obtain ⟨p₁, prepared, registers⟩ := prepare_eq critical inv
  have renewed := (renew_spec critical registers.inv s.queueCount).1
  obtain ⟨t, q, o, sent, serves⟩ := send_serves spec check critical renewed
  simp only [schedule, prepared, sent, Option.some.injEq, Prod.mk.injEq] at h
  obtain ⟨rfl, rfl, rfl⟩ := h
  exact ⟨p₁, registers, by rw [prepared], serves⟩

theorem step_inv (critical : ∀ id, requestorCriticalTable id = true) {call : SchedulerCall}
    {o : Option (Option BusPacket)} {st st' : CommandScheduler × ReOrderState}
    (inv : Inv st.1 st.2) (perBank : call.Inserts ofBank)
    (h : (schedule requestorCriticalTable spec).step spec requestorCriticalTable st call =
      some (st', o)) : Inv st'.1 st'.2 := by
  rcases Scheduling.step_cases h with ⟨s', base, rfl, _⟩ | ⟨_, _, _, _, _, scheduled, rfl, _⟩
  · exact ⟨inv.latching.base (fun _ => critical) perBank base, inv.channels, inv.srt⟩
  · obtain ⟨p₁, registers, _, serves⟩ := schedule_spec critical inv scheduled
    exact serves.inv (renew_spec critical registers.inv st.1.queueCount).1

/-! ## Bypass -/

/-- A call told of a column access of a bank. -/
def casOf (bank : Nat) : Option (Option BusPacket) → Bool
  | some (some c) => c.busPacketType.isCas && c.bank == bank
  | _ => false

/-- A column access of a bank is registered, and the bank is not served. -/
def Waits (bank : Nat) (st : CommandScheduler × ReOrderState) : Prop :=
  ∃ e ∈ st.2.commandRegisters, e.1.bank = bank ∧ e.1.busPacketType.isCas = true ∧
    st.2.servedFlags bank = false

section Bypass

variable (critical : ∀ id, requestorCriticalTable id = true)
  {st st' : CommandScheduler × ReOrderState} {call : SchedulerCall} {o : Option (Option BusPacket)}
  {A B : Nat}

include critical

/-- A column access that is sent serves its bank. -/
theorem step_serves (inv : Inv st.1 st.2)
    (h : (schedule requestorCriticalTable spec).step spec requestorCriticalTable st call =
      some (st', o)) (cas : casOf A o = true) : st'.2.servedFlags A = true := by
  rcases Scheduling.step_cases h with ⟨_, _, _, rfl⟩ | ⟨_, _, _, _, _, scheduled, rfl, rfl⟩
  · cases cas
  · obtain ⟨p₁, registers, _, serves⟩ := schedule_spec critical inv scheduled
    cases serves with
    | idle => cases cas
    | send =>
      obtain ⟨isCas, bank⟩ := Bool.and_eq_true_iff.mp cas
      exact if_pos ⟨BusPacketType.beforeACT_of_isCas isCas, (beq_iff_eq.mp bank).symm⟩

/-- While a column access waits unserved, a served bank stays served and gets no other one. -/
theorem step_stays (inv : Inv st.1 st.2) (waits : Waits B st) (served : st.2.servedFlags A = true)
    (h : (schedule requestorCriticalTable spec).step spec requestorCriticalTable st call =
      some (st', o)) : casOf A o = false ∧ st'.2.servedFlags A = true := by
  rcases Scheduling.step_cases h with ⟨_, _, rfl, rfl⟩ | ⟨_, _, _, _, _, scheduled, rfl, rfl⟩
  · exact ⟨rfl, served⟩
  · obtain ⟨p₁, registers, _, serves⟩ := schedule_spec critical inv scheduled
    obtain ⟨e, he, rfl, isCas, free⟩ := waits
    -- the waiting access is among those surveyed, so no new round begins
    have unserved : Unserved p₁ e :=
      ⟨BusPacketType.beforeACT_of_isCas isCas, by rw [registers.served]; exact free⟩
    have kept := (renew_spec critical registers.inv st.1.queueCount).2.2.1
      ⟨e, registers.extends_.subset he, unserved⟩
    rw [registers.served] at kept
    cases serves with
    | idle => exact ⟨rfl, by rw [kept]; exact served⟩
    | @send d before after split bundled =>
      refine ⟨?_, ?_⟩
      · cases cas : casOf A (some (some d.1)) with
        | false => rfl
        | true =>
          obtain ⟨isCas, bank⟩ := Bool.and_eq_true_iff.mp cas
          have again := (bundled isCas).2
          rw [kept, beq_iff_eq.mp bank, served] at again
          cases again
      · dsimp only [ReOrder.served]
        rw [kept, served, ite_self]

/-- What is sent, and when the type switches. -/
theorem step_bundles (inv : Inv st.1 st.2)
    (h : (schedule requestorCriticalTable spec).step spec requestorCriticalTable st call =
      some (st', o)) :
    (∀ c, o = some (some c) → c.busPacketType.isCas = true →
      c.busPacketType = st'.2.bundlingType ∧
        (prepare requestorCriticalTable st.1 st.2).2.servedFlags c.bank = false) ∧
    (st'.2.bundlingType ≠ st.2.bundlingType →
      (∀ e ∈ (prepare requestorCriticalTable st.1 st.2).2.commandRegisters,
        e.1.busPacketType.isCas = true → e.1.busPacketType = st.2.bundlingType →
          st.2.servedFlags e.1.bank = true) ∧
      ∃ e ∈ (prepare requestorCriticalTable st.1 st.2).2.commandRegisters,
        e.1.busPacketType.beforeACT = true ∧ e.1.busPacketType ≠ st.2.bundlingType ∧
          st.2.servedFlags e.1.bank = false) := by
  rcases Scheduling.step_cases h with ⟨_, _, rfl, rfl⟩ | ⟨_, _, _, _, _, scheduled, rfl, rfl⟩
  · exact ⟨fun _ h => (nomatch h), fun h => absurd rfl h⟩
  · obtain ⟨p₁, registers, prepared, serves⟩ := schedule_spec critical inv scheduled
    obtain ⟨_, same, _, switch⟩ := renew_spec critical registers.inv st.1.queueCount
    rw [prepared]
    have after : ∀ {s' p' out}, Serves spec { st.1 with scheduledCommand := none }
        (renew requestorCriticalTable st.1.queueCount p₁) s' p' out →
        p'.bundlingType = (renew requestorCriticalTable st.1.queueCount p₁).bundlingType :=
      fun serves => by cases serves <;> rfl
    refine ⟨fun c sent isCas => ?_, fun changed => ?_⟩
    · dsimp only
      rw [after serves]
      cases serves with
      | idle => cases sent
      | send split bundled =>
        obtain rfl : _ = c := by simpa using sent
        exact bundled isCas
    · dsimp only at changed
      rw [after serves, ← registers.type] at changed
      obtain ⟨none, e, he, unserved, other⟩ := switch changed
      rw [same, ← registers.served, ← registers.type]
      refine ⟨fun d hd isCas current => ?_, e, he, unserved.1, other, unserved.2⟩
      cases flag : p₁.servedFlags d.1.bank with
      | true => rfl
      | false => exact absurd ⟨BusPacketType.beforeACT_of_isCas isCas, flag⟩ (none d hd current)

end Bypass

/-- **Bounded bypass of ReOrder.** With a queue for each bank and every requestor critical, from every
state a run reaches: a column access sent is of the current type and its bank was not served; the type
switches only in a call that finds no registered access of the current type unserved and another one
unserved; and over a stretch of calls after each of which an access of one bank is registered and
unserved, at most one access of any bank is sent. -/
theorem reOrder_boundedBypass (spec : DeviceSpec) (critical : ∀ id, requestorCriticalTable id = true)
    (queueCount : Nat) (m : RefreshMachine) {calls : List SchedulerCall}
    (perBank : ∀ call ∈ calls, call.Inserts ofBank) {s : CommandScheduler} {p : ReOrderState}
    {told : List (Option (Option BusPacket))}
    (ran : Lib.Machine.run
      ((schedule requestorCriticalTable spec).step spec requestorCriticalTable)
      (CommandScheduler.create queueCount false m, {}) calls = some ((s, p), told)) :
    (∀ call st' o, (schedule requestorCriticalTable spec).step spec requestorCriticalTable (s, p)
        call = some (st', o) →
      (∀ c, o = some (some c) → c.busPacketType.isCas = true →
        c.busPacketType = st'.2.bundlingType ∧
          (prepare requestorCriticalTable s p).2.servedFlags c.bank = false) ∧
      (st'.2.bundlingType ≠ p.bundlingType →
        (∀ e ∈ (prepare requestorCriticalTable s p).2.commandRegisters,
          e.1.busPacketType.isCas = true → e.1.busPacketType = p.bundlingType →
            p.servedFlags e.1.bank = true) ∧
        ∃ e ∈ (prepare requestorCriticalTable s p).2.commandRegisters,
          e.1.busPacketType.beforeACT = true ∧ e.1.busPacketType ≠ p.bundlingType ∧
            p.servedFlags e.1.bank = false)) ∧
    ∀ A B stretch st' told', (∀ call ∈ stretch, SchedulerCall.Inserts ofBank call) →
      Lib.Machine.Along ((schedule requestorCriticalTable spec).step spec requestorCriticalTable)
        (fun _ _ st _ => Waits B st) (s, p) stretch →
      Lib.Machine.run ((schedule requestorCriticalTable spec).step spec requestorCriticalTable)
        (s, p) stretch = some (st', told') →
      told'.countP (casOf A) ≤ 1 := by
  have along := Lib.Machine.along_of_forall
    ((schedule requestorCriticalTable spec).step spec requestorCriticalTable)
    (CommandScheduler.create queueCount false m, {}) perBank
  have inv : Inv s p := by
    refine Lib.Machine.run_invariant_along (fun st => Inv st.1 st.2) ?_ (inv_create queueCount m)
      along ran
    exact fun inv h fit => step_inv critical inv fit h
  refine ⟨fun call st' o h => step_bundles critical inv h,
    fun A B stretch st' told' fit along ran => ?_⟩
  exact Lib.Machine.count_le_one (fun st => Inv st.1 st.2) (Waits B)
    (fun st => st.2.servedFlags A = true)
    (fun inv fit h => step_inv critical inv fit h) (fun inv h => step_serves critical inv h)
    (fun inv waits served h _ => step_stays critical inv waits served h) inv fit along ran

/-- Two reads wait for bank 0 and one for bank 1. -/
def rivalReads : List SchedulerCall := [.insert 0 .RD 0 0, .insert 0 .RD 0 0, .insert 1 .RD 1 1]

/-- The scheduler they wait in. -/
def rivalState : CommandScheduler :=
  ((((CommandScheduler.create 2 false (.create .none openPageSetup.device 0 0)).insertCommand
    0 (sampleCommand .RD 0 0) true).insertCommand 0 (sampleCommand .RD 0 0) true).insertCommand
    1 (sampleCommand .RD 1 1) true)

/-- The device takes commands for bank 0 only, in two calls six cycles apart. -/
def favouredBank : List SchedulerCall :=
  [.commandSchedule fun c => c.bank = 0] ++ List.replicate 6 .tick ++
    [.commandSchedule fun c => c.bank = 0]

/-- The law at a stretch in which bank 1's read waits: bank 0 gets its first read through, and its
second one, registered and issuable, is held back. -/
theorem reOrder_boundedBypass_rivalReads :
    ∃ st told, Lib.Machine.run ((schedule (fun _ => true) openPageSetup.device).step
        openPageSetup.device fun _ => true) (rivalState, {}) favouredBank = some (st, told) ∧
      told.countP (casOf 0) ≤ 1 ∧
      st.1.memoryDevice.commandTrace.map (·.bank) = [0] ∧
      st.2.commandRegisters.map (·.2) = [1, 0] := by
  obtain ⟨st, told, ran, sent⟩ := Lib.Machine.run_exists
    ((schedule (fun _ => true) openPageSetup.device).step openPageSetup.device fun _ => true)
    (fun st => st.1.memoryDevice.commandTrace.map (·.bank) = [0] ∧
      st.2.commandRegisters.map (·.2) = [1, 0])
    (rivalState, {}) favouredBank (by decide +kernel)
  have along := Lib.Machine.along_of_check
    ((schedule (fun _ => true) openPageSetup.device).step openPageSetup.device fun _ => true)
    (fun _ _ st => st.2.commandRegisters.any (fun e => e.1.bank == 1 &&
      e.1.busPacketType.isCas) && !st.2.servedFlags 1)
    (fun _ _ st => Waits 1 st) (rivalState, {}) favouredBank
    (fun _ _ st check => ?_) (by decide +kernel)
  · have law := @reOrder_boundedBypass (fun _ => true) openPageSetup.device (fun _ => rfl) 2
      (.create .none openPageSetup.device 0 0) rivalReads ?_ rivalState {} [none, none, none] rfl
    · refine ⟨st, told, ran, law.2 0 1 favouredBank st told ?_ along ran, sent⟩
      simp [favouredBank, SchedulerCall.Inserts, SchedulerCall.inserted]
    · simp [rivalReads, SchedulerCall.Inserts, SchedulerCall.inserted, SchedulerCall.insert, sampleCommand, ofBank]
  · obtain ⟨some_, free⟩ := Bool.and_eq_true_iff.mp check
    obtain ⟨e, he, kind⟩ := List.any_eq_true.mp some_
    obtain ⟨bank, isCas⟩ := Bool.and_eq_true_iff.mp kind
    exact ⟨e, he, beq_iff_eq.mp bank, isCas, Bool.not_eq_true' _ ▸ free⟩

end ReOrder
end MCsim
