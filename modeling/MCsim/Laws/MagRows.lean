import MCsim.Laws.MagCall
import MCsim.Laws.RowState

/-!
# Rows under preemption

A bank's commands are generated in one order and sent in another once critical commands overtake the
others. What is kept in its place is that each side could finish by itself: from the row that is open, the
critical commands that wait are legal, and so are the compensation and the non-critical ones (`Rows`).

A call keeps this where neither side takes away the row that the other begins with (`breaks`), where the
generator compensates for a column access of row 0 only, the row that its activation opens, and where no
activation leaves unsent. A request keeps it where a row hit is one of its own side: the two sides share
the row table.
-/

namespace MCsim

open CommandScheduler RequestScheduler

/-! ## One command and the commands of the other side -/

/-- A command takes away the row that these commands begin with: they begin with a column access, and it is
a precharge or an activation of another row. -/
def breaks (x : BusPacket) (w : List BusPacket) : Bool :=
  w.head?.any fun c => c.busPacketType.isCas &&
    (decide (x.busPacketType = .PRE) || (decide (x.busPacketType = .ACT) && decide (x.row ≠ c.row)))

/-- The commands begin with an activation and a column access behind it. -/
def opensAccess (w : List BusPacket) : Bool :=
  w.head?.any (fun c => decide (c.busPacketType = .ACT)) && w.tail.head?.any (·.busPacketType.isCas)

/-- What a command leaves open. -/
theorem CommandScheduler.OpenCommand.row {bank : Nat} {c : BusPacket} (h : OpenCommand bank c) (open_ : Option Nat) :
    c.busPacketType = .PRE ∧ rowNext open_ c = none ∨
      c.busPacketType = .ACT ∧ rowNext open_ c = some c.row ∨
      c.busPacketType.isCas = true ∧ rowNext open_ c = open_ := by
  obtain ⟨_, _, type | type | type⟩ := h
  · exact .inl ⟨type, by simp [rowNext, type]⟩
  · exact .inr (.inl ⟨type, by simp [rowNext, type]⟩)
  · refine .inr (.inr ⟨type, ?_⟩)
    rcases BusPacketType.isCas_iff.mp type with type | type <;> simp [rowNext, type]

/-- **A command that breaks nothing** leaves the other side as legal as it was. -/
theorem accepts_past {bank : Nat} {x : BusPacket} {w : List BusPacket} {open_ : Option Nat}
    (command : OpenCommand bank x) (commands : ∀ c ∈ w, OpenCommand bank c)
    (keeps : breaks x w = false) (accepts : casBuffer.Accepts open_ w) :
    casBuffer.Accepts (rowNext open_ x) w := by
  cases w with
  | nil => trivial
  | cons c w =>
    obtain ⟨ok, rest⟩ := accepts
    have head := commands c List.mem_cons_self
    have same : rowNext (rowNext open_ x) c = rowNext open_ c ∧
        (c.busPacketType.isCas = true → rowNext open_ x = some c.row) := by
      rcases head.row open_ with ⟨type, closes⟩ | ⟨type, opens⟩ | ⟨type, stays⟩
      · exact ⟨by rw [closes]; simp [rowNext, type], fun cas => by rw [type] at cas; cases cas⟩
      · exact ⟨by rw [opens]; simp [rowNext, type], fun cas => by rw [type] at cas; cases cas⟩
      · -- the access keeps its row: the command leaves it open, or opens it again
        have open_is := (casBuffer_ok open_ c).mp ok type
        have still : rowNext open_ x = open_ := by
          simp only [breaks, List.head?_cons, Option.any_some, type, Bool.true_and, Bool.or_eq_false_iff,
            Bool.and_eq_false_iff, decide_eq_false_iff_not, not_not] at keeps
          rcases command.row open_ with ⟨pre, _⟩ | ⟨act, opens⟩ | ⟨_, stays⟩
          · exact absurd pre keeps.1
          · rw [opens, keeps.2.resolve_left (not_not.mpr act), open_is]
          · exact stays
        rw [still]
        exact ⟨rfl, fun _ => open_is⟩
    refine ⟨same.2, ?_⟩
    show casBuffer.Accepts (rowNext (rowNext open_ x) c) w
    rw [same.1]
    exact rest

/-- A command that is sent and stays in its queue can be sent again. -/
theorem accepts_again {bank : Nat} {x : BusPacket} {w : List BusPacket} {open_ : Option Nat}
    (command : OpenCommand bank x) (accepts : casBuffer.Accepts open_ (x :: w)) :
    casBuffer.Accepts (rowNext open_ x) (x :: w) := by
  obtain ⟨ok, rest⟩ := accepts
  have same : rowNext (rowNext open_ x) x = rowNext open_ x := by
    rcases command.row open_ with ⟨type, closes⟩ | ⟨type, opens⟩ | ⟨_, stays⟩
    · rw [closes]
      simp [rowNext, type]
    · rw [opens]
      simp [rowNext, type]
    · rw [stays, stays]
  refine ⟨fun cas => ?_, ?_⟩
  · have open_is := (casBuffer_ok open_ x).mp ok cas
    rcases command.row open_ with ⟨type, _⟩ | ⟨type, _⟩ | ⟨_, stays⟩
    · rw [type] at cas
      cases cas
    · rw [type] at cas
      cases cas
    · rw [stays]
      exact open_is
  · show casBuffer.Accepts (rowNext (rowNext open_ x) x) w
    rw [same]
    exact rest

/-- Commands that do not begin with a column access are legal whatever is open. -/
theorem accepts_anyway {bank : Nat} {w : List BusPacket} {open_ : Option Nat} (open' : Option Nat)
    (commands : ∀ c ∈ w, OpenCommand bank c) (accepts : casBuffer.Accepts open_ w)
    (begins : w.head?.any (·.busPacketType.isCas) = false) : casBuffer.Accepts open' w := by
  cases w with
  | nil => trivial
  | cons c w =>
    have plain : ¬ c.busPacketType.isCas = true := by
      intro cas
      rw [List.head?_cons, Option.any_some, cas] at begins
      cases begins
    have same : rowNext open' c = rowNext open_ c := by
      rcases (commands c List.mem_cons_self).2.2 with type | type | type
      · simp [rowNext, type]
      · simp [rowNext, type]
      · exact absurd type plain
    refine ⟨fun cas => absurd cas plain, ?_⟩
    show casBuffer.Accepts (rowNext open' c) w
    rw [same]
    exact accepts.2

namespace Mag

variable {check : Answers} {s s' : CommandScheduler} {p p' : MagState}

/-! ## The two sides of a bank -/

/-- What a side of a bank has to send: its critical commands, or its compensation and then the others. -/
def stream (s : CommandScheduler) (p : MagState) (critical : Bool) (bank : Nat) : List BusPacket :=
  if critical then s.side bank true else p.compensateCommands bank ++ s.side bank false

theorem stream_true (s : CommandScheduler) (p : MagState) (bank : Nat) :
    stream s p true bank = s.side bank true := rfl

theorem stream_false (s : CommandScheduler) (p : MagState) (bank : Nat) :
    stream s p false bank = p.compensateCommands bank ++ s.side bank false := rfl

/-- The row that the commands sent so far leave open. -/
def openRow (s : CommandScheduler) (bank : Nat) : Option Nat :=
  casBuffer.after none (toBank bank s.memoryDevice.commandTrace)

/-- **Either side of each bank could finish by itself**: what was sent is legal, and from the row that is
open so is what each side has to send. -/
structure Rows (s : CommandScheduler) (p : MagState) : Prop where
  kept : Kept s p
  index : p.indexHP < s.queueCount
  queued : ∀ critical bank, ∀ c ∈ stream s p critical bank, OpenCommand bank c
  legal : ∀ bank, CasLegal s.memoryDevice.commandTrace bank
  plays : ∀ critical bank, casBuffer.Accepts (openRow s bank) (stream s p critical bank)

/-- **A call that leaves the sides legal.** The generator compensates for no column access of a row other
than 0. A critical command that goes breaks nothing that the other side begins with; where the other
side's front leaves in its place, that is no activation with its column access behind it. A compensation
or non-critical command that goes breaks nothing that the critical side begins with. -/
structure Clean (check : Answers) (s : CommandScheduler) (p : MagState) : Prop where
  repairs : ∀ i < s.queueCount, ∀ c ∈ preempted check s p i,
    c.busPacketType.isCas = true → c.row = 0
  critical : ∀ k < s.queueCount, ∀ c ∈ found s p k, Goes check s p k c → loses check s p k = false →
    breaks c (compensated check s p (place s p k) ++ s.side (place s p k) false) = false
  leaves : ∀ k < s.queueCount, ∀ c ∈ found s p k, Goes check s p k c → loses check s p k = true →
    opensAccess (s.side (place s p k) false) = false
  others : ∀ k < s.queueCount, ∀ c ∈ taken check s p k, breaks c (s.side (placeHP s p k) true) = false

instance (k : Nat) (c : BusPacket) : Decidable (Goes check s p k c) :=
  inferInstanceAs (Decidable (_ ∨ _))

instance : Decidable (Clean check s p) :=
  decidable_of_iff
    ((∀ i < s.queueCount, ∀ c ∈ preempted check s p i, c.busPacketType.isCas = true → c.row = 0) ∧
      (∀ k < s.queueCount, ∀ c ∈ found s p k, Goes check s p k c → loses check s p k = false →
        breaks c (compensated check s p (place s p k) ++ s.side (place s p k) false) = false) ∧
      (∀ k < s.queueCount, ∀ c ∈ found s p k, Goes check s p k c → loses check s p k = true →
        opensAccess (s.side (place s p k) false) = false) ∧
      ∀ k < s.queueCount, ∀ c ∈ taken check s p k, breaks c (s.side (placeHP s p k) true) = false)
    ⟨fun h => ⟨h.1, h.2.1, h.2.2.1, h.2.2.2⟩,
      fun clean => ⟨clean.repairs, clean.critical, clean.leaves, clean.others⟩⟩

/-- The state after the generator's part of a call. -/
def compensate (check : Answers) (s : CommandScheduler) (p : MagState) : MagState :=
  { p with compensateCommands := compensated check s p }

theorem openCommand_compensationFor {bank : Nat} {c x : BusPacket} (here : c.bank = bank)
    (h : x ∈ compensationFor c) : OpenCommand bank x := by
  unfold compensationFor at h
  split at h
  · rcases List.mem_cons.mp h with rfl | h
    · exact ⟨here, rfl, .inl rfl⟩
    · rw [List.mem_singleton.mp h]
      exact ⟨here, rfl, .inr (.inl rfl)⟩
  · split at h
    · rw [List.mem_singleton.mp h]
      exact ⟨here, rfl, .inl rfl⟩
    · cases h

/-- A compensation command is legal whatever is open. -/
theorem casBuffer_refreshCommand (open_ : Option Nat) {t : BusPacketType} (plain : t.isCas = false)
    (row bank rank : Nat) : casBuffer.ok open_ (RefreshMachine.refreshCommand t row bank rank) := by
  intro cas
  have type : t.isCas = true := cas
  rw [plain] at type
  cases type

/-- **Compensation restores what the non-critical side begins with**, where that is a column access of
row 0 or no column access. -/
theorem accepts_compensationFor {bank : Nat} {c : BusPacket} {w : List BusPacket} {open_ : Option Nat}
    (command : OpenCommand bank c) (accepts : casBuffer.Accepts open_ (c :: w))
    (zero : c.busPacketType.isCas = true → c.row = 0) :
    casBuffer.Accepts open_ (compensationFor c ++ c :: w) := by
  obtain ⟨ok, rest⟩ := accepts
  obtain ⟨_, _, type | type | cas⟩ := command
  · have nothing : compensationFor c = [] := by
      simp [compensationFor, type, BusPacketType.beforeACT, BusPacketType.toNat]
    rw [nothing]
    exact ⟨ok, rest⟩
  · have closes : compensationFor c = [RefreshMachine.refreshCommand .PRE 0 c.bank c.rank] := by
      simp [compensationFor, type, BusPacketType.beforeACT, BusPacketType.toNat]
    have same : rowNext none c = rowNext open_ c := by simp [rowNext, type]
    rw [closes]
    refine ⟨casBuffer_refreshCommand open_ rfl 0 c.bank c.rank, fun cas => ?_, ?_⟩
    · rw [type] at cas
      cases cas
    show casBuffer.Accepts (rowNext none c) w
    rw [same]
    exact rest
  · have reopens : compensationFor c = [RefreshMachine.refreshCommand .PRE 0 c.bank c.rank,
        RefreshMachine.refreshCommand .ACT 0 c.bank c.rank] := by
      rw [compensationFor, if_pos (BusPacketType.beforeACT_of_isCas cas)]
    have open_is := (casBuffer_ok open_ c).mp ok cas
    rw [zero cas] at open_is
    rw [reopens]
    refine ⟨casBuffer_refreshCommand open_ rfl 0 c.bank c.rank,
      casBuffer_refreshCommand none rfl 0 c.bank c.rank, ?_⟩
    show casBuffer.Accepts (some 0) (c :: w)
    rw [← open_is]
    exact ⟨ok, rest⟩

/-- **The generator's part of a call.** -/
theorem Rows.compensate (rows : Rows s p) (clean : Clean check s p) :
    Rows s (compensate check s p) := by
  have sides : ∀ bank c, preempted check s p bank = some c → ∃ w, s.side bank false = c :: w ∧
      compensated check s p bank = compensationFor c ∧ p.compensateCommands bank = [] ∧
      bank < s.queueCount := by
    intro bank c calls
    obtain ⟨bound, _, empty, front⟩ := preempted_reached calls
    obtain ⟨w, side⟩ := List.head?_eq_some_iff.mp front
    exact ⟨w, side, by rw [compensated, calls]; rfl, empty, bound⟩
  refine ⟨⟨rows.kept.sided, rows.kept.bank, rows.kept.index, rows.kept.blocked⟩, rows.index, ?_,
    rows.legal, ?_⟩
  · intro critical bank x hx
    cases critical with
    | true => exact rows.queued true bank x hx
    | false =>
      cases calls : preempted check s p bank with
      | none =>
        apply rows.queued false bank x
        simpa [stream, Mag.compensate, compensated, calls] using hx
      | some c =>
        obtain ⟨w, side, comp, empty, _⟩ := sides bank c calls
        rcases List.mem_append.mp hx with new | old
        · have here : c.bank = bank := rows.kept.bank bank false c (by rw [side]; exact List.mem_cons_self)
          exact openCommand_compensationFor here (comp ▸ new)
        · exact rows.queued false bank x (List.mem_append_right _ old)
  · intro critical bank
    cases critical with
    | true => exact rows.plays true bank
    | false =>
      have plays := rows.plays false bank
      cases calls : preempted check s p bank with
      | none =>
        have same : stream s (Mag.compensate check s p) false bank = stream s p false bank := by
          simp [stream, Mag.compensate, compensated, calls]
        rw [same]
        exact plays
      | some c =>
        obtain ⟨w, side, comp, empty, bound⟩ := sides bank c calls
        have before : stream s p false bank = c :: w := by simp [stream, empty, side]
        have after : stream s (Mag.compensate check s p) false bank = compensationFor c ++ c :: w := by
          simp [stream, Mag.compensate, comp, side]
        rw [before] at plays
        rw [after]
        refine accepts_compensationFor (rows.queued false bank c ?_) plays
          (clean.repairs bank bound c calls)
        rw [before]
        exact List.mem_cons_self

/-! ## The command that goes -/

theorem trace_send (s : CommandScheduler) (spec : DeviceSpec) {bank : Nat} {c : BusPacket}
    (command : OpenCommand bank c) (index : Nat) (bypass : Bool) :
    (s.sendCommand spec c index bypass).memoryDevice.commandTrace =
      s.memoryDevice.commandTrace ++ [c] := by
  have device : (s.sendCommand spec c index bypass).memoryDevice =
      s.memoryDevice.receiveFromBus spec c := by
    unfold sendCommand
    dsimp only
    split <;> rfl
  rw [device]
  exact MemoryDevice.receiveFromBus_trace command.2.1 command.ne_data.1

theorem toBank_singleton {bank : Nat} {c : BusPacket} (command : OpenCommand bank c) (b : Nat) :
    toBank b [c] = if b = bank then [c] else [] := by
  have here : c.bank = bank := command.1
  have plain : (c.busPacketType == .PREA) = false := by simpa using command.ne_data.2
  unfold toBank
  by_cases same : b = bank
  · subst same
    simp [here]
  · have other : (c.bank == b) = false := by simpa [here] using fun h => same h.symm
    simp [other, plain, same]

/-- What the sides depend on. -/
theorem Rows.congr (rows : Rows s p) (kept : Kept s' p') (index : p'.indexHP < s'.queueCount)
    (trace : s'.memoryDevice.commandTrace = s.memoryDevice.commandTrace)
    (same : ∀ critical bank, stream s' p' critical bank = stream s p critical bank) : Rows s' p' := by
  refine ⟨kept, index, fun critical bank => ?_, fun bank => ?_, fun critical bank => ?_⟩
  · rw [same]
    exact rows.queued critical bank
  · rw [trace]
    exact rows.legal bank
  · unfold openRow
    rw [trace, same]
    exact rows.plays critical bank

/-- **A command that is sent to a bank**, legal there: `v` and `w` are what its two sides have to send
then. -/
theorem Rows.sent (rows : Rows s p) {bank : Nat} {c : BusPacket} {v w : List BusPacket}
    (command : OpenCommand bank c)
    (trace : s'.memoryDevice.commandTrace = s.memoryDevice.commandTrace ++ [c])
    (ok : casBuffer.ok (openRow s bank) c) (kept : Kept s' p') (index : p'.indexHP < s'.queueCount)
    (critical : ∀ b, stream s' p' true b = if b = bank then v else stream s p true b)
    (others : ∀ b, stream s' p' false b = if b = bank then w else stream s p false b)
    (queued : v ⊆ stream s p true bank ∧ w ⊆ stream s p false bank)
    (plays : casBuffer.Accepts (rowNext (openRow s bank) c) v ∧
      casBuffer.Accepts (rowNext (openRow s bank) c) w) : Rows s' p' := by
  have sentTo : ∀ b, toBank b s'.memoryDevice.commandTrace =
      toBank b s.memoryDevice.commandTrace ++ if b = bank then [c] else [] := by
    intro b
    rw [trace, toBank_append, toBank_singleton command]
  have opens : ∀ b, openRow s' b = if b = bank then rowNext (openRow s bank) c else openRow s b := by
    intro b
    unfold openRow
    rw [sentTo, casBuffer.after_append]
    by_cases here : b = bank
    · subst here
      rw [if_pos rfl, if_pos rfl]
      rfl
    · rw [if_neg here, if_neg here]
      rfl
  have elsewhere : ∀ {side b}, b ≠ bank → stream s' p' side b = stream s p side b := by
    intro side b other
    cases side with
    | true => rw [critical, if_neg other]
    | false => rw [others, if_neg other]
  have here : stream s' p' true bank = v ∧ stream s' p' false bank = w :=
    ⟨by rw [critical, if_pos rfl], by rw [others, if_pos rfl]⟩
  refine ⟨kept, index, fun side b x hx => ?_, fun b => ?_, fun side b => ?_⟩
  · apply rows.queued side b x
    by_cases same : b = bank
    · subst same
      cases side with
      | true => exact queued.1 (here.1 ▸ hx)
      | false => exact queued.2 (here.2 ▸ hx)
    · exact elsewhere same ▸ hx
  · unfold CasLegal
    rw [sentTo, casBuffer.accepts_append]
    refine ⟨rows.legal b, ?_⟩
    split
    · next same =>
      subst same
      exact ⟨ok, trivial⟩
    · trivial
  · rw [opens]
    by_cases same : b = bank
    · subst same
      rw [if_pos rfl]
      cases side with
      | true => exact here.1 ▸ plays.1
      | false => exact here.2 ▸ plays.2
    · rw [if_neg same, elsewhere same]
      exact rows.plays side b

/-- What `send` does with a command that was chosen. -/
theorem send_chosen {spec : DeviceSpec} {t : Pass} {c : BusPacket} {origin : Origin}
    {sent : Option Candidate} (sided : t.scheduler.Sided) (h : send spec t = some (s', p', sent))
    (scheduled : t.scheduledCommand = some (c, origin)) :
    (∀ bank, OpenCommand bank c →
      s'.memoryDevice.commandTrace = t.scheduler.memoryDevice.commandTrace ++ [c]) ∧
    ∀ i k, s'.side i k =
      if (i = c.bank ∧ decide (origin = .compensation) = false) ∧ k = t.scheduler.last c.bank then
        (t.scheduler.side i k).tail
      else t.scheduler.side i k := by
  have sided' : { t.scheduler with scheduledCommand := some c }.Sided := sided
  unfold send at h
  rw [scheduled] at h
  dsimp only at h
  split at h
  · obtain rfl := congrArg Prod.fst (Option.some.inj h)
    exact ⟨fun _ command => trace_send _ spec command c.bank _,
      fun i k => sided'.side_send spec c c.bank _ i k⟩
  · cases h

/-- **What is left where a non-critical front leaves in place of a critical one**: it is legal unless the
front was the activation of what is behind it. -/
theorem accepts_left {bank : Nat} {c : BusPacket} {w : List BusPacket} {open_ : Option Nat}
    (open' : Option Nat) (commands : ∀ x ∈ c :: w, OpenCommand bank x)
    (accepts : casBuffer.Accepts open_ (c :: w)) (zero : c.busPacketType.isCas = true → c.row = 0)
    (spared : opensAccess (c :: w) = false) : casBuffer.Accepts open' (compensationFor c ++ w) := by
  obtain ⟨ok, rest⟩ := accepts
  have behind : ∀ x ∈ w, OpenCommand bank x := fun x hx => commands x (List.mem_cons_of_mem c hx)
  have command := commands c List.mem_cons_self
  rcases command.row open_ with ⟨type, closes⟩ | ⟨type, opens⟩ | ⟨cas, stays⟩
  · have nothing : compensationFor c = [] := by
      simp [compensationFor, type, BusPacketType.beforeACT, BusPacketType.toNat]
    have closed : casBuffer.Accepts none w := closes ▸ rest
    rw [nothing, List.nil_append]
    apply accepts_anyway open' behind closed
    -- behind a precharge there is no column access: nothing is open
    cases w with
    | nil => rfl
    | cons x w =>
      cases kind : x.busPacketType.isCas with
      | false => simpa using kind
      | true => cases (casBuffer_ok none x).mp closed.1 kind
  · have closes : compensationFor c = [RefreshMachine.refreshCommand .PRE 0 c.bank c.rank] := by
      simp [compensationFor, type, BusPacketType.beforeACT, BusPacketType.toNat]
    rw [closes]
    refine ⟨casBuffer_refreshCommand open' rfl 0 c.bank c.rank, ?_⟩
    apply accepts_anyway _ behind rest
    simpa [opensAccess, type] using spared
  · have reopens : compensationFor c = [RefreshMachine.refreshCommand .PRE 0 c.bank c.rank,
        RefreshMachine.refreshCommand .ACT 0 c.bank c.rank] := by
      rw [compensationFor, if_pos (BusPacketType.beforeACT_of_isCas cas)]
    have open_is := (casBuffer_ok open_ c).mp ok cas
    rw [zero cas] at open_is
    rw [reopens]
    refine ⟨casBuffer_refreshCommand open' rfl 0 c.bank c.rank,
      casBuffer_refreshCommand none rfl 0 c.bank c.rank, ?_⟩
    show casBuffer.Accepts (some 0) w
    rw [← open_is, ← stays]
    exact rest

/-- A critical front that goes was found. -/
theorem Goes.found {k : Nat} {c : BusPacket} (goes : Goes check s p k c) : found s p k = some c := by
  rcases goes with ⟨_, chose⟩ | ⟨_, head, _⟩
  · exact (Option.filter_eq_some_iff.mp chose).1
  · exact head

/-! ### The cases of a call

`t` is the pass that the loops end with: what `send` is given. -/

/-- A critical command leaves its queue. -/
theorem Rows.send_critical (rows : Rows s p) {bank : Nat} {c : BusPacket}
    (front : (s.side bank true).head? = some c)
    (keeps : breaks c (p.compensateCommands bank ++ s.side bank false) = false)
    (trace : ∀ bank, OpenCommand bank c →
      s'.memoryDevice.commandTrace = s.memoryDevice.commandTrace ++ [c])
    (sides : ∀ i k, s'.side i k = if i = bank ∧ k = true then (s.side i k).tail else s.side i k)
    (comp : p'.compensateCommands = p.compensateCommands)
    (kept : Kept s' p') (index : p'.indexHP < s'.queueCount) : Rows s' p' := by
  obtain ⟨w, side⟩ := List.head?_eq_some_iff.mp front
  have plays : casBuffer.Accepts (openRow s bank) (c :: w) := side ▸ rows.plays true bank
  have queued : ∀ x ∈ c :: w, OpenCommand bank x := side ▸ rows.queued true bank
  have command := queued c List.mem_cons_self
  have others : ∀ b, stream s' p' false b =
      if b = bank then stream s p false bank else stream s p false b := by
    intro b
    have same : s'.side b false = s.side b false := by simp [sides]
    rw [stream_false, comp, same, ← stream_false]
    split
    · next here => rw [here]
    · rfl
  refine rows.sent (v := w) command (trace bank command) plays.1 kept index (fun b => ?_) others ⟨?_, ?_⟩
    ⟨plays.2, ?_⟩
  · rw [stream_true, stream_true, sides]
    by_cases same : b = bank
    · simp [same, side]
    · simp [same]
  · rw [stream_true, side]
    exact List.subset_cons_self c w
  · exact List.Subset.refl _
  · exact accepts_past command (rows.queued false bank) keeps (rows.plays false bank)

/-- A critical command is sent and stays, and the non-critical front `f`, just compensated for, leaves. -/
theorem Rows.send_loses (rows : Rows s p) {bank : Nat} {c f : BusPacket} {w : List BusPacket}
    (front : (s.side bank true).head? = some c) (lost : s.side bank false = f :: w)
    (comped : p.compensateCommands bank = compensationFor f)
    (left : casBuffer.Accepts (rowNext (openRow s bank) c) (compensationFor f ++ w))
    (trace : ∀ bank, OpenCommand bank c →
      s'.memoryDevice.commandTrace = s.memoryDevice.commandTrace ++ [c])
    (sides : ∀ i k, s'.side i k = if i = bank ∧ k = false then (s.side i k).tail else s.side i k)
    (comp : p'.compensateCommands = p.compensateCommands)
    (kept : Kept s' p') (index : p'.indexHP < s'.queueCount) : Rows s' p' := by
  obtain ⟨v, side⟩ := List.head?_eq_some_iff.mp front
  have plays : casBuffer.Accepts (openRow s bank) (c :: v) := side ▸ rows.plays true bank
  have queued : ∀ x ∈ c :: v, OpenCommand bank x := side ▸ rows.queued true bank
  have command := queued c List.mem_cons_self
  refine rows.sent (v := s.side bank true) (w := compensationFor f ++ w) command (trace bank command)
    plays.1 kept index (fun b => ?_) (fun b => ?_) ⟨List.Subset.refl _, ?_⟩ ⟨?_, left⟩
  · have kept : s'.side b true = s.side b true := by simp [sides]
    rw [stream_true, stream_true, kept]
    split
    · next same => rw [same]
    · rfl
  · rw [stream_false, stream_false, comp, sides]
    by_cases same : b = bank
    · simp [same, comped, lost]
    · simp [same]
  · have before : stream s p false bank = compensationFor f ++ f :: w := by simp [stream, comped, lost]
    rw [before]
    exact List.append_subset.mpr ⟨List.subset_append_left _ _,
      fun x hx => List.mem_append_right _ (List.mem_cons_of_mem f hx)⟩
  · rw [side]
    exact accepts_again command plays

/-- A compensation command or a non-critical one leaves. -/
theorem Rows.send_other (rows : Rows s p) {bank : Nat} {c : BusPacket} {w : List BusPacket}
    (front : stream s p false bank = c :: w) (keeps : breaks c (s.side bank true) = false)
    (trace : ∀ bank, OpenCommand bank c →
      s'.memoryDevice.commandTrace = s.memoryDevice.commandTrace ++ [c])
    (critical : ∀ b, s'.side b true = s.side b true)
    (others : ∀ b, stream s' p' false b = if b = bank then w else stream s p false b)
    (kept : Kept s' p') (index : p'.indexHP < s'.queueCount) : Rows s' p' := by
  have plays : casBuffer.Accepts (openRow s bank) (c :: w) := front ▸ rows.plays false bank
  have queued : ∀ x ∈ c :: w, OpenCommand bank x := front ▸ rows.queued false bank
  have command := queued c List.mem_cons_self
  refine rows.sent (v := s.side bank true) command (trace bank command) plays.1 kept index (fun b => ?_)
    others ⟨List.Subset.refl _, ?_⟩ ⟨?_, plays.2⟩
  · rw [stream_true, stream_true, critical]
    split
    · next same => rw [same]
    · rfl
  · rw [front]
    exact List.subset_cons_self c w
  · exact accepts_past command (rows.queued true bank) keeps (rows.plays true bank)

/-- **A call keeps the sides legal** where it is clean. -/
theorem Rows.schedule (rows : Rows s p) (clean : Clean check s p) {spec : DeviceSpec}
    {sent : Option Candidate} (h : Mag.schedule spec check s p = some (s', p', sent)) : Rows s' p' := by
  have kept' := (rows.kept.schedule h).1
  have comped := rows.compensate clean
  obtain ⟨t, chose, sends⟩ := Option.bind_eq_some_iff.mp h
  have index := rows.kept.choose_indexHP rows.index chose
  obtain ⟨alike, chosen⟩ := rows.kept.chose rows.index chose
  have sided := alike.sided rows.kept.sided
  obtain ⟨rfl, is, count, _, _, idle⟩ := send_cases sided sends
  have index' : t.own.indexHP < s'.queueCount := by
    rw [count, alike.queueCount]
    exact index
  have device : t.scheduler.memoryDevice = s.memoryDevice := by rw [alike.same]
  cases chosen with
  | nothing unchosen comp =>
    obtain rfl := idle (is.trans unchosen)
    apply comped.congr kept' index' (by rw [device])
    intro critical bank
    unfold stream
    rw [alike.side, alike.side, comp]
    rfl
  | @critical k c bound goes scheduled comp noted =>
    obtain ⟨trace, sides⟩ := send_chosen sided sends scheduled
    rw [device] at trace
    have head := goes.found
    have here : c.bank = place s p k := rows.kept.bank_of_head head
    cases lost : loses check s p k with
    | false =>
      refine comped.send_critical head (clean.critical k bound c head goes lost) trace (fun i k' => ?_)
        (funext comp) kept' index'
      rw [sides, here, noted, lost, alike.side]
      simp
    | true =>
      obtain ⟨f, calls⟩ : ∃ f, preempted check s p (place s p k) = some f := by
        simp only [loses, Bool.and_eq_true] at lost
        exact Option.isSome_iff_exists.mp lost.2
      obtain ⟨small, _, empty, first⟩ := preempted_reached calls
      obtain ⟨w, side⟩ := List.head?_eq_some_iff.mp first
      have compHere : compensated check s p (place s p k) = compensationFor f := by
        rw [compensated, calls]
        rfl
      have before : stream s p false (place s p k) = f :: w := by simp [stream, empty, side]
      have allowed := clean.leaves k bound c head goes lost
      rw [side] at allowed
      refine comped.send_loses head side compHere ?_ trace (fun i k' => ?_) (funext comp) kept' index'
      · exact accepts_left _ (before ▸ rows.queued false (place s p k))
          (before ▸ rows.plays false (place s p k)) (clean.repairs _ small f calls) allowed
      · rw [sides, here, noted, lost, alike.side]
        simp
  | @compensation k c bound takes scheduled front comp =>
    obtain ⟨trace, sides⟩ := send_chosen sided sends scheduled
    rw [device] at trace
    obtain ⟨w, waits⟩ := List.head?_eq_some_iff.mp front
    have sides' : ∀ i k', s'.side i k' = s.side i k' := by
      intro i k'
      rw [sides, alike.side]
      simp
    refine comped.send_other (w := w ++ s.side (placeHP s p k) false) ?_ (clean.others k bound c takes)
      trace (fun b => sides' b true) (fun b => ?_) kept' index'
    · simp [stream, Mag.compensate, waits]
    · rw [stream_false, stream_false, sides', comp]
      by_cases same : b = placeHP s p k
      · simp [same, waits]
      · simp [same, Mag.compensate]
  | @other k c bound takes scheduled empty front comp noted =>
    obtain ⟨trace, sides⟩ := send_chosen sided sends scheduled
    rw [device] at trace
    obtain ⟨w, side⟩ := List.head?_eq_some_iff.mp front
    have here : c.bank = placeHP s p k :=
      rows.kept.bank _ false c (by rw [side]; exact List.mem_cons_self)
    have sides' : ∀ i k', s'.side i k' =
        if i = placeHP s p k ∧ k' = false then (s.side i k').tail else s.side i k' := by
      intro i k'
      rw [sides, here, noted, alike.side]
      simp
    refine comped.send_other (w := w) ?_ (clean.others k bound c takes) trace
      (fun b => by simp [sides']) (fun b => ?_) kept' index'
    · simp [stream, Mag.compensate, empty, side]
    · rw [stream_false, stream_false, sides', comp]
      by_cases same : b = placeHP s p k
      · simp [same, empty, side]
      · simp [same, Mag.compensate]

end Mag
end MCsim
