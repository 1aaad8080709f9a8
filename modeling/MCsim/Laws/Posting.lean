import MCsim.Generators
import MCsim.Laws.Controller
import MCsim.Laws.Refresh
import MCsim.Laws.Sides
import MCsim.Requests.Mcmc
import MCsim.Traffic

/-!
# Posted commands

A generator posts its column accesses or it does not: `OPEN`, `CLOSE`, `ROUND` and `PipeCAS` post none,
and `MCMC` posts all of them. No row command is posted. What a generator makes goes through the command
queues unchanged but for its arrival time, so that every command in a queue, and every command that a
scheduler sends from one, is of the generator's kind (`Carried`).
-/

namespace MCsim

/-- `RD`, `WR` and their versions with auto-precharge. -/
def BusPacketType.isColumn (t : BusPacketType) : Bool := t == .RD || t == .WR || t == .RDA || t == .WRA

/-- A command of a generator that posts its column accesses, or does not. -/
def BusPacket.Posts (posted : Bool) (c : BusPacket) : Prop :=
  c.busPacketType ≠ .DATA ∧ c.postCommand = (posted && c.busPacketType.isColumn)

/-! ## What the generators make -/

/-- A generator adds only commands of a kind. -/
def Generator.Makes (gen : Generator) (kind : BusPacket → Prop) : Prop :=
  ∀ (g : CommandGenerator) (r : Request) (isOpen : Bool) (g' : CommandGenerator) (accepted : Bool),
    gen g r isOpen = some (g', accepted) → ∀ c ∈ g'.commandBuffer, c ∈ g.commandBuffer ∨ kind c

/-- A generator that appends commands of the kind. -/
theorem Generator.makes_of_append {gen : Generator} {kind : BusPacket → Prop}
    (appends : ∀ g r isOpen g' accepted, gen g r isOpen = some (g', accepted) →
      ∃ new, g'.commandBuffer = g.commandBuffer ++ new ∧ ∀ c ∈ new, kind c) : gen.Makes kind := by
  intro g r isOpen g' accepted made c hc
  obtain ⟨new, whole, kinds⟩ := appends g r isOpen g' accepted made
  rw [whole] at hc
  exact (List.mem_append.mp hc).imp_right (kinds c)

open CommandGenerator in
theorem openGenerator_makes : openGenerator.Makes (BusPacket.Posts false) := by
  refine Generator.makes_of_append fun g r isOpen g' accepted made => ⟨g.commandsOf r isOpen, ?_, ?_⟩
  · unfold openGenerator at made
    rw [commandGenerateOpen_eq] at made
    split at made
    · cases made
      rfl
    · cases made
  · intro c hc
    obtain ⟨_, _, posted, type⟩ := mem_commandsOf hc
    refine ⟨?_, posted⟩
    rcases type with type | type | type
    · simp [type]
    · simp [type]
    · rcases BusPacketType.isCas_iff.mp (casType_isCas r) with cas | cas <;> simp [type, cas]

open CommandGenerator in
theorem closeGenerator_makes : closeGenerator.Makes (BusPacket.Posts false) := by
  refine Generator.makes_of_append fun g r _ _ _ made => ⟨closeCommands g.dataBusSize r, ?_, ?_⟩
  · cases made
    rfl
  · intro c hc
    simp only [closeCommands, List.mem_flatMap] at hc
    obtain ⟨bi, _, bc, _, hc⟩ := hc
    simp only [List.mem_cons, List.not_mem_nil, or_false] at hc
    rcases hc with rfl | rfl
    · exact ⟨by simp, rfl⟩
    · refine ⟨?_, rfl⟩
      show autoCasType r ≠ .DATA
      unfold autoCasType
      split <;> simp

open CommandGenerator in
theorem roundGenerator_makes : roundGenerator.Makes (BusPacket.Posts false) := by
  refine Generator.makes_of_append fun g r isOpen _ _ made =>
    ⟨g.roundRows r isOpen ++ roundCas g.dataBusSize r, ?_, ?_⟩
  · unfold roundGenerator at made
    split at made
    · cases made
      exact List.append_assoc _ _ _
    · cases made
  · have act : actType r ≠ .DATA := by
      unfold actType
      split <;> simp
    intro c hc
    rcases List.mem_append.mp hc with hc | hc
    · unfold roundRows at hc
      split at hc
      · cases hc
      · split at hc
        · rw [List.mem_singleton.mp hc]
          exact ⟨act, rfl⟩
        · simp only [List.mem_cons, List.not_mem_nil, or_false] at hc
          rcases hc with rfl | rfl
          · exact ⟨by simp [roundRow], rfl⟩
          · exact ⟨act, rfl⟩
    · obtain ⟨x, _, rfl⟩ := List.mem_map.mp hc
      refine ⟨?_, rfl⟩
      rcases BusPacketType.isCas_iff.mp (casType_isCas r) with cas | cas <;> simp [cas]

open CommandGenerator in
theorem pipeGenerator_makes (table : Nat → Option Bool) :
    (pipeGenerator table).Makes (BusPacket.Posts false) := by
  have auto : ∀ r : Request, autoCasType r ≠ .DATA := by
    intro r
    unfold autoCasType
    split <;> simp
  have cas : ∀ r : Request, casType r ≠ .DATA := by
    intro r
    unfold casType
    split <;> simp
  apply Generator.makes_of_append
  intro g r isOpen _ _ made
  unfold pipeGenerator at made
  cases known : table r.requestorID with
  | none => simp [known] at made
  | some critical =>
    rw [known] at made
    cases made
    refine ⟨pipeCommands critical r isOpen, rfl, fun c hc => ?_⟩
    unfold pipeCommands at hc
    cases critical with
    | true =>
      simp only [if_true, List.mem_cons, List.not_mem_nil, or_false] at hc
      rcases hc with rfl | rfl
      · exact ⟨by simp [pipeCommand], rfl⟩
      · exact ⟨auto r, rfl⟩
    | false =>
      simp only [Bool.false_eq_true, if_false, List.mem_append, List.mem_singleton] at hc
      rcases hc with hc | rfl
      · cases isOpen with
        | true => cases hc
        | false =>
          simp only [Bool.false_eq_true, if_false, List.mem_cons, List.not_mem_nil, or_false] at hc
          rcases hc with rfl | rfl <;> exact ⟨by simp [pipeCommand], rfl⟩
      · exact ⟨cas r, rfl⟩

theorem Mcmc.mcmcGenerator_makes : Mcmc.mcmcGenerator.Makes (BusPacket.Posts true) := by
  have act : ∀ (r : Request) n, BusPacket.Posts true (Mcmc.interleaved.act r n) :=
    fun r n => ⟨by simp [Mcmc.interleaved.act], rfl⟩
  have cas : ∀ (r : Request) n, BusPacket.Posts true (Mcmc.interleaved.cas r n) := by
    intro r n
    cases type : r.requestType <;>
      simp [BusPacket.Posts, Mcmc.interleaved.cas, Mcmc.postedCas, type, BusPacketType.isColumn]
  apply Generator.makes_of_append
  intro g r _ _ _ made
  unfold Mcmc.mcmcGenerator at made
  obtain ⟨commands, spread, same⟩ := Option.map_eq_some_iff.mp made
  cases same
  refine ⟨commands, rfl, ?_⟩
  unfold Mcmc.interleaved at spread
  split at spread
  all_goals cases spread
  all_goals
    simp only [List.mem_cons, List.not_mem_nil, or_false, forall_eq_or_imp, forall_eq]
    simp only [act, cas, and_self]

/-! ## From the generator into the buffer -/

namespace RequestScheduler

/-- What is new in the generator's buffer is of a kind. -/
def Fills (kind : BusPacket → Prop) (s s' : RequestScheduler) : Prop :=
  ∀ c ∈ s'.commandGenerator.commandBuffer, c ∈ s.commandGenerator.commandBuffer ∨ kind c

variable {kind : BusPacket → Prop} {s s' s'' : RequestScheduler} {gen : Generator}

theorem Fills.refl (s : RequestScheduler) : Fills kind s s := fun _ => .inl

theorem Fills.trans (first : Fills kind s s') (later : Fills kind s' s'') : Fills kind s s'' :=
  fun c hc => (later c hc).elim (first c) .inr

theorem isSchedulable_fills (makes : gen.Makes kind) {request : Request} {isOpen accepted : Bool}
    (scheduled : s.isSchedulable gen request isOpen = some (s', accepted)) : Fills kind s s' := by
  obtain ⟨⟨g, answer⟩, made, out⟩ := Option.map_eq_some_iff.mp scheduled
  obtain ⟨rfl, rfl⟩ := Prod.mk.inj out
  exact makes _ _ _ _ _ made

theorem serve_fills (makes : gen.Makes kind) {index : Nat} {request : Request} {accepted : Bool}
    (served : s.serve gen index request = some (s', accepted)) : Fills kind s s' := by
  obtain ⟨⟨s₁, answer⟩, scheduled, rest⟩ := Option.bind_eq_some_iff.mp served
  have fills := isSchedulable_fills makes scheduled
  dsimp only at rest
  split at rest
  · obtain ⟨q, _, out⟩ := Option.map_eq_some_iff.mp rest
    obtain ⟨rfl, _⟩ := Prod.mk.inj out
    exact fills
  · obtain ⟨rfl, _⟩ := Prod.mk.inj (Option.some.inj rest)
    exact fills

end RequestScheduler

open RequestScheduler

/-- A request scheduler has commands only from its generator. -/
def RequestPolicy.Generates {ρ : Type} (policy : RequestPolicy ρ) : Prop :=
  ∀ (kind : BusPacket → Prop) (gen : Generator) (s s' : RequestScheduler) (priv priv' : ρ),
    gen.Makes kind → policy.requestSchedule gen s priv = some (s', priv') → Fills kind s s'

/-- A turn of a loop over general queues. -/
theorem general_fills {kind : BusPacket → Prop} {s s' : RequestScheduler} {gen : Generator}
    {index i : Nat} (makes : gen.Makes kind)
    (h : (((s.requestQueue index).getRequest i).bind fun (request, q) =>
      match request with
      | none => some (s.setQueue index q)
      | some request => ((s.setQueue index q).serve gen index request).map (·.1)) = some s') :
    Fills kind s s' := by
  obtain ⟨⟨request, q⟩, _, h⟩ := Option.bind_eq_some_iff.mp h
  cases request with
  | none =>
    obtain rfl := Option.some.inj h
    exact Fills.refl _
  | some r =>
    obtain ⟨⟨s₁, accepted⟩, served, rfl⟩ := Option.map_eq_some_iff.mp h
    exact serve_fills (s := s.setQueue index q) makes served

theorem RequestFrfcfs.policy_generates : RequestFrfcfs.policy.Generates := by
  intro kind gen s s' _ _ makes h
  obtain ⟨s₁, scheduled, out⟩ := Option.map_eq_some_iff.mp h
  obtain ⟨rfl, _⟩ := Prod.mk.inj out
  refine Lib.Machine.foldlM_within (Fills kind) Fills.refl Fills.trans ?_ scheduled
  intro s index s' turned
  unfold RequestFrfcfs.scheduleQueue at turned
  split at turned
  · exact general_fills makes turned
  · obtain rfl := Option.some.inj turned
    exact Fills.refl _

theorem RequestFcfs.policy_generates : RequestFcfs.policy.Generates := by
  intro kind gen s s' _ _ makes h
  obtain ⟨s₁, scheduled, out⟩ := Option.map_eq_some_iff.mp h
  obtain ⟨⟨s₂, check⟩, looped, rfl⟩ := Option.map_eq_some_iff.mp scheduled
  obtain ⟨rfl, _⟩ := Prod.mk.inj out
  refine Lib.Machine.foldlM_within (fun st st' => Fills kind st.1 st'.1) (fun st => Fills.refl st.1)
    Fills.trans ?_ looped
  rintro ⟨s, check⟩ index ⟨s', check'⟩ turned
  unfold RequestFcfs.scheduleQueue at turned
  split at turned
  · unfold RequestFcfs.scheduleRequestors at turned
    dsimp only at turned
    split at turned
    · obtain ⟨rfl, _⟩ := Prod.mk.inj (Option.some.inj turned)
      exact Fills.refl _
    · obtain ⟨⟨request, q⟩, _, turned⟩ := Option.bind_eq_some_iff.mp turned
      obtain ⟨r, _, turned⟩ := Option.bind_eq_some_iff.mp turned
      obtain ⟨⟨s₁, accepted⟩, served, out⟩ := Option.map_eq_some_iff.mp turned
      obtain ⟨rfl, _⟩ := Prod.mk.inj out
      exact serve_fills (s := s.setQueue index q) makes served
  · obtain ⟨s₁, served, out⟩ := Option.map_eq_some_iff.mp turned
    obtain ⟨rfl, _⟩ := Prod.mk.inj out
    unfold RequestFcfs.scheduleGeneral at served
    split at served
    · exact general_fills makes served
    · obtain rfl := Option.some.inj served
      exact Fills.refl _

namespace Mcmc

theorem shareSlot_fills {kind : BusPacket → Prop} {gen : Generator} (makes : gen.Makes kind)
    {dataBusSize turns : Nat} {s s' : RequestScheduler} {p p' : McmcState} {sharing : List Nat}
    {handed : Option Request}
    (shared : shareSlot gen dataBusSize s p sharing turns = some (s', p', handed)) :
    Fills kind s s' := by
  induction turns generalizing s p with
  | zero =>
    obtain ⟨rfl, _⟩ := Prod.mk.inj (Option.some.inj shared)
    exact Fills.refl _
  | succ turns ih =>
    obtain ⟨turn, _, shared⟩ := Option.bind_eq_some_iff.mp shared
    obtain ⟨id, _, shared⟩ := Option.bind_eq_some_iff.mp shared
    obtain ⟨parts, _, shared⟩ := Option.bind_eq_some_iff.mp shared
    obtain ⟨⟨q, parts, taken⟩, _, shared⟩ := Option.bind_eq_some_iff.mp shared
    dsimp only at shared
    split at shared
    · split at shared
      · obtain ⟨rfl, _⟩ := Prod.mk.inj (Option.some.inj shared)
        exact Fills.refl _
      · exact ih (s := s.setQueue 0 q) shared
    · obtain ⟨⟨s₁, accepted⟩, scheduled, shared⟩ := Option.bind_eq_some_iff.mp shared
      have fills := isSchedulable_fills (s := s.setQueue 0 q) makes scheduled
      dsimp only at shared
      split at shared
      · obtain ⟨rfl, _⟩ := Prod.mk.inj (Option.some.inj shared)
        exact fills
      · cases shared

theorem serveSlot_fills {kind : BusPacket → Prop} {gen : Generator} (makes : gen.Makes kind)
    {dataBusSize id : Nat} {s s' : RequestScheduler} {p p' : McmcState} {handed : Option Request}
    (served : serveSlot gen dataBusSize s p id = some (s', p', handed)) : Fills kind s s' := by
  obtain ⟨parts, _, served⟩ := Option.bind_eq_some_iff.mp served
  obtain ⟨⟨q, parts, taken⟩, _, served⟩ := Option.bind_eq_some_iff.mp served
  dsimp only at served
  split at served
  · obtain ⟨sharing, _, served⟩ := Option.bind_eq_some_iff.mp served
    exact shareSlot_fills (s := s.setQueue 0 q) makes served
  · obtain ⟨⟨s₁, accepted⟩, scheduled, out⟩ := Option.map_eq_some_iff.mp served
    have fills := isSchedulable_fills (s := s.setQueue 0 q) makes scheduled
    dsimp only at out
    split at out <;> obtain ⟨rfl, _⟩ := Prod.mk.inj out <;> exact fills

theorem policy_generates (table : CriticalTable) (dataBusSize : Nat) :
    (policy table dataBusSize).Generates := by
  intro kind gen s s' p p' makes h
  obtain ⟨⟨s₁, p₁, handed⟩, scheduled, out⟩ := Option.map_eq_some_iff.mp h
  obtain ⟨rfl, rfl⟩ := Prod.mk.inj out
  have called : slotCall dataBusSize gen s.step (if s.clockCycle = 1 then initialise table p else p) =
      some (s₁, p₁, handed) := scheduled
  unfold slotCall at called
  generalize (if s.clockCycle = 1 then initialise table p else p) = p at called
  split at called
  · obtain ⟨id, _, called⟩ := Option.bind_eq_some_iff.mp called
    obtain ⟨⟨s₂, p₂, handed₂⟩, served, called⟩ := Option.bind_eq_some_iff.mp called
    obtain ⟨length, _, out⟩ := Option.map_eq_some_iff.mp called
    obtain ⟨rfl, _⟩ := Prod.mk.inj out
    exact serveSlot_fills (s := s.step) makes served
  · obtain ⟨rfl, _⟩ := Prod.mk.inj (Option.some.inj called)
    exact Fills.refl _

end Mcmc

/-! ## Through the command queues -/

/-- A command waits in some buffer of a queue. -/
def CommandQueue.Contains (q : CommandQueue) (c : BusPacket) : Prop :=
  c ∈ q.hrtBuffer ∨ c ∈ q.srtBuffer ∨ ∃ id, c ∈ q.buffer id

theorem CommandQueue.contains_insertCommand {q : CommandQueue} {c d : BusPacket} {critical : Bool}
    (h : (q.insertCommand c critical).Contains d) : q.Contains d ∨ d = c := by
  cases kind : q.perRequestorEnable with
  | true =>
    rcases h with h | h | ⟨id, h⟩
    · simp only [CommandQueue.insertCommand, kind, if_true] at h
      exact .inl (.inl h)
    · simp only [CommandQueue.insertCommand, kind, if_true] at h
      exact .inl (.inr (.inl h))
    · rw [buffer_insertCommand kind] at h
      split at h
      · rcases List.mem_append.mp h with h | h
        · exact .inl (.inr (.inr ⟨id, h⟩))
        · exact .inr (List.mem_singleton.mp h)
      · exact .inl (.inr (.inr ⟨id, h⟩))
  | false =>
    unfold CommandQueue.insertCommand at h
    rw [kind, if_neg Bool.false_ne_true] at h
    split at h
    · rcases h with h | h | h
      · exact (List.mem_append.mp h).imp .inl List.mem_singleton.mp
      · exact .inl (.inr (.inl h))
      · exact .inl (.inr (.inr h))
    · rcases h with h | h | h
      · exact .inl (.inl h)
      · exact (List.mem_append.mp h).imp (.inr ∘ .inl) List.mem_singleton.mp
      · exact .inl (.inr (.inr h))

namespace CommandScheduler

/-- A command waits in some queue. -/
def Queued (s : CommandScheduler) (c : BusPacket) : Prop := ∃ i, (s.commandQueue i).Contains c

variable {s s' : CommandScheduler} {spec : DeviceSpec} {check : Answers}

theorem queued_insertCommand {index : Nat} {c d : BusPacket} {critical : Bool}
    (h : (s.insertCommand index c critical).Queued d) : s.Queued d ∨ d = c := by
  obtain ⟨i, h⟩ := h
  unfold insertCommand setQueue at h
  dsimp only at h
  split at h
  · next here =>
    subst here
    exact (CommandQueue.contains_insertCommand h).imp_left fun h => ⟨i, h⟩
  · exact .inl ⟨i, h⟩

theorem queued_refresh {c : BusPacket} : (s.refresh spec check).Queued c ↔ s.Queued c := by
  unfold Queued
  rw [(commandQueue_refresh s spec check).1]

theorem queued_tick {c : BusPacket} : s.tick.Queued c ↔ s.Queued c := by
  have same : ∀ i, (s.tick.commandQueue i).Contains c ↔ (s.commandQueue i).Contains c := by
    intro i
    obtain ⟨last, queue, _⟩ := s.queue_tick i
    rw [queue]
    rfl
  exact exists_congr same

/-- **A call that sends at most one command**, from some queue, and does nothing else to the device, the
refresh machine or the queues but take commands away. The activations by which `MAG` compensates come out
of no queue, so a call that makes one up is left out. -/
structure SendsOne (spec : DeviceSpec) (s s' : CommandScheduler) (out : Option BusPacket) : Prop where
  device : s'.memoryDevice = s.memoryDevice.receives spec out
  sent : ∀ c, out = some c → s.Queued c
  left : ∀ c, s'.Queued c → s.Queued c
  refreshMachine : s'.refreshMachine = s.refreshMachine

theorem Sends.general {out : Option BusPacket} (sends : Sends spec check s s' out) (general : s.General) :
    s'.General ∧ s'.queueCount = s.queueCount := by
  cases sends with
  | idle left => exact ⟨general, rfl⟩
  | send bound front can => exact ⟨general.issue _ _ _, queueCount_issue _ _ _ _⟩

/-- A front that is sent is one command. -/
theorem Sends.sendsOne {out : Option BusPacket} (general : s.General) (sends : Sends spec check s s' out) :
    SendsOne spec s s' out := by
  cases sends with
  | idle left => exact ⟨rfl, fun _ h => (nomatch h), fun _ => id, rfl⟩
  | @send i c rest bound front can =>
    have queue : ∀ j, (s.issue spec c i).commandQueue j =
        if j = i then { s.commandQueue i with hrtBuffer := (s.commandQueue i).hrtBuffer.tail }
        else s.commandQueue j := by
      intro j
      simp [issue, sendCommand, CommandQueue.isPerRequestor, (general i).1, setQueue,
        CommandQueue.removeCommand, (general i).2]
    refine ⟨?_, ?_, ?_, ?_⟩
    · simp [issue, sendCommand, CommandQueue.isPerRequestor, (general i).1, setQueue,
        MemoryDevice.receives]
    · rintro _ ⟨⟩
      have there : c ∈ s.waiting i := front ▸ List.mem_cons_self
      exact ⟨i, .inl there⟩
    · rintro d ⟨j, h⟩
      rw [queue] at h
      split at h
      · next here =>
        subst here
        exact ⟨j, h.imp_left List.mem_of_mem_tail⟩
      · exact ⟨j, h⟩
    · simp [issue, sendCommand, CommandQueue.isPerRequestor, (general i).1, setQueue]

end CommandScheduler

/-! ## The commands of the refresh machine -/

/-- A command that is no column access, not data and not posted. -/
def BusPacket.Bare (c : BusPacket) : Prop :=
  c.postCommand = false ∧ c.busPacketType ≠ .DATA ∧ c.busPacketType.isColumn = false

namespace RefreshMachine

theorem bare_queueCommands {m : RefreshMachine} {q : CommandQueue} {c : BusPacket}
    (h : c ∈ m.queueCommands q) : c.Bare := by
  unfold queueCommands at h
  split at h
  · cases h
  · split at h
    · split at h
      · cases h
      · rw [List.mem_singleton.mp h]
        exact ⟨rfl, by simp [refreshCommand], rfl⟩
      · split at h
        · simp only [List.mem_cons, List.not_mem_nil, or_false] at h
          rcases h with rfl | rfl | rfl <;> exact ⟨rfl, by simp [refreshCommand], rfl⟩
        · cases h
    · cases h

theorem bare_group {m : RefreshMachine} {queues : List CommandQueue} {c : BusPacket}
    (h : c ∈ m.group queues) : c.Bare := by
  have fromQueues : c ∈ queues.flatMap m.queueCommands → c.Bare := by
    intro h
    obtain ⟨q, _, h⟩ := List.mem_flatMap.mp h
    exact bare_queueCommands h
  unfold group at h
  dsimp only at h
  split at h
  · cases h
  · rcases List.mem_append.mp h with h | h
    · obtain ⟨rank, _, h⟩ := List.mem_flatMap.mp h
      simp only [List.mem_cons, List.not_mem_nil, or_false] at h
      rcases h with rfl | rfl <;> exact ⟨rfl, by simp [refreshCommand], rfl⟩
    · exact fromQueues h
  · split at h
    · rw [List.mem_singleton.mp h]
      exact ⟨rfl, by simp [refreshCommand], rfl⟩
    · exact fromQueues h

theorem bare_step {m : RefreshMachine} {queues : List CommandQueue}
    (bare : ∀ c ∈ m.commandBuffer, c.Bare) : ∀ c ∈ (m.step queues).commandBuffer, c.Bare := by
  intro c hc
  rw [step_eq] at hc
  split at hc
  · exact (List.mem_append.mp hc).elim (bare c) bare_group
  · exact bare c hc

theorem bare_call {check : Answers} {m m' : RefreshMachine} {sent : Option BusPacket}
    (bare : ∀ c ∈ m.commandBuffer, c.Bare) (call : Call check m m' sent) :
    (∀ c ∈ m'.commandBuffer, c.Bare) ∧ ∀ c, sent = some c → c.Bare := by
  have whole := (RefreshRun.call_buffer call).1
  constructor
  · intro c hc
    exact bare c (whole ▸ List.mem_append_right _ hc)
  · rintro c rfl
    exact bare c (whole ▸ List.mem_append_left _ (List.mem_singleton_self c))

end RefreshMachine

/-! ## Every cycle -/

namespace MemoryController

open RefreshMachine

variable {ρ κ : Type} {setup : Setup} {parts : Components ρ κ} {posted : Bool}
  {c c' : MemoryController ρ κ}

/-- Every command on its way is of the generator's kind, and the refresh machine has bare ones. -/
structure Carried (posted : Bool) (c : MemoryController ρ κ) : Prop where
  buffered : ∀ x ∈ c.requestScheduler.commandGenerator.commandBuffer, x.Posts posted
  queued : ∀ x, c.commandScheduler.Queued x → x.Posts posted
  refreshing : ∀ x ∈ c.commandScheduler.refreshMachine.commandBuffer, x.Bare
  data : ∀ p ∈ c.sendDataBuffer, p.busPacketType = .DATA ∧ p.postCommand = false

theorem carried_create (setup : Setup) (parts : Components ρ κ) (posted : Bool)
    (refreshCounting bank_release : Nat) :
    (create setup parts refreshCounting bank_release).Carried posted := by
  refine ⟨fun _ h => (nomatch h), ?_, fun _ h => (nomatch h), fun _ h => (nomatch h)⟩
  rintro x ⟨i, h | h | ⟨id, h⟩⟩ <;> cases h

theorem carried_addRequest (carried : c.Carried posted) {requestorID address size : Nat} {R_W : Bool}
    (added : c.addRequest setup requestorID address R_W size = some c') :
    c'.Carried posted ∧ c'.commandScheduler = c.commandScheduler ∧ c'.clockCycle = c.clockCycle ∧
      c'.sendDataBuffer = c.sendDataBuffer ∧ c'.sendDataCounter = c.sendDataCounter := by
  unfold addRequest at added
  dsimp only at added
  split at added
  · cases added
    exact ⟨⟨carried.buffered, carried.queued, carried.refreshing, carried.data⟩, rfl, rfl, rfl, rfl⟩
  · cases added

/-- The loop that empties the generator changes the command queues only. -/
theorem enqueueLoop_frame {l : List BusPacket} (looped : l.foldlM (enqueueCommand setup) c = some c')
    (kinds : ∀ x ∈ l, x.Posts posted) :
    (∀ x, c'.commandScheduler.Queued x → c.commandScheduler.Queued x ∨ x.Posts posted) ∧
      ∃ stats queues, c' = { c with
        stats := stats, commandScheduler := { c.commandScheduler with commandQueue := queues } } := by
  induction l generalizing c with
  | nil =>
    obtain rfl := Option.some.inj looped
    exact ⟨fun _ => .inl, c.stats, c.commandScheduler.commandQueue, rfl⟩
  | cons x l ih =>
    rw [List.foldlM_cons] at looped
    obtain ⟨c₁, inserted, looped⟩ := Option.bind_eq_some_iff.mp looped
    unfold enqueueCommand at inserted
    dsimp only at inserted
    split at inserted
    · cases inserted
      obtain ⟨came, stats, queues, rfl⟩ := ih looped fun y hy => kinds y (List.mem_cons_of_mem x hy)
      refine ⟨fun y hy => ?_, stats, queues, rfl⟩
      rcases came y hy with old | kind
      · apply (CommandScheduler.queued_insertCommand old).imp_right
        intro e
        subst e
        exact kinds x List.mem_cons_self
      · exact .inr kind
    · cases inserted

/-- **The first half of a cycle**: the queues take the commands of the generator, and the refresh machine
may send a bare one. -/
theorem carried_prepare (makes : parts.commandGenerator.Makes (BusPacket.Posts posted))
    (generates : parts.requestScheduler.Generates) (carried : c.Carried posted) {refreshCheck : Answers}
    (prepared : c.prepare setup parts refreshCheck = some c') :
    c'.Carried posted ∧ c'.clockCycle = c.clockCycle ∧ c'.sendDataBuffer = c.sendDataBuffer ∧
      c'.sendDataCounter = c.sendDataCounter ∧ ∃ sent, (∀ x, sent = some x → x.Bare) ∧
        c'.commandScheduler.memoryDevice =
          c.commandScheduler.memoryDevice.receives setup.device sent := by
  obtain ⟨⟨rs, priv⟩, scheduled, prepared⟩ := Option.bind_eq_some_iff.mp prepared
  obtain ⟨c₁, enqueued, rfl⟩ := Option.map_eq_some_iff.mp prepared
  obtain ⟨c₂, looped, rfl⟩ := Option.map_eq_some_iff.mp enqueued
  have fills := generates _ _ _ _ _ _ makes scheduled
  obtain ⟨came, stats, queues, rfl⟩ := enqueueLoop_frame looped
    fun x hx => (fills x hx).elim (carried.buffered x) id
  obtain ⟨m, sent, call, refreshed⟩ := CommandScheduler.refresh_call
    { c.commandScheduler with commandQueue := queues } setup.device refreshCheck
  obtain ⟨bare, bareSent⟩ := bare_call carried.refreshing call
  refine ⟨⟨fun _ h => (nomatch h), fun x hx => ?_, ?_, carried.data⟩, rfl, rfl, rfl, sent, bareSent, ?_⟩
  · exact (came x (CommandScheduler.queued_refresh.mp hx)).elim (carried.queued x) id
  · dsimp only
    rw [refreshed]
    exact bare
  · dsimp only
    rw [refreshed]

/-- The command sent is of the kind. -/
theorem carried_schedule (carried : c.Carried posted) {check : Answers} {out : Option BusPacket}
    (scheduled : c.schedule setup parts check = some (c', out))
    (one : c.commandScheduler.SendsOne setup.device c'.commandScheduler out) :
    c'.Carried posted ∧ (∀ x, out = some x → x.Posts posted) ∧ c'.clockCycle = c.clockCycle ∧
      c'.sendDataBuffer = c.sendDataBuffer ∧ c'.sendDataCounter = c.sendDataCounter := by
  obtain ⟨⟨cs, priv, sent⟩, _, same⟩ := Option.map_eq_some_iff.mp scheduled
  obtain ⟨rfl, rfl⟩ := Prod.mk.inj same
  refine ⟨⟨carried.buffered, fun x hx => carried.queued x (one.left x hx), ?_, carried.data⟩,
    fun x hx => carried.queued x (one.sent x hx), rfl, rfl, rfl⟩
  rw [one.refreshMachine]
  exact carried.refreshing

theorem carried_endCycle (carried : c.Carried posted) (out : Option BusPacket) :
    (endCycle setup c out).Carried posted := by
  obtain ⟨resized, commands, data⟩ := endCycle_frame setup out carried.data
  refine ⟨?_, fun x hx => ?_, ?_, data⟩
  · rw [resized.generator]
    exact carried.buffered
  · rw [commands] at hx
    exact carried.queued x (CommandScheduler.queued_tick.mp hx)
  · rw [commands]
    exact bare_step carried.refreshing

theorem carried_deviceUpdate (carried : c.Carried posted) :
    (MemorySystem.deviceUpdate setup c).Carried posted := by
  unfold MemorySystem.deviceUpdate
  dsimp only
  split
  · exact ⟨carried.buffered, carried.queued, carried.refreshing, carried.data⟩
  · unfold receiveData
    obtain ⟨resized, commands, buffer, _⟩ := deliver_frame setup true
      { c with
        commandScheduler := { c.commandScheduler with
          memoryDevice := (c.commandScheduler.memoryDevice.update setup.device).1 }
        stats := { c.stats with readBytes := c.stats.readBytes + setup.dataBusWidth } } _
    refine ⟨?_, ?_, ?_, ?_⟩
    · rw [resized.generator]
      exact carried.buffered
    · rw [commands]
      exact carried.queued
    · rw [commands]
      exact carried.refreshing
    · rw [buffer]
      exact carried.data

end MemoryController

end MCsim
