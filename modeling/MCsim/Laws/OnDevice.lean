import MCsim.OnDevice
import MCsim.Laws.Progress
import MCsim.Laws.Rest

/-!
# On its own device, every request completes in time

A DDR3 tree is prompt: it takes any command of a bank once it was handed none for as long as the longest
entry of its tables. So the memory system of `Laws.Progress` needs no assumption on its device when the
device is this one, and the cycles until everything is completed are bounded by what is ahead. The bound
holds while the device's clock has not run over: it is an unsigned integer, and the times in the tree are
not.
-/

namespace MCsim

open CommandScheduler RequestScheduler MemoryController Lib.Machine Lib.Endless

/-! ## The device's clock -/

namespace MemoryDevice

variable {spec : DeviceSpec} {d : MemoryDevice}

theorem clockCycle_update :
    (d.update spec).1.clockCycle = (d.clockCycle + 1) % 2 ^ 32 := by
  show (d.updateReads.1.clockCycle + 1) % 2 ^ 32 = _
  unfold updateReads
  split
  · rfl
  · dsimp only
    split <;> rfl

theorem clockCycle_receives (out : Option BusPacket) :
    (d.receives spec out).clockCycle = d.clockCycle := by
  cases out with
  | none => rfl
  | some p =>
    show (receiveFromBus spec d p).clockCycle = _
    unfold receiveFromBus generateData
    split
    · rfl
    · split
      · rfl
      · split <;> rfl

end MemoryDevice

namespace OnDevice

variable {ρ κ : Type} {T : Dram.Standard} {setup : Setup} {parts : Components ρ κ}
  {s s' : OnDevice ρ κ T}

/-! ## Commands that the tree knows -/

/-- A tree with the eight banks of the set-up, and the times of no command further ahead than `wait`. -/
structure Banked (T : Dram.Standard) (wait : Nat) : Prop where
  lambda : @T.lambda = @Dram.bankLambda
  longest : T.Longest wait
  exists_ : ∀ p : BusPacket, p.bank < 8 → T.Exists (Dram.convert_addr p)

theorem convert_cmd_open {bank : Nat} {p : BusPacket} (h : OpenCommand bank p) :
    ∃ cmd, Dram.convert_cmd p = some cmd := by
  obtain ⟨_, _, type | type | type⟩ := h
  · exact ⟨_, by rw [Dram.convert_cmd, type]⟩
  · exact ⟨_, by rw [Dram.convert_cmd, type]⟩
  · rcases BusPacketType.isCas_iff.mp type with type | type
    · exact ⟨_, by rw [Dram.convert_cmd, type]⟩
    · exact ⟨_, by rw [Dram.convert_cmd, type]⟩

/-- **No question about a front is one the adapter aborts on.** -/
theorem command_check_isSome {wait : Nat} (banked : Banked T wait) {p : BusPacket}
    (opens : OpenCommand p.bank p) (bank : p.bank < 8) (n : Dram.Node T.below) (clk : Nat) :
    (Dram.command_check T n p clk).isSome = true := by
  obtain ⟨cmd, known⟩ := convert_cmd_open opens
  rw [Dram.command_check, opens.2.1, if_neg Bool.false_ne_true, known]
  exact Dram.check_isSome (banked.exists_ p bank)

/-- A tree at rest takes the command. -/
theorem answers_of_rest {wait clk : Nat} {t : Int} (banked : Banked T wait) {p : BusPacket}
    (opens : OpenCommand p.bank p) (bank : p.bank < 8) {n : Dram.Node T.below}
    (all : n.All (Dram.Fields.By wait t)) (rest : t + wait ≤ clk) : answers n clk p = true := by
  obtain ⟨cmd, known⟩ := convert_cmd_open opens
  have taken := Dram.check_of_rest cmd .Channel all rest (banked.exists_ p bank)
  simp [answers, Dram.command_check, opens.2.1, known, taken]

/-- The command reaches the tree. -/
theorem receive_open {wait : Nat} (banked : Banked T wait) {p : BusPacket}
    (opens : OpenCommand p.bank p) (bank : p.bank < 8) (n : Dram.Node T.below) (clk : Nat) :
    ∃ n', receive n [p] clk = some n' ∧
      ∀ t : Int, clk ≤ t → n.All (Dram.Fields.By wait t) → n'.All (Dram.Fields.By wait t) := by
  obtain ⟨cmd, known⟩ := convert_cmd_open opens
  obtain ⟨n', updated⟩ := Dram.exists_update cmd clk n (banked.exists_ p bank)
  refine ⟨n', ?_, fun t now all => Dram.by_update banked.longest banked.lambda all now updated⟩
  have ready : ¬ (p.postCommand = true ∨ p.busPacketType = .DATA) := by
    rw [opens.2.1]
    simpa using opens.ne_data.1
  simp [receive, Dram.receiveFromBus, if_neg ready, known, updated]

/-! ## One event -/

/-- The event as the memory system with an open device sees it. -/
def asked (s : OnDevice ρ κ T) : MCsim.Event :=
  .update (answers s.channel (clockCycle s.controller)) (answers s.channel (clockCycle s.controller))

/-- **An update on the device is an update**, with the tree's answers: the command that is sent is applied
to the tree, and nothing else is. -/
theorem exists_update (open_ : setup.OpenPage) (opens : parts.OpenPage) {wait : Nat}
    (banked : Banked T wait) (delays : Delays setup) (able : Able setup s.controller) :
    ∃ s', step setup parts s .update = some (s', ()) ∧
      MemorySystem.step setup parts s.controller s.asked = some (s'.controller, ()) ∧
      clockCycle s'.controller = (clockCycle s.controller + 1) % 2 ^ 32 ∧
      (s'.controller.sentTrace = s.controller.sentTrace → s'.channel = s.channel) ∧
      receive s.channel (handed s.controller s'.controller) (clockCycle s.controller) =
        some s'.channel ∧
      ∀ t : Int, clockCycle s.controller ≤ t → s.channel.All (Dram.Fields.By wait t) →
        s'.channel.All (Dram.Fields.By wait t) := by
  obtain ⟨c, channel⟩ := s
  replace able : Able setup c := able
  have wired := able.accounted.wired
  obtain ⟨check, asks⟩ : ∃ check, answers channel (clockCycle c) = check := ⟨_, rfl⟩
  obtain ⟨rs, new, priv, hands, prepared⟩ := prepare_hands open_ opens wired able.fits check
  have received := wired.perBank_ready hands setup check
  have quiet₁ : (c.commandScheduler.receive (new.map (stamp c.clockCycle))).Quiet := able.accounted.quiet
  have device₁ : ((c.commandScheduler.receive (new.map (stamp c.clockCycle))).refresh setup.device
      check).memoryDevice = c.commandScheduler.memoryDevice := (quiet₁.refresh setup.device check).2
  obtain ⟨cs, priv', out, called, sends⟩ := opens.commands setup.device check _ c.commandPrivate
    received.general (by rw [received.queues]; decide)
  obtain ⟨reg, slots, keeps⟩ := able.lined.reads
  have trace := (reads_turn delays able priv priv' hands sends slots keeps).2
  have commands := commands_turn setup rs new cs out priv priv' wired
  -- the device's clock
  have clock : clockCycle (MemorySystem.deviceUpdate setup
      (endCycle setup (c.scheduled rs priv new cs priv') out)) = (clockCycle c + 1) % 2 ^ 32 := by
    unfold clockCycle
    rw [commands]
    show (cs.memoryDevice.update setup.device).1.clockCycle = _
    rw [MemoryDevice.clockCycle_update, device_sends sends, MemoryDevice.clockCycle_receives, device₁]
  -- what reaches the tree
  obtain ⟨channel', reached, still, kept⟩ : ∃ channel', receive channel out.toList (clockCycle c) =
      some channel' ∧ (out.toList = [] → channel' = channel) ∧
      ∀ t : Int, clockCycle c ≤ t → channel.All (Dram.Fields.By wait t) →
        channel'.All (Dram.Fields.By wait t) := by
    cases out with
    | none => exact ⟨channel, rfl, fun _ => rfl, fun _ _ => id⟩
    | some x =>
      obtain ⟨bank, opened⟩ := sends_kind received sends x rfl
      obtain ⟨channel', reached, kept⟩ := receive_open banked opened bank channel (clockCycle c)
      exact ⟨channel', reached, fun impossible => absurd impossible (by simp), kept⟩
  have scheduled : ({ c with
      requestScheduler := rs, requestPrivate := priv, stats := new.foldl trackCommand c.stats
      commandScheduler := (c.commandScheduler.receive (new.map (stamp c.clockCycle))).refresh
        setup.device check } : MemoryController ρ κ).schedule setup parts check =
      some (c.scheduled rs priv new cs priv', out) := by
    unfold schedule
    dsimp only
    rw [called]
    rfl
  refine ⟨⟨MemorySystem.deviceUpdate setup (endCycle setup (c.scheduled rs priv new cs priv') out),
    channel'⟩, ?_, ?_, clock, fun same => still ?_, ?_, kept⟩
  · have before : ∀ c₁ : MemoryController ρ κ, c₁.commandScheduler.memoryDevice =
        c.commandScheduler.memoryDevice → handed c c₁ = [] := by
      intro c₁ same
      rw [handed, same, List.drop_length]
    have after : ∀ c₁ : MemoryController ρ κ, c₁.commandScheduler.memoryDevice =
        c.commandScheduler.memoryDevice → handed c₁ (MemorySystem.deviceUpdate setup
          (endCycle setup (c.scheduled rs priv new cs priv') out)) = out.toList := by
      intro c₁ same
      rw [handed, same, trace, List.drop_left]
    have updated : OnDevice.update setup parts ⟨c, channel⟩ = some
        ⟨MemorySystem.deviceUpdate setup (endCycle setup (c.scheduled rs priv new cs priv') out),
          channel'⟩ := by
      have nothing : receive channel [] (clockCycle c) = some channel := rfl
      unfold OnDevice.update updateWith
      dsimp only
      rw [asks, prepared, Option.bind_some, before _ device₁, nothing, Option.bind_some, asks, scheduled,
        Option.bind_some]
      dsimp only
      rw [after _ device₁, reached]
      rfl
    rw [step, updated]
    rfl
  · have updated : c.update setup parts check check =
        some (endCycle setup (c.scheduled rs priv new cs priv') out) := by
      rw [update_eq, prepared, Option.bind_some, scheduled]
      rfl
    show (MemorySystem.update setup parts (answers channel (clockCycle c))
      (answers channel (clockCycle c)) c).map _ = _
    rw [asks, MemorySystem.update, updated]
    rfl
  · have same' : (MemorySystem.deviceUpdate setup (endCycle setup (c.scheduled rs priv new cs priv')
        out)).sentTrace = c.sentTrace := same
    unfold sentTrace at same'
    rw [trace] at same'
    simpa using same'
  · show receive channel (handed c _) (clockCycle c) = _
    rw [handed, trace, List.drop_left]
    exact reached

/-! ## Questions -/

/-- Answers that are the tree's wherever the adapter has one. -/
def Answering (asked : Dram.Node T.below → Nat → Answers) : Prop :=
  ∀ n clk p answer, Dram.command_check T n p clk = some answer → asked n clk p = answer

theorem answering_answers : Answering (answers (T := T)) := by
  intro n clk p answer checked
  rw [answers, checked]
  cases answer <;> rfl

/-- What an event does is the same whatever a question that the adapter aborts on counts as. -/
def Answered (setup : Setup) (parts : Components ρ κ) (s : OnDevice ρ κ T) : OnDevice.Event → Prop
  | .addRequest .. => True
  | .update => ∀ asked, Answering asked → s.updateWith asked setup parts = s.update setup parts

/-- The commands of a request reach the queues without a question. -/
theorem enqueueAll_quiet {c c' : MemoryController ρ κ} (quiet : c.commandScheduler.Quiet)
    (h : enqueueAll setup c = some c') : c'.commandScheduler.Quiet := by
  obtain ⟨c₁, queued, rfl⟩ := Option.map_eq_some_iff.mp h
  show c₁.commandScheduler.Quiet
  refine foldlM_within (fun c c' : MemoryController ρ κ =>
    c.commandScheduler.Quiet → c'.commandScheduler.Quiet) (fun _ => id) (fun h h' => h' ∘ h) ?_ queued quiet
  intro c command c' entered quiet
  unfold enqueueCommand at entered
  dsimp only at entered
  split at entered
  · obtain rfl := Option.some.inj entered
    exact quiet
  · cases entered

/-- Without refresh the first half of a cycle asks nothing. -/
theorem prepare_asks {c : MemoryController ρ κ} (quiet : c.commandScheduler.Quiet) (check check' : Answers) :
    c.prepare setup parts check = c.prepare setup parts check' := by
  unfold MemoryController.prepare
  congr 1
  funext ⟨rs, priv⟩
  dsimp only
  cases queued : enqueueAll setup { c with requestScheduler := rs, requestPrivate := priv } with
  | none => rfl
  | some c₁ =>
    have quiet₁ : c₁.commandScheduler.Quiet :=
      enqueueAll_quiet (c := { c with requestScheduler := rs, requestPrivate := priv }) quiet queued
    rw [Option.map_some, Option.map_some, quiet₁.refresh_asks _ check check']

/-- **A cycle whose fronts the adapter can answer for** asks nothing else. -/
theorem answered_update (asks : parts.commandScheduler.AsksFronts)
    (quiet : s.controller.commandScheduler.Quiet) {c₁ : MemoryController ρ κ}
    (prepared : s.controller.prepare setup parts (answers s.channel (clockCycle s.controller)) = some c₁)
    (device : c₁.commandScheduler.memoryDevice = s.controller.commandScheduler.memoryDevice)
    (general : c₁.commandScheduler.General)
    (fronts : ∀ i < c₁.commandScheduler.queueCount, ∀ p ∈ (c₁.commandScheduler.waiting i).head?,
      (Dram.command_check T s.channel p (clockCycle s.controller)).isSome = true) :
    Answered setup parts s .update := by
  intro asked answering
  have before : handed s.controller c₁ = [] := by rw [handed, device, List.drop_length]
  have nothing : ∀ clk, receive s.channel [] clk = some s.channel := fun _ => rfl
  have scheduled : c₁.schedule setup parts (asked s.channel (clockCycle s.controller)) =
      c₁.schedule setup parts (answers s.channel (clockCycle s.controller)) := by
    unfold MemoryController.schedule
    rw [asks setup.device _ _ _ _ general]
    intro i hi p hp
    obtain ⟨answer, checked⟩ := Option.isSome_iff_exists.mp (fronts i hi p hp)
    rw [answering _ _ _ _ checked, answering_answers _ _ _ _ checked]
  unfold update updateWith
  dsimp only
  rw [prepare_asks quiet (asked s.channel _) (answers s.channel _), prepared, Option.bind_some,
    Option.bind_some, before, nothing, Option.bind_some, Option.bind_some, scheduled]

/-! ## Runs -/

/-- A request that fits, of a positive number of data bus widths. -/
def Event.Fits (setup : Setup) : OnDevice.Event → Prop
  | .addRequest requestorID address R_W size =>
    MCsim.Event.Fits setup (.addRequest requestorID address R_W size) ∧
      Sized setup.dataBusWidth size
  | .update => True

def Event.isUpdate : OnDevice.Event → Bool
  | .addRequest .. => false
  | .update => true

/-- What a memory system on its device keeps over a number of updates: the clock runs with them, and the
times of the tree look no further ahead than the longest entry. -/
structure Kept (setup : Setup) (wait updates : Nat) (s : OnDevice ρ κ T) : Prop where
  able : Able setup s.controller
  within : s.controller.commandScheduler.Within wait
  clock : clockCycle s.controller = updates % 2 ^ 32
  times : s.channel.All (Dram.Fields.By wait updates)

theorem kept_create (open_ : setup.OpenPage) (noRefresh : setup.refresh_mechanism = .none)
    (parts : Components ρ κ) (wait refreshCounting bank_release : Nat) :
    Kept setup wait 0 (create T setup parts refreshCounting bank_release) :=
  ⟨able_create open_ noRefresh parts refreshCounting bank_release, fun _ _ => Nat.zero_le wait, rfl,
    Dram.Node.All.construct fun level => Dram.Fields.By.fresh T level wait 0⟩

/-- What is assumed of a set-up on its device. -/
structure Founded (setup : Setup) (parts : Components ρ κ) (T : Dram.Standard) (wait : Nat) : Prop where
  open_ : setup.OpenPage
  opens : parts.OpenPage
  eager : parts.commandScheduler.Eager
  delays : Delays setup
  banked : Banked T wait
  queues : ∀ t t', setup.device.command_timing t t' ≤ wait

variable {wait updates : Nat}

/-- **A cycle is kept**, and it is a cycle of the memory system with the tree's answers. -/
theorem Kept.update (founded : Founded setup parts T wait) (kept : Kept setup wait updates s) :
    ∃ s', step setup parts s .update = some (s', ()) ∧
      MemorySystem.step setup parts s.controller s.asked = some (s'.controller, ()) ∧
      (s'.controller.sentTrace = s.controller.sentTrace → s'.channel = s.channel) ∧
      receive s.channel (handed s.controller s'.controller) (clockCycle s.controller) =
        some s'.channel ∧
      Kept setup wait (updates + 1) s' := by
  obtain ⟨open_, opens, eager, delays, banked, queues⟩ := founded
  obtain ⟨s', stepped, same, clock, still, reached, times⟩ :=
    exists_update open_ opens banked delays kept.able (s := s)
  have turn := turn_of_step open_ opens eager kept.able.accounted.wired kept.able.fits same
  obtain ⟨sent, works⟩ := turn.works delays kept.able
  refine ⟨s', stepped, same, still, reached, turn.able delays kept.able, works.within wait queues kept.within, ?_, ?_⟩
  · rw [clock, kept.clock, Nat.mod_add_mod]
  · have now : clockCycle s.controller ≤ updates := kept.clock ▸ Nat.mod_le _ _
    have all := times updates (by exact_mod_cast now) kept.times
    exact all.mono fun f hf => hf.mono (by push_cast; omega)

theorem Kept.arrive (open_ : setup.OpenPage) (kept : Kept setup wait updates s)
    {requestorID address size : Nat} {R_W : Bool}
    (fits : Event.Fits setup (.addRequest requestorID address R_W size)) :
    ∃ s', step setup parts s (.addRequest requestorID address R_W size) = some (s', ()) ∧
      Kept setup wait updates s' := by
  obtain ⟨able, within, clock, times⟩ := kept
  refine ⟨{ s with
    controller := s.controller.arrived (incoming setup s.controller requestorID address R_W size) R_W },
    ?_, able.arrive open_ fits.1 fits.2, within, clock, times⟩
  rw [step, addRequest_eq open_ able.accounted.wired]
  rfl

/-- **Every event is kept and can happen.** -/
theorem Kept.progress (founded : Founded setup parts T wait) (kept : Kept setup wait updates s)
    {e : OnDevice.Event} (fits : e.Fits setup) :
    ∃ s', step setup parts s e = some (s', ()) ∧
      Kept setup wait (updates + if e.isUpdate then 1 else 0) s' := by
  cases e with
  | addRequest requestorID address R_W size => exact kept.arrive founded.open_ fits
  | update =>
    obtain ⟨s', stepped, _, _, _, kept'⟩ := kept.update founded
    exact ⟨s', stepped, kept'⟩

/-- **No cycle asks what the adapter aborts on.** -/
theorem Kept.answered (founded : Founded setup parts T wait)
    (asks : parts.commandScheduler.AsksFronts) (kept : Kept setup wait updates s) :
    Answered setup parts s .update := by
  have wired := kept.able.accounted.wired
  have quiet := kept.able.accounted.quiet
  obtain ⟨rs, new, priv, hands, prepared⟩ := prepare_hands founded.open_ founded.opens wired
    kept.able.fits (answers s.channel (clockCycle s.controller))
  have received := wired.perBank_ready hands setup (answers s.channel (clockCycle s.controller))
  have quiet₁ : (s.controller.commandScheduler.receive
      (new.map (stamp s.controller.clockCycle))).Quiet := quiet
  refine answered_update asks quiet prepared (quiet₁.refresh setup.device _).2 received.general ?_
  intro i hi p hp
  have own : OpenCommand i p := received.queued i p (List.mem_of_mem_head? hp)
  obtain rfl : p.bank = i := own.1
  exact command_check_isSome founded.banked own (received.queues ▸ hi) _ _

/-- In a run of requests that fit, every question is one that the adapter answers. -/
theorem onDevice_answered (founded : Founded setup parts T wait)
    (asks : parts.commandScheduler.AsksFronts) (noRefresh : setup.refresh_mechanism = .none)
    (refreshCounting bank_release : Nat) (events : List OnDevice.Event)
    (fit : ∀ e ∈ events, e.Fits setup) :
    Along (step setup parts) (fun s e _ _ => Answered setup parts s e)
      (create T setup parts refreshCounting bank_release) events := by
  refine along_invariant (fun s => ∃ updates, Kept setup wait updates s) ?_
    ⟨0, kept_create founded.open_ noRefresh parts wait refreshCounting bank_release⟩
    (along_of_forall (step setup parts) _ fit)
  rintro s e s' o ⟨updates, kept⟩ stepped fits
  obtain ⟨s₁, stepped', kept'⟩ := kept.progress founded fits
  obtain ⟨rfl, _⟩ := Prod.mk.inj (Option.some.inj (stepped'.symm.trans stepped))
  refine ⟨⟨_, kept'⟩, ?_⟩
  cases e with
  | addRequest => trivial
  | update => exact kept.answered founded asks

/-! ## Cycles -/

/-- The answers of the tree along a behaviour. -/
def asks (trace : Nat → OnDevice ρ κ T) (n : Nat) : Answers × Answers :=
  (answers (trace n).channel (clockCycle (trace n).controller),
    answers (trace n).channel (clockCycle (trace n).controller))

/-- A behaviour on the device, from a state that was kept. -/
structure Cycles (setup : Setup) (parts : Components ρ κ) (wait updates : Nat)
    (trace : Nat → OnDevice ρ κ T) : Prop where
  kept : ∀ n, Kept setup wait (updates + n) (trace n)
  behaviour : Behaviour (step setup parts) (fun _ => .update) trace
  system : Behaviour (MemorySystem.step setup parts) (cycles (asks trace)) fun n => (trace n).controller
  still : ∀ n, (trace (n + 1)).controller.sentTrace = (trace n).controller.sentTrace →
    (trace (n + 1)).channel = (trace n).channel

theorem exists_cycles (founded : Founded setup parts T wait) (kept : Kept setup wait updates s) :
    ∃ trace, trace 0 = s ∧ Cycles setup parts wait updates trace := by
  obtain ⟨trace, start, behaviour, _⟩ := exists_behaviour (step setup parts)
    (fun _ => .update) (fun s => ∃ updates, Kept setup wait updates s)
    (fun n h => by
      obtain ⟨updates, kept⟩ := h
      obtain ⟨s', stepped, _, _, _, kept'⟩ := kept.update founded
      exact ⟨s', (), stepped, _, kept'⟩) ⟨updates, kept⟩
  -- every state of it is the one that `Kept.update` speaks of
  have next : ∀ n, Kept setup wait (updates + n) (trace n) →
      MemorySystem.step setup parts (trace n).controller (trace n).asked =
          some ((trace (n + 1)).controller, ()) ∧
        ((trace (n + 1)).controller.sentTrace = (trace n).controller.sentTrace →
          (trace (n + 1)).channel = (trace n).channel) ∧
        Kept setup wait (updates + (n + 1)) (trace (n + 1)) := by
    intro n here
    obtain ⟨s', stepped, same, still, _, kept'⟩ := here.update founded
    obtain ⟨o, went⟩ := behaviour n
    rw [stepped] at went
    obtain ⟨rfl, _⟩ := Prod.mk.inj (Option.some.inj went)
    exact ⟨same, still, kept'⟩
  have all : ∀ n, Kept setup wait (updates + n) (trace n) := by
    intro n
    induction n with
    | zero => exact start ▸ kept
    | succ n ih => exact (next n ih).2.2
  exact ⟨trace, start, all, behaviour, fun n => ⟨(), (next n (all n)).1⟩, fun n => (next n (all n)).2.1⟩

/-- **The tree is prompt** until the clock runs over. -/
theorem Cycles.prompt (founded : Founded setup parts T wait) {trace : Nat → OnDevice ρ κ T}
    (cycles : Cycles setup parts wait updates trace) (horizon : Nat)
    (room : updates + horizon < 2 ^ 32) :
    Prompt wait horizon (asks trace) fun n => (trace n).controller := by
  intro n x opens bank inside same
  obtain ⟨sent, working⟩ := exists_working founded.open_ founded.opens founded.eager founded.delays
    (cycles.kept 0).able cycles.system
  -- nothing was sent in between, so the tree is as it was
  have grows : ∀ k, ∃ l, (trace (n + k)).controller.sentTrace = (trace n).controller.sentTrace ++ l ∧
      (l = [] → (trace (n + k)).channel = (trace n).channel) := by
    intro k
    induction k with
    | zero => exact ⟨[], (List.append_nil _).symm, fun _ => rfl⟩
    | succ k ih =>
      obtain ⟨l, longer, still⟩ := ih
      have next : (trace (n + k + 1)).controller.sentTrace =
          (trace (n + k)).controller.sentTrace ++ (sent (n + k)).toList := (working (n + k)).2.trace
      refine ⟨l ++ (sent (n + k)).toList, ?_, fun empty => ?_⟩
      · rw [← Nat.add_assoc, next, longer, List.append_assoc]
      · obtain ⟨rfl, silent⟩ := List.append_eq_nil_iff.mp empty
        rw [silent, List.append_nil] at next
        exact (cycles.still (n + k) next).trans (still rfl)
  obtain ⟨l, longer, still⟩ := grows wait
  have empty : l = [] := by
    rw [same] at longer
    simpa using longer
  have times := (cycles.kept n).times
  rw [← still empty] at times
  apply answers_of_rest founded.banked opens bank times
  rw [(cycles.kept (n + wait)).clock, Nat.mod_eq_of_lt (by omega)]
  push_cast
  omega

/-- The cycles until everything is completed: those of the work ahead, and the longer pipeline. -/
def cyclesToFinish (setup : Setup) (wait : Nat) (c : MemoryController ρ κ) : Nat :=
  cyclesAhead setup wait c +
    max (setup.device.constraints.writeDelay false) setup.device.constraints.readDelay

/-- The updates among some events. -/
def updatesOf (events : List OnDevice.Event) : Nat := events.countP Event.isUpdate

/-- **Every accepted request completes in time**, on a tree with the banks of the set-up: after any events,
and once as many cycles have passed as the work ahead takes, exactly the accepted requests were reported,
each once, and none is pending. -/
theorem onDevice_completes (founded : Founded setup parts T wait)
    (noRefresh : setup.refresh_mechanism = .none) (refreshCounting bank_release : Nat)
    (events : List OnDevice.Event) (fit : ∀ e ∈ events, e.Fits setup) :
    ∃ s os, run (step setup parts) (create T setup parts refreshCounting bank_release) events =
        some (s, os) ∧
      ∀ n, cyclesToFinish setup wait s.controller ≤ n → updatesOf events + n < 2 ^ 32 →
        ∃ s' os', run (step setup parts) s (List.replicate n .update) = some (s', os') ∧
          s'.controller.Finished ∧ s'.controller.accepted = s.controller.accepted := by
  have start : Kept (T := T) setup wait 0 (create T setup parts refreshCounting bank_release) :=
    kept_create founded.open_ noRefresh parts wait refreshCounting bank_release
  obtain ⟨s, os, ran⟩ := run_defined (fun s => ∃ updates, Kept setup wait updates s) (Event.Fits setup)
    (fun ⟨updates, kept⟩ fits => by
      obtain ⟨s', stepped, kept'⟩ := kept.progress founded fits
      exact ⟨s', (), stepped, _, kept'⟩) ⟨0, start⟩ fit
  have kept : Kept setup wait (updatesOf events) s := by
    refine run_history_along (fun events s _ => Kept setup wait (updatesOf events) s)
      (P := fun _ e _ _ => Event.Fits setup e) ?_ start
      (along_of_forall (step setup parts) _ fit) ran
    intro events s os e s' o kept stepped fits
    obtain ⟨s'', stepped', kept'⟩ := kept.progress founded fits
    rw [stepped] at stepped'
    obtain ⟨rfl, _⟩ := Prod.mk.inj (Option.some.inj stepped')
    rw [updatesOf, List.countP_append, List.countP_singleton]
    exact kept'
  refine ⟨s, os, ran, fun n enough small => ?_⟩
  obtain ⟨trace, first, cycles⟩ := exists_cycles founded kept
  obtain ⟨sent, working⟩ := exists_working founded.open_ founded.opens founded.eager founded.delays
    (cycles.kept 0).able cycles.system
  obtain ⟨os', ran'⟩ := cycles.behaviour.run n
  have fed : inputs (fun _ => OnDevice.Event.update) n = List.replicate n .update := by
    simp [inputs, List.map_const']
  rw [first, fed] at ran'
  unfold cyclesToFinish at enough
  refine ⟨trace n, os', ran', ?_, ?_⟩
  · exact finishes_within working (cycles.prompt founded n small)
      (fun m => (cycles.kept m).within) (by rw [first]; omega) (by rw [first]; exact enough)
  · have same := MemorySystem.accepted_cycles founded.open_ founded.opens founded.eager cycles.system
      (fun m => (cycles.kept m).able) n
    rw [same, first]

end OnDevice

/-! ## DDR3 -/

namespace Dram

/-- Every level, and every command. -/
def levels : List Level := [.Channel, .Rank, .BankGroup, .Bank, .Row, .Column]

def commands : List Command :=
  [.ACT_R, .ACT_W, .ACT, .PRE, .PREA, .RD, .WR, .RDA, .WRA, .REF, .PDE, .PDX, .SRE, .SRX]

/-- The longest entry of the tables. -/
def Standard.longest (T : Standard) : Nat :=
  (levels.flatMap fun level => commands.flatMap fun cmd =>
    (T.timing level cmd).map fun e => e.val.toNat).foldr max 0

theorem longest_longest (T : Standard) : T.Longest T.longest := by
  intro level cmd e he
  have here : e.val.toNat ∈ levels.flatMap fun level => commands.flatMap fun cmd =>
      (T.timing level cmd).map fun e => e.val.toNat :=
    List.mem_flatMap.mpr ⟨level, by cases level <;> decide,
      List.mem_flatMap.mpr ⟨cmd, by cases cmd <;> decide, List.mem_map_of_mem he⟩⟩
  have le : e.val.toNat ≤ T.longest := List.le_max_of_le here (Nat.le_refl _)
  omega

end Dram

/-- Every packet type. -/
def BusPacketType.all : List BusPacketType :=
  [.RD, .RDA, .WR, .WRA, .ACT_R, .ACT_W, .ACT, .PRE, .PREA, .REF, .REFPB, .PDE, .PDX, .SRE, .SRX, .DATA]

/-- The longest delay between two commands of a queue. -/
def DeviceSpec.longest (spec : DeviceSpec) : Nat :=
  (BusPacketType.all.flatMap fun t => BusPacketType.all.map fun t' => spec.command_timing t t').foldr max 0

theorem DeviceSpec.command_timing_le (spec : DeviceSpec) (t t' : BusPacketType) :
    spec.command_timing t t' ≤ spec.longest := by
  have every : ∀ t, t ∈ BusPacketType.all := by
    intro t
    cases t <;> decide
  exact List.le_max_of_le (List.mem_flatMap.mpr ⟨t, every t, List.mem_map_of_mem (every t')⟩) (Nat.le_refl _)

namespace OnDevice

open Dram (DDR3.standard DDR3.device)

variable {org : Dram.DDR3.Org} {speed : Dram.DDR3.Speed} {ranks : Nat}

/-- The longest wait of a DDR3 device: of its tree for another command, and of a queue for its next. -/
def ddr3Wait (org : Dram.DDR3.Org) (speed : Dram.DDR3.Speed) (ranks : Nat) : Nat :=
  max (Dram.DDR3.standard org speed ranks).longest (Dram.DDR3.device org speed ranks).longest

theorem banked_ddr3 (org : Dram.DDR3.Org) (speed : Dram.DDR3.Speed) {ranks : Nat} (some_rank : 0 < ranks) :
    Banked (Dram.DDR3.standard org speed ranks) (ddr3Wait org speed ranks) := by
  refine ⟨rfl, fun level cmd e he => ?_, fun p bank l hl => ?_⟩
  · have := Dram.longest_longest _ level cmd e he
    unfold ddr3Wait
    omega
  · have banks : (Dram.DDR3.org_table org).banks = 8 := by cases org <;> rfl
    simp only [Dram.DDR3.standard, List.mem_cons, List.not_mem_nil, or_false] at hl
    rcases hl with rfl | rfl
    · exact some_rank
    · show p.bank < (Dram.DDR3.org_table org).banks
      rw [banks]
      exact bank

theorem delays_ddr3 {setup : Setup} (device : setup.device = Dram.DDR3.device org speed ranks) :
    Delays setup := by
  constructor
  · rw [device]
    show 0 < ((Dram.DDR3.speed_table speed).nCWL + (Dram.DDR3.speed_table speed).nBL) % 2 ^ 32
    cases speed <;> decide
  · rw [device]
    show 0 < ((Dram.DDR3.speed_table speed).nCL + (Dram.DDR3.speed_table speed).nBL) % 2 ^ 32
    cases speed <;> decide

/-- The set-ups of the laws below are founded. -/
theorem founded_ddr3 {setup : Setup} (open_ : setup.OpenPage) {parts : Components Unit Unit}
    (general : parts.General) (some_rank : 0 < ranks)
    (device : setup.device = Dram.DDR3.device org speed ranks) :
    Founded setup parts (Dram.DDR3.standard org speed ranks) (ddr3Wait org speed ranks) :=
  ⟨open_, general.openPage, general.eager, delays_ddr3 device, banked_ddr3 org speed some_rank,
    fun t t' => by
      have := (Dram.DDR3.device org speed ranks).command_timing_le t t'
      rw [device]
      unfold ddr3Wait
      omega⟩

/-- The adapter of a DDR3 device answers every question of a run, so that it is no matter what an abort
counts as. -/
theorem ddr3_answered {setup : Setup} (open_ : setup.OpenPage)
    (noRefresh : setup.refresh_mechanism = .none) {parts : Components Unit Unit} (general : parts.General)
    (some_rank : 0 < ranks) (device : setup.device = Dram.DDR3.device org speed ranks)
    (refreshCounting bank_release : Nat) (events : List OnDevice.Event)
    (fit : ∀ e ∈ events, e.Fits setup) :
    Along (step setup parts) (fun s e _ _ => Answered setup parts s e)
      (create (Dram.DDR3.standard org speed ranks) setup parts refreshCounting bank_release) events :=
  onDevice_answered (founded_ddr3 open_ general some_rank device) general.asksFronts noRefresh
    refreshCounting bank_release events fit

/-- **On a DDR3 device every accepted request completes in time**, whatever the organisation and the speed,
under any of the general schedulers without refresh. -/
theorem ddr3_completes {setup : Setup} (open_ : setup.OpenPage)
    (noRefresh : setup.refresh_mechanism = .none) {parts : Components Unit Unit} (general : parts.General)
    (some_rank : 0 < ranks) (device : setup.device = Dram.DDR3.device org speed ranks)
    (refreshCounting bank_release : Nat) (events : List OnDevice.Event)
    (fit : ∀ e ∈ events, e.Fits setup) :
    ∃ s os, run (step setup parts) (create (Dram.DDR3.standard org speed ranks) setup parts refreshCounting
        bank_release) events = some (s, os) ∧
      ∀ n, cyclesToFinish setup (ddr3Wait org speed ranks) s.controller ≤ n →
        updatesOf events + n < 2 ^ 32 →
        ∃ s' os', run (step setup parts) s (List.replicate n .update) = some (s', os') ∧
          s'.controller.Finished ∧ s'.controller.accepted = s.controller.accepted := by
  have founded := founded_ddr3 open_ general some_rank device
  exact onDevice_completes founded noRefresh refreshCounting bank_release events fit

/-- The law at two reads of one address and a write on the default device. -/
theorem ddr3_completes_frfcfsIni :
    ∃ s os, run (step openPageSetup frfcfsIni) (create (Dram.DDR3.standard .DDR3_2Gb_x8 .DDR3_1600H 1)
        openPageSetup frfcfsIni 0 0)
        [.addRequest 1 0 true 128, .addRequest 1 0 true 64, .addRequest 1 64 false 64] = some (s, os) ∧
      ∀ n, cyclesToFinish openPageSetup (ddr3Wait .DDR3_2Gb_x8 .DDR3_1600H 1) s.controller ≤ n →
        n < 2 ^ 32 → ∃ s' os', run (step openPageSetup frfcfsIni) s (List.replicate n .update) =
          some (s', os') ∧ s'.controller.Finished := by
  obtain ⟨s, os, ran, law⟩ := @ddr3_completes .DDR3_2Gb_x8 .DDR3_1600H 1 openPageSetup
    ⟨⟨by decide, rfl, rfl, rfl, rfl, rfl, rfl, fun _ => rfl⟩, rfl, rfl, rfl⟩ rfl
    frfcfsIni ⟨.inr rfl, rfl, .inl rfl⟩ Nat.one_pos rfl 0 0
    [.addRequest 1 0 true 128, .addRequest 1 0 true 64, .addRequest 1 64 false 64]
    fun e he => by
      simp only [List.mem_cons, List.not_mem_nil, or_false] at he
      rcases he with rfl | rfl | rfl <;>
        exact ⟨fun _ => by decide, by decide, by decide, by decide⟩
  refine ⟨s, os, ran, fun n enough small => ?_⟩
  obtain ⟨s', os', ran', done, _⟩ := law n enough (by simpa [updatesOf, Event.isUpdate] using small)
  exact ⟨s', os', ran', done⟩

end OnDevice
end MCsim
