import MCsim.Generators
import MCsim.Laws.Controller
import MCsim.Setups
import MCsim.Lib.Erase
import Mathlib.Data.List.Perm.Basic

/-!
# The statistics of open and closed accesses

`enqueueCommand` and the completions keep four counters of requestor 0: its reads and writes, told apart
by whether an activation was made for them. Both sides share one flag, `closeRequest`, which an
activation sets and a completion clears.

The machine is the controller's own functions with every other part left open: requests arrive, some of
the requests that wait are handed to the generator with some answer of a row table, data of any kind
comes, and everything that the counters do not depend on becomes something else at any time. The runs of
a memory system are runs of it (`memorySystem_statistics`). `served` is a log of what was handed over of
requestor 0, with whether the generator made an activation for it.

With one request outstanding at a time the flag follows the request through its three stages (`Stage`).
It is set in the constructor, though, so the first request is counted as closed whatever was made of it.
-/

namespace MCsim
namespace OpenClose

open MemoryController

variable {ρ κ : Type}

/-! ## The open system -/

/-- The controller, the requests of requestor 0 that wait in its queues, and the log. -/
structure State (ρ κ : Type) where
  controller : MemoryController ρ κ
  waiting : List Request := []
  served : List (RequestType × Bool) := []

inductive Event (ρ κ : Type) where
  | addRequest (requestorID address : Nat) (R_W : Bool) (size : Nat)
  /-- The request scheduler hands these requests over, with what it takes their banks for. -/
  | schedule (handed : List (Request × Bool))
  /-- A packet of data comes from the device, or leaves for it. -/
  | data (isRead : Bool) (p : BusPacket)
  /-- Everything else the controller does. -/
  | others (c : MemoryController ρ κ)

/-- The commands have an activation among them. -/
def activates (l : List BusPacket) : Bool :=
  l.any fun c => c.busPacketType == .ACT || c.busPacketType == .ACT_R || c.busPacketType == .ACT_W

/-- The commands that a generator added. -/
def made (g g' : CommandGenerator) : List BusPacket :=
  g'.commandBuffer.drop g.commandBuffer.length

/-- A request is handed to the generator. One of requestor 0 has waited and waits no longer. -/
def hand (gen : Generator) (st : State ρ κ) (entry : Request × Bool) : Option (State ρ κ) :=
  if entry.1.requestorID = 0 ∧ entry.1 ∉ st.waiting then none
  else
    (st.controller.requestScheduler.isSchedulable gen entry.1 entry.2).map fun (rs, _) =>
      { controller := { st.controller with requestScheduler := rs }
        waiting := if entry.1.requestorID = 0 then st.waiting.erase entry.1 else st.waiting
        served := if entry.1.requestorID = 0 then
            st.served ++ [(entry.1.requestType,
              activates (made st.controller.requestScheduler.commandGenerator rs.commandGenerator))]
          else st.served }

/-- The controller after something that leaves alone what the counters depend on. -/
def keep (c other : MemoryController ρ κ) : MemoryController ρ κ :=
  { other with
    requestScheduler :=
      { other.requestScheduler with commandGenerator := c.requestScheduler.commandGenerator }
    pendingReadRequest := c.pendingReadRequest
    pendingWriteRequest := c.pendingWriteRequest
    nextHandle := c.nextHandle
    stats := { other.stats with
      openRead := c.stats.openRead, closeRead := c.stats.closeRead
      openWrite := c.stats.openWrite, closeWrite := c.stats.closeWrite
      closeRequest := c.stats.closeRequest } }

/-- `receiveData` or `sendData`. -/
def transfer (setup : Setup) (isRead : Bool) (c : MemoryController ρ κ) (p : BusPacket) :
    MemoryController ρ κ :=
  if isRead then receiveData setup c p else sendData setup c p

def step (setup : Setup) (gen : Generator) : Lib.Machine.Step (State ρ κ) (Event ρ κ) Unit
  | st, .addRequest requestorID address R_W size =>
    (st.controller.addRequest setup requestorID address R_W size).map fun c =>
      ({ st with
        controller := c
        waiting := if requestorID = 0 then
            st.waiting ++ [incoming setup st.controller requestorID address R_W size]
          else st.waiting }, ())
  | st, .schedule handed =>
    (handed.foldlM (hand gen) st).bind fun st =>
      (enqueueAll setup st.controller).map fun c => ({ st with controller := c }, ())
  | st, .data isRead p => some ({ st with controller := transfer setup isRead st.controller p }, ())
  | st, .others c => some ({ st with controller := keep st.controller c }, ())

/-- The requests of requestor 0 that are pending. -/
def mine (c : MemoryController ρ κ) : List Request :=
  (c.pendingReadRequest ++ c.pendingWriteRequest).filter (·.requestorID == 0)

/-- What the runs are about: requestor 0 has one request outstanding at a time, one data bus width
large, and its data comes once its commands were made, as it does in a memory system
(`Mirrors.data_allowed`). -/
def Allowed (setup : Setup) (st : State ρ κ) : Event ρ κ → Prop
  | .addRequest requestorID _ _ size =>
    requestorID = 0 → size = setup.dataBusWidth ∧ mine st.controller = []
  | .data isRead p => p.requestorID = 0 →
    (∃ r ∈ st.controller.pending isRead, matchesRequest p r = true) → st.waiting = []
  | _ => True

instance (setup : Setup) (st : State ρ κ) (event : Event ρ κ) : Decidable (Allowed setup st event) :=
  match event with
  | .addRequest requestorID _ _ size => inferInstanceAs
      (Decidable (requestorID = 0 → size = setup.dataBusWidth ∧ mine st.controller = []))
  | .schedule _ => .isTrue trivial
  | .data isRead p => inferInstanceAs (Decidable (p.requestorID = 0 →
      (∃ r ∈ st.controller.pending isRead, matchesRequest p r = true) → st.waiting = []))
  | .others _ => .isTrue trivial

/-- The counter that a request of this kind goes to. -/
def counter (stats : Statistics) : RequestType × Bool → Nat
  | (.DATA_READ, true) => stats.closeRead
  | (.DATA_READ, false) => stats.openRead
  | (.DATA_WRITE, true) => stats.closeWrite
  | (.DATA_WRITE, false) => stats.openWrite

/-- The statistics are right: each counter is the number of the requests of its kind, and the four are
all of them together. -/
def Exact (st : State ρ κ) : Prop :=
  (∀ kind, counter st.controller.stats kind = st.served.count kind) ∧
    st.controller.stats.closeRead + st.controller.stats.closeWrite + st.controller.stats.openRead +
      st.controller.stats.openWrite = st.served.length

/-! ## The commands of one request -/

/-- What the generators of an open page make of a request: row commands, then column accesses. -/
structure Cracked (g : CommandGenerator) (r : Request) (g' : CommandGenerator) (rows cas : List BusPacket) :
    Prop where
  width : g'.dataBusSize = g.dataBusSize
  buffer : g'.commandBuffer = g.commandBuffer ++ (rows ++ cas)
  row : ∀ c ∈ rows, c.requestorID = r.requestorID ∧
    (c.busPacketType = .PRE ∨ c.busPacketType = .ACT ∨ c.busPacketType = .ACT_R ∨
      c.busPacketType = .ACT_W)
  access : ∀ c ∈ cas, c.requestorID = r.requestorID ∧
    c.busPacketType = CommandGenerator.casType r
  count : cas.length = CommandGenerator.beats g.dataBusSize r

/-- A generator that always cracks its requests so. -/
def Cracks (gen : Generator) : Prop :=
  ∀ {g : CommandGenerator} {r : Request} {isOpen : Bool} {g' : CommandGenerator} {accepted : Bool},
    gen g r isOpen = some (g', accepted) → ∃ rows cas, Cracked g r g' rows cas

theorem openGenerator_cracks : Cracks openGenerator := by
  intro g r isOpen g' accepted h
  obtain ⟨g₁, cracked, e⟩ := Option.map_eq_some_iff.mp h
  obtain ⟨rfl, rfl⟩ : g₁ = g' ∧ true = accepted := by simpa using e
  rw [CommandGenerator.commandGenerateOpen_eq] at cracked
  split at cracked
  · obtain rfl := Option.some.inj cracked
    refine ⟨g.openCommands r isOpen, CommandGenerator.casCommands g.dataBusSize r, rfl, rfl, ?_, ?_, ?_⟩
    · intro c hc
      rcases CommandGenerator.mem_openCommands hc with rfl | rfl <;>
        simp [CommandGenerator.rowCommand]
    · intro c hc
      obtain ⟨type, _, _, requestor, _⟩ := CommandGenerator.mem_casCommands hc
      exact ⟨requestor, type⟩
    · simp [CommandGenerator.casCommands]
  · cases cracked

theorem roundGenerator_cracks : Cracks roundGenerator := by
  intro g r isOpen g' accepted h
  unfold roundGenerator at h
  split at h
  · obtain ⟨rfl, rfl⟩ := Prod.mk.inj (Option.some.inj h)
    refine ⟨g.roundRows r isOpen, CommandGenerator.roundCas g.dataBusSize r, rfl,
      List.append_assoc _ _ _, ?_, ?_, ?_⟩
    · intro c hc
      unfold CommandGenerator.roundRows at hc
      have activation : CommandGenerator.actType r = .ACT_R ∨ CommandGenerator.actType r = .ACT_W := by
        unfold CommandGenerator.actType
        cases r.requestType <;> simp
      split at hc
      · cases hc
      · split at hc
        · obtain rfl := List.mem_singleton.mp hc
          exact ⟨rfl, .inr (.inr activation)⟩
        · rcases List.mem_cons.mp hc with rfl | hc
          · exact ⟨rfl, .inl rfl⟩
          · obtain rfl := List.mem_singleton.mp hc
            exact ⟨rfl, .inr (.inr activation)⟩
    · intro c hc
      obtain ⟨x, _, rfl⟩ := List.mem_map.mp hc
      exact ⟨rfl, rfl⟩
    · simp [CommandGenerator.roundCas]
  · cases h

/-! ## The commands of one request in the statistics -/

/-- The statistics once these commands were enqueued. -/
def settle (stats : Statistics) (l : List BusPacket) : Statistics := l.foldl trackCommand stats

theorem settle_append (stats : Statistics) (l l' : List BusPacket) :
    settle stats (l ++ l') = settle (settle stats l) l' := List.foldl_append

/-- Commands of other requestors do not count. -/
theorem settle_foreign (stats : Statistics) {l : List BusPacket}
    (foreign : ∀ c ∈ l, c.requestorID ≠ 0) : settle stats l = stats := by
  induction l generalizing stats with
  | nil => rfl
  | cons c l ih =>
    have first : trackCommand stats c = stats := if_neg (foreign c List.mem_cons_self)
    show settle (trackCommand stats c) l = stats
    rw [first]
    exact ih stats fun c' hc' => foreign c' (List.mem_cons_of_mem c hc')

theorem activates_append (l l' : List BusPacket) :
    activates (l ++ l') = (activates l || activates l') := List.any_append

/-- The statistics after row commands that may hold an activation. -/
def flagged (stats : Statistics) (activation : Bool) : Statistics :=
  { stats with closeRequest := stats.closeRequest || activation }

@[simp] theorem flagged_false (stats : Statistics) : flagged stats false = stats := by
  unfold flagged
  rw [Bool.or_false]

@[simp] theorem flagged_flagged (stats : Statistics) (a b : Bool) :
    flagged (flagged stats a) b = flagged stats (a || b) := by
  unfold flagged
  rw [Bool.or_assoc]

/-- Row commands of requestor 0 set the flag where an activation is among them. -/
theorem settle_rows (stats : Statistics) {l : List BusPacket}
    (row : ∀ c ∈ l, c.requestorID = 0 ∧ (c.busPacketType = .PRE ∨ c.busPacketType = .ACT ∨
      c.busPacketType = .ACT_R ∨ c.busPacketType = .ACT_W)) :
    settle stats l = flagged stats (activates l) := by
  induction l generalizing stats with
  | nil => exact (flagged_false stats).symm
  | cons c l ih =>
    obtain ⟨own, type⟩ := row c List.mem_cons_self
    have first : trackCommand stats c = flagged stats (activates [c]) := by
      rcases type with type | type | type | type
      · have plain : activates [c] = false := by simp [activates, type]
        rw [plain, flagged_false]
        simp [trackCommand, own, type]
      all_goals simp [trackCommand, own, type, activates, flagged]
    show settle (trackCommand stats c) l = _
    rw [ih _ fun c' hc' => row c' (List.mem_cons_of_mem c hc'), first, flagged_flagged,
      ← activates_append, List.singleton_append]

/-- The one column access of a request of requestor 0 is counted as the flag says. -/
theorem counter_access (stats : Statistics) {c : BusPacket} {r : Request} (own : c.requestorID = 0)
    (type : c.busPacketType = CommandGenerator.casType r) (kind : RequestType × Bool) :
    (trackCommand stats c).closeRequest = stats.closeRequest ∧
      counter (trackCommand stats c) kind = counter stats kind +
        if kind = (r.requestType, stats.closeRequest) then 1 else 0 := by
  obtain ⟨t, closed⟩ := kind
  unfold trackCommand CommandGenerator.casType at *
  rw [if_pos own, type]
  cases r.requestType <;> cases flag : stats.closeRequest <;> cases t <;> cases closed <;>
    simp [counter]

/-- **A request of requestor 0 in the statistics**: it is counted as closed where its commands hold an
activation or the flag was set already, and that is what the flag is from then on. -/
theorem settle_cracked {g g' : CommandGenerator} {r : Request} {rows cas : List BusPacket}
    (cracked : Cracked g r g' rows cas) (own : r.requestorID = 0)
    (one : CommandGenerator.beats g.dataBusSize r = 1) (stats : Statistics) :
    (settle stats (rows ++ cas)).closeRequest = (stats.closeRequest || activates (rows ++ cas)) ∧
      ∀ kind, counter (settle stats (rows ++ cas)) kind = counter stats kind +
        if kind = (r.requestType, stats.closeRequest || activates (rows ++ cas)) then 1 else 0 := by
  obtain ⟨access, rfl⟩ := List.length_eq_one_iff.mp (cracked.count.trans one)
  obtain ⟨mine, type⟩ := cracked.access access List.mem_cons_self
  have plain : activates [access] = false := by
    unfold CommandGenerator.casType at type
    cases direction : r.requestType <;> simp [direction] at type <;> simp [activates, type]
  have flag : (stats.closeRequest || activates (rows ++ [access])) =
      (stats.closeRequest || activates rows) := by
    rw [activates_append, plain, Bool.or_false]
  have before := settle_rows stats fun c hc => by
    obtain ⟨requestor, type⟩ := cracked.row c hc
    exact ⟨requestor.trans own, type⟩
  rw [flag, settle_append, before]
  refine ⟨(counter_access _ (mine.trans own) type (r.requestType, true)).1, fun kind => ?_⟩
  exact (counter_access _ (mine.trans own) type kind).2

/-! ## The stages of requestor 0's request -/

/-- The log with its first request counted as closed: what the counters hold. -/
def charged : List (RequestType × Bool) → List (RequestType × Bool)
  | [] => []
  | (type, _) :: l => (type, true) :: l

theorem charged_append (l : List (RequestType × Bool)) (type : RequestType) (activated : Bool) :
    charged (l ++ [(type, activated)]) = charged l ++ [(type, l.isEmpty || activated)] := by
  cases l <;> rfl

/-- Where requestor 0 stands, by its pending requests, those that wait, and the flag: nothing is
outstanding, a request waits, or its commands were made and its data is awaited. -/
inductive Stage (width : Nat) (served : List (RequestType × Bool)) (mine waiting : List Request)
    (flag : Bool) : Prop
  | idle (none : mine = []) (empty : waiting = []) (clear : flag = served.isEmpty)
  | queued (r : Request) (one : mine = [r]) (waits : waiting = [r]) (size : r.requestSize = width)
      (clear : flag = served.isEmpty)
  | underWay (r : Request) (one : mine = [r]) (empty : waiting = []) (size : r.requestSize = width)
      (before : List (RequestType × Bool)) (last : RequestType × Bool)
      (log : charged served = before ++ [last]) (kept : flag = last.2)

/-- The statistics once every command the generator holds was enqueued. -/
def settled (c : MemoryController ρ κ) : Statistics :=
  settle c.stats c.requestScheduler.commandGenerator.commandBuffer

/-- Everything that is pending. -/
def allPending (c : MemoryController ρ κ) : List Request := c.pendingReadRequest ++ c.pendingWriteRequest

/-- What a run keeps: the counters count the charged log, and the flag is at the request's stage. -/
structure Inv (setup : Setup) (st : State ρ κ) : Prop where
  width : st.controller.requestScheduler.commandGenerator.dataBusSize = setup.dataBusWidth
  counted : ∀ kind, counter (settled st.controller) kind = (charged st.served).count kind
  stage : Stage setup.dataBusWidth st.served (mine st.controller) st.waiting
    (settled st.controller).closeRequest
  fresh : ∀ x ∈ allPending st.controller, x.handle < st.controller.nextHandle
  owner : ∀ x ∈ allPending st.controller, ∀ y ∈ allPending st.controller,
    x.handle = y.handle → x.requestorID = y.requestorID

/-- Between two events the generator is empty. -/
def Drained (c : MemoryController ρ κ) : Prop :=
  c.requestScheduler.commandGenerator.commandBuffer = []

variable {setup : Setup} {gen : Generator} {st st' : State ρ κ}

theorem settled_of_drained {c : MemoryController ρ κ} (drained : Drained c) : settled c = c.stats := by
  unfold settled
  rw [drained]
  rfl

/-- What a generator made, by its buffer. -/
theorem made_of_cracked {g g' : CommandGenerator} {r : Request} {rows cas : List BusPacket}
    (cracked : Cracked g r g' rows cas) : made g g' = rows ++ cas := by
  unfold made
  rw [cracked.buffer, List.drop_left]

/-- **A request handed over** keeps the invariant: one of requestor 0 is on its way from then on. -/
theorem hand_inv (cracks : Cracks gen) (wide : 0 < setup.dataBusWidth) (inv : Inv setup st)
    {entry : Request × Bool} (h : hand gen st entry = some st') : Inv setup st' := by
  unfold hand at h
  split at h
  · cases h
  · next waits =>
    obtain ⟨⟨rs, accepted⟩, handed, rfl⟩ := Option.map_eq_some_iff.mp h
    obtain ⟨⟨g, accepted'⟩, generated, e⟩ := Option.map_eq_some_iff.mp handed
    obtain ⟨rfl, rfl⟩ := Prod.mk.inj e
    obtain ⟨rows, cas, cracked⟩ := cracks generated
    have after : settle st.controller.stats g.commandBuffer =
        settle (settled st.controller) (rows ++ cas) := by
      rw [cracked.buffer, settle_append]
      rfl
    by_cases own : entry.1.requestorID = 0
    · have waited : entry.1 ∈ st.waiting := by
        by_contra absent
        exact waits ⟨own, absent⟩
      rcases inv.stage with ⟨_, empty, _⟩ | ⟨r, one, here, size, clear⟩ | ⟨r, _, empty, _, _⟩
      · rw [empty] at waited
        cases waited
      · obtain rfl : entry.1 = r := by simpa [here] using waited
        have beats : CommandGenerator.beats
            st.controller.requestScheduler.commandGenerator.dataBusSize entry.1 = 1 := by
          unfold CommandGenerator.beats
          rw [inv.width, size, Nat.div_self wide]
        obtain ⟨flag, counts⟩ := settle_cracked cracked own beats (settled st.controller)
        rw [clear] at flag counts
        have log := charged_append st.served entry.1.requestType (activates (rows ++ cas))
        refine ⟨cracked.width.trans inv.width, ?_, ?_, inv.fresh, inv.owner⟩
        · intro kind
          show counter (settle st.controller.stats g.commandBuffer) kind = _
          rw [after, counts kind, inv.counted]
          simp only [own, if_true, made_of_cracked cracked, log, List.count_append, List.count_singleton,
            beq_iff_eq]
          simp only [eq_comm]
        · simp only [own, if_true, made_of_cracked cracked]
          refine .underWay entry.1 one (by simp [here]) size _ _ log ?_
          show (settle st.controller.stats g.commandBuffer).closeRequest = _
          rw [after, flag]
      · rw [empty] at waited
        cases waited
    · have foreign : settle (settled st.controller) (rows ++ cas) = settled st.controller := by
        apply settle_foreign
        intro c hc
        rcases List.mem_append.mp hc with hc | hc
        · rw [(cracked.row c hc).1]
          exact own
        · rw [(cracked.access c hc).1]
          exact own
      rw [foreign] at after
      refine ⟨cracked.width.trans inv.width, ?_, ?_, inv.fresh, inv.owner⟩
      · intro kind
        simp only [own, if_false]
        show counter (settle st.controller.stats g.commandBuffer) kind = _
        rw [after]
        exact inv.counted kind
      · simp only [own, if_false]
        show Stage _ _ _ _ (settle st.controller.stats g.commandBuffer).closeRequest
        rw [after]
        exact inv.stage

/-! ## Commands into the queues -/

/-- Two controllers that the counters do not tell apart. -/
structure Alike (c c' : MemoryController ρ κ) : Prop where
  reads : c'.pendingReadRequest = c.pendingReadRequest
  writes : c'.pendingWriteRequest = c.pendingWriteRequest
  handle : c'.nextHandle = c.nextHandle
  generator : c'.requestScheduler.commandGenerator = c.requestScheduler.commandGenerator
  counts : ∀ kind, counter c'.stats kind = counter c.stats kind
  flag : c'.stats.closeRequest = c.stats.closeRequest

/-- The loop over the commands changes the statistics and the command queues. -/
theorem foldlM_enqueueCommand_stats {l : List BusPacket} {c c' : MemoryController ρ κ}
    (h : l.foldlM (enqueueCommand setup) c = some c') :
    c'.stats = settle c.stats l ∧ c'.pendingReadRequest = c.pendingReadRequest ∧
      c'.pendingWriteRequest = c.pendingWriteRequest ∧ c'.nextHandle = c.nextHandle ∧
      c'.requestScheduler = c.requestScheduler := by
  induction l generalizing c with
  | nil =>
    obtain rfl := Option.some.inj h
    exact ⟨rfl, rfl, rfl, rfl, rfl⟩
  | cons p l ih =>
    rw [List.foldlM_cons] at h
    obtain ⟨c₁, first, later⟩ := Option.bind_eq_some_iff.mp h
    unfold enqueueCommand at first
    dsimp only at first
    split at first
    · obtain rfl := Option.some.inj first
      exact ih later
    · cases first

/-- **Emptying the generator** settles the statistics. -/
theorem enqueueAll_inv (inv : Inv setup st) {c : MemoryController ρ κ}
    (h : enqueueAll setup st.controller = some c) :
    Inv setup { st with controller := c } ∧ Drained c := by
  obtain ⟨c₁, queued, rfl⟩ := Option.map_eq_some_iff.mp h
  obtain ⟨stats, reads, writes, handle, scheduler⟩ := foldlM_enqueueCommand_stats queued
  have settles : settled { c₁ with requestScheduler := { c₁.requestScheduler with
      commandGenerator := { c₁.requestScheduler.commandGenerator with commandBuffer := [] } } } =
      settled st.controller := stats
  refine ⟨⟨?_, ?_, ?_, ?_, ?_⟩, rfl⟩
  · show c₁.requestScheduler.commandGenerator.dataBusSize = _
    rw [scheduler]
    exact inv.width
  · intro kind
    rw [settles]
    exact inv.counted kind
  · rw [settles]
    have same : ∀ rs, mine { c₁ with requestScheduler := rs } = mine st.controller := fun rs => by
      simp only [mine, reads, writes]
    rw [same]
    exact inv.stage
  · simp only [allPending, reads, writes, handle]
    exact inv.fresh
  · simp only [allPending, reads, writes]
    exact inv.owner

/-- **A schedule of any requests** keeps the invariant and leaves the generator empty. -/
theorem schedule_inv (cracks : Cracks gen) (wide : 0 < setup.dataBusWidth)
    {handed : List (Request × Bool)} (inv : Inv setup st)
    (h : handed.foldlM (hand gen) st = some st') : Inv setup st' := by
  induction handed generalizing st with
  | nil =>
    obtain rfl := Option.some.inj h
    exact inv
  | cons entry handed ih =>
    rw [List.foldlM_cons] at h
    obtain ⟨st₁, first, later⟩ := Option.bind_eq_some_iff.mp h
    exact ih (hand_inv cracks wide inv first) later

/-! ## Data -/

theorem Alike.mine {c c' : MemoryController ρ κ} (alike : Alike c c') : mine c' = mine c := by
  simp only [OpenClose.mine, alike.reads, alike.writes]

/-- What the counters do not tell apart keeps the invariant. -/
theorem Inv.alike (inv : Inv setup st) (drained : Drained st.controller) {c : MemoryController ρ κ}
    (alike : Alike st.controller c) : Inv setup { st with controller := c } ∧ Drained c := by
  have empty : Drained c := by
    unfold Drained
    rw [alike.generator]
    exact drained
  have stats := settled_of_drained empty
  have stats' := settled_of_drained drained
  refine ⟨⟨?_, ?_, ?_, ?_, ?_⟩, empty⟩
  · rw [alike.generator]
    exact inv.width
  · intro kind
    rw [stats, alike.counts, ← stats']
    exact inv.counted kind
  · rw [stats, alike.flag, alike.mine, ← stats']
    exact inv.stage
  · simp only [allPending, alike.reads, alike.writes, alike.handle]
    exact inv.fresh
  · simp only [allPending, alike.reads, alike.writes]
    exact inv.owner

/-- Everything else the controller does is not seen. -/
theorem keep_alike (c other : MemoryController ρ κ) : Alike c (keep c other) := by
  refine ⟨rfl, rfl, rfl, rfl, ?_, rfl⟩
  rintro ⟨type, closed⟩
  cases type <;> cases closed <;> rfl

/-- The controller that `receiveData` or `sendData` searches: the bytes are counted, and written data is
with the device. -/
def counting (setup : Setup) (isRead : Bool) (c : MemoryController ρ κ) (p : BusPacket) :
    MemoryController ρ κ :=
  if isRead then
    { c with stats := { c.stats with readBytes := c.stats.readBytes + setup.dataBusWidth } }
  else
    { c with
      commandScheduler := { c.commandScheduler with
        memoryDevice := c.commandScheduler.memoryDevice.receiveFromBus setup.device p }
      stats := { c.stats with writeBytes := c.stats.writeBytes + setup.dataBusWidth } }

theorem counting_alike (setup : Setup) (isRead : Bool) (c : MemoryController ρ κ) (p : BusPacket) :
    Alike c (counting setup isRead c p) := by
  cases isRead <;> refine ⟨rfl, rfl, rfl, rfl, ?_, rfl⟩ <;> rintro ⟨type, closed⟩ <;>
    cases type <;> cases closed <;> rfl

theorem transfer_eq (isRead : Bool) (c : MemoryController ρ κ) (p : BusPacket) :
    transfer setup isRead c p = deliver setup isRead (counting setup isRead c p) p := by
  cases isRead <;> rfl

/-- A completion leaves the four counters alone and clears the flag of requestor 0. -/
theorem trackCompletion_counter (isRead : Bool) (stats : Statistics) (p : BusPacket) :
    (∀ kind, counter (trackCompletion isRead stats p) kind = counter stats kind) ∧
      (trackCompletion isRead stats p).closeRequest =
        if p.requestorID = 0 then false else stats.closeRequest := by
  unfold trackCompletion
  split
  · refine ⟨?_, by cases stats.closeRequest <;> cases isRead <;> simp⟩
    rintro ⟨type, closed⟩
    cases stats.closeRequest <;> cases isRead <;> cases type <;> cases closed <;> rfl
  · exact ⟨fun _ => rfl, rfl⟩

/-- One request at most has no order. -/
theorem Stage.perm {width : Nat} {served : List (RequestType × Bool)} {l l' waiting : List Request}
    {flag : Bool} (same : l.Perm l') (stage : Stage width served l waiting flag) :
    Stage width served l' waiting flag := by
  rcases stage with ⟨rfl, empty, clear⟩ | ⟨r, rfl, waits, size, clear⟩ |
    ⟨r, rfl, empty, size, before, last, log, kept⟩
  · exact .idle same.symm.eq_nil empty clear
  · exact .queued r (List.perm_singleton.mp same.symm) waits size clear
  · exact .underWay r (List.perm_singleton.mp same.symm) empty size before last log kept

/-- Sizes of other requestors' requests are not seen. -/
theorem filter_assignSize_other {handle n : Nat} {l : List Request}
    (other : ∀ x ∈ l, x.handle = handle → x.requestorID ≠ 0) :
    (Request.assignSize handle n l).filter (·.requestorID == 0) =
      l.filter (·.requestorID == 0) := by
  induction l with
  | nil => rfl
  | cons x l ih =>
    have rest := ih fun y hy => other y (List.mem_cons_of_mem x hy)
    have tail : Request.assignSize handle n (x :: l) =
        (if x.handle = handle then { x with requestSize := n } else x) ::
          Request.assignSize handle n l := rfl
    rw [tail]
    split
    · next same =>
      have foreign := other x List.mem_cons_self same
      simp [foreign, rest]
    · simp [List.filter_cons, rest]

/-- The request of requestor 0 that a packet matches is under way, one data bus width large. -/
theorem Inv.matched (inv : Inv setup st) {r : Request} (pending : r ∈ mine st.controller)
    (ready : st.waiting = []) :
    r.requestSize = setup.dataBusWidth ∧ mine st.controller = [r] ∧ st.served.isEmpty = false := by
  rcases inv.stage with ⟨none, _, _⟩ | ⟨_, _, waits, _, _⟩ | ⟨r', one, _, size, before, last, log, _⟩
  · rw [none] at pending
    cases pending
  · rw [ready] at waits
    cases waits
  · obtain rfl : r = r' := by simpa [one] using pending
    refine ⟨size, one, ?_⟩
    cases served : st.served with
    | nil => simp [served, charged] at log
    | cons x l => rfl

/-- What is pending in one direction is pending. -/
theorem mem_allPending {c : MemoryController ρ κ} {isRead : Bool} {r : Request}
    (hr : r ∈ c.pending isRead) : r ∈ allPending c := by
  cases isRead with
  | true => exact List.mem_append_left _ hr
  | false => exact List.mem_append_right _ hr

/-- The fields of a controller after a completion that the invariant reads. -/
theorem completed_fields (c : MemoryController ρ κ) (isRead : Bool) (p : BusPacket) (index : Nat)
    (r : Request) :
    (c.completed isRead p index r).requestScheduler = c.requestScheduler ∧
      (c.completed isRead p index r).nextHandle = c.nextHandle ∧
      (c.completed isRead p index r).stats = trackCompletion isRead c.stats p ∧
      allPending (c.completed isRead p index r) =
        allPending (setPending isRead c ((c.pending isRead).eraseIdx index)) := by
  cases isRead <;> exact ⟨rfl, rfl, rfl, rfl⟩

/-- **A completion** keeps the invariant: requestor 0 has nothing any more. -/
theorem Inv.completed {isRead : Bool} {p : BusPacket} {index : Nat} {r : Request} (inv : Inv setup st)
    (drained : Drained st.controller) (at_ : (st.controller.pending isRead)[index]? = some r)
    (requestor : p.requestorID = r.requestorID) (allowed : p.requestorID = 0 → st.waiting = []) :
    Inv setup { st with controller := st.controller.completed isRead p index r } ∧
      Drained (st.controller.completed isRead p index r) := by
  have stats := settled_of_drained drained
  have taken : (allPending st.controller).Perm _ := pending_erase st.controller at_
  have left : ∀ x ∈ allPending (setPending isRead st.controller
      ((st.controller.pending isRead).eraseIdx index)), x ∈ allPending st.controller :=
    fun x hx => taken.mem_iff.mpr (List.mem_cons_of_mem r hx)
  have counters := trackCompletion_counter isRead st.controller.stats p
  have mine_perm : (mine st.controller).Perm ((r :: allPending (setPending isRead st.controller
      ((st.controller.pending isRead).eraseIdx index))).filter (·.requestorID == 0)) :=
    taken.filter _
  obtain ⟨scheduler, handle, tracked, pendings⟩ := completed_fields st.controller isRead p index r
  have empty : Drained (st.controller.completed isRead p index r) := by
    unfold Drained
    rw [scheduler]
    exact drained
  refine ⟨⟨?_, ?_, ?_, ?_, ?_⟩, empty⟩
  · rw [scheduler]
    exact inv.width
  · intro kind
    rw [settled_of_drained empty, tracked, counters.1, ← stats]
    exact inv.counted kind
  · rw [settled_of_drained empty, tracked, counters.2]
    have rest : mine (st.controller.completed isRead p index r) = (allPending (setPending isRead
        st.controller ((st.controller.pending isRead).eraseIdx index))).filter
          (·.requestorID == 0) :=
      congrArg (List.filter fun x : Request => x.requestorID == 0) pendings
    rw [rest]
    by_cases own : p.requestorID = 0
    · have mineR : r ∈ mine st.controller :=
        List.mem_filter.mpr ⟨mem_allPending (List.mem_of_getElem? at_), by simp [← requestor, own]⟩
      have ready := allowed own
      obtain ⟨_, one, handed⟩ := inv.matched mineR ready
      rw [one, List.filter_cons_of_pos (by simp [← requestor, own])] at mine_perm
      have none := (List.perm_cons r).mp mine_perm
      rw [if_pos own]
      exact .idle none.symm.eq_nil ready handed.symm
    · rw [List.filter_cons_of_neg (by simp [← requestor, own])] at mine_perm
      rw [if_neg own, ← stats]
      exact inv.stage.perm mine_perm
  · intro x hx
    rw [pendings] at hx
    rw [handle]
    exact inv.fresh x (left x hx)
  · intro x hx y hy
    rw [pendings] at hx hy
    exact inv.owner x (left x hx) y (left y hy)

/-- **A size assigned** to a request of another requestor is not seen. -/
theorem Inv.assignSize {r : Request} (inv : Inv setup st) (drained : Drained st.controller)
    (hr : r ∈ allPending st.controller) (other : r.requestorID ≠ 0) (n : Nat) :
    Inv setup { st with controller := st.controller.assignSize r.handle n } ∧
      Drained (st.controller.assignSize r.handle n) := by
  have foreign : ∀ x ∈ allPending st.controller, x.handle = r.handle → x.requestorID ≠ 0 := by
    intro x hx same
    rw [inv.owner x hx r hr same]
    exact other
  have split : allPending (st.controller.assignSize r.handle n) =
      Request.assignSize r.handle n (allPending st.controller) := by
    simp [allPending, MemoryController.assignSize, Request.assignSize]
  have before : ∀ x ∈ allPending (st.controller.assignSize r.handle n),
      ∃ y ∈ allPending st.controller, y.handle = x.handle ∧ y.requestorID = x.requestorID := by
    intro x hx
    rw [split] at hx
    obtain ⟨y, hy, _, rfl⟩ := Resized.mem_assignSize hx
    exact ⟨y, hy, rfl, rfl⟩
  refine ⟨⟨inv.width, inv.counted, ?_, ?_, ?_⟩, drained⟩
  · have unseen : mine (st.controller.assignSize r.handle n) = mine st.controller :=
      (congrArg _ split).trans (filter_assignSize_other foreign)
    rw [unseen]
    exact inv.stage
  · intro x hx
    obtain ⟨y, hy, handle, _⟩ := before x hx
    rw [← handle]
    exact inv.fresh y hy
  · intro x hx x' hx' same
    obtain ⟨y, hy, handle, id⟩ := before x hx
    obtain ⟨y', hy', handle', id'⟩ := before x' hx'
    rw [← id, ← id']
    exact inv.owner y hy y' hy' (handle.trans (same.trans handle'.symm))

/-- **A delivery** keeps the invariant: the data of requestor 0's request completes it. -/
theorem deliver_inv {isRead : Bool} {p : BusPacket} (inv : Inv setup st)
    (drained : Drained st.controller)
    (allowed : p.requestorID = 0 →
      (∃ r ∈ st.controller.pending isRead, matchesRequest p r = true) → st.waiting = []) :
    Inv setup { st with controller := deliver setup isRead st.controller p } ∧
      Drained (deliver setup isRead st.controller p) := by
  obtain ⟨_, same⟩ | ⟨index, r, ⟨found, at_⟩, cases_⟩ := deliver_cases setup isRead st.controller p
  · rw [same]
    exact ⟨inv, drained⟩
  obtain ⟨r', at', hit, _⟩ := Lib.findIdx_eq_some_first found
  obtain rfl : r = r' := Option.some.inj (at_.symm.trans at')
  have hr := List.mem_of_getElem? at_
  have requestor : p.requestorID = r.requestorID := by
    unfold matchesRequest at hit
    simp only [Bool.and_eq_true, beq_iff_eq] at hit
    exact hit.1
  rcases cases_ with ⟨_, done⟩ | ⟨large, smaller⟩
  · rw [done]
    exact inv.completed drained at_ requestor fun own => allowed own ⟨r, hr, hit⟩
  · -- it is counted down, so it is not requestor 0's
    rw [smaller]
    have other : r.requestorID ≠ 0 := by
      intro own
      have mineR : r ∈ mine st.controller := List.mem_filter.mpr ⟨mem_allPending hr, by simp [own]⟩
      exact large (inv.matched mineR (allowed (requestor.trans own) ⟨r, hr, hit⟩)).1
    exact inv.assignSize drained (mem_allPending hr) other _

theorem transfer_inv {isRead : Bool} {p : BusPacket} (inv : Inv setup st)
    (drained : Drained st.controller)
    (allowed : p.requestorID = 0 →
      (∃ r ∈ st.controller.pending isRead, matchesRequest p r = true) → st.waiting = []) :
    Inv setup { st with controller := transfer setup isRead st.controller p } ∧
      Drained (transfer setup isRead st.controller p) := by
  have alike := counting_alike setup isRead st.controller p
  obtain ⟨counted, empty⟩ := inv.alike drained alike
  have pendings : (counting setup isRead st.controller p).pending isRead =
      st.controller.pending isRead := by
    cases isRead <;> rfl
  rw [transfer_eq]
  apply deliver_inv counted empty
  intro own
  rw [pendings]
  exact allowed own

/-! ## Arrivals -/

/-- What an arrival changes. -/
theorem addRequest_pending {c c' : MemoryController ρ κ} {requestorID address : Nat} {R_W : Bool}
    {size : Nat} (h : c.addRequest setup requestorID address R_W size = some c') :
    (allPending c').Perm (incoming setup c requestorID address R_W size :: allPending c) ∧
      c'.nextHandle = c.nextHandle + 1 ∧
      c'.requestScheduler.commandGenerator = c.requestScheduler.commandGenerator ∧
      (∀ kind, counter c'.stats kind = counter c.stats kind) ∧
      c'.stats.closeRequest = c.stats.closeRequest := by
  unfold addRequest at h
  dsimp only at h
  split at h
  · obtain rfl := Option.some.inj h
    refine ⟨?_, rfl, rfl, ?_, ?_⟩
    · cases R_W with
      | true =>
        simp only [allPending, if_true, List.append_assoc, List.singleton_append]
        exact List.perm_middle
      | false =>
        simp only [allPending, Bool.false_eq_true, if_false, ← List.append_assoc]
        exact List.perm_append_singleton _ _
    · rintro ⟨type, closed⟩
      show counter (if _ then _ else _) _ = _
      split <;> cases type <;> cases closed <;> rfl
    · show (if _ then _ else _ : Statistics).closeRequest = _
      split <;> rfl
  · cases h

/-- **An arrival** keeps the invariant: requestor 0's request waits from then on. -/
theorem addRequest_inv (inv : Inv setup st) (drained : Drained st.controller)
    {requestorID address : Nat} {R_W : Bool} {size : Nat} {c : MemoryController ρ κ}
    (allowed : requestorID = 0 → size = setup.dataBusWidth ∧ mine st.controller = [])
    (h : st.controller.addRequest setup requestorID address R_W size = some c) :
    Inv setup { st with
      controller := c
      waiting := if requestorID = 0 then
          st.waiting ++ [incoming setup st.controller requestorID address R_W size]
        else st.waiting } ∧ Drained c := by
  obtain ⟨pendings, handle, generator, counts, flag⟩ := addRequest_pending h
  obtain ⟨named, _, requestor, sized, _⟩ :=
    incoming_same setup st.controller requestorID address R_W size
  generalize incoming setup st.controller requestorID address R_W size = r at *
  have empty : Drained c := by
    unfold Drained
    rw [generator]
    exact drained
  have member : ∀ x ∈ allPending c, x = r ∨ x ∈ allPending st.controller :=
    fun x hx => List.mem_cons.mp (pendings.mem_iff.mp hx)
  refine ⟨⟨?_, ?_, ?_, ?_, ?_⟩, empty⟩
  · rw [generator]
    exact inv.width
  · intro kind
    rw [settled_of_drained empty, counts, ← settled_of_drained drained]
    exact inv.counted kind
  · rw [settled_of_drained empty, flag, ← settled_of_drained drained]
    have arrived : (mine c).Perm ((r :: allPending st.controller).filter (·.requestorID == 0)) :=
      pendings.filter _
    by_cases own : requestorID = 0
    · obtain ⟨whole, alone⟩ := allowed own
      rw [List.filter_cons_of_pos (by simp [requestor, own])] at arrived
      have one : mine c = [r] := by
        apply List.perm_singleton.mp
        apply arrived.trans
        show (r :: mine st.controller).Perm [r]
        rw [alone]
      rcases inv.stage with ⟨_, none, clear⟩ | ⟨_, one', _, _, _⟩ | ⟨_, one', _, _, _, _, _, _⟩
      · exact .queued r one (by simp [own, none]) (sized.trans whole) clear
      · simp [alone] at one'
      · simp [alone] at one'
    · rw [List.filter_cons_of_neg (by simp [requestor, own])] at arrived
      rw [if_neg own]
      exact inv.stage.perm arrived.symm
  · intro x hx
    rw [handle]
    rcases member x hx with rfl | hx
    · omega
    · exact Nat.lt_succ_of_lt (inv.fresh x hx)
  · intro x hx y hy same
    rcases member x hx with rfl | oldX <;> rcases member y hy with rfl | oldY
    · rfl
    · have := inv.fresh y oldY
      omega
    · have := inv.fresh x oldX
      omega
    · exact inv.owner x oldX y oldY same

/-! ## Runs -/

/-- A controller as the constructor leaves it, with an empty log. -/
def start (setup : Setup) (parts : Components ρ κ) (refreshCounting bank_release : Nat) : State ρ κ :=
  { controller := create setup parts refreshCounting bank_release }

theorem start_inv (parts : Components ρ κ) (refreshCounting bank_release : Nat) :
    Inv setup (start setup parts refreshCounting bank_release) ∧
      Drained (start setup parts refreshCounting bank_release).controller := by
  refine ⟨⟨rfl, ?_, .idle rfl rfl rfl, ?_, ?_⟩, rfl⟩
  · rintro ⟨type, closed⟩
    cases type <;> cases closed <;> rfl
  · intro x hx
    cases hx
  · intro x hx
    cases hx

/-- **Every step that the runs may take** keeps the invariant. -/
theorem step_inv (cracks : Cracks gen) (wide : 0 < setup.dataBusWidth) {event : Event ρ κ} {out : Unit}
    (inv : Inv setup st ∧ Drained st.controller) (h : step setup gen st event = some (st', out))
    (allowed : Allowed setup st event) : Inv setup st' ∧ Drained st'.controller := by
  cases event with
  | addRequest requestorID address R_W size =>
    obtain ⟨c, added, e⟩ := Option.map_eq_some_iff.mp h
    obtain ⟨rfl, _⟩ := Prod.mk.inj e
    exact addRequest_inv inv.1 inv.2 allowed added
  | schedule handed =>
    obtain ⟨st₁, given, enqueued⟩ := Option.bind_eq_some_iff.mp h
    obtain ⟨c, emptied, e⟩ := Option.map_eq_some_iff.mp enqueued
    obtain ⟨rfl, _⟩ := Prod.mk.inj e
    exact enqueueAll_inv (schedule_inv cracks wide inv.1 given) emptied
  | data isRead p =>
    obtain ⟨rfl, _⟩ := Prod.mk.inj (Option.some.inj h)
    exact transfer_inv inv.1 inv.2 allowed
  | others c =>
    obtain ⟨rfl, _⟩ := Prod.mk.inj (Option.some.inj h)
    exact inv.1.alike inv.2 (keep_alike st.controller c)

/-- The kinds of a log add up to its length. -/
theorem count_kinds (l : List (RequestType × Bool)) :
    l.count (.DATA_READ, true) + l.count (.DATA_WRITE, true) + l.count (.DATA_READ, false) +
      l.count (.DATA_WRITE, false) = l.length := by
  induction l with
  | nil => rfl
  | cons kind l ih =>
    obtain ⟨type, closed⟩ := kind
    cases type <;> cases closed <;> simp <;> omega

/-- The counters hold the log where its first request was a closed one. -/
theorem Inv.exact_iff (inv : Inv setup st) (drained : Drained st.controller) :
    Exact st ↔ ∀ first ∈ st.served.head?, first.2 = true := by
  have counted := inv.counted
  rw [settled_of_drained drained] at counted
  constructor
  · rintro ⟨exact_, _⟩ ⟨type, activated⟩ first
    cases served : st.served with
    | nil => simp [served] at first
    | cons x l =>
      obtain rfl : x = (type, activated) := by simpa [served] using first
      have both := (counted (type, true)).symm.trans (exact_ (type, true))
      cases activated with
      | true => rfl
      | false => simp [served, charged] at both
  · intro closed
    have same : charged st.served = st.served := by
      cases served : st.served with
      | nil => rfl
      | cons x l =>
        have activated := closed x (by simp [served])
        obtain ⟨type, _⟩ := x
        obtain rfl := activated
        rfl
    rw [same] at counted
    refine ⟨counted, ?_⟩
    have total := count_kinds st.served
    have closeRead : st.controller.stats.closeRead = _ := counted (.DATA_READ, true)
    have closeWrite : st.controller.stats.closeWrite = _ := counted (.DATA_WRITE, true)
    have openRead : st.controller.stats.openRead = _ := counted (.DATA_READ, false)
    have openWrite : st.controller.stats.openWrite = _ := counted (.DATA_WRITE, false)
    omega

/-- **The open and close statistics are exact if and only if requestor 0's first request needed an
activation**: in every run in which requestor 0 has one request outstanding at a time. -/
theorem openClose_exact (setup : Setup) (parts : Components ρ κ) (refreshCounting bank_release : Nat)
    (gen : Generator) (open_ : gen = openGenerator ∨ gen = roundGenerator)
    (wide : 0 < setup.dataBusWidth) (events : List (Event ρ κ)) (st : State ρ κ) (outs : List Unit)
    (allowed : Lib.Machine.Along (step setup gen) (fun st event _ _ => Allowed setup st event)
      (start setup parts refreshCounting bank_release) events)
    (ran : Lib.Machine.run (step setup gen) (start setup parts refreshCounting bank_release) events =
      some (st, outs)) :
    Exact st ↔ ∀ first ∈ st.served.head?, first.2 = true := by
  have cracks : Cracks gen := by
    intro g r isOpen g' accepted h
    rcases open_ with rfl | rfl
    · exact openGenerator_cracks h
    · exact roundGenerator_cracks h
  obtain ⟨inv, drained⟩ := Lib.Machine.run_invariant_along
    (fun st => Inv setup st ∧ Drained st.controller)
    (fun inv stepped here => step_inv cracks wide inv stepped here)
    (start_inv parts refreshCounting bank_release) allowed ran
  exact inv.exact_iff drained

/-- The set-up with banks that requestors share. -/
def sharedSetup : Setup := { openPageSetup with build := .none }

/-- The request that a read arrives as, with the next handle. -/
def readOf (setup : Setup) (handle requestorID address : Nat) : Request :=
  incoming setup { create setup frfcfsIni 0 0 with nextHandle := handle } requestorID address true
    setup.dataBusWidth

/-- The data of a read. -/
def dataOf (r : Request) : BusPacket :=
  { CommandGenerator.rowCommand .DATA r with column := 0 }

/-- Two reads of one row, the second once the first has completed. -/
def twoReads : List (Event Unit Unit) :=
  [.addRequest 0 0 true openPageSetup.dataBusWidth,
    .schedule [(readOf openPageSetup 0 0 0, false)],
    .data true (dataOf (readOf openPageSetup 0 0 0)),
    .addRequest 0 64 true openPageSetup.dataBusWidth,
    .schedule [(readOf openPageSetup 1 0 64, true)]]

/-- The law at two reads of one row: one is counted as closed, one as open. -/
theorem openClose_exact_twoReads :
    ∃ st outs, Lib.Machine.run (step openPageSetup openGenerator) (start openPageSetup frfcfsIni 0 0)
        twoReads = some (st, outs) ∧
      st.served = [(.DATA_READ, true), (.DATA_READ, false)] ∧ Exact st := by
  obtain ⟨st, outs, ran, served⟩ := Lib.Machine.run_exists (step openPageSetup openGenerator)
    (fun st => st.served = [(.DATA_READ, true), (.DATA_READ, false)])
    (start openPageSetup frfcfsIni 0 0) twoReads (by decide +kernel)
  have allowed := Lib.Machine.along_of_check (step openPageSetup openGenerator)
    (fun st event _ => decide (Allowed openPageSetup st event))
    (fun st event _ => Allowed openPageSetup st event) (start openPageSetup frfcfsIni 0 0) twoReads
    (fun _ _ _ holds => of_decide_eq_true holds) (by decide +kernel)
  have law := openClose_exact openPageSetup frfcfsIni 0 0 openGenerator (.inl rfl) (by decide +kernel)
    twoReads st outs allowed ran
  refine ⟨st, outs, ran, served, law.mpr ?_⟩
  rw [served]
  intro first here
  obtain rfl : (.DATA_READ, true) = first := by simpa using here
  rfl

/-- Two reads of one row of a shared bank: requestor 1's, then requestor 0's. -/
def sharedReads : List (Event Unit Unit) :=
  [.addRequest 1 0 true sharedSetup.dataBusWidth, .addRequest 0 0 true sharedSetup.dataBusWidth,
    .schedule [(readOf sharedSetup 0 1 0, false)], .schedule [(readOf sharedSetup 1 0 0, true)]]

/-- **A first request that is a row hit is counted as closed**: the generator made no activation for
it, in the open system and in the one of `FRFCFS.ini`. -/
theorem openClose_sharedBank :
    (∃ st outs, Lib.Machine.Along (step sharedSetup openGenerator)
        (fun st event _ _ => Allowed sharedSetup st event) (start sharedSetup frfcfsIni 0 0)
        sharedReads ∧
      Lib.Machine.run (step sharedSetup openGenerator) (start sharedSetup frfcfsIni 0 0)
        sharedReads = some (st, outs) ∧
      st.served = [(.DATA_READ, false)] ∧ st.controller.stats.closeRead = 1 ∧ ¬ Exact st) ∧
    ∃ c outs, Lib.Machine.run (MemorySystem.step sharedSetup frfcfsIni)
        (create sharedSetup frfcfsIni 0 0)
        [.addRequest 1 0 true 64, .addRequest 0 0 true 64, .update (fun _ => false) fun _ => false,
          .update (fun _ => false) fun _ => false] = some (c, outs) ∧
      (c.commandScheduler.commandQueue 0).hrtBuffer.map (fun p => (p.requestorID, p.busPacketType)) =
        [(1, .ACT), (1, .RD), (0, .RD)] ∧
      c.stats.closeRead = 1 ∧ c.stats.openRead = 0 := by
  constructor
  · obtain ⟨st, outs, ran, served, closed⟩ :=
      Lib.Machine.run_exists (step sharedSetup openGenerator)
        (fun st => st.served = [(.DATA_READ, false)] ∧ st.controller.stats.closeRead = 1)
        (start sharedSetup frfcfsIni 0 0) sharedReads (by decide +kernel)
    refine ⟨st, outs, Lib.Machine.along_of_check _
      (fun st event _ => decide (Allowed sharedSetup st event)) _ _ _
      (fun _ _ _ holds => of_decide_eq_true holds) (by decide +kernel), ran, served, closed, ?_⟩
    rintro ⟨counted, _⟩
    have none := counted (.DATA_READ, true)
    rw [served] at none
    have one : counter st.controller.stats (.DATA_READ, true) = 1 := closed
    rw [one] at none
    cases none
  · exact Lib.Machine.run_exists _ _ _ _ (by decide +kernel)

end OpenClose
end MCsim
