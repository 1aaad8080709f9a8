import MCsim.Laws.Timetable

/-!
# AMC is on time

On a device that is in time for it, the memory system of `AMC.ini` follows its timetable to the cycle:
each activation is sent in the cycle of its grant, each column access `tRCD` cycles later, and nothing else
is ever sent (`amc_onTime`). No request is delayed by what other requestors have their banks do, and none
by what was done before it.
-/

namespace MCsim

open CommandScheduler RequestScheduler MemoryController CommandGenerator RoundRobin Lib.Machine

/-! ## Set-ups -/

/-- The set-up of `AMC.ini`: one request queue with a buffer for each requestor before the queues of the
banks. -/
structure Setup.Amc (setup : Setup) : Prop extends setup.PerBank where
  reqMap : setup.reqMap = [false, false, false, false]
  requestorReqQ : setup.requestorReqQ = true
  writeQueueEnable : setup.writeQueueEnable = false
  wide : 0 < setup.dataBusWidth
  narrow : setup.dataBusWidth < 2 ^ 32

/-- Round robin for requests, `CLOSE`, and a command scheduler that sends a front wherever it can. -/
structure Components.Amc {κ : Type} (parts : Components RoundRobinState κ) (table : Nat → Bool) : Prop where
  requests : parts.requestScheduler = RoundRobin.policy table
  init : parts.requestInit = {}
  generator : parts.commandGenerator = closeGenerator
  commands : parts.commandScheduler.SendsFronts
  eager : parts.commandScheduler.Eager

theorem closeGenerator_accepts : Accepts closeGenerator := fun _ _ _ => ⟨_, rfl⟩

/-! ## Deliveries of single beats -/

namespace MemoryController

variable {ρ κ : Type} {setup : Setup} {c c' c'' : MemoryController ρ κ}

/-- Every pending request takes one data bus width. -/
def Single (setup : Setup) (c : MemoryController ρ κ) : Prop :=
  ∀ d, ∀ r ∈ c.pending d, r.requestSize = setup.dataBusWidth

/-- The end of a cycle leaves what the schedulers own as it is, and no request becomes pending. -/
structure Subsides (c c' : MemoryController ρ κ) : Prop where
  requests : c'.requestScheduler = c.requestScheduler
  turn : c'.requestPrivate = c.requestPrivate
  accepted : c'.accepted = c.accepted
  handles : c'.nextHandle = c.nextHandle
  clock : c'.clockCycle = c.clockCycle
  pending : ∀ d, ∀ r ∈ c'.pending d, r ∈ c.pending d

namespace Subsides

theorem refl (c : MemoryController ρ κ) : Subsides c c := ⟨rfl, rfl, rfl, rfl, rfl, fun _ _ => id⟩

theorem trans (first : Subsides c c') (later : Subsides c' c'') : Subsides c c'' :=
  ⟨later.requests.trans first.requests, later.turn.trans first.turn, later.accepted.trans first.accepted,
    later.handles.trans first.handles, later.clock.trans first.clock,
    fun d r hr => first.pending d r (later.pending d r hr)⟩

theorem single (subsides : Subsides c c') (single : Single setup c) : Single setup c' :=
  fun d r hr => single d r (subsides.pending d r hr)

/-- **A delivery completes what it matches**: a request of one width is never counted down. -/
theorem deliver (single : Single setup c) (isRead : Bool) (p : BusPacket) :
    Subsides c (deliver setup isRead c p) := by
  obtain ⟨_, h⟩ | ⟨index, r, ⟨_, found⟩, ⟨_, h⟩ | ⟨other, _⟩⟩ := deliver_cases setup isRead c p
  · rw [h]
    exact refl c
  · rw [h]
    refine ⟨by cases isRead <;> rfl, by cases isRead <;> rfl, by cases isRead <;> rfl,
      by cases isRead <;> rfl, by cases isRead <;> rfl, fun d x hx => ?_⟩
    cases isRead <;> cases d <;> first | exact hx | exact List.mem_of_mem_eraseIdx hx
  · exact absurd (single isRead r (List.mem_of_getElem? found)) other

theorem queueWriteData (setup : Setup) (c : MemoryController ρ κ) (out : Option BusPacket) :
    Subsides c (queueWriteData setup c out) := by
  unfold MemoryController.queueWriteData
  split
  · exact refl c
  · split
    · exact ⟨rfl, rfl, rfl, rfl, rfl, fun _ _ => id⟩
    · exact refl c

theorem sendWriteData (single : Single setup c) : Subsides c (sendWriteData setup c) := by
  unfold MemoryController.sendWriteData
  dsimp only
  split
  · split
    · exact refl c
    · next p rest _ =>
      obtain ⟨requests, turn, accepted, handles, clock, pending⟩ := deliver (c := { c with
          commandScheduler := { c.commandScheduler with
            memoryDevice := c.commandScheduler.memoryDevice.receiveFromBus setup.device p }
          stats := { c.stats with writeBytes := c.stats.writeBytes + setup.dataBusWidth } }) single false p
      exact ⟨requests, turn, accepted, handles, clock, pending⟩
  · exact ⟨rfl, rfl, rfl, rfl, rfl, fun _ _ => id⟩

theorem deviceUpdate (single : Single setup c) : Subsides c (MemorySystem.deviceUpdate setup c) := by
  unfold MemorySystem.deviceUpdate
  dsimp only
  split
  · exact ⟨rfl, rfl, rfl, rfl, rfl, fun _ _ => id⟩
  · next p _ =>
    obtain ⟨requests, turn, accepted, handles, clock, pending⟩ := deliver (c := { c with
      commandScheduler := { c.commandScheduler with
        memoryDevice := (c.commandScheduler.memoryDevice.update setup.device).1 }
      stats := { c.stats with readBytes := c.stats.readBytes + setup.dataBusWidth } }) single true p
    exact ⟨requests, turn, accepted, handles, clock, pending⟩

end Subsides

/-- What the end of a cycle and the device's update do to the parts of the controller. -/
theorem finish_cycle (setup : Setup) (single : Single setup c)
    (writes : ∀ p ∈ c.sendDataBuffer, p.busPacketType = .DATA ∧ p.postCommand = false)
    (out : Option BusPacket) (done : c' = MemorySystem.deviceUpdate setup (endCycle setup c out)) :
    c'.requestScheduler = c.requestScheduler.step ∧ c'.requestPrivate = c.requestPrivate ∧
      c'.accepted = c.accepted ∧ c'.nextHandle = c.nextHandle ∧ c'.clockCycle = c.clockCycle + 1 ∧
      Single setup c' ∧ c'.commandScheduler = { c.commandScheduler.tick with
        memoryDevice := (c.commandScheduler.memoryDevice.update setup.device).1 } := by
  have subsides := (Subsides.queueWriteData setup c out).trans
    (Subsides.sendWriteData ((Subsides.queueWriteData setup c out).single single))
  have ended : Single setup (endCycle setup c out) := subsides.single single
  have device := Subsides.deviceUpdate ended
  obtain ⟨_, ticked, _⟩ := endCycle_frame setup out writes
  obtain ⟨commands, _, _, _⟩ := MemorySystem.deviceUpdate_frame setup (endCycle setup c out)
  subst done
  refine ⟨device.requests.trans (congrArg RequestScheduler.step subsides.requests),
    device.turn.trans subsides.turn, device.accepted.trans subsides.accepted,
    device.handles.trans subsides.handles, device.clock.trans (congrArg (· + 1) subsides.clock),
    device.single ended, ?_⟩
  rw [commands, ticked]
  rfl

end MemoryController

/-! ## What is due -/

/-- What is left of the timetable in a cycle: nothing, the column access of an access under way, or the
whole access that is granted in it. -/
inductive Ahead (tRCD now : Nat) (sent : List Dram.Timed) : List Dram.Timed → Prop
  | done : Ahead tRCD now sent []
  | column (x : Slot) (opened : (x.activation, x.start) ∈ sent) (later : now ≤ x.start + tRCD) :
      Ahead tRCD now sent [(x.access, x.start + tRCD)]
  | both (x : Slot) (granted : x.start = now) : Ahead tRCD now sent (x.commands tRCD)

/-- The queues hold what is left. -/
def Holds (s : CommandScheduler) (rest : List Dram.Timed) : Prop :=
  ∀ i, s.waiting i = (rest.map Prod.fst).filter (·.bank == i)

/-- The timers of the queues are those of the commands sent, and of no others. -/
structure Timers (spec : DeviceSpec) (now : Nat) (s : CommandScheduler) (sent : List Dram.Timed) :
    Prop where
  least : ∀ x ∈ sent, ∀ t : BusPacketType, t.toNat < BusPacketType.PDE.toNat →
    x.2 + spec.command_timing x.1.busPacketType t ≤ now + s.cmdQueueTimer x.1.bank t
  most : ∀ i < 8, ∀ t, s.cmdQueueTimer i t = 0 ∨ ∃ x ∈ sent, x.1.bank = i ∧
    now + s.cmdQueueTimer i t ≤ x.2 + spec.command_timing x.1.busPacketType t

namespace Timers

variable {spec : DeviceSpec} {check : Answers} {now : Nat} {s s' : CommandScheduler}
  {sent : List Dram.Timed} {out : Option BusPacket}

theorem issue (timers : Timers spec now s sent) (general : s.General) {c : BusPacket} :
    Timers spec now (s.issue spec c c.bank) (sent ++ [(c, now)]) := by
  have raised : ∀ j t, (s.issue spec c c.bank).cmdQueueTimer j t =
      if j = c.bank then raiseTimer spec c (s.cmdQueueTimer c.bank) t else s.cmdQueueTimer j t := by
    intro j t
    simp only [CommandScheduler.issue, sendCommand, CommandQueue.isPerRequestor, (general c.bank).1,
      Bool.false_eq_true, if_false]
    split <;> rfl
  constructor
  · intro x hx t counted
    rw [raised]
    rcases List.mem_append.mp hx with old | new
    · have before := timers.least x old t counted
      split
      · next same =>
        rw [same] at before
        rw [raiseTimer, if_pos counted]
        omega
      · exact before
    · rw [List.mem_singleton.mp new, if_pos rfl, raiseTimer, if_pos counted]
      dsimp only
      omega
  · intro i hi t
    rw [raised]
    have before : s.cmdQueueTimer i t = 0 ∨ ∃ x ∈ sent ++ [(c, now)], x.1.bank = i ∧
        now + s.cmdQueueTimer i t ≤ x.2 + spec.command_timing x.1.busPacketType t := by
      rcases timers.most i hi t with zero | ⟨x, hx, own⟩
      · exact .inl zero
      · exact .inr ⟨x, List.mem_append_left _ hx, own⟩
    split
    · next same =>
      subst same
      unfold raiseTimer
      split
      · rcases Nat.le_total (spec.command_timing c.busPacketType t) (s.cmdQueueTimer c.bank t) with le | le
        · rw [Nat.max_eq_left le]
          exact before
        · rw [Nat.max_eq_right le]
          exact .inr ⟨(c, now), by simp, rfl, Nat.le_refl _⟩
      · exact before
    · exact before

theorem tick (timers : Timers spec now s sent) (general : s.General) (queues : s.queueCount = 8) :
    Timers spec (now + 1) s.tick sent := by
  constructor
  · intro x hx t counted
    have before := timers.least x hx t counted
    rw [timer_tick general]
    split <;> omega
  · intro i hi t
    rw [timer_tick general, queues, if_pos hi]
    rcases timers.most i hi t with zero | ⟨x, hx, own, bound⟩
    · exact .inl (by omega)
    · rcases Nat.eq_zero_or_pos (s.cmdQueueTimer i t) with zero | positive
      · exact .inl (by omega)
      · exact .inr ⟨x, hx, own, by omega⟩

/-- The queue of a command that is due has waited long enough. -/
theorem ready {T : Dram.Standard} (inTime : InTime T spec) (timers : Timers spec now s sent)
    (known : ∀ x ∈ sent, OfAccess x.1.busPacketType) {y : BusPacket} (of : OfAccess y.busPacketType)
    (bank : y.bank < 8)
    (apart : ∀ x ∈ sent, x.2 + gap spec.constraints.tRCD x.1.busPacketType y.busPacketType ≤ now) :
    s.cmdQueueTimer y.bank y.busPacketType = 0 := by
  rcases timers.most y.bank bank y.busPacketType with zero | ⟨x, hx, _, bound⟩
  · exact zero
  · have enough := inTime.waits (known x hx) of
    have leaves := apart x hx
    omega

end Timers

theorem OfAccess.ne_data {t : BusPacketType} (of : OfAccess t) : t ≠ .DATA := by
  rcases of with rfl | rfl | rfl <;> decide

theorem OfAccess.counted {t : BusPacketType} (of : OfAccess t) : t.toNat < BusPacketType.PDE.toNat := by
  rcases of with rfl | rfl | rfl <;> decide

section Due

variable {T : Dram.Standard} {spec : DeviceSpec} {check : Answers} {now : Nat} {s s' : CommandScheduler}
  {sent rest : List Dram.Timed} {out : Option BusPacket}

/-- The first command left is at the front of its queue. -/
theorem Holds.first {y : Dram.Timed} (holds : Holds s (y :: rest)) :
    (s.waiting y.1.bank).head? = some y.1 := by
  rw [holds y.1.bank, List.map_cons, List.filter_cons_of_pos (by simp)]
  rfl

/-- Where all that is left is for one bank, every front is the first command left. -/
theorem Holds.front {y : Dram.Timed} (holds : Holds s (y :: rest))
    (one : ∀ z ∈ rest, z.1.bank = y.1.bank) {i : Nat} {c : BusPacket} {l : List BusPacket}
    (front : s.waiting i = c :: l) : c = y.1 ∧ i = y.1.bank := by
  have member : c ∈ ((y :: rest).map Prod.fst).filter (·.bank == i) := by
    rw [← holds i, front]
    exact List.mem_cons_self
  obtain ⟨there, own⟩ := List.mem_filter.mp member
  obtain ⟨z, hz, rfl⟩ := List.mem_map.mp there
  have bank : i = y.1.bank := by
    rw [← beq_iff_eq.mp own]
    rcases List.mem_cons.mp hz with rfl | hz
    · rfl
    · exact one z hz
  have first := holds.first
  rw [← bank, front] at first
  exact ⟨Option.some.inj first, bank⟩

/-- Sending it leaves the others. -/
theorem Holds.issue {y : Dram.Timed} (holds : Holds s (y :: rest)) (general : s.General)
    (spec : DeviceSpec) : Holds (s.issue spec y.1 y.1.bank) rest := by
  intro i
  rw [waiting_issue general]
  split
  · next same =>
    rw [holds y.1.bank, same, List.map_cons, List.filter_cons_of_pos (by simp), List.tail_cons]
  · next other =>
    rw [holds i, List.map_cons, List.filter_cons_of_neg (by simpa using Ne.symm other)]

/-- Nothing that is left was due before. -/
theorem Ahead.later {tRCD : Nat} (ahead : Ahead tRCD now sent rest) : ∀ y ∈ rest, now ≤ y.2 := by
  intro y hy
  cases ahead with
  | done => cases hy
  | column x opened later =>
    rw [List.mem_singleton.mp hy]
    exact later
  | both x granted =>
    simp only [Slot.commands, List.mem_cons, List.not_mem_nil, or_false] at hy
    rcases hy with rfl | rfl
    · exact granted.ge
    · exact granted ▸ Nat.le_add_right x.start tRCD

/-- **The scheduler sends what is due**, and nothing else. -/
theorem Ahead.sends (inTime : InTime T spec) (general : s.General) (free : s.Free) (holds : Holds s rest)
    (queues : s.queueCount = 8) (timers : Timers spec now s sent)
    (known : ∀ x ∈ sent, OfAccess x.1.busPacketType) (banks : ∀ y ∈ rest, y.1.bank < 8)
    (plan : (sent ++ rest).Pairwise fun x y =>
      x.2 + gap spec.constraints.tRCD x.1.busPacketType y.1.busPacketType ≤ y.2)
    (taken : ∀ y ∈ rest, y.2 = now → check y.1 = true)
    (ahead : Ahead spec.constraints.tRCD now sent rest) (sends : Sends spec check s s' out)
    (eager : out = none → ∀ i < s.queueCount, s.candidate check i = none) :
    ∃ rest', rest = out.toList.map (·, now) ++ rest' ∧ rest'.length ≤ 1 ∧
      Ahead spec.constraints.tRCD (now + 1) (sent ++ out.toList.map (·, now)) rest' ∧ Holds s' rest' ∧
      Timers spec now s' (sent ++ out.toList.map (·, now)) := by
  -- what is due is not left waiting
  have due : ∀ y tail, rest = y :: tail → y.2 = now → OfAccess y.1.busPacketType → out ≠ none := by
    rintro y tail rfl now_ of rfl
    have bank := banks y List.mem_cons_self
    have ready := timers.ready inTime known of bank fun x hx =>
      now_ ▸ (List.pairwise_append.mp plan).2.2 x hx y List.mem_cons_self
    have candidate := candidate_of_front general free holds.first ready (taken y List.mem_cons_self now_)
    rw [eager rfl y.1.bank (queues ▸ bank)] at candidate
    cases candidate
  cases sends with
  | idle left =>
    rw [Option.toList_none, List.map_nil, List.append_nil]
    cases ahead with
    | done => exact ⟨[], rfl, Nat.zero_le 1, .done, holds, timers.least, timers.most⟩
    | column x opened later =>
      have early : x.start + spec.constraints.tRCD ≠ now := fun now_ =>
        due _ [] rfl now_ (.inr x.access_type) rfl
      exact ⟨_, rfl, Nat.le_refl 1, .column x opened (by omega), holds, timers.least, timers.most⟩
    | both x granted => exact absurd rfl (due _ _ rfl granted (.inl rfl))
  | @send i c l bound front can =>
    rw [Option.toList_some, List.map_singleton]
    cases ahead with
    | done => simp [holds i] at front
    | column x opened later =>
      obtain ⟨rfl, rfl⟩ := holds.front (fun z hz => absurd hz List.not_mem_nil) front
      -- the queue holds the column access back until then
      have ready : s.cmdQueueTimer x.access.bank x.access.busPacketType = 0 := by
        simp only [canIssue, isReady, CommandQueue.isPerRequestor, (general x.access.bank).1,
          Bool.false_eq_true, if_false, Bool.and_eq_true, decide_eq_true_eq] at can
        exact can.1
      have waited := timers.least _ opened _ (OfAccess.counted (.inr x.access_type))
      have bank : x.activation.bank = x.access.bank := rfl
      have delay : spec.command_timing x.activation.busPacketType x.access.busPacketType =
          spec.constraints.tRCD := inTime.column x.access_type
      rw [bank, ready, delay] at waited
      have now_ : x.start + spec.constraints.tRCD = now := by
        dsimp only at waited
        omega
      refine ⟨[], by rw [now_]; rfl, Nat.zero_le 1, .done, holds.issue general spec, ?_⟩
      exact timers.issue general
    | both x granted =>
      obtain ⟨rfl, rfl⟩ := holds.front (fun z hz => by rw [List.mem_singleton.mp hz]; rfl) front
      have opens := inTime.opens
      refine ⟨[(x.access, x.start + spec.constraints.tRCD)], by rw [← granted]; rfl, Nat.le_refl 1,
        .column x (by simp [granted]) (by omega), holds.issue general spec, ?_⟩
      exact timers.issue general

end Due

/-! ## A turn of round robin -/

/-- A call goes on in its slot and grants nothing, finds nothing waiting, or grants the oldest request of a
requestor, which starts a slot. -/
theorem RoundRobin.Called.turn {rs rs' : RequestScheduler} {p p' : RoundRobinState} {handed : List Request}
    (called : Called rs p rs' p' handed) (inv : Inv rs p) :
    (∀ id, (rs.requestQueue 0).buffer id = ofRequestor id handed ++ (rs'.requestQueue 0).buffer id) ∧
      (handed = [] ∧ p.slotCounter ≤ p'.slotCounter + 1 ∨
        ∃ r, handed = [r] ∧ r ∈ (rs.requestQueue 0).buffer r.requestorID ∧ p.slotCounter = 0 ∧
          p'.slotCounter = timeSlot - 1) := by
  have buffers : ∀ id, (rs.requestQueue 0).buffer id =
      ofRequestor id handed ++ (rs'.requestQueue 0).buffer id := by
    intro id
    rcases called.oldest inv with ⟨rfl, same⟩ | ⟨r, rfl, same⟩
    · exact (same id).symm
    · rw [same id]
      by_cases own : id = r.requestorID
      · simp [ofRequestor, own]
      · simp [ofRequestor, own, Ne.symm own]
  refine ⟨buffers, ?_⟩
  cases called with
  | waits => exact .inl ⟨rfl, by dsimp only; omega⟩
  | scans free _ granted _ _ slot _ =>
    cases granted with
    | nothing => exact .inl ⟨rfl, by omega⟩
    | @oldest i id r rest _ _ front _ _ =>
      have own : r.requestorID = id := inv.queue.owned id r (front ▸ List.mem_cons_self)
      exact .inr ⟨r, rfl, by rw [own, front]; exact List.mem_cons_self, free, slot⟩

/-! ## What a run keeps -/

namespace OnDevice

variable {κ : Type} {T : Dram.Standard} {setup : Setup} {parts : Components RoundRobinState κ}
  {table : Nat → Bool} {s s' : OnDevice RoundRobinState κ T} {now : Nat} {slots : List Slot}
  {sent rest : List Dram.Timed}

/-- The requests that wait for their slot. -/
def buffer (s : OnDevice RoundRobinState κ T) (id : Nat) : List Request :=
  (s.controller.requestScheduler.requestQueue 0).buffer id

/-- **The memory system is on time** at the start of a cycle: the slots granted so far, what was sent of
their timetable, and what is left of it. -/
structure OnTime (setup : Setup) (now : Nat) (s : OnDevice RoundRobinState κ T) (slots : List Slot)
    (sent rest : List Dram.Timed) : Prop where
  closed : s.controller.Closed
  single : Single setup s.controller
  clock : s.controller.clockCycle = now
  device : clockCycle s.controller = now % 2 ^ 32
  free : s.controller.commandScheduler.Free
  turns : Inv s.controller.requestScheduler s.controller.requestPrivate
  width : s.controller.requestScheduler.commandGenerator.dataBusSize = setup.dataBusWidth
  waiting : ∀ id, ∀ r ∈ s.buffer id, r.requestSize = setup.dataBusWidth ∧ r.bank < 8
  pause : ∀ x ∈ slots, x.start < now ∧ x.start + timeSlot ≤ now + s.controller.requestPrivate.slotCounter
  spread : Spread slots
  banks : ∀ x ∈ slots, x.request.bank < 8
  plan : timetable setup.device.constraints.tRCD slots = sent ++ rest
  past : ∀ x ∈ sent, x.2 < now
  ahead : Ahead setup.device.constraints.tRCD now sent rest
  few : rest.length ≤ 1
  holds : Holds s.controller.commandScheduler rest
  timers : Timers setup.device now s.controller.commandScheduler sent
  tree : Dram.Kept T s.channel sent
  books : ∀ id, ofRequestor id s.controller.accepted =
    ofRequestor id (slots.map (·.request)) ++ s.buffer id

/-- The slots that a call in a cycle starts. -/
def granted (now : Nat) (handed : List Request) : List Slot := handed.map fun r => ⟨r, now⟩

theorem map_granted (now : Nat) (handed : List Request) :
    (granted now handed).map (·.request) = handed :=
  (List.map_map ..).trans (List.map_id' handed)

/-- What a cycle does, with the requests that it grants and the command that it sends. -/
structure Cycled (table : Nat → Bool) (setup : Setup) (parts : Components RoundRobinState κ) (now : Nat)
    (s s' : OnDevice RoundRobinState κ T) (handed : List Request) (out : Option BusPacket) : Prop where
  calls : ∃ rs, (requestSchedule table closeGenerator).step
      (s.controller.requestScheduler, s.controller.requestPrivate) (.requestSchedule ()) =
        some ((rs, s'.controller.requestPrivate), handed) ∧
    s'.controller.requestScheduler.requestQueue = rs.requestQueue
  buffers : ∀ id, s.buffer id = ofRequestor id handed ++ s'.buffer id
  course : ∃ check c₁ c₂, s.controller.prepare setup parts check = some c₁ ∧
    c₁.schedule setup parts check = some (c₂, out) ∧
    c₁.commandScheduler.SendsOne setup.device c₂.commandScheduler out ∧
    c₂.callbacks = s.controller.callbacks ∧ (∀ d, c₂.pending d = s.controller.pending d) ∧
    Single setup c₂ ∧ s'.controller = MemorySystem.deviceUpdate setup (endCycle setup c₂ out)
  sends : sentAt s s' = out.toList.map (·, now)

/-- Nothing is under way when a slot starts. -/
theorem OnTime.rest_nil (inTime : InTime T setup.device) (h : OnTime setup now s slots sent rest)
    (free : s.controller.requestPrivate.slotCounter = 0) : rest = [] := by
  have few := h.few
  have plan := h.plan
  cases h.ahead with
  | done => rfl
  | both x _ => exact absurd few (by simp [Slot.commands])
  | column x opened later =>
    -- its activation is that of a slot that is over
    have known : (x.activation, x.start) ∈ timetable setup.device.constraints.tRCD slots :=
      plan ▸ List.mem_append_left _ opened
    obtain ⟨z, hz, made⟩ := List.mem_flatMap.mp known
    have start : x.start = z.start := by
      simp only [Slot.commands, List.mem_cons, List.not_mem_nil, or_false] at made
      rcases made with made | made
      · exact (Prod.mk.inj made).2
      · have type : BusPacketType.ACT = z.access.busPacketType :=
          congrArg BusPacket.busPacketType (Prod.mk.inj made).1
        rcases z.access_type with other | other <;> simp [other] at type
    have ended := (h.pause z hz).2
    have short := inTime.short
    omega

/-- **A grant extends the timetable** by a whole access. -/
theorem OnTime.grants (inTime : InTime T setup.device) (h : OnTime setup now s slots sent rest)
    {rs : RequestScheduler} {p : RoundRobinState} {handed : List Request}
    (called : Called s.controller.requestScheduler s.controller.requestPrivate rs p handed) :
    Spread (slots ++ granted now handed) ∧
      (∀ x ∈ slots ++ granted now handed, x.start < now + 1 ∧
        x.start + timeSlot ≤ now + 1 + p.slotCounter) ∧
      (∀ r ∈ handed, r.requestSize = setup.dataBusWidth ∧ r.bank < 8) ∧
      timetable setup.device.constraints.tRCD (slots ++ granted now handed) =
        sent ++ (rest ++ timetable setup.device.constraints.tRCD (granted now handed)) ∧
      Ahead setup.device.constraints.tRCD now sent
        (rest ++ timetable setup.device.constraints.tRCD (granted now handed)) := by
  have plan : timetable setup.device.constraints.tRCD (slots ++ granted now handed) =
      sent ++ (rest ++ timetable setup.device.constraints.tRCD (granted now handed)) := by
    rw [timetable_append, h.plan, List.append_assoc]
  rcases (called.turn h.turns).2 with ⟨rfl, slot⟩ | ⟨r, rfl, there, free, slot⟩
  · have same : granted now [] = [] := rfl
    rw [same] at plan ⊢
    simp only [timetable, List.flatMap_nil, List.append_nil] at plan ⊢
    refine ⟨h.spread, fun x hx => ?_, fun _ hr => absurd hr List.not_mem_nil, plan, h.ahead⟩
    have before := h.pause x hx
    omega
  · have nothing := h.rest_nil inTime free
    subst nothing
    have one : granted now [r] = [⟨r, now⟩] := rfl
    rw [one] at plan ⊢
    rw [timetable_singleton, List.nil_append] at plan ⊢
    refine ⟨List.pairwise_append.mpr ⟨h.spread, List.pairwise_singleton _ _, fun x hx y hy => ?_⟩,
      fun x hx => ?_, fun x hx => ?_, plan, .both ⟨r, now⟩ rfl⟩
    · have before := (h.pause x hx).2
      rw [List.mem_singleton.mp hy]
      dsimp only
      omega
    · rcases List.mem_append.mp hx with hx | hx
      · have before := h.pause x hx
        omega
      · rw [List.mem_singleton.mp hx, slot]
        exact ⟨Nat.lt_succ_self now, by unfold timeSlot; dsimp only; omega⟩
    · rw [List.mem_singleton.mp hx]
      exact h.waiting r.requestorID r there

/-- What the law needs of the tree of a device. -/
structure Timely (T : Dram.Standard) (setup : Setup) : Prop where
  inTime : InTime T setup.device
  recorded : T.Recorded
  exists_ : ∀ p : BusPacket, p.bank < 8 → T.Exists (Dram.convert_addr p)

/-- The gate takes a command that is due, and the command reaches the tree. -/
theorem Timely.takes (timely : Timely T setup) {channel : Dram.Node T.below} {y : BusPacket}
    (tree : Dram.Kept T channel sent) (known : ∀ x ∈ sent, OfAccess x.1.busPacketType)
    (of : OfAccess y.busPacketType) (plain : y.postCommand = false) (bank : y.bank < 8)
    (apart : ∀ x ∈ sent, x.2 + gap setup.device.constraints.tRCD x.1.busPacketType y.busPacketType ≤ now) :
    answers channel now y = true ∧ ∃ channel', receive channel [y] now = some channel' ∧
      Dram.Kept T channel' (sent ++ [(y, now)]) := by
  obtain ⟨cy, kind⟩ := of.convert
  have exists_ := timely.exists_ y bank
  have checked : Dram.check T cy (Dram.convert_addr y) now .Channel channel = some true :=
    (tree.check_iff (y := (y, now)) exists_).mpr
      (timely.inTime.asked (y := (y, now)) known of apart kind)
  obtain ⟨channel', updated⟩ := Dram.exists_update cy now channel exists_
  have received : Dram.receiveFromBus T channel y now = some channel' := by
    rw [Dram.receiveFromBus, if_neg (by simp [plain, of.ne_data]), kind, Option.bind_some, updated]
  refine ⟨?_, channel', by simp [receive, received],
    tree.update timely.recorded (y := (y, now)) kind updated⟩
  rw [answers, Dram.command_check, plain, if_neg Bool.false_ne_true, kind]
  simp [checked]

/-- What a call hands to the generator is the timetable of the slots that it starts. -/
theorem closeCommands_granted {width : Nat} (positive : 0 < width) (small : width < 2 ^ 32)
    {handed : List Request} (single : ∀ r ∈ handed, r.requestSize = width ∧ r.bank < 8)
    (tRCD clockCycle : Nat) :
    (handed.flatMap (closeCommands width)).map (stamp clockCycle) =
      (timetable tRCD (granted clockCycle handed)).map Prod.fst := by
  induction handed with
  | nil => rfl
  | cons r handed ih =>
    obtain ⟨one, bank⟩ := single r List.mem_cons_self
    rw [List.flatMap_cons, List.map_append, closeCommands_one positive small one bank,
      ih fun x hx => single x (List.mem_cons_of_mem r hx)]
    rfl

/-- **The queues after the first half of a cycle**, in which the accesses of the requests granted in it have
joined them. -/
structure Queued (setup : Setup) (now : Nat) (cs cs' : CommandScheduler) (sent rest : List Dram.Timed) :
    Prop where
  close : cs'.ClosePage
  free : cs'.Free
  holds : Holds cs' rest
  timers : Timers setup.device now cs' sent
  device : cs'.memoryDevice = cs.memoryDevice

theorem OnTime.queued (h : OnTime setup now s slots sent rest) (refreshCheck : Answers)
    {new : List BusPacket} {plan : List Dram.Timed} (accesses : Accesses new)
    (made : new.map (stamp now) = plan.map Prod.fst) :
    Queued setup now s.controller.commandScheduler
      ((s.controller.commandScheduler.receive (new.map (stamp now))).refresh setup.device refreshCheck)
      sent (rest ++ plan) := by
  have received := h.closed.queues.receive (accesses.stamped now)
  have free : (s.controller.commandScheduler.receive (new.map (stamp now))).Free := h.free
  obtain ⟨free', timers⟩ := free.refresh received.quiet setup.device refreshCheck
  refine ⟨received.refresh setup.device refreshCheck, free', fun i => ?_, ?_,
    (received.quiet.refresh setup.device refreshCheck).2⟩
  · rw [waiting_refresh, waiting_receive, h.holds i, made, List.map_append, List.filter_append]
  · exact ⟨fun x hx t => timers.symm ▸ h.timers.least x hx t,
      fun i hi t => timers.symm ▸ h.timers.most i hi t⟩

/-- The commands of a timetable are accesses to existing banks. -/
theorem mem_timetable {tRCD : Nat} (banks : ∀ x ∈ slots, x.request.bank < 8) {y : Dram.Timed}
    (hy : y ∈ timetable tRCD slots) :
    OfAccess y.1.busPacketType ∧ y.1.postCommand = false ∧ y.1.bank < 8 := by
  obtain ⟨z, hz, made⟩ := List.mem_flatMap.mp hy
  refine ⟨Slot.ofAccess hy, ?_⟩
  simp only [Slot.commands, List.mem_cons, List.not_mem_nil, or_false] at made
  rcases made with rfl | rfl <;> exact ⟨rfl, banks z hz⟩

/-- **What is due is sent and reaches the tree.** -/
theorem Queued.sends (timely : Timely T setup) {cs cs₁ cs' : CommandScheduler}
    (queued : Queued setup now cs cs₁ sent rest) {channel : Dram.Node T.below}
    (tree : Dram.Kept T channel sent) (spread : Spread slots)
    (banks : ∀ x ∈ slots, x.request.bank < 8)
    (plan : timetable setup.device.constraints.tRCD slots = sent ++ rest)
    (ahead : Ahead setup.device.constraints.tRCD now sent rest) {out : Option BusPacket}
    (sends : Sends setup.device (answers channel now) cs₁ cs' out)
    (eager : out = none → ∀ i < cs₁.queueCount, cs₁.candidate (answers channel now) i = none) :
    ∃ rest' channel', rest = out.toList.map (·, now) ++ rest' ∧ rest'.length ≤ 1 ∧
      Ahead setup.device.constraints.tRCD (now + 1) (sent ++ out.toList.map (·, now)) rest' ∧
      Holds cs' rest' ∧ Timers setup.device now cs' (sent ++ out.toList.map (·, now)) ∧
      receive channel out.toList now = some channel' ∧
      Dram.Kept T channel' (sent ++ out.toList.map (·, now)) := by
  have known : ∀ y ∈ sent ++ rest,
      OfAccess y.1.busPacketType ∧ y.1.postCommand = false ∧ y.1.bank < 8 :=
    fun y hy => mem_timetable banks (plan ▸ hy)
  have sentOf : ∀ x ∈ sent, OfAccess x.1.busPacketType := fun x hx =>
    (known x (List.mem_append_left _ hx)).1
  have apart := pairwise_timetable (Nat.le_of_lt timely.inTime.short) spread
  rw [plan] at apart
  have taken : ∀ y ∈ rest, y.2 = now → answers channel now y.1 = true ∧
      ∃ channel', receive channel [y.1] now = some channel' ∧
        Dram.Kept T channel' (sent ++ [(y.1, now)]) := by
    rintro y hy rfl
    obtain ⟨of, plain, bank⟩ := known y (List.mem_append_right _ hy)
    exact timely.takes tree sentOf of plain bank fun x hx => (List.pairwise_append.mp apart).2.2 x hx y hy
  obtain ⟨rest', split, few, ahead', holds', timers'⟩ := ahead.sends timely.inTime queued.close.general
    queued.free queued.holds queued.close.queues queued.timers sentOf
    (fun y hy => (known y (List.mem_append_right _ hy)).2.2) apart (fun y hy at_ => (taken y hy at_).1)
    sends eager
  refine ⟨rest', ?_⟩
  cases out with
  | none => exact ⟨channel, split, few, ahead', holds', timers', rfl, by simpa using tree⟩
  | some p =>
    have first : (p, now) ∈ rest := by
      rw [split]
      exact List.mem_append_left _ List.mem_cons_self
    obtain ⟨_, channel', reached, kept⟩ := taken (p, now) first rfl
    exact ⟨channel', split, few, ahead', holds', timers', reached, kept⟩

/-- An update in which the refresh machine sends nothing, of a command that reaches the tree. -/
theorem update_eq_some {c₁ c₂ : MemoryController RoundRobinState κ} {channel' : Dram.Node T.below}
    {out : Option BusPacket} (clk : clockCycle s.controller = now)
    (prepared : s.controller.prepare setup parts (answers s.channel now) = some c₁)
    (device : c₁.commandScheduler.memoryDevice = s.controller.commandScheduler.memoryDevice)
    (scheduled : c₁.schedule setup parts (answers s.channel now) = some (c₂, out))
    {c' : MemoryController RoundRobinState κ}
    (done : c' = MemorySystem.deviceUpdate setup (endCycle setup c₂ out))
    (trace : c'.commandScheduler.memoryDevice.commandTrace =
      s.controller.commandScheduler.memoryDevice.commandTrace ++ out.toList)
    (reached : receive s.channel out.toList now = some channel') :
    step setup parts s .update = some (⟨c', channel'⟩, ()) ∧
      sentAt s ⟨c', channel'⟩ = out.toList.map (·, now) := by
  subst done
  have before : handed s.controller c₁ = [] := by rw [handed, device, List.drop_length]
  have after : handed c₁ (MemorySystem.deviceUpdate setup (endCycle setup c₂ out)) = out.toList := by
    rw [handed, device, trace, List.drop_left]
  have nothing : receive s.channel [] now = some s.channel := rfl
  constructor
  · unfold step OnDevice.update updateWith
    dsimp only
    rw [clk, prepared, Option.bind_some, before, nothing, Option.bind_some, scheduled, Option.bind_some]
    dsimp only
    rw [after, reached]
    rfl
  · rw [sentAt, handed, trace, List.drop_left, clk]

/-- **The first half of a cycle**: round robin has its turn, and the accesses of what it grants join the
queues. -/
theorem OnTime.prepare (amc : setup.Amc) (made : parts.Amc table) (inTime : InTime T setup.device)
    (h : OnTime setup now s slots sent rest) (refreshCheck : Answers) :
    ∃ rs p handed, Called s.controller.requestScheduler s.controller.requestPrivate rs p handed ∧
      requestSchedule table closeGenerator () s.controller.requestScheduler s.controller.requestPrivate =
        some (rs, p, handed) ∧
      ∃ c₁, s.controller.prepare setup parts refreshCheck = some c₁ ∧ c₁ = { s.controller with
        requestScheduler :=
          { rs with commandGenerator := s.controller.requestScheduler.commandGenerator }
        requestPrivate := p
        stats := (handed.flatMap (closeCommands setup.dataBusWidth)).foldl trackCommand s.controller.stats
        commandScheduler := (s.controller.commandScheduler.receive
          ((handed.flatMap (closeCommands setup.dataBusWidth)).map (stamp now))).refresh setup.device
            refreshCheck } := by
  obtain ⟨rs, p, handed, scheduled⟩ := (requestSchedule_defined closeGenerator_accepts h.turns :
    ∃ rs p handed, requestSchedule table closeGenerator () _ _ = some (rs, p, handed))
  have called := requestSchedule_called closeGenerator_accepts h.turns scheduled
  have fed := (requestSchedule_fed scheduled).close
  rw [h.closed.emptied, List.nil_append, h.width, ← h.width] at fed
  obtain ⟨_, _, singles, _, _⟩ := h.grants inTime called
  have turned : parts.requestScheduler.requestSchedule closeGenerator s.controller.requestScheduler
      s.controller.requestPrivate = some (rs, p) := by
    rw [made.requests]
    show (requestSchedule table closeGenerator () _ _).map _ = _
    rw [scheduled]
    rfl
  have banks : ∀ x ∈ handed.flatMap (closeCommands setup.dataBusWidth), x.bank < 8 := by
    intro x hx
    have listed := closeCommands_granted amc.wide amc.narrow singles 0 now
    have stamped : stamp now x ∈ (timetable 0 (granted now handed)).map Prod.fst :=
      listed ▸ List.mem_map_of_mem hx
    obtain ⟨y, hy, same⟩ := List.mem_map.mp stamped
    have there : ∀ z ∈ granted now handed, z.request.bank < 8 := by
      intro z hz
      obtain ⟨r, hr, rfl⟩ := List.mem_map.mp hz
      exact (singles r hr).2
    have bank := (mem_timetable there hy).2.2
    rw [same] at bank
    exact bank
  have prepared := prepare_eq amc.toPerBank made.generator h.closed.emptied h.closed.queues.general
    h.closed.queues.queues turned fed (by rw [h.width]; exact banks) refreshCheck
  refine ⟨rs, p, handed, called, scheduled, _, prepared, ?_⟩
  dsimp only
  rw [h.width, h.clock]

/-- **No cycle asks what the adapter aborts on.** -/
theorem OnTime.answered (amc : setup.Amc) (made : parts.Amc table) (timely : Timely T setup)
    (asks : parts.commandScheduler.AsksFronts) (h : OnTime setup now s slots sent rest) :
    Answered setup parts s .update := by
  obtain ⟨rs, p, handed, called, _, c₁, prepared, shape⟩ := h.prepare amc made timely.inTime
    (answers s.channel (clockCycle s.controller))
  obtain ⟨_, _, singles, plan, _⟩ := h.grants timely.inTime called
  have queued := h.queued (answers s.channel (clockCycle s.controller))
    (Accesses.flatMap fun r _ => Accesses.closeCommands setup.dataBusWidth r)
    (closeCommands_granted amc.wide amc.narrow singles setup.device.constraints.tRCD now)
  have banks : ∀ x ∈ slots ++ granted now handed, x.request.bank < 8 := by
    intro x hx
    rcases List.mem_append.mp hx with hx | hx
    · exact h.banks x hx
    · obtain ⟨r, hr, rfl⟩ := List.mem_map.mp hx
      exact (singles r hr).2
  refine answered_update asks h.closed.queues.quiet prepared (by rw [shape]; exact queued.device)
    (by rw [shape]; exact queued.close.general) ?_
  rw [shape]
  intro i _ y front
  have waits := List.mem_of_mem_head? front
  rw [queued.holds i] at waits
  obtain ⟨z, hz, rfl⟩ := List.mem_map.mp (List.mem_of_mem_filter waits)
  obtain ⟨of, plain, bank⟩ := mem_timetable banks (plan ▸ List.mem_append_right sent hz)
  obtain ⟨cmd, kind⟩ := of.convert
  rw [Dram.command_check, plain, if_neg Bool.false_ne_true, kind]
  exact Dram.check_isSome (timely.exists_ z.1 bank)

/-- **A cycle is on time.** -/
theorem OnTime.update (amc : setup.Amc) (made : parts.Amc table) (timely : Timely T setup)
    (small : now < 2 ^ 32) (h : OnTime setup now s slots sent rest) :
    ∃ s' handed out rest', step setup parts s .update = some (s', ()) ∧
      Cycled table setup parts now s s' handed out ∧
      OnTime setup (now + 1) s' (slots ++ granted now handed) (sent ++ out.toList.map (·, now)) rest' := by
  have clk : clockCycle s.controller = now := by rw [h.device, Nat.mod_eq_of_lt small]
  obtain ⟨rs, p, handed, called, scheduled, c₁, prepared, shape⟩ := h.prepare amc made timely.inTime
    (answers s.channel now)
  obtain ⟨buffers, _⟩ := called.turn h.turns
  obtain ⟨spread, pause, singles, plan, ahead⟩ := h.grants timely.inTime called
  have accesses : Accesses (handed.flatMap (closeCommands setup.dataBusWidth)) :=
    Accesses.flatMap fun r _ => Accesses.closeCommands _ r
  have listed := closeCommands_granted amc.wide amc.narrow singles setup.device.constraints.tRCD now
  have queued := h.queued (answers s.channel now) accesses listed
  have banks : ∀ x ∈ slots ++ granted now handed, x.request.bank < 8 := by
    intro x hx
    rcases List.mem_append.mp hx with hx | hx
    · exact h.banks x hx
    · obtain ⟨r, hr, rfl⟩ := List.mem_map.mp hx
      exact (singles r hr).2
  -- the command scheduler has its turn
  obtain ⟨cs, priv', out, turned, sends⟩ := made.commands setup.device (answers s.channel now) _
    s.controller.commandPrivate queued.close.general (by rw [queued.close.queues]; decide)
  obtain ⟨rest', channel', split, few, ahead', holds', timers', reached, tree'⟩ := queued.sends timely
    h.tree spread banks plan ahead sends fun none_ => made.eager queued.close.general (none_ ▸ turned)
  obtain ⟨c₂, half⟩ : ∃ c₂, c₂ = s.controller.scheduled
      { rs with commandGenerator := s.controller.requestScheduler.commandGenerator } p
      (handed.flatMap (closeCommands setup.dataBusWidth)) cs priv' := ⟨_, rfl⟩
  obtain ⟨c', done⟩ : ∃ c', c' = MemorySystem.deviceUpdate setup (endCycle setup c₂ out) := ⟨_, rfl⟩
  obtain ⟨requests, turn, accepted, handles, clock, single', commands⟩ := finish_cycle setup
    (half ▸ h.single) (half ▸ h.closed.writes) out done
  rw [half] at requests turn accepted handles clock commands
  -- what the device was handed
  have handed_ : cs.memoryDevice = s.controller.commandScheduler.memoryDevice.receives setup.device out := by
    rw [device_sends sends, queued.device]
  have commanded : ∀ x, out = some x → x.postCommand = false ∧ x.busPacketType ≠ .DATA := by
    rintro x rfl
    have due : (x, now) ∈ timetable setup.device.constraints.tRCD (slots ++ granted now handed) := by
      rw [plan, split]
      simp
    obtain ⟨of, plain, _⟩ := mem_timetable banks due
    exact ⟨plain, of.ne_data⟩
  have trace : c'.commandScheduler.memoryDevice.commandTrace =
      s.controller.commandScheduler.memoryDevice.commandTrace ++ out.toList := by
    rw [commands]
    show (cs.memoryDevice.update setup.device).1.commandTrace = _
    rw [(MemoryDevice.update_trace setup.device (queued.close.sends sends).unposted).1, handed_]
    cases out with
    | none => exact (List.append_nil _).symm
    | some x => exact MemoryDevice.receiveFromBus_trace (commanded x rfl).1 (commanded x rfl).2
  have queued₁ : c₁.commandScheduler.memoryDevice = s.controller.commandScheduler.memoryDevice := by
    rw [shape]
    exact queued.device
  have scheduled' : c₁.schedule setup parts (answers s.channel now) = some (c₂, out) := by
    rw [shape, half]
    unfold schedule
    dsimp only
    rw [turned]
    rfl
  obtain ⟨stepped, sentNow⟩ := update_eq_some clk prepared queued₁ scheduled' done trace reached
  have one : c₁.commandScheduler.SendsOne setup.device c₂.commandScheduler out := by
    rw [shape, half]
    exact Sends.sendsOne queued.close.general sends
  have queues : c'.requestScheduler.requestQueue = rs.requestQueue := by rw [requests]; rfl
  have slot : c'.requestPrivate = p := turn
  refine ⟨⟨c', channel'⟩, handed, out, rest', stepped, ⟨⟨rs, ?_, queues⟩, fun id => ?_,
    ⟨_, c₁, c₂, prepared, scheduled', one, half ▸ rfl, half ▸ fun _ => rfl, half ▸ h.single, done⟩, sentNow⟩,
    ?_⟩
  · rw [slot]
    show (requestSchedule table closeGenerator () _ _).map _ = _
    rw [scheduled]
    rfl
  · rw [buffer, buffer, queues]
    exact buffers id
  have ticked := queued.close.sends sends
  have updated : s.controller.update setup parts (answers s.channel now) (answers s.channel now) =
      some (endCycle setup c₂ out) := by
    rw [update_eq, prepared, Option.bind_some, scheduled']
    rfl
  have whole := h.closed.update amc.toPerBank
    ⟨by rw [made.requests]; exact policy_feeds table, made.generator, made.commands.sendsOwn⟩ updated
  constructor
  · exact done ▸ whole.deviceUpdate
  · exact single'
  · rw [clock]
    exact congrArg (· + 1) h.clock
  · unfold OnDevice.clockCycle
    rw [commands]
    show (cs.memoryDevice.update setup.device).1.clockCycle = _
    rw [MemoryDevice.clockCycle_update, handed_, MemoryDevice.clockCycle_receives]
    show (OnDevice.clockCycle s.controller + 1) % 2 ^ 32 = _
    rw [clk]
  · rw [commands]
    exact (queued.free.sends sends).tick ticked.quiet
  · obtain ⟨one, queue, first, plain, pointer⟩ := (called.inv h.turns).1
    rw [slot, requests]
    exact ⟨one, queue, first, plain, pointer⟩
  · rw [requests]
    exact h.width
  · intro id r hr
    rw [buffer, queues] at hr
    exact h.waiting id r (by rw [buffer, buffers id]; exact List.mem_append_right _ hr)
  · rw [slot]
    exact pause
  · exact spread
  · exact banks
  · rw [plan, split, List.append_assoc]
  · intro x hx
    rcases List.mem_append.mp hx with old | new
    · exact Nat.lt_succ_of_lt (h.past x old)
    · obtain ⟨_, _, rfl⟩ := List.mem_map.mp new
      exact Nat.lt_succ_self now
  · exact ahead'
  · exact few
  · intro i
    rw [commands]
    show cs.tick.waiting i = _
    rw [waiting_tick ticked.general, holds' i]
  · have next := timers'.tick ticked.general ticked.queues
    rw [commands]
    exact ⟨next.least, next.most⟩
  · exact tree'
  · intro id
    have before := h.books id
    rw [buffer, buffers id] at before
    rw [accepted, buffer, queues, List.map_append, map_granted, ofRequestor_append, List.append_assoc]
    exact before

/-- A request of one data bus width, from a requestor that has a bank. -/
def Event.Single (setup : Setup) : OnDevice.Event → Prop
  | .addRequest requestorID address R_W size =>
    MCsim.Event.Fits setup (.addRequest requestorID address R_W size) ∧ size = setup.dataBusWidth
  | .update => True

/-- A request that arrives joins those of its requestor. -/
theorem OnTime.arrive (amc : setup.Amc) (h : OnTime setup now s slots sent rest)
    {requestorID address size : Nat} {R_W : Bool}
    (single : Event.Single setup (.addRequest requestorID address R_W size)) :
    ∃ s', step setup parts s (.addRequest requestorID address R_W size) = some (s', ()) ∧
      sentAt s s' = [] ∧ OnTime setup now s' slots sent rest := by
  obtain ⟨fits, one⟩ := single
  obtain ⟨r, arrived⟩ : ∃ r, incoming setup s.controller requestorID address R_W size = r := ⟨_, rfl⟩
  have bank : r.bank < 8 := arrived ▸ incoming_bank_lt amc.toPerBank s.controller address R_W size fits
  have sized : r.requestSize = setup.dataBusWidth := by
    rw [← arrived, (incoming_same setup s.controller requestorID address R_W size).2.2.2.1, one]
  have index : decodeQueue setup r.addressMap setup.reqMap = 0 := by
    rw [amc.reqMap, decodeQueue_unmarked]
  obtain ⟨c', added⟩ : ∃ c', s.controller.addRequest setup requestorID address R_W size = some c' := by
    unfold MemoryController.addRequest
    dsimp only
    rw [arrived, index, h.turns.one, if_pos Nat.zero_lt_one]
    exact ⟨_, rfl⟩
  have closed := h.closed.addRequest added
  refine ⟨{ s with controller := c' }, by rw [step, added]; rfl, ?_⟩
  unfold MemoryController.addRequest at added
  dsimp only at added
  rw [arrived, index, h.turns.one, if_pos Nat.zero_lt_one] at added
  obtain rfl := Option.some.inj added
  have buffers := RequestQueue.buffer_insertRequest h.turns.queue r
  refine ⟨by rw [sentAt, handed, List.drop_length]; rfl, closed, ?_, h.clock, h.device, h.free,
    h.turns.insertRequest r, h.width, ?_, h.pause, h.spread, h.banks, h.plan, h.past, h.ahead, h.few, h.holds,
    ⟨h.timers.least, h.timers.most⟩, h.tree, ?_⟩
  · intro d x hx
    have known : x ∈ s.controller.pending d ∨ x = r := by
      cases R_W <;> cases d <;> first | exact .inl hx | exact (List.mem_append.mp hx).imp id List.mem_singleton.mp
    rcases known with old | rfl
    · exact h.single d x old
    · exact sized
  · intro id x hx
    replace hx : x ∈ ((s.controller.requestScheduler.requestQueue 0).insertRequest r).buffer id := hx
    rw [buffers] at hx
    split at hx
    · rcases List.mem_append.mp hx with old | new
      · exact h.waiting id x old
      · exact List.mem_singleton.mp new ▸ ⟨sized, bank⟩
    · exact h.waiting id x hx
  · intro id
    show ofRequestor id (s.controller.accepted ++ [r]) = _ ++
      ((s.controller.requestScheduler.requestQueue 0).insertRequest r).buffer id
    rw [ofRequestor_append, h.books id, buffers, List.append_assoc]
    congr 1
    by_cases own : id = r.requestorID
    · rw [if_pos own]
      simp [ofRequestor, own, buffer]
    · rw [if_neg own]
      simp [ofRequestor, Ne.symm own, buffer]

theorem onTime_create (amc : setup.Amc) (made : parts.Amc table) (noRefresh : setup.refresh_mechanism = .none)
    (refreshCounting bank_release : Nat) :
    OnTime setup 0 (create T setup parts refreshCounting bank_release) [] [] [] where
  closed := closed_create amc.toPerBank noRefresh parts refreshCounting bank_release
  single d _ hr := absurd hr (by cases d <;> exact List.not_mem_nil)
  clock := rfl
  device := rfl
  free _ := rfl
  turns := by
    refine ⟨?_, ?_, ?_, ?_, ?_⟩
    · show queueNumber setup setup.reqMap = 1
      rw [amc.reqMap, queueNumber_unmarked]
    · show (RequestQueue.create setup.requestorReqQ setup.writeQueueEnable).PerRequestor
      rw [amc.requestorReqQ, amc.writeQueueEnable]
      exact RequestQueue.PerRequestor.create
    · show parts.requestInit.queueIndex = 0
      rw [made.init]
    · show parts.requestInit.fixedPrioirty = false
      rw [made.init]
    · show parts.requestInit.queueRequestorIndex 0 = 0 ∨ _
      rw [made.init]
      exact .inl rfl
  width := rfl
  waiting _ _ hr := absurd hr List.not_mem_nil
  pause _ hx := absurd hx List.not_mem_nil
  spread := .nil
  banks _ hx := absurd hx List.not_mem_nil
  plan := rfl
  past _ hx := absurd hx List.not_mem_nil
  ahead := .done
  few := Nat.zero_le 1
  holds _ := rfl
  timers := ⟨fun _ hx => absurd hx List.not_mem_nil, fun _ _ _ => .inl rfl⟩
  tree := Dram.kept_channel T
  books _ := rfl

/-! ## Runs -/

/-- What was sent is what the timetable has in the cycles so far. -/
theorem OnTime.sent_eq (h : OnTime setup now s slots sent rest) :
    sent = (timetable setup.device.constraints.tRCD slots).filter (·.2 < now) := by
  have past : sent.filter (·.2 < now) = sent :=
    List.filter_eq_self.mpr fun x hx => decide_eq_true (h.past x hx)
  have left : rest.filter (·.2 < now) = [] :=
    List.filter_eq_nil_iff.mpr fun y hy => by simpa using h.ahead.later y hy
  rw [h.plan, List.filter_append, past, left, List.append_nil]

/-- An event that fits happens, and what is sent in it is due. -/
theorem OnTime.step (amc : setup.Amc) (made : parts.Amc table) (timely : Timely T setup)
    (h : OnTime setup now s slots sent rest) {e : OnDevice.Event} (single : e.Single setup)
    (small : now + (if e.isUpdate then 1 else 0) ≤ 2 ^ 32) :
    ∃ s' slots' rest', OnDevice.step setup parts s e = some (s', ()) ∧
      OnTime setup (now + if e.isUpdate then 1 else 0) s' slots' (sent ++ sentAt s s') rest' := by
  cases e with
  | addRequest requestorID address R_W size =>
    obtain ⟨s', stepped, nothing, next⟩ := h.arrive amc single
    refine ⟨s', slots, rest, stepped, ?_⟩
    rw [nothing, List.append_nil]
    exact next
  | update =>
    obtain ⟨s', handed, out, rest', stepped, cycled, next⟩ := h.update amc made timely small
    refine ⟨s', slots ++ granted now handed, rest', stepped, ?_⟩
    rw [cycled.sends]
    exact next

/-- **In every run the memory system is on time**, while the device's clock has not run over. -/
theorem onTime_run (amc : setup.Amc) (made : parts.Amc table) (timely : Timely T setup)
    (noRefresh : setup.refresh_mechanism = .none) (refreshCounting bank_release : Nat)
    (events : List OnDevice.Event) (single : ∀ e ∈ events, e.Single setup)
    (small : updatesOf events ≤ 2 ^ 32) :
    ∃ s os slots rest,
      run (OnDevice.step setup parts) (create T setup parts refreshCounting bank_release) events =
        some (s, os) ∧
      OnTime setup (updatesOf events) s slots
        (timed setup parts (create T setup parts refreshCounting bank_release) events) rest := by
  obtain ⟨start, created⟩ : ∃ start, create T setup parts refreshCounting bank_release = start :=
    ⟨_, rfl⟩
  have first : OnTime setup 0 start [] [] [] := created ▸ onTime_create amc made noRefresh _ _
  rw [created]
  induction events using List.reverseRecOn with
  | nil => exact ⟨start, [], [], [], rfl, first⟩
  | append_singleton events e ih =>
    rw [updatesOf_append] at small ⊢
    obtain ⟨s, os, slots, rest, ran, here⟩ := ih (fun e he => single e (List.mem_append_left _ he)) (by omega)
    obtain ⟨s', slots', rest', stepped, next⟩ := here.step amc made timely (single e (by simp)) small
    have last : run (OnDevice.step setup parts) s [e] = some (s', [()]) :=
      run_cons_eq_some.mpr ⟨s', (), [], stepped, rfl, rfl⟩
    refine ⟨s', os ++ [()], slots', rest', run_append_eq_some.mpr ⟨s, os, [()], ran, last, rfl⟩, ?_⟩
    rw [timed, collect_concat sentAt ran stepped]
    exact next

/-- A DDR3 device with long enough slots is timely. -/
theorem timely_ddr3 {org : Dram.DDR3.Org} {speed : Dram.DDR3.Speed} {ranks : Nat} (some_rank : 0 < ranks)
    (device : setup.device = Dram.DDR3.device org speed ranks)
    (fits : (Dram.DDR3.speed_entry org speed).Fits) :
    Timely (Dram.DDR3.standard org speed ranks) setup where
  inTime := by
    rw [device]
    exact inTime_ddr3 fits
  recorded := (Dram.IsAdapter.ddr3 org speed some_rank).recorded
  exists_ := (banked_ddr3 org speed some_rank).exists_

/-- The adapter answers every question of a run, so that it is no matter what an abort counts as. -/
theorem amc_answered (amc : setup.Amc) (made : parts.Amc table)
    (asks : parts.commandScheduler.AsksFronts) (noRefresh : setup.refresh_mechanism = .none)
    {org : Dram.DDR3.Org} {speed : Dram.DDR3.Speed} {ranks : Nat} (some_rank : 0 < ranks)
    (device : setup.device = Dram.DDR3.device org speed ranks)
    (fits : (Dram.DDR3.speed_entry org speed).Fits) (refreshCounting bank_release : Nat)
    (events : List OnDevice.Event) (single : ∀ e ∈ events, e.Single setup)
    (small : updatesOf events ≤ 2 ^ 32) :
    Along (OnDevice.step setup parts) (fun s e _ _ => Answered setup parts s e)
      (create (Dram.DDR3.standard org speed ranks) setup parts refreshCounting bank_release) events := by
  refine along_of_prefixes fun before e later split s os ran s' o _ => ?_
  subst split
  have some_left : updatesOf before ≤ 2 ^ 32 := by
    have whole : updatesOf (before ++ e :: later) = updatesOf before + updatesOf (e :: later) :=
      List.countP_append
    omega
  obtain ⟨s₁, os₁, slots, rest, ran', here⟩ := onTime_run amc made (timely_ddr3 some_rank device fits)
    noRefresh refreshCounting bank_release before (fun e he => single e (List.mem_append_left _ he)) some_left
  obtain ⟨rfl, _⟩ := Prod.mk.inj (Option.some.inj (ran'.symm.trans ran))
  cases e with
  | addRequest => trivial
  | update => exact here.answered amc made (timely_ddr3 some_rank device fits) asks

/-- **AMC is on time.** On a DDR3 device on which a slot is as long as a write with its precharge, with the
queues of `AMC.ini`, round robin for requests, the `CLOSE` generator, no refresh and a command scheduler
that sends a front wherever it can: every run of requests of one data bus width and of at most 2^32 cycles
happens, and there are slots that follow each other without overlapping, which grant the requests of each
requestor in their order, such that what was sent until now is what the timetable of the slots has in these
cycles: each activation in the cycle of its grant and each column access `tRCD` cycles later. -/
theorem amc_onTime (amc : setup.Amc) (made : parts.Amc table) (noRefresh : setup.refresh_mechanism = .none)
    {org : Dram.DDR3.Org} {speed : Dram.DDR3.Speed} {ranks : Nat} (some_rank : 0 < ranks)
    (device : setup.device = Dram.DDR3.device org speed ranks)
    (fits : (Dram.DDR3.speed_entry org speed).Fits) (refreshCounting bank_release : Nat)
    (events : List OnDevice.Event) (single : ∀ e ∈ events, e.Single setup)
    (small : updatesOf events ≤ 2 ^ 32) :
    ∃ s os slots, run (OnDevice.step setup parts) (create (Dram.DDR3.standard org speed ranks) setup parts
        refreshCounting bank_release) events = some (s, os) ∧
      Spread slots ∧ (∀ x ∈ slots, x.start < updatesOf events) ∧
      (∀ id, ofRequestor id s.controller.accepted =
        ofRequestor id (slots.map (·.request)) ++ s.buffer id) ∧
      timed setup parts (create (Dram.DDR3.standard org speed ranks) setup parts refreshCounting
        bank_release) events =
          (timetable setup.device.constraints.tRCD slots).filter (·.2 < updatesOf events) := by
  obtain ⟨s, os, slots, rest, ran, here⟩ := onTime_run amc made (timely_ddr3 some_rank device fits) noRefresh
    refreshCounting bank_release events single small
  exact ⟨s, os, slots, ran, here.spread, fun x hx => (here.pause x hx).1, here.books, here.sent_eq⟩

theorem amcIni_amc : amcIni.Amc fun _ => true :=
  ⟨rfl, rfl, rfl, Fcfs.policy_sendsFronts, Fcfs.policy_eager⟩

theorem closePageSetup_amc : closePageSetup.Amc :=
  ⟨⟨by decide, rfl, rfl, rfl, rfl, rfl, rfl, fun _ => rfl⟩, rfl, rfl, rfl, by decide, by decide⟩

/-- Two reads of one requestor and a write of another, then two hundred cycles. -/
def readsAndWrite : List OnDevice.Event :=
  [.addRequest 1 0 true 64, .addRequest 1 64 true 64, .addRequest 2 128 false 64] ++
    List.replicate 200 .update

theorem readsAndWrite_single : ∀ e ∈ readsAndWrite, e.Single closePageSetup := by
  intro e he
  rcases List.mem_append.mp he with he | he
  · simp only [List.mem_cons, List.not_mem_nil, or_false] at he
    rcases he with rfl | rfl | rfl <;> exact ⟨fun _ => by decide, rfl⟩
  · rw [List.eq_of_mem_replicate he]
    trivial

theorem updatesOf_readsAndWrite : updatesOf readsAndWrite = 200 := by
  rw [updatesOf, readsAndWrite, List.countP_append, List.countP_replicate]
  rfl

/-- The law at these requests, on the default device. -/
theorem amc_onTime_readsAndWrite :
    ∃ s os slots, run (OnDevice.step closePageSetup amcIni) (create (Dram.DDR3.standard .DDR3_2Gb_x8
        .DDR3_1600H 1) closePageSetup amcIni 0 0) readsAndWrite = some (s, os) ∧
      Spread slots ∧
      timed closePageSetup amcIni (create (Dram.DDR3.standard .DDR3_2Gb_x8 .DDR3_1600H 1) closePageSetup
        amcIni 0 0) readsAndWrite =
          (timetable closePageSetup.device.constraints.tRCD slots).filter (·.2 < updatesOf readsAndWrite) := by
  have device : closePageSetup.device = Dram.DDR3.device .DDR3_2Gb_x8 .DDR3_1600H 1 := rfl
  have fits : (Dram.DDR3.speed_entry .DDR3_2Gb_x8 .DDR3_1600H).Fits := by decide
  obtain ⟨s, os, slots, ran, spread, _, _, sent⟩ := amc_onTime closePageSetup_amc amcIni_amc rfl Nat.one_pos
    device fits 0 0 readsAndWrite readsAndWrite_single (by rw [updatesOf_readsAndWrite]; decide)
  exact ⟨s, os, slots, ran, spread, sent⟩

end OnDevice

end MCsim
