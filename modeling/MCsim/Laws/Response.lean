import MCsim.Laws.OnTime
import MCsim.Laws.Pipelines

/-!
# Response times of AMC

Read data and write data pass through delay lines of fixed length, so on a device on which AMC is on time
each request completes a fixed number of cycles after its grant, within its slot. No other request is under
way then, so the packet finds its own request, the oldest of its requestor and direction. With the bound on
the wait for a grant this bounds the response time of every request (`amc_response`).
-/

namespace MCsim

open CommandScheduler RequestScheduler MemoryController MemorySystem CommandGenerator RoundRobin
  Lib.Machine Lib.DelayLine

/-! ## The data of a slot -/

def Request.isRead (r : Request) : Bool := r.requestType == .DATA_READ

/-- The cycles from a column access to its data. -/
def Constraints.dataDelay (k : Constraints) (isRead : Bool) : Nat :=
  if isRead then k.readSlots false else k.writeDelay false

/-- The cycle in which the request of a slot completes. -/
def Slot.finish (k : Constraints) (x : Slot) : Nat := x.start + k.tRCD + k.dataDelay x.request.isRead

/-- Requests complete within their slots. -/
structure InSlot (k : Constraints) : Prop where
  opens : 0 < k.tRCD
  accepts : 0 < k.readDelay
  within : ∀ isRead, k.tRCD + k.dataDelay isRead < timeSlot

theorem InSlot.finish_lt {k : Constraints} (inSlot : InSlot k) (x : Slot) :
    x.start < x.finish k ∧ x.finish k < x.start + timeSlot := by
  have opens := inSlot.opens
  have within := inSlot.within x.request.isRead
  unfold Slot.finish
  omega

/-- It is enough that the data are through within a slot. -/
theorem inSlot_of {k : Constraints} (opens : 0 < k.tRCD) (bursts : 0 < k.tBus)
    (read : k.tRCD + k.tRL + k.tBus ≤ timeSlot) (write : k.tRCD + k.tWL + k.tBus < timeSlot) : InSlot k := by
  unfold timeSlot at read write
  have reads : k.readDelay = k.tRL + k.tBus := by rw [Constraints.readDelay, Nat.mod_eq_of_lt (by omega)]
  have writes : k.writeDelay false = k.tWL + k.tBus := by
    rw [Constraints.writeDelay, if_neg Bool.false_ne_true, Nat.mod_eq_of_lt (by omega)]
  have slots : k.readSlots false = k.readDelay - 1 := if_neg Bool.false_ne_true
  refine ⟨opens, by omega, fun isRead => ?_⟩
  unfold timeSlot
  cases isRead with
  | false =>
    rw [Constraints.dataDelay, if_neg Bool.false_ne_true]
    omega
  | true =>
    rw [Constraints.dataDelay, if_pos rfl]
    omega

/-- The data of a command, in a direction. -/
def dataFor (isRead : Bool) (cycle : Nat) (cmd : BusPacket) : Option BusPacket :=
  if isRead then readData cmd else writeData cycle cmd

/-- A column access has data in the direction of its request, and they find the request. -/
theorem dataFor_access (z : Slot) (cycle : Nat) :
    ∃ p, dataFor z.request.isRead cycle z.access = some p ∧ matchesRequest p z.request = true := by
  cases type : z.request.requestType with
  | DATA_READ =>
    have read : z.access.busPacketType = .RDA := by simp [Slot.access, rowCommand, autoCasType, type]
    have direction : z.request.isRead = true := by simp [Request.isRead, type]
    rw [direction]
    refine ⟨_, by rw [dataFor, if_pos rfl, readData, if_pos (.inr read)], ?_⟩
    simp [matchesRequest, MemoryDevice.dataPacket, Slot.access, rowCommand]
  | DATA_WRITE =>
    have write : z.access.busPacketType = .WRA := by simp [Slot.access, rowCommand, autoCasType, type]
    have direction : z.request.isRead = false := by simp [Request.isRead, type]
    rw [direction]
    refine ⟨_, by rw [dataFor, if_neg Bool.false_ne_true, writeData, if_pos (.inr write)], ?_⟩
    simp [matchesRequest, MemoryDevice.dataPacket, Slot.access, rowCommand]

/-- Only the column access of a slot has data, and only in the direction of its request. -/
theorem dataFor_commands {k : Nat} {z : Slot} {y : Dram.Timed} (hy : y ∈ z.commands k) {isRead : Bool}
    {cycle : Nat} {p : BusPacket} (data : dataFor isRead cycle y.1 = some p) :
    y = (z.access, z.start + k) ∧ z.request.isRead = isRead := by
  simp only [Slot.commands, List.mem_cons, List.not_mem_nil, or_false] at hy
  rcases hy with rfl | rfl
  · cases isRead <;> simp [dataFor, readData, writeData, Slot.activation, rowCommand] at data
  · refine ⟨rfl, ?_⟩
    cases type : z.request.requestType <;> cases isRead <;>
      simp [dataFor, readData, writeData, Slot.access, rowCommand, autoCasType, type, Request.isRead] at data ⊢

/-! ## The commands of a traffic -/

/-- The commands that went through, with their cycles. -/
def commandsIn (traffic : List Traffic) : List Dram.Timed :=
  (traffic.mapIdx fun t tr => tr.sent.toList.map (·, t)).flatten

theorem commandsIn_append (traffic : List Traffic) (tr : Traffic) :
    commandsIn (traffic ++ [tr]) = commandsIn traffic ++ tr.sent.toList.map (·, traffic.length) := by
  simp [commandsIn, List.mapIdx_append]

theorem mem_commandsIn {traffic : List Traffic} {x : BusPacket} {t : Nat} :
    (x, t) ∈ commandsIn traffic ↔ ∃ tr, traffic[t]? = some tr ∧ tr.sent = some x := by
  constructor
  · intro h
    obtain ⟨l, hl, hx⟩ := List.mem_flatten.mp h
    obtain ⟨i, hi, rfl⟩ := List.mem_mapIdx.mp hl
    obtain ⟨y, hy, same⟩ := List.mem_map.mp hx
    obtain ⟨rfl, rfl⟩ := Prod.mk.inj same
    exact ⟨traffic[i], List.getElem?_eq_getElem hi, Option.mem_toList.mp hy⟩
  · rintro ⟨tr, found, sent⟩
    obtain ⟨bound, rfl⟩ := List.getElem?_eq_some_iff.mp found
    exact List.mem_flatten.mpr ⟨_, List.mem_mapIdx.mpr ⟨t, bound, rfl⟩,
      List.mem_map.mpr ⟨x, Option.mem_toList.mpr sent, rfl⟩⟩

/-- What passes between controller and device in a direction. -/
def Traffic.data (tr : Traffic) (isRead : Bool) : Option BusPacket :=
  if isRead then tr.receiveData else tr.sendData

/-- Data pass a fixed number of cycles after their command. -/
theorem MemorySystem.Passes.data_iff {k : Constraints} {traffic : List Traffic} {now : Nat} {tr : Traffic}
    (passes : Passes k false traffic now tr) {isRead : Bool} {p : BusPacket} :
    tr.data isRead = some p ↔ k.dataDelay isRead ≤ now ∧
      ∃ x, (x, now - k.dataDelay isRead) ∈ commandsIn traffic ∧
        dataFor isRead (now - k.dataDelay isRead) x = some p := by
  have stream : tr.data isRead = if k.dataDelay isRead ≤ now then
      (traffic[now - k.dataDelay isRead]?).bind fun tr =>
        tr.sent.bind (dataFor isRead (now - k.dataDelay isRead))
      else none := by
    cases isRead with
    | false =>
      show tr.sendData = _
      rw [passes.sendData, delayed]
      simp only [Constraints.dataDelay, Bool.false_eq_true, if_false]
      split
      · rw [writesOf, List.getElem?_mapIdx]
        cases traffic[now - k.writeDelay false]? <;> rfl
      · rfl
    | true =>
      show tr.receiveData = _
      rw [passes.receiveData, delayed]
      simp only [Constraints.dataDelay, if_true]
      split
      · rw [readsOf, List.getElem?_map]
        cases traffic[now - k.readSlots false]? <;> rfl
      · rfl
  rw [stream]
  constructor
  · intro h
    split at h
    · next late =>
      obtain ⟨tr', found, h⟩ := Option.bind_eq_some_iff.mp h
      obtain ⟨x, sent, data⟩ := Option.bind_eq_some_iff.mp h
      exact ⟨late, x, mem_commandsIn.mpr ⟨tr', found, sent⟩, data⟩
    · cases h
  · rintro ⟨late, x, there, data⟩
    obtain ⟨tr', found, sent⟩ := mem_commandsIn.mp there
    rw [if_pos late, found, Option.bind_some, sent, Option.bind_some, data]

/-- **Data pass in the cycles in which slots finish.** -/
theorem MemorySystem.Passes.finish_iff {k : Constraints} {traffic : List Traffic} {now : Nat} {tr : Traffic}
    (passes : Passes k false traffic now tr) {slots : List Slot}
    (sent : commandsIn traffic = (timetable k.tRCD slots).filter (·.2 < now + 1)) (isRead : Bool) :
    (∀ p, tr.data isRead = some p → ∃ z ∈ slots, z.finish k = now ∧ z.request.isRead = isRead) ∧
      ∀ z ∈ slots, z.finish k = now → z.request.isRead = isRead →
        ∃ p, tr.data isRead = some p ∧ matchesRequest p z.request = true := by
  constructor
  · intro p passed
    obtain ⟨late, x, there, data⟩ := passes.data_iff.mp passed
    rw [sent] at there
    obtain ⟨z, hz, made⟩ := List.mem_flatMap.mp (List.mem_filter.mp there).1
    obtain ⟨same, direction⟩ := dataFor_commands made data
    refine ⟨z, hz, ?_, direction⟩
    have cycle := (Prod.mk.inj same).2
    rw [Slot.finish, direction]
    omega
  · rintro z hz finish rfl
    rw [Slot.finish] at finish
    obtain ⟨p, data, own⟩ := dataFor_access z (now - k.dataDelay z.request.isRead)
    refine ⟨p, passes.data_iff.mpr ⟨by omega, z.access, ?_, data⟩, own⟩
    rw [sent]
    have past : now - k.dataDelay z.request.isRead < now + 1 := by omega
    refine List.mem_filter.mpr ⟨List.mem_flatMap.mpr ⟨z, hz, ?_⟩, decide_eq_true past⟩
    have cycle : now - k.dataDelay z.request.isRead = z.start + k.tRCD := by omega
    rw [cycle]
    simp [Slot.commands]

/-! ## Completion -/

namespace MemoryController

variable {ρ κ : Type} {setup : Setup} {c c' c'' : MemoryController ρ κ}

/-- Nothing completes. -/
structure Idles (c c' : MemoryController ρ κ) : Prop where
  callbacks : c'.callbacks = c.callbacks
  pending : ∀ d, c'.pending d = c.pending d

/-- A pending request completes, and nothing else does. -/
structure Finishes (isRead : Bool) (r : Request) (l₁ l₂ : List Request) (c c' : MemoryController ρ κ) :
    Prop where
  callbacks : c'.callbacks.map (·.request) = c.callbacks.map (·.request) ++ [r]
  pending : c'.pending isRead = l₁ ++ l₂
  other : c'.pending (!isRead) = c.pending (!isRead)

/-- **Data of one width complete the oldest request of their requestor.** -/
theorem deliver_oldest (single : Single setup c) {isRead : Bool} {p : BusPacket} {r : Request}
    {l₁ l₂ : List Request} (split : c.pending isRead = l₁ ++ r :: l₂)
    (others : ∀ x ∈ l₁, x.requestorID ≠ r.requestorID) (own : matchesRequest p r = true) :
    Finishes isRead r l₁ l₂ c (deliver setup isRead c p) := by
  have same : p.requestorID = r.requestorID := by
    simp only [matchesRequest, Bool.and_eq_true, beq_iff_eq] at own
    exact own.1
  have none_ : l₁.findIdx? (matchesRequest p) = none := by
    rw [List.findIdx?_eq_none_iff]
    intro x hx
    have other : ¬ p.requestorID = x.requestorID := fun h => others x hx (h.symm.trans same)
    simp [matchesRequest, other]
  have found : (c.pending isRead).findIdx? (matchesRequest p) = some l₁.length := by
    rw [split, List.findIdx?_append, none_, List.findIdx?_cons, own]
    simp
  have there : (c.pending isRead)[l₁.length]? = some r := by
    rw [split, List.getElem?_append_right (Nat.le_refl _), Nat.sub_self, List.getElem?_cons_zero]
  have size : r.requestSize = setup.dataBusWidth := single isRead r (List.mem_of_getElem? there)
  have done : deliver setup isRead c p = c.completed isRead p l₁.length r := by
    unfold deliver
    simp only [found, there, size, if_true]
    rfl
  have rest : (c.pending isRead).eraseIdx l₁.length = l₁ ++ l₂ := by
    rw [split, List.eraseIdx_append_of_length_le (Nat.le_refl _), Nat.sub_self, List.eraseIdx_cons_zero]
  rw [done]
  refine ⟨?_, ?_, ?_⟩
  · cases isRead <;> simp [completed, setPending]
  · rw [← rest]
    cases isRead <;> rfl
  · cases isRead <;> rfl

theorem queueWriteData_idles (setup : Setup) (c : MemoryController ρ κ) (out : Option BusPacket) :
    Idles c (queueWriteData setup c out) := by
  unfold queueWriteData
  split
  · exact ⟨rfl, fun _ => rfl⟩
  · split <;> exact ⟨rfl, fun _ => rfl⟩

/-- What leaves the write line is delivered. -/
theorem sendWriteData_none (nothing : c.dueWrite = none) : Idles c (sendWriteData setup c) := by
  unfold dueWrite at nothing
  unfold sendWriteData
  dsimp only
  split
  · next due =>
    rw [if_pos due, List.head?_eq_none_iff] at nothing
    rw [nothing]
    exact ⟨rfl, fun _ => rfl⟩
  · exact ⟨rfl, fun _ => rfl⟩

theorem sendWriteData_some (single : Single setup c) {p : BusPacket} (leaves : c.dueWrite = some p)
    {r : Request} {l₁ l₂ : List Request} (split : c.pending false = l₁ ++ r :: l₂)
    (others : ∀ x ∈ l₁, x.requestorID ≠ r.requestorID) (own : matchesRequest p r = true) :
    Finishes false r l₁ l₂ c (sendWriteData setup c) := by
  unfold dueWrite at leaves
  unfold sendWriteData
  dsimp only
  split at leaves
  · next due =>
    obtain ⟨rest, buffer⟩ : ∃ rest, c.sendDataBuffer = p :: rest := by
      cases buffer : c.sendDataBuffer with
      | nil => simp [buffer] at leaves
      | cons a rest =>
        rw [buffer, List.head?_cons] at leaves
        exact ⟨rest, by rw [Option.some.inj leaves]⟩
    rw [if_pos due, buffer]
    obtain ⟨callbacks, pending, other⟩ := deliver_oldest (c := { c with
      commandScheduler := { c.commandScheduler with
        memoryDevice := c.commandScheduler.memoryDevice.receiveFromBus setup.device p }
      stats := { c.stats with writeBytes := c.stats.writeBytes + setup.dataBusWidth } })
      single split others own
    exact ⟨callbacks, pending, other⟩
  · cases leaves

theorem deviceUpdate_none (nothing : (c.commandScheduler.memoryDevice.update setup.device).2 = none) :
    Idles c (MemorySystem.deviceUpdate setup c) := by
  unfold MemorySystem.deviceUpdate
  dsimp only
  rw [nothing]
  exact ⟨rfl, fun _ => rfl⟩

theorem deviceUpdate_some (single : Single setup c) {p : BusPacket}
    (leaves : (c.commandScheduler.memoryDevice.update setup.device).2 = some p)
    {r : Request} {l₁ l₂ : List Request} (split : c.pending true = l₁ ++ r :: l₂)
    (others : ∀ x ∈ l₁, x.requestorID ≠ r.requestorID) (own : matchesRequest p r = true) :
    Finishes true r l₁ l₂ c (MemorySystem.deviceUpdate setup c) := by
  unfold MemorySystem.deviceUpdate
  dsimp only
  rw [leaves]
  obtain ⟨callbacks, pending, other⟩ := deliver_oldest (c := { c with
    commandScheduler := { c.commandScheduler with
      memoryDevice := (c.commandScheduler.memoryDevice.update setup.device).1 }
    stats := { c.stats with readBytes := c.stats.readBytes + setup.dataBusWidth } })
    single split others own
  exact ⟨callbacks, pending, other⟩

/-- **The end of a cycle in which nothing passes.** -/
theorem cycle_idles {out : Option BusPacket} (nothing : ∀ d, (trafficOf setup c out).data d = none) :
    Idles c (MemorySystem.deviceUpdate setup (endCycle setup c out)) := by
  have queued := queueWriteData_idles setup c out
  have written : Idles (queueWriteData setup c out) (endCycle setup c out) := by
    obtain ⟨callbacks, pending⟩ : Idles _ (sendWriteData setup _) := sendWriteData_none (nothing false)
    exact ⟨callbacks, pending⟩
  have updated : Idles (endCycle setup c out) (MemorySystem.deviceUpdate setup (endCycle setup c out)) :=
    deviceUpdate_none (nothing true)
  exact ⟨updated.callbacks.trans (written.callbacks.trans queued.callbacks),
    fun d => (updated.pending d).trans ((written.pending d).trans (queued.pending d))⟩

/-- **The end of a cycle in which data pass in one direction.** -/
theorem cycle_finishes (single : Single setup c) {out : Option BusPacket} {isRead : Bool} {p : BusPacket}
    (passes : (trafficOf setup c out).data isRead = some p)
    (alone : (trafficOf setup c out).data (!isRead) = none)
    {r : Request} {l₁ l₂ : List Request} (split : c.pending isRead = l₁ ++ r :: l₂)
    (others : ∀ x ∈ l₁, x.requestorID ≠ r.requestorID) (own : matchesRequest p r = true) :
    Finishes isRead r l₁ l₂ c (MemorySystem.deviceUpdate setup (endCycle setup c out)) := by
  have queued := queueWriteData_idles setup c out
  have single' := (Subsides.queueWriteData setup c out).single single
  cases isRead with
  | false =>
    have written : Finishes false r l₁ l₂ (queueWriteData setup c out) (endCycle setup c out) := by
      obtain ⟨callbacks, pending, other⟩ := sendWriteData_some single' passes
        ((queued.pending false).trans split) others own
      exact ⟨callbacks, pending, other⟩
    have updated : Idles (endCycle setup c out) (MemorySystem.deviceUpdate setup (endCycle setup c out)) :=
      deviceUpdate_none alone
    refine ⟨?_, (updated.pending false).trans written.pending,
      (updated.pending true).trans (written.other.trans (queued.pending true))⟩
    rw [updated.callbacks, written.callbacks, queued.callbacks]
  | true =>
    have written : Idles (queueWriteData setup c out) (endCycle setup c out) := by
      obtain ⟨callbacks, pending⟩ : Idles _ (sendWriteData setup _) := sendWriteData_none alone
      exact ⟨callbacks, pending⟩
    have ended : Single setup (endCycle setup c out) := (Subsides.sendWriteData single').single single'
    have updated := deviceUpdate_some ended passes
      ((written.pending true).trans ((queued.pending true).trans split)) others own
    refine ⟨?_, updated.pending,
      updated.other.trans ((written.pending false).trans (queued.pending false))⟩
    rw [updated.callbacks, written.callbacks, queued.callbacks]

end MemoryController

/-! ## What a run keeps -/

/-- Round robin has commands only from its generator. -/
theorem RoundRobin.policy_generates (table : Nat → Bool) : (RoundRobin.policy table).Generates := by
  intro kind gen s s' priv priv' makes h
  obtain ⟨requests, fed⟩ := policy_feeds table gen s s' priv priv' h
  unfold Fills
  generalize s.commandGenerator = g, s'.commandGenerator = g' at fed
  induction fed with
  | refl => exact fun _ => .inl
  | more _ made ih => exact fun c hc => (makes _ _ _ _ _ made c hc).elim (ih c) .inr

namespace OnDevice

variable {κ : Type} {T : Dram.Standard} {setup : Setup} {parts : Components RoundRobinState κ}
  {table : Nat → Bool} {s s' : OnDevice RoundRobinState κ T} {now : Nat}
  {slots done left : List Slot} {sent rest : List Dram.Timed} {traffic : List Traffic}

/-- The requests of a direction. -/
def inDirection (isRead : Bool) (l : List Request) : List Request := l.filter (·.isRead == isRead)

@[simp] theorem inDirection_append (isRead : Bool) (l l' : List Request) :
    inDirection isRead (l ++ l') = inDirection isRead l ++ inDirection isRead l' := List.filter_append ..

/-- **Slots are served in their order**: the first ones are done and their requests completed, the others
have their requests pending, ahead of those that still wait for a slot. -/
structure Served (setup : Setup) (now : Nat) (s : OnDevice RoundRobinState κ T) (done left : List Slot)
    (sent : List Dram.Timed) (traffic : List Traffic) : Prop where
  piped : Piped setup.device.constraints false traffic s.controller
  log : sent = commandsIn traffic
  past : ∀ x ∈ done, x.finish setup.device.constraints < now
  coming : ∀ x ∈ left, now ≤ x.finish setup.device.constraints
  callbacks : s.controller.callbacks.map (·.request) = done.map (·.request)
  pending : ∀ d id, ofRequestor id (s.controller.pending d) =
    inDirection d (ofRequestor id (left.map (·.request)) ++ s.buffer id)

/-- At most one slot is under way. -/
theorem Served.one (inSlot : InSlot setup.device.constraints)
    (h : OnTime setup now s (done ++ left) sent rest) (served : Served setup now s done left sent traffic) :
    left = [] ∨ ∃ z, left = [z] := by
  cases left with
  | nil => exact .inl rfl
  | cons z left =>
    cases left with
    | nil => exact .inr ⟨z, rfl⟩
    | cons y left =>
      have spread := (List.pairwise_append.mp h.spread).2.1
      have apart := (List.pairwise_cons.mp spread).1 y List.mem_cons_self
      have started := (h.pause y (List.mem_append_right _ (List.mem_cons_of_mem z List.mem_cons_self))).1
      have late := served.coming z List.mem_cons_self
      have ends := (inSlot.finish_lt z).2
      omega

/-- **A cycle serves.** -/
theorem Served.update (made : parts.Amc table) (inSlot : InSlot setup.device.constraints)
    (h : OnTime setup now s (done ++ left) sent rest) (served : Served setup now s done left sent traffic)
    {handed : List Request} {out : Option BusPacket}
    (cycled : Cycled table setup parts now s s' handed out)
    {rest' : List Dram.Timed} (next : OnTime setup (now + 1) s' ((done ++ left) ++ granted now handed)
      (sent ++ out.toList.map (·, now)) rest') :
    ∃ done' left' traffic', done' ++ left' = (done ++ left) ++ granted now handed ∧
      Served setup (now + 1) s' done' left' (sent ++ out.toList.map (·, now)) traffic' := by
  obtain ⟨check, c₁, c₂, prepared, scheduled, one, callbacks, pending, single, ended⟩ := cycled.course
  have length : traffic.length = now := served.piped.clock.symm.trans h.clock
  obtain ⟨piped, passes⟩ := served.piped.update inSlot.opens inSlot.accepts
    (made.generator ▸ closeGenerator_makes) (made.requests ▸ RoundRobin.policy_generates table) prepared
    scheduled one
  rw [length] at passes
  rw [← ended] at piped
  have log : sent ++ out.toList.map (·, now) = commandsIn (traffic ++ [trafficOf setup c₂ out]) := by
    rw [commandsIn_append, length, ← served.log]
    rfl
  have sent_ := log.symm.trans next.sent_eq
  have finishes := passes.finish_iff sent_
  -- what finishes in this cycle was left, and it is not a slot of this cycle
  have among : ∀ z ∈ (done ++ left) ++ granted now handed, z.finish setup.device.constraints = now →
      z ∈ left := by
    intro z hz ends
    rcases List.mem_append.mp hz with old | new
    · rcases List.mem_append.mp old with past | here
      · exact absurd ends (served.past z past).ne
      · exact here
    · obtain ⟨r, _, rfl⟩ := List.mem_map.mp new
      have later := (inSlot.finish_lt ⟨r, now⟩).1
      dsimp only at later
      omega
  have fresh : ∀ x ∈ granted now handed, now + 1 ≤ x.finish setup.device.constraints := by
    intro x hx
    obtain ⟨r, _, rfl⟩ := List.mem_map.mp hx
    exact (inSlot.finish_lt ⟨r, now⟩).1
  have buffers : ∀ id, ofRequestor id ((granted now handed).map (·.request)) ++ s'.buffer id =
      s.buffer id := by
    intro id
    rw [map_granted]
    exact (cycled.buffers id).symm
  have idle : (∀ z ∈ left, z.finish setup.device.constraints ≠ now) →
      ∃ done' left' traffic', done' ++ left' = (done ++ left) ++ granted now handed ∧
        Served setup (now + 1) s' done' left' (sent ++ out.toList.map (·, now)) traffic' := by
    intro none_
    have nothing : ∀ d, (trafficOf setup c₂ out).data d = none := by
      intro d
      by_contra some_
      obtain ⟨p, passed⟩ := Option.ne_none_iff_exists'.mp some_
      obtain ⟨z, hz, ends, _⟩ := (finishes d).1 p passed
      exact none_ z (among z hz ends) ends
    obtain ⟨callbacks', pending'⟩ := cycle_idles nothing
    rw [← ended] at callbacks' pending'
    refine ⟨done, left ++ granted now handed, _, (List.append_assoc ..).symm, piped, log,
      fun x hx => Nat.lt_succ_of_lt (served.past x hx), fun x hx => ?_, ?_, fun d id => ?_⟩
    · rcases List.mem_append.mp hx with old | new
      · exact Nat.lt_of_le_of_ne (served.coming x old) (none_ x old).symm
      · exact fresh x new
    · rw [callbacks', callbacks, served.callbacks]
    · rw [pending', pending, served.pending, List.map_append, ofRequestor_append, List.append_assoc, buffers]
  rcases served.one inSlot h with rfl | ⟨z, rfl⟩
  · exact idle fun z hz => absurd hz List.not_mem_nil
  · by_cases ends : z.finish setup.device.constraints = now
    · -- the slot finishes
      obtain ⟨p, passed, own⟩ := (finishes z.request.isRead).2 z (by simp) ends rfl
      have alone : (trafficOf setup c₂ out).data (!z.request.isRead) = none := by
        by_contra some_
        obtain ⟨q, other⟩ := Option.ne_none_iff_exists'.mp some_
        obtain ⟨y, hy, ends', direction⟩ := (finishes _).1 q other
        rw [List.mem_singleton.mp (among y hy ends')] at direction
        cases direction' : z.request.isRead <;> simp [direction'] at direction
      have front := served.pending z.request.isRead z.request.requestorID
      have first : inDirection z.request.isRead (ofRequestor z.request.requestorID [z.request]) =
          [z.request] := by simp [inDirection, ofRequestor]
      rw [List.map_singleton, inDirection_append, first, List.singleton_append] at front
      obtain ⟨l₁, l₂, split, others, _, behind⟩ := List.filter_eq_cons_iff.mp front
      have finished := cycle_finishes single passed alone ((pending z.request.isRead).trans split)
        (fun x hx => by simpa using others x hx) own
      rw [← ended] at finished
      refine ⟨done ++ [z], granted now handed, _, rfl, piped, log, fun x hx => ?_, fresh, ?_, fun d id => ?_⟩
      · rcases List.mem_append.mp hx with old | new
        · exact Nat.lt_succ_of_lt (served.past x old)
        · rw [List.mem_singleton.mp new, ends]
          exact Nat.lt_succ_self now
      · rw [finished.callbacks, callbacks, served.callbacks, List.map_append, List.map_singleton]
      · rw [buffers]
        have before := served.pending d id
        rw [List.map_singleton, inDirection_append] at before
        by_cases direction : d = z.request.isRead
        · subst direction
          rw [finished.pending]
          rw [split] at before
          by_cases same : id = z.request.requestorID
          · subst same
            have none₁ : ofRequestor z.request.requestorID l₁ = [] :=
              List.filter_eq_nil_iff.mpr others
            rw [ofRequestor_append, none₁, List.nil_append]
            exact behind
          · have other : ofRequestor id [z.request] = [] := by simp [ofRequestor, Ne.symm same]
            rw [other] at before
            rw [ofRequestor_append]
            rw [ofRequestor, List.filter_append, List.filter_cons_of_neg (by simpa using Ne.symm same)]
              at before
            exact before
        · have opposite : d = !z.request.isRead := by
            cases d <;> cases dir : z.request.isRead <;> simp [dir] at direction ⊢
          have none₂ : inDirection d (ofRequestor id [z.request]) = [] := by
            refine List.filter_eq_nil_iff.mpr fun x hx => ?_
            rw [List.mem_singleton.mp (List.mem_of_mem_filter hx), opposite]
            simp
          rw [none₂, List.nil_append] at before
          rw [opposite, finished.other, pending, ← opposite]
          exact before
    · exact idle fun y hy => by
        rw [List.mem_singleton.mp hy]
        exact ends

/-- A request that arrives joins those of its requestor and the pending ones of its direction. -/
theorem addRequest_joins (amc : setup.Amc) {c c' : MemoryController RoundRobinState κ}
    (one : c.requestScheduler.queueCount = 1) {requestorID address size : Nat} {R_W : Bool}
    (added : c.addRequest setup requestorID address R_W size = some c') :
    ∃ r : Request, r.requestorID = requestorID ∧
      c'.requestScheduler =
        c.requestScheduler.setQueue 0 ((c.requestScheduler.requestQueue 0).insertRequest r) ∧
      c'.requestPrivate = c.requestPrivate ∧ (∀ d, c'.pending d = c.pending d ++ inDirection d [r]) ∧
      c'.callbacks = c.callbacks := by
  obtain ⟨r, arrived⟩ : ∃ r, incoming setup c requestorID address R_W size = r := ⟨_, rfl⟩
  obtain ⟨_, type, owner, _, _⟩ := incoming_same setup c requestorID address R_W size
  rw [arrived] at type owner
  have direction : r.isRead = R_W := by
    rw [Request.isRead, type]
    cases R_W <;> rfl
  have index : decodeQueue setup r.addressMap setup.reqMap = 0 := by
    rw [amc.reqMap, decodeQueue_unmarked]
  unfold MemoryController.addRequest at added
  dsimp only at added
  rw [arrived, index, one, if_pos Nat.zero_lt_one] at added
  obtain rfl := Option.some.inj added
  refine ⟨r, owner, rfl, rfl, fun d => ?_, rfl⟩
  cases R_W <;> cases d <;> simp [MemoryController.pending, inDirection, direction]

/-- A request that arrives is pending and waits for a slot. -/
theorem Served.arrive (amc : setup.Amc) (h : OnTime setup now s slots sent rest)
    (served : Served setup now s done left sent traffic) {requestorID address size : Nat} {R_W : Bool}
    {c' : MemoryController RoundRobinState κ}
    (added : s.controller.addRequest setup requestorID address R_W size = some c') :
    Served setup now { s with controller := c' } done left sent traffic := by
  obtain ⟨carried, commands, clock, buffer_, counters⟩ := carried_addRequest served.piped.carried added
  obtain ⟨r, _, scheduler, _, pending, callbacks⟩ := addRequest_joins amc h.turns.one added
  refine ⟨⟨carried, clock.trans served.piped.clock, ?_, ?_, ?_, ?_, ?_⟩, served.log, served.past,
    served.coming, callbacks ▸ served.callbacks, fun d id => ?_⟩
  · rw [buffer_, counters]
    exact served.piped.writes
  · rw [commands]
    exact served.piped.posts
  · rw [commands]
    exact served.piped.plain
  · rw [commands]
    exact served.piped.unposted
  · rw [commands]
    exact served.piped.reads
  have waits : OnDevice.buffer { s with controller := c' } id = s.buffer id ++ ofRequestor id [r] := by
    show (c'.requestScheduler.requestQueue 0).buffer id = _
    rw [scheduler]
    show ((s.controller.requestScheduler.requestQueue 0).insertRequest r).buffer id = _
    rw [RequestQueue.buffer_insertRequest h.turns.queue r id]
    by_cases own : id = r.requestorID
    · simp [own, ofRequestor, buffer]
    · simp [own, ofRequestor, buffer, Ne.symm own]
  have swap : ofRequestor id (inDirection d [r]) = inDirection d (ofRequestor id [r]) := by
    simp only [ofRequestor, inDirection, List.filter_filter, Bool.and_comm]
  rw [pending, waits, ofRequestor_append, served.pending, swap, ← List.append_assoc,
    inDirection_append d _ (ofRequestor id [r])]

theorem served_create (setup : Setup) (parts : Components RoundRobinState κ)
    (refreshCounting bank_release : Nat) :
    Served setup 0 (create T setup parts refreshCounting bank_release) [] [] [] [] :=
  ⟨piped_create setup parts setup.device.constraints false refreshCounting bank_release, rfl,
    fun _ hx => absurd hx List.not_mem_nil, fun _ hx => absurd hx List.not_mem_nil, rfl,
    fun d _ => by cases d <;> rfl⟩

/-! ## The wait for a slot -/

/-- What round robin has to do next depends on the queue only. -/
theorem rank_same {N r k : Nat} {rs rs' : RequestScheduler} {p : RoundRobinState}
    (same : rs'.requestQueue = rs.requestQueue) : rank N r k (rs', p) ≤ rank N r k (rs, p) := by
  have kept : ∀ x, Before r x (rs, p) → Before r x (rs', p) := by
    rintro x ⟨a, b, first, second, ahead⟩
    exact ⟨a, b, by rw [order, same]; exact first, by rw [order, same]; exact second, ahead⟩
  have fewer := Nat.mul_le_mul_left timeSlot (Nat.add_le_add_right (before_le (N := N) kept) (N * k))
  exact Nat.add_le_add_left fewer p.slotCounter

/-- The memory system on time, its requests served, and its requestors below a bound. -/
structure Serving (N : Nat) (setup : Setup) (now : Nat) (s : OnDevice RoundRobinState κ T)
    (slots : List Slot) : Prop where
  runs : ∃ done left sent rest traffic, done ++ left = slots ∧ OnTime setup now s slots sent rest ∧
    Served setup now s done left sent traffic
  bounded : Bounded N s.controller.requestScheduler s.controller.requestPrivate

/-- A request of `r` has a slot until `last`, or it waits for one that it gets until then. -/
def Promised (N r : Nat) (x : Request) (last now : Nat) (s : OnDevice RoundRobinState κ T)
    (slots : List Slot) : Prop :=
  (∃ z ∈ slots, z.request = x ∧ z.start ≤ last) ∨
    ∃ ahead later, s.buffer r = ahead ++ x :: later ∧
      now + rank N r ahead.length (s.controller.requestScheduler, s.controller.requestPrivate) ≤ last

/-- Requests come from requestors below a bound. -/
def Event.Below (N : Nat) : OnDevice.Event → Prop
  | .addRequest requestorID _ _ _ => requestorID < N
  | .update => True

/-- **A cycle keeps its promises.** -/
theorem Serving.update (amc : setup.Amc) (made : parts.Amc table) (timely : Timely T setup)
    (inSlot : InSlot setup.device.constraints) {N : Nat} (small : now < 2 ^ 32)
    (serving : Serving N setup now s slots) :
    ∃ s' slots', step setup parts s .update = some (s', ()) ∧ Serving N setup (now + 1) s' slots' ∧
      ∀ r x last, Promised N r x last now s slots → Promised N r x last (now + 1) s' slots' := by
  obtain ⟨⟨done, left, sent, rest, traffic, rfl, h, served⟩, bounded⟩ := serving
  obtain ⟨s', handed, out, rest', stepped, cycled, next⟩ := h.update amc made timely small
  obtain ⟨done', left', traffic', same, served'⟩ := served.update made inSlot h cycled next
  obtain ⟨rs, called, queues⟩ := cycled.calls
  have bounded' := bounded.step closeGenerator_accepts (fun x hx => absurd hx List.not_mem_nil) called
  have order' : order s'.controller.requestScheduler = order rs := by rw [order, queues, order]
  refine ⟨s', _, stepped, ⟨⟨done', left', _, rest', traffic', same, next, served'⟩, next.turns, ?_,
    bounded'.slot⟩, fun r x last promised => ?_⟩
  · rw [order']
    exact bounded'.known
  · rcases promised with ⟨z, hz, own, early⟩ | ⟨ahead, later, waits, soon⟩
    · exact .inl ⟨z, List.mem_append_left _ hz, own, early⟩
    · rcases rank_call closeGenerator_accepts bounded waits called with granted_ | ⟨ahead', waits', fewer⟩
      · refine .inl ⟨⟨x, now⟩, List.mem_append_right _ (List.mem_map_of_mem granted_), rfl, ?_⟩
        exact (Nat.le_add_right _ _).trans soon
      · refine .inr ⟨ahead', later, ?_, ?_⟩
        · rw [buffer, queues]
          exact waits'
        · have nearer := rank_same (N := N) (r := r) (k := ahead'.length)
            (p := s'.controller.requestPrivate) queues
          omega

/-- An arrival keeps them too. -/
theorem Serving.arrive (amc : setup.Amc) (parts : Components RoundRobinState κ) {N : Nat}
    (serving : Serving N setup now s slots) {requestorID address size : Nat} {R_W : Bool}
    (single : Event.Single setup (.addRequest requestorID address R_W size)) (below : requestorID < N) :
    ∃ s', step setup parts s (.addRequest requestorID address R_W size) = some (s', ()) ∧
      Serving N setup now s' slots ∧
      ∀ r x last, Promised N r x last now s slots → Promised N r x last now s' slots := by
  obtain ⟨⟨done, left, sent, rest, traffic, rfl, h, served⟩, bounded⟩ := serving
  obtain ⟨s', stepped, _, next⟩ : ∃ s', step setup parts s (.addRequest requestorID address R_W size) =
    some (s', ()) ∧ _ := h.arrive amc single
  obtain ⟨c', added, same⟩ := Option.map_eq_some_iff.mp stepped
  obtain ⟨rfl, _⟩ := Prod.mk.inj same
  obtain ⟨y, own, scheduler, turn, _, _⟩ := addRequest_joins amc h.turns.one added
  have inserted : (requestSchedule (fun _ => true) closeGenerator).step
      (s.controller.requestScheduler, s.controller.requestPrivate) (.insertRequest 0 y) =
        some ((c'.requestScheduler, c'.requestPrivate), []) := by
    rw [scheduler, turn]
    exact if_pos (h.turns.one ▸ Nat.zero_lt_one)
  have bounded' := bounded.step closeGenerator_accepts (fun x hx => by
    rw [List.mem_singleton.mp hx, own]
    exact below) inserted
  refine ⟨_, stepped, ⟨⟨done, left, sent, rest, traffic, rfl, next, served.arrive amc h added⟩, bounded'⟩,
    fun r x last promised => ?_⟩
  rcases promised with granted_ | ⟨ahead, later, waits, soon⟩
  · exact .inl granted_
  · obtain ⟨later', waits', fewer⟩ := rank_arrive (N := N) closeGenerator_accepts h.turns waits inserted
    exact .inr ⟨ahead, later', waits', (Nat.add_le_add_left fewer now).trans soon⟩

/-- **In every run the requests are served and the promises kept.** -/
theorem Serving.run (amc : setup.Amc) (made : parts.Amc table) (timely : Timely T setup)
    (inSlot : InSlot setup.device.constraints) {N : Nat} (serving : Serving N setup now s slots)
    (events : List OnDevice.Event) (single : ∀ e ∈ events, e.Single setup)
    (below : ∀ e ∈ events, e.Below N) (small : now + updatesOf events ≤ 2 ^ 32) :
    ∃ s' os slots', Lib.Machine.run (step setup parts) s events = some (s', os) ∧
      Serving N setup (now + updatesOf events) s' slots' ∧
      ∀ r x last, Promised N r x last now s slots →
        Promised N r x last (now + updatesOf events) s' slots' := by
  induction events generalizing now s slots with
  | nil => exact ⟨s, [], slots, rfl, serving, fun _ _ _ => id⟩
  | cons e events ih =>
    have single' := fun e he => single e (List.mem_cons_of_mem _ he)
    have below' := fun e he => below e (List.mem_cons_of_mem _ he)
    cases e with
    | addRequest requestorID address R_W size =>
      obtain ⟨s₁, stepped, serving₁, keeps⟩ := serving.arrive amc parts (single _ List.mem_cons_self)
        (below _ List.mem_cons_self)
      have count : updatesOf (OnDevice.Event.addRequest requestorID address R_W size :: events) =
          updatesOf events := List.countP_cons_of_neg (by simp [Event.isUpdate])
      rw [count] at small ⊢
      obtain ⟨s', os, slots', ran, serving', keeps'⟩ := ih serving₁ single' below' small
      exact ⟨s', () :: os, slots', run_cons_eq_some.mpr ⟨s₁, (), os, stepped, ran, rfl⟩, serving',
        fun r x last promised => keeps' r x last (keeps r x last promised)⟩
    | update =>
      have count : updatesOf (OnDevice.Event.update :: events) = updatesOf events + 1 :=
        List.countP_cons_of_pos rfl
      rw [count] at small ⊢
      obtain ⟨s₁, slots₁, stepped, serving₁, keeps⟩ := serving.update amc made timely inSlot (by omega)
      obtain ⟨s', os, slots', ran, serving', keeps'⟩ := ih serving₁ single' below' (by omega)
      have total : now + 1 + updatesOf events = now + (updatesOf events + 1) := by omega
      rw [total] at serving' keeps'
      exact ⟨s', () :: os, slots', run_cons_eq_some.mpr ⟨s₁, (), os, stepped, ran, rfl⟩, serving',
        fun r x last promised => keeps' r x last (keeps r x last promised)⟩

/-- A promise that is due was kept: the request completed. -/
theorem Serving.completed (inSlot : InSlot setup.device.constraints) {N r last : Nat} {x : Request}
    (serving : Serving N setup now s slots) (promised : Promised N r x last now s slots)
    (due : last + timeSlot ≤ now) : x ∈ s.controller.callbacks.map (·.request) := by
  obtain ⟨⟨done, left, sent, rest, traffic, rfl, h, served⟩, _⟩ := serving
  rcases promised with ⟨z, hz, rfl, early⟩ | ⟨ahead, later, _, soon⟩
  · have ends := (inSlot.finish_lt z).2
    rcases List.mem_append.mp hz with past | here
    · rw [served.callbacks]
      exact List.mem_map_of_mem past
    · have late := served.coming z here
      omega
  · unfold timeSlot at due
    omega

theorem serving_create (amc : setup.Amc) (made : parts.Amc table)
    (noRefresh : setup.refresh_mechanism = .none) (N refreshCounting bank_release : Nat) :
    Serving N setup 0 (create T setup parts refreshCounting bank_release) [] := by
  have h : OnTime setup 0 (create T setup parts refreshCounting bank_release) [] [] [] :=
    onTime_create amc made noRefresh refreshCounting bank_release
  refine ⟨⟨[], [], [], [], [], rfl, h, served_create setup parts refreshCounting bank_release⟩, h.turns,
    fun id hid => absurd hid List.not_mem_nil, ?_⟩
  show parts.requestInit.slotCounter < timeSlot
  rw [made.init]
  decide

/-- A round for each request ahead, and one more. -/
theorem rank_lt {N r k : Nat} {rs : RequestScheduler} {p : RoundRobinState} (bounded : Bounded N rs p)
    (waiting : RoundRobin.Waiting rs r) : rank N r k (rs, p) < (k + 1) * (N * timeSlot) := by
  have inside := before_lt (bounded.known r (bounded.inv.queue.mem_order waiting)) (rs, p)
  have slot := bounded.slot
  have scaled := Nat.mul_le_mul_left timeSlot (Nat.le_sub_one_of_lt inside)
  unfold rank
  simp only [timeSlot] at *
  rw [Nat.mul_add]
  have product : (k + 1) * (N * 42) = 42 * (N * k) + 42 * N := by ring
  omega

/-! ## DDR3 -/

theorem data_le {speed : Dram.DDR3.Speed} (fits : (Dram.DDR3.speed_table speed).Fits) :
    (Dram.DDR3.speed_table speed).nRCD + (Dram.DDR3.speed_table speed).nCL +
      (Dram.DDR3.speed_table speed).nBL ≤ timeSlot := by
  revert fits
  cases speed <;> decide

/-- Where a slot is as long as a write with its precharge, its data are through within it. -/
theorem inSlot_ddr3 {org : Dram.DDR3.Org} {speed : Dram.DDR3.Speed} {ranks : Nat}
    (fits : (Dram.DDR3.speed_entry org speed).Fits) :
    InSlot (Dram.DDR3.device org speed ranks).constraints := by
  have roomy := Dram.DDR3.roomy fits
  refine inSlot_of roomy.opens (Nat.lt_of_lt_of_eq (Nat.zero_lt_succ 3) roomy.bursts.symm) (data_le fits) ?_
  show (Dram.DDR3.speed_entry org speed).nRCD + (Dram.DDR3.speed_entry org speed).nCWL +
    (Dram.DDR3.speed_entry org speed).nBL < timeSlot
  have write := roomy.write
  have recovery := roomy.recovery
  omega

/-- **Response times of AMC.** On a DDR3 device on which a slot is as long as a write with its precharge, in
the set-up of `AMC.ini` with requestors below `N`: after any run, a request that has its slot already
completes within the length of a slot, and a request that waits with others of its requestor ahead of it
within a round of `N` slots for each of them, one more round, and the length of a slot, whatever arrives
meanwhile and whatever the other requestors read or write. -/
theorem amc_response (amc : setup.Amc) (made : parts.Amc table)
    (noRefresh : setup.refresh_mechanism = .none) {org : Dram.DDR3.Org} {speed : Dram.DDR3.Speed}
    {ranks : Nat} (some_rank : 0 < ranks) (device : setup.device = Dram.DDR3.device org speed ranks)
    (fits : (Dram.DDR3.speed_entry org speed).Fits) (refreshCounting bank_release N : Nat)
    {events : List OnDevice.Event} (single : ∀ e ∈ events, e.Single setup)
    (below : ∀ e ∈ events, e.Below N)
    {s : OnDevice RoundRobinState κ (Dram.DDR3.standard org speed ranks)} {os : List Unit}
    (ran : run (step setup parts) (create _ setup parts refreshCounting bank_release) events = some (s, os))
    (more : List OnDevice.Event) (single' : ∀ e ∈ more, e.Single setup) (below' : ∀ e ∈ more, e.Below N)
    (small : updatesOf events + updatesOf more ≤ 2 ^ 32) :
    ∃ s' os', run (step setup parts) s more = some (s', os') ∧
      (∀ x ∈ s.controller.accepted, x ∉ s.buffer x.requestorID → timeSlot ≤ updatesOf more →
        x ∈ s'.controller.callbacks.map (·.request)) ∧
      ∀ r ahead x later, s.buffer r = ahead ++ x :: later →
        (ahead.length + 1) * (N * timeSlot) + timeSlot ≤ updatesOf more →
          x ∈ s'.controller.callbacks.map (·.request) := by
  have timely := timely_ddr3 some_rank device fits
  have inSlot : InSlot setup.device.constraints := device ▸ inSlot_ddr3 fits
  have start : Serving N setup 0 (create (Dram.DDR3.standard org speed ranks) setup parts refreshCounting
    bank_release) [] := serving_create amc made noRefresh N refreshCounting bank_release
  obtain ⟨s₁, os₁, slots, ran₁, serving, _⟩ := start.run amc made timely inSlot events single below (by omega)
  obtain ⟨rfl, rfl⟩ := Prod.mk.inj (Option.some.inj (ran₁.symm.trans ran))
  rw [Nat.zero_add] at serving
  obtain ⟨s', os', slots', ran', serving', keeps⟩ := serving.run amc made timely inSlot more single' below'
    small
  refine ⟨s', os', ran', fun x accepted granted_ long => ?_, fun r ahead x later waits long => ?_⟩
  · obtain ⟨⟨done, left, sent, rest, traffic, _, h, _⟩, _⟩ := serving
    have own : x ∈ ofRequestor x.requestorID s₁.controller.accepted :=
      List.mem_filter.mpr ⟨accepted, by simp⟩
    rw [h.books] at own
    rcases List.mem_append.mp own with slot | waits
    · obtain ⟨z, hz, same⟩ := List.mem_map.mp (List.mem_of_mem_filter slot)
      have started := (h.pause z hz).1
      exact serving'.completed inSlot (keeps 0 x (updatesOf events) (.inl ⟨z, hz, same, by omega⟩))
        (by omega)
    · exact absurd waits granted_
  · have waiting : RoundRobin.Waiting s₁.controller.requestScheduler r := by
      show s₁.buffer r ≠ []
      rw [waits]
      simp
    have few := rank_lt (k := ahead.length) serving.bounded waiting
    exact serving'.completed inSlot (keeps r x _ (.inr ⟨ahead, later, waits, Nat.le_refl _⟩)) (by omega)

/-- The requests of `readsAndWrite`, the second of requestor 1 behind its first. -/
def arrivals : List OnDevice.Event := readsAndWrite.take 3

/-- The law at these requests: the second one of requestor 1 completes within two rounds of three slots
and the length of a slot. -/
theorem amc_response_arrivals :
    ∃ s os s' os', run (step closePageSetup amcIni) (create (Dram.DDR3.standard .DDR3_2Gb_x8 .DDR3_1600H 1)
        closePageSetup amcIni 0 0) arrivals = some (s, os) ∧
      run (step closePageSetup amcIni) s (List.replicate 294 .update) = some (s', os') ∧
      ∃ x ∈ s'.controller.callbacks.map (·.request), x.address = 64 := by
  obtain ⟨s, os, ran, addresses⟩ := run_exists (step closePageSetup amcIni)
    (fun s => (s.buffer 1).map (·.address) = [0, 64]) (create (Dram.DDR3.standard .DDR3_2Gb_x8 .DDR3_1600H 1)
      closePageSetup amcIni 0 0) arrivals (by decide +kernel)
  obtain ⟨x₀, l, whole, _, rest⟩ := List.map_eq_cons_iff.mp addresses
  obtain ⟨x₁, l', rfl, address, _⟩ := List.map_eq_cons_iff.mp rest
  have device : closePageSetup.device = Dram.DDR3.device .DDR3_2Gb_x8 .DDR3_1600H 1 := rfl
  have fits : (Dram.DDR3.speed_entry .DDR3_2Gb_x8 .DDR3_1600H).Fits := by decide
  have cycles : updatesOf (List.replicate 294 .update) = 294 := List.countP_replicate
  obtain ⟨s', os', ran', _, waiting⟩ := amc_response closePageSetup_amc amcIni_amc rfl Nat.one_pos device fits
    0 0 3 (fun e he => readsAndWrite_single e (List.mem_of_mem_take he)) (by
      intro e he
      simp only [readsAndWrite, List.cons_append, List.take_succ_cons, List.take_zero, List.mem_cons,
        List.not_mem_nil, or_false] at he
      rcases he with rfl | rfl | rfl <;> simp [Event.Below]) ran (List.replicate 294 .update)
    (fun e he => by rw [List.eq_of_mem_replicate he]; trivial)
    (fun e he => by rw [List.eq_of_mem_replicate he]; trivial) (by rw [cycles]; decide)
  have long : ([x₀].length + 1) * (3 * timeSlot) + timeSlot ≤ updatesOf (List.replicate 294 .update) := by
    rw [cycles, List.length_singleton]
    decide
  exact ⟨s, os, s', os', ran, ran', x₁, waiting 1 [x₀] x₁ l' whole long, address⟩

end OnDevice

end MCsim
