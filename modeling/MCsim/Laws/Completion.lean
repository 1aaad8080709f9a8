import MCsim.Laws.Books
import MCsim.Laws.RowState

/-!
# No completion is lost, duplicated or misattributed

A data packet finds the request it completes by requestor and address only. With the books kept, the
request it finds is its own. `Reports` relates the logs to the pending lists: every accepted request
is reported or pending, none is both, and what is reported was completed by the last beat of its own.
`Accounted` puts books and reports together; every event at a memory system keeps it.
-/

namespace MCsim

open CommandScheduler RequestScheduler

/-! ## The logs -/

/-- Accepted requests, callbacks and pending lists. -/
structure Reports (pending : Bool → List Request) (accepted : List Request)
    (callbacks : List Completion) (nextHandle : Nat) : Prop where
  numbered : accepted.map (·.handle) = List.range nextHandle
  outstanding : ∀ d, ∀ r ∈ pending d, r.handle < nextHandle
  reported : ∀ cb ∈ callbacks, cb.request.handle < nextHandle
  once : (callbacks.map (·.request.handle)).Nodup
  gone : ∀ cb ∈ callbacks, ∀ d, ∀ r ∈ pending d, r.handle ≠ cb.request.handle
  own : ∀ cb ∈ callbacks, cb.packet.origin = cb.request.handle ∧ cb.packet.lastBeat = true
  counts : ∀ k : Key, accepted.countP (·.key == k) =
    callbacks.countP (·.request.key == k) + ((pending k.isRead).filter (·.key == k)).length

namespace Reports

variable {pending : Bool → List Request} {accepted : List Request} {callbacks : List Completion}
  {nextHandle : Nat}

theorem empty : Reports (fun _ => []) [] [] 0 where
  numbered := rfl
  outstanding := fun _ _ h => absurd h List.not_mem_nil
  reported := fun _ h => absurd h List.not_mem_nil
  once := List.nodup_nil
  gone := fun _ h => absurd h List.not_mem_nil
  own := fun _ h => absurd h List.not_mem_nil
  counts := fun _ => rfl

/-- A request arrives with the next handle. -/
theorem arrive (h : Reports pending accepted callbacks nextHandle) {r : Request}
    (handle : r.handle = nextHandle) :
    Reports (fun d => if d = r.key.isRead then pending d ++ [r] else pending d) (accepted ++ [r])
      callbacks (nextHandle + 1) := by
  have cases_mem : ∀ d, ∀ x ∈ (if d = r.key.isRead then pending d ++ [r] else pending d),
      x ∈ pending d ∨ x = r := by
    intro d x hx
    split at hx
    · exact (List.mem_append.mp hx).imp id List.mem_singleton.mp
    · exact .inl hx
  refine ⟨?_, ?_, ?_, h.once, ?_, h.own, ?_⟩
  · rw [List.map_append, h.numbered, List.range_succ]
    simp [handle]
  · intro d x hx
    rcases cases_mem d x hx with hx | rfl
    · exact Nat.lt_succ_of_lt (h.outstanding d x hx)
    · omega
  · exact fun cb hcb => Nat.lt_succ_of_lt (h.reported cb hcb)
  · intro cb hcb d x hx
    rcases cases_mem d x hx with hx | rfl
    · exact h.gone cb hcb d x hx
    · have := h.reported cb hcb
      omega
  · intro k
    have counts := h.counts k
    rw [List.countP_append, counts]
    by_cases e : r.key = k
    · subst e
      simp [Nat.add_assoc]
    · have other : (r.key == k) = false := by simpa using e
      split <;> simp [other]

/-- The pending request at a position is reported. -/
theorem complete (h : Reports pending accepted callbacks nextHandle) {isRead : Bool} {index : Nat}
    {r : Request} {p : BusPacket} (at_ : (pending isRead)[index]? = some r)
    (direction : r.key.isRead = isRead) (origin : r.handle = p.origin) (last : p.lastBeat = true)
    (first : (pending isRead).filter (·.key == r.key) =
      r :: ((pending isRead).eraseIdx index).filter (·.key == r.key))
    (alone : ∀ d, ∀ x ∈ (if d = isRead then (pending isRead).eraseIdx index else pending d),
      x.handle ≠ r.handle) :
    Reports (fun d => if d = isRead then (pending isRead).eraseIdx index else pending d) accepted
      (callbacks ++ [{ request := r, packet := p }]) nextHandle := by
  have hr := List.mem_of_getElem? at_
  have mem : ∀ d, ∀ x ∈ (if d = isRead then (pending isRead).eraseIdx index else pending d),
      x ∈ pending d := by
    intro d x hx
    split at hx
    · next e => exact e ▸ Lib.mem_of_eraseIdx hx
    · exact hx
  refine ⟨h.numbered, fun d x hx => h.outstanding d x (mem d x hx), ?_, ?_, ?_, ?_, ?_⟩
  · intro cb hcb
    rcases List.mem_append.mp hcb with hcb | hcb
    · exact h.reported cb hcb
    · rw [List.mem_singleton.mp hcb]
      exact h.outstanding isRead r hr
  · rw [List.map_append, List.nodup_append]
    refine ⟨h.once, by simp, fun a ha b hb => ?_⟩
    obtain ⟨cb, hcb, rfl⟩ := List.mem_map.mp ha
    obtain rfl : b = r.handle := by simpa using hb
    exact (h.gone cb hcb isRead r hr).symm
  · intro cb hcb d x hx
    rcases List.mem_append.mp hcb with hcb | hcb
    · exact h.gone cb hcb d x (mem d x hx)
    · rw [List.mem_singleton.mp hcb]
      exact alone d x hx
  · intro cb hcb
    rcases List.mem_append.mp hcb with hcb | hcb
    · exact h.own cb hcb
    · rw [List.mem_singleton.mp hcb]
      exact ⟨origin.symm, last⟩
  · intro k
    rw [h.counts k, List.countP_append]
    by_cases e : r.key = k
    · subst e
      rw [direction, if_pos rfl, first]
      simp
      omega
    · have other : (r.key == k) = false := by simpa using e
      have same : (if k.isRead = isRead then (pending isRead).eraseIdx index
          else pending k.isRead).filter (·.key == k) =
          (pending k.isRead).filter (·.key == k) := by
        split
        · next d => rw [Lib.filter_eraseIdx_of_neg at_ other, d]
        · rfl
      rw [same]
      simp [other]

/-- A pending request gets smaller. -/
theorem countDown (h : Reports pending accepted callbacks nextHandle) (handle n : Nat) :
    Reports (fun d => Request.assignSize handle n (pending d)) accepted callbacks nextHandle := by
  have mem : ∀ d, ∀ x ∈ Request.assignSize handle n (pending d),
      ∃ y ∈ pending d, y.handle = x.handle := by
    intro d x hx
    rcases Request.mem_assignSize hx with ⟨hx, _⟩ | ⟨y, hy, _, rfl⟩
    · exact ⟨x, hx, rfl⟩
    · exact ⟨y, hy, rfl⟩
  refine ⟨h.numbered, fun d x hx => ?_, h.reported, h.once, fun cb hcb d x hx => ?_, h.own, ?_⟩
  · obtain ⟨y, hy, e⟩ := mem d x hx
    exact e ▸ h.outstanding d y hy
  · obtain ⟨y, hy, e⟩ := mem d x hx
    exact e ▸ h.gone cb hcb d y hy
  · intro k
    rw [Books.filter_assignSize, Request.assignSize, List.length_map]
    exact h.counts k

end Reports

/-! ## A delivery -/

namespace MemoryController

variable {ρ κ : Type} {setup : Setup} {parts : Components ρ κ}

/-- The pending lists, by direction. -/
def pendings (c : MemoryController ρ κ) : Bool → List Request := fun d => c.pending d

/-- **A delivery keeps books and reports**: the packet at the head of the data in flight of its
direction completes its own request with its last beat, and counts it down with any other. -/
theorem deliver_accounted (c : MemoryController ρ κ) {flight : Bool → List BusPacket}
    {queue : Nat → List BusPacket} (isRead : Bool) {p : BusPacket} {rest : List BusPacket}
    (books : Books setup c.pendings c.requestScheduler.buffered flight queue)
    (reports : Reports c.pendings c.accepted c.callbacks c.nextHandle)
    (front : flight isRead = p :: rest) :
    Books setup (deliver setup isRead c p).pendings
        (deliver setup isRead c p).requestScheduler.buffered
        (Books.popFlight flight isRead rest) queue ∧
      Reports (deliver setup isRead c p).pendings (deliver setup isRead c p).accepted
        (deliver setup isRead c p).callbacks (deliver setup isRead c p).nextHandle := by
  obtain ⟨index, r, found, at_, key, origin, absent, first, last, more⟩ := books.matched front
  have hr : r ∈ c.pendings isRead := List.mem_of_getElem? at_
  have direction : r.key.isRead = isRead := books.typed isRead r hr
  have found' : (c.pending isRead).findIdx? (matchesRequest p) = some index := found
  have at_' : (c.pending isRead)[index]? = some r := at_
  by_cases size : r.requestSize = setup.dataBusWidth
  · obtain ⟨lastBeat, lane⟩ := last size
    have result : deliver setup isRead c p = c.completed isRead p index r := by
      simp only [deliver, found', at_', size, if_true]
      rfl
    have pendings : (c.completed isRead p index r).pendings = fun d =>
        if d = isRead then (c.pendings isRead).eraseIdx index else c.pendings d := by
      funext d
      cases isRead <;> cases d <;> rfl
    have kept := books.complete front at_ key lane
    have alone : ∀ d, ∀ x ∈ (if d = isRead then (c.pendings isRead).eraseIdx index
        else c.pendings d), x.handle ≠ r.handle := by
      intro d x hx same
      split at hx
      · next e =>
        have e' := books.eq_of_handle (Lib.mem_of_eraseIdx hx) hr same
        have nodup := books.nodup_lane isRead r.key
        rw [first] at nodup
        exact (List.nodup_cons.mp nodup).1 (List.mem_filter.mpr ⟨e' ▸ hx, by simp⟩)
      · next e =>
        have e' := books.eq_of_handle hx hr same
        exact e (by rw [← books.typed d x hx, e', direction])
    have reported := reports.complete at_ direction origin lastBeat first alone
    rw [result, pendings]
    constructor
    · cases isRead <;> exact kept
    · cases isRead <;> exact reported
  · have width := (books.sized isRead r hr).wrap
    have result : deliver setup isRead c p =
        c.assignSize r.handle (r.requestSize - setup.dataBusWidth) := by
      simp only [deliver, found', at_', size, if_false]
      rw [width]
    have pendings : (c.assignSize r.handle (r.requestSize - setup.dataBusWidth)).pendings =
        fun d => Request.assignSize r.handle (r.requestSize - setup.dataBusWidth) (c.pendings d) := by
      funext d
      cases d <;> rfl
    rw [result, pendings]
    exact ⟨books.countDown front at_ key absent first size (more size),
      reports.countDown r.handle (r.requestSize - setup.dataBusWidth)⟩

/-! ## The invariant -/

/-- The data under way: reads come back through the device, writes leave from the controller. -/
def flight (c : MemoryController ρ κ) : Bool → List BusPacket := fun d =>
  if d then c.commandScheduler.memoryDevice.pendingReadData else c.sendDataBuffer

/-- What every event at a memory system without refresh keeps. -/
structure Accounted (setup : Setup) (c : MemoryController ρ κ) : Prop where
  wired : c.Wired
  quiet : c.commandScheduler.Quiet
  posted : c.commandScheduler.memoryDevice.postBuffer = []
  width : c.requestScheduler.commandGenerator.dataBusSize = setup.dataBusWidth
  books : Books setup c.pendings c.requestScheduler.buffered c.flight c.commandScheduler.waiting
  reports : Reports c.pendings c.accepted c.callbacks c.nextHandle

theorem accounted_create (open_ : setup.OpenPage) (noRefresh : setup.refresh_mechanism = .none)
    (parts : Components ρ κ) (refreshCounting bank_release : Nat) :
    Accounted setup (create setup parts refreshCounting bank_release) := by
  have inv := rowInv_create open_ noRefresh parts refreshCounting bank_release
  refine ⟨inv.wired, inv.quiet, rfl, rfl, ?_, ?_⟩
  · have none_ : (create setup parts refreshCounting bank_release).flight = fun _ => [] := by
      funext d
      cases d <;> rfl
    have noRequest : (create setup parts refreshCounting bank_release).pendings = fun _ => [] := by
      funext d
      cases d <;> rfl
    rw [none_, noRequest]
    exact Books.empty setup
  · have noRequest : (create setup parts refreshCounting bank_release).pendings = fun _ => [] := by
      funext d
      cases d <;> rfl
    rw [noRequest]
    exact Reports.empty

/-- **An arrival keeps the accounts.** -/
theorem Accounted.arrive {c : MemoryController ρ κ} (h : Accounted setup c)
    (requestorID address : Nat) (R_W : Bool) {size : Nat} (sized : Sized setup.dataBusWidth size) :
    Accounted setup (c.arrived (incoming setup c requestorID address R_W size) R_W) := by
  obtain ⟨handle, type, _, sameSize, _⟩ := incoming_same setup c requestorID address R_W size
  have home := incoming_atHome setup c requestorID address R_W size
  have mapped := incoming_mapped setup c requestorID address R_W size
  generalize incoming setup c requestorID address R_W size = r at *
  have direction : r.key.isRead = R_W := by
    unfold Request.key
    rw [type]
    cases R_W <;> rfl
  have pendings : (c.arrived r R_W).pendings = fun d =>
      if d = r.key.isRead then c.pendings d ++ [r] else c.pendings d := by
    funext d
    rw [direction]
    cases R_W <;> cases d <;> rfl
  have fresh : ∀ d, ∀ x ∈ c.pendings d, x.handle ≠ r.handle := by
    intro d x hx
    have := h.reports.outstanding d x hx
    omega
  refine ⟨wired_arrived h.wired mapped R_W, h.quiet, h.posted, h.width, ?_, ?_⟩
  · rw [pendings]
    exact h.books.arrive home (sameSize ▸ sized) fresh
  · rw [pendings]
    exact h.reports.arrive handle

/-! ## A cycle -/

/-- Requests of one lane hit the row table together. -/
theorem isRowHit_of_key {s : RequestScheduler} {r r' : Request} (mapped : Mapped r)
    (mapped' : Mapped r') (home : AtHome setup r) (home' : AtHome setup r') (same : r'.key = r.key) :
    s.isRowHit r' = s.isRowHit r := by
  have id : r'.requestorID = r.requestorID := congrArg Key.requestorID same
  have address : r'.address = r.address := congrArg Key.address same
  rw [mapped.isRowHit, mapped'.isRowHit, home.1, home'.1, home.2, home'.2, id, address]

/-- **First-ready selection keeps the order of a lane**: the request taken is the first of its lane,
since one before it would have been a row hit as well. -/
theorem Picks.first_of_lane {s : RequestScheduler} {i : Nat} {r : Request} (picks : s.Picks i r)
    (mapped : ∀ r ∈ s.buffered, Mapped r) (homes : ∀ r ∈ s.buffered, AtHome setup r) :
    ∀ j r', j < i → s.buffered[j]? = some r' → r'.key ≠ r.key := by
  intro j r' hj hr' same
  have mem := List.mem_of_getElem? picks.at_
  have mem' := List.mem_of_getElem? hr'
  have hits := isRowHit_of_key (s := s) (mapped r mem) (mapped r' mem') (homes r mem)
    (homes r' mem') same
  have miss := picks.before j r' hj hr'
  rcases picks.hit with first | hit
  · omega
  · rw [hits, hit] at miss
    cases miss

/-- The request scheduler's part of a cycle keeps the books. -/
theorem hands_books {pending : Bool → List Request} {flight : Bool → List BusPacket}
    {s s' : RequestScheduler} {cs : CommandScheduler} {new : List BusPacket}
    (books : Books setup pending s.buffered flight cs.waiting) (hands : Hands s s' new)
    (mapped : ∀ r ∈ s.buffered, Mapped r)
    (width : s.commandGenerator.dataBusSize = setup.dataBusWidth) (clockCycle : Nat) :
    Books setup pending s'.buffered flight (cs.receive (new.map (stamp clockCycle))).waiting ∧
      s'.commandGenerator.dataBusSize = setup.dataBusWidth := by
  cases hands with
  | idle => exact ⟨by simpa using books, width⟩
  | take picks bank =>
    exact ⟨books.take picks.at_ (Picks.first_of_lane picks mapped books.homes) width _ clockCycle,
      width⟩

/-- What a command scheduler that sends a front does to the reads under way. -/
theorem sends_device {s s' : CommandScheduler} {spec : DeviceSpec} {check : Answers}
    {out : Option BusPacket} (perBank : s.PerBank) (sends : Sends spec check s s' out) :
    s'.memoryDevice.postBuffer = s.memoryDevice.postBuffer ∧
      s'.memoryDevice.pendingReadData = s.memoryDevice.pendingReadData ++
        (out.toList.filter (·.busPacketType == .RD)).map fun c =>
          MemoryDevice.dataPacket c c.arriveTime := by
  cases sends with
  | idle => simp
  | @send i c rest bound front can =>
    have cmd : OpenCommand i c := perBank.queued i c (by simp [front])
    have data := (OpenCommand.ne_data cmd).1
    obtain ⟨_, posted, type⟩ := cmd
    rw [memoryDevice_issue]
    simp only [MemoryDevice.receiveFromBus, posted, Bool.false_eq_true, if_false, data,
      MemoryDevice.generateData]
    by_cases read : c.busPacketType = .RD
    · simp [read]
    · have notRda : c.busPacketType ≠ .RDA := by
        rcases type with h | h | h
        · simp [h]
        · simp [h]
        · rcases BusPacketType.isCas_iff.mp h with h | h <;> simp [h]
      simp [read, notRda]

/-- A front that is sent takes its place among the data under way. -/
theorem sends_books {pending : Bool → List Request} {buffered : List Request}
    {flight : Bool → List BusPacket} {s s' : CommandScheduler} {spec : DeviceSpec}
    {check : Answers} {out : Option BusPacket} (general : s.General)
    (books : Books setup pending buffered flight s.waiting) (sends : Sends spec check s s' out)
    (data : Bool → BusPacket → BusPacket) (same : ∀ d c, Books.SameBeat c (data d c)) :
    Books setup pending buffered
      (fun d => flight d ++ (out.toList.filter (·.busPacketType == casOf d)).map (data d))
      s'.waiting := by
  cases sends with
  | idle =>
    simp only [Option.toList_none, List.filter_nil, List.map_nil, List.append_nil]
    exact books
  | @send i c rest bound front can =>
    have sent := books.send front (fun d => data d c) fun d => same d c
    have waits : (s.issue spec c i).waiting = fun j => if j = i then rest else s.waiting j := by
      funext j
      rw [waiting_issue general, front]
      rfl
    have flies : (fun d => flight d ++
        ((some c).toList.filter (·.busPacketType == casOf d)).map (data d)) =
        fun d => if c.busPacketType = casOf d then flight d ++ [data d c] else flight d := by
      funext d
      by_cases type : c.busPacketType = casOf d <;> simp [type]
    rw [waits, flies]
    exact sent

/-- The data of a write, as the controller makes it. -/
def writePacket (clockCycle : Nat) (cmd : BusPacket) : BusPacket :=
  { MemoryDevice.dataPacket cmd (clockCycle % 2 ^ 32) with
    column := cmd.column, row := cmd.row, bank := cmd.bank, subArray := cmd.subArray }

/-- The data of a column access, by direction. -/
def dataOf (clockCycle : Nat) (isRead : Bool) (cmd : BusPacket) : BusPacket :=
  if isRead then MemoryDevice.dataPacket cmd cmd.arriveTime else writePacket clockCycle cmd

theorem sameBeat_dataOf (clockCycle : Nat) (isRead : Bool) (cmd : BusPacket) :
    Books.SameBeat cmd (dataOf clockCycle isRead cmd) := by
  cases isRead <;> exact ⟨rfl, rfl, rfl⟩

/-- What a sent front leaves in the controller: the data of a write. -/
theorem queueWriteData_eq (setup : Setup) (c : MemoryController ρ κ) {out : Option BusPacket}
    (opens : ∀ x ∈ out, ∃ bank, OpenCommand bank x) :
    ∃ counters, queueWriteData setup c out = { c with
      sendDataBuffer := c.sendDataBuffer ++
        (out.toList.filter (·.busPacketType == .WR)).map (dataOf c.clockCycle false)
      sendDataCounter := counters } := by
  unfold queueWriteData
  cases out with
  | none => exact ⟨c.sendDataCounter, by simp⟩
  | some cmd =>
    obtain ⟨_, _, _, type⟩ := opens cmd rfl
    by_cases write : cmd.busPacketType = .WR
    · exact ⟨_, by simp [write, dataOf, writePacket]; rfl⟩
    · have notWra : cmd.busPacketType ≠ .WRA := by
        rcases type with h | h | h
        · simp [h]
        · simp [h]
        · rcases BusPacketType.isCas_iff.mp h with h | h <;> simp [h]
      exact ⟨c.sendDataCounter, by simp [write, notWra]⟩

/-- What is sent was made by the `OPEN` generator. -/
theorem sends_open {s s' : CommandScheduler} {spec : DeviceSpec} {check : Answers}
    {out : Option BusPacket} (perBank : s.PerBank) (sends : Sends spec check s s' out) :
    ∀ x ∈ out, ∃ bank, OpenCommand bank x := by
  cases sends with
  | idle => exact fun x hx => absurd hx (by simp)
  | @send i c rest bound front can =>
    intro x hx
    obtain rfl : c = x := by simpa using hx
    exact ⟨i, perBank.queued i c (by simp [front])⟩

/-- The accounts at a point within a cycle, where `queue` waits for the banks. -/
def Balanced (setup : Setup) (c : MemoryController ρ κ) (queue : Nat → List BusPacket) : Prop :=
  Books setup c.pendings c.requestScheduler.buffered c.flight queue ∧
    Reports c.pendings c.accepted c.callbacks c.nextHandle

/-- **Write data that leaves keeps the accounts.** -/
theorem sendWriteData_balanced {c : MemoryController ρ κ} {queue : Nat → List BusPacket}
    (writes : ∀ p ∈ c.sendDataBuffer, p.busPacketType = .DATA ∧ p.postCommand = false)
    (balanced : Balanced setup c queue) : Balanced setup (sendWriteData setup c) queue := by
  unfold sendWriteData
  dsimp only
  split
  · split
    · exact balanced
    · next p rest front =>
      obtain ⟨data, posted⟩ := writes p (by simp [front])
      have swallowed : sendData setup c p = deliver setup false
          { c with stats := { c.stats with writeBytes :=
              c.stats.writeBytes + setup.dataBusWidth } } p := by
        rw [sendData, receiveFromBus_data data posted]
      obtain ⟨books, reports⟩ := deliver_accounted
        { c with stats := { c.stats with writeBytes :=
            c.stats.writeBytes + setup.dataBusWidth } } false
        balanced.1 balanced.2 front
      have frame := (deliver_frame setup false { c with stats := { c.stats with writeBytes :=
        c.stats.writeBytes + setup.dataBusWidth } } p).2.1
      rw [← swallowed] at books reports frame
      refine ⟨?_, reports⟩
      refine cast (congrArg (fun f => Books setup _ _ f queue) ?_) books
      funext d
      cases d
      · rfl
      · simp only [Books.popFlight, Bool.true_eq_false, if_false, flight, if_true, frame]
  · exact balanced

/-- **The accounts in mid-cycle**, once a front was sent and the data of a write was queued. -/
theorem Accounted.scheduled {refreshCheck check : Answers} {c : MemoryController ρ κ}
    (h : Accounted setup c) {rs : RequestScheduler} {new : List BusPacket} {cs : CommandScheduler}
    {out : Option BusPacket} (priv : ρ) (priv' : κ) (hands : Hands c.requestScheduler rs new)
    (sends : Sends setup.device check
      ((c.commandScheduler.receive (new.map (stamp c.clockCycle))).refresh setup.device refreshCheck)
      cs out) :
    Balanced setup (queueWriteData setup (c.scheduled rs priv new cs priv') out) cs.waiting := by
  obtain ⟨wired, quiet, posted, width, books, reports⟩ := h
  -- the request scheduler and the refresh machine
  obtain ⟨books₁, _⟩ := hands_books books hands wired.mapped width c.clockCycle
  have received := wired.perBank_receive hands
  have quiet₁ : (c.commandScheduler.receive (new.map (stamp c.clockCycle))).Quiet := quiet
  obtain ⟨_, device⟩ := quiet₁.refresh setup.device refreshCheck
  have waits := funext (waiting_refresh (c.commandScheduler.receive (new.map (stamp c.clockCycle)))
    setup.device refreshCheck)
  rw [← waits] at books₁
  -- the command scheduler, and the data it sets under way
  obtain ⟨_, reads₃⟩ := sends_device received.refresh sends
  rw [device] at reads₃
  have opens := sends_open received.refresh sends
  have books₃ := sends_books received.refresh.general books₁ sends
    (dataOf c.clockCycle) (sameBeat_dataOf c.clockCycle)
  obtain ⟨counters, queued⟩ := queueWriteData_eq setup (c.scheduled rs priv new cs priv') opens
  rw [queued]
  refine ⟨cast (congrArg (fun f => Books setup _ _ f _) ?_) books₃, reports⟩
  funext d
  cases d
  · rfl
  · exact reads₃.symm

/-- **A cycle keeps the accounts.** -/
theorem Cycle.accounted {refreshCheck check : Answers} {c c' : MemoryController ρ κ}
    (cycle : Cycle setup refreshCheck check c c') (h : Accounted setup c) :
    Accounted setup c' := by
  have wired' := cycle.wired h.wired
  obtain ⟨priv, priv', hands, sends⟩ := cycle
  rename_i rs new cs out
  have balanced₃ := h.scheduled priv priv' hands sends
  obtain ⟨wired, quiet, posted, width, books, _⟩ := h
  obtain ⟨_, width₁⟩ := hands_books books hands wired.mapped width c.clockCycle
  have received := wired.perBank_receive hands
  have quiet₁ : (c.commandScheduler.receive (new.map (stamp c.clockCycle))).Quiet := quiet
  obtain ⟨quiet₂, device⟩ := quiet₁.refresh setup.device refreshCheck
  obtain ⟨posted₃, _⟩ := sends_device received.refresh sends
  rw [device] at posted₃
  have writes₃ := queueWriteData_frame setup (c.scheduled rs priv new cs priv') out
  have writes₃' := fun p hp => (writes₃.2.2 p hp).elim (wired.writes p) id
  obtain ⟨books₄, reports₄⟩ := sendWriteData_balanced writes₃' balanced₃
  -- the clocks
  obtain ⟨resized, ticked, _⟩ := endCycle_frame setup
    (c := c.scheduled rs priv new cs priv') out wired.writes
  have waits' := funext (waiting_tick (received.refresh.sends sends).general)
  refine ⟨wired', ?_, ?_, ?_, ?_, reports₄⟩
  · rw [ticked]
    exact (quiet₂.sends sends).tick
  · rw [ticked]
    exact posted₃.trans posted
  · rw [resized.generator]
    exact width₁
  · rw [ticked]
    exact waits' ▸ books₄

/-- What an update of a device without posted commands does: it hands out the front of the read data
or nothing. -/
theorem update_device (spec : DeviceSpec) {d : MemoryDevice} (posted : d.postBuffer = []) :
    ∃ d', d'.postBuffer = [] ∧
      (d.update spec = (d', none) ∧ d'.pendingReadData = d.pendingReadData ∨
        ∃ p, d.update spec = (d', some p) ∧ d.pendingReadData = p :: d'.pendingReadData) := by
  unfold MemoryDevice.update MemoryDevice.updateReads
  cases reads : d.pendingReadData with
  | nil => exact ⟨_, by simp [MemoryDevice.updatePosted, posted],
      .inl ⟨rfl, by simp [MemoryDevice.updatePosted, posted, reads]⟩⟩
  | cons p rest =>
    simp only [List.isEmpty_cons, Bool.false_eq_true, if_false]
    split
    · exact ⟨_, by simp [MemoryDevice.updatePosted, posted],
        .inr ⟨p, rfl, by simp [MemoryDevice.updatePosted, posted]⟩⟩
    · exact ⟨_, by simp [MemoryDevice.updatePosted, posted],
        .inl ⟨rfl, by simp [MemoryDevice.updatePosted, posted]⟩⟩

/-- **The device's update keeps the accounts**: the read data it delivers is the next of its lane. -/
theorem Accounted.deviceUpdate {c : MemoryController ρ κ} (h : Accounted setup c) :
    Accounted setup (MemorySystem.deviceUpdate setup c) := by
  obtain ⟨d', posted', none_ | ⟨p, some_, front⟩⟩ := update_device setup.device h.posted
  · obtain ⟨none_, same⟩ := none_
    simp only [MemorySystem.deviceUpdate, none_]
    refine ⟨⟨h.wired.oneBuffer, h.wired.emptied, h.wired.mapped, h.wired.tabled,
      h.wired.commands.withDevice d', h.wired.writes⟩, h.quiet, posted', h.width, ?_, h.reports⟩
    refine cast (congrArg (fun f => Books setup _ _ f _) ?_) h.books
    funext d
    cases d
    · rfl
    · exact same.symm
  · simp only [MemorySystem.deviceUpdate, some_]
    -- the controller at the moment of the delivery
    let c₁ : MemoryController ρ κ :=
      { c with
        commandScheduler := { c.commandScheduler with memoryDevice := d' }
        stats := { c.stats with readBytes := c.stats.readBytes + setup.dataBusWidth } }
    show Accounted setup (deliver setup true c₁ p)
    obtain ⟨books, reports⟩ := deliver_accounted c₁ true h.books h.reports
      front
    obtain ⟨resized, commands, writes, _⟩ := deliver_frame setup true c₁ p
    refine ⟨⟨resized.oneBuffer h.wired.oneBuffer, ?_, resized.mapped h.wired.mapped,
      resized.tabled h.wired.tabled, ?_, writes ▸ h.wired.writes⟩, ?_, ?_, ?_, ?_, reports⟩
    · rw [resized.generator]
      exact h.wired.emptied
    · rw [commands]
      exact h.wired.commands.withDevice d'
    · rw [commands]
      exact h.quiet
    · rw [commands]
      exact posted'
    · rw [resized.generator]
      exact h.width
    · rw [commands]
      refine cast (congrArg (fun f => Books setup _ _ f _) ?_) books
      funext d
      cases d
      · exact writes.symm
      · simp only [flight, if_true, commands]
        rfl

end MemoryController

/-! ## Runs of a memory system -/

/-- A request asks for a positive number of data bus widths. -/
def Event.Sized (setup : Setup) : Event → Prop
  | .addRequest _ _ _ size => MCsim.Sized setup.dataBusWidth size
  | .update _ _ => True

namespace MemorySystem

open MemoryController

variable {ρ κ : Type} {setup : Setup} {parts : Components ρ κ}

/-- What one event does at a memory system: a request arrives, or a cycle passes and the device is
updated. -/
theorem step_cases (open_ : setup.OpenPage) (opens : parts.OpenPage) {c c' : MemoryController ρ κ}
    (wired : c.Wired) {e : Event} {o : Unit} (h : step setup parts c e = some (c', o)) :
    (∃ requestorID address R_W size, e = .addRequest requestorID address R_W size ∧
      c' = c.arrived (incoming setup c requestorID address R_W size) R_W) ∨
    ∃ refreshCheck check c₁, e = .update refreshCheck check ∧
      Cycle setup refreshCheck check c c₁ ∧ c' = deviceUpdate setup c₁ := by
  cases e with
  | addRequest requestorID address R_W size =>
    simp only [step, addRequest_eq open_ wired, Option.map_some, Option.some.injEq,
      Prod.mk.injEq] at h
    exact .inl ⟨requestorID, address, R_W, size, rfl, h.1.symm⟩
  | update refreshCheck check =>
    rcases update_cycle open_ opens wired refreshCheck check with ⟨hn, _⟩ | ⟨c₁, hs, cycle⟩
    · simp [step, update, hn] at h
    · simp only [step, update, hs, Option.map_some, Option.some.injEq, Prod.mk.injEq] at h
      exact .inr ⟨refreshCheck, check, c₁, rfl, cycle, h.1.symm⟩

/-- **Every event keeps the accounts.** -/
theorem step_accounted (open_ : setup.OpenPage) (opens : parts.OpenPage)
    {c c' : MemoryController ρ κ} {e : Event} {o : Unit} (inv : Accounted setup c)
    (h : step setup parts c e = some (c', o)) (sized : e.Sized setup) : Accounted setup c' := by
  obtain ⟨requestorID, address, R_W, size, rfl, rfl⟩ | ⟨refreshCheck, check, c₁, rfl, cycle, rfl⟩ :=
    step_cases open_ opens inv.wired h
  · exact inv.arrive requestorID address R_W sized
  · exact (cycle.accounted inv).deviceUpdate

/-- The device's update resizes requests at most. -/
theorem deviceUpdate_resized (setup : Setup) (c : MemoryController ρ κ) :
    Resized c.requestScheduler (deviceUpdate setup c).requestScheduler := by
  unfold deviceUpdate
  dsimp only
  split
  · exact .refl _
  · next p _ =>
    have delivered := (deliver_frame setup true
      { c with
        commandScheduler := { c.commandScheduler with
          memoryDevice := (c.commandScheduler.memoryDevice.update setup.device).1 }
        stats := { c.stats with readBytes := c.stats.readBytes + setup.dataBusWidth } } p).1
    exact delivered

/-- From a memory system in order every event that fits can happen. -/
theorem step_defined (open_ : setup.OpenPage) (opens : parts.OpenPage) {c : MemoryController ρ κ}
    (inv : Accounted setup c) (fits : c.Fits) {e : Event} (he : e.Fits setup)
    (sized : e.Sized setup) :
    ∃ c' o, step setup parts c e = some (c', o) ∧ Accounted setup c' ∧ c'.Fits := by
  obtain ⟨c₁, _, hs, _, fits₁⟩ := MemoryController.step_defined open_ opens
    inv.wired fits he
  cases e with
  | addRequest requestorID address R_W size =>
    have hs' : step setup parts c (.addRequest requestorID address R_W size) = some (c₁, _) := hs
    exact ⟨c₁, _, hs', step_accounted open_ opens inv hs' sized, fits₁⟩
  | update refreshCheck check =>
    have updated : c.update setup parts refreshCheck check = some c₁ := by
      simpa [MemoryController.step] using hs
    have hs' : step setup parts c (.update refreshCheck check) =
        some (deviceUpdate setup c₁, ()) := by
      simp [step, update, updated]
    refine ⟨_, _, hs', step_accounted open_ opens inv hs' sized, fun r hr => ?_⟩
    obtain ⟨r', hr', n, rfl⟩ := (deviceUpdate_resized setup c₁).requests r hr
    exact fits₁ r' hr'

/-- What the accounts say of the logs. -/
theorem accounted_logs {c : MemoryController ρ κ} (h : Accounted setup c) :
    (c.accepted.map (·.handle)).Nodup ∧
    (∀ r ∈ c.accepted, c.callbacks.countP (·.request.handle == r.handle) ≤ 1) ∧
    (∀ k : Key, c.accepted.countP (·.key == k) = c.callbacks.countP (·.request.key == k) +
      (c.pendingReadRequest ++ c.pendingWriteRequest).countP (·.key == k)) ∧
    ∀ cb ∈ c.callbacks, cb.request.handle ∈ c.accepted.map (·.handle) ∧
      cb.packet.origin = cb.request.handle ∧ cb.packet.lastBeat = true ∧
      ∀ r ∈ c.requestScheduler.buffered, r.handle ≠ cb.request.handle := by
  have reports := h.reports
  refine ⟨reports.numbered ▸ List.nodup_range, fun r _ => ?_, fun k => ?_, fun cb hcb => ?_⟩
  · have once := List.nodup_iff_count_le_one.mp reports.once r.handle
    rwa [List.count, List.countP_map] at once
  · have typed := h.books.typed
    have other : ∀ d, d ≠ k.isRead → (c.pendings d).countP (·.key == k) = 0 := by
      intro d hd
      refine List.countP_eq_zero.mpr fun r hr e => hd ?_
      rw [← typed d r hr, beq_iff_eq.mp e]
    rw [reports.counts k, List.countP_append, ← List.countP_eq_length_filter]
    have read : c.pendingReadRequest = c.pendings true := rfl
    have write : c.pendingWriteRequest = c.pendings false := rfl
    rw [read, write]
    cases d : k.isRead
    · rw [other true (by simp [d]), Nat.zero_add]
    · rw [other false (by simp [d]), Nat.add_zero]
  · obtain ⟨origin, last⟩ := reports.own cb hcb
    refine ⟨?_, origin, last, fun r hr => reports.gone cb hcb _ r (h.books.mem_pending hr)⟩
    rw [reports.numbered, List.mem_range]
    exact reports.reported cb hcb

/-- **No completion is lost, duplicated or misattributed.** With one general request buffer, `OPEN`, a
queue for each bank, no refresh and any of the general schedulers, and requests of a positive number
of data bus widths, whatever the device answers: no accepted request is reported twice; for every
requestor, address and type the accepted requests are those reported and those pending; and a request
is reported by the data of its own last column access, when no request buffer holds it. Every such run
is defined whose requestors have a bank. -/
theorem openPage_completion (open_ : setup.OpenPage) (noRefresh : setup.refresh_mechanism = .none)
    {parts : Components Unit Unit} (general : parts.General) (refreshCounting bank_release : Nat)
    (events : List Event) (sized : ∀ e ∈ events, e.Sized setup) :
    (∀ c os, Lib.Machine.run (step setup parts)
        (create setup parts refreshCounting bank_release) events = some (c, os) →
      (c.accepted.map (·.handle)).Nodup ∧
      (∀ r ∈ c.accepted, c.callbacks.countP (·.request.handle == r.handle) ≤ 1) ∧
      (∀ k : Key, c.accepted.countP (·.key == k) = c.callbacks.countP (·.request.key == k) +
        (c.pendingReadRequest ++ c.pendingWriteRequest).countP (·.key == k)) ∧
      ∀ cb ∈ c.callbacks, cb.request.handle ∈ c.accepted.map (·.handle) ∧
        cb.packet.origin = cb.request.handle ∧ cb.packet.lastBeat = true ∧
        ∀ r ∈ c.requestScheduler.buffered, r.handle ≠ cb.request.handle) ∧
    ((∀ e ∈ events, e.Fits setup) → ∃ c os, Lib.Machine.run (step setup parts)
        (create setup parts refreshCounting bank_release) events = some (c, os)) := by
  have opens := general.openPage
  have start := accounted_create open_ noRefresh parts refreshCounting bank_release
  constructor
  · intro c os ran
    have along := Lib.Machine.along_of_forall (step setup parts)
      (create setup parts refreshCounting bank_release) sized
    exact accounted_logs (Lib.Machine.run_invariant_along (Accounted setup)
      (fun inv h sized => step_accounted open_ opens inv h sized) start along ran)
  · intro fit
    refine Lib.Machine.run_defined (fun c => Accounted setup c ∧ c.Fits)
      (fun e => e.Fits setup ∧ e.Sized setup)
      (fun inv he => step_defined open_ opens inv.1 inv.2 he.1 he.2)
      ⟨start, fun r hr => absurd hr List.not_mem_nil⟩ fun e he => ⟨fit e he, sized e he⟩

/-- The law at two reads of one address, a write and forty cycles, in the set-up of `FRFCFS.ini`. -/
theorem openPage_completion_frfcfsIni :
    ∃ c os, Lib.Machine.run (step openPageSetup frfcfsIni) (create openPageSetup frfcfsIni 0 0)
        ([.addRequest 1 0 true 128, .addRequest 1 0 true 64, .addRequest 1 64 false 64] ++
          List.replicate 40 (.update (fun _ => true) fun _ => true)) = some (c, os) ∧
      ∀ r ∈ c.accepted, c.callbacks.countP (·.request.handle == r.handle) ≤ 1 := by
  have law := @openPage_completion openPageSetup
    ⟨⟨by decide, rfl, rfl, rfl, rfl, rfl, rfl, fun _ => rfl⟩, rfl, rfl, rfl⟩ rfl
    frfcfsIni ⟨.inr rfl, rfl, .inl rfl⟩ 0 0
    ([.addRequest 1 0 true 128, .addRequest 1 0 true 64, .addRequest 1 64 false 64] ++
      List.replicate 40 (.update (fun _ => true) fun _ => true)) fun e he => by
    rcases List.mem_append.mp he with he | he
    · simp only [List.mem_cons, List.not_mem_nil, or_false] at he
      rcases he with rfl | rfl | rfl <;> exact ⟨by decide, by decide, by decide⟩
    · rw [List.eq_of_mem_replicate he]
      trivial
  obtain ⟨c, os, ran⟩ := law.2 fun e he => by
    rcases List.mem_append.mp he with he | he
    · simp only [List.mem_cons, List.not_mem_nil, or_false] at he
      rcases he with rfl | rfl | rfl <;> exact fun _ => by decide
    · rw [List.eq_of_mem_replicate he]
      trivial
  exact ⟨c, os, ran, (law.1 c os ran).2.1⟩

end MemorySystem
end MCsim
