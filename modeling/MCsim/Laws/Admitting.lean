import MCsim.Laws.Ledger
import MCsim.Laws.Progress

/-!
# What a round does to the requestors

`Requestor.left` is what a requestor has left to do on its own: read the entries of its trace and send the
request it holds. An update never makes it more, and where it stays the same nothing was read and nothing
was sent. `Requestor.Sound` is what updates and callbacks keep of one requestor, and `Simulator.Sound` what
they keep of the whole simulator: the records agree, every channel is in order, and none is in write mode.
-/

namespace MCsim

open MemoryController RequestScheduler

variable {ρ κ : Type} {setup : Setup} {parts : Components ρ κ}

/-! ## Write mode -/

namespace MemoryController

/-- The one request queue is not in write mode. -/
def Reading (c : MemoryController ρ κ) : Prop := (c.requestScheduler.requestQueue 0).writeMode = false

theorem Resized.writeMode {s s' : RequestScheduler} (h : Resized s s') :
    (s'.requestQueue 0).writeMode = (s.requestQueue 0).writeMode := by
  cases h <;> rfl

/-- Nobody turns the write mode on. -/
theorem Turn.reading {c c' : MemoryController ρ κ} {refreshCheck check : Answers} (wired : c.Wired)
    (reading : c.Reading) (turn : Turn setup refreshCheck check c c') : c'.Reading := by
  obtain @⟨rs, new, cs, out, priv, priv', hands, sends, _⟩ := turn
  have updated := (MemorySystem.deviceUpdate_resized setup
    (endCycle setup (c.scheduled rs priv new cs priv') out)).writeMode
  have ended := (endCycle_frame setup (c := c.scheduled rs priv new cs priv') out wired.writes).1.writeMode
  have handed : (rs.requestQueue 0).writeMode = (c.requestScheduler.requestQueue 0).writeMode := by
    cases hands <;> rfl
  exact ((updated.trans ended).trans handed).trans reading

end MemoryController

/-! ## A requestor -/

namespace Requestor

/-- What is left to do: two steps for an entry of the trace, and one for the request that is held. -/
def left (q : Requestor) : Nat := 2 * q.transFile.length + q.pendingRequest.toList.length

/-- Everything was read, sent and answered. -/
structure AtEnd (q : Requestor) : Prop where
  file : q.transFile = []
  pending : q.pendingRequest = none
  core : q.corePendingData = []

/-- A requestor in order whose trace has so many requests. -/
structure Sound (requests : Nat) (q : Requestor) : Prop where
  size : q.RequestSize = 64
  clock : q.currentClockCycle < 2 ^ 32
  pending : ∀ x, q.pendingRequest = some x → x.requestSize = 64 ∧ x.arriveTime < 2 ^ 32
  lines : q.requestRequest + q.pendingRequest.toList.length + (q.transFile.filterMap id).length = requests
  done : q.sim_done = true → q.AtEnd

variable {q q' : Requestor} {requests : Nat}

/-- The arrival time of a line is worked out beside all of this. -/
theorem arrival_kept (q : Requestor) (line : TraceLine) :
    (q.arrival line).1.RequestSize = q.RequestSize ∧
      (q.arrival line).1.currentClockCycle = q.currentClockCycle ∧
      (q.arrival line).1.corePendingData = q.corePendingData ∧
      (q.arrival line).1.requestRequest = q.requestRequest := by
  unfold arrival
  split
  · exact ⟨rfl, rfl, rfl, rfl⟩
  · split <;> exact ⟨rfl, rfl, rfl, rfl⟩

/-- Reading an entry leaves less to do; otherwise only `latency` and `sim_done` change. The end is where
the file is read and nothing is held. -/
theorem read_cases (q : Requestor) :
    (∃ done, q.read = { q with latency := q.latency + 1, sim_done := done } ∧
      (done = true ↔ (q.inOrder = false ∨ q.corePendingData = []) ∧ q.pendingRequest = none ∧
        q.transFile = []) ∧
      (q.corePendingData = [] → q.pendingRequest = none → q.transFile = [])) ∨
    (q.pendingRequest = none ∧ ∃ entry rest, q.transFile = entry :: rest ∧ q.read.transFile = rest ∧
      q.read.pendingRequest.toList.length = entry.toList.length ∧
      (∀ x, q.read.pendingRequest = some x → x.requestSize = q.RequestSize ∧ x.arriveTime < 2 ^ 32) ∧
      q.read.corePendingData = q.corePendingData ∧ q.read.sim_done = false ∧
      q.read.RequestSize = q.RequestSize ∧ q.read.currentClockCycle = q.currentClockCycle ∧
      q.read.requestRequest = q.requestRequest) := by
  unfold read readingTraceFile
  dsimp only
  split
  · next waits =>
    simp only [Bool.and_eq_true, Bool.not_eq_true', List.isEmpty_eq_false_iff] at waits
    exact .inl ⟨false, rfl, by simp [waits.1, waits.2], fun empty => absurd empty waits.2⟩
  · next free =>
    have free : q.inOrder = false ∨ q.corePendingData = [] := by
      cases inOrder : q.inOrder with
      | false => exact .inl rfl
      | true => exact .inr (by simpa [inOrder] using free)
    split
    · next idle =>
      have idle : q.pendingRequest = none := Option.isNone_iff_eq_none.mp idle
      split
      · next file =>
        exact .inl ⟨true, rfl, by simp [free, idle, file], fun _ _ => file⟩
      · next rest file => exact .inr ⟨idle, none, rest, file, rfl, by simp [idle], by simp [idle], rfl, rfl,
          rfl, rfl, rfl⟩
      · next line rest file =>
        obtain ⟨size, clock, core, sent⟩ := arrival_kept { q with latency := q.latency + 1 } line
        refine .inr ⟨idle, some line, rest, file, rfl, rfl, fun x hx => ?_, core, rfl, size, clock, sent⟩
        obtain rfl := Option.some.inj hx
        exact ⟨size, Nat.mod_lt _ (by decide)⟩
    · next held =>
      have held : q.pendingRequest ≠ none := fun none_ => held (by simp [none_])
      exact .inl ⟨false, rfl, by simp [held], fun _ none_ => absurd none_ held⟩

/-- The requestor after its update. -/
def updated (q : Requestor) (writeMode : Bool) (generalBufferSize : Nat) : Requestor :=
  match q.read.sends writeMode generalBufferSize with
  | some request => (q.read.sent request).endUpdate
  | none => q.read.endUpdate

/-- What is sent was held. -/
theorem sends_held {writeMode : Bool} {generalBufferSize : Nat} {r : Request}
    (sends : q.sends writeMode generalBufferSize = some r) : q.pendingRequest = some r :=
  Option.eq_some_of_filter_eq_some sends

/-- A file with an entry less has a request less if the entry is one. -/
theorem length_filterMap_cons (entry : Option TraceLine) (rest : List (Option TraceLine)) :
    ((entry :: rest).filterMap id).length = entry.toList.length + (rest.filterMap id).length := by
  cases entry with
  | none => simp
  | some line => simp [Nat.add_comm]

/-- What reading keeps. Only the end is not known yet: requests may still be under way. -/
theorem Sound.read (sound : q.Sound requests) :
    q.read.RequestSize = 64 ∧
      (∀ x, q.read.pendingRequest = some x → x.requestSize = 64 ∧ x.arriveTime < 2 ^ 32) ∧
      q.read.requestRequest + q.read.pendingRequest.toList.length +
        (q.read.transFile.filterMap id).length = requests ∧
      (q.read.sim_done = true → q.read.transFile = [] ∧ q.read.pendingRequest = none) := by
  obtain ⟨size, _, pending, lines, _⟩ := sound
  obtain ⟨ended, same, iff_, _⟩ |
    ⟨idle, entry, rest, file, less, held, sizes, _, going, sizeSame, _, sent⟩ := q.read_cases
  · rw [same]
    exact ⟨size, pending, lines, fun true_ => ⟨(iff_.mp true_).2.2, (iff_.mp true_).2.1⟩⟩
  · refine ⟨sizeSame.trans size, fun x hx => ⟨(sizes x hx).1.trans size, (sizes x hx).2⟩, ?_, ?_⟩
    · rw [idle, file, length_filterMap_cons] at lines
      rw [sent, held, less, ← lines]
      simp
      omega
    · rw [going]
      exact fun true_ => absurd true_ Bool.false_ne_true

/-- **An update keeps a requestor in order.** -/
theorem Sound.updated (sound : q.Sound requests) (writeMode : Bool) (generalBufferSize : Nat) :
    (q.updated writeMode generalBufferSize).Sound requests := by
  have ticks : ∀ n : Nat, (n + 1) % 2 ^ 32 < 2 ^ 32 := fun n => Nat.mod_lt _ (by decide)
  obtain ⟨size, pending, lines, done⟩ := sound.read
  unfold Requestor.updated
  split
  · next r sends =>
    refine ⟨size, ticks _, fun x hx => (nomatch hx), ?_, fun true_ => ?_⟩
    · rw [sends_held sends, Option.toList_some, List.length_singleton] at lines
      exact lines
    · simp [endUpdate, sent] at true_
  · refine ⟨size, ticks _, pending, lines, fun true_ => ?_⟩
    have core : q.read.corePendingData = [] := by
      by_contra waits
      simp [endUpdate, waits] at true_
    simp only [endUpdate, core, List.isEmpty_nil, if_true] at true_
    exact ⟨(done true_).1, (done true_).2, core⟩

/-- Reading never leaves more to do. -/
theorem left_read (q : Requestor) : q.read.left ≤ q.left := by
  obtain ⟨_, same, _⟩ | ⟨_, entry, rest, file, less, held, _⟩ := q.read_cases
  · rw [same]
    exact Nat.le_refl _
  · unfold left
    rw [file, less, held, List.length_cons]
    have : entry.toList.length ≤ 1 := by cases entry <;> simp
    omega

/-- **An update never leaves more to do.** -/
theorem left_updated (q : Requestor) (writeMode : Bool) (generalBufferSize : Nat) :
    (q.updated writeMode generalBufferSize).left ≤ q.left := by
  apply le_trans ?_ q.left_read
  unfold updated
  split
  · simp [left, endUpdate, sent]
  · exact Nat.le_refl _

/-- What an update does where it leaves as much to do. -/
structure Stands (q q' : Requestor) : Prop where
  file : q'.transFile = q.transFile
  pending : q'.pendingRequest = q.pendingRequest
  clock : q'.currentClockCycle = (q.currentClockCycle + 1) % 2 ^ 32
  core : q.corePendingData = [] → q'.corePendingData = []
  ends : q.corePendingData = [] → q.pendingRequest = none → q'.sim_done = true
  held : ∀ x, q.pendingRequest = some x → q.corePendingData = [] → ∀ generalBufferSize,
    generalBufferSize ≤ RequestBufferSize → q.read.sends false generalBufferSize = none →
      q.currentClockCycle < x.arriveTime

/-- **Where an update leaves as much to do**, nothing was read and nothing was sent. -/
theorem stands_of_left {writeMode : Bool} {generalBufferSize : Nat}
    (same : (q.updated writeMode generalBufferSize).left = q.left) :
    q.read.sends writeMode generalBufferSize = none ∧
      Stands q (q.updated writeMode generalBufferSize) := by
  have none_ : q.read.sends writeMode generalBufferSize = none := by
    cases sends : q.read.sends writeMode generalBufferSize with
    | none => rfl
    | some r =>
      have more := q.left_read
      unfold updated at same
      rw [sends] at same
      simp only [left, endUpdate, sent, Option.toList_none, List.length_nil, sends_held sends,
        Option.toList_some, List.length_singleton] at same more
      omega
  refine ⟨none_, ?_⟩
  unfold updated at same ⊢
  rw [none_] at same ⊢
  obtain ⟨done, read, iff_, ends⟩ | ⟨idle, entry, rest, file, less, held, _⟩ := q.read_cases
  · dsimp only
    rw [read]
    refine ⟨rfl, rfl, rfl, id, fun core pending => ?_, fun x hx core size small none_ => ?_⟩
    · simp [endUpdate, core, iff_.mpr ⟨.inr core, pending, ends core pending⟩]
    · rw [read] at none_
      simpa [sends, hx, core, Nat.not_lt.mpr small] using none_
  · have fewer : entry.toList.length ≤ 1 := by cases entry <;> simp
    simp only [left, endUpdate, file, less, held, idle, List.length_cons, Option.toList_none,
      List.length_nil] at same
    omega

/-- **At its end, a requestor stays there.** -/
theorem AtEnd.updated (ended : q.AtEnd) (writeMode : Bool) (generalBufferSize : Nat) :
    (q.updated writeMode generalBufferSize).AtEnd ∧
      (q.updated writeMode generalBufferSize).left = q.left := by
  have less := q.left_updated writeMode generalBufferSize
  have zero : q.left = 0 := by simp [left, ended.file, ended.pending]
  have same : (q.updated writeMode generalBufferSize).left = q.left := by omega
  have stands := (stands_of_left same).2
  exact ⟨⟨stands.file.trans ended.file, stands.pending.trans ended.pending, stands.core ended.core⟩, same⟩

/-! ## Callbacks -/

/-- What callbacks leave of a requestor. -/
structure Returned (q q' : Requestor) : Prop where
  file : q'.transFile = q.transFile
  pending : q'.pendingRequest = q.pendingRequest
  clock : q'.currentClockCycle = q.currentClockCycle
  size : q'.RequestSize = q.RequestSize
  sent : q'.requestRequest = q.requestRequest
  done : q'.sim_done = q.sim_done
  core : q.corePendingData = [] → q'.corePendingData = []

theorem Returned.refl (q : Requestor) : Returned q q := ⟨rfl, rfl, rfl, rfl, rfl, rfl, id⟩

theorem Returned.trans {q'' : Requestor} (h : Returned q q') (h' : Returned q' q'') : Returned q q'' :=
  ⟨h'.file.trans h.file, h'.pending.trans h.pending, h'.clock.trans h.clock, h'.size.trans h.size,
    h'.sent.trans h.sent, h'.done.trans h.done, fun empty => h'.core (h.core empty)⟩

theorem returned_of_returnData {x : Request} (returned : q.returnData x = some q') : Returned q q' := by
  unfold returnData at returned
  split at returned
  · obtain ⟨r, _, rfl⟩ := Option.map_eq_some_iff.mp returned
    exact ⟨rfl, rfl, rfl, rfl, rfl, rfl, fun empty => by simp [empty]⟩
  · split at returned
    · cases returned
    · obtain rfl := Option.some.inj returned
      exact .refl q

theorem Returned.sound (returned : Returned q q') (sound : q.Sound requests) : q'.Sound requests := by
  refine ⟨returned.size.trans sound.size, returned.clock ▸ sound.clock, ?_, ?_, fun true_ => ?_⟩
  · rw [returned.pending]
    exact sound.pending
  · rw [returned.sent, returned.pending, returned.file]
    exact sound.lines
  · obtain ⟨file, pending, core⟩ := sound.done (returned.done ▸ true_)
    exact ⟨returned.file.trans file, returned.pending.trans pending, returned.core core⟩

theorem Returned.left (returned : Returned q q') : q'.left = q.left := by
  unfold Requestor.left
  rw [returned.file, returned.pending]

theorem Returned.atEnd (returned : Returned q q') (ended : q.AtEnd) : q'.AtEnd :=
  ⟨returned.file.trans ended.file, returned.pending.trans ended.pending, returned.core ended.core⟩

/-- Callbacks in between do not matter to a requestor that stands. -/
theorem Stands.returned {q'' : Requestor} (stands : Stands q q') (returned : Returned q' q'') :
    Stands q q'' :=
  ⟨returned.file.trans stands.file, returned.pending.trans stands.pending,
    returned.clock.trans stands.clock, fun core => returned.core (stands.core core),
    fun core none_ => returned.done.trans (stands.ends core none_), stands.held⟩

end Requestor

/-! ## The simulator -/

namespace Simulator

variable {m m' : Simulator ρ κ} {requests : Nat → Nat}

/-- What updates keep of the simulator: the records agree, and every channel and requestor is in order. -/
structure Sound (setup : Setup) (requests : Nat → Nat) (m : Simulator ρ κ) : Prop where
  agrees : m.Agrees
  able : ∀ i, Able setup (m.channels i)
  reading : ∀ i, (m.channels i).Reading
  requestors : ∀ id, (m.requestorsMap id).Sound (requests id)

theorem sound_create (open_ : setup.OpenPage) (noRefresh : setup.refresh_mechanism = .none)
    (parts : Components ρ κ) (refreshCounting bank_release : Nat → Nat)
    (numberChannels numberRequestors : Nat) (inOrder : Nat → Bool)
    (traces : Nat → List (Option TraceLine)) :
    (create setup parts refreshCounting bank_release numberChannels numberRequestors inOrder
      traces).Sound setup fun r => ((traces r).filterMap id).length := by
  refine ⟨agrees_create _ _ _ _ _ _ _ _, fun i => able_create open_ noRefresh _ _ _, fun _ => rfl, ?_⟩
  intro r
  refine ⟨rfl, (by decide : 1 < 2 ^ 32), fun x hx => (nomatch hx), ?_, fun true_ => ?_⟩
  · simp [create]
  · exact absurd true_ Bool.false_ne_true

/-- **A requestor's update** happens, and keeps all in order. -/
theorem updateRequestor_sound (open_ : setup.OpenPage) (sized : MCsim.Sized setup.dataBusWidth 64)
    {id : Nat} (bank : setup.build = .SINGLE_RANK_BANK_PRIVATIZATION → id < 8)
    (sound : m.Sound setup requests) :
    ∃ m', m.updateRequestor setup id = some m' ∧ m'.Sound setup requests ∧
      m'.numberChannels = m.numberChannels ∧ m'.numberRequestors = m.numberRequestors ∧
      m'.requestorsMap id =
        (m.requestorsMap id).updated m.isWriteModeFromController m.generalBufferSize ∧
      (∀ id', id' ≠ id → m'.requestorsMap id' = m.requestorsMap id') ∧
      (m.decision id = none → m'.channels = m.channels) := by
  have kept := (sound.requestors id).updated m.isWriteModeFromController m.generalBufferSize
  have requestors : ∀ q, q = (m.requestorsMap id).updated m.isWriteModeFromController
      m.generalBufferSize → ∀ id', (if id' = id then q else m.requestorsMap id').Sound (requests id') := by
    rintro q rfl id'
    split
    · next own => exact own ▸ kept
    · exact sound.requestors id'
  cases decided : m.decision id with
  | none =>
    have same : (m.requestorsMap id).read.endUpdate =
        (m.requestorsMap id).updated m.isWriteModeFromController m.generalBufferSize := by
      unfold decision at decided
      rw [Requestor.updated, decided]
    have updated : m.updateRequestor setup id =
        some (m.setRequestor id (m.requestorsMap id).read.endUpdate) := by
      rw [updateRequestor, decided]
    obtain ⟨agrees, count, number⟩ := updateRequestor_agrees sound.agrees updated
    exact ⟨_, updated, ⟨agrees, sound.able, sound.reading, requestors _ same⟩, count, number,
      (if_pos rfl).trans same, fun id' other => if_neg other, fun _ => rfl⟩
  | some request =>
    have same : ((m.requestorsMap id).read.sent request).endUpdate =
        (m.requestorsMap id).updated m.isWriteModeFromController m.generalBufferSize := by
      unfold decision at decided
      rw [Requestor.updated, decided]
    have mine := sound.agrees.own_decision decided
    have size := ((sound.requestors id).read.2.1 request (Requestor.sends_held decided)).1
    let i := findChannelNumber m.numberChannels request.requestorID
    let c := (m.channels i).arrived (incoming setup (m.channels i) request.requestorID request.address
      (request.requestType == .DATA_READ) request.requestSize) (request.requestType == .DATA_READ)
    have added : m.addRequest setup request = some (m.setChannel i c) := by
      unfold addRequest
      dsimp only
      rw [addRequest_eq open_ (sound.able i).accounted.wired, Option.map_some]
    have able : Able setup c := by
      apply (sound.able i).arrive open_
      · exact fun private_ => mine ▸ bank private_
      · exact size ▸ sized
    have updated : m.updateRequestor setup id = some ((m.setChannel i c).setRequestor id
        ((m.requestorsMap id).read.sent request).endUpdate) := by
      rw [updateRequestor, decided]
      dsimp only
      rw [added, Option.map_some, setChannel_requestorsMap]
    obtain ⟨agrees, count, number⟩ := updateRequestor_agrees sound.agrees updated
    refine ⟨_, updated, ⟨agrees, fun j => ?_, fun j => ?_, requestors _ same⟩, count, number,
      (if_pos rfl).trans same, fun id' other => if_neg other, fun none_ => (nomatch none_)⟩
    · rw [setRequestor_channels, setChannel_channels]
      split
      · exact able
      · exact sound.able j
    · rw [setRequestor_channels, setChannel_channels]
      split
      · exact sound.reading i
      · exact sound.reading j

/-- Callbacks reach requestors only. -/
theorem callBacks_returned (new : List Completion) (called : new.foldlM callBack m = some m') :
    m'.channels = m.channels ∧
      ∀ id, Requestor.Returned (m.requestorsMap id) (m'.requestorsMap id) := by
  induction new generalizing m with
  | nil =>
    obtain rfl := Option.some.inj called
    exact ⟨rfl, fun id => .refl _⟩
  | cons x new ih =>
    rw [List.foldlM_cons] at called
    obtain ⟨m₁, first, later⟩ := Option.bind_eq_some_iff.mp called
    obtain ⟨q, returned, rfl⟩ := Option.map_eq_some_iff.mp first
    obtain ⟨channels, rest⟩ := ih later
    refine ⟨channels, fun id => Requestor.Returned.trans ?_ (rest id)⟩
    rw [setRequestor_requestorsMap]
    split
    · next own => exact own ▸ Requestor.returned_of_returnData returned
    · exact .refl _

/-- What an update of the channels in a list does: each of them has its cycle, once. -/
theorem updateChannels_cases {refreshCheck check : Nat → Answers} (l : List Nat) (nodup : l.Nodup)
    (updated : l.foldlM (updateChannel setup parts refreshCheck check) m = some m') :
    (∀ id, Requestor.Returned (m.requestorsMap id) (m'.requestorsMap id)) ∧
      (∀ i ∈ l, MemorySystem.update setup parts (refreshCheck i) (check i) (m.channels i) =
        some (m'.channels i)) ∧
      ∀ i, i ∉ l → m'.channels i = m.channels i := by
  induction l generalizing m with
  | nil =>
    obtain rfl := Option.some.inj updated
    exact ⟨fun id => .refl _, fun i hi => absurd hi List.not_mem_nil, fun _ _ => rfl⟩
  | cons i l ih =>
    obtain ⟨absent, nodup⟩ := List.nodup_cons.mp nodup
    rw [List.foldlM_cons] at updated
    obtain ⟨m₁, first, later⟩ := Option.bind_eq_some_iff.mp updated
    obtain ⟨c, cycled, called⟩ := Option.bind_eq_some_iff.mp first
    obtain ⟨channels, returned⟩ := callBacks_returned _ called
    obtain ⟨returned', each, others⟩ := ih nodup later
    refine ⟨fun id => (returned id).trans (returned' id), fun j hj => ?_, fun j hj => ?_⟩
    · rcases List.mem_cons.mp hj with rfl | later
      · rw [cycled, others j absent, channels, setChannel_channels, if_pos rfl]
      · have apart : j ≠ i := by
          rintro rfl
          exact absent later
        have here := each j later
        rwa [channels, setChannel_channels, if_neg apart] at here
    · obtain ⟨apart, hj⟩ := not_or.mp (fun h => hj (List.mem_cons.mpr h))
      rw [others j hj, channels, setChannel_channels, if_neg apart]

/-- **An update of the memory** happens, keeps all in order, and is a cycle of every channel. -/
theorem updateMemory_sound (open_ : setup.OpenPage) (opens : parts.OpenPage)
    (eager : parts.commandScheduler.Eager) (delays : Delays setup) (sound : m.Sound setup requests)
    (refreshCheck check : Nat → Answers) :
    ∃ m', m.updateMemory setup parts refreshCheck check = some m' ∧ m'.Sound setup requests ∧
      m'.numberChannels = m.numberChannels ∧ m'.numberRequestors = m.numberRequestors ∧
      (∀ id, Requestor.Returned (m.requestorsMap id) (m'.requestorsMap id)) ∧
      ∀ i < m.numberChannels, MemorySystem.step setup parts (m.channels i)
        (.update (refreshCheck i) (check i)) = some (m'.channels i, ()) := by
  have cycles : ∀ i, ∃ c, MemorySystem.step setup parts (m.channels i)
      (.update (refreshCheck i) (check i)) = some (c, ()) ∧ Able setup c := by
    intro i
    obtain ⟨c, ⟨⟩, stepped, able⟩ := MemorySystem.able_progress open_ opens eager delays
      (e := .update (refreshCheck i) (check i)) (sound.able i) trivial trivial
    exact ⟨c, stepped, able⟩
  have defined : ∀ i ∈ List.range m.numberChannels,
      (MemorySystem.update setup parts (refreshCheck i) (check i) (m.channels i)).isSome = true := by
    intro i _
    obtain ⟨c, stepped, _⟩ := cycles i
    obtain ⟨c', updated, _⟩ := Option.map_eq_some_iff.mp stepped
    rw [updated]
    rfl
  obtain ⟨m', updated⟩ := Option.isSome_iff_exists.mp
    (updateChannels_defined _ List.nodup_range sound.agrees defined)
  obtain ⟨agrees, count, number⟩ := updateChannels_agrees _ sound.agrees updated
  obtain ⟨returned, each, others⟩ := updateChannels_cases _ List.nodup_range updated
  have stepped : ∀ i < m.numberChannels, MemorySystem.step setup parts (m.channels i)
      (.update (refreshCheck i) (check i)) = some (m'.channels i, ()) := by
    intro i hi
    rw [MemorySystem.step, each i (List.mem_range.mpr hi)]
    rfl
  have kept : ∀ i, Able setup (m'.channels i) ∧ (m'.channels i).Reading := by
    intro i
    rcases Nat.lt_or_ge i m.numberChannels with known | other
    · have turn := turn_of_step open_ opens eager (sound.able i).accounted.wired (sound.able i).fits
        (stepped i known)
      exact ⟨turn.able delays (sound.able i),
        turn.reading (sound.able i).accounted.wired (sound.reading i)⟩
    · rw [others i (fun hi => absurd (List.mem_range.mp hi) (by omega))]
      exact ⟨sound.able i, sound.reading i⟩
  exact ⟨m', updated, ⟨agrees, fun i => (kept i).1, fun i => (kept i).2,
    fun id => (returned id).sound (sound.requestors id)⟩, count, number, returned, stepped⟩

end Simulator
end MCsim
