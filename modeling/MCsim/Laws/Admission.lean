import MCsim.Laws.Ledger
import MCsim.Requests.Bliss
import MCsim.Requests.Parbs

/-!
# Admission

A requestor holds its request back while the memory system is in write mode or its general buffer is
full. Both are read from channel 0, whichever channel the requestor's requests go to. Where every
requestor's channel is channel 0, admission depends on nothing else and the buffer is bounded
(`admission_iff`); a requestor of another channel is stopped by a channel it does not use, and is not
stopped by its own.
-/

namespace MCsim

open MemoryController

variable {ρ κ : Type} {setup : Setup} {parts : Components ρ κ}

/-! ## General buffers only shrink in a cycle -/

namespace RequestScheduler

variable {s s' s'' : RequestScheduler}

/-- No general buffer has grown. -/
def Shrinks (s s' : RequestScheduler) : Prop :=
  ∀ i, (s'.requestQueue i).generalBuffer.length ≤ (s.requestQueue i).generalBuffer.length

theorem Shrinks.refl (s : RequestScheduler) : Shrinks s s := fun _ => Nat.le_refl _

theorem Shrinks.trans (h : Shrinks s s') (h' : Shrinks s' s'') : Shrinks s s'' :=
  fun i => Nat.le_trans (h' i) (h i)

theorem Shrinks.setQueue {index : Nat} {q : RequestQueue}
    (smaller : q.generalBuffer.length ≤ (s.requestQueue index).generalBuffer.length) :
    Shrinks s (s.setQueue index q) := by
  intro i
  unfold RequestScheduler.setQueue
  dsimp only
  split
  · next same => exact same ▸ smaller
  · exact Nat.le_refl _

theorem removeRequest_shrinks {q q' : RequestQueue} (h : q.removeRequest = some q') :
    q'.generalBuffer.length ≤ q.generalBuffer.length := by
  unfold RequestQueue.removeRequest at h
  split at h
  · split at h
    · obtain rfl := Option.some.inj h
      exact Nat.le_refl _
    · cases h
  · split at h
    · obtain rfl := Option.some.inj h
      exact List.length_eraseIdx_le ..
    · cases h

/-- A request that is asked for and, once accepted, taken out of its queue; of the row table nothing is
said. -/
theorem schedulable_shrinks {gen : Generator} {index : Nat} {r : Request} {hit accepted : Bool}
    (table : RequestScheduler → RequestScheduler)
    (kept : ∀ s : RequestScheduler, (table s).requestQueue = s.requestQueue)
    (h : ((s.isSchedulable gen r hit).bind fun (s, accepted) =>
      if accepted then
        (s.requestQueue index).removeRequest.map fun q => ((table s).setQueue index q, true)
      else some (s, false)) = some (s', accepted)) : Shrinks s s' := by
  obtain ⟨⟨s₁, accepted₁⟩, scheduled, h⟩ := Option.bind_eq_some_iff.mp h
  obtain ⟨⟨g, answer⟩, _, out⟩ := Option.map_eq_some_iff.mp scheduled
  obtain ⟨rfl, rfl⟩ := Prod.mk.inj out
  dsimp only at h
  split at h
  · obtain ⟨q, removed, out⟩ := Option.map_eq_some_iff.mp h
    obtain ⟨rfl, _⟩ := Prod.mk.inj out
    have same : Shrinks s (table { s with commandGenerator := g }) :=
      fun i => Nat.le_of_eq (by rw [kept])
    exact same.trans (Shrinks.setQueue (by rw [kept]; exact removeRequest_shrinks removed))
  · obtain ⟨rfl, _⟩ := Prod.mk.inj (Option.some.inj h)
    exact Shrinks.refl s

/-- Serving a request removes it at most. -/
theorem serve_shrinks {gen : Generator} {index : Nat} {r : Request} {accepted : Bool}
    (h : s.serve gen index r = some (s', accepted)) : Shrinks s s' :=
  schedulable_shrinks (fun s => s.updateRowTable r.addressMap.rank r.addressMap.bank r.row)
    (fun _ => rfl) h

theorem serveOwn_shrinks {gen : Generator} {index : Nat} {r : Request} {accepted : Bool}
    (h : s.serveOwn gen index r = some (s', accepted)) : Shrinks s s' :=
  schedulable_shrinks (fun s => s.updateRowTable r.rank r.bank r.row) (fun _ => rfl) h

end RequestScheduler

open RequestScheduler

/-- A request scheduler that adds to no general buffer: it takes requests out of its queues, and only
`MemoryController::addRequest` puts them in. -/
def RequestPolicy.OnlyRemoves (policy : RequestPolicy ρ) : Prop :=
  ∀ {gen : Generator} {s s' : RequestScheduler} {priv priv' : ρ},
    policy.requestSchedule gen s priv = some (s', priv') → Shrinks s s'

/-- A loop whose turns shrink shrinks. -/
theorem foldlM_shrinks {α β : Type} {turn : α → β → Option α} (scheduler : α → RequestScheduler)
    (shrinks : ∀ {a a' b}, turn a b = some a' → Shrinks (scheduler a) (scheduler a')) {l : List β}
    {a a' : α} (h : l.foldlM turn a = some a') : Shrinks (scheduler a) (scheduler a') :=
  Lib.Machine.foldlM_within (fun a a' => Shrinks (scheduler a) (scheduler a'))
    (fun a => Shrinks.refl (scheduler a)) Shrinks.trans shrinks h

/-- What a general buffer hands out leaves it as it is. -/
theorem RequestQueue.getRequest_generalBuffer {q q' : RequestQueue} {i : Nat}
    {request : Option Request} (h : q.getRequest i = some (request, q')) :
    q'.generalBuffer = q.generalBuffer := by
  unfold RequestQueue.getRequest at h
  split at h
  · obtain ⟨_, rfl⟩ : _ ∧ _ := by simpa using h
    rfl
  · obtain ⟨r, _, out⟩ := Option.map_eq_some_iff.mp h
    obtain ⟨_, rfl⟩ : _ ∧ _ := by simpa using out
    rfl

theorem RequestQueue.getRequestOf_generalBuffer {q q' : RequestQueue} {i j : Nat}
    {request : Option Request} (h : q.getRequestOf i j = some (request, q')) :
    q'.generalBuffer = q.generalBuffer := by
  obtain ⟨id, _, h⟩ := Option.bind_eq_some_iff.mp h
  split at h
  · obtain ⟨_, rfl⟩ : _ ∧ _ := by simpa using h
    rfl
  · obtain ⟨r, _, out⟩ := Option.map_eq_some_iff.mp h
    obtain ⟨_, rfl⟩ : _ ∧ _ := by simpa using out
    rfl

/-- A request handed out of a queue and served. -/
theorem handed_shrinks {s s' : RequestScheduler} {gen : Generator} {index : Nat} {q : RequestQueue}
    {r : Request} {accepted : Bool}
    (same : q.generalBuffer = (s.requestQueue index).generalBuffer)
    (h : (s.setQueue index q).serve gen index r = some (s', accepted)) : Shrinks s s' :=
  (Shrinks.setQueue (Nat.le_of_eq (by rw [same]))).trans (serve_shrinks h)

/-- A turn of a loop over general queues: what its queue hands out is served. -/
theorem general_shrinks {s s' : RequestScheduler} {gen : Generator} {index i : Nat}
    (h : (((s.requestQueue index).getRequest i).bind fun (request, q) =>
      match request with
      | none => some (s.setQueue index q)
      | some request => ((s.setQueue index q).serve gen index request).map (·.1)) = some s') :
    Shrinks s s' := by
  obtain ⟨⟨request, q⟩, found, h⟩ := Option.bind_eq_some_iff.mp h
  have same := RequestQueue.getRequest_generalBuffer found
  cases request with
  | none =>
    obtain rfl := Option.some.inj h
    exact Shrinks.setQueue (Nat.le_of_eq (by rw [same]))
  | some r =>
    obtain ⟨⟨s₁, accepted⟩, served, rfl⟩ := Option.map_eq_some_iff.mp h
    exact handed_shrinks same served

theorem RequestFrfcfs.policy_onlyRemoves : RequestFrfcfs.policy.OnlyRemoves := by
  intro gen s s' _ _ h
  obtain ⟨s₁, scheduled, out⟩ := Option.map_eq_some_iff.mp h
  obtain ⟨rfl, _⟩ := Prod.mk.inj out
  refine foldlM_shrinks id ?_ scheduled
  intro s s' index turned
  unfold RequestFrfcfs.scheduleQueue at turned
  split at turned
  · exact general_shrinks turned
  · obtain rfl := Option.some.inj turned
    exact Shrinks.refl _

theorem RequestFcfs.policy_onlyRemoves : RequestFcfs.policy.OnlyRemoves := by
  intro gen s s' _ _ h
  obtain ⟨s₁, scheduled, out⟩ := Option.map_eq_some_iff.mp h
  obtain ⟨⟨s₂, check⟩, looped, rfl⟩ := Option.map_eq_some_iff.mp scheduled
  obtain ⟨rfl, _⟩ := Prod.mk.inj out
  refine foldlM_shrinks Prod.fst ?_ looped
  rintro ⟨s, check⟩ ⟨s', check'⟩ index turned
  unfold RequestFcfs.scheduleQueue at turned
  split at turned
  · unfold RequestFcfs.scheduleRequestors at turned
    dsimp only at turned
    split at turned
    · obtain ⟨rfl, _⟩ := Prod.mk.inj (Option.some.inj turned)
      exact Shrinks.refl _
    · obtain ⟨⟨request, q⟩, found, turned⟩ := Option.bind_eq_some_iff.mp turned
      obtain ⟨r, _, turned⟩ := Option.bind_eq_some_iff.mp turned
      obtain ⟨⟨s₁, accepted⟩, served, out⟩ := Option.map_eq_some_iff.mp turned
      obtain ⟨rfl, _⟩ := Prod.mk.inj out
      exact handed_shrinks (RequestQueue.getRequestOf_generalBuffer found) served
  · obtain ⟨s₁, general, out⟩ := Option.map_eq_some_iff.mp turned
    obtain ⟨rfl, _⟩ := Prod.mk.inj out
    unfold RequestFcfs.scheduleGeneral at general
    split at general
    · exact general_shrinks general
    · obtain rfl := Option.some.inj general
      exact Shrinks.refl _

/-- What `scheduleBLISS` hands out stays where it is until it is served. -/
theorem Bliss.scheduleBLISS_generalBuffer {blacklist : Nat → Int} {left : Uninitialized}
    {s : RequestScheduler} {index : Nat} {q : RequestQueue} {request : Option Request}
    (h : Bliss.scheduleBLISS blacklist left s index = some (request, q)) :
    q.generalBuffer = (s.requestQueue index).generalBuffer := by
  unfold Bliss.scheduleBLISS at h
  dsimp only at h
  split at h
  · obtain ⟨_, rfl⟩ : _ ∧ _ := by simpa using h
    rfl
  · exact RequestQueue.getRequest_generalBuffer h

theorem Bliss.policy_onlyRemoves (requestors : Nat) (left : BlissState → Nat → Uninitialized) :
    (Bliss.policy requestors left).OnlyRemoves := by
  intro gen s s' _ _ h
  obtain ⟨⟨s₁, p₁, handed⟩, scheduled, out⟩ := Option.map_eq_some_iff.mp h
  obtain ⟨rfl, _⟩ := Prod.mk.inj out
  refine foldlM_shrinks Prod.fst ?_ scheduled
  rintro ⟨s, p, handed⟩ ⟨s', p', handed'⟩ index turned
  unfold Bliss.scheduleQueue at turned
  dsimp only at turned
  split at turned
  · obtain ⟨⟨request, q⟩, found, turned⟩ := Option.bind_eq_some_iff.mp turned
    have kept : Shrinks s (s.setQueue index q) :=
      Shrinks.setQueue (Nat.le_of_eq (by rw [Bliss.scheduleBLISS_generalBuffer found]))
    cases request with
    | none =>
      obtain ⟨rfl, _⟩ := Prod.mk.inj (Option.some.inj turned)
      exact kept
    | some r =>
      obtain ⟨⟨s₁, accepted⟩, served, out⟩ := Option.map_eq_some_iff.mp turned
      obtain ⟨rfl, _⟩ := Prod.mk.inj out
      exact kept.trans (serveOwn_shrinks served)
  · obtain ⟨rfl, _⟩ := Prod.mk.inj (Option.some.inj turned)
    exact Shrinks.refl s

theorem Parbs.policy_onlyRemoves (requestors : Nat) : (Parbs.policy requestors).OnlyRemoves := by
  intro gen s s' p _ h
  obtain ⟨⟨s₁, p₁, handed⟩, scheduled, out⟩ := Option.map_eq_some_iff.mp h
  obtain ⟨rfl, _⟩ := Prod.mk.inj out
  obtain ⟨batch, _, scheduled⟩ := Option.bind_eq_some_iff.mp scheduled
  split at scheduled
  · obtain ⟨rfl, _⟩ := Prod.mk.inj (Option.some.inj scheduled)
    exact Shrinks.refl s
  · obtain ⟨⟨request, q⟩, found, scheduled⟩ := Option.bind_eq_some_iff.mp scheduled
    obtain ⟨r, _, scheduled⟩ := Option.bind_eq_some_iff.mp scheduled
    obtain ⟨⟨s₂, accepted⟩, served, out⟩ := Option.map_eq_some_iff.mp scheduled
    have kept : Shrinks s (s.setQueue 0 q) :=
      Shrinks.setQueue (Nat.le_of_eq (by rw [RequestQueue.getRequest_generalBuffer found]))
    have served' : Shrinks s s₂ := kept.trans (serveOwn_shrinks served)
    cases accepted <;> (obtain ⟨rfl, _⟩ := Prod.mk.inj out; exact served')

namespace MemoryController

variable {c c' : MemoryController ρ κ}

theorem assignSize_shrinks (c : MemoryController ρ κ) (handle n : Nat) :
    Shrinks c.requestScheduler (c.assignSize handle n).requestScheduler := by
  intro i
  apply Nat.le_of_eq
  show (Request.assignSize handle n _).length = _
  unfold Request.assignSize
  rw [List.length_map]

theorem deliver_shrinks (setup : Setup) (isRead : Bool) (c : MemoryController ρ κ) (p : BusPacket) :
    Shrinks c.requestScheduler (deliver setup isRead c p).requestScheduler := by
  unfold deliver
  split
  · exact Shrinks.refl _
  · split
    · exact Shrinks.refl _
    · split
      · cases isRead <;> exact Shrinks.refl _
      · exact assignSize_shrinks c _ _

theorem endCycle_shrinks (setup : Setup) (c : MemoryController ρ κ) (out : Option BusPacket) :
    Shrinks c.requestScheduler (endCycle setup c out).requestScheduler := by
  have queued : Shrinks c.requestScheduler (queueWriteData setup c out).requestScheduler := by
    unfold queueWriteData
    split
    · exact Shrinks.refl _
    · split <;> exact Shrinks.refl _
  apply queued.trans
  show Shrinks _ (sendWriteData setup _).requestScheduler
  unfold sendWriteData
  dsimp only
  split
  · split
    · exact Shrinks.refl _
    · exact deliver_shrinks setup false _ _
  · exact Shrinks.refl _

theorem enqueueAll_shrinks (h : enqueueAll setup c = some c') :
    Shrinks c.requestScheduler c'.requestScheduler := by
  obtain ⟨c₁, queued, rfl⟩ := Option.map_eq_some_iff.mp h
  refine (foldlM_shrinks MemoryController.requestScheduler ?_ queued).trans (Shrinks.refl _)
  intro c c' command entered
  unfold enqueueCommand at entered
  dsimp only at entered
  split at entered
  · obtain rfl := Option.some.inj entered
    exact Shrinks.refl _
  · cases entered

/-- **A cycle of the memory system** adds to no general buffer. -/
theorem update_shrinks (removes : parts.requestScheduler.OnlyRemoves) {refreshCheck check : Answers}
    (h : MemorySystem.update setup parts refreshCheck check c = some c') :
    Shrinks c.requestScheduler c'.requestScheduler := by
  obtain ⟨c₃, cycled, rfl⟩ := Option.map_eq_some_iff.mp h
  obtain ⟨⟨rs, priv⟩, scheduled, cycled⟩ := Option.bind_eq_some_iff.mp cycled
  obtain ⟨c₁, queued, cycled⟩ := Option.bind_eq_some_iff.mp cycled
  obtain ⟨⟨cs, priv', out⟩, _, rfl⟩ := Option.map_eq_some_iff.mp cycled
  have handed : Shrinks c.requestScheduler rs := removes scheduled
  have entered : Shrinks rs c₁.requestScheduler := enqueueAll_shrinks queued
  have ended : Shrinks c₁.requestScheduler _ :=
    endCycle_shrinks setup { c₁ with commandScheduler := cs, commandPrivate := priv' } out
  apply ((handed.trans entered).trans ended).trans
  unfold MemorySystem.deviceUpdate
  dsimp only
  split
  · exact Shrinks.refl _
  · exact deliver_shrinks setup true _ _

/-- A request that arrives adds one to the general buffer of one queue. -/
theorem addRequest_grows {requestorID address : Nat} {R_W : Bool} {size : Nat}
    (h : c.addRequest setup requestorID address R_W size = some c') (i : Nat) :
    (c'.requestScheduler.requestQueue i).generalBuffer.length ≤
      (c.requestScheduler.requestQueue i).generalBuffer.length + 1 := by
  have inserted : ∀ (q : RequestQueue) (r : Request),
      (q.insertRequest r).generalBuffer.length ≤ q.generalBuffer.length + 1 := by
    intro q r
    unfold RequestQueue.insertRequest
    split
    · exact Nat.le_succ _
    · split
      · exact Nat.le_succ _
      · simp
  unfold addRequest at h
  dsimp only at h
  split at h
  · obtain rfl := Option.some.inj h
    dsimp only [RequestScheduler.setQueue]
    split
    · next same => exact same ▸ inserted _ _
    · exact Nat.le_succ _
  · cases h

end MemoryController

namespace Simulator

variable {m m' : Simulator ρ κ}

/-! ## One channel for every requestor -/

/-- Admission of a requestor is isolated: in any two states that agree on the requestor and on its
channel, its next update makes the same decision. -/
def AdmissionIsolated (ρ κ : Type) (numberChannels id : Nat) : Prop :=
  ∀ m m' : Simulator ρ κ, m.numberChannels = numberChannels → m'.numberChannels = numberChannels →
    m.requestorsMap id = m'.requestorsMap id →
    m.channels (findChannelNumber numberChannels id) = m'.channels (findChannelNumber numberChannels id) →
    m.decision id = m'.decision id

/-- The general buffer of a channel. -/
def generalBuffer (m : Simulator ρ κ) (i : Nat) : List Request :=
  ((m.channels i).requestScheduler.requestQueue 0).generalBuffer

/-- What a channel's general buffer may hold where every requestor sends to channel 0: as much as a
requestor is let in at, and nothing in the others. -/
def allowance (i : Nat) : Nat := if i = 0 then Requestor.RequestBufferSize + 1 else 0

/-- Every channel keeps within its allowance. -/
def Within (m : Simulator ρ κ) : Prop := ∀ i, (m.generalBuffer i).length ≤ allowance i

/-- A channel whose queues shrank stays within its allowance. -/
theorem Within.setChannel (h : m.Within) {i : Nat} {c : MemoryController ρ κ}
    (shrinks : Shrinks (m.channels i).requestScheduler c.requestScheduler) :
    (m.setChannel i c).Within := by
  intro j
  unfold generalBuffer
  rw [setChannel_channels]
  split
  · next same => exact Nat.le_trans (shrinks 0) (same ▸ h i)
  · exact h j

theorem updateChannels_within (removes : parts.requestScheduler.OnlyRemoves)
    {refreshCheck check : Nat → Answers} (l : List Nat) (agrees : m.Agrees) (h : m.Within)
    (updated : l.foldlM (updateChannel setup parts refreshCheck check) m = some m') : m'.Within := by
  induction l generalizing m with
  | nil =>
    obtain rfl := Option.some.inj updated
    exact h
  | cons i l ih =>
    rw [List.foldlM_cons] at updated
    obtain ⟨m₁, first, later⟩ := Option.bind_eq_some_iff.mp updated
    obtain ⟨c, cycled, _⟩ := Option.bind_eq_some_iff.mp first
    obtain ⟨m₂, same, agrees', channels, _⟩ := updateChannel_agrees agrees cycled
    obtain rfl := Option.some.inj (same.symm.trans first)
    refine ih agrees' ?_ later
    have kept := h.setChannel (update_shrinks removes cycled)
    unfold Within generalBuffer at *
    rw [channels]
    exact kept

/-- A requestor of channel 0 is let in while channel 0 is not full. -/
theorem updateRequestor_within {id : Nat} (agrees : m.Agrees)
    (first : findChannelNumber m.numberChannels id = 0) (h : m.Within)
    (updated : m.updateRequestor setup id = some m') : m'.Within := by
  unfold updateRequestor at updated
  split at updated
  · next request decided =>
    obtain ⟨m₁, added, rfl⟩ := Option.map_eq_some_iff.mp updated
    obtain ⟨c, inserted, rfl⟩ := Option.map_eq_some_iff.mp added
    have mine : request.requestorID = id := agrees.own_decision decided
    have room : m.generalBufferSize ≤ Requestor.RequestBufferSize := by
      have passed := Option.filter_eq_some_iff.mp decided
      simp only [Bool.and_eq_true, decide_eq_true_eq] at passed
      exact passed.2.1.2
    rw [mine, first] at inserted ⊢
    intro i
    show ((m.setChannel 0 c).generalBuffer i).length ≤ allowance i
    unfold generalBuffer
    rw [setChannel_channels]
    split
    · next here =>
      subst here
      exact Nat.le_trans (addRequest_grows inserted 0) (Nat.succ_le_succ room)
    · exact h i
  · obtain rfl := Option.some.inj updated
    exact h

/-- **Where every requestor's channel is channel 0**, every run keeps every channel within its
allowance. -/
theorem run_within (removes : parts.requestScheduler.OnlyRemoves)
    {refreshCounting bank_release : Nat → Nat} {numberChannels numberRequestors : Nat}
    (first : ∀ r < numberRequestors, findChannelNumber numberChannels r = 0) {inOrder : Nat → Bool}
    {traces : Nat → List (Option TraceLine)} {events : List SimulatorEvent} {told : List Unit}
    (ran : Lib.Machine.run (step setup parts) (create setup parts refreshCounting bank_release
      numberChannels numberRequestors inOrder traces) events = some (m, told)) : m.Within := by
  have kept : (m.Agrees ∧ m.numberChannels = numberChannels ∧ m.numberRequestors = numberRequestors) ∧
      m.Within := by
    refine Lib.Machine.run_invariant
      (fun m : Simulator ρ κ => (m.Agrees ∧ m.numberChannels = numberChannels ∧
        m.numberRequestors = numberRequestors) ∧ m.Within) ?_
      ⟨⟨agrees_create setup parts refreshCounting bank_release numberChannels numberRequestors inOrder
        traces, rfl, rfl⟩, fun _ => Nat.zero_le _⟩ ran
    rintro m event m' ⟨⟩ ⟨⟨agrees, count, requestors⟩, within⟩ stepped
    obtain ⟨agrees', count', requestors'⟩ := step_agrees agrees stepped
    refine ⟨⟨agrees', count'.trans count, requestors'.trans requestors⟩, ?_⟩
    cases event with
    | requestor id =>
      simp only [step] at stepped
      split at stepped
      · next known =>
        obtain ⟨m₁, updated, out⟩ := Option.map_eq_some_iff.mp stepped
        obtain ⟨rfl, _⟩ : _ ∧ _ := Prod.mk.inj out
        exact updateRequestor_within agrees (count ▸ first id (requestors ▸ known)) within updated
      · cases stepped
    | memory refreshCheck check =>
      obtain ⟨m₁, updated, out⟩ := Option.map_eq_some_iff.mp stepped
      obtain ⟨rfl, _⟩ : _ ∧ _ := Prod.mk.inj out
      exact updateChannels_within removes _ agrees within updated
  exact kept.2

/-! ## Other channels -/

/-- A requestor of channel 0 reads what it is let in by from its own channel. -/
theorem isolated_of_first {numberChannels id : Nat}
    (first : findChannelNumber numberChannels id = 0) : AdmissionIsolated ρ κ numberChannels id := by
  intro m m' _ _ requestor channel
  rw [first] at channel
  unfold decision isWriteModeFromController generalBufferSize
  rw [requestor, channel]

/-- The simulator with each requestor about to read one address, out of order. -/
def readers (setup : Setup) (parts : Components ρ κ) (numberChannels numberRequestors : Nat) :
    Simulator ρ κ :=
  create setup parts (fun _ => 0) (fun _ => 0) numberChannels numberRequestors (fun _ => false) oneRead

/-- The same with the general buffer of channel 0 full. -/
def firstFull (setup : Setup) (parts : Components ρ κ) (numberChannels numberRequestors : Nat) :
    Simulator ρ κ :=
  let m := readers setup parts numberChannels numberRequestors
  let c := m.channels 0
  let request : Request :=
    { handle := 0, requestType := .DATA_READ, requestorID := 0, requestSize := 64, address := 0,
      arriveTime := 0 }
  m.setChannel 0 { c with
    requestScheduler := c.requestScheduler.setQueue 0
      { c.requestScheduler.requestQueue 0 with
        generalBuffer := List.replicate (Requestor.RequestBufferSize + 1) request } }

/-- A requestor of another channel is stopped by what it does not use. -/
theorem not_isolated (setup : Setup) (parts : Components ρ κ) {numberChannels : Nat}
    (several : 2 ≤ numberChannels) : ¬ AdmissionIsolated ρ κ numberChannels 1 := by
  intro isolated
  have second : findChannelNumber numberChannels 1 = 1 := by
    unfold findChannelNumber
    rw [if_neg (by omega), Nat.mod_eq_of_lt (by omega)]
  have same := isolated (readers setup parts numberChannels 2)
    (firstFull setup parts numberChannels 2) rfl rfl rfl (by rw [second]; rfl)
  have let_in : ((readers setup parts numberChannels 2).decision 1).isSome = true := rfl
  have stopped : ((firstFull setup parts numberChannels 2).decision 1).isSome = false := rfl
  rw [same, stopped] at let_in
  cases let_in

/-- **When channels do not interfere through admission.** With any request scheduler that only takes
requests out of its queues, every requestor's admission is isolated and every run of out-of-order
requestors keeps every general buffer within `RequestBufferSize + 1`, exactly when every requestor
uses channel 0: there is one channel, or at most one requestor. -/
theorem admission_iff (setup : Setup) (parts : Components ρ κ)
    (removes : parts.requestScheduler.OnlyRemoves) {numberChannels : Nat} (numberRequestors : Nat)
    (some_channel : 0 < numberChannels) :
    ((∀ r < numberRequestors, AdmissionIsolated ρ κ numberChannels r) ∧
      ∀ (refreshCounting bank_release : Nat → Nat) (traces : Nat → List (Option TraceLine))
        (events : List SimulatorEvent) (m : Simulator ρ κ) (told : List Unit),
        Lib.Machine.run (step setup parts) (create setup parts refreshCounting bank_release
          numberChannels numberRequestors (fun _ => false) traces) events = some (m, told) →
        ∀ i < numberChannels, (m.generalBuffer i).length ≤ Requestor.RequestBufferSize + 1) ↔
    numberChannels = 1 ∨ numberRequestors ≤ 1 := by
  constructor
  · rintro ⟨isolated, _⟩
    rcases Nat.lt_or_ge 1 numberChannels with several | one
    · refine .inr (Nat.le_of_not_lt fun two => ?_)
      exact not_isolated setup parts several (isolated 1 two)
    · exact .inl (by omega)
  · intro alone
    have first : ∀ r < numberRequestors, findChannelNumber numberChannels r = 0 := by
      intro r known
      unfold findChannelNumber
      split
      · rfl
      · obtain rfl : r = 0 := by omega
        exact Nat.zero_mod _
    refine ⟨fun r known => isolated_of_first (first r known), ?_⟩
    intro refreshCounting bank_release traces events m told ran i _
    apply Nat.le_trans (run_within removes first ran i)
    unfold allowance
    split
    · exact Nat.le_refl _
    · exact Nat.zero_le _

/-- Each requestor reads 33 addresses, one after the other. -/
def manyReads : Nat → List (Option TraceLine) := fun id =>
  (List.range 33).map fun n =>
    some { addr := 64 * (33 * id + n), requestType := .DATA_READ, compDelay := 0 }

/-- Requestor 1 fills its channel and requestor 3 sends one request more. -/
def twoOnOne : List SimulatorEvent := List.replicate 33 (.requestor 1) ++ [.requestor 3]

/-- The law with one channel and four requestors: each is let in by its own channel, and requestor 3 is
held back where requestor 1 has filled the buffer. -/
theorem admission_iff_oneChannel :
    (∀ r < 4, AdmissionIsolated Unit Unit 1 r) ∧
      ∃ m told, Lib.Machine.run (step openPageSetup frfcfsIni)
        (create openPageSetup frfcfsIni (fun _ => 0) (fun _ => 0) 1 4 (fun _ => false) manyReads)
        twoOnOne = some (m, told) ∧ (m.generalBuffer 0).length = Requestor.RequestBufferSize + 1 := by
  obtain ⟨isolated, bounded⟩ := (admission_iff openPageSetup frfcfsIni
    RequestFrfcfs.policy_onlyRemoves 4 (by decide : 0 < 1)).mpr (.inl rfl)
  obtain ⟨m, told, ran, full⟩ := Lib.Machine.run_exists (step openPageSetup frfcfsIni)
    (fun m => Requestor.RequestBufferSize + 1 ≤ (m.generalBuffer 0).length)
    (create openPageSetup frfcfsIni (fun _ => 0) (fun _ => 0) 1 4 (fun _ => false) manyReads) twoOnOne
    (by decide +kernel)
  have within : (m.generalBuffer 0).length ≤ Requestor.RequestBufferSize + 1 :=
    bounded (fun _ => 0) (fun _ => 0) manyReads twoOnOne m told ran 0 Nat.one_pos
  exact ⟨isolated, m, told, ran, Nat.le_antisymm within full⟩

/-- With two channels, requestor 1 is stopped by what only channel 0 holds, and requestors 1 and 3
fill channel 1 beyond the bound while channel 0 is empty. -/
theorem admission_twoChannels :
    ¬ AdmissionIsolated Unit Unit 2 1 ∧
    ∃ m told, Lib.Machine.run (step openPageSetup frfcfsIni)
        (create openPageSetup frfcfsIni (fun _ => 0) (fun _ => 0) 2 4 (fun _ => false) manyReads)
        twoOnOne = some (m, told) ∧ Requestor.RequestBufferSize + 1 < (m.generalBuffer 1).length := by
  refine ⟨not_isolated openPageSetup frfcfsIni (Nat.le_refl 2), ?_⟩
  exact Lib.Machine.run_exists (step openPageSetup frfcfsIni)
    (fun m => Requestor.RequestBufferSize + 1 < (m.generalBuffer 1).length) _ twoOnOne
    (by decide +kernel)

end Simulator
end MCsim
