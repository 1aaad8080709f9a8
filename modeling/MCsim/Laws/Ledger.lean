import MCsim.Laws.Controller
import MCsim.MultiChannel
import MCsim.Setups

/-!
# What is outstanding

A controller keeps the requests it has not completed in two lists, by direction; a requestor keeps its
own in one, by address alone. The ledger law (`Clears`): whatever a controller does in a cycle, the
addresses it had outstanding for a requestor are those it reports complete and those it has left. So a
reported address is always among the requestor's, the requestor drops one of that address, and the two
records agree again (`Agrees`).
-/

namespace MCsim

open MemoryController

variable {ρ κ : Type} {setup : Setup} {parts : Components ρ κ}

namespace MemoryController

/-- The addresses a controller has outstanding for a requestor. -/
def outstanding (c : MemoryController ρ κ) (r : Nat) : List Nat :=
  ((c.pendingReadRequest ++ c.pendingWriteRequest).filter fun x => x.requestorID = r).map (·.address)

/-- The addresses that a list of completions reports to a requestor. -/
def reported (l : List Completion) (r : Nat) : List Nat :=
  (l.filter fun x => x.request.requestorID = r).map (·.request.address)

/-- From one state to another, the outstanding addresses are those reported in between and those
left. -/
def Clears (c c' : MemoryController ρ κ) : Prop :=
  ∃ new, c'.callbacks = c.callbacks ++ new ∧
    ∀ r, (c.outstanding r).Perm (reported new r ++ c'.outstanding r)

variable {c c' c'' : MemoryController ρ κ}

/-- What touches neither the pending lists nor the log clears nothing. -/
theorem Clears.of_eq (reads : c'.pendingReadRequest = c.pendingReadRequest)
    (writes : c'.pendingWriteRequest = c.pendingWriteRequest) (log : c'.callbacks = c.callbacks) :
    Clears c c' := by
  refine ⟨[], by simp [log], fun r => ?_⟩
  simp [reported, outstanding, reads, writes]

theorem Clears.trans (h : Clears c c') (h' : Clears c' c'') : Clears c c'' := by
  obtain ⟨new, log, books⟩ := h
  obtain ⟨new', log', books'⟩ := h'
  refine ⟨new ++ new', by rw [log', log, List.append_assoc], fun r => ?_⟩
  have joined : reported (new ++ new') r = reported new r ++ reported new' r := by simp [reported]
  rw [joined, List.append_assoc]
  exact (books r).trans ((books' r).append_left _)

/-- Counting a size down leaves requestor and address alone. -/
theorem outstanding_assignSize (c : MemoryController ρ κ) (handle n r : Nat) :
    (c.assignSize handle n).outstanding r = c.outstanding r := by
  have same : ∀ l : List Request, ((Request.assignSize handle n l).filter
      fun x => x.requestorID = r).map (·.address) =
      (l.filter fun x => x.requestorID = r).map (·.address) := by
    intro l
    induction l with
    | nil => rfl
    | cons x l ih =>
      have tail : Request.assignSize handle n (x :: l) =
          (if x.handle = handle then { x with requestSize := n } else x) ::
            Request.assignSize handle n l := rfl
      rw [tail]
      by_cases this : x.handle = handle <;> by_cases own : x.requestorID = r <;>
        simp [this, own, ih]
  simp only [outstanding, assignSize, List.filter_append, List.map_append, same]

/-- The pending request at a position, taken out. -/
theorem outstanding_erase (c : MemoryController ρ κ) {isRead : Bool} {index : Nat} {x : Request}
    (found : (c.pending isRead)[index]? = some x) (r : Nat) :
    (c.outstanding r).Perm ((if x.requestorID = r then [x.address] else []) ++
      (setPending isRead c ((c.pending isRead).eraseIdx index)).outstanding r) := by
  have picked : ∀ l : List Request, ((x :: l).filter fun x => x.requestorID = r).map (·.address) =
      (if x.requestorID = r then [x.address] else []) ++
        (l.filter fun x => x.requestorID = r).map (·.address) := by
    intro l
    split
    · next own => simp [own]
    · next other => simp [other]
  have seen := ((pending_erase c found).filter fun x => x.requestorID = r).map (·.address)
  rw [picked] at seen
  exact seen

/-- **A packet of data** completes a request, counts one down or matches none. -/
theorem deliver_clears (setup : Setup) (isRead : Bool) (c : MemoryController ρ κ) (p : BusPacket) :
    Clears c (deliver setup isRead c p) := by
  unfold deliver
  split
  · exact .of_eq rfl rfl rfl
  · next index _ =>
    split
    · exact .of_eq rfl rfl rfl
    · next x found =>
      split
      · refine ⟨[{ request := x, packet := p }], ?_, fun r => ?_⟩
        · cases isRead <;> rfl
        · have taken := outstanding_erase c found r
          have one : reported [{ request := x, packet := p }] r =
              if x.requestorID = r then [x.address] else [] := by
            by_cases own : x.requestorID = r <;> simp [reported, own]
          rw [one]
          cases isRead <;> exact taken
      · refine ⟨[], by simp [assignSize], fun r => ?_⟩
        rw [outstanding_assignSize]
        rfl

theorem sendWriteData_clears (setup : Setup) (c : MemoryController ρ κ) :
    Clears c (sendWriteData setup c) := by
  unfold sendWriteData
  dsimp only
  split
  · split
    · exact .of_eq rfl rfl rfl
    · next p rest _ =>
      have sent : Clears c (sendData setup c p) :=
        (Clears.of_eq rfl rfl rfl).trans (deliver_clears setup false _ p)
      exact sent.trans (.of_eq rfl rfl rfl)
  · exact .of_eq rfl rfl rfl

theorem endCycle_clears (setup : Setup) (c : MemoryController ρ κ) (out : Option BusPacket) :
    Clears c (endCycle setup c out) := by
  have queued : Clears c (queueWriteData setup c out) := by
    unfold queueWriteData
    split
    · exact .of_eq rfl rfl rfl
    · split <;> exact .of_eq rfl rfl rfl
  exact (queued.trans (sendWriteData_clears setup _)).trans (.of_eq rfl rfl rfl)

theorem enqueueAll_clears (h : enqueueAll setup c = some c') : Clears c c' := by
  have each : ∀ (l : List BusPacket) (c c' : MemoryController ρ κ),
      l.foldlM (enqueueCommand setup) c = some c' → Clears c c' := by
    intro l
    induction l with
    | nil =>
      intro c c' h
      obtain rfl := Option.some.inj h
      exact .of_eq rfl rfl rfl
    | cons p l ih =>
      intro c c' h
      rw [List.foldlM_cons] at h
      obtain ⟨c₁, first, later⟩ := Option.bind_eq_some_iff.mp h
      refine Clears.trans ?_ (ih c₁ c' later)
      unfold enqueueCommand at first
      dsimp only at first
      split at first
      · obtain rfl := Option.some.inj first
        exact .of_eq rfl rfl rfl
      · cases first
  obtain ⟨c₁, queued, rfl⟩ := Option.map_eq_some_iff.mp h
  exact (each _ _ _ queued).trans (.of_eq rfl rfl rfl)

/-- **A cycle of the memory system** clears what it reports, whatever the schedulers do. -/
theorem update_clears {refreshCheck check : Answers}
    (h : MemorySystem.update setup parts refreshCheck check c = some c') : Clears c c' := by
  obtain ⟨c₃, cycled, rfl⟩ := Option.map_eq_some_iff.mp h
  obtain ⟨⟨rs, priv⟩, _, cycled⟩ := Option.bind_eq_some_iff.mp cycled
  obtain ⟨c₁, queued, cycled⟩ := Option.bind_eq_some_iff.mp cycled
  obtain ⟨⟨cs, priv', out⟩, _, rfl⟩ := Option.map_eq_some_iff.mp cycled
  have handed : Clears c { c with requestScheduler := rs, requestPrivate := priv } :=
    .of_eq rfl rfl rfl
  have called : Clears c₁ { c₁ with commandScheduler := cs, commandPrivate := priv' } :=
    .of_eq rfl rfl rfl
  refine (((handed.trans (enqueueAll_clears queued)).trans called).trans
    (endCycle_clears setup _ out)).trans ?_
  unfold MemorySystem.deviceUpdate
  dsimp only
  split
  · exact .of_eq rfl rfl rfl
  · exact (Clears.of_eq rfl rfl rfl).trans (deliver_clears setup true _ _)

/-- A request that arrives is outstanding for its requestor. -/
theorem addRequest_outstanding {requestorID address : Nat} {R_W : Bool} {size : Nat}
    (h : c.addRequest setup requestorID address R_W size = some c') (r : Nat) :
    (c'.outstanding r).Perm ((if requestorID = r then [address] else []) ++ c.outstanding r) := by
  obtain ⟨_, _, sameID, _, sameAddress, _⟩ := AddressMapping.same_addressMapping setup.build
    (AddressMapping.decodeIndex setup.format setup.memTable)
    { handle := c.nextHandle, requestType := if R_W then .DATA_READ else .DATA_WRITE,
      requestorID := requestorID, requestSize := size, address := address,
      arriveTime := c.clockCycle % 2 ^ 32 }
  have own : (incoming setup c requestorID address R_W size).requestorID = requestorID := sameID
  have where_ : (incoming setup c requestorID address R_W size).address = address := sameAddress
  unfold addRequest at h
  dsimp only at h
  generalize incoming setup c requestorID address R_W size = x at own where_ h
  split at h
  · obtain rfl := Option.some.inj h
    have front : ∀ l : List Request, ((x :: l).filter fun x => x.requestorID = r).map (·.address) =
        (if requestorID = r then [address] else []) ++
          (l.filter fun x => x.requestorID = r).map (·.address) := by
      intro l
      by_cases mine : requestorID = r <;> simp [own, where_, mine]
    have joined : ∀ l l' : List Request, (l ++ [x] ++ l').Perm (x :: (l ++ l')) := by
      intro l l'
      rw [List.append_assoc]
      exact List.perm_middle
    have moved : ((if R_W then c.pendingReadRequest ++ [x] else c.pendingReadRequest) ++
        if R_W then c.pendingWriteRequest else c.pendingWriteRequest ++ [x]).Perm
        (x :: (c.pendingReadRequest ++ c.pendingWriteRequest)) := by
      cases R_W with
      | true => exact joined c.pendingReadRequest c.pendingWriteRequest
      | false =>
        have := joined (c.pendingReadRequest ++ c.pendingWriteRequest) []
        simpa using this
    have seen := (moved.filter fun x => x.requestorID = r).map (·.address)
    rw [front] at seen
    exact seen
  · cases h

end MemoryController

/-! ## The requestor's record -/

/-- The addresses a requestor waits for. -/
def Requestor.core (q : Requestor) : List Nat := q.corePendingData.map (·.address)

/-- The requests a requestor sent are those that came back and those it waits for. -/
def Requestor.Counts (q : Requestor) : Prop :=
  q.requestRequest = q.completeRequest + q.corePendingData.length

/-- **A completion whose address the requestor waits for** takes one request of that address off. -/
theorem Requestor.returnData_found {q : Requestor} {x : Request} (waits : x.address ∈ q.core)
    (counts : q.Counts) :
    ∃ q', q.returnData x = some q' ∧ q.core.Perm (x.address :: q'.core) ∧ q'.Counts ∧
      q'.requestorID = q.requestorID ∧ q'.pendingRequest = q.pendingRequest := by
  obtain ⟨y, hy, same⟩ := List.mem_map.mp waits
  cases e : q.corePendingData.findIdx? fun r => x.address == r.address with
  | none =>
    have := List.findIdx?_eq_none_iff.mp e y hy
    simp [same] at this
  | some index =>
    obtain ⟨bound, hit, _⟩ := List.findIdx?_eq_some_iff_getElem.mp e
    have address : x.address = (q.corePendingData[index]).address := beq_iff_eq.mp hit
    unfold returnData
    rw [e]
    dsimp only
    rw [List.getElem?_eq_getElem bound]
    refine ⟨_, rfl, ?_, ?_, rfl, rfl⟩
    · have taken := (List.getElem_cons_eraseIdx_perm bound).symm.map (·.address)
      rw [List.map_cons, ← address] at taken
      exact taken
    · have shorter : (q.corePendingData.eraseIdx index).length + 1 = q.corePendingData.length :=
        List.length_eraseIdx_add_one bound
      unfold Counts at *
      dsimp only
      omega

namespace Simulator

variable {m m' : Simulator ρ κ}

/-- A requestor's record in order: its number, its counts, and the addresses it waits for. -/
structure Recorded (m : Simulator ρ κ) (left : Nat → List Nat) : Prop where
  ids : ∀ id, (m.requestorsMap id).requestorID = id
  pendings : ∀ id x, (m.requestorsMap id).pendingRequest = some x → x.requestorID = id
  counts : ∀ id, (m.requestorsMap id).Counts
  core : ∀ id, (m.requestorsMap id).core.Perm (left id)

/-- The callbacks of an update find their requests, one by one. -/
theorem callBacks_recorded {left : Nat → List Nat} (new : List Completion)
    (h : m.Recorded fun id => reported new id ++ left id) :
    ∃ m', new.foldlM callBack m = some m' ∧ m'.Recorded left ∧ m'.channels = m.channels ∧
      m'.numberChannels = m.numberChannels ∧ m'.numberRequestors = m.numberRequestors := by
  induction new generalizing m with
  | nil => exact ⟨m, rfl, h, rfl, rfl, rfl⟩
  | cons x new ih =>
    have first : reported (x :: new) x.request.requestorID =
        x.request.address :: reported new x.request.requestorID := by simp [reported]
    have others : ∀ id, id ≠ x.request.requestorID → reported (x :: new) id = reported new id := by
      intro id other
      simp [reported, Ne.symm other]
    have core := h.core x.request.requestorID
    rw [first] at core
    obtain ⟨q, returned, taken, counts, sameID, samePending⟩ :=
      Requestor.returnData_found (core.mem_iff.mpr List.mem_cons_self)
        (h.counts x.request.requestorID)
    have called : callBack m x = some (m.setRequestor x.request.requestorID q) := by
      simp [callBack, returned]
    have next : (m.setRequestor x.request.requestorID q).Recorded fun id =>
        reported new id ++ left id := by
      refine ⟨fun id => ?_, fun id y hy => ?_, fun id => ?_, fun id => ?_⟩ <;>
        by_cases own : id = x.request.requestorID
      · subst own
        simpa [setRequestor_requestorsMap, sameID] using h.ids x.request.requestorID
      · simpa [setRequestor_requestorsMap, own] using h.ids id
      · subst own
        exact h.pendings x.request.requestorID y (by simpa [setRequestor_requestorsMap, samePending] using hy)
      · exact h.pendings id y (by simpa [setRequestor_requestorsMap, own] using hy)
      · subst own
        simpa [setRequestor_requestorsMap] using counts
      · simpa [setRequestor_requestorsMap, own] using h.counts id
      · subst own
        simpa [setRequestor_requestorsMap] using List.Perm.cons_inv (taken.symm.trans core)
      · simpa [setRequestor_requestorsMap, own, others id own] using h.core id
    obtain ⟨m', ran, recorded, same⟩ := ih next
    refine ⟨m', ?_, recorded, same⟩
    rw [List.foldlM_cons, called]
    exact ran

/-! ## Agreement -/

/-- **Requestors and controllers agree** on what is outstanding: a requestor waits for the addresses
that its channel has outstanding for it, and no other channel has any. -/
structure Agrees (m : Simulator ρ κ) : Prop where
  recorded : m.Recorded fun id => (m.channels (findChannelNumber m.numberChannels id)).outstanding id
  strangers : ∀ i id, i ≠ findChannelNumber m.numberChannels id → (m.channels i).outstanding id = []

theorem agrees_create (setup : Setup) (parts : Components ρ κ) (refreshCounting bank_release : Nat → Nat)
    (numberChannels numberRequestors : Nat) (inOrder : Nat → Bool)
    (traces : Nat → List (Option TraceLine)) :
    (create setup parts refreshCounting bank_release numberChannels numberRequestors inOrder
      traces).Agrees :=
  ⟨⟨fun _ => rfl, fun _ _ h => (nomatch h), fun _ => rfl, fun _ => List.Perm.refl _⟩, fun _ _ _ => rfl⟩

/-- A channel's update keeps the records in agreement. It is defined where the channel's is. -/
theorem updateChannel_agrees {refreshCheck check : Nat → Answers} {i : Nat} (h : m.Agrees)
    {c : MemoryController ρ κ}
    (updated : MemorySystem.update setup parts (refreshCheck i) (check i) (m.channels i) = some c) :
    ∃ m', updateChannel setup parts refreshCheck check m i = some m' ∧ m'.Agrees ∧
      m'.channels = (m.setChannel i c).channels ∧ m'.numberChannels = m.numberChannels ∧
      m'.numberRequestors = m.numberRequestors := by
  obtain ⟨new, log, books⟩ := update_clears updated
  have added : c.callbacks.drop (m.channels i).callbacks.length = new := by simp [log]
  -- a stranger has nothing outstanding, so nothing is reported to it and nothing is left
  have strange : ∀ id, i ≠ findChannelNumber m.numberChannels id →
      reported new id = [] ∧ c.outstanding id = [] := by
    intro id other
    have none := books id
    rw [h.strangers i id other, List.nil_perm] at none
    exact List.append_eq_nil_iff.mp none
  have recorded : (m.setChannel i c).Recorded fun id => reported new id ++
      ((m.setChannel i c).channels (findChannelNumber m.numberChannels id)).outstanding id := by
    refine ⟨h.recorded.ids, h.recorded.pendings, h.recorded.counts, fun id => ?_⟩
    have core := h.recorded.core id
    by_cases own : findChannelNumber m.numberChannels id = i
    · rw [own] at core
      simpa [setChannel_channels, own] using core.trans (books id)
    · simpa [setChannel_channels, own, (strange id (Ne.symm own)).1] using core
  obtain ⟨m', ran, recorded', channels, count, requestors⟩ := callBacks_recorded new recorded
  refine ⟨m', ?_, ⟨?_, fun j id other => ?_⟩, channels, count, requestors⟩
  · rw [updateChannel, updated, Option.bind_some, added]
    exact ran
  · rw [channels, count]
    exact recorded'
  · rw [channels]
    rw [count] at other
    by_cases same : j = i
    · subst same
      simpa [setChannel_channels] using (strange id other).2
    · simpa [setChannel_channels, same] using h.strangers j id other

/-- The arrival time of a line is worked out beside the record. -/
theorem arrival_record (q : Requestor) (line : TraceLine) :
    (q.arrival line).1.core = q.core ∧ (q.Counts → (q.arrival line).1.Counts) ∧
      (q.arrival line).1.requestorID = q.requestorID := by
  unfold Requestor.arrival
  split
  · exact ⟨rfl, id, rfl⟩
  · split <;> exact ⟨rfl, id, rfl⟩

/-- A requestor that reads its trace keeps its record, and what it reads is its own. -/
theorem read_record (q : Requestor) :
    q.read.core = q.core ∧ (q.Counts → q.read.Counts) ∧ q.read.requestorID = q.requestorID ∧
      ∀ x, q.read.pendingRequest = some x →
        q.pendingRequest = some x ∨ x.requestorID = q.requestorID := by
  unfold Requestor.read Requestor.readingTraceFile
  dsimp only
  split
  · exact ⟨rfl, id, rfl, fun _ => .inl⟩
  · split
    · split
      · exact ⟨rfl, id, rfl, fun _ => .inl⟩
      · exact ⟨rfl, id, rfl, fun _ => .inl⟩
      · next line rest _ =>
        obtain ⟨core, counts, same⟩ := arrival_record { q with latency := q.latency + 1 } line
        refine ⟨core, counts, same, fun x hx => .inr ?_⟩
        obtain rfl := Option.some.inj hx
        exact same
    · exact ⟨rfl, id, rfl, fun _ => .inl⟩

/-- One requestor's record may change with its channel. -/
theorem Agrees.setRequestor (h : m.Agrees) {id : Nat} {q : Requestor} {c : MemoryController ρ κ}
    (sameID : q.requestorID = id) (pending : ∀ x, q.pendingRequest = some x → x.requestorID = id)
    (counts : q.Counts) (core : q.core.Perm (c.outstanding id))
    (others : ∀ id', id' ≠ id → (c.outstanding id').Perm
      ((m.channels (findChannelNumber m.numberChannels id)).outstanding id')) :
    ((m.setChannel (findChannelNumber m.numberChannels id) c).setRequestor id q).Agrees := by
  refine ⟨⟨fun id' => ?_, fun id' x hx => ?_, fun id' => ?_, fun id' => ?_⟩, fun j id' other => ?_⟩
  · by_cases own : id' = id
    · simp [setRequestor_requestorsMap, own, sameID]
    · simpa [setRequestor_requestorsMap, own] using h.recorded.ids id'
  · by_cases own : id' = id
    · subst own
      exact pending x (by simpa [setRequestor_requestorsMap] using hx)
    · exact h.recorded.pendings id' x (by simpa [setRequestor_requestorsMap, own] using hx)
  · by_cases own : id' = id
    · simpa [setRequestor_requestorsMap, own] using counts
    · simpa [setRequestor_requestorsMap, own] using h.recorded.counts id'
  · by_cases own : id' = id
    · subst own
      simpa [setRequestor_requestorsMap, setChannel_channels] using core
    · have before := h.recorded.core id'
      by_cases here : findChannelNumber m.numberChannels id' = findChannelNumber m.numberChannels id
      · rw [here] at before
        have moved := before.trans (others id' own).symm
        simpa [setRequestor_requestorsMap, setChannel_channels, own, here] using moved
      · simpa [setRequestor_requestorsMap, setChannel_channels, own, here] using before
  · have none := h.strangers j id' other
    by_cases here : j = findChannelNumber m.numberChannels id
    · subst here
      have apart : id' ≠ id := by
        rintro rfl
        exact other rfl
      have still := others id' apart
      rw [none] at still
      simpa [setChannel_channels] using still
    · simpa [setRequestor_requestorsMap, setChannel_channels, here] using none

/-- What a requestor has pending after reading its trace is its own. -/
theorem Agrees.own_pending (h : m.Agrees) {id : Nat} {x : Request}
    (pending : (m.requestorsMap id).read.pendingRequest = some x) : x.requestorID = id := by
  obtain ⟨_, _, _, pendings⟩ := read_record (m.requestorsMap id)
  rcases pendings x pending with old | new
  · exact h.recorded.pendings id x old
  · rw [new, h.recorded.ids id]

/-- And so is the request it sends. -/
theorem Agrees.own_decision (h : m.Agrees) {id : Nat} {request : Request}
    (decided : m.decision id = some request) : request.requestorID = id :=
  h.own_pending (Option.eq_some_of_filter_eq_some decided)

/-- **A requestor's update** keeps the records in agreement. -/
theorem updateRequestor_agrees {id : Nat} (h : m.Agrees)
    (updated : m.updateRequestor setup id = some m') :
    m'.Agrees ∧ m'.numberChannels = m.numberChannels ∧ m'.numberRequestors = m.numberRequestors := by
  obtain ⟨core, counts, sameID, _⟩ := read_record (m.requestorsMap id)
  unfold updateRequestor at updated
  split at updated
  · next request decided =>
    obtain ⟨m₁, added, rfl⟩ := Option.map_eq_some_iff.mp updated
    have mine : request.requestorID = id := h.own_decision decided
    obtain ⟨c, inserted, rfl⟩ := Option.map_eq_some_iff.mp added
    rw [mine] at inserted
    rw [mine, setChannel_requestorsMap]
    refine ⟨?_, rfl, rfl⟩
    have outstanding := addRequest_outstanding inserted
    refine h.setRequestor (sameID.trans (h.recorded.ids id)) (fun x hx => (nomatch hx)) ?_ ?_ ?_
    · have counted := counts (h.recorded.counts id)
      unfold Requestor.Counts at *
      simp only [Requestor.endUpdate, Requestor.sent, List.length_append, List.length_singleton]
      omega
    · have joined : ((m.requestorsMap id).read.sent request).endUpdate.core =
          (m.requestorsMap id).core ++ [request.address] := by
        rw [← core]
        simp [Requestor.core, Requestor.endUpdate, Requestor.sent]
      rw [joined]
      have here := outstanding id
      rw [if_pos rfl] at here
      apply List.perm_append_comm.trans
      exact ((h.recorded.core id).append_left [request.address]).trans here.symm
    · intro id' apart
      have there := outstanding id'
      rwa [if_neg (Ne.symm apart)] at there
  · obtain rfl := Option.some.inj updated
    refine ⟨?_, rfl, rfl⟩
    have same : (m.requestorsMap id).read.endUpdate.core.Perm
        ((m.channels (findChannelNumber m.numberChannels id)).outstanding id) := by
      show (m.requestorsMap id).read.core.Perm _
      rw [core]
      exact h.recorded.core id
    have number : (m.requestorsMap id).read.endUpdate.requestorID = id :=
      sameID.trans (h.recorded.ids id)
    have kept := h.setRequestor number (fun _ => h.own_pending) (counts (h.recorded.counts id)) same
      fun _ _ => List.Perm.refl _
    rw [setChannel_self] at kept
    exact kept

/-- **An update of the channels** in a list keeps the records in agreement. -/
theorem updateChannels_agrees {refreshCheck check : Nat → Answers} (l : List Nat) (h : m.Agrees)
    (updated : l.foldlM (updateChannel setup parts refreshCheck check) m = some m') :
    m'.Agrees ∧ m'.numberChannels = m.numberChannels ∧ m'.numberRequestors = m.numberRequestors := by
  induction l generalizing m with
  | nil =>
    obtain rfl := Option.some.inj updated
    exact ⟨h, rfl, rfl⟩
  | cons i l ih =>
    rw [List.foldlM_cons] at updated
    obtain ⟨m₁, first, later⟩ := Option.bind_eq_some_iff.mp updated
    obtain ⟨c, cycled, _⟩ := Option.bind_eq_some_iff.mp first
    obtain ⟨m₂, same, agrees, _, count, requestors⟩ := updateChannel_agrees h cycled
    obtain rfl := Option.some.inj (same.symm.trans first)
    obtain ⟨agrees', count', requestors'⟩ := ih agrees later
    exact ⟨agrees', count'.trans count, requestors'.trans requestors⟩

/-- It is defined where the update of each of them is: no callback aborts. -/
theorem updateChannels_defined {refreshCheck check : Nat → Answers} (l : List Nat) (nodup : l.Nodup)
    (h : m.Agrees) (defined : ∀ i ∈ l,
      (MemorySystem.update setup parts (refreshCheck i) (check i) (m.channels i)).isSome = true) :
    (l.foldlM (updateChannel setup parts refreshCheck check) m).isSome = true := by
  induction l generalizing m with
  | nil => rfl
  | cons i l ih =>
    obtain ⟨absent, nodup⟩ := List.nodup_cons.mp nodup
    obtain ⟨c, cycled⟩ := Option.isSome_iff_exists.mp (defined i List.mem_cons_self)
    obtain ⟨m₁, first, agrees, channels, _, _⟩ := updateChannel_agrees h cycled
    have rest : ∀ j ∈ l, (MemorySystem.update setup parts (refreshCheck j) (check j)
        (m₁.channels j)).isSome = true := by
      intro j hj
      have apart : j ≠ i := by
        rintro rfl
        exact absent hj
      rw [channels, setChannel_channels, if_neg apart]
      exact defined j (List.mem_cons_of_mem i hj)
    rw [List.foldlM_cons, first]
    exact ih nodup agrees rest

theorem step_agrees {event : SimulatorEvent} (h : m.Agrees)
    (stepped : step setup parts m event = some (m', ())) :
    m'.Agrees ∧ m'.numberChannels = m.numberChannels ∧ m'.numberRequestors = m.numberRequestors := by
  cases event with
  | requestor id =>
    simp only [step] at stepped
    split at stepped
    · obtain ⟨m₁, updated, out⟩ := Option.map_eq_some_iff.mp stepped
      obtain ⟨rfl, _⟩ : _ ∧ _ := Prod.mk.inj out
      exact updateRequestor_agrees h updated
    · cases stepped
  | memory refreshCheck check =>
    obtain ⟨m₁, updated, out⟩ := Option.map_eq_some_iff.mp stepped
    obtain ⟨rfl, _⟩ : _ ∧ _ := Prod.mk.inj out
    exact updateChannels_agrees _ h updated

/-- **Requestors and controllers agree on what is outstanding.** With any schedulers, any number of
requestors and channels and any traces, in every state a run of updates reaches, whatever the devices
answer: a requestor waits for the addresses that its channel has pending for it, reads and writes
together; what it sent is what came back and what it waits for; and an update of the memory system is
defined where the controllers' own updates are, so no callback aborts. -/
theorem requestor_agreement (setup : Setup) (parts : Components ρ κ)
    (refreshCounting bank_release : Nat → Nat) (numberChannels numberRequestors : Nat)
    (inOrder : Nat → Bool) (traces : Nat → List (Option TraceLine)) {events : List SimulatorEvent}
    {m : Simulator ρ κ} {told : List Unit}
    (ran : Lib.Machine.run (step setup parts) (create setup parts refreshCounting bank_release
      numberChannels numberRequestors inOrder traces) events = some (m, told)) :
    (∀ r < numberRequestors,
      ((m.requestorsMap r).corePendingData.map (·.address)).Perm
        ((((m.channels (r % numberChannels)).pendingReadRequest ++
          (m.channels (r % numberChannels)).pendingWriteRequest).filter
            fun x => x.requestorID = r).map (·.address)) ∧
      (m.requestorsMap r).requestRequest =
        (m.requestorsMap r).completeRequest + (m.requestorsMap r).corePendingData.length) ∧
    ∀ refreshCheck check : Nat → Answers,
      (∀ i < numberChannels, (MemorySystem.update setup parts (refreshCheck i) (check i)
        (m.channels i)).isSome = true) →
      (m.updateMemory setup parts refreshCheck check).isSome = true := by
  have agreed : m.Agrees ∧ m.numberChannels = numberChannels := by
    refine Lib.Machine.run_invariant
      (fun m => m.Agrees ∧ m.numberChannels = numberChannels) ?_
      ⟨agrees_create setup parts refreshCounting bank_release numberChannels numberRequestors inOrder
        traces, rfl⟩ ran
    rintro m event m' ⟨⟩ ⟨agrees, count⟩ stepped
    obtain ⟨agrees', count', _⟩ := step_agrees agrees stepped
    exact ⟨agrees', count'.trans count⟩
  obtain ⟨agrees, rfl⟩ := agreed
  refine ⟨fun r _ => ⟨?_, agrees.recorded.counts r⟩, fun refreshCheck check defined => ?_⟩
  · have channel : findChannelNumber m.numberChannels r = r % m.numberChannels := by
      unfold findChannelNumber
      split
      · next one => rw [one, Nat.mod_one]
      · rfl
    have core := agrees.recorded.core r
    rw [channel] at core
    exact core
  · exact updateChannels_defined _ List.nodup_range agrees fun i hi =>
      defined i (List.mem_range.mp hi)

/-- Each requestor reads one address, at once. -/
def oneRead : Nat → List (Option TraceLine) := fun id =>
  [some { addr := 64 * id, requestType := .DATA_READ, compDelay := 0 }]

/-- Two requestors send, and a device that takes every command has 50 cycles. -/
def twoSenders : List SimulatorEvent :=
  [.requestor 0, .requestor 1] ++ List.replicate 50 (.memory (fun _ _ => true) fun _ _ => true)

/-- The law at a run with two channels after which requestor 1 has its data back. -/
theorem requestor_agreement_twoSenders :
    ∃ m told, Lib.Machine.run (step openPageSetup frfcfsIni)
        (create openPageSetup frfcfsIni (fun _ => 0) (fun _ => 0) 2 2 (fun _ => true) oneRead)
        twoSenders = some (m, told) ∧ (m.requestorsMap 1).completeRequest = 1 ∧
      (m.requestorsMap 1).requestRequest =
        (m.requestorsMap 1).completeRequest + (m.requestorsMap 1).corePendingData.length := by
  obtain ⟨m, told, ran, done⟩ := Lib.Machine.run_exists (step openPageSetup frfcfsIni)
    (fun m => (m.requestorsMap 1).completeRequest = 1)
    (create openPageSetup frfcfsIni (fun _ => 0) (fun _ => 0) 2 2 (fun _ => true) oneRead)
    twoSenders (by decide +kernel)
  have law := requestor_agreement openPageSetup frfcfsIni (fun _ => 0) (fun _ => 0) 2 2
    (fun _ => true) oneRead ran
  exact ⟨m, told, ran, done, (law.1 1 (by decide)).2⟩

end Simulator
end MCsim
