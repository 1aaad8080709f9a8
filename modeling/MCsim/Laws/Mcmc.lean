import MCsim.Requests.Mcmc
import MCsim.Laws.Requestors
import MCsim.Spec.Slots

/-!
# Timing isolation of MCMC

The scheduler looks a slot's requestor up in the request queue by its id, and the queue takes the
number for a position in the order of first appearance. Where the requestor at that position is the
slot's own, what one requestor sees of a run is a server in its own slot (`Slots.Server`), which knows
of the others only how many there are; so the others cannot move its grants. Where it is not, the slot
of one requestor serves another.
-/

namespace MCsim
namespace Mcmc

open RequestScheduler Slots

variable {requestors width r : Nat} {s s' : RequestScheduler} {p p' : McmcState}

/-! ## What one requestor sees -/

/-- A request as its requestor knows it. -/
def job (x : Request) : Job (Nat × RequestType) :=
  { owner := x.requestorID, what := (x.address, x.requestType), size := x.requestSize }

/-- The requests of one requestor among those that arrive. -/
def arrivalsOf (r : Nat) (arrivals : List Request) : List (Job (Nat × RequestType)) :=
  (arrivals.filter fun x => x.requestorID = r).map job

/-- The part handed over, where it is the requestor's. -/
def handedOf (r : Nat) (handed : Option Request) : Option (Job (Nat × RequestType)) :=
  (handed.filter fun x => x.requestorID = r).map job

/-- The parts cut for a requestor, none before the first call. -/
def partsOf (p : McmcState) (r : Nat) : List Request := (p.reqSubBuffer[r]?).getD []

/-- What one requestor sees of the scheduler. -/
def view (r : Nat) (st : RequestScheduler × McmcState) : Server (Nat × RequestType) :=
  { turn := st.2.requestorIndex
    left := st.2.slotCounter
    waiting := ((st.1.requestQueue 0).buffer r).map job
    parts := (partsOf st.2 r).map job }

/-- The queue that a call finds. -/
def arrived (s : RequestScheduler) (arrivals : List Request) : RequestQueue :=
  arrivals.foldl RequestQueue.insertRequest (s.requestQueue 0)

/-- At the start of a slot whose requestor has no part left, either no requestor has sent anything
yet, or the requestor at the position that the slot's id names is the slot's own. -/
def OwnPosition (st : RequestScheduler × McmcState) (arrivals : List Request) : Prop :=
  st.2.slotCounter = 0 → partsOf st.2 st.2.requestorIndex = [] →
    (arrived st.1 arrivals).requestorOrder = [] ∨
      (arrived st.1 arrivals).requestorOrder[st.2.requestorIndex]? = some st.2.requestorIndex

instance (st : RequestScheduler × McmcState) (arrivals : List Request) :
    Decidable (OwnPosition st arrivals) :=
  inferInstanceAs (Decidable (_ → _ → _))

/-! ## The invariant -/

/-- The slot table of a set-up whose requestors are all critical. -/
structure Ready (requestors : Nat) (p : McmcState) : Prop where
  scheduleSlot : p.scheduleSlot = List.range requestors
  timeSlot : p.timeSlot = List.replicate requestors 10
  srtSlot : p.srtSlot = List.replicate requestors []
  parts : p.reqSubBuffer.length = requestors

structure Inv (requestors width : Nat) (s : RequestScheduler) (p : McmcState) : Prop where
  queue : (s.requestQueue 0).PerRequestor
  bus : s.commandGenerator.dataBusSize = width
  phase : (s.clockCycle = 1 ∧ p = {}) ∨ (1 < s.clockCycle ∧ Ready requestors p)
  owned : ∀ id, ∀ x ∈ partsOf p id, x.requestorID = id ∧ x.requestSize = width ∧ 0 < width

theorem inv_start : Inv requestors width (start width).1 (start width).2 :=
  ⟨RequestQueue.PerRequestor.create, rfl, .inl ⟨rfl, rfl⟩, fun id x hx => by simp [partsOf, start] at hx⟩

theorem slots_allCritical : slots (allCritical requestors) = List.range requestors := by
  simp [slots, allCritical, List.filter_map, Function.comp_def]

/-- The first call sets up a slot for each requestor, and nothing to share. -/
theorem ready_initialise : Ready requestors (initialise (allCritical requestors) {}) := by
  have shared : sharers (allCritical requestors) = List.replicate requestors [] := by
    refine List.eq_replicate_iff.mpr ⟨by simp [sharers, slots_allCritical], fun l hl => ?_⟩
    obtain ⟨slot, _, rfl⟩ := List.mem_map.mp hl
    simp [allCritical, List.filter_map, Function.comp_def]
  refine ⟨?_, ?_, ?_, ?_⟩
  · simp [initialise, slots_allCritical]
  · simp [initialise, slots_allCritical, List.map_const']
  · simp [initialise, shared]
  · simp [initialise, allCritical]

theorem partsOf_initialise (id : Nat) :
    partsOf (initialise (allCritical requestors) {}) id = [] := by
  simp only [partsOf, initialise, allCritical, List.nil_append, List.map_map, List.getElem?_map]
  cases (List.range requestors)[id]? <;> rfl

/-! ## A slot -/

/-- A part of one bus width is accepted. -/
theorem isSchedulable_part {x : Request} (bus : s.commandGenerator.dataBusSize = width)
    (size : x.requestSize = width) (wide : 0 < width) :
    ∃ g, g.dataBusSize = width ∧
      s.isSchedulable mcmcGenerator x false = some ({ s with commandGenerator := g }, true) := by
  have one : x.requestSize / s.commandGenerator.dataBusSize = 1 := by
    rw [size, bus, Nat.div_self wide]
  refine ⟨_, ?_, by simp only [isSchedulable, mcmcGenerator, one, interleaved, Option.map_some]; rfl⟩
  exact bus

/-- What a call finds cut for the slot's requestor once it has looked at the queue, and the queue it
leaves: `fetch` at the requestor's own position. -/
theorem fetch_own (width : Nat) {q : RequestQueue} (h : q.PerRequestor) {id : Nat} {parts : List Request}
    (own : parts = [] → q.requestorOrder = [] ∨ q.requestorOrder[id]? = some id) :
    (∃ x rest, parts = [] ∧ q.buffer id = x :: rest ∧
      fetch width q id parts = some (q.withoutFront id, split width x, true) ∧
      (q.withoutFront id).PerRequestor) ∨
    (parts = [] → q.buffer id = []) ∧ fetch width q id parts = some (q, parts, false) := by
  by_cases cut : parts = []
  · subst cut
    rcases own rfl with none | position
    · have empty : q.buffer id = [] := by
        by_contra waits
        simpa [none] using h.mem_order waits
      refine .inr ⟨fun _ => empty, ?_⟩
      simp [fetch, RequestQueue.getSize, none]
    · cases front : q.buffer id with
      | nil =>
        refine .inr ⟨fun _ => rfl, ?_⟩
        simp [fetch, RequestQueue.getSize_position position, front]
      | cons x rest =>
        obtain ⟨q', handed, removed⟩ := RequestQueue.getRequestOf_front position front
        refine .inl ⟨x, rest, rfl, rfl, ?_, h.withoutFront (List.mem_of_getElem? position)⟩
        simp [fetch, RequestQueue.getSize_position position, front, handed, removed]
  · refine .inr ⟨fun none => absurd none cut, ?_⟩
    simp [fetch, cut]

/-- The start of a slot without sharers: what was fetched is served from the front. -/
theorem serveSlot_eq {q : RequestQueue} {parts : List Request} {taken : Bool}
    (ready : Ready requestors p) (small : p.requestorIndex < requestors)
    (bus : s.commandGenerator.dataBusSize = width)
    (fetched : fetch width (s.requestQueue 0) p.requestorIndex (partsOf p p.requestorIndex) =
      some (q, parts, taken))
    (sizes : ∀ x ∈ parts, x.requestSize = width ∧ 0 < width) :
    ∃ g, g.dataBusSize = width ∧ serveSlot mcmcGenerator width s p p.requestorIndex =
      some ({ s.setQueue 0 q with commandGenerator := g },
        { p with reqSubBuffer := p.reqSubBuffer.set p.requestorIndex parts.tail }, parts.head?) := by
  have bound : p.requestorIndex < p.reqSubBuffer.length := ready.parts.symm ▸ small
  have found : p.reqSubBuffer[p.requestorIndex]? = some (partsOf p p.requestorIndex) := by
    simp [partsOf, bound]
  have sharing : p.srtSlot[p.requestorIndex]? = some [] := by
    rw [ready.srtSlot]
    simp [small]
  unfold serveSlot
  rw [found, Option.bind_some, fetched, Option.bind_some]
  cases parts with
  | nil =>
    refine ⟨s.commandGenerator, bus, ?_⟩
    simp [sharing, shareSlot]
    rfl
  | cons x rest =>
    obtain ⟨size, wide⟩ := sizes x List.mem_cons_self
    obtain ⟨g, bus', accepted⟩ := isSchedulable_part (s := s.setQueue 0 q) bus size wide
    refine ⟨g, bus', ?_⟩
    simp [accepted]

/-! ## What the requestor sees of a slot -/

theorem partsOf_set {k : Nat} (bound : k < p.reqSubBuffer.length) (parts : List Request) (id : Nat) :
    partsOf { p with reqSubBuffer := p.reqSubBuffer.set k parts } id =
      if id = k then parts else partsOf p id := by
  unfold partsOf
  dsimp only
  split
  · next same =>
    subst same
    simp [bound]
  · next apart => rw [List.getElem?_set_ne (Ne.symm apart)]

theorem split_job (x : Request) : (split width x).map job = Server.cut width (job x) := by
  simp [split, Server.cut, job]

theorem handedOf_head {parts : List Request} {k : Nat} (owned : ∀ x ∈ parts, x.requestorID = k) :
    handedOf r parts.head? = if k = r then (parts.map job).head? else none := by
  cases parts with
  | nil => simp [handedOf]
  | cons x rest =>
    have own := owned x List.mem_cons_self
    by_cases same : k = r <;> simp [handedOf, own, same]

/-- **A slot, seen by a requestor**: its own slot takes its next job and serves a part of it, and any
other slot does nothing to it. -/
theorem slot_view (r : Nat) (queue : (s.requestQueue 0).PerRequestor)
    (bound : p.requestorIndex < p.reqSubBuffer.length)
    (owned : ∀ id, ∀ x ∈ partsOf p id, x.requestorID = id ∧ x.requestSize = width ∧ 0 < width)
    (own : partsOf p p.requestorIndex = [] → (s.requestQueue 0).requestorOrder = [] ∨
      (s.requestQueue 0).requestorOrder[p.requestorIndex]? = some p.requestorIndex) :
    ∃ q parts taken, fetch width (s.requestQueue 0) p.requestorIndex (partsOf p p.requestorIndex) =
        some (q, parts, taken) ∧ q.PerRequestor ∧
      (∀ x ∈ parts, x.requestorID = p.requestorIndex ∧ x.requestSize = width ∧ 0 < width) ∧
      (view r (s.setQueue 0 q,
        { p with reqSubBuffer := p.reqSubBuffer.set p.requestorIndex parts.tail }),
        handedOf r parts.head?) =
        if p.requestorIndex = r then ((view r (s, p)).refill width).serve
        else (view r (s, p), none) := by
  have seen : ∀ (q : RequestQueue) (parts : List Request),
      view r (s.setQueue 0 q,
        { p with reqSubBuffer := p.reqSubBuffer.set p.requestorIndex parts.tail }) =
      { view r (s, p) with
        waiting := (q.buffer r).map job
        parts := if r = p.requestorIndex then (parts.map job).tail
          else (partsOf p r).map job } := by
    intro q parts
    simp only [view, partsOf_set bound, setQueue, if_true, Server.mk.injEq, true_and]
    split <;> simp
  rcases fetch_own width queue own with
    ⟨x, rest, none, front, fetched, queue'⟩ | ⟨empty, fetched⟩
  · have mine : ∀ y ∈ split width x, y.requestorID = p.requestorIndex ∧ y.requestSize = width ∧
        0 < width := by
      intro y hy
      obtain ⟨some', rfl⟩ := List.mem_replicate.mp hy
      have wide : 0 < width := by
        rcases Nat.eq_zero_or_pos width with zero | wide
        · simp [zero] at some'
        · exact wide
      exact ⟨queue.owned _ x (front ▸ List.mem_cons_self), rfl, wide⟩
    refine ⟨_, _, true, fetched, queue', mine, ?_⟩
    rw [seen, handedOf_head fun y hy => (mine y hy).1, split_job, RequestQueue.buffer_withoutFront]
    by_cases same : p.requestorIndex = r
    · subst same
      simp [view, none, front, Server.refill, Server.serve]
    · simp [same, Ne.symm same, view]
  · refine ⟨_, _, false, fetched, queue, owned p.requestorIndex, ?_⟩
    rw [seen, handedOf_head fun y hy => (owned _ y hy).1]
    by_cases same : p.requestorIndex = r
    · subst same
      cases parts : partsOf p p.requestorIndex with
      | nil => simp [view, parts, empty parts, Server.refill, Server.serve]
      | cons y rest => simp [view, parts, Server.refill, Server.serve]
    · simp [same, Ne.symm same, view]

/-! ## Cycles -/

/-- The state once the first call has set it up. -/
def settled (requestors : Nat) (s : RequestScheduler) (p : McmcState) : McmcState :=
  if s.clockCycle = 1 then initialise (allCritical requestors) p else p

theorem Inv.settled (inv : Inv requestors width s p) :
    Ready requestors (settled requestors s p) ∧ 0 < s.clockCycle ∧
      (settled requestors s p).requestorIndex = p.requestorIndex ∧
      (settled requestors s p).slotCounter = p.slotCounter ∧
      ∀ id, partsOf (settled requestors s p) id = partsOf p id := by
  unfold Mcmc.settled
  rcases inv.phase with ⟨first, rfl⟩ | ⟨later, ready⟩
  · rw [if_pos first]
    refine ⟨ready_initialise, by omega, rfl, rfl, fun id => ?_⟩
    rw [partsOf_initialise]
    rfl
  · rw [if_neg (by omega)]
    exact ⟨ready, by omega, rfl, rfl, fun _ => rfl⟩

/-- A call once set up, seen by a requestor. -/
theorem slotCall_projects {handed : Option Request} (queue : (s.requestQueue 0).PerRequestor)
    (bus : s.commandGenerator.dataBusSize = width) (ready : Ready requestors p)
    (owned : ∀ id, ∀ x ∈ partsOf p id, x.requestorID = id ∧ x.requestSize = width ∧ 0 < width)
    (own : p.slotCounter = 0 → partsOf p p.requestorIndex = [] →
      (s.requestQueue 0).requestorOrder = [] ∨
      (s.requestQueue 0).requestorOrder[p.requestorIndex]? = some p.requestorIndex)
    (h : slotCall width mcmcGenerator s p = some (s', p', handed)) :
    ((s'.requestQueue 0).PerRequestor ∧ s'.commandGenerator.dataBusSize = width ∧
      s'.clockCycle = s.clockCycle ∧ Ready requestors p' ∧
      ∀ id, ∀ x ∈ partsOf p' id, x.requestorID = id ∧ x.requestSize = width ∧ 0 < width) ∧
    Server.step requestors 10 width r (view r (s, p)) [] = (view r (s', p'), handedOf r handed) := by
  unfold slotCall at h
  split at h
  · next zero =>
    obtain ⟨id, slot, h⟩ := Option.bind_eq_some_iff.mp h
    rw [ready.scheduleSlot] at slot
    obtain ⟨small, rfl⟩ : p.requestorIndex < requestors ∧ p.requestorIndex = id := by
      simpa [List.getElem?_range, List.getElem?_eq_some_iff] using slot
    have bound : p.requestorIndex < p.reqSubBuffer.length := ready.parts.symm ▸ small
    obtain ⟨q, parts, taken, fetched, queue', mine, seen⟩ :=
      slot_view r queue bound owned (own zero)
    obtain ⟨g, bus', served⟩ := serveSlot_eq ready small bus fetched fun x hx => (mine x hx).2
    rw [served, Option.bind_some, Option.map_eq_some_iff] at h
    obtain ⟨length, time, out⟩ := h
    rw [ready.timeSlot] at time
    obtain rfl : length = 10 := by simpa [small] using time.symm
    obtain ⟨rfl, rfl, rfl⟩ : _ ∧ _ ∧ _ := by simpa using out
    refine ⟨⟨queue', bus', rfl, ⟨ready.scheduleSlot, ready.timeSlot, ready.srtSlot, ?_⟩, ?_⟩, ?_⟩
    · simp [nextSlot, ready.parts]
    · intro id x hx
      change x ∈ partsOf { p with
        reqSubBuffer := p.reqSubBuffer.set p.requestorIndex parts.tail } id at hx
      rw [partsOf_set bound] at hx
      split at hx
      · next same => exact same ▸ mine x (List.mem_of_mem_tail hx)
      · exact owned id x hx
    · rw [Server.step_slot (v := view r (s, p)) zero seen]
      simp [view, nextSlot, ready.scheduleSlot, partsOf]
      rfl
  · next busy =>
    obtain ⟨rfl, rfl, rfl⟩ : _ ∧ _ ∧ _ := by simpa using h
    refine ⟨⟨queue, bus, rfl, ⟨ready.scheduleSlot, ready.timeSlot, ready.srtSlot, ready.parts⟩,
      owned⟩, ?_⟩
    simp [Server.step, view, busy, handedOf]
    rfl

/-- **A cycle, seen by a requestor**: where the slot's requestor is looked up at its own position, the
requestor's view moves as a server in its own slot does. -/
theorem cycle_projects {arrivals : List Request} {st : RequestScheduler × McmcState}
    {handed : Option Request} (r : Nat) (inv : Inv requestors width s p)
    (own : OwnPosition (s, p) arrivals)
    (h : cycle (allCritical requestors) width (s, p) arrivals = some (st, handed)) :
    Inv requestors width st.1 st.2 ∧
      Server.step requestors 10 width r (view r (s, p)) (arrivalsOf r arrivals) =
        (view r st, handedOf r handed) := by
  obtain ⟨ready, positive, turn, left, parts⟩ := inv.settled
  have queue := inv.queue.arrive arrivals
  have buffers := RequestQueue.buffer_arrive inv.queue arrivals
  have owned : ∀ id, ∀ x ∈ partsOf (settled requestors s p) id,
      x.requestorID = id ∧ x.requestSize = width ∧ 0 < width := by
    intro id x hx
    exact inv.owned id x (parts id ▸ hx)
  have seen : view r (s.setQueue 0 (arrived s arrivals), settled requestors s p) =
      { view r (s, p) with waiting := (view r (s, p)).waiting ++ arrivalsOf r arrivals } := by
    simp only [view, turn, left, parts, setQueue, if_true, arrived, buffers, arrivalsOf,
      List.map_append]
  obtain ⟨⟨s₁, p₁, handed₁⟩, called, out⟩ := Option.map_eq_some_iff.mp h
  obtain ⟨rfl, rfl⟩ : _ ∧ _ := by simpa using out
  obtain ⟨⟨queue', bus', clock, ready', owned'⟩, projected⟩ := slotCall_projects (r := r)
    (s := (s.setQueue 0 (arrived s arrivals)).step) queue inv.bus ready owned
    (fun zero none => by
      rw [left] at zero
      rw [parts, turn] at none
      rw [turn]
      exact own zero none) called
  refine ⟨⟨queue', bus', .inr ⟨?_, ready'⟩, owned'⟩, ?_⟩
  · have stepped : s₁.clockCycle = s.clockCycle + 1 := clock
    change 1 < s₁.clockCycle + 1
    omega
  · rw [Server.step_arrivals, ← seen]
    exact projected

/-! ## Isolation -/

/-- Where the slot's requestor is looked up at its own position, its slot serves its own requests. -/
theorem cycle_serves {arrivals : List Request} {st : RequestScheduler × McmcState} {x : Request}
    (inv : Inv requestors width s p) (own : OwnPosition (s, p) arrivals)
    (h : cycle (allCritical requestors) width (s, p) arrivals = some (st, some x)) :
    x.requestorID = p.requestorIndex := by
  have projected := (cycle_projects x.requestorID inv own h).2
  have mine : handedOf x.requestorID (some x) = some (job x) := by simp [handedOf]
  rw [mine] at projected
  exact (Server.step_part projected).symm

/-- **Timing isolation, where each slot finds its own requestor.** In runs in which every slot looks
its requestor up at its own position, a slot serves its own requestor only; and in two such runs of as
many cycles, in which a requestor's own arrivals agree, the requestor's parts are handed to the
generator in the same cycles. -/
theorem mcmc_isolation (requestors width r : Nat) {as bs : List (List Request)}
    (same : as.map (arrivalsOf r) = bs.map (arrivalsOf r))
    (ownA : Lib.Machine.Along (cycle (allCritical requestors) width)
      (fun st arrivals _ _ => OwnPosition st arrivals) (start width) as)
    (ownB : Lib.Machine.Along (cycle (allCritical requestors) width)
      (fun st arrivals _ _ => OwnPosition st arrivals) (start width) bs)
    {stA stB : RequestScheduler × McmcState} {handedA handedB : List (Option Request)}
    (ranA : Lib.Machine.run (cycle (allCritical requestors) width) (start width) as =
      some (stA, handedA))
    (ranB : Lib.Machine.run (cycle (allCritical requestors) width) (start width) bs =
      some (stB, handedB)) :
    handedA.map (handedOf r) = handedB.map (handedOf r) ∧
      Lib.Machine.Along (cycle (allCritical requestors) width)
        (fun st _ _ handed => ∀ x, handed = some x → x.requestorID = st.2.requestorIndex)
        (start width) as := by
  have projects : ∀ {is st handed}, Lib.Machine.Along (cycle (allCritical requestors) width)
      (fun st arrivals _ _ => OwnPosition st arrivals) (start width) is →
      Lib.Machine.run (cycle (allCritical requestors) width) (start width) is = some (st, handed) →
      Lib.Machine.run (fun v k => some (Server.step requestors 10 width r v k))
        (view r (start width)) (is.map (arrivalsOf r)) = some (view r st, handed.map (handedOf r)) := by
    intro is st handed own ran
    refine Lib.Machine.run_projects (view r) (arrivalsOf r) (handedOf r) _
      (fun st => Inv requestors width st.1 st.2) ?_ inv_start own ran
    exact fun inv h own => cycle_projects r inv own h
  constructor
  · have seenA := projects ownA ranA
    rw [same, projects ownB ranB] at seenA
    exact (Prod.ext_iff.mp (Option.some.inj seenA)).2.symm
  · refine Lib.Machine.along_invariant (fun st => Inv requestors width st.1 st.2) ?_ inv_start ownA
    intro st arrivals st' handed inv h own
    refine ⟨(cycle_projects r inv own h).1, fun x hx => ?_⟩
    subst hx
    exact cycle_serves inv own h

/-- A read of one requestor. -/
def sampleRead (id address : Nat) : Request :=
  { handle := 0, requestType := .DATA_READ, requestorID := id, requestSize := 64, address := address,
    arriveTime := 0 }

/-- Requestor 0 sends a read in cycle 15; requestor 1 sends one in the cycle given. -/
def twoReads (cycle address : Nat) : List (List Request) :=
  (List.range 36).map fun c =>
    (if c = 15 then [sampleRead 0 64] else []) ++ if c = cycle then [sampleRead 1 address] else []

/-- The cycle in which a part of requestor 0 is handed over first, with requestor 1's read as given. -/
def firstHanded (cycle address : Nat) : Option Nat :=
  (Lib.Machine.run (Mcmc.cycle (allCritical 2) 64) (start 64) (twoReads cycle address)).bind fun r =>
    r.2.findIdx? fun handed => (handedOf 0 handed).isSome

/-- Requestor 0 sends the same in both runs, and is served ten cycles later where requestor 1 was
first to send: the slot of requestor 0 then serves requestor 1. -/
theorem mcmc_isolation_firstRival :
    (twoReads 16 0).map (arrivalsOf 0) = (twoReads 14 0).map (arrivalsOf 0) ∧
      firstHanded 16 0 = some 20 ∧ firstHanded 14 0 = some 30 := by
  decide +kernel

/-- The law at two runs in which requestor 0 sends first. -/
theorem mcmc_isolation_secondRival :
    ∃ stA stB handedA handedB,
      Lib.Machine.run (cycle (allCritical 2) 64) (start 64) (twoReads 16 0) = some (stA, handedA) ∧
      Lib.Machine.run (cycle (allCritical 2) 64) (start 64) (twoReads 18 128) = some (stB, handedB) ∧
      handedA.any (fun handed => (handedOf 0 handed).isSome) = true ∧
      handedA.map (handedOf 0) = handedB.map (handedOf 0) := by
  obtain ⟨stA, handedA, ranA, served⟩ := Lib.Machine.run_exists_told (cycle (allCritical 2) 64)
    (fun _ handed => handed.any (fun handed => (handedOf 0 handed).isSome) = true) (start 64)
    (twoReads 16 0) (by decide +kernel)
  obtain ⟨stB, handedB, ranB, _⟩ := Lib.Machine.run_exists (cycle (allCritical 2) 64)
    (fun _ => True) (start 64) (twoReads 18 128) (by decide +kernel)
  have along : ∀ is, Lib.Machine.checkAlong (cycle (allCritical 2) 64)
      (fun st arrivals _ => OwnPosition st arrivals) (start 64) is = true →
      Lib.Machine.Along (cycle (allCritical 2) 64) (fun st arrivals _ _ => OwnPosition st arrivals)
        (start 64) is := fun is check =>
    Lib.Machine.along_of_check _ _ (fun st arrivals _ => OwnPosition st arrivals) (start 64) is
      (fun _ _ _ => of_decide_eq_true) check
  exact ⟨stA, stB, handedA, handedB, ranA, ranB, served,
    (mcmc_isolation 2 64 0 (by decide +kernel) (along _ (by decide +kernel))
      (along _ (by decide +kernel)) ranA ranB).1⟩

end Mcmc
end MCsim
