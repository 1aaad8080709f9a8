import MCsim.Lib.Lanes
import MCsim.Lib.Rotation
import MCsim.Laws.RoundRobin

/-!
# Round robin over many request queues

`RequestScheduler_RR` walks the request queues with two indices: `queueIndex`, kept between calls,
finds the request, and the loop's own `index`, which starts over in every call, names the queue that
the request is removed from. The two agree in a call that starts with `queueIndex` at 0, and in no
other turn of any other call.

`Aligned` says of the state before a call that it starts so, counts a slot down, or finds nothing. A
run of such calls removes what it hands over (`roundRobin_removes`); in any other call the request
handed over stays where it was.
-/

namespace MCsim

namespace RequestQueue

open Lib.Lanes

variable {q q' : RequestQueue} {perRequestor : Bool}

/-- The requests of a requestor, or all of them. -/
def lane (q : RequestQueue) (id : Nat) : List Request :=
  if q.isPerRequestor then q.buffer id else q.generalBuffer

/-- The queue is of a kind, and a requestor's buffer is listed and holds its own requests. -/
structure Kept (perRequestor : Bool) (q : RequestQueue) : Prop where
  kind : q.perRequestorEnable = perRequestor
  listed : ∀ id, (q.requestorBuffer id).isSome = true → id ∈ q.requestorOrder
  owned : ∀ id, ∀ r ∈ q.buffer id, r.requestorID = id

theorem kept_create (perRequestor writeQueueEnable : Bool) :
    (create perRequestor writeQueueEnable).Kept perRequestor :=
  ⟨rfl, fun _ h => (nomatch h), fun _ _ h => (nomatch h)⟩

theorem lane_create (perRequestor writeQueueEnable : Bool) (id : Nat) :
    (create perRequestor writeQueueEnable).lane id = [] := by
  cases perRequestor <;> rfl

theorem Kept.mem_order (kept : q.Kept perRequestor) {id : Nat} (waits : q.buffer id ≠ []) :
    id ∈ q.requestorOrder := by
  apply kept.listed id
  cases e : q.requestorBuffer id with
  | none => exact absurd (by simp [buffer, e]) waits
  | some l => rfl

/-- A request joins the back of its lane, or goes to the write queue. -/
theorem Kept.insertRequest (kept : q.Kept perRequestor) (r : Request) :
    (q.insertRequest r).Kept perRequestor ∧
      q.requestorOrder.length ≤ (q.insertRequest r).requestorOrder.length ∧
      ∀ id, (q.insertRequest r).lane id = q.lane id ∨ (q.insertRequest r).lane id = q.lane id ++ [r] := by
  obtain ⟨kind, listed, owned⟩ := kept
  unfold RequestQueue.insertRequest
  split
  · exact ⟨⟨kind, listed, owned⟩, Nat.le_refl _, fun _ => .inl rfl⟩
  split
  · next per =>
    have joined : ∀ id, (if id = r.requestorID then some (q.buffer r.requestorID ++ [r])
        else q.requestorBuffer id).getD [] =
          if id = r.requestorID then q.buffer id ++ [r] else q.buffer id := by
      intro id
      split
      · next same => rw [same, Option.getD_some]
      · rfl
    have order : ∀ id ∈ q.requestorOrder, id ∈ (if (q.requestorBuffer r.requestorID).isNone then
        q.requestorOrder ++ [r.requestorID] else q.requestorOrder) := by
      intro id known
      split
      · exact List.mem_append_left _ known
      · exact known
    refine ⟨⟨kind, fun id present => ?_, fun id x hx => ?_⟩, ?_, fun id => ?_⟩
    · dsimp only at present ⊢
      split at present
      · next same =>
        subst same
        split
        · exact List.mem_append_right _ (List.mem_singleton.mpr rfl)
        · next known => exact listed _ (Option.isSome_iff_ne_none.mpr (by simpa using known))
      · exact order id (listed id present)
    · have hx : x ∈ if id = r.requestorID then q.buffer id ++ [r] else q.buffer id := joined id ▸ hx
      split at hx
      · next same =>
        rcases List.mem_append.mp hx with hx | hx
        · exact owned id x hx
        · rw [List.mem_singleton.mp hx, same]
      · exact owned id x hx
    · dsimp only
      split <;> simp
    · simp only [lane, isPerRequestor, per, if_true]
      by_cases same : id = r.requestorID
      · exact .inr ((joined id).trans (if_pos same))
      · exact .inl ((joined id).trans (if_neg same))
  · next general =>
    refine ⟨⟨kind, listed, owned⟩, Nat.le_refl _, fun id => .inr ?_⟩
    simp [lane, isPerRequestor, general]

/-- Removing takes an element from one buffer at most; the order of requestors stays. -/
theorem Kept.removeRequest (kept : q.Kept perRequestor) (removed : q.removeRequest = some q') :
    q'.Kept perRequestor ∧ q'.requestorOrder = q.requestorOrder := by
  obtain ⟨kind, listed, owned⟩ := kept
  unfold RequestQueue.removeRequest at removed
  split at removed
  · next id index _ =>
    split at removed
    · next inside =>
      cases removed
      have known : id ∈ q.requestorOrder :=
        Kept.mem_order ⟨kind, listed, owned⟩ fun empty => by simp [empty] at inside
      refine ⟨⟨kind, fun i present => ?_, fun i x hx => ?_⟩, rfl⟩
      · dsimp only at present
        split at present
        · next same => exact same ▸ known
        · exact listed i present
      · simp only [buffer] at hx
        split at hx
        · next same =>
          subst same
          exact owned i x (List.mem_of_mem_eraseIdx hx)
        · exact owned i x hx
    · cases removed
  · split at removed
    · cases removed
      exact ⟨⟨kind, listed, owned⟩, rfl⟩
    · cases removed

/-- The front of a lane, handed out and remembered. -/
structure HandsOut (q : RequestQueue) (r : Request) (q' q₀ : RequestQueue) : Prop where
  front : (q.lane r.requestorID).head? = some r
  remembered : ∃ mark, q' = { q with scheduledRequest := mark }
  removed : q'.removeRequest = some q₀
  rest : ∀ id, q₀.lane id =
    if q.perRequestorEnable = true → r.requestorID = id then (q.lane id).tail else q.lane id

theorem Kept.getRequestOf (kept : q.Kept true) {i id : Nat} {r : Request} {rest : List Request}
    (position : q.requestorOrder[i]? = some id) (front : q.buffer id = r :: rest) :
    ∃ q' q₀, q.getRequestOf i 0 = some (some r, q') ∧ q.HandsOut r q' q₀ := by
  have own : r.requestorID = id := kept.owned id r (front ▸ List.mem_cons_self)
  have lanes : ∀ id, q.lane id = q.buffer id := fun id => by
    simp [lane, isPerRequestor, kept.kind]
  obtain ⟨q', handed, removed⟩ := getRequestOf_front position front
  have mark : q' = { q with scheduledRequest := (true, id, 0) } := by
    simpa [RequestQueue.getRequestOf, position, front] using handed.symm
  refine ⟨q', q.withoutFront id, handed, ?_, ⟨_, mark⟩, removed, fun id' => ?_⟩
  · rw [lanes, own, front, List.head?_cons]
  · have kind : (q.withoutFront id).perRequestorEnable = true := kept.kind
    simp only [lane, isPerRequestor, kind, kept.kind, if_true, forall_const, buffer_withoutFront, own,
      eq_comm]

theorem Kept.getRequest (kept : q.Kept false) {r : Request} {rest : List Request}
    (front : q.generalBuffer = r :: rest) :
    ∃ q' q₀, q.getRequest 0 = some (some r, q') ∧ q.HandsOut r q' q₀ := by
  refine ⟨{ q with scheduledRequest := (false, 0, 0) },
    { q with scheduledRequest := (false, 0, 0), generalBuffer := rest }, ?_, ?_, ⟨_, rfl⟩, ?_, ?_⟩
  · simp [RequestQueue.getRequest, front]
  · simp [lane, isPerRequestor, kept.kind, front]
  · simp [RequestQueue.removeRequest, front]
  · intro id
    simp [lane, isPerRequestor, kept.kind, front]

end RequestQueue

namespace RoundRobin

open RequestScheduler Lib.Rotation

variable {table : Nat → Bool} {gen : Generator} {s s' : RequestScheduler} {p p' : RoundRobinState}
  {perRequestor : Bool}

/-- The requests of a requestor in a queue, or all of the queue's. -/
def lanes (s : RequestScheduler) (i id : Nat) : List Request := (s.requestQueue i).lane id

/-- No fixed priority, and pointers in range. -/
structure Pointed (s : RequestScheduler) (p : RoundRobinState) : Prop where
  plain : p.fixedPrioirty = false
  within : p.queueIndex = 0 ∨ p.queueIndex < s.queueCount
  pointer : ∀ i, p.queueRequestorIndex i = 0 ∨
    p.queueRequestorIndex i < (s.requestQueue i).requestorOrder.length

/-- What every call keeps: queues of one kind, and pointers in range. -/
structure Turning (perRequestor : Bool) (s : RequestScheduler) (p : RoundRobinState) : Prop
    extends Pointed s p where
  kept : ∀ i, (s.requestQueue i).Kept perRequestor

/-- A turn moves the pointer of its queue, and nothing else of the scheduler's own. -/
structure Moved (s : RequestScheduler) (p p' : RoundRobinState) : Prop where
  slot : p'.slotCounter = p.slotCounter
  index : p'.queueIndex = p.queueIndex
  plain : p'.fixedPrioirty = p.fixedPrioirty
  pointer : ∀ i, p'.queueRequestorIndex i = 0 ∨
    p'.queueRequestorIndex i < (s.requestQueue i).requestorOrder.length

/-- Remove from the queue at the loop's index the request that it handed out last. -/
def takeAt (index : Nat) (s : RequestScheduler) (p : RoundRobinState) (r : Request) : Option Outcome :=
  (s.requestQueue index).removeRequest.map fun q => (s.setQueue index q, p, some r, [r])

/-- The scheduler after the queue whose turn it is handed a request out and the generator took it. -/
def handing (s : RequestScheduler) (k : Nat) (q : RequestQueue) (g : CommandGenerator) :
    RequestScheduler :=
  { s.setQueue k q with commandGenerator := g }

/-- **A turn of a queue**: it has nothing, or the front of one of its lanes is handed over and the
queue at the loop's index removes. -/
inductive Turned (index : Nat) (s : RequestScheduler) (p : RoundRobinState) : Option Outcome → Prop
  | passes {p' : RoundRobinState} (moved : Moved s p p') (empty : ∀ id, lanes s p.queueIndex id = []) :
      Turned index s p (some (s, p', none, []))
  | grants {r : Request} {q q₀ : RequestQueue} {g : CommandGenerator} {p' : RoundRobinState}
      (moved : Moved s p p') (hands : (s.requestQueue p.queueIndex).HandsOut r q q₀) :
      Turned index s p (takeAt index (handing s p.queueIndex q g) p' r)

/-- The generator takes what it is handed, and the queue at the loop's index removes. -/
theorem isSchedulable_of_accepts (accepts : Accepts gen) (s : RequestScheduler) (r : Request) :
    ∃ g, s.isSchedulable gen r false = some ({ s with commandGenerator := g }, true) := by
  obtain ⟨g, accepted⟩ := accepts s.commandGenerator r false
  exact ⟨g, by simp [isSchedulable, accepted]⟩

theorem Moved.advance {size : Nat} (moved : Moved s p p')
    (same : (s.requestQueue p.queueIndex).getQueueSize = size) (small : position p' < size) :
    Moved s p (advance size p') ∧ position (RoundRobin.advance size p') = next size (position p') := by
  have at_ : position (RoundRobin.advance size p') = next size (position p') := by
    simp [position, RoundRobin.advance, next]
  refine ⟨⟨moved.slot, moved.index, moved.plain, fun i => ?_⟩, at_⟩
  by_cases here : i = p'.queueIndex
  · subst here
    right
    change position (RoundRobin.advance size p') < _
    rw [at_, moved.index]
    change next size (position p') < (s.requestQueue p.queueIndex).getQueueSize
    rw [same]
    exact next_lt small
  · simpa [RoundRobin.advance, here] using moved.pointer i

/-- The loop over the requestors passes positions with nothing waiting, to the end of its turns or to
the first that has something. -/
theorem requestorTurns_turned (table : Nat → Bool) (accepts : Accepts gen) (index : Nat) {size : Nat}
    (turns : Nat) (kept : (s.requestQueue p.queueIndex).Kept true) (plain : p.fixedPrioirty = false)
    (same : (s.requestQueue p.queueIndex).getQueueSize = size) (moved : Moved s p p')
    (small : position p' < size) :
    (∃ p₁, requestorTurns table gen index size turns s p' = some (s, p₁, none, []) ∧ Moved s p p₁ ∧
      ∀ j < turns, ∀ id, (s.requestQueue p.queueIndex).requestorOrder[(position p' + j) % size]? =
        some id → (s.requestQueue p.queueIndex).buffer id = []) ∨
    ∃ r q q₀ g p₁, Moved s p p₁ ∧ (s.requestQueue p.queueIndex).HandsOut r q q₀ ∧
      requestorTurns table gen index size turns s p' = takeAt index (handing s p.queueIndex q g) p₁ r := by
  induction turns generalizing p' with
  | zero => exact .inl ⟨p', rfl, moved, fun j hj => absurd hj (Nat.not_lt_zero j)⟩
  | succ turns ih =>
    obtain ⟨id, known⟩ : ∃ id, (s.requestQueue p.queueIndex).requestorOrder[position p']? = some id :=
      ⟨_, List.getElem?_eq_getElem (Nat.lt_of_lt_of_eq small same.symm)⟩
    obtain ⟨advanced, at_⟩ := moved.advance same small
    have size_at := RequestQueue.getSize_position known
    cases front : (s.requestQueue p.queueIndex).buffer id with
    | nil =>
      have passes : requestorTurns table gen index size (turns + 1) s p' =
          requestorTurns table gen index size turns s (advance size p') := by
        simp [requestorTurns, moved.index, size_at, front]
      rw [passes]
      have later := ih advanced (at_ ▸ next_lt small)
      apply later.imp_left
      rintro ⟨p₁, ended, moved₁, empty⟩
      refine ⟨p₁, ended, moved₁, fun j hj id' at_j => ?_⟩
      cases j with
      | zero =>
        rw [Nat.add_zero, Nat.mod_eq_of_lt small, known] at at_j
        exact Option.some.inj at_j ▸ front
      | succ j =>
        have next_eq : next size (position p') = (position p' + 1) % size := by
          have := next_mod (Nat.zero_lt_of_lt small) (position p') 0
          rwa [Nat.add_zero, Nat.mod_eq_of_lt small] at this
        apply empty j (by omega) id'
        rw [at_, next_eq, Nat.mod_add_mod, Nat.add_assoc, Nat.add_comm 1 j]
        exact at_j
    | cons r rest =>
      obtain ⟨q, q₀, handed, hands⟩ := kept.getRequestOf known front
      obtain ⟨g, scheduled⟩ := isSchedulable_of_accepts accepts (s.setQueue p.queueIndex q) r
      refine .inr ⟨r, q, q₀, g, advance size p', advanced, hands, ?_⟩
      have plain' : p'.fixedPrioirty = false := moved.plain.trans plain
      simp [requestorTurns, moved.index, size_at, front, handed, plain', grant, scheduled, takeAt,
        handing]

/-- **The turn of one queue.** -/
theorem queueTurn_turned (table : Nat → Bool) (accepts : Accepts gen) (index : Nat) (turning : Turning perRequestor s p) :
    Turned index s p (queueTurn table gen index s p) := by
  have kept := turning.kept p.queueIndex
  have here : Moved s p p := ⟨rfl, rfl, rfl, turning.pointer⟩
  cases perRequestor with
  | true =>
    have per : (s.requestQueue p.queueIndex).isPerRequestor = true := kept.kind
    have lane_eq : ∀ id, lanes s p.queueIndex id = (s.requestQueue p.queueIndex).buffer id := by
      intro id
      simp [lanes, RequestQueue.lane, per]
    simp only [queueTurn, per, if_true]
    split
    · next some_requestor =>
      have small : position p < (s.requestQueue p.queueIndex).getQueueSize := by
        rcases turning.pointer p.queueIndex with zero | small
        · rw [position, zero]
          exact some_requestor
        · exact small
      rcases requestorTurns_turned table accepts index (s.requestQueue p.queueIndex).getQueueSize kept
        turning.plain rfl here small with
        ⟨p₁, ended, moved, empty⟩ | ⟨r, q, q₀, g, p₁, moved, hands, ended⟩
      · have aside : grantAside gen (s, p₁, none, []) = some (s, p₁, none, []) := by
          simp [grantAside, moved.plain.trans turning.plain]
        rw [ended, Option.bind_some, aside]
        refine .passes moved fun id => ?_
        rw [lane_eq]
        by_contra waits
        obtain ⟨i, small_i, at_i⟩ := List.getElem_of_mem (kept.mem_order waits)
        obtain ⟨j, hj, reached⟩ := exists_steps small small_i
        refine waits (empty j hj id ?_)
        rw [reached]
        exact List.getElem?_eq_some_iff.mpr ⟨small_i, at_i⟩
      · rw [ended]
        have aside : (takeAt index (handing s p.queueIndex q g) p₁ r).bind (grantAside gen) =
            takeAt index (handing s p.queueIndex q g) p₁ r := by
          unfold takeAt
          cases ((handing s p.queueIndex q g).requestQueue index).removeRequest <;> rfl
        rw [aside]
        exact .grants moved hands
    · next no_requestor =>
      refine .passes here fun id => ?_
      rw [lane_eq]
      by_contra waits
      have known := kept.mem_order waits
      exact no_requestor (List.length_pos_of_mem known)
  | false =>
    have general : (s.requestQueue p.queueIndex).isPerRequestor = false := kept.kind
    simp only [queueTurn, general, Bool.false_eq_true, if_false]
    cases front : (s.requestQueue p.queueIndex).generalBuffer with
    | nil =>
      refine .passes here fun id => ?_
      simp [lanes, RequestQueue.lane, general, front]
    | cons r rest =>
      obtain ⟨q, q₀, handed, hands⟩ := kept.getRequest front
      obtain ⟨g, scheduled⟩ := isSchedulable_of_accepts accepts (s.setQueue p.queueIndex q) r
      simp only [List.length_cons, gt_iff_lt, Nat.succ_pos, if_true, handed, Option.bind_some,
        scheduled]
      exact .grants (g := g) here hands

/-- The queue to go on with. -/
theorem Moved.nextQueue (moved : Moved s p p') (turning : Turning perRequestor s p) {place steps : Nat}
    (some_queue : 0 < s.queueCount) (at_ : p.queueIndex = (place + steps) % s.queueCount) :
    (nextQueue s.queueCount p').queueIndex = (place + (steps + 1)) % s.queueCount ∧
      Pointed s (RoundRobin.nextQueue s.queueCount p') := by
  have index : (RoundRobin.nextQueue s.queueCount p').queueIndex =
      (place + (steps + 1)) % s.queueCount := by
    rw [← next_mod some_queue, ← at_, ← moved.index]
    rfl
  refine ⟨index, moved.plain.trans turning.plain, .inr ?_, moved.pointer⟩
  rw [index]
  exact Nat.mod_lt _ some_queue

/-- **A call**: it counts the slot down, or no queue has anything, or the first queue from `queueIndex`
on that has something hands a request over and the queue at the loop's index removes. -/
inductive Walked (s : RequestScheduler) (p : RoundRobinState) :
    Option (RequestScheduler × RoundRobinState × List Request) → Prop
  | waits (busy : p.slotCounter ≠ 0) :
      Walked s p (some (s, { p with slotCounter := p.slotCounter - 1 }, []))
  | nothing {p' : RoundRobinState} (free : p.slotCounter = 0) (pointed : Pointed s p')
      (empty : ∀ i < s.queueCount, ∀ id, lanes s i id = []) : Walked s p (some (s, p', []))
  | grants {i k : Nat} {r : Request} {q q₀ : RequestQueue} {g : CommandGenerator}
      {p' : RoundRobinState} (free : p.slotCounter = 0) (bound : i < s.queueCount)
      (turn : k = (p.queueIndex + i) % s.queueCount) (hands : (s.requestQueue k).HandsOut r q q₀)
      (pointed : Pointed s p') :
      Walked s p (((handing s k q g).requestQueue i).removeRequest.map fun q' =>
        ((handing s k q g).setQueue i q', p', [r]))

/-- The loop over the queues, from an index on. -/
theorem queueTurns_walked (table : Nat → Bool) (accepts : Accepts gen) (free : p.slotCounter = 0)
    (left : Nat) {i : Nat} (all : i + left = s.queueCount) (some_queue : 0 < s.queueCount)
    (turning : Turning perRequestor s p') (slot : p'.slotCounter = 0)
    (at_ : p'.queueIndex = (p.queueIndex + i) % s.queueCount)
    (passed : ∀ j < i, ∀ id, lanes s ((p.queueIndex + j) % s.queueCount) id = []) :
    (∃ p₁, queueTurns table gen (List.range' i left) s p' [] = some (s, p₁, []) ∧ Pointed s p₁ ∧
      ∀ j < s.queueCount, ∀ id, lanes s ((p.queueIndex + j) % s.queueCount) id = []) ∨
    Walked s p (queueTurns table gen (List.range' i left) s p' []) := by
  induction left generalizing i p' with
  | zero =>
    obtain rfl : i = s.queueCount := by omega
    exact .inl ⟨p', rfl, turning.toPointed, passed⟩
  | succ left ih =>
    rw [List.range'_succ, queueTurns]
    have turned := queueTurn_turned table accepts i turning
    generalize queueTurn table gen i s p' = out at turned
    cases turned with
    | @passes p₁ moved empty =>
      obtain ⟨index, pointed⟩ := moved.nextQueue turning some_queue at_
      apply ih (i := i + 1) (by omega) ⟨pointed, turning.kept⟩ (moved.slot.trans slot) index
      intro j hj id
      rcases Nat.lt_succ_iff_lt_or_eq.mp hj with earlier | rfl
      · exact passed j earlier id
      · exact at_ ▸ empty id
    | @grants r q q₀ g p₁ moved hands =>
      obtain ⟨_, pointed⟩ := moved.nextQueue turning some_queue at_
      have slotted : Pointed s { nextQueue s.queueCount p₁ with slotCounter := timeSlot - 1 } :=
        ⟨pointed.plain, pointed.within, pointed.pointer⟩
      have whole := Walked.grants (g := g) free (show i < s.queueCount by omega) at_ hands slotted
      refine .inr ?_
      unfold takeAt
      cases removed : ((handing s p'.queueIndex q g).requestQueue i).removeRequest with
      | none =>
        rw [removed] at whole
        exact whole
      | some q' =>
        rw [removed] at whole
        exact whole

theorem requestSchedule_walked (table : Nat → Bool) (accepts : Accepts gen)
    (turning : Turning perRequestor s p) : Walked s p (requestSchedule table gen () s p) := by
  unfold requestSchedule
  split
  · next free =>
    rcases Nat.eq_zero_or_pos s.queueCount with zero | some_queue
    · simp only [zero, List.range_zero, queueTurns]
      exact .nothing free turning.toPointed fun i hi => absurd hi (by omega)
    · have within : p.queueIndex < s.queueCount := by
        rcases turning.within with first | within
        · rwa [first]
        · exact within
      rw [List.range_eq_range']
      rcases queueTurns_walked table accepts free s.queueCount (Nat.zero_add _) some_queue turning free
        (Nat.mod_eq_of_lt within).symm (fun j hj => absurd hj (Nat.not_lt_zero j)) with
        ⟨p₁, ended, pointed, empty⟩ | walked
      · rw [ended]
        refine .nothing free pointed fun i hi id => ?_
        obtain ⟨j, hj, reached⟩ := exists_steps within hi
        exact reached ▸ empty j hj id
      · exact walked
  · next busy => exact .waits busy

/-! ## What leaves -/

open Lib.Lanes Lib.Machine

/-- The lanes that show a request of a queue. -/
def shows (perRequestor : Bool) (k : Nat) (r : Request) (i id : Nat) : Bool :=
  k == i && (!perRequestor || r.requestorID == id)

/-- What leaves a queue is what is handed over. -/
def RemovesHanded (perRequestor : Bool) (s s' : RequestScheduler) (handed : List Request) : Prop :=
  (handed = [] ∧ ∀ i id, lanes s' i id = lanes s i id) ∨
  ∃ k < s.queueCount, ∃ r, handed = [r] ∧
    Takes Request.requestorID (shows perRequestor k r) k r (lanes s) (lanes s')

/-- A request is handed over, and nothing leaves its queue. -/
def KeepsHanded (s s' : RequestScheduler) (handed : List Request) : Prop :=
  ∃ k < s.queueCount, ∃ r, handed = [r] ∧ (lanes s k r.requestorID).head? = some r ∧
    ∀ id, lanes s' k id = lanes s k id

/-- Some queue has a request. -/
def SomeWaits (s : RequestScheduler) : Prop := ∃ i < s.queueCount, ∃ id, lanes s i id ≠ []

/-- A grant starts with the first queue. -/
def Starts (s : RequestScheduler) (p : RoundRobinState) : Prop :=
  p.slotCounter = 0 → SomeWaits s → p.queueIndex = 0

theorem someWaits_of_handsOut {k : Nat} {r : Request} {q q₀ : RequestQueue} (bound : k < s.queueCount)
    (hands : (s.requestQueue k).HandsOut r q q₀) : SomeWaits s := by
  refine ⟨k, bound, r.requestorID, fun empty => ?_⟩
  have front := hands.front
  rw [show (s.requestQueue k).lane r.requestorID = [] from empty] at front
  cases front

/-- Handing out changes what a queue remembers, and nothing else of the queues. -/
theorem handing_queue {k : Nat} {r : Request} {q q₀ : RequestQueue}
    (hands : (s.requestQueue k).HandsOut r q q₀) (g : CommandGenerator) (j : Nat) :
    ∃ mark, (handing s k q g).requestQueue j = { s.requestQueue j with scheduledRequest := mark } := by
  by_cases here : j = k
  · subst here
    obtain ⟨mark, rfl⟩ := hands.remembered
    exact ⟨mark, if_pos rfl⟩
  · exact ⟨(s.requestQueue j).scheduledRequest, if_neg here⟩

/-- Every outcome of a call leaves the queues in shape. -/
theorem Walked.turning {handed : List Request} (walked : Walked s p (some (s', p', handed)))
    (turning : Turning perRequestor s p) :
    Turning perRequestor s' p' ∧ s'.queueCount = s.queueCount := by
  generalize out : some (s', p', handed) = o at walked
  cases walked with
  | waits busy =>
    obtain ⟨rfl, rfl, rfl⟩ : _ ∧ _ ∧ _ := by simpa using out
    exact ⟨⟨⟨turning.plain, turning.within, turning.pointer⟩, turning.kept⟩, rfl⟩
  | nothing free pointed empty =>
    obtain ⟨rfl, rfl, rfl⟩ : _ ∧ _ ∧ _ := by simpa using out
    exact ⟨⟨pointed, turning.kept⟩, rfl⟩
  | @grants i k r q q₀ g p₁ free bound turn hands pointed =>
    obtain ⟨q', removed, same⟩ := Option.map_eq_some_iff.mp out.symm
    obtain ⟨rfl, rfl, rfl⟩ : _ ∧ _ ∧ _ := by simpa using same
    have all : ∀ j, (((handing s k q g).setQueue i q').requestQueue j).Kept perRequestor ∧
        (((handing s k q g).setQueue i q').requestQueue j).requestorOrder =
          (s.requestQueue j).requestorOrder := by
      intro j
      obtain ⟨mark, marked⟩ := handing_queue hands g j
      have kept : ((handing s k q g).requestQueue j).Kept perRequestor := by
        rw [marked]
        exact ⟨(turning.kept j).kind, (turning.kept j).listed, (turning.kept j).owned⟩
      have order : ((handing s k q g).requestQueue j).requestorOrder =
          (s.requestQueue j).requestorOrder := by rw [marked]
      by_cases here : j = i
      · subst here
        obtain ⟨kept', order'⟩ := kept.removeRequest removed
        simpa [setQueue] using And.intro kept' (order'.trans order)
      · simpa [setQueue, here] using And.intro kept order
    refine ⟨⟨⟨pointed.plain, pointed.within, fun j => ?_⟩, fun j => (all j).1⟩, rfl⟩
    rw [(all j).2]
    exact pointed.pointer j

/-- **A call that starts with the first queue** is defined, and removes what it hands over. -/
theorem Walked.removesHanded {out : Option (RequestScheduler × RoundRobinState × List Request)}
    (walked : Walked s p out) (turning : Turning perRequestor s p) (starts : Starts s p) :
    ∃ s' p' handed, out = some (s', p', handed) ∧ RemovesHanded perRequestor s s' handed := by
  cases walked with
  | waits busy => exact ⟨_, _, _, rfl, .inl ⟨rfl, fun _ _ => rfl⟩⟩
  | nothing free pointed empty => exact ⟨_, _, _, rfl, .inl ⟨rfl, fun _ _ => rfl⟩⟩
  | @grants i k r q q₀ g p₁ free bound turn hands pointed =>
    have below : k < s.queueCount := turn ▸ Nat.mod_lt _ (Nat.zero_lt_of_lt bound)
    have first := starts free (someWaits_of_handsOut below hands)
    obtain rfl : k = i := by rw [turn, first, Nat.zero_add, Nat.mod_eq_of_lt bound]
    have here : (handing s k q g).requestQueue k = q := by simp [handing, setQueue]
    rw [here, hands.removed]
    refine ⟨_, _, _, rfl, .inr ⟨k, bound, r, rfl, ?_, hands.front, fun j id => ?_⟩⟩
    · simp [shows]
    · have kind := (turning.kept k).kind
      by_cases same : j = k
      · subst same
        have rest := hands.rest id
        rw [kind] at rest
        cases perRequestor with
        | true => simpa [lanes, setQueue, shows] using rest
        | false => simpa [lanes, setQueue, shows] using rest
      · simp [lanes, setQueue, handing, shows, same, Ne.symm same]

/-- **Any other call**, where it is defined, hands a request over that stays. -/
theorem Walked.keepsHanded {handed : List Request} (walked : Walked s p (some (s', p', handed)))
    (turning : Turning perRequestor s p) (strays : ¬ Starts s p) : KeepsHanded s s' handed := by
  have free : p.slotCounter = 0 := by
    by_contra busy
    exact strays fun free => absurd free busy
  have waits : SomeWaits s := by
    by_contra nothing
    exact strays fun _ waits => absurd waits nothing
  have elsewhere : p.queueIndex ≠ 0 := fun first => strays fun _ _ => first
  have within : p.queueIndex < s.queueCount := turning.within.resolve_left elsewhere
  generalize out : some (s', p', handed) = o at walked
  cases walked with
  | waits busy => exact absurd free busy
  | nothing _ pointed empty =>
    obtain ⟨i, bound, id, waits⟩ := waits
    exact absurd (empty i bound id) waits
  | @grants i k r q q₀ g p₁ _ bound turn hands pointed =>
    obtain ⟨q', removed, same⟩ := Option.map_eq_some_iff.mp out.symm
    obtain ⟨rfl, rfl, rfl⟩ : _ ∧ _ ∧ _ := by simpa using same
    have below : k < s.queueCount := turn ▸ Nat.mod_lt _ (Nat.zero_lt_of_lt bound)
    -- the two indices are apart by `queueIndex`
    have apart : k ≠ i := by
      rintro rfl
      rcases Nat.lt_or_ge (p.queueIndex + k) s.queueCount with small | large
      · rw [Nat.mod_eq_of_lt small] at turn
        omega
      · rw [Nat.mod_eq_sub_mod large, Nat.mod_eq_of_lt (by omega)] at turn
        omega
    obtain ⟨mark, marked⟩ := handing_queue hands g k
    refine ⟨k, below, r, rfl, hands.front, fun id => ?_⟩
    unfold lanes
    rw [show ((handing s k q g).setQueue i q').requestQueue k = (handing s k q g).requestQueue k from
      if_neg apart, marked]
    rfl

/-! ## Runs -/

/-- The queue that a call inserts into exists. -/
def Fits (queueCount : Nat) : RequestCall Unit → Prop
  | .insertRequest index _ => index < queueCount
  | .requestSchedule _ => True

/-- A call of `requestSchedule` that grants starts with the first queue. -/
def Aligned (st : RequestScheduler × RoundRobinState) : RequestCall Unit → Prop
  | .insertRequest _ _ => True
  | .requestSchedule _ => Starts st.1 st.2

/-- What a call of `requestSchedule` removes is what it hands over. -/
def RemovesWhatItHands (perRequestor : Bool) (st : RequestScheduler × RoundRobinState)
    (call : RequestCall Unit) (st' : RequestScheduler × RoundRobinState) (handed : List Request) :
    Prop :=
  match call with
  | .insertRequest _ _ => True
  | .requestSchedule _ => RemovesHanded perRequestor st.1 st'.1 handed

theorem turning_create (queueCount : Nat) (perRequestor writeQueueEnable : Bool) (dataBusSize : Nat) :
    Turning perRequestor
      (RequestScheduler.createQueues queueCount perRequestor writeQueueEnable dataBusSize) {} :=
  ⟨⟨rfl, .inl rfl, fun _ => .inl rfl⟩, fun _ => RequestQueue.kept_create perRequestor writeQueueEnable⟩

/-- A request joins the lanes of its queue, or goes to the write queue. -/
theorem Turning.insertRequest (turning : Turning perRequestor s p) (index : Nat) (r : Request) :
    Turning perRequestor (s.setQueue index ((s.requestQueue index).insertRequest r)) p ∧
      Joins index r (lanes s) (lanes (s.setQueue index ((s.requestQueue index).insertRequest r))) := by
  obtain ⟨kept, longer, joined⟩ := (turning.kept index).insertRequest r
  refine ⟨⟨⟨turning.plain, turning.within, fun i => ?_⟩, fun i => ?_⟩, fun i id => ?_⟩
  · by_cases here : i = index
    · subst here
      rw [show (s.setQueue i ((s.requestQueue i).insertRequest r)).requestQueue i =
        (s.requestQueue i).insertRequest r from if_pos rfl]
      exact (turning.pointer i).imp_right fun small => Nat.lt_of_lt_of_le small longer
    · simpa [setQueue, here] using turning.pointer i
  · by_cases here : i = index
    · subst here
      simpa [setQueue] using kept
    · simpa [setQueue, here] using turning.kept i
  · by_cases here : i = index
    · subst here
      simpa [lanes, setQueue] using joined id
    · simp [lanes, setQueue, here]

/-- **A step**: every call keeps the queues in shape; one that starts with the first queue removes what
it hands over, and any other hands over a request that stays. -/
theorem step_walked (table : Nat → Bool) (accepts : Accepts gen)
    {st st' : RequestScheduler × RoundRobinState} {call : RequestCall Unit} {handed : List Request}
    (turning : Turning perRequestor st.1 st.2)
    (stepped : (requestSchedule table gen).step st call = some (st', handed)) :
    Turning perRequestor st'.1 st'.2 ∧ st'.1.queueCount = st.1.queueCount ∧
      (Aligned st call → RemovesWhatItHands perRequestor st call st' handed) ∧
      (¬ Aligned st call → KeepsHanded st.1 st'.1 handed) := by
  obtain ⟨s, p⟩ := st
  rcases RequestScheduling.step_cases stepped with ⟨index, r, rfl, bound, rfl, rfl⟩ | ⟨_, rfl, called⟩
  · exact ⟨(turning.insertRequest index r).1, rfl, fun _ => trivial, fun strays => absurd trivial strays⟩
  · have walked := requestSchedule_walked table accepts turning
    rw [called] at walked
    obtain ⟨turning', count⟩ := walked.turning turning
    refine ⟨turning', count, fun aligned => ?_, fun strays => walked.keepsHanded turning strays⟩
    obtain ⟨s', p', handed', same, removes⟩ := walked.removesHanded turning aligned
    obtain ⟨rfl, rfl, rfl⟩ : _ ∧ _ ∧ _ := by simpa using same
    exact removes

/-- A step from a state and with a call that fit is defined. -/
theorem step_defined (table : Nat → Bool) (accepts : Accepts gen)
    {st : RequestScheduler × RoundRobinState} {call : RequestCall Unit}
    (turning : Turning perRequestor st.1 st.2) (fits : Fits st.1.queueCount call)
    (aligned : Aligned st call) :
    ∃ st' handed, (requestSchedule table gen).step st call = some (st', handed) := by
  obtain ⟨s, p⟩ := st
  cases call with
  | insertRequest index r => exact ⟨_, _, if_pos fits⟩
  | requestSchedule u =>
    obtain ⟨s', p', handed, called, _⟩ :=
      (requestSchedule_walked table accepts turning).removesHanded turning aligned
    exact ⟨(s', p'), handed, congrArg (Option.map _) called⟩

/-- What was handed over and what waits was inserted. -/
structure Ledger (perRequestor : Bool) (queueCount : Nat) (calls : List (RequestCall Unit))
    (st : RequestScheduler × RoundRobinState) (told : List (List Request)) : Prop where
  turning : Turning perRequestor st.1 st.2
  count : st.1.queueCount = queueCount
  conserved : Conserved Request.requestorID queueCount (calls.flatMap RequestCall.inserted)
    told.flatten (lanes st.1)

theorem Ledger.step (table : Nat → Bool) (accepts : Accepts gen) {queueCount : Nat}
    {calls : List (RequestCall Unit)} {told : List (List Request)}
    {st st' : RequestScheduler × RoundRobinState} {call : RequestCall Unit} {handed : List Request}
    (ledger : Ledger perRequestor queueCount calls st told)
    (stepped : (requestSchedule table gen).step st call = some (st', handed))
    (aligned : Aligned st call) :
    Ledger perRequestor queueCount (calls ++ [call]) st' (told ++ [handed]) := by
  obtain ⟨turning, count, conserved⟩ := ledger
  obtain ⟨turning', count', removes, _⟩ := step_walked table accepts turning stepped
  refine ⟨turning', count'.trans count, ?_⟩
  rw [List.flatMap_append, List.flatten_append, List.flatMap_singleton, List.flatten_singleton]
  obtain ⟨s, p⟩ := st
  rcases RequestScheduling.step_cases stepped with ⟨index, r, rfl, bound, rfl, rfl⟩ | ⟨_, rfl, called⟩
  · rw [List.append_nil]
    exact conserved.joins (turning.insertRequest index r).2
  · rw [show (RequestCall.requestSchedule _ : RequestCall Unit).inserted = [] from rfl, List.append_nil]
    rcases removes aligned with ⟨rfl, same⟩ | ⟨k, bound, r, rfl, takes⟩
    · rw [List.append_nil]
      exact conserved.congr same
    · exact conserved.takes (count ▸ bound) takes

/-- **Round robin over many queues.** A run whose grants all start with the first queue goes through,
every call removes what it hands over, and nothing is handed over twice. A grant that starts with
another queue hands over a request and leaves it where it was. -/
theorem roundRobin_removes (table : Nat → Bool) (gen : Generator) (accepts : Accepts gen)
    (queueCount : Nat) (perRequestor writeQueueEnable : Bool) (dataBusSize : Nat)
    (calls : List (RequestCall Unit)) (fits : ∀ call ∈ calls, Fits queueCount call) :
    (Meets (requestSchedule table gen).step Aligned
        (createQueues queueCount perRequestor writeQueueEnable dataBusSize, {}) calls →
      Along (requestSchedule table gen).step (RemovesWhatItHands perRequestor)
          (createQueues queueCount perRequestor writeQueueEnable dataBusSize, {}) calls ∧
        ∃ st told, run (requestSchedule table gen).step
            (createQueues queueCount perRequestor writeQueueEnable dataBusSize, {}) calls =
              some (st, told) ∧
          told.flatten.Subperm (calls.flatMap RequestCall.inserted)) ∧
    Along (requestSchedule table gen).step
      (fun st call st' handed => ¬ Aligned st call → KeepsHanded st.1 st'.1 handed)
      (createQueues queueCount perRequestor writeQueueEnable dataBusSize, {}) calls := by
  have start := turning_create queueCount perRequestor writeQueueEnable dataBusSize
  refine ⟨fun meets => ⟨?_, ?_⟩, ?_⟩
  · exact along_invariant (fun st => Turning perRequestor st.1 st.2) (fun turning stepped aligned =>
      have walked := step_walked table accepts turning stepped
      ⟨walked.1, walked.2.2.1 aligned⟩) start meets.along
  · obtain ⟨st, told, ran⟩ := run_defined_of_meets
      (fun st : RequestScheduler × RoundRobinState =>
        Turning perRequestor st.1 st.2 ∧ st.1.queueCount = queueCount)
      (fun {st call} inv met => by
        obtain ⟨st', handed, stepped⟩ := step_defined table accepts inv.1 (inv.2 ▸ met.2) met.1
        have walked := step_walked table accepts inv.1 stepped
        exact ⟨st', handed, stepped, walked.1, walked.2.1.trans inv.2⟩)
      ⟨start, rfl⟩ (meets.and (meets_of_forall _ _ fits))
    have empty : Ledger perRequestor queueCount []
        (createQueues queueCount perRequestor writeQueueEnable dataBusSize, {}) [] :=
      ⟨start, rfl, conserved_nil fun _ => RequestQueue.lane_create perRequestor writeQueueEnable⟩
    have ledger := run_history_along (Ledger perRequestor queueCount)
      (fun ledger stepped aligned => ledger.step table accepts stepped aligned) empty meets.along ran
    exact ⟨st, told, ran, ledger.conserved.subperm⟩
  · exact along_invariant (fun st => Turning perRequestor st.1 st.2) (fun turning stepped _ =>
      have walked := step_walked table accepts turning stepped
      ⟨walked.1, walked.2.2.2⟩) start (along_true _ _)

/-- A read of a requestor, told apart by its handle. -/
def readOf (handle requestorID : Nat) : Request :=
  { sampleRequest .DATA_READ requestorID 0 with handle := handle }

/-- Two reads that wait in the second of two queues, and the calls to grant both. -/
def lastQueueReads : List (RequestCall Unit) :=
  [.insertRequest 1 (readOf 0 0), .insertRequest 1 (readOf 1 0)] ++
    List.replicate 43 (.requestSchedule ())

/-- The law at a run whose grants are all from the last queue, so that each starts with the first. -/
theorem roundRobin_removes_lastQueue : ∃ st told,
    run (requestSchedule (fun _ => true) acceptingGenerator).step
      (createQueues 2 false false 64, {}) lastQueueReads = some (st, told) ∧
    told.flatten.Subperm (lastQueueReads.flatMap RequestCall.inserted) := by
  refine ((roundRobin_removes (fun _ => true) acceptingGenerator (fun g _ _ => ⟨g, rfl⟩) 2 false false
    64 lastQueueReads ?_).1 ?_).2
  · simp [lastQueueReads, Fits]
  · refine meets_of_check _ (fun st call => match call with
      | .insertRequest _ _ => true
      | .requestSchedule _ => st.2.slotCounter ≠ 0 ∨ st.2.queueIndex = 0) Aligned _ _ ?_ ?_
    · rintro st (_ | _) aligned
      · trivial
      · intro free _
        exact (of_decide_eq_true aligned).resolve_left fun busy => busy free
    · decide +kernel

/-- A read in each of two queues, and another one that arrives in the first after its grant. -/
def straying : List (RequestCall Unit) :=
  [.insertRequest 0 (readOf 0 0), .insertRequest 1 (readOf 1 0), .requestSchedule (),
    .insertRequest 0 (readOf 2 0)] ++ List.replicate 84 (.requestSchedule ())

/-- The second grant starts with the second queue: its read is handed over, but the new one leaves the
first queue in its place, is never handed over, and the read of the second queue is handed over again. -/
theorem roundRobin_removes_other : ∃ st told,
    run (requestSchedule (fun _ => true) acceptingGenerator).step
      (createQueues 2 false false 64, {}) straying = some (st, told) ∧
    straying.flatMap RequestCall.inserted = [readOf 0 0, readOf 1 0, readOf 2 0] ∧
    told.flatten = [readOf 0 0, readOf 1 0, readOf 1 0] ∧
    (st.1.requestQueue 0).generalBuffer = [] ∧ (st.1.requestQueue 1).generalBuffer = [] ∧
    ¬ told.flatten.Subperm (straying.flatMap RequestCall.inserted) := by
  obtain ⟨st, told, ran, handed, first, second⟩ := run_exists_told
    (requestSchedule (fun _ => true) acceptingGenerator).step
    (fun st told => told.flatten = [readOf 0 0, readOf 1 0, readOf 1 0] ∧
      (st.1.requestQueue 0).generalBuffer = [] ∧ (st.1.requestQueue 1).generalBuffer = [])
    (createQueues 2 false false 64, {}) straying (by decide +kernel)
  have inserted : straying.flatMap RequestCall.inserted = [readOf 0 0, readOf 1 0, readOf 2 0] := by
    decide
  refine ⟨st, told, ran, inserted, handed, first, second, fun once => ?_⟩
  rw [handed, inserted] at once
  exact absurd (once.count_le (readOf 1 0)) (by decide)

end RoundRobin
end MCsim
