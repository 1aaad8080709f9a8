import MCsim.Requests.Direct
import MCsim.Laws.Requestors

/-!
# DIRECT takes one request of every requestor

The walk around a queue visits every requestor of it once, from the pointer on, and ends where it
began: the order read from the pointer on (`List.rotate`) is what it visits, one requestor a turn
(`Lib.Rotation.take_rotate_next`). Requestors that join between two calls join at the end of the order,
which leaves the pointer a position of it.
-/

namespace MCsim
namespace Direct

open RequestScheduler

variable {next : CommandGenerator → Request → Bool → CommandGenerator}
  {s s' : RequestScheduler} {p p' : DirectState} {index : Nat}

/-- The oldest requests of these requestors, where they have any. -/
def fronts (q : RequestQueue) (ids : List Nat) : List Request :=
  ids.filterMap fun id => (q.buffer id).head?

/-- The scheduler after the fronts of these requestors have left a queue: nothing else has moved. -/
structure Drawn (index : Nat) (ids : List Nat) (s s' : RequestScheduler) : Prop where
  count : s'.queueCount = s.queueCount
  order : (s'.requestQueue index).requestorOrder = (s.requestQueue index).requestorOrder
  listed : (s'.requestQueue index).Listed
  buffers : ∀ id, (s'.requestQueue index).buffer id =
    if id ∈ ids then ((s.requestQueue index).buffer id).tail else (s.requestQueue index).buffer id
  others : ∀ i, i ≠ index → s'.requestQueue i = s.requestQueue i

variable (next) in
/-- A requestor's front is handed over and leaves its buffer. -/
theorem serve_front {i id : Nat} {r : Request} {rest : List Request}
    (listed : (s.requestQueue index).Listed)
    (position : (s.requestQueue index).requestorOrder[i]? = some id)
    (front : (s.requestQueue index).buffer id = r :: rest) :
    ∃ q s', (s.requestQueue index).getRequestOf i 0 = some (some r, q) ∧
      (s.setQueue index q).serve (accepting next) index r = some (s', true) ∧
      Drawn index [id] s s' := by
  obtain ⟨q, handed, removed⟩ := RequestQueue.getRequestOf_front position front
  have here : ((s.setQueue index q).requestQueue index).removeRequest =
      some ((s.requestQueue index).withoutFront id) := by
    simpa [setQueue] using removed
  refine ⟨q, { ((s.setQueue index q).updateRowTable r.addressMap.rank r.addressMap.bank r.row).setQueue
      index ((s.requestQueue index).withoutFront id) with
    commandGenerator := next s.commandGenerator r ((s.setQueue index q).isRowHit r) }, handed, ?_, ?_⟩
  · simp only [serve, isSchedulable, accepting, Option.map_some, Option.bind_some, if_true, here]
    rfl
  · have left : ∀ (t : RequestScheduler) (q' : RequestQueue), (t.setQueue index q').requestQueue index = q' :=
      fun t q' => by simp [setQueue]
    refine ⟨rfl, ?_, ?_, ?_, ?_⟩
    · simp [setQueue]
    · simp only [left]
      exact listed.withoutFront (List.mem_of_getElem? position)
    · intro i
      simp only [left, RequestQueue.buffer_withoutFront, List.mem_singleton]
    · intro i other
      simp [setQueue, updateRowTable, other]

/-- Fronts that leave one after the other. -/
theorem Drawn.trans {id : Nat} {ids : List Nat} {t : RequestScheduler} (first : Drawn index [id] s s')
    (later : Drawn index ids s' t) (new : id ∉ ids) : Drawn index (id :: ids) s t := by
  refine ⟨later.count.trans first.count, later.order.trans first.order, later.listed, ?_, ?_⟩
  · intro i
    rw [later.buffers, first.buffers]
    by_cases same : i = id
    · subst same
      simp [new]
    · simp [same]
  · intro i other
    rw [later.others i other, first.others i other]

/-- A requestor without a request is passed over. -/
theorem Drawn.skip {id : Nat} {ids : List Nat} (empty : (s.requestQueue index).buffer id = [])
    (drawn : Drawn index ids s s') : Drawn index (id :: ids) s s' := by
  refine ⟨drawn.count, drawn.order, drawn.listed, ?_, drawn.others⟩
  intro i
  rw [drawn.buffers]
  by_cases same : i = id
  · subst same
    simp [empty]
  · simp [same]

theorem fronts_congr {q q' : RequestQueue} {ids : List Nat}
    (same : ∀ id ∈ ids, q'.buffer id = q.buffer id) : fronts q' ids = fronts q ids := by
  apply List.filterMap_congr
  intro id hid
  rw [same id hid]

/-! ## A queue -/

variable (next) in
/-- **The walk around a queue**: for the turns left, the fronts of the requestors from the pointer on
are handed over, and the pointer has moved on by as many positions. -/
theorem requestorTurns_fronts {turns size place : Nat} (plain : p.roundRobin_Level = false)
    (pointer : p.requestorIndex[index]? = some place) (small : place < size) (few : turns ≤ size)
    (listed : (s.requestQueue index).Listed)
    (whole : (s.requestQueue index).requestorOrder.length = size) :
    ∃ s', requestorTurns (accepting next) index size turns s p =
        some (s', { p with requestorIndex := p.requestorIndex.set index ((place + turns) % size) },
          fronts (s.requestQueue index)
            (((s.requestQueue index).requestorOrder.rotate place).take turns)) ∧
      Drawn index (((s.requestQueue index).requestorOrder.rotate place).take turns) s s' := by
  induction turns generalizing s p place with
  | zero =>
    refine ⟨s, ?_, ⟨rfl, rfl, listed, ?_, fun _ _ => rfl⟩⟩
    · have still : p.requestorIndex.set index place = p.requestorIndex := by
        obtain ⟨bound, rfl⟩ := List.getElem?_eq_some_iff.mp pointer
        exact List.set_getElem_self bound
      simp [requestorTurns, fronts, Nat.mod_eq_of_lt small, still]
    · intro id
      simp
  | succ turns ih =>
    subst whole
    obtain ⟨id, known⟩ : ∃ id, (s.requestQueue index).requestorOrder[place]? = some id :=
      ⟨_, List.getElem?_eq_getElem small⟩
    have round := Lib.Rotation.take_rotate_next known few
    have bound : index < p.requestorIndex.length := (List.getElem?_eq_some_iff.mp pointer).1
    have size := RequestQueue.getSize_position known
    have moved : (Lib.Rotation.next (s.requestQueue index).requestorOrder.length place + turns) %
        (s.requestQueue index).requestorOrder.length =
        (place + (turns + 1)) % (s.requestQueue index).requestorOrder.length := by
      have one := Lib.Rotation.next_mod (Nat.zero_lt_of_lt small) place 0
      rw [Nat.add_zero, Nat.mod_eq_of_lt small] at one
      rw [one, Nat.mod_add_mod]
      congr 1
      omega
    -- the turns that are left walk on from the next position
    have onward : ∀ {t : RequestScheduler}, (t.requestQueue index).Listed →
        (t.requestQueue index).requestorOrder = (s.requestQueue index).requestorOrder → _ :=
      fun {t} listed' order => @ih t
        (advance index (s.requestQueue index).requestorOrder.length place p)
        (Lib.Rotation.next (s.requestQueue index).requestorOrder.length place) plain
        (by simp [advance, bound]) (Lib.Rotation.next_lt small) (by omega) listed'
        (congrArg List.length order)
    rw [round]
    cases front : (s.requestQueue index).buffer id with
    | nil =>
      obtain ⟨s', walked, drawn⟩ := onward listed rfl
      refine ⟨s', ?_, drawn.skip front⟩
      simp only [requestorTurns, pointer, size, front, Option.bind_some, List.length_nil, gt_iff_lt,
        Nat.lt_irrefl, if_false, walked, moved]
      simp [advance, fronts, front]
    | cons r rest =>
      obtain ⟨q, s₁, handed, served, first⟩ := serve_front next listed known front
      obtain ⟨s', walked, drawn⟩ := onward first.listed first.order
      rw [first.order] at walked drawn
      have new : id ∉ ((s.requestQueue index).requestorOrder.rotate
          (Lib.Rotation.next (s.requestQueue index).requestorOrder.length place)).take turns := by
        have distinct : (((s.requestQueue index).requestorOrder.rotate place).take
            (turns + 1)).Nodup :=
          (List.nodup_rotate.mpr listed.nodup).sublist (List.take_sublist _ _)
        rw [round] at distinct
        exact (List.nodup_cons.mp distinct).1
      refine ⟨s', ?_, first.trans drawn new⟩
      have kept : fronts (s₁.requestQueue index) _ = fronts (s.requestQueue index) _ :=
        fronts_congr fun i hi => by
          rw [first.buffers, if_neg (by rintro h; exact new (List.mem_singleton.mp h ▸ hi))]
      have level : (advance index (s.requestQueue index).requestorOrder.length place
          p).roundRobin_Level = false := plain
      simp only [requestorTurns, pointer, size, front, Option.bind_some, List.length_cons, gt_iff_lt,
        Nat.succ_pos, if_true, handed, served, level, Bool.false_eq_true, if_false, walked, kept,
        Option.map_some, moved]
      simp [advance, fronts, front, plain]

/-- The requests that a queue gives: the fronts from the pointer on, once around. -/
def given (s : RequestScheduler) (p : DirectState) (index : Nat) : List Request :=
  fronts (s.requestQueue index)
    ((s.requestQueue index).requestorOrder.rotate ((p.requestorIndex[index]?).getD 0))

/-- The pointer of a queue is a position of it, or it stands at the start. -/
def Points (s : RequestScheduler) (p : DirectState) (index : Nat) : Prop :=
  ∃ place, p.requestorIndex[index]? = some place ∧
    (place = 0 ∨ place < (s.requestQueue index).getQueueSize)

theorem Points.valid (points : Points s p index) :
    ∃ place, p.requestorIndex[index]? = some place ∧
      (0 < (s.requestQueue index).getQueueSize → place < (s.requestQueue index).getQueueSize) := by
  obtain ⟨place, pointer, start | small⟩ := points
  · exact ⟨place, pointer, fun some' => start ▸ some'⟩
  · exact ⟨place, pointer, fun _ => small⟩

variable (next) in
/-- **The turn of a queue** hands over the front of every buffer, and leaves the pointer where it was. -/
theorem queueTurn_given (plain : p.roundRobin_Level = false) (points : Points s p index)
    (listed : (s.requestQueue index).Listed) :
    ∃ s', queueTurn (accepting next) s p index = some (s', p, given s p index) ∧
      Drawn index (s.requestQueue index).requestorOrder s s' := by
  obtain ⟨place, pointer, valid⟩ := points.valid
  have perRequestor : (s.requestQueue index).isPerRequestor = true := listed.enabled
  simp only [queueTurn, perRequestor, if_true, given, pointer, Option.getD_some]
  split
  · next some' =>
    have small := valid some'
    obtain ⟨s', walked, drawn⟩ := requestorTurns_fronts next plain pointer small
      (Nat.le_refl _) listed rfl
    have round : ((s.requestQueue index).requestorOrder.rotate place).take
        (s.requestQueue index).getQueueSize = (s.requestQueue index).requestorOrder.rotate place := by
      apply List.take_of_length_le
      rw [List.length_rotate]
      exact Nat.le_refl _
    have still : p.requestorIndex.set index ((place + (s.requestQueue index).getQueueSize) %
        (s.requestQueue index).getQueueSize) = p.requestorIndex := by
      obtain ⟨bound, rfl⟩ := List.getElem?_eq_some_iff.mp pointer
      rw [Nat.add_mod_right, Nat.mod_eq_of_lt small]
      exact List.set_getElem_self bound
    rw [round, still] at walked
    rw [round] at drawn
    refine ⟨s', walked, ⟨drawn.count, drawn.order, drawn.listed, ?_, drawn.others⟩⟩
    intro id
    rw [drawn.buffers]
    simp only [List.mem_rotate]
  · next none' =>
    have nobody : (s.requestQueue index).requestorOrder = [] := by
      simpa [RequestQueue.getQueueSize] using none'
    refine ⟨s, ?_, ⟨rfl, rfl, listed, ?_, fun _ _ => rfl⟩⟩
    · simp [nobody, fronts]
    · intro id
      simp [nobody]

/-! ## A call -/

/-- The queues keep the law of the requestors, and the pointers are positions of them. -/
structure Inv (queueCount : Nat) (s : RequestScheduler) (p : DirectState) : Prop where
  count : s.queueCount = queueCount
  plain : p.roundRobin_Level = false
  listed : ∀ index < queueCount, (s.requestQueue index).Listed
  points : ∀ index < queueCount, Points s p index

theorem inv_create (queueCount : Nat) (writeQueueEnable : Bool) (dataBusSize : Nat) :
    Inv queueCount (RequestScheduler.createQueues queueCount true writeQueueEnable dataBusSize)
      (create queueCount) := by
  refine ⟨rfl, rfl, fun _ _ => RequestQueue.Listed.create writeQueueEnable, ?_⟩
  intro index small
  refine ⟨0, ?_, .inl rfl⟩
  simp [create, small]

/-- The front of every buffer of these queues has left it, and nothing else has moved. -/
structure Drained (indices : List Nat) (s s' : RequestScheduler) : Prop where
  count : s'.queueCount = s.queueCount
  order : ∀ i, (s'.requestQueue i).requestorOrder = (s.requestQueue i).requestorOrder
  listed : ∀ i ∈ indices, (s'.requestQueue i).Listed
  buffers : ∀ i ∈ indices, ∀ id, (s'.requestQueue i).buffer id = ((s.requestQueue i).buffer id).tail
  others : ∀ i, i ∉ indices → s'.requestQueue i = s.requestQueue i

theorem given_congr {i : Nat} (same : s'.requestQueue i = s.requestQueue i) :
    given s' p i = given s p i := by
  unfold given
  rw [same]

/-- A queue that gave its fronts, before others do. -/
theorem Drawn.drained {t : RequestScheduler} {rest : List Nat} (new : index ∉ rest)
    (listed : (s.requestQueue index).Listed)
    (drawn : Drawn index (s.requestQueue index).requestorOrder s s') (drained : Drained rest s' t) :
    Drained (index :: rest) s t := by
  have here := drained.others index new
  refine ⟨drained.count.trans drawn.count, ?_, ?_, ?_, ?_⟩
  · intro i
    by_cases same : i = index
    · subst same
      rw [here, drawn.order]
    · rw [drained.order, drawn.others i same]
  · intro i hi
    rcases List.mem_cons.mp hi with rfl | hi
    · rw [here]
      exact drawn.listed
    · exact drained.listed i hi
  · intro i hi id
    rcases List.mem_cons.mp hi with rfl | later
    · rw [here, drawn.buffers]
      split
      · rfl
      · next unknown =>
        -- whoever is not in the order has nothing waiting
        cases waits : (s.requestQueue i).buffer id with
        | nil => rfl
        | cons r rest => exact absurd (listed.mem_order (by simp [waits])) unknown
    · have other : i ≠ index := by
        rintro rfl
        exact new later
      rw [drained.buffers i later, drawn.others i other]
  · intro i hi
    obtain ⟨other, later⟩ : i ≠ index ∧ i ∉ rest := by simpa using hi
    rw [drained.others i later, drawn.others i other]

variable (next) in
/-- The loop over the queues. -/
theorem queueTurns_given {indices : List Nat} (handed : List Request)
    (plain : p.roundRobin_Level = false) (distinct : indices.Nodup)
    (points : ∀ i ∈ indices, Points s p i) (listed : ∀ i ∈ indices, (s.requestQueue i).Listed) :
    ∃ s', indices.foldlM (fun (s, p, handed) index =>
        (queueTurn (accepting next) s p index).map fun (s, p, more) => (s, p, handed ++ more))
        (s, p, handed) = some (s', p, handed ++ indices.flatMap (given s p)) ∧
      Drained indices s s' := by
  induction indices generalizing s handed with
  | nil =>
    refine ⟨s, by simp, ⟨rfl, fun _ => rfl, ?_, ?_, fun _ _ => rfl⟩⟩
    · intro i hi
      cases hi
    · intro i hi
      cases hi
  | cons index rest ih =>
    obtain ⟨new, distinct⟩ := List.nodup_cons.mp distinct
    have listedHere := listed index List.mem_cons_self
    obtain ⟨s₁, turned, drawn⟩ := queueTurn_given next plain
      (points index List.mem_cons_self) listedHere
    have later : ∀ i ∈ rest, s₁.requestQueue i = s.requestQueue i := by
      intro i hi
      apply drawn.others i
      rintro rfl
      exact new hi
    obtain ⟨s', looped, drained⟩ := @ih s₁ (handed ++ given s p index) distinct
      (fun i hi => by
        unfold Points
        rw [later i hi]
        exact points i (List.mem_cons_of_mem index hi))
      (fun i hi => later i hi ▸ listed i (List.mem_cons_of_mem index hi))
    have same : rest.flatMap (given s₁ p) = rest.flatMap (given s p) := by
      apply List.flatMap_congr
      intro i hi
      exact given_congr (later i hi)
    refine ⟨s', ?_, drawn.drained new listedHere drained⟩
    rw [List.foldlM_cons]
    simp only [turned, Option.map_some, Option.bind_eq_bind, Option.bind_some, looped, same,
      List.flatMap_cons, List.append_assoc]

variable (next) in
/-- **A call** hands over the front of every buffer of every queue, and the pointers stay. -/
theorem requestSchedule_given {queueCount : Nat} (inv : Inv queueCount s p) :
    ∃ s', requestSchedule (accepting next) () s p =
        some (s', p, (List.range queueCount).flatMap (given s p)) ∧
      Drained (List.range queueCount) s s' ∧ Inv queueCount s' p := by
  obtain ⟨s', looped, drained⟩ := queueTurns_given next [] inv.plain
    List.nodup_range (fun i hi => inv.points i (List.mem_range.mp hi))
    (fun i hi => inv.listed i (List.mem_range.mp hi))
  refine ⟨s', ?_, drained, ⟨drained.count.trans inv.count, inv.plain, ?_, ?_⟩⟩
  · rw [requestSchedule, inv.count]
    exact looped
  · intro index small
    exact drained.listed index (List.mem_range.mpr small)
  · intro index small
    unfold Points RequestQueue.getQueueSize
    rw [drained.order]
    exact inv.points index small

/-! ## Runs -/

/-- A requestor may join a queue at any time. -/
theorem Inv.insertRequest {queueCount : Nat} (inv : Inv queueCount s p) (r : Request) :
    Inv queueCount (s.setQueue index ((s.requestQueue index).insertRequest r)) p := by
  refine ⟨inv.count, inv.plain, ?_, ?_⟩
  · intro i small
    have known := inv.listed i small
    by_cases same : i = index
    · subst same
      simpa [setQueue] using known.insertRequest r
    · simpa [setQueue, same] using known
  · intro i small
    obtain ⟨place, pointer, valid⟩ := inv.points i small
    refine ⟨place, pointer, valid.imp_right fun bound => ?_⟩
    by_cases same : i = index
    · subst same
      have grows := (s.requestQueue i).getQueueSize_insertRequest r
      simp only [setQueue, if_true]
      omega
    · simpa [setQueue, same] using bound

theorem step_inv {queueCount : Nat} {st st' : RequestScheduler × DirectState} {call : RequestCall Unit}
    {told : List Request} (inv : Inv queueCount st.1 st.2)
    (h : (requestSchedule (accepting next)).step st call = some (st', told)) :
    Inv queueCount st'.1 st'.2 := by
  rcases RequestScheduling.step_cases h with ⟨index, r, rfl, _, rfl, rfl⟩ | ⟨_, rfl, called⟩
  · exact inv.insertRequest r
  · obtain ⟨s', given, _, inv'⟩ := requestSchedule_given next inv
    obtain ⟨same, pointers, _⟩ : st'.1 = s' ∧ st'.2 = st.2 ∧ _ := by
      simpa [called] using given
    rw [same, pointers]
    exact inv'

/-- **DIRECT takes one request per requestor per cycle.** For any number of per-requestor queues, in
every state that a run reaches, with requestors joining at any time: the pointer of each queue that has
a requestor is a position of it, whoever has something waiting stands in its queue's order, and nobody
stands there twice; and the next call is defined, hands over the oldest request of each of them, queue
by queue and from the queue's pointer on once around, takes just these requests away, and leaves the
pointers where they are. -/
theorem direct_oncePerRequestor (next : CommandGenerator → Request → Bool → CommandGenerator)
    (queueCount : Nat) (writeQueueEnable : Bool) (dataBusSize : Nat) {calls : List (RequestCall Unit)}
    {st : RequestScheduler × DirectState} {handed : List (List Request)}
    (ran : Lib.Machine.run (requestSchedule (accepting next)).step
      (RequestScheduler.createQueues queueCount true writeQueueEnable dataBusSize,
        create queueCount) calls = some (st, handed)) :
    (∀ index < queueCount, ∃ place, st.2.requestorIndex[index]? = some place ∧
      (0 < (st.1.requestQueue index).getQueueSize → place < (st.1.requestQueue index).getQueueSize)) ∧
    (∀ index < queueCount, (st.1.requestQueue index).requestorOrder.Nodup ∧
      ∀ id, (st.1.requestQueue index).buffer id ≠ [] →
        id ∈ (st.1.requestQueue index).requestorOrder) ∧
    ∃ s', requestSchedule (accepting next) () st.1 st.2 = some (s', st.2,
        (List.range queueCount).flatMap fun index =>
          ((st.1.requestQueue index).requestorOrder.rotate
            ((st.2.requestorIndex[index]?).getD 0)).filterMap fun id =>
              ((st.1.requestQueue index).buffer id).head?) ∧
      ∀ index < queueCount, ∀ id, (s'.requestQueue index).buffer id =
        ((st.1.requestQueue index).buffer id).tail := by
  have inv : Inv queueCount st.1 st.2 := by
    apply Lib.Machine.run_invariant (fun st => Inv queueCount st.1 st.2) step_inv ?_ ran
    exact inv_create queueCount writeQueueEnable dataBusSize
  obtain ⟨s', called, drained, _⟩ := requestSchedule_given next inv
  refine ⟨?_, ?_, s', called, ?_⟩
  · intro index small
    exact (inv.points index small).valid
  · intro index small
    exact ⟨(inv.listed index small).nodup, fun id waits => (inv.listed index small).mem_order waits⟩
  · intro index small
    exact drained.buffers index (List.mem_range.mpr small)

/-- Two queues: requestors 3 and 1 send to the first, requestor 2 to the second, and requestor 3 once
more. -/
def fourReads : List (RequestCall Unit) :=
  [.insertRequest 0 (sampleRequest .DATA_READ 3 0), .insertRequest 0 (sampleRequest .DATA_READ 1 0),
    .insertRequest 1 (sampleRequest .DATA_READ 2 0), .insertRequest 0 (sampleRequest .DATA_READ 3 64)]

/-- The law where the oldest of each is handed over: the second read of requestor 3 stays. -/
theorem direct_oncePerRequestor_fourReads :
    ∃ st handed s', Lib.Machine.run (requestSchedule (accepting fun g _ _ => g)).step
        (RequestScheduler.createQueues 2 true false 64, create 2) fourReads = some (st, handed) ∧
      requestSchedule (accepting fun g _ _ => g) () st.1 st.2 = some (s', st.2,
        [sampleRequest .DATA_READ 3 0, sampleRequest .DATA_READ 1 0, sampleRequest .DATA_READ 2 0]) ∧
      (s'.requestQueue 0).buffer 3 = [sampleRequest .DATA_READ 3 64] := by
  obtain ⟨st, handed, ran, fronts, buffer⟩ := Lib.Machine.run_exists
    (requestSchedule (accepting fun g _ _ => g)).step
    (fun st => ((List.range 2).flatMap fun index =>
        ((st.1.requestQueue index).requestorOrder.rotate
          ((st.2.requestorIndex[index]?).getD 0)).filterMap fun id =>
            ((st.1.requestQueue index).buffer id).head?) =
        [sampleRequest .DATA_READ 3 0, sampleRequest .DATA_READ 1 0, sampleRequest .DATA_READ 2 0] ∧
      ((st.1.requestQueue 0).buffer 3).tail = [sampleRequest .DATA_READ 3 64])
    (RequestScheduler.createQueues 2 true false 64, create 2) fourReads (by decide +kernel)
  obtain ⟨_, _, s', called, tails⟩ := direct_oncePerRequestor (fun g _ _ => g) 2 false 64 ran
  refine ⟨st, handed, s', ran, ?_, ?_⟩
  · rw [called, fronts]
  · rw [tails 0 (by decide), buffer]

end Direct
end MCsim
