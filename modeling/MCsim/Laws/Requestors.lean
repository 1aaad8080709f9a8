import MCsim.RequestQueue

/-!
# A request queue per requestor

The law of a request queue with a buffer for each requestor and no write queue: a requestor has a
buffer exactly when it stands in the order of first appearance, once, and its buffer holds its own
requests. The request at the front of a requestor's buffer is reached by the requestor's position in
that order (`getRequestOf_front`), and removing it leaves every other buffer alone. `Listed` is the part
of the law that holds with a write queue too.
-/

namespace MCsim
namespace RequestQueue

variable {q : RequestQueue}

structure PerRequestor (q : RequestQueue) : Prop where
  enabled : q.perRequestorEnable = true
  noWrites : q.writeQueueEnable = false
  listed : ∀ id, (q.requestorBuffer id).isSome = true ↔ id ∈ q.requestorOrder
  nodup : q.requestorOrder.Nodup
  owned : ∀ id, ∀ r ∈ q.buffer id, r.requestorID = id

theorem PerRequestor.create : PerRequestor (create true false) :=
  ⟨rfl, rfl, by simp [RequestQueue.create], List.nodup_nil, by simp [RequestQueue.create, buffer]⟩

/-- A requestor that has something waiting stands in the order. -/
theorem PerRequestor.mem_order (h : PerRequestor q) {id : Nat} (waits : q.buffer id ≠ []) :
    id ∈ q.requestorOrder := by
  apply (h.listed id).mp
  cases e : q.requestorBuffer id with
  | none => exact absurd (by simp [buffer, e]) waits
  | some l => rfl

theorem insertRequest_eq (h : PerRequestor q) (r : Request) :
    q.insertRequest r =
      { q with
        requestorOrder :=
          if r.requestorID ∈ q.requestorOrder then q.requestorOrder
          else q.requestorOrder ++ [r.requestorID]
        requestorBuffer := fun id =>
          if id = r.requestorID then some (q.buffer r.requestorID ++ [r])
          else q.requestorBuffer id } := by
  have known : (q.requestorBuffer r.requestorID).isNone = true ↔ r.requestorID ∉ q.requestorOrder := by
    rw [← h.listed]
    simp
  unfold insertRequest
  rw [h.noWrites, if_neg (by simp), if_pos h.enabled]
  by_cases new : r.requestorID ∈ q.requestorOrder
  · simp [known, new]
  · simp [known, new]

/-- A request joins the back of its requestor's buffer. -/
theorem buffer_insertRequest (h : PerRequestor q) (r : Request) (id : Nat) :
    (q.insertRequest r).buffer id =
      if id = r.requestorID then q.buffer id ++ [r] else q.buffer id := by
  rw [insertRequest_eq h]
  simp only [buffer]
  split
  · next same =>
    subst same
    rfl
  · rfl

theorem order_insertRequest (h : PerRequestor q) (r : Request) :
    (q.insertRequest r).requestorOrder =
      if r.requestorID ∈ q.requestorOrder then q.requestorOrder
      else q.requestorOrder ++ [r.requestorID] := by
  rw [insertRequest_eq h]

/-- Whoever stands in the order keeps its position. -/
theorem order_insertRequest_getElem? (h : PerRequestor q) (r : Request) {i id : Nat}
    (position : q.requestorOrder[i]? = some id) :
    (q.insertRequest r).requestorOrder[i]? = some id := by
  rw [order_insertRequest h]
  split
  · exact position
  · exact List.getElem?_append_left (List.getElem?_eq_some_iff.mp position).1 ▸ position

theorem PerRequestor.insertRequest (h : PerRequestor q) (r : Request) :
    PerRequestor (q.insertRequest r) := by
  have flags : (q.insertRequest r).perRequestorEnable = true ∧
      (q.insertRequest r).writeQueueEnable = false := by
    rw [insertRequest_eq h]
    exact ⟨h.enabled, h.noWrites⟩
  refine ⟨flags.1, flags.2, fun id => ?_, ?_, fun id x hx => ?_⟩
  · have old := h.listed id
    rw [order_insertRequest h, insertRequest_eq h]
    dsimp only
    by_cases same : id = r.requestorID
    · subst same
      by_cases known : r.requestorID ∈ q.requestorOrder <;> simp [known]
    · by_cases known : r.requestorID ∈ q.requestorOrder <;> simp [same, known, old]
  · rw [order_insertRequest h]
    split
    · exact h.nodup
    · next new =>
      refine List.nodup_append.mpr ⟨h.nodup, by simp, ?_⟩
      rintro a ha b hb rfl
      exact new (List.mem_singleton.mp hb ▸ ha)
  · rw [buffer_insertRequest h] at hx
    split at hx
    · next same =>
      rcases List.mem_append.mp hx with hx | hx
      · exact h.owned id x hx
      · rw [List.mem_singleton.mp hx, same]
    · exact h.owned id x hx

theorem PerRequestor.arrive (h : PerRequestor q) (arrivals : List Request) :
    PerRequestor (arrivals.foldl RequestQueue.insertRequest q) := by
  induction arrivals generalizing q with
  | nil => exact h
  | cons x l ih => exact ih (h.insertRequest x)

/-- What arrives joins each buffer in order. -/
theorem buffer_arrive (h : PerRequestor q) (arrivals : List Request) (id : Nat) :
    (arrivals.foldl RequestQueue.insertRequest q).buffer id =
      q.buffer id ++ arrivals.filter fun x => x.requestorID = id := by
  induction arrivals generalizing q with
  | nil => simp
  | cons x l ih =>
    rw [List.foldl_cons, ih (h.insertRequest x), buffer_insertRequest h]
    by_cases same : x.requestorID = id
    · simp [same]
    · simp [same, Ne.symm same]

/-- The queue after the request at the front of a requestor's buffer was handed out and removed. -/
def withoutFront (q : RequestQueue) (id : Nat) : RequestQueue :=
  { q with
    scheduledRequest := (true, id, 0)
    requestorBuffer := fun i => if i = id then some (q.buffer id).tail else q.requestorBuffer i }

@[simp] theorem withoutFront_order (q : RequestQueue) (id : Nat) :
    (q.withoutFront id).requestorOrder = q.requestorOrder := rfl

theorem buffer_withoutFront (q : RequestQueue) (id i : Nat) :
    (q.withoutFront id).buffer i = if i = id then (q.buffer i).tail else q.buffer i := by
  simp only [withoutFront, buffer]
  split
  · next same =>
    subst same
    rfl
  · rfl

theorem PerRequestor.withoutFront (h : PerRequestor q) {id : Nat} (known : id ∈ q.requestorOrder) :
    PerRequestor (q.withoutFront id) := by
  refine ⟨h.enabled, h.noWrites, fun i => ?_, h.nodup, fun i x hx => ?_⟩
  · by_cases same : i = id
    · subst same
      simp [RequestQueue.withoutFront, known]
    · simp [RequestQueue.withoutFront, same, h.listed]
  · rw [buffer_withoutFront] at hx
    split at hx
    · exact h.owned i x (List.mem_of_mem_tail hx)
    · exact h.owned i x hx

/-- The size asked for by position is that of the buffer there. -/
theorem getSize_position {i id : Nat} (position : q.requestorOrder[i]? = some id) :
    q.getSize true i = some (q.buffer id).length := by
  have some' : q.requestorOrder.length ≠ 0 := by
    have := (List.getElem?_eq_some_iff.mp position).1
    omega
  simp [getSize, some', position]

/-- **Handing out and removing.** By the position of its requestor, the front of a buffer is handed
out, and removing takes it away. -/
theorem getRequestOf_front {i id : Nat} {r : Request} {rest : List Request}
    (position : q.requestorOrder[i]? = some id) (front : q.buffer id = r :: rest) :
    ∃ q', q.getRequestOf i 0 = some (some r, q') ∧ q'.removeRequest = some (q.withoutFront id) := by
  refine ⟨{ q with scheduledRequest := (true, id, 0) }, ?_, ?_⟩
  · simp [getRequestOf, position, front]
  · have same : ({ q with scheduledRequest := (true, id, 0) } : RequestQueue).buffer id =
        r :: rest := front
    simp [removeRequest, same, withoutFront, front]

/-! ## With or without a write queue -/

/-- The law of the buffers and the order alone, whether or not writes go to a write queue. -/
structure Listed (q : RequestQueue) : Prop where
  enabled : q.perRequestorEnable = true
  listed : ∀ id, (q.requestorBuffer id).isSome = true ↔ id ∈ q.requestorOrder
  nodup : q.requestorOrder.Nodup
  owned : ∀ id, ∀ r ∈ q.buffer id, r.requestorID = id

/-- The queue as it would be without a write queue. -/
def readsOnly (q : RequestQueue) : RequestQueue := { q with writeQueueEnable := false }

theorem Listed.readsOnly (h : Listed q) : PerRequestor q.readsOnly :=
  ⟨h.enabled, rfl, h.listed, h.nodup, h.owned⟩

theorem PerRequestor.listed_congr {q' : RequestQueue} (h : PerRequestor q)
    (enabled : q'.perRequestorEnable = q.perRequestorEnable)
    (buffers : q'.requestorBuffer = q.requestorBuffer)
    (order : q'.requestorOrder = q.requestorOrder) : Listed q' := by
  refine ⟨enabled.trans h.enabled, ?_, ?_, ?_⟩
  · rw [buffers, order]
    exact h.listed
  · rw [order]
    exact h.nodup
  · unfold buffer
    rw [buffers]
    exact h.owned

theorem Listed.create (writeQueueEnable : Bool) :
    Listed (RequestQueue.create true writeQueueEnable) :=
  PerRequestor.create.listed_congr rfl rfl rfl

theorem Listed.insertRequest (h : Listed q) (r : Request) : Listed (q.insertRequest r) := by
  by_cases aside : (q.writeQueueEnable && r.requestType == .DATA_WRITE) = true
  · rw [RequestQueue.insertRequest, if_pos aside]
    exact h.readsOnly.listed_congr rfl rfl rfl
  · have joined := h.readsOnly.insertRequest r
    have enabled := h.enabled
    refine joined.listed_congr ?_ ?_ ?_ <;>
      simp [RequestQueue.insertRequest, RequestQueue.readsOnly, aside, enabled, buffer]

/-- What waits in a buffer after an arrival is the request that arrived, or has waited there before. -/
theorem mem_insertRequest {r x : Request} {id : Nat} (h : x ∈ (q.insertRequest r).buffer id) :
    x ∈ q.buffer id ∨ x = r := by
  unfold RequestQueue.insertRequest at h
  split at h
  · exact .inl h
  · split at h
    · by_cases same : id = r.requestorID
      · subst same
        have joined : x ∈ q.buffer r.requestorID ++ [r] := by simpa [buffer] using h
        exact (List.mem_append.mp joined).imp_right List.mem_singleton.mp
      · refine .inl ?_
        simpa [buffer, same] using h
    · exact .inl h

/-- The order only grows. -/
theorem getQueueSize_insertRequest (q : RequestQueue) (r : Request) :
    q.getQueueSize ≤ (q.insertRequest r).getQueueSize := by
  unfold RequestQueue.insertRequest getQueueSize
  split
  · exact Nat.le_refl _
  · split
    · dsimp only
      split
      · simp
      · exact Nat.le_refl _
    · exact Nat.le_refl _

theorem Listed.withoutFront (h : Listed q) {id : Nat} (known : id ∈ q.requestorOrder) :
    Listed (q.withoutFront id) :=
  (h.readsOnly.withoutFront known).listed_congr rfl rfl rfl

/-- A requestor that has something waiting stands in the order. -/
theorem Listed.mem_order (h : Listed q) {id : Nat} (waits : q.buffer id ≠ []) :
    id ∈ q.requestorOrder :=
  h.readsOnly.mem_order waits

/-! ## Sizes -/

/-- An assignment to a request's size is seen in each buffer. -/
theorem buffer_assignSize (q : RequestQueue) (handle n id : Nat) :
    (q.assignSize handle n).buffer id = Request.assignSize handle n (q.buffer id) := by
  unfold RequestQueue.assignSize buffer
  dsimp only
  cases q.requestorBuffer id <;> rfl

theorem Listed.assignSize (h : Listed q) (handle n : Nat) : Listed (q.assignSize handle n) := by
  refine ⟨h.enabled, fun id => ?_, h.nodup, fun id r hr => ?_⟩
  · have old := h.listed id
    show ((q.requestorBuffer id).map _).isSome = true ↔ _
    rw [Option.isSome_map]
    exact old
  · rw [buffer_assignSize] at hr
    obtain ⟨r₀, waits, rfl⟩ := List.mem_map.mp hr
    have owner := h.owned id r₀ waits
    split
    · exact owner
    · exact owner

end RequestQueue
end MCsim
