import MCsim.Requests.RoundRobin
import MCsim.Laws.Requestors
import MCsim.Lib.Rotation

/-!
# Round-robin grants

On one per-requestor queue, with a generator that accepts everything, a call of the round-robin
scheduler counts the slot down, or lets the pointer go on to the first requestor with something
waiting (`Lib.Rotation.Scan`) and grants that requestor's oldest request (`Granted`). Requestors may
appear at any time: they join the order at its end, and the pointer takes no notice.
-/

namespace MCsim
namespace RoundRobin

open RequestScheduler Lib.Rotation

variable {table : Nat → Bool} {gen : Generator} {s s' : RequestScheduler} {p p' : RoundRobinState}

/-- A generator that accepts every request. -/
def Accepts (gen : Generator) : Prop := ∀ g request isOpen, ∃ g', gen g request isOpen = some (g', true)

/-- The order in which the requestors first appeared. -/
def order (s : RequestScheduler) : List Nat := (s.requestQueue 0).requestorOrder

/-- A requestor has a request waiting. -/
def Waiting (s : RequestScheduler) (id : Nat) : Prop := (s.requestQueue 0).buffer id ≠ []

instance (s : RequestScheduler) (id : Nat) : Decidable (Waiting s id) :=
  inferInstanceAs (Decidable (_ ≠ _))

/-- The requestor at a position has. -/
def WaitingAt (s : RequestScheduler) (i : Nat) : Prop := ∃ id, (order s)[i]? = some id ∧ Waiting s id

/-- One per-requestor queue, no fixed priority, and the pointer within the order. -/
structure Inv (s : RequestScheduler) (p : RoundRobinState) : Prop where
  one : s.queueCount = 1
  queue : (s.requestQueue 0).PerRequestor
  first : p.queueIndex = 0
  plain : p.fixedPrioirty = false
  pointer : p.queueRequestorIndex 0 = 0 ∨ p.queueRequestorIndex 0 < (order s).length

theorem inv_create (dataBusSize : Nat) : Inv (RequestScheduler.create true false dataBusSize) {} :=
  ⟨rfl, RequestQueue.PerRequestor.create, rfl, rfl, .inl rfl⟩

/-! ## A call -/

/-- What a call grants: nothing, or the oldest request of the requestor at the position found. -/
inductive Granted (s : RequestScheduler) :
    Option Nat → RequestScheduler → Option Request → List Request → Prop
  | nothing : Granted s none s none []
  | oldest {i id : Nat} {r : Request} {rest : List Request} {s' : RequestScheduler}
      (position : (order s)[i]? = some id) (front : (s.requestQueue 0).buffer id = r :: rest)
      (one : s'.queueCount = s.queueCount)
      (queue : s'.requestQueue 0 = (s.requestQueue 0).withoutFront id) :
      Granted s (some i) s' (some r) [r]

theorem position_eq (inv : Inv s p) : position p = p.queueRequestorIndex 0 := by
  rw [position, inv.first]

theorem advance_pointer (inv : Inv s p) (size : Nat) :
    (advance size p).queueRequestorIndex 0 = next size (p.queueRequestorIndex 0) := by
  simp only [advance, inv.first, position_eq inv, if_true, next]

theorem Inv.advance (inv : Inv s p) (small : p.queueRequestorIndex 0 < (order s).length) :
    Inv s (advance (order s).length p) := by
  refine ⟨inv.one, inv.queue, inv.first, inv.plain, .inr ?_⟩
  rw [advance_pointer inv]
  exact next_lt small

/-- A granted request leaves its queue. -/
theorem grant_front (accepts : Accepts gen) {i id size : Nat} {r : Request} {rest : List Request}
    {q : RequestQueue} {outcome : Outcome} (position : (order s)[i]? = some id)
    (front : (s.requestQueue 0).buffer id = r :: rest)
    (removed : q.removeRequest = some ((s.requestQueue 0).withoutFront id))
    (h : grant gen 0 size (s.setQueue 0 q) p r = some outcome) :
    Granted s (some i) outcome.1 outcome.2.2.1 outcome.2.2.2 ∧ outcome.2.1 = advance size p := by
  obtain ⟨g', accepted⟩ := accepts s.commandGenerator r false
  have scheduled : (s.setQueue 0 q).isSchedulable gen r false =
      some ({ s.setQueue 0 q with commandGenerator := g' }, true) := by
    simp [isSchedulable, setQueue, accepted]
  have here : (s.setQueue 0 q).requestQueue 0 = q := rfl
  simp only [grant, scheduled, Option.bind_some, if_true, here, removed, Option.map_some,
    Option.some.injEq] at h
  subst h
  exact ⟨.oldest position front rfl rfl, rfl⟩

/-- **The loop over the requestors** is a scan. -/
theorem requestorTurns_scan (accepts : Accepts gen) {turns : Nat} {outcome : Outcome}
    (inv : Inv s p) (small : p.queueRequestorIndex 0 < (order s).length)
    (h : requestorTurns table gen 0 (order s).length turns s p = some outcome) :
    ∃ found, Scan (order s).length (WaitingAt s) (p.queueRequestorIndex 0) found
        (outcome.2.1.queueRequestorIndex 0) ∧
      Granted s found outcome.1 outcome.2.2.1 outcome.2.2.2 ∧
      outcome.2.1.queueIndex = 0 ∧ outcome.2.1.fixedPrioirty = false ∧
      outcome.2.1.slotCounter = p.slotCounter := by
  induction turns generalizing p with
  | zero =>
    obtain rfl := Option.some.inj h
    exact ⟨none, .stop, .nothing, inv.first, inv.plain, rfl⟩
  | succ turns ih =>
    obtain ⟨id, known⟩ : ∃ id, (order s)[p.queueRequestorIndex 0]? = some id :=
      ⟨_, List.getElem?_eq_getElem small⟩
    have size := RequestQueue.getSize_position known
    simp only [requestorTurns, inv.first, position_eq inv, size, Option.bind_some] at h
    cases front : (s.requestQueue 0).buffer id with
    | nil =>
      simp only [front, List.length_nil, gt_iff_lt, Nat.lt_irrefl, if_false] at h
      obtain ⟨found, scan, granted, rest⟩ := ih (inv.advance small)
        (by rw [advance_pointer inv]; exact next_lt small) h
      rw [advance_pointer inv] at scan
      refine ⟨found, .skip ?_ scan, granted, rest⟩
      rintro ⟨id', known', waiting⟩
      obtain rfl : id = id' := by simpa [known] using known'
      exact waiting front
    | cons r rest =>
      obtain ⟨q, handed, removed⟩ := RequestQueue.getRequestOf_front known front
      simp only [front, List.length_cons, gt_iff_lt, Nat.succ_pos, if_true, handed, Option.bind_some,
        inv.plain, Bool.false_and, Bool.false_eq_true, if_false] at h
      obtain ⟨granted, advanced⟩ := grant_front accepts known front removed h
      refine ⟨some (p.queueRequestorIndex 0), ?_, granted, ?_⟩
      · rw [advanced, advance_pointer inv]
        exact .found ⟨id, known, by rw [Waiting, front]; exact List.cons_ne_nil r rest⟩
      · rw [advanced]
        exact ⟨inv.first, inv.plain, rfl⟩

/-- **A call**: the slot is counted down, or the pointer scans and its find is granted, which starts a
slot. -/
inductive Called (s : RequestScheduler) (p : RoundRobinState) :
    RequestScheduler → RoundRobinState → List Request → Prop
  | waits (busy : p.slotCounter ≠ 0) :
      Called s p s { p with slotCounter := p.slotCounter - 1 } []
  | scans {found : Option Nat} {s' : RequestScheduler} {p' : RoundRobinState}
      {scheduled : Option Request} {handed : List Request} (free : p.slotCounter = 0)
      (scan : Scan (order s).length (WaitingAt s) (p.queueRequestorIndex 0) found
        (p'.queueRequestorIndex 0))
      (granted : Granted s found s' scheduled handed) (first : p'.queueIndex = 0)
      (plain : p'.fixedPrioirty = false)
      (slot : p'.slotCounter = if scheduled.isSome then timeSlot - 1 else 0)
      (pointer : p'.queueRequestorIndex 0 = 0 ∨ p'.queueRequestorIndex 0 < (order s).length) :
      Called s p s' p' handed

theorem queueTurn_scan (accepts : Accepts gen) {outcome : Outcome} (inv : Inv s p)
    (h : queueTurn table gen 0 s p = some outcome) :
    ∃ found, Scan (order s).length (WaitingAt s) (p.queueRequestorIndex 0) found
        (outcome.2.1.queueRequestorIndex 0) ∧
      Granted s found outcome.1 outcome.2.2.1 outcome.2.2.2 ∧
      outcome.2.1.queueIndex = 0 ∧ outcome.2.1.fixedPrioirty = false ∧
      outcome.2.1.slotCounter = p.slotCounter ∧
      (outcome.2.1.queueRequestorIndex 0 = 0 ∨
        outcome.2.1.queueRequestorIndex 0 < (order s).length) := by
  have perRequestor : (s.requestQueue 0).isPerRequestor = true := inv.queue.enabled
  simp only [queueTurn, inv.first, perRequestor, if_true] at h
  split at h
  · next some' =>
    obtain ⟨turned, turns, aside⟩ := Option.bind_eq_some_iff.mp h
    have small : p.queueRequestorIndex 0 < (order s).length := by
      rcases inv.pointer with zero | small
      · rw [zero]
        exact some'
      · exact small
    obtain ⟨found, scan, granted, first, plain, slot⟩ := requestorTurns_scan accepts inv small turns
    -- nothing was moved aside
    have same : grantAside gen turned = some turned := by
      obtain ⟨s₁, p₁, scheduled, handed⟩ := turned
      cases scheduled with
      | none =>
        simp only at plain
        simp [grantAside, plain]
      | some r => rfl
    rw [same] at aside
    cases aside
    exact ⟨found, scan, granted, first, plain, slot, .inr (scan.lt small)⟩
  · obtain rfl := Option.some.inj h
    exact ⟨none, .stop, .nothing, inv.first, inv.plain, rfl, inv.pointer⟩

theorem requestSchedule_called (accepts : Accepts gen) {handed : List Request} (inv : Inv s p)
    (h : requestSchedule table gen () s p = some (s', p', handed)) : Called s p s' p' handed := by
  unfold requestSchedule at h
  split at h
  · next free =>
    simp only [inv.one, List.range_succ, List.range_zero, List.nil_append, queueTurns] at h
    obtain ⟨⟨s₁, p₁, scheduled, granted⟩, turned, h⟩ := Option.bind_eq_some_iff.mp h
    obtain ⟨found, scan, grants, first, plain, slot, pointer⟩ := queueTurn_scan accepts inv turned
    have one : s₁.queueCount = 1 := by
      cases grants with
      | nothing => exact inv.one
      | oldest _ _ one _ => exact one.trans inv.one
    dsimp only at scan grants first plain slot pointer h
    split at h
    · next some' =>
      obtain ⟨rfl, rfl, rfl⟩ : _ ∧ _ ∧ _ := by simpa using h
      refine .scans free scan grants ?_ plain (by simp [some']) pointer
      simp [nextQueue, one, first]
    · next none' =>
      obtain ⟨rfl, rfl, rfl⟩ : _ ∧ _ ∧ _ := by simpa using h
      refine .scans free scan grants ?_ plain ?_ pointer
      · simp [nextQueue, one, first]
      · simp [nextQueue, none', slot, free]
  · next busy =>
    obtain ⟨rfl, rfl, rfl⟩ : _ ∧ _ ∧ _ := by simpa using h
    exact .waits busy

/-! ## What calls keep -/

/-- Granting keeps the queue in shape and the order as it is. -/
theorem Granted.queue {found : Option Nat} {scheduled : Option Request} {handed : List Request}
    (granted : Granted s found s' scheduled handed) (h : (s.requestQueue 0).PerRequestor) :
    (s'.requestQueue 0).PerRequestor ∧ order s' = order s ∧ s'.queueCount = s.queueCount := by
  cases granted with
  | nothing => exact ⟨h, rfl, rfl⟩
  | oldest position _ one queue =>
    refine ⟨?_, ?_, one⟩
    · rw [queue]
      exact h.withoutFront (List.mem_of_getElem? position)
    · rw [order, queue]
      rfl

theorem Called.inv {handed : List Request} (called : Called s p s' p' handed) (inv : Inv s p) :
    Inv s' p' ∧ order s' = order s := by
  cases called with
  | waits => exact ⟨⟨inv.one, inv.queue, inv.first, inv.plain, inv.pointer⟩, rfl⟩
  | scans _ _ granted first plain _ pointer =>
    obtain ⟨queue, same, one⟩ := granted.queue inv.queue
    refine ⟨⟨one.trans inv.one, queue, first, plain, ?_⟩, same⟩
    rw [same]
    exact pointer

/-- A call hands over the oldest request of one requestor, or nothing. -/
theorem Called.oldest {handed : List Request} (called : Called s p s' p' handed) (inv : Inv s p) :
    (handed = [] ∧ ∀ id, (s'.requestQueue 0).buffer id = (s.requestQueue 0).buffer id) ∨
    ∃ r, handed = [r] ∧ ∀ id, (s.requestQueue 0).buffer id =
      (if id = r.requestorID then [r] else []) ++ (s'.requestQueue 0).buffer id := by
  cases called with
  | waits => exact .inl ⟨rfl, fun _ => rfl⟩
  | scans _ _ granted _ _ _ _ =>
    cases granted with
    | nothing => exact .inl ⟨rfl, fun _ => rfl⟩
    | @oldest i id r rest _ _ front _ queue =>
      have own : r.requestorID = id := inv.queue.owned id r (front ▸ List.mem_cons_self)
      refine .inr ⟨r, rfl, fun id' => ?_⟩
      rw [queue, RequestQueue.buffer_withoutFront, own]
      split
      · next same =>
        subst same
        simp [front]
      · simp

/-- A request that arrives finds its place, and nothing else moves. -/
theorem Inv.insertRequest (inv : Inv s p) (r : Request) :
    Inv (s.setQueue 0 ((s.requestQueue 0).insertRequest r)) p := by
  refine ⟨inv.one, inv.queue.insertRequest r, inv.first, inv.plain, ?_⟩
  apply inv.pointer.imp_right
  intro small
  have grows : (order s).length ≤
      (order (s.setQueue 0 ((s.requestQueue 0).insertRequest r))).length := by
    show _ ≤ ((s.requestQueue 0).insertRequest r).requestorOrder.length
    rw [RequestQueue.order_insertRequest inv.queue]
    split
    · exact Nat.le_refl _
    · simp [order]
  omega

/-- A step inserts a request at queue 0, or it is a call. -/
theorem step_cases (accepts : Accepts gen) {call : RequestCall Unit}
    {st : RequestScheduler × RoundRobinState} {handed : List Request} (inv : Inv s p)
    (h : (requestSchedule table gen).step (s, p) call = some (st, handed)) :
    (∃ r, call = .insertRequest 0 r ∧ handed = [] ∧
      st = (s.setQueue 0 ((s.requestQueue 0).insertRequest r), p)) ∨
    call = .requestSchedule () ∧ Called s p st.1 st.2 handed := by
  rcases RequestScheduling.step_cases h with ⟨index, r, rfl, bound, rfl, rfl⟩ | ⟨_, rfl, called⟩
  · obtain rfl : index = 0 := by
      have := inv.one
      omega
    exact .inl ⟨r, rfl, rfl, rfl⟩
  · exact .inr ⟨rfl, requestSchedule_called accepts inv called⟩

theorem step_inv (accepts : Accepts gen) {call : RequestCall Unit}
    {st : RequestScheduler × RoundRobinState} {handed : List Request} (inv : Inv s p)
    (h : (requestSchedule table gen).step (s, p) call = some (st, handed)) : Inv st.1 st.2 := by
  rcases step_cases accepts inv h with ⟨r, _, _, rfl⟩ | ⟨_, called⟩
  · exact inv.insertRequest r
  · exact (called.inv inv).1

/-! ## Spacing -/

/-- The call asks for a grant. -/
def isSchedule : RequestCall Unit → Bool
  | .insertRequest _ _ => false
  | .requestSchedule _ => true

/-- The slot counts the calls down, and a call within it grants nothing. -/
theorem step_slot (accepts : Accepts gen) {call : RequestCall Unit}
    {st : RequestScheduler × RoundRobinState} {handed : List Request} (inv : Inv s p)
    (busy : isSchedule call = true → p.slotCounter ≠ 0)
    (h : (requestSchedule table gen).step (s, p) call = some (st, handed)) :
    handed = [] ∧ st.2.slotCounter + (if isSchedule call then 1 else 0) = p.slotCounter := by
  rcases step_cases accepts inv h with ⟨r, rfl, rfl, rfl⟩ | ⟨rfl, called⟩
  · exact ⟨rfl, rfl⟩
  · have busy := busy rfl
    generalize st.1 = s', st.2 = p' at called
    cases called with
    | waits =>
      refine ⟨rfl, ?_⟩
      simp only [isSchedule, if_true]
      omega
    | scans free => exact absurd free busy

/-- A stretch of no more calls than the slot has left grants nothing. -/
theorem stretch_slot (accepts : Accepts gen) {calls : List (RequestCall Unit)}
    {st st' : RequestScheduler × RoundRobinState} {handed : List (List Request)}
    (inv : Inv st.1 st.2) (few : calls.countP isSchedule ≤ st.2.slotCounter)
    (ran : Lib.Machine.run (requestSchedule table gen).step st calls = some (st', handed)) :
    handed.flatten = [] := by
  induction calls generalizing st handed with
  | nil =>
    obtain ⟨_, rfl⟩ : _ ∧ _ := by simpa using ran
    rfl
  | cons call calls ih =>
    obtain ⟨st₁, granted, handed', first, later, rfl⟩ := Lib.Machine.run_cons_eq_some.mp ran
    have counted : (call :: calls).countP isSchedule =
        calls.countP isSchedule + if isSchedule call then 1 else 0 := List.countP_cons
    have busy : isSchedule call = true → st.2.slotCounter ≠ 0 := by
      intro schedule
      simp only [schedule, if_true] at counted
      omega
    obtain ⟨rfl, slot⟩ := step_slot accepts inv busy first
    have rest := ih (step_inv accepts inv first) (by omega) later
    simp [rest]

/-- A grant starts a slot. -/
theorem step_starts (accepts : Accepts gen) {call : RequestCall Unit}
    {st : RequestScheduler × RoundRobinState} {handed : List Request} (inv : Inv s p)
    (h : (requestSchedule table gen).step (s, p) call = some (st, handed)) (grants : handed ≠ []) :
    st.2.slotCounter = timeSlot - 1 := by
  rcases step_cases accepts inv h with ⟨r, rfl, rfl, rfl⟩ | ⟨rfl, called⟩
  · exact absurd rfl grants
  · generalize st.1 = s', st.2 = p' at called
    cases called with
    | waits => exact absurd rfl grants
    | scans _ _ granted _ _ slot _ =>
      cases granted with
      | nothing => exact absurd rfl grants
      | oldest => exact slot

/-! ## The books -/

/-- The requests of one requestor. -/
def ofRequestor (id : Nat) (l : List Request) : List Request := l.filter fun r => r.requestorID = id

@[simp] theorem ofRequestor_append (id : Nat) (l l' : List Request) :
    ofRequestor id (l ++ l') = ofRequestor id l ++ ofRequestor id l' := List.filter_append ..

/-- What a requestor sent is what it was granted and what it has waiting, in order. -/
def Books (calls : List (RequestCall Unit)) (s : RequestScheduler) (handed : List (List Request)) :
    Prop :=
  ∀ id, ofRequestor id (calls.flatMap RequestCall.inserted) =
    ofRequestor id handed.flatten ++ (s.requestQueue 0).buffer id

theorem step_books (accepts : Accepts gen) {calls : List (RequestCall Unit)}
    {told : List (List Request)} {call : RequestCall Unit}
    {st : RequestScheduler × RoundRobinState} {handed : List Request} (inv : Inv s p)
    (books : Books calls s told)
    (h : (requestSchedule table gen).step (s, p) call = some (st, handed)) :
    Books (calls ++ [call]) st.1 (told ++ [handed]) := by
  intro id
  rcases step_cases accepts inv h with ⟨r, rfl, rfl, rfl⟩ | ⟨rfl, called⟩
  · have joined := RequestQueue.buffer_insertRequest inv.queue r id
    have here : (s.setQueue 0 ((s.requestQueue 0).insertRequest r)).requestQueue 0 =
        (s.requestQueue 0).insertRequest r := rfl
    simp only [List.flatMap_append, ofRequestor_append, books id, here, joined, List.flatten_append]
    by_cases same : id = r.requestorID
    · simp [ofRequestor, RequestCall.inserted, same]
    · simp [ofRequestor, RequestCall.inserted, same, Ne.symm same]
  · have arrived : ofRequestor id ((calls ++ [RequestCall.requestSchedule ()]).flatMap
        RequestCall.inserted) = ofRequestor id (calls.flatMap RequestCall.inserted) := by
      simp [RequestCall.inserted]
    rw [arrived, books id, List.flatten_append, ofRequestor_append, List.append_assoc]
    congr 1
    rcases called.oldest inv with ⟨rfl, same⟩ | ⟨r, rfl, same⟩
    · simp [ofRequestor, same id]
    · rw [same id]
      by_cases own : id = r.requestorID
      · simp [ofRequestor, own]
      · simp [ofRequestor, own, Ne.symm own]

/-! ## Fairness -/

/-- From the pointer on, `r` comes before `x`. -/
def Before (r x : Nat) (st : RequestScheduler × RoundRobinState) : Prop :=
  ∃ a b, (order st.1)[a]? = some r ∧ (order st.1)[b]? = some x ∧
    Ahead (st.2.queueRequestorIndex 0) a b

/-- `r` has a request waiting, and the step does not grant it. -/
def Passed (r : Nat) (st : RequestScheduler × RoundRobinState) (_ : RequestCall Unit)
    (_ : RequestScheduler × RoundRobinState) (handed : List Request) : Prop :=
  Waiting st.1 r ∧ ∀ g ∈ handed, g.requestorID ≠ r

/-- The step grants `x`. -/
def grants (x : Nat) (handed : List Request) : Bool := handed.any fun g => g.requestorID == x

/-- The position of the requestor that was granted. -/
theorem Granted.owner {found : Option Nat} {scheduled : Option Request} {handed : List Request}
    {x : Nat} (granted : Granted s found s' scheduled handed) (h : (s.requestQueue 0).PerRequestor)
    (event : grants x handed = true) : ∃ i, found = some i ∧ (order s)[i]? = some x := by
  cases granted with
  | nothing => simp [grants] at event
  | @oldest i id r rest _ position front _ _ =>
    have own : r.requestorID = id := h.owned id r (front ▸ List.mem_cons_self)
    obtain rfl : id = x := by simpa [grants, own] using event
    exact ⟨i, rfl, position⟩

/-- After a grant of `x`, a requestor that has something waiting comes before `x`. -/
theorem step_latches (accepts : Accepts gen) {r x : Nat} (other : x ≠ r) {call : RequestCall Unit}
    {st : RequestScheduler × RoundRobinState} {handed : List Request} (inv : Inv s p)
    (h : (requestSchedule table gen).step (s, p) call = some (st, handed))
    (passed : Passed r (s, p) call st handed) (event : grants x handed = true) : Before r x st := by
  rcases step_cases accepts inv h with ⟨_, rfl, rfl, rfl⟩ | ⟨rfl, called⟩
  · simp [grants] at event
  · obtain ⟨_, same⟩ := called.inv inv
    obtain ⟨a, ha⟩ := List.getElem?_of_mem (inv.queue.mem_order passed.1)
    unfold Before
    rw [same]
    generalize st.1 = s', st.2 = p' at called
    cases called with
    | waits => simp [grants] at event
    | scans _ scan granted _ _ _ _ =>
      obtain ⟨i, rfl, hi⟩ := granted.owner inv.queue event
      refine ⟨a, i, ha, hi, ?_⟩
      rw [scan.ends_eq]
      refine ahead_next ?_ (List.getElem?_eq_some_iff.mp ha).1
      rintro rfl
      exact other (Option.some.inj (hi.symm.trans ha))

/-- While `r` comes before `x` and waits, `x` is not granted. -/
theorem step_passes (accepts : Accepts gen) {r x : Nat} {call : RequestCall Unit}
    {st : RequestScheduler × RoundRobinState} {handed : List Request} (inv : Inv s p)
    (before : Before r x (s, p))
    (h : (requestSchedule table gen).step (s, p) call = some (st, handed))
    (passed : Passed r (s, p) call st handed) : grants x handed = false ∧ Before r x st := by
  obtain ⟨a, b, ha, hb, ahead⟩ := before
  rcases step_cases accepts inv h with ⟨y, rfl, rfl, rfl⟩ | ⟨rfl, called⟩
  · exact ⟨rfl, a, b, RequestQueue.order_insertRequest_getElem? inv.queue y ha,
      RequestQueue.order_insertRequest_getElem? inv.queue y hb, ahead⟩
  · obtain ⟨_, same⟩ := called.inv inv
    unfold Before
    rw [same]
    generalize st.1 = s', st.2 = p' at called
    cases called with
    | waits => exact ⟨rfl, a, b, ha, hb, ahead⟩
    | @scans found _ _ scheduled _ _ scan granted _ _ _ _ =>
      obtain ⟨notLater, still⟩ := scan.ahead ahead ⟨r, ha, passed.1⟩
        (List.getElem?_eq_some_iff.mp ha).1 (List.getElem?_eq_some_iff.mp hb).1
      constructor
      · rw [Bool.eq_false_iff]
        intro event
        obtain ⟨i, rfl, hi⟩ := granted.owner inv.queue event
        refine notLater (congrArg some ?_)
        exact (List.getElem?_inj (List.getElem?_eq_some_iff.mp hi).1 inv.queue.nodup).mp
          (hi.trans hb.symm)
      · refine ⟨a, b, ha, hb, still ?_⟩
        rintro rfl
        cases granted with
        | @oldest _ id g rest _ position front _ _ =>
          have own : g.requestorID = id := inv.queue.owned id g (front ▸ List.mem_cons_self)
          apply passed.2 g List.mem_cons_self
          rw [own]
          exact Option.some.inj (position.symm.trans ha)

/-- **Round-robin fairness and spacing.** On one per-requestor queue and with a generator that accepts
everything, in every state a run reaches, with requestors appearing at any time: a grant is followed by
no other within the next `timeSlot - 1` calls; what each requestor sent is what it was granted and what
it has waiting, in order, and a call grants at most one request, the oldest of its requestor, which
leaves the queue with it; and over a stretch of steps at each of which a requestor `r` has a request
waiting and is not granted, every other requestor is granted at most once. -/
theorem roundRobin_fair (table : Nat → Bool) (gen : Generator) (accepts : Accepts gen)
    (dataBusSize : Nat) {calls : List (RequestCall Unit)} {st : RequestScheduler × RoundRobinState}
    {handed : List (List Request)}
    (ran : Lib.Machine.run (requestSchedule table gen).step
      (RequestScheduler.create true false dataBusSize, {}) calls = some (st, handed)) :
    (∀ call st₁ granted, (requestSchedule table gen).step st call = some (st₁, granted) →
      granted ≠ [] → ∀ more st₂ told,
        Lib.Machine.run (requestSchedule table gen).step st₁ more = some (st₂, told) →
        more.countP isSchedule < timeSlot → told.flatten = []) ∧
    Books calls st.1 handed ∧
    (∀ call st₁ granted, (requestSchedule table gen).step st call = some (st₁, granted) →
      ∀ g ∈ granted, granted = [g] ∧ (st.1.requestQueue 0).buffer g.requestorID =
        g :: (st₁.1.requestQueue 0).buffer g.requestorID) ∧
    ∀ r x, x ≠ r → ∀ stretch st' told,
      Lib.Machine.Along (requestSchedule table gen).step (Passed r) st stretch →
      Lib.Machine.run (requestSchedule table gen).step st stretch = some (st', told) →
      told.countP (grants x) ≤ 1 := by
  have history : Inv st.1 st.2 ∧ Books calls st.1 handed := by
    refine Lib.Machine.run_history (fun calls st handed => Inv st.1 st.2 ∧ Books calls st.1 handed)
      ?_ ⟨inv_create dataBusSize, fun _ => rfl⟩ ran
    rintro calls ⟨s, p⟩ told call st' granted ⟨inv, books⟩ h
    exact ⟨step_inv accepts inv h, step_books accepts inv books h⟩
  obtain ⟨inv, books⟩ := history
  refine ⟨fun call st₁ granted h some' more st₂ told ran few => ?_, books,
    fun call st₁ granted h g hg => ?_, fun r x other stretch st' told along ran => ?_⟩
  · refine stretch_slot accepts (step_inv accepts inv h) ?_ ran
    rw [step_starts accepts inv h some']
    omega
  · rcases step_cases accepts inv h with ⟨_, _, rfl, _⟩ | ⟨_, called⟩
    · cases hg
    · rcases called.oldest inv with ⟨rfl, _⟩ | ⟨g', rfl, buffers⟩
      · cases hg
      · obtain rfl := List.mem_singleton.mp hg
        refine ⟨rfl, ?_⟩
        rw [buffers g.requestorID, if_pos rfl]
        rfl
  · exact Lib.Machine.count_le_one_along (fun st => Inv st.1 st.2) (Before r x)
      (fun inv h _ => step_inv accepts inv h)
      (fun inv h passed event => step_latches accepts other inv h passed event)
      (fun inv before h passed => step_passes accepts inv before h passed) inv along ran

/-- A generator that accepts and makes no command. -/
def acceptingGenerator : Generator := fun g _ _ => some (g, true)

/-- Requestor 0 sends two reads, requestor 1 one in between. -/
def threeReads : List (RequestCall Unit) :=
  [.insertRequest 0 (sampleRequest .DATA_READ 0 0), .insertRequest 0 (sampleRequest .DATA_READ 1 0),
    .insertRequest 0 (sampleRequest .DATA_READ 0 64)]

/-- The law at the stretch of calls before requestor 1 is granted: requestor 0 is granted once, though
it has another request waiting. -/
theorem roundRobin_fair_threeReads :
    ∃ st handed st' told,
      Lib.Machine.run (requestSchedule (fun _ => true) acceptingGenerator).step
        (RequestScheduler.create true false 64, {}) threeReads = some (st, handed) ∧
      Lib.Machine.run (requestSchedule (fun _ => true) acceptingGenerator).step st
        (List.replicate 42 (.requestSchedule ())) = some (st', told) ∧
      told.flatten = [sampleRequest .DATA_READ 0 0] ∧ told.countP (grants 0) ≤ 1 := by
  obtain ⟨st, handed, ran, waits⟩ := Lib.Machine.run_exists
    (requestSchedule (fun _ => true) acceptingGenerator).step
    (fun st => (Lib.Machine.run (requestSchedule (fun _ => true) acceptingGenerator).step st
        (List.replicate 42 (.requestSchedule ()))).any (fun r =>
          r.2.flatten = [sampleRequest .DATA_READ 0 0] ∧ ∀ handed ∈ r.2, ∀ g ∈ handed,
            g.requestorID ≠ 1) ∧
      Lib.Machine.checkAlong (requestSchedule (fun _ => true) acceptingGenerator).step
        (fun st _ _ => Waiting st.1 1) st
        (List.replicate 42 (.requestSchedule ())) = true)
    (RequestScheduler.create true false 64, {}) threeReads (by decide +kernel)
  obtain ⟨stretched, checked⟩ := waits
  obtain ⟨⟨st', told⟩, ran', told'⟩ := (Option.any_eq_true _ _).mp stretched
  obtain ⟨first, others⟩ := of_decide_eq_true told'
  have waiting := Lib.Machine.along_of_check _ _ (fun st _ _ => Waiting st.1 1) st _
    (fun _ _ _ => of_decide_eq_true) checked
  have along := Lib.Machine.along_and waiting (Lib.Machine.along_of_outputs ran' others)
  have law := roundRobin_fair (fun _ => true) acceptingGenerator (fun g _ _ => ⟨g, rfl⟩) 64 ran
  exact ⟨st, handed, st', told, ran, ran', first,
    law.2.2.2 1 0 (by decide) (List.replicate 42 (.requestSchedule ())) st' told along ran'⟩

end RoundRobin
end MCsim
