import MCsim.Laws.Requestors
import MCsim.Requests.Calls

/-!
# First come, first served in every queue

`RequestScheduler_FCFS` scans each per-requestor queue twice: once for the first requestor with
something waiting, once for a front that arrived no later. The candidate and its position outlive the
turn of a queue. In a queue with something waiting the first scan replaces them; in one with nothing
waiting they are still those of an earlier queue, and the position is looked up where nobody waits.

So a call serves every queue as it should exactly where no idle queue comes behind one that has
something waiting (`fcfs_everyQueue`).
-/

namespace MCsim

namespace RequestQueue

/-- A request at the front of a requestor's buffer, with the requestor's position. -/
def Front (q : RequestQueue) (request : Request) (num : Nat) : Prop :=
  ∃ id rest, q.requestorOrder[num]? = some id ∧ q.buffer id = request :: rest

/-- Something waits in a requestor's buffer. -/
def Waits (q : RequestQueue) : Prop := ∃ request num, q.Front request num

variable {q : RequestQueue} {r : Request} {num : Nat}

theorem Front.lt (front : q.Front r num) : num < q.getQueueSize := by
  obtain ⟨id, rest, position, _⟩ := front
  exact (List.getElem?_eq_some_iff.mp position).1

theorem checkRequestIndex_eq_front : q.checkRequestIndex num 0 = some (some r) ↔ q.Front r num := by
  unfold checkRequestIndex Front
  cases position : q.requestorOrder[num]? with
  | none => simp
  | some id =>
    rw [Option.bind_some]
    cases buffer : q.buffer id with
    | nil => simp [buffer]
    | cons r' rest => simp [buffer, eq_comm]

/-- The request a queue gave up: a front that arrived no later than any other. -/
structure TakesOldest (q q' : RequestQueue) (r : Request) : Prop where
  taken : ∃ id rest, id ∈ q.requestorOrder ∧ q.buffer id = r :: rest ∧ q' = q.withoutFront id
  oldest : ∀ r' num, q.Front r' num → r.arriveTime ≤ r'.arriveTime

end RequestQueue

namespace RequestFcfs

open RequestQueue RequestScheduler

variable {q : RequestQueue} {check : Candidate}

/-! ## The two scans -/

/-- One turn of the first scan. -/
def frontAt (q : RequestQueue) (num : Nat) : Candidate :=
  match q.checkRequestIndex num 0 with
  | some (some r) => some (r, num)
  | _ => none

theorem firstFront_eq (q : RequestQueue) (check : Candidate) :
    firstFront q check = ((List.range q.getQueueSize).findSome? (frontAt q)).or check := rfl

theorem frontAt_eq_some {num num' : Nat} {r : Request} :
    frontAt q num = some (r, num') ↔ q.Front r num ∧ num = num' := by
  rw [← checkRequestIndex_eq_front]
  unfold frontAt
  split
  · next r' hr => rw [hr]; simp
  · next none =>
    constructor
    · exact nofun
    · exact fun h => absurd h.1 (none r)

/-- The first scan finds a front of this queue if there is one. -/
theorem firstFront_waits (waits : q.Waits) (check : Candidate) :
    ∃ r num, firstFront q check = some (r, num) ∧ q.Front r num := by
  obtain ⟨r, num, front⟩ := waits
  have found : ((List.range q.getQueueSize).findSome? (frontAt q)).isSome = true := by
    refine List.findSome?_isSome_iff.mpr ⟨num, List.mem_range.mpr front.lt, ?_⟩
    rw [frontAt_eq_some.mpr ⟨front, rfl⟩]
    rfl
  obtain ⟨⟨r', num'⟩, hc⟩ := Option.isSome_iff_exists.mp found
  obtain ⟨place, _, here⟩ := List.exists_of_findSome?_eq_some hc
  obtain ⟨front', rfl⟩ := frontAt_eq_some.mp here
  exact ⟨r', place, by rw [firstFront_eq, hc, Option.some_or], front'⟩

/-- In a queue with nothing waiting it leaves the candidate as it was. -/
theorem firstFront_idle (idle : ¬ q.Waits) (check : Candidate) : firstFront q check = check := by
  have none : (List.range q.getQueueSize).findSome? (frontAt q) = none := by
    refine List.findSome?_eq_none_iff.mpr fun num _ => ?_
    cases here : frontAt q num with
    | none => rfl
    | some c => exact absurd ⟨c.1, num, (frontAt_eq_some.mp here).1⟩ idle
  rw [firstFront_eq, none, Option.none_or]

/-- One turn of the second scan. -/
def earlierTurn (q : RequestQueue) (check : Candidate) (num : Nat) : Candidate :=
  match q.checkRequestIndex num 0, check with
  | some (some r), some best =>
    if r.arriveTime ≤ best.1.arriveTime then some (r, num) else some best
  | _, _ => check

theorem earlierFront_eq (q : RequestQueue) (check : Candidate) :
    earlierFront q check = (List.range q.getQueueSize).foldl (earlierTurn q) check := rfl

/-- The candidate stays a front, and arrived no later than it did before or the front passed. -/
theorem earlierTurn_spec {r : Request} {best : Nat} (front : q.Front r best) (num : Nat) :
    ∃ r' best', earlierTurn q (some (r, best)) num = some (r', best') ∧ q.Front r' best' ∧
      r'.arriveTime ≤ r.arriveTime ∧ ∀ x, q.Front x num → r'.arriveTime ≤ x.arriveTime := by
  unfold earlierTurn
  split
  · next x best hx h =>
    cases h
    have here := checkRequestIndex_eq_front.mp hx
    have only : ∀ y, q.Front y num → y = x := by
      intro y hy
      have both := (checkRequestIndex_eq_front.mpr hy).symm.trans hx
      simpa using both
    split
    · next earlier => exact ⟨x, num, rfl, here, earlier, fun y hy => by simp [only y hy]⟩
    · next later =>
      refine ⟨r, _, rfl, front, Nat.le_refl _, fun y hy => ?_⟩
      rw [only y hy]
      exact Nat.le_of_lt (Nat.not_le.mp later)
  · next none =>
    refine ⟨r, best, rfl, front, Nat.le_refl _, fun y hy => ?_⟩
    exact absurd rfl (none y (r, best) (checkRequestIndex_eq_front.mpr hy))

/-- **The second scan** ends with a front that arrived no later than any it passed. -/
theorem foldl_earlierTurn {r : Request} {best : Nat} (front : q.Front r best) (nums : List Nat) :
    ∃ r' best', nums.foldl (earlierTurn q) (some (r, best)) = some (r', best') ∧
      q.Front r' best' ∧ r'.arriveTime ≤ r.arriveTime ∧
      ∀ num ∈ nums, ∀ x, q.Front x num → r'.arriveTime ≤ x.arriveTime := by
  induction nums generalizing r best with
  | nil => exact ⟨r, best, rfl, front, Nat.le_refl _, fun _ h => absurd h List.not_mem_nil⟩
  | cons num nums ih =>
    obtain ⟨r₁, best₁, turn, front₁, le₁, passed₁⟩ := earlierTurn_spec front num
    obtain ⟨r₂, best₂, rest, front₂, le₂, passed₂⟩ := ih front₁
    refine ⟨r₂, best₂, by rw [List.foldl_cons, turn, rest], front₂, Nat.le_trans le₂ le₁, ?_⟩
    refine List.forall_mem_cons.mpr ⟨fun x hx => ?_, passed₂⟩
    exact Nat.le_trans le₂ (passed₁ x hx)

/-- With nothing waiting the second scan leaves the candidate too. -/
theorem earlierFront_idle (idle : ¬ q.Waits) (check : Candidate) : earlierFront q check = check := by
  rw [earlierFront_eq]
  generalize List.range q.getQueueSize = nums
  induction nums with
  | nil => rfl
  | cons num nums ih =>
    have turn : earlierTurn q check num = check := by
      unfold earlierTurn
      split
      · next r best hr => exact absurd ⟨r, num, checkRequestIndex_eq_front.mp hr⟩ idle
      · rfl
    rw [List.foldl_cons, turn, ih]

/-- **Both scans** of a queue with something waiting: an oldest front, whatever the candidate was. -/
theorem scans_waits (waits : q.Waits) (check : Candidate) :
    ∃ r num, earlierFront q (firstFront q check) = some (r, num) ∧ q.Front r num ∧
      ∀ r' num', q.Front r' num' → r.arriveTime ≤ r'.arriveTime := by
  obtain ⟨r₀, num₀, first, front₀⟩ := firstFront_waits waits check
  obtain ⟨r, num, scan, front, _, passed⟩ := foldl_earlierTurn front₀ (List.range q.getQueueSize)
  refine ⟨r, num, by rw [first, earlierFront_eq, scan], front, fun r' num' front' => ?_⟩
  exact passed num' (List.mem_range.mpr front'.lt) r' front'

/-! ## One queue -/

variable {next : CommandGenerator → Request → Bool → CommandGenerator} {s s' : RequestScheduler}
  {index : Nat}

/-- **A queue with something waiting** gives up an oldest front, and no other queue changes. -/
theorem scheduleRequestors_waits (waits : (s.requestQueue index).Waits) (check : Candidate) :
    ∃ s' r num, scheduleRequestors (accepting next) s index check = some (s', some (r, num)) ∧
      (s.requestQueue index).TakesOldest (s'.requestQueue index) r ∧
      s'.commandGenerator = next s.commandGenerator r (s.isRowHit r) ∧
      ∀ i ≠ index, s'.requestQueue i = s.requestQueue i := by
  obtain ⟨r, num, scans, ⟨id, rest, position, buffer⟩, oldest⟩ := scans_waits waits check
  obtain ⟨q', handed, removed⟩ := getRequestOf_front position buffer
  let after := ({ s.setQueue index q' with
      commandGenerator := next s.commandGenerator r (s.isRowHit r) }.updateRowTable
    r.addressMap.rank r.addressMap.bank r.row).setQueue index ((s.requestQueue index).withoutFront id)
  have served : (s.setQueue index q').serve (accepting next) index r = some (after, true) := by
    have queue : (s.setQueue index q').requestQueue index = q' := if_pos rfl
    simp only [serve, isSchedulable, accepting, Option.map_some, Option.bind_some, if_true]
    rw [queue, removed]
    rfl
  refine ⟨after, r, num, ?_,
    ⟨⟨id, rest, List.mem_of_getElem? position, buffer, if_pos rfl⟩, oldest⟩, rfl, fun i other => ?_⟩
  · unfold scheduleRequestors
    dsimp only
    rw [scans]
    dsimp only
    rw [handed, Option.bind_some]
    dsimp only
    rw [Option.bind_some, served]
    rfl
  · simp [after, RequestScheduler.setQueue, RequestScheduler.updateRowTable, other]

/-- **A queue with nothing waiting** is left alone if there is no candidate; else the position of the
candidate is looked up in it, and there is nothing to find. -/
theorem scheduleRequestors_idle {gen : Generator} (idle : ¬ (s.requestQueue index).Waits) :
    scheduleRequestors gen s index none = some (s, none) ∧
      ∀ c, scheduleRequestors gen s index (some c) = none := by
  constructor
  · unfold scheduleRequestors
    dsimp only
    rw [firstFront_idle idle, earlierFront_idle idle]
  · rintro ⟨r, num⟩
    unfold scheduleRequestors
    dsimp only
    rw [firstFront_idle idle, earlierFront_idle idle]
    dsimp only
    apply Option.bind_eq_none_iff.mpr
    intro answer handed
    obtain ⟨id, position, here⟩ := Option.bind_eq_some_iff.mp handed
    split at here
    · cases here
      rfl
    · next busy =>
      have filled : (s.requestQueue index).buffer id ≠ [] := fun empty => busy (by simp [empty])
      obtain ⟨r', rest, buffer⟩ := List.exists_cons_of_ne_nil filled
      exact absurd ⟨r', num, id, rest, position, buffer⟩ idle

/-! ## A whole call -/

/-- What a call should do to a queue: take an oldest front where something waits, and leave the queue
alone where nothing does. -/
def Served (q q' : RequestQueue) : Prop :=
  (q.Waits ∧ ∃ r, q.TakesOldest q' r) ∨ (¬ q.Waits ∧ q' = q)

/-- Where a loop over some queues gets through: with a candidate every one of them has something
waiting, and no idle queue comes behind one that is not. -/
structure NoneBehind (s : RequestScheduler) (indices : List Nat) (check : Candidate) : Prop where
  carried : check ≠ none → ∀ i ∈ indices, (s.requestQueue i).Waits
  pairs : indices.Pairwise fun i j => (s.requestQueue i).Waits → (s.requestQueue j).Waits

/-- **The loop over the queues.** It gets through there and only there, and then every queue it passed
was served and no other was touched. -/
theorem foldlM_serves {indices : List Nat} (once : indices.Nodup)
    (perRequestor : ∀ i ∈ indices, (s.requestQueue i).perRequestorEnable = true)
    (check : Candidate) :
    (NoneBehind s indices check ↔
      (indices.foldlM (scheduleQueue (accepting next)) (s, check)).isSome = true) ∧
    ∀ s' check', indices.foldlM (scheduleQueue (accepting next)) (s, check) = some (s', check') →
      (∀ i ∈ indices, Served (s.requestQueue i) (s'.requestQueue i)) ∧
      ∀ i ∉ indices, s'.requestQueue i = s.requestQueue i := by
  induction indices generalizing s check with
  | nil =>
    refine ⟨⟨fun _ => rfl, fun _ => ⟨fun _ i hi => absurd hi List.not_mem_nil, .nil⟩⟩, ?_⟩
    intro s' check' ran
    obtain ⟨rfl, _⟩ : s = s' ∧ check = check' := by simpa using ran
    exact ⟨fun i hi => absurd hi List.not_mem_nil, fun _ _ => rfl⟩
  | cons index indices ih =>
    obtain ⟨apart, once⟩ := List.nodup_cons.mp once
    obtain ⟨per, perRest⟩ := List.forall_mem_cons.mp perRequestor
    have branch : ∀ c, scheduleQueue (accepting next) (s, c) index =
        scheduleRequestors (accepting next) s index c := fun c => if_pos per
    have ne : ∀ i ∈ indices, i ≠ index := fun i hi same => apart (same ▸ hi)
    rw [List.foldlM_cons, branch]
    by_cases waits : (s.requestQueue index).Waits
    · -- something waits: the candidate is this queue's, and every later queue has to have one
      obtain ⟨s₁, r, num, turn, takes, _, others⟩ :=
        @scheduleRequestors_waits next s index waits check
      have later : ∀ i ∈ indices, s₁.requestQueue i = s.requestQueue i := fun i hi =>
        others i (ne i hi)
      obtain ⟨defined, serves⟩ := ih once
        (fun i hi => by rw [later i hi]; exact perRest i hi) (s := s₁) (some (r, num))
      rw [turn, Option.bind_eq_bind, Option.bind_some]
      have behind : NoneBehind s (index :: indices) check ↔
          NoneBehind s₁ indices (some (r, num)) := by
        have same : (∀ i ∈ indices, (s₁.requestQueue i).Waits) ↔
            ∀ i ∈ indices, (s.requestQueue i).Waits :=
          forall₂_congr fun i hi => by rw [later i hi]
        constructor
        · rintro ⟨_, pairs⟩
          have all := fun i hi => (List.pairwise_cons.mp pairs).1 i hi waits
          have all' := same.mpr all
          exact ⟨fun _ => all', List.pairwise_of_forall_mem_list fun i _ j hj _ => all' j hj⟩
        · rintro ⟨carried, _⟩
          have all := same.mp (carried (by simp))
          exact ⟨fun _ => List.forall_mem_cons.mpr ⟨waits, all⟩, List.pairwise_cons.mpr
            ⟨fun i hi _ => all i hi, List.pairwise_of_forall_mem_list fun i _ j hj _ => all j hj⟩⟩
      refine ⟨behind.trans defined, fun s' check' ran => ?_⟩
      obtain ⟨served, kept⟩ := serves s' check' ran
      refine ⟨List.forall_mem_cons.mpr ⟨?_, fun i hi => ?_⟩, fun i hi => ?_⟩
      · rw [kept index apart]
        exact .inl ⟨waits, r, takes⟩
      · rw [← later i hi]
        exact served i hi
      · obtain ⟨other, notIn⟩ := not_or.mp (fun h => hi (List.mem_cons.mpr h))
        rw [kept i notIn, others i other]
    · obtain ⟨skip, stuck⟩ := @scheduleRequestors_idle s index (accepting next) waits
      cases check with
      | some c =>
        rw [stuck c, Option.bind_eq_bind, Option.bind_none]
        refine ⟨⟨fun behind => ?_, fun h => nomatch h⟩, fun _ _ h => nomatch h⟩
        exact absurd (behind.carried (by simp) index List.mem_cons_self) waits
      | none =>
        obtain ⟨defined, serves⟩ := ih once perRest none
        rw [skip, Option.bind_eq_bind, Option.bind_some]
        have behind : NoneBehind s (index :: indices) none ↔ NoneBehind s indices none := by
          constructor
          · rintro ⟨_, pairs⟩
            exact ⟨fun h => absurd rfl h, (List.pairwise_cons.mp pairs).2⟩
          · rintro ⟨_, pairs⟩
            exact ⟨fun h => absurd rfl h, List.pairwise_cons.mpr
              ⟨fun _ _ here => absurd here waits, pairs⟩⟩
        refine ⟨behind.trans defined, fun s' check' ran => ?_⟩
        obtain ⟨served, kept⟩ := serves s' check' ran
        refine ⟨List.forall_mem_cons.mpr ⟨.inr ⟨waits, kept index apart⟩, served⟩, fun i hi => ?_⟩
        exact kept i fun h => hi (List.mem_cons_of_mem index h)

/-- **First come, first served in every queue.** With any number of per-requestor queues of any
contents, and a generator that always accepts: a call gets through and serves every queue (takes one
oldest front where something waits, and neither takes from nor looks into a queue where nothing does)
exactly if no queue with nothing waiting comes behind one with something waiting. -/
theorem fcfs_everyQueue (next : CommandGenerator → Request → Bool → CommandGenerator)
    (s : RequestScheduler)
    (perRequestor : ∀ i < s.queueCount, (s.requestQueue i).perRequestorEnable = true) :
    (∃ s', requestSchedule (accepting next) s = some s' ∧
      ∀ i < s.queueCount, Served (s.requestQueue i) (s'.requestQueue i)) ↔
    ∀ i j, i < j → j < s.queueCount → (s.requestQueue i).Waits → (s.requestQueue j).Waits := by
  obtain ⟨defined, serves⟩ := @foldlM_serves next s (List.range s.queueCount) List.nodup_range
    (fun i hi => perRequestor i (List.mem_range.mp hi)) none
  have behind : NoneBehind s (List.range s.queueCount) none ↔
      ∀ i j, i < j → j < s.queueCount → (s.requestQueue i).Waits → (s.requestQueue j).Waits := by
    constructor
    · rintro ⟨_, pairs⟩ i j less small
      have pair := List.pairwise_iff_getElem.mp pairs i j (by simp; omega) (by simpa using small) less
      simpa using pair
    · intro order
      refine ⟨fun h => absurd rfl h, List.pairwise_iff_getElem.mpr fun i j hi hj less => ?_⟩
      simp only [List.getElem_range]
      exact order i j less (by simpa using hj)
  rw [← behind, defined]
  unfold requestSchedule
  constructor
  · rintro ⟨s', ran, _⟩
    obtain ⟨r, fold, _⟩ := Option.map_eq_some_iff.mp ran
    rw [fold]
    rfl
  · intro some'
    obtain ⟨⟨s', check'⟩, fold⟩ := Option.isSome_iff_exists.mp some'
    refine ⟨s', by rw [fold]; rfl, fun i small => ?_⟩
    exact (serves s' check' fold).1 i (List.mem_range.mpr small)

/-- Two per-requestor queues with these reads waiting in each. -/
def withQueues (reads reads' : List Request) : RequestScheduler :=
  let filled := fun l => List.foldl insertRequest (RequestQueue.create true false) l
  { createQueues 2 true false 64 with
    requestQueue := fun i => if i = 0 then filled reads else filled reads' }

/-- A read of a requestor that arrived at a time. -/
def readAt (requestorID arriveTime : Nat) : Request :=
  { sampleRequest .DATA_READ requestorID 0 with handle := arriveTime, arriveTime := arriveTime }

/-- Both queues have something waiting, the first one a younger read in front of the order. -/
theorem fcfs_everyQueue_bothWait :
    ∃ s', requestSchedule (accepting openNext) (withQueues [readAt 0 5, readAt 1 3] [readAt 0 4]) =
        some s' ∧
      ∀ i < 2, Served ((withQueues [readAt 0 5, readAt 1 3] [readAt 0 4]).requestQueue i)
        (s'.requestQueue i) := by
  refine (fcfs_everyQueue openNext (withQueues [readAt 0 5, readAt 1 3] [readAt 0 4])
    fun i small => ?_).mpr fun i j less small _ => ?_
  · match i, small with
    | 0, _ => rfl
    | 1, _ => rfl
  · match j, small with
    | 1, _ => exact ⟨readAt 0 4, 0, 0, [], rfl, rfl⟩

/-- A read waits in the first queue and none in the second, and the call looks up the first requestor
of the second queue, which has none. -/
theorem fcfs_emptyBehind :
    requestSchedule openGenerator (withQueues [readAt 0 5] []) = none ∧
      (withQueues [readAt 0 5] []).queueCount = 2 := by
  decide +kernel

end RequestFcfs
end MCsim
