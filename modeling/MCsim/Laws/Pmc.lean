import MCsim.Requests.Pmc
import MCsim.Laws.Requestors

/-!
# The slots of PMC

A slot's number is taken for a position in the order in which requestors first appeared. Where each
requestor stands at its own position when its slot comes up (`InPlace`), a call is defined and serves
the slot's own requestor. Nothing less will do: a requestor that has just appeared has something
waiting, so the first time its position comes up it is granted, whichever slot that is (`Inv.fresh`).
-/

namespace MCsim
namespace Pmc

open RequestScheduler Lib.Rotation

variable {next : CommandGenerator → Request → Bool → CommandGenerator}
  {s s' : RequestScheduler} {p p' : PmcState} {q : RequestQueue}

/-- From a slot on, for the turns left and as long as the requestors passed have nothing waiting, the
requestor of each slot stands at its own position. -/
def InPlaceFrom (q : RequestQueue) : Nat → Nat → Prop
  | 0, _ => True
  | turns + 1, slot => q.requestorOrder[slot]? = some slot ∧
      (q.buffer slot = [] → InPlaceFrom q turns (Lib.Rotation.next 8 slot))

def decidableInPlaceFrom (q : RequestQueue) : ∀ turns slot, Decidable (InPlaceFrom q turns slot)
  | 0, _ => .isTrue trivial
  | turns + 1, slot =>
    have := decidableInPlaceFrom q turns (Lib.Rotation.next 8 slot)
    inferInstanceAs (Decidable (_ ∧ (_ → _)))

instance (turns slot : Nat) : Decidable (InPlaceFrom q turns slot) := decidableInPlaceFrom q turns slot

/-- A call that finds no slot running, once somebody has appeared, finds every requestor whose slot
comes up at its own position. -/
def InPlace (st : RequestScheduler × PmcState) (arrivals : List Request) : Prop :=
  st.2.slotCounter = 0 → (arrived st.1 arrivals).requestorOrder ≠ [] →
    InPlaceFrom (arrived st.1 arrivals) 8 st.2.requestorIndex

instance (st : RequestScheduler × PmcState) (arrivals : List Request) :
    Decidable (InPlace st arrivals) :=
  inferInstanceAs (Decidable (_ → _ → _))

/-- The granted request is of the requestor whose slot it is. -/
def Owned (granted : Grant) : Prop := ∀ slot request, granted = some (slot, request) →
  request.requestorID = slot

/-! ## The invariant -/

/-- The table is set up. -/
structure Ready (p : PmcState) : Prop where
  scheduleSlot : p.scheduleSlot = List.range 8
  timeSlot : p.timeSlot = List.replicate 8 47
  index : p.requestorIndex < 8

/-- A requestor within the table's reach stands at its own position, or it has something waiting. -/
def Fresh (q : RequestQueue) : Prop :=
  ∀ slot < 8, ∀ id, q.requestorOrder[slot]? = some id → id = slot ∨ q.buffer id ≠ []

structure Inv (st : RequestScheduler × PmcState) : Prop where
  queue : (st.1.requestQueue 0).PerRequestor
  fresh : Fresh (st.1.requestQueue 0)
  phase : (st.1.clockCycle = 1 ∧ st.2 = {}) ∨ (1 < st.1.clockCycle ∧ Ready st.2)

theorem inv_start (dataBusSize : Nat) : Inv (start dataBusSize) := by
  refine ⟨RequestQueue.PerRequestor.create, ?_, .inl ⟨rfl, rfl⟩⟩
  intro slot _ id known
  simp [start, RequestScheduler.create, RequestQueue.create] at known

theorem Ready.slot (ready : Ready p) : p.scheduleSlot[p.requestorIndex]? = some p.requestorIndex := by
  rw [ready.scheduleSlot, List.getElem?_range ready.index]

theorem advance_index (ready : Ready p) :
    (advance p).requestorIndex = Lib.Rotation.next 8 p.requestorIndex := by
  simp [advance, ready.scheduleSlot]

theorem Ready.advance (ready : Ready p) : Ready (advance p) := by
  refine ⟨ready.scheduleSlot, ready.timeSlot, ?_⟩
  rw [advance_index ready]
  exact next_lt ready.index

/-! ## Arrivals -/

/-- A request that arrives leaves its requestor with something waiting, and everybody at its place. -/
theorem Fresh.insertRequest (fresh : Fresh q) (queue : q.PerRequestor) (r : Request) :
    Fresh (q.insertRequest r) := by
  intro slot small id known
  rw [RequestQueue.buffer_insertRequest queue]
  by_cases same : id = r.requestorID
  · right
    simp [same]
  · rw [if_neg same]
    apply fresh slot small id
    rw [RequestQueue.order_insertRequest queue] at known
    split at known
    · exact known
    · rw [List.getElem?_append] at known
      split at known
      · exact known
      · exact absurd (List.mem_singleton.mp (List.mem_of_getElem? known)) same

theorem Fresh.arrive (fresh : Fresh q) (queue : q.PerRequestor) (arrivals : List Request) :
    Fresh (arrivals.foldl RequestQueue.insertRequest q) := by
  induction arrivals generalizing q with
  | nil => exact fresh
  | cons r l ih => exact ih (fresh.insertRequest queue r) (queue.insertRequest r)

/-- A requestor that stands at its own position may be granted. -/
theorem Fresh.withoutFront (fresh : Fresh q) (queue : q.PerRequestor) {slot : Nat}
    (own : q.requestorOrder[slot]? = some slot) : Fresh (q.withoutFront slot) := by
  intro i small id known
  by_cases same : id = slot
  · left
    subst same
    apply (List.getElem?_inj (List.getElem?_eq_some_iff.mp own).1 queue.nodup).mp
    exact own.trans known.symm
  · rw [RequestQueue.buffer_withoutFront, if_neg same]
    exact fresh i small id known

/-! ## The loop over the slots -/

variable (next) in
/-- Granting the front of the buffer at a position. -/
theorem grant_front {slot id : Nat} {r : Request} {rest : List Request} (ready : Ready p)
    (small : slot < 8) (position : (s.requestQueue 0).requestorOrder[slot]? = some id)
    (front : (s.requestQueue 0).buffer id = r :: rest) :
    ∃ s', ((s.requestQueue 0).getRequestOf slot 0).bind (fun (request, q) =>
        request.bind fun request => grant (accepting next) (s.setQueue 0 q) p slot request) =
      some (s', advance { p with slotCounter := 46 }, some (slot, r)) ∧
      s'.requestQueue 0 = (s.requestQueue 0).withoutFront id ∧ s'.clockCycle = s.clockCycle := by
  obtain ⟨q, handed, removed⟩ := RequestQueue.getRequestOf_front position front
  have length : p.timeSlot[slot]? = some 47 := by
    rw [ready.timeSlot, List.getElem?_replicate, if_pos small]
  have here : ((s.setQueue 0 q).requestQueue 0).removeRequest =
      some ((s.requestQueue 0).withoutFront id) := removed
  refine ⟨{ (s.setQueue 0 q).setQueue 0 ((s.requestQueue 0).withoutFront id) with
    commandGenerator := next s.commandGenerator r false }, ?_, rfl, rfl⟩
  rw [handed]
  simp [grant, isSchedulable, accepting, length, setQueue, removed]

/-- What a call leaves of the state, whatever it did. -/
structure Kept (s : RequestScheduler) (s' : RequestScheduler) (p' : PmcState) : Prop where
  queue : (s'.requestQueue 0).PerRequestor
  fresh : Fresh (s'.requestQueue 0)
  clock : s'.clockCycle = s.clockCycle
  ready : Ready p'

/-- A defined call that serves its own requestor, with the slot that runs after it. -/
def Served (s : RequestScheduler) (result : Option (RequestScheduler × PmcState × Grant)) : Prop :=
  ∃ s' p' granted, result = some (s', p', granted) ∧ Owned granted ∧ Kept s s' p' ∧
    p'.slotCounter = if granted.isSome then 46 else 0

/-- Nobody has appeared: the slots are passed over. -/
theorem slotTurns_empty {gen : Generator} {turns : Nat} (queue : (s.requestQueue 0).PerRequestor)
    (fresh : Fresh (s.requestQueue 0)) (ready : Ready p) (free : p.slotCounter = 0)
    (nobody : (s.requestQueue 0).requestorOrder = []) : Served s (slotTurns gen turns s p) := by
  induction turns generalizing p with
  | zero => exact ⟨s, p, none, rfl, nofun, ⟨queue, fresh, rfl, ready⟩, free⟩
  | succ turns ih =>
    have size : (s.requestQueue 0).getSize true p.requestorIndex = some 0 := by
      simp [RequestQueue.getSize, nobody]
    have skipped : slotTurns gen (turns + 1) s p = slotTurns gen turns s (advance p) := by
      simp [slotTurns, ready.slot, size]
    rw [skipped]
    exact ih ready.advance free

variable (next) in
/-- **The loop over the slots**: it serves a requestor in its own slot, or none, exactly if the
requestors whose slots come up stand at their positions. -/
theorem slotTurns_served (turns : Nat) (queue : (s.requestQueue 0).PerRequestor)
    (fresh : Fresh (s.requestQueue 0)) (ready : Ready p) (free : p.slotCounter = 0)
    (somebody : (s.requestQueue 0).requestorOrder ≠ []) :
    (InPlaceFrom (s.requestQueue 0) turns p.requestorIndex →
      Served s (slotTurns (accepting next) turns s p)) ∧
    (∀ {s' p' granted}, slotTurns (accepting next) turns s p = some (s', p', granted) →
      Owned granted → InPlaceFrom (s.requestQueue 0) turns p.requestorIndex) := by
  induction turns generalizing p with
  | zero =>
    refine ⟨fun _ => ⟨s, p, none, rfl, nofun, ⟨queue, fresh, rfl, ready⟩, free⟩, ?_⟩
    intro s' p' granted _ _
    trivial
  | succ turns ih =>
    have seen : (s.requestQueue 0).requestorOrder.length ≠ 0 := by simpa using somebody
    cases position : (s.requestQueue 0).requestorOrder[p.requestorIndex]? with
    | none =>
      -- past the order: the call is undefined
      constructor
      · intro place
        simp [InPlaceFrom, position] at place
      · intro s' p' granted called
        have size : (s.requestQueue 0).getSize true p.requestorIndex = none := by
          simp [RequestQueue.getSize, seen, position]
        simp [slotTurns, ready.slot, size] at called
    | some id =>
      have size := RequestQueue.getSize_position position
      cases front : (s.requestQueue 0).buffer id with
      | nil =>
        have own : id = p.requestorIndex :=
          (fresh p.requestorIndex ready.index id position).resolve_right (fun waits => waits front)
        have skipped : slotTurns (accepting next) (turns + 1) s p =
            slotTurns (accepting next) turns s (advance p) := by
          simp [slotTurns, ready.slot, size, front]
        have places : InPlaceFrom (s.requestQueue 0) (turns + 1) p.requestorIndex ↔
            InPlaceFrom (s.requestQueue 0) turns (advance p).requestorIndex := by
          rw [advance_index ready]
          simp [InPlaceFrom, position, own, own ▸ front]
        rw [skipped, places]
        exact ih ready.advance free
      | cons r rest =>
        obtain ⟨s₁, granted, left, clock⟩ :=
          grant_front next ready ready.index position front
        have called : slotTurns (accepting next) (turns + 1) s p =
            some (s₁, advance { p with slotCounter := 46 }, some (p.requestorIndex, r)) := by
          simp only [slotTurns, ready.slot, size, front, Option.bind_some, List.length_cons,
            gt_iff_lt, Nat.succ_pos, if_true]
          exact granted
        have owner : r.requestorID = id := queue.owned id r (front ▸ List.mem_cons_self)
        rw [called]
        constructor
        · intro place
          have own : id = p.requestorIndex := Option.some.inj (position.symm.trans place.1)
          subst own
          refine ⟨_, _, _, rfl, ?_, ⟨?_, ?_, clock, ?_⟩, rfl⟩
          · intro slot request same
            obtain ⟨rfl, rfl⟩ : _ ∧ _ := by simpa using same
            exact owner
          · rw [left]
            exact queue.withoutFront (List.mem_of_getElem? position)
          · rw [left]
            exact fresh.withoutFront queue position
          · exact Ready.advance ⟨ready.scheduleSlot, ready.timeSlot, ready.index⟩
        · intro s' p' granted' same owned
          obtain ⟨rfl, rfl, rfl⟩ : _ ∧ _ ∧ _ := by simpa using same
          have own : id = p.requestorIndex := owner.symm.trans (owned _ _ rfl)
          subst own
          refine ⟨position, ?_⟩
          intro none
          rw [front] at none
          cases none

/-! ## Cycles -/

/-- The state once the first call has set it up. -/
theorem Inv.settled (inv : Inv (s, p)) :
    Ready (if s.clockCycle = 1 then initialise p else p) ∧ 0 < s.clockCycle ∧
      (if s.clockCycle = 1 then initialise p else p).requestorIndex = p.requestorIndex ∧
      (if s.clockCycle = 1 then initialise p else p).slotCounter = p.slotCounter := by
  rcases inv.phase with ⟨first, set⟩ | ⟨later, ready⟩
  · have first : s.clockCycle = 1 := first
    have set : p = {} := set
    subst set
    rw [if_pos first]
    exact ⟨⟨rfl, rfl, by decide⟩, by omega, rfl, rfl⟩
  · have later : 1 < s.clockCycle := later
    rw [if_neg (by omega)]
    exact ⟨ready, by omega, rfl, rfl⟩

/-- How a call moves the slot counter. -/
def Counts (before after : Nat) (granted : Grant) : Prop :=
  if before = 0 then after = if granted.isSome then 46 else 0
  else granted = none ∧ after + 1 = before

variable (next) in
/-- **A cycle** counts the slot down; or it is defined and serves its own requestor, or none, exactly if
everybody is in place. -/
theorem cycle_served (inv : Inv (s, p)) (arrivals : List Request) :
    (InPlace (s, p) arrivals → ∃ st granted,
      cycle (accepting next) (s, p) arrivals = some (st, granted) ∧ Inv st ∧ Owned granted ∧
        Counts p.slotCounter st.2.slotCounter granted) ∧
    (∀ {st granted}, cycle (accepting next) (s, p) arrivals = some (st, granted) →
      Owned granted → InPlace (s, p) arrivals) := by
  obtain ⟨ready, positive, index, counter⟩ := inv.settled
  have queue : (arrived s arrivals).PerRequestor := inv.queue.arrive arrivals
  have fresh : Fresh (arrived s arrivals) := inv.fresh.arrive inv.queue arrivals
  simp only [cycle, requestSchedule]
  -- the call sees the set-up state and the queue with what has arrived
  have clock : (s.setQueue 0 (arrived s arrivals)).clockCycle = s.clockCycle := rfl
  rw [clock]
  generalize set : (if s.clockCycle = 1 then initialise p else p) = p₀ at ready index counter
  have told : ∀ {result : Option (RequestScheduler × PmcState × Grant)},
      Served (s.setQueue 0 (arrived s arrivals)) result → p.slotCounter = 0 →
      ∃ st granted, (result.map fun r => ((r.1.step, r.2.1), r.2.2)) = some (st, granted) ∧
        Inv st ∧ Owned granted ∧ Counts p.slotCounter st.2.slotCounter granted := by
    rintro result ⟨s', p', granted, rfl, owned, kept, counted⟩ free
    refine ⟨(s'.step, p'), granted, rfl, ⟨kept.queue, kept.fresh, .inr ⟨?_, kept.ready⟩⟩, owned, ?_⟩
    · have same := kept.clock
      show 1 < s'.clockCycle + 1
      rw [same, clock]
      omega
    · rw [Counts, if_pos free]
      exact counted
  by_cases free : p.slotCounter = 0
  · have free₀ : p₀.slotCounter = 0 := counter.trans free
    have turns : slotCall (accepting next) (s.setQueue 0 (arrived s arrivals)) p₀ =
        slotTurns (accepting next) 8 (s.setQueue 0 (arrived s arrivals)) p₀ := by
      simp [slotCall, free₀, ready.scheduleSlot]
    rw [turns]
    by_cases nobody : (arrived s arrivals).requestorOrder = []
    · refine ⟨fun _ => ?_, fun _ _ _ some' => absurd nobody some'⟩
      exact told (slotTurns_empty queue fresh ready free₀ nobody) free
    · obtain ⟨serves, placed⟩ := slotTurns_served next 8
        (s := s.setQueue 0 (arrived s arrivals)) queue fresh ready free₀ nobody
      rw [index] at serves placed
      constructor
      · intro place
        exact told (serves (place free nobody)) free
      · intro st granted called owned _ _
        obtain ⟨⟨s', p', granted'⟩, turned, out⟩ := Option.map_eq_some_iff.mp called
        obtain ⟨rfl, rfl⟩ : _ ∧ _ := by simpa using out
        exact placed turned owned
  · have busy₀ : p₀.slotCounter ≠ 0 := by
      rw [counter]
      exact free
    refine ⟨fun _ => ?_, fun _ _ zero => absurd zero free⟩
    refine ⟨_, none, by simp only [slotCall, if_neg busy₀]; rfl, ?_, fun _ _ none_ => (by cases none_), ?_⟩
    · refine ⟨queue, fresh, .inr ⟨?_, ⟨ready.scheduleSlot, ready.timeSlot, ready.index⟩⟩⟩
      show 1 < s.clockCycle + 1
      omega
    · rw [Counts, if_neg free]
      refine ⟨rfl, ?_⟩
      show p₀.slotCounter - 1 + 1 = p.slotCounter
      omega

/-! ## Runs -/

/-- Grants are at least 47 calls apart. -/
def Spaced (told : List Grant) : Prop :=
  ∀ i j, i < j → ∀ g g', told[i]? = some (some g) → told[j]? = some (some g') → i + 47 ≤ j

/-- So far the grants are spaced, and the slot of the last one is running. -/
def SpacedUntil (told : List Grant) (counter : Nat) : Prop :=
  Spaced told ∧ ∀ i g, told[i]? = some (some g) → i + 47 ≤ told.length + counter

theorem SpacedUntil.step {told : List Grant} {before after : Nat} {granted : Grant}
    (spaced : SpacedUntil told before) (counts : Counts before after granted) :
    SpacedUntil (told ++ [granted]) after := by
  obtain ⟨apart, running⟩ := spaced
  -- an entry of the longer list is an old one, or it is the new one
  have entry : ∀ {i g}, (told ++ [granted])[i]? = some (some g) →
      told[i]? = some (some g) ∧ i < told.length ∨ i = told.length ∧ granted = some g := by
    intro i g at_
    rcases Nat.lt_trichotomy i told.length with small | same | large
    · rw [List.getElem?_append_left small] at at_
      exact .inl ⟨at_, small⟩
    · subst same
      exact .inr ⟨rfl, by simpa using at_⟩
    · rw [List.getElem?_eq_none (by simp; omega)] at at_
      cases at_
  unfold Counts at counts
  constructor
  · intro i j less g g' first second
    rcases entry second with ⟨second, small⟩ | ⟨rfl, rfl⟩
    · rcases entry first with ⟨first, _⟩ | ⟨rfl, _⟩
      · exact apart i j less g g' first second
      · omega
    · rcases entry first with ⟨first, _⟩ | ⟨rfl, _⟩
      · have := running i g first
        split at counts
        · omega
        · cases counts.1
      · omega
  · intro i g at_
    rw [List.length_append, List.length_singleton]
    rcases entry at_ with ⟨old, _⟩ | ⟨rfl, rfl⟩
    · have := running i g old
      split at counts
      · omega
      · obtain ⟨_, down⟩ := counts
        omega
    · split at counts
      · simp at counts
        omega
      · cases counts.1

/-- A run that finds everybody in place is a run that serves everybody in its own slot. -/
theorem meets_iff_owned {st : RequestScheduler × PmcState} (inv : Inv st)
    (arrivals : List (List Request)) :
    Lib.Machine.Meets (cycle (accepting next)) InPlace st arrivals ↔
      ∃ t told, Lib.Machine.run (cycle (accepting next)) st arrivals = some (t, told) ∧
        ∀ granted ∈ told, Owned granted := by
  induction arrivals generalizing st with
  | nil =>
    refine ⟨fun _ => ⟨st, [], rfl, ?_⟩, fun _ => trivial⟩
    intro granted none
    cases none
  | cons now later ih =>
    obtain ⟨serves, placed⟩ := cycle_served next inv now
    constructor
    · intro meets
      obtain ⟨st', granted, called, inv', owned, _⟩ := serves meets.1
      obtain ⟨t, told, ran, rest⟩ := (ih inv').mp (meets.2 st' granted called)
      refine ⟨t, granted :: told,
        Lib.Machine.run_cons_eq_some.mpr ⟨st', granted, told, called, ran, rfl⟩, ?_⟩
      intro g hg
      rcases List.mem_cons.mp hg with rfl | hg
      · exact owned
      · exact rest g hg
    · rintro ⟨t, told, ran, owned⟩
      obtain ⟨st', granted, told', called, ran', rfl⟩ := Lib.Machine.run_cons_eq_some.mp ran
      have place := placed called (owned granted List.mem_cons_self)
      obtain ⟨st₁, granted₁, called₁, inv', _⟩ := serves place
      obtain ⟨rfl, rfl⟩ : st' = st₁ ∧ granted = granted₁ := by simpa [called] using called₁
      refine ⟨place, ?_⟩
      intro st₂ granted₂ called₂
      obtain ⟨rfl, rfl⟩ : st' = st₂ ∧ granted = granted₂ := by simpa [called] using called₂
      apply (ih inv').mpr
      exact ⟨t, told', ran', fun g hg => owned g (List.mem_cons_of_mem granted hg)⟩

/-- The grants of a run that serves everybody in its own slot are spaced. -/
theorem run_spaced {dataBusSize : Nat} {arrivals : List (List Request)}
    {t : RequestScheduler × PmcState} {told : List Grant}
    (ran : Lib.Machine.run (cycle (accepting next)) (start dataBusSize) arrivals = some (t, told))
    (owned : ∀ granted ∈ told, Owned granted) : Spaced told := by
  have history : Inv t ∧ SpacedUntil told t.2.slotCounter := by
    refine Lib.Machine.run_history_along (fun _ st told => Inv st ∧ SpacedUntil told st.2.slotCounter)
      ?_ ⟨inv_start dataBusSize, ?_⟩ (Lib.Machine.along_of_outputs ran owned) ran
    · rintro arrivals st told now st' granted ⟨inv, spaced⟩ called owned
      obtain ⟨serves, placed⟩ := cycle_served next inv now
      obtain ⟨st₁, granted₁, called₁, inv', _, counts⟩ := serves (placed called owned)
      obtain ⟨rfl, rfl⟩ : st' = st₁ ∧ granted = granted₁ := by simpa [called] using called₁
      exact ⟨inv', spaced.step counts⟩
    · constructor
      · intro i j _ g g' none
        simp at none
      · intro i g none
        simp at none
  exact history.2.1

/-- **The slots of PMC.** On one per-requestor queue, whatever arrives and whenever: every position that
the calls of a run look at is one of a requestor seen, every request is handed over in the slot of its
own requestor, and grants are at least 47 calls apart, exactly if every call that finds no slot running
finds each requestor whose slot comes up at its own position (or nobody has appeared). -/
theorem pmc_slots (next : CommandGenerator → Request → Bool → CommandGenerator) (dataBusSize : Nat)
    (arrivals : List (List Request)) :
    Lib.Machine.Meets (cycle (accepting next)) InPlace (start dataBusSize) arrivals ↔
      ∃ st told, Lib.Machine.run (cycle (accepting next)) (start dataBusSize) arrivals =
          some (st, told) ∧
        (∀ slot request, some (slot, request) ∈ told → request.requestorID = slot) ∧
        Spaced told := by
  rw [meets_iff_owned (inv_start dataBusSize)]
  constructor
  · rintro ⟨st, told, ran, owned⟩
    refine ⟨st, told, ran, ?_, run_spaced ran owned⟩
    intro slot request granted
    exact owned _ granted slot request rfl
  · rintro ⟨st, told, ran, owned, _⟩
    refine ⟨st, told, ran, ?_⟩
    intro granted inTold slot request same
    subst same
    exact owned slot request inTold

/-- Requestors send a read each, in this order, and nothing arrives in the calls that follow. -/
def readsOf (requestors : List Nat) (calls : Nat) : List (List Request) :=
  (requestors.map fun id => sampleRequest .DATA_READ id 0) :: List.replicate calls []

/-- The law where the eight requestors send in the order of the slots: two of them are served within 48
calls, each in its own slot. -/
theorem pmc_slots_inOrder :
    ∃ st told, Lib.Machine.run (cycle (accepting fun g _ _ => g)) (start 64)
        (readsOf (List.range 8) 47) = some (st, told) ∧
      (∀ slot request, some (slot, request) ∈ told → request.requestorID = slot) ∧ Spaced told ∧
      told[0]? = some (some (0, sampleRequest .DATA_READ 0 0)) ∧
      told[47]? = some (some (1, sampleRequest .DATA_READ 1 0)) := by
  have place := Lib.Machine.meets_of_check (cycle (accepting fun g _ _ => g))
    (fun st arrivals => InPlace st arrivals) InPlace (start 64) (readsOf (List.range 8) 47)
    (fun _ _ => of_decide_eq_true) (by decide +kernel)
  obtain ⟨st, told, ran, owned, spaced⟩ := (pmc_slots (fun g _ _ => g) 64 _).mp place
  obtain ⟨st', told', ran', first, second⟩ := Lib.Machine.run_exists_told
    (cycle (accepting fun g _ _ => g))
    (fun _ told => told[0]? = some (some (0, sampleRequest .DATA_READ 0 0)) ∧
      told[47]? = some (some (1, sampleRequest .DATA_READ 1 0)))
    (start 64) (readsOf (List.range 8) 47) (by decide +kernel)
  obtain ⟨rfl, rfl⟩ : st = st' ∧ told = told' := by simpa [ran] using ran'
  exact ⟨st, told, ran, owned, spaced, first, second⟩

/-- Requestor 0 alone sends a read: 47 calls later the slot that comes up is number 1, one position past
the one requestor seen, and the call is undefined. Where requestor 1 sends before requestor 0, slot 0 is
given requestor 1's read. -/
theorem pmc_slots_outOfPlace :
    (∃ st told, Lib.Machine.run (cycle (accepting fun g _ _ => g)) (start 64) (readsOf [0] 46) =
        some (st, told) ∧
      (st.1.requestQueue 0).requestorOrder = [0] ∧ st.2.slotCounter = 0 ∧
      st.2.scheduleSlot[st.2.requestorIndex]? = some 1 ∧
      (st.1.requestQueue 0).getSize true 1 = none ∧
      cycle (accepting fun g _ _ => g) st [] = none) ∧
    ∃ st, Lib.Machine.run (cycle (accepting fun g _ _ => g)) (start 64) (readsOf [1, 0] 0) =
      some (st, [some (0, sampleRequest .DATA_READ 1 0)]) := by
  constructor
  · obtain ⟨st, told, ran, order, counter, slot, size, stuck⟩ := Lib.Machine.run_exists
      (cycle (accepting fun g _ _ => g))
      (fun st => (st.1.requestQueue 0).requestorOrder = [0] ∧ st.2.slotCounter = 0 ∧
        st.2.scheduleSlot[st.2.requestorIndex]? = some 1 ∧
        (st.1.requestQueue 0).getSize true 1 = none ∧
        (cycle (accepting fun g _ _ => g) st []).isNone = true)
      (start 64) (readsOf [0] 46) (by decide +kernel)
    exact ⟨st, told, ran, order, counter, slot, size, Option.isNone_iff_eq_none.mp stuck⟩
  · obtain ⟨st, told, ran, same⟩ := Lib.Machine.run_exists_told (cycle (accepting fun g _ _ => g))
      (fun _ told => told = [some (0, sampleRequest .DATA_READ 1 0)]) (start 64) (readsOf [1, 0] 0)
      (by decide +kernel)
    subst same
    exact ⟨st, ran⟩

end Pmc
end MCsim
