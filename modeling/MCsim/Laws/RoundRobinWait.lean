import Mathlib.Data.Finset.Card
import Mathlib.Data.Finset.Range
import Mathlib.Tactic.Ring
import MCsim.Laws.RoundRobin

/-!
# How long round robin makes a request wait

`RoundRobin.lean` bounds what others get while a requestor waits: one grant each. The bound on the waiting
itself needs the other half, that a slot is not left unused while something waits (`handed_of_waiting`).
With both, a waiting requestor is granted within one slot for each requestor there is, and a request within
as many rounds as requests of its requestor are ahead of it, and one more (`roundRobin_wait`).
-/

namespace MCsim
namespace RoundRobin

open RequestScheduler Lib.Rotation Lib.Machine

variable {table : Nat → Bool} {gen : Generator} {s s' : RequestScheduler} {p p' : RoundRobinState} {r : Nat}

/-! ## A call always returns -/

theorem requestorTurns_defined (accepts : Accepts gen) {turns : Nat} (inv : Inv s p)
    (small : p.queueRequestorIndex 0 < (order s).length) :
    ∃ outcome, requestorTurns table gen 0 (order s).length turns s p = some outcome := by
  induction turns generalizing p with
  | zero => exact ⟨_, rfl⟩
  | succ turns ih =>
    obtain ⟨id, known⟩ : ∃ id, (order s)[p.queueRequestorIndex 0]? = some id :=
      ⟨_, List.getElem?_eq_getElem small⟩
    have size := RequestQueue.getSize_position known
    simp only [requestorTurns, inv.first, position_eq inv, size, Option.bind_some]
    cases front : (s.requestQueue 0).buffer id with
    | nil =>
      simp only [List.length_nil, gt_iff_lt, Nat.lt_irrefl, if_false]
      exact ih (inv.advance small) (by rw [advance_pointer inv]; exact next_lt small)
    | cons request rest =>
      obtain ⟨q, taken, removed⟩ := RequestQueue.getRequestOf_front known front
      obtain ⟨g', accepted⟩ := accepts s.commandGenerator request false
      have scheduled : (s.setQueue 0 q).isSchedulable gen request false =
          some ({ s.setQueue 0 q with commandGenerator := g' }, true) := by
        simp [isSchedulable, setQueue, accepted]
      have here : (s.setQueue 0 q).requestQueue 0 = q := rfl
      simp only [List.length_cons, gt_iff_lt, Nat.succ_pos, if_true, taken, Option.bind_some, inv.plain,
        Bool.false_and, Bool.false_eq_true, if_false, grant, scheduled, here, removed, Option.map_some]
      exact ⟨_, rfl⟩

/-- **Round robin never aborts.** -/
theorem requestSchedule_defined (accepts : Accepts gen) (inv : Inv s p) :
    ∃ s' p' handed, requestSchedule table gen () s p = some (s', p', handed) := by
  unfold requestSchedule
  split
  · obtain ⟨outcome, turned⟩ : ∃ outcome, queueTurn table gen 0 s p = some outcome := by
      have perRequestor : (s.requestQueue 0).isPerRequestor = true := inv.queue.enabled
      simp only [queueTurn, inv.first, perRequestor, if_true]
      split
      · next some' =>
        have small : p.queueRequestorIndex 0 < (order s).length := by
          rcases inv.pointer with zero | small
          · rw [zero]
            exact some'
          · exact small
        obtain ⟨⟨s₁, p₁, scheduled, handed⟩, turns⟩ : ∃ outcome,
            requestorTurns table gen 0 (order s).length (order s).length s p = some outcome :=
          requestorTurns_defined accepts inv small
        obtain ⟨_, _, _, _, plain, _⟩ := requestorTurns_scan accepts inv small turns
        have size : (s.requestQueue 0).getQueueSize = (order s).length := rfl
        rw [size, turns, Option.bind_some]
        cases scheduled with
        | some request => exact ⟨_, rfl⟩
        | none =>
          dsimp only at plain
          exact ⟨(s₁, p₁, none, handed), by simp [grantAside, plain]⟩
      · exact ⟨_, rfl⟩
    obtain ⟨s₁, p₁, scheduled, granted⟩ := outcome
    simp only [inv.one, List.range_succ, List.range_zero, List.nil_append, queueTurns, turned,
      Option.bind_some]
    split <;> exact ⟨_, _, _, rfl⟩
  · exact ⟨_, _, _, rfl⟩

/-! ## No slot is left unused -/

/-- A loop that found nothing passed only positions where nothing waits. -/
theorem requestorTurns_none {turns : Nat} {outcome : Outcome} (inv : Inv s p)
    (small : p.queueRequestorIndex 0 < (order s).length)
    (h : requestorTurns table gen 0 (order s).length turns s p = some outcome)
    (nothing : outcome.2.2.1 = none) :
    ∀ j < turns, ¬ WaitingAt s ((p.queueRequestorIndex 0 + j) % (order s).length) := by
  induction turns generalizing p with
  | zero => exact fun j hj => absurd hj (Nat.not_lt_zero j)
  | succ turns ih =>
    obtain ⟨id, known⟩ : ∃ id, (order s)[p.queueRequestorIndex 0]? = some id :=
      ⟨_, List.getElem?_eq_getElem small⟩
    have size := RequestQueue.getSize_position known
    simp only [requestorTurns, inv.first, position_eq inv, size, Option.bind_some] at h
    cases front : (s.requestQueue 0).buffer id with
    | nil =>
      simp only [front, List.length_nil, gt_iff_lt, Nat.lt_irrefl, if_false] at h
      have pointer : (advance (order s).length p).queueRequestorIndex 0 =
          (p.queueRequestorIndex 0 + 1) % (order s).length := by
        rw [advance_pointer inv]
        have moved := next_mod (Nat.zero_lt_of_lt small) (p.queueRequestorIndex 0) 0
        rwa [Nat.add_zero, Nat.mod_eq_of_lt small] at moved
      have later := ih (inv.advance small) (by rw [advance_pointer inv]; exact next_lt small) h
      intro j hj waiting
      cases j with
      | zero =>
        rw [Nat.add_zero, Nat.mod_eq_of_lt small] at waiting
        obtain ⟨id', known', waits⟩ := waiting
        obtain rfl : id = id' := by simpa [known] using known'
        exact waits front
      | succ j =>
        apply later j (by omega)
        rw [pointer, Nat.mod_add_mod, show p.queueRequestorIndex 0 + 1 + j =
          p.queueRequestorIndex 0 + (j + 1) by omega]
        exact waiting
    | cons request rest =>
      obtain ⟨q, taken, _⟩ := RequestQueue.getRequestOf_front known front
      simp only [front, List.length_cons, gt_iff_lt, Nat.succ_pos, if_true, taken, Option.bind_some,
        inv.plain, Bool.false_and, Bool.false_eq_true, if_false] at h
      obtain ⟨⟨s₁, accepted⟩, _, h⟩ := Option.bind_eq_some_iff.mp h
      dsimp only at h
      split at h
      · obtain ⟨q', _, rfl⟩ := Option.map_eq_some_iff.mp h
        cases nothing
      · cases h
        cases nothing

/-- **A free slot is granted while something waits.** -/
theorem handed_of_waiting (accepts : Accepts gen) {handed : List Request} (inv : Inv s p)
    (free : p.slotCounter = 0) (waiting : Waiting s r)
    (h : requestSchedule table gen () s p = some (s', p', handed)) : handed ≠ [] := by
  unfold requestSchedule at h
  rw [if_pos free] at h
  simp only [inv.one, List.range_succ, List.range_zero, List.nil_append, queueTurns] at h
  obtain ⟨⟨s₁, p₁, scheduled, granted⟩, turned, h⟩ := Option.bind_eq_some_iff.mp h
  obtain ⟨found, _, grants, _, _, _, _⟩ := queueTurn_scan accepts inv turned
  -- the position of the requestor is one of those that the loop visits
  obtain ⟨a, known⟩ := List.getElem?_of_mem (inv.queue.mem_order waiting)
  have inside : a < (order s).length := (List.getElem?_eq_some_iff.mp known).1
  have small : p.queueRequestorIndex 0 < (order s).length := by
    rcases inv.pointer with zero | small
    · omega
    · exact small
  have some_ : scheduled ≠ none := by
    rintro rfl
    have perRequestor : (s.requestQueue 0).isPerRequestor = true := inv.queue.enabled
    simp only [queueTurn, inv.first, perRequestor, if_true] at turned
    rw [if_pos (show (s.requestQueue 0).getQueueSize > 0 from Nat.zero_lt_of_lt inside)] at turned
    obtain ⟨between, turns, aside⟩ := Option.bind_eq_some_iff.mp turned
    have nothing : between.2.2.1 = none := by
      obtain ⟨s₂, p₂, scheduled₂, handed₂⟩ := between
      cases scheduled₂ with
      | none => rfl
      | some request => cases aside
    obtain ⟨steps, few, reached⟩ := exists_steps small inside
    exact requestorTurns_none inv small turns nothing steps few (reached.symm ▸ ⟨r, known, waiting⟩)
  cases grants with
  | nothing => exact absurd rfl some_
  | oldest =>
    dsimp only at h
    rw [Option.isSome_some, if_pos rfl] at h
    cases h
    exact List.cons_ne_nil _ _

/-! ## Waiting -/

/-- Requestors have numbers below a bound, and a slot is not longer than it is. -/
structure Bounded (N : Nat) (s : RequestScheduler) (p : RoundRobinState) : Prop where
  inv : Inv s p
  known : ∀ id ∈ order s, id < N
  slot : p.slotCounter < timeSlot

/-- A request that is inserted comes from one of them. -/
def FromBelow (N : Nat) (call : RequestCall Unit) : Prop := ∀ x ∈ call.inserted, x.requestorID < N

theorem bounded_create (N dataBusSize : Nat) :
    Bounded N (RequestScheduler.create true false dataBusSize) {} :=
  ⟨inv_create dataBusSize, fun _ h => absurd h List.not_mem_nil, by decide⟩

theorem Bounded.step {N : Nat} (accepts : Accepts gen) (bounded : Bounded N s p) {call : RequestCall Unit}
    (below : FromBelow N call) {st : RequestScheduler × RoundRobinState} {handed : List Request}
    (h : (requestSchedule table gen).step (s, p) call = some (st, handed)) : Bounded N st.1 st.2 := by
  obtain ⟨inv, known, slot⟩ := bounded
  refine ⟨step_inv accepts inv h, ?_, ?_⟩
  · rcases step_cases accepts inv h with ⟨x, rfl, rfl, rfl⟩ | ⟨rfl, called⟩
    · intro id hid
      have order' : id ∈ ((s.requestQueue 0).insertRequest x).requestorOrder := hid
      rw [RequestQueue.order_insertRequest inv.queue] at order'
      split at order'
      · exact known id order'
      · rcases List.mem_append.mp order' with old | new
        · exact known id old
        · rw [List.mem_singleton.mp new]
          exact below x List.mem_cons_self
    · rw [(called.inv inv).2]
      exact known
  · rcases step_cases accepts inv h with ⟨x, rfl, rfl, rfl⟩ | ⟨rfl, called⟩
    · exact slot
    · generalize st.1 = s', st.2 = p' at called
      cases called with
      | waits => exact Nat.lt_of_le_of_lt (Nat.sub_le _ _) slot
      | scans _ _ _ _ _ slot' _ =>
        rw [slot']
        split <;> decide

/-! ## The turns before a request -/

open scoped Classical in
/-- How many requestors are not known to come after `r`, from the pointer on. -/
noncomputable def before (N r : Nat) (st : RequestScheduler × RoundRobinState) : Nat :=
  ((Finset.range N).filter fun x => x ≠ r ∧ ¬ Before r x st).card

/-- The calls in which a request with a number of others of its requestor ahead of it may still wait. -/
noncomputable def rank (N r ahead : Nat) (st : RequestScheduler × RoundRobinState) : Nat :=
  st.2.slotCounter + timeSlot * (before N r st + N * ahead)

theorem before_lt {N : Nat} (known : r < N) (st : RequestScheduler × RoundRobinState) :
    before N r st < N := by
  classical
  have inside : ((Finset.range N).filter fun x => x ≠ r ∧ ¬ Before r x st) ⊆ (Finset.range N).erase r := by
    intro x hx
    obtain ⟨below, other, _⟩ := Finset.mem_filter.mp hx
    exact Finset.mem_erase.mpr ⟨other, below⟩
  have few := Finset.card_le_card inside
  rw [Finset.card_erase_of_mem (Finset.mem_range.mpr known), Finset.card_range] at few
  unfold before
  omega

/-- Who came after `r` still does, so the turns before it do not become more. -/
theorem before_le {N : Nat} {st st' : RequestScheduler × RoundRobinState}
    (kept : ∀ x, Before r x st → Before r x st') : before N r st' ≤ before N r st := by
  classical
  refine Finset.card_le_card fun x hx => ?_
  obtain ⟨below, other, not_yet⟩ := Finset.mem_filter.mp hx
  exact Finset.mem_filter.mpr ⟨below, other, fun already => not_yet (kept x already)⟩

/-- A requestor that had its turn comes after `r` from then on. -/
theorem before_drops {N x : Nat} {st st' : RequestScheduler × RoundRobinState}
    (kept : ∀ x, Before r x st → Before r x st') (known : x < N) (other : x ≠ r)
    (not_yet : ¬ Before r x st) (now : Before r x st') : before N r st' < before N r st := by
  classical
  refine Finset.card_lt_card ⟨fun y hy => ?_, fun all => ?_⟩
  · obtain ⟨below, differs, never⟩ := Finset.mem_filter.mp hy
    exact Finset.mem_filter.mpr ⟨below, differs, fun already => never (kept y already)⟩
  · have still := all (Finset.mem_filter.mpr ⟨Finset.mem_range.mpr known, other, not_yet⟩)
    exact (Finset.mem_filter.mp still).2.2 now

/-- **A call brings a request nearer**: it is granted, or the calls that it may still wait become fewer. -/
theorem rank_call {N : Nat} (accepts : Accepts gen) (bounded : Bounded N s p) {x : Request}
    {ahead later : List Request} (waits : (s.requestQueue 0).buffer r = ahead ++ x :: later)
    {st : RequestScheduler × RoundRobinState} {handed : List Request}
    (h : (requestSchedule table gen).step (s, p) (.requestSchedule ()) = some (st, handed)) :
    x ∈ handed ∨ ∃ ahead', (st.1.requestQueue 0).buffer r = ahead' ++ x :: later ∧
      rank N r ahead'.length st < rank N r ahead.length (s, p) := by
  obtain ⟨inv, known, slot⟩ := bounded
  have waiting : Waiting s r := by
    rw [Waiting, waits]
    simp
  have below : r < N := known r (inv.queue.mem_order waiting)
  have scheduled : requestSchedule table gen () s p = some (st.1, st.2, handed) := by
    obtain ⟨⟨s₁, p₁, handed₁⟩, called, out⟩ := Option.map_eq_some_iff.mp h
    obtain ⟨rfl, rfl⟩ := Prod.mk.inj out
    exact called
  have called := requestSchedule_called accepts inv scheduled
  rcases called.oldest inv with ⟨rfl, same⟩ | ⟨g, rfl, buffers⟩
  · -- nothing was granted, so a slot is under way
    have busy : p.slotCounter ≠ 0 := fun free => handed_of_waiting accepts inv free waiting scheduled rfl
    have kept : ∀ y, Before r y (s, p) → Before r y st := fun y already =>
      (step_passes accepts inv already h ⟨waiting, fun _ hg => absurd hg List.not_mem_nil⟩).2
    refine .inr ⟨ahead, (same r).trans waits, ?_⟩
    have fewer := before_le (N := N) kept
    have down : st.2.slotCounter = p.slotCounter - 1 := by
      generalize st.1 = s', st.2 = p' at called
      cases called with
      | waits => rfl
      | scans free => exact absurd free busy
    have scaled := Nat.mul_le_mul_left timeSlot fewer
    unfold rank
    rw [Nat.mul_add, Nat.mul_add, down]
    dsimp only
    omega
  · have started := step_starts accepts inv h (List.cons_ne_nil g [])
    have free : p.slotCounter = 0 := by
      by_contra busy
      generalize st.1 = s', st.2 = p' at called
      cases called with
      | scans free => exact busy free
    by_cases own : g.requestorID = r
    · have front := buffers r
      rw [if_pos own.symm, waits, List.singleton_append] at front
      cases ahead with
      | nil =>
        rw [List.nil_append] at front
        exact .inl (by rw [(List.cons.inj front).1]; exact List.mem_cons_self)
      | cons first ahead =>
        rw [List.cons_append] at front
        refine .inr ⟨ahead, (List.cons.inj front).2.symm, ?_⟩
        have small := before_lt below st
        have scaled := Nat.mul_le_mul_left timeSlot (Nat.le_sub_one_of_lt small)
        unfold rank
        simp only [started, free, List.length_cons, timeSlot] at scaled ⊢
        rw [Nat.mul_add, Nat.mul_add N]
        omega
    · -- another requestor had its turn
      have passed : Passed r (s, p) (.requestSchedule ()) st [g] :=
        ⟨waiting, fun _ hg => List.mem_singleton.mp hg ▸ own⟩
      have event : grants g.requestorID [g] = true := by simp [grants]
      have now := step_latches accepts own inv h passed event
      have not_yet : ¬ Before r g.requestorID (s, p) := fun already => by
        rw [(step_passes accepts inv already h passed).1] at event
        cases event
      have same := buffers r
      rw [if_neg (Ne.symm own), List.nil_append] at same
      refine .inr ⟨ahead, same.symm.trans waits, ?_⟩
      have owner : g.requestorID < N := by
        apply known
        apply inv.queue.mem_order
        rw [buffers, if_pos rfl]
        simp
      have fewer := before_drops (N := N)
        (fun y already => (step_passes accepts inv already h passed).2) owner own not_yet now
      unfold rank
      simp only [started, free, timeSlot]
      omega

/-- An arrival changes nothing for the requests before it. -/
theorem rank_arrive {N : Nat} (accepts : Accepts gen) (inv : Inv s p) {x y : Request}
    {ahead later : List Request} (waits : (s.requestQueue 0).buffer r = ahead ++ x :: later) {index : Nat}
    {st : RequestScheduler × RoundRobinState} {handed : List Request}
    (h : (requestSchedule table gen).step (s, p) (.insertRequest index y) = some (st, handed)) :
    ∃ later', (st.1.requestQueue 0).buffer r = ahead ++ x :: later' ∧
      rank N r ahead.length st ≤ rank N r ahead.length (s, p) := by
  have waiting : Waiting s r := by
    rw [Waiting, waits]
    simp
  have kept : ∀ z, Before r z (s, p) → Before r z st := fun z already => by
    refine (step_passes accepts inv already h ⟨waiting, ?_⟩).2
    rcases step_cases accepts inv h with ⟨_, _, rfl, _⟩ | ⟨impossible, _⟩
    · exact fun _ hg => absurd hg List.not_mem_nil
    · cases impossible
  rcases step_cases accepts inv h with ⟨y', same, rfl, rfl⟩ | ⟨impossible, _⟩
  · have longer := RequestQueue.buffer_insertRequest inv.queue y' r
    rw [waits] at longer
    have scaled := Nat.mul_le_mul_left timeSlot (before_le (N := N) kept)
    refine ⟨later ++ if r = y'.requestorID then [y'] else [], ?_, ?_⟩
    · show ((s.requestQueue 0).insertRequest y').buffer r = _
      rw [longer]
      split <;> simp
    · unfold rank
      rw [Nat.mul_add, Nat.mul_add]
      dsimp only at scaled ⊢
      omega
  · cases impossible

/-- **A run brings a request nearer** by each of its calls. -/
theorem rank_run {N : Nat} (accepts : Accepts gen) {st : RequestScheduler × RoundRobinState}
    (bounded : Bounded N st.1 st.2) {x : Request} {ahead later : List Request}
    (waits : (st.1.requestQueue 0).buffer r = ahead ++ x :: later) {calls : List (RequestCall Unit)}
    (below : ∀ call ∈ calls, FromBelow N call) {st' : RequestScheduler × RoundRobinState}
    {told : List (List Request)} (ran : run (requestSchedule table gen).step st calls = some (st', told)) :
    x ∈ told.flatten ∨ calls.countP isSchedule ≤ rank N r ahead.length st := by
  induction calls generalizing st ahead later told with
  | nil => exact .inr (Nat.zero_le _)
  | cons call calls ih =>
    obtain ⟨st₁, handed, told', stepped, rest, rfl⟩ := run_cons_eq_some.mp ran
    have next := bounded.step accepts (below call List.mem_cons_self) stepped
    have below' := fun c hc => below c (List.mem_cons_of_mem call hc)
    rw [List.flatten_cons, List.mem_append]
    cases call with
    | insertRequest index y =>
      obtain ⟨later', waits', fewer⟩ := rank_arrive (N := N) accepts bounded.inv waits stepped
      rcases ih next waits' below' rest with done | few
      · exact .inl (.inr done)
      · refine .inr ?_
        rw [List.countP_cons_of_neg (by simp [isSchedule])]
        exact few.trans fewer
    | requestSchedule seen =>
      rcases rank_call accepts bounded waits stepped with done | ⟨ahead', waits', fewer⟩
      · exact .inl (.inl done)
      · rcases ih next waits' below' rest with done | few
        · exact .inl (.inr done)
        · refine .inr ?_
          rw [List.countP_cons_of_pos (by simp [isSchedule])]
          exact Nat.lt_of_le_of_lt few fewer

/-- **Round robin makes no request wait longer than a round for each one ahead of it.** On one
per-requestor queue, with a generator that accepts everything and requestors with numbers below `N` that
appear at any time: from every state that a run reaches, a request that waits with others of its requestor
ahead of it is granted in any run that goes on for as many rounds of `N` slots as there are, and one more,
whatever arrives. -/
theorem roundRobin_wait (table : Nat → Bool) (gen : Generator) (accepts : Accepts gen)
    (dataBusSize N : Nat) {calls : List (RequestCall Unit)} (below : ∀ call ∈ calls, FromBelow N call)
    {st : RequestScheduler × RoundRobinState} {handed : List (List Request)}
    (ran : run (requestSchedule table gen).step (RequestScheduler.create true false dataBusSize, {}) calls =
      some (st, handed))
    {x : Request} {ahead later : List Request}
    (waits : (st.1.requestQueue 0).buffer r = ahead ++ x :: later) {more : List (RequestCall Unit)}
    (below' : ∀ call ∈ more, FromBelow N call) {st' : RequestScheduler × RoundRobinState}
    {told : List (List Request)} (ran' : run (requestSchedule table gen).step st more = some (st', told))
    (long : (ahead.length + 1) * (N * timeSlot) ≤ more.countP isSchedule) : x ∈ told.flatten := by
  have bounded : Bounded N st.1 st.2 := run_invariant_along (fun st => Bounded N st.1 st.2)
    (P := fun _ call _ _ => FromBelow N call)
    (fun bounded stepped below => bounded.step accepts below stepped) (bounded_create N dataBusSize)
    (along_of_forall _ _ below) ran
  rcases rank_run accepts bounded waits below' ran' with done | few
  · exact done
  · have waiting : Waiting st.1 r := by
      rw [Waiting, waits]
      simp
    have inside := before_lt (bounded.known r (bounded.inv.queue.mem_order waiting)) st
    have slot := bounded.slot
    have scaled := Nat.mul_le_mul_left timeSlot (Nat.le_sub_one_of_lt inside)
    unfold rank at few
    simp only [timeSlot] at *
    rw [Nat.mul_add] at few
    have product : (ahead.length + 1) * (N * 42) = 42 * (N * ahead.length) + 42 * N := by ring
    omega

/-- The law at three reads: the second of requestor 0 is granted within two rounds of two slots, though
requestor 1 sends another read in between. -/
theorem roundRobin_wait_threeReads :
    ∃ st handed st' told,
      run (requestSchedule (fun _ => true) acceptingGenerator).step
        (RequestScheduler.create true false 64, {}) threeReads = some (st, handed) ∧
      run (requestSchedule (fun _ => true) acceptingGenerator).step st
        (.insertRequest 0 (sampleRequest .DATA_READ 1 64) :: List.replicate 168 (.requestSchedule ())) =
          some (st', told) ∧
      sampleRequest .DATA_READ 0 64 ∈ told.flatten := by
  obtain ⟨st, handed, ran, waits, goes⟩ := run_exists
    (requestSchedule (fun _ => true) acceptingGenerator).step
    (fun st => (st.1.requestQueue 0).buffer 0 =
        [sampleRequest .DATA_READ 0 0, sampleRequest .DATA_READ 0 64] ∧
      (run (requestSchedule (fun _ => true) acceptingGenerator).step st
        (.insertRequest 0 (sampleRequest .DATA_READ 1 64) ::
          List.replicate 168 (.requestSchedule ()))).isSome = true)
    (RequestScheduler.create true false 64, {}) threeReads (by decide +kernel)
  obtain ⟨⟨st', told⟩, ran'⟩ := Option.isSome_iff_exists.mp goes
  refine ⟨st, handed, st', told, ran, ran', ?_⟩
  have behind : (st.1.requestQueue 0).buffer 0 =
      [sampleRequest .DATA_READ 0 0] ++ sampleRequest .DATA_READ 0 64 :: [] := waits
  apply roundRobin_wait (fun _ => true) acceptingGenerator (fun g _ _ => ⟨g, rfl⟩) 64 2 _ ran behind _ ran'
  · decide +kernel
  · unfold FromBelow
    decide
  · unfold FromBelow
    decide +kernel

end RoundRobin
end MCsim
