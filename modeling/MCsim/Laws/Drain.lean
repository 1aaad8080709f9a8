import MCsim.Laws.Medusa
import MCsim.Requests.Calls

/-!
# The MEDUSA write drain

Both write loops raise their index at every turn, and a removed write makes the next one move up into
its place: it is stepped over. The first loop tests its index, so it stays within the queue. The second
one tests the length only. With a generator that always accepts, it removes the writes at positions 0,
2, 4 and so on, until fewer than the low watermark are left; its index meets the shrinking length where
it starts with twice the low watermark or more, and then it indexes past the end.

Where it stays within, every write that leaves is handed over once. But a write that is stepped over is
overtaken by those behind it, of its own bank and row as well. `Orderly` says what a drain should do,
`DrainsInOrder` is the condition on the queue under which this one does.
-/

namespace MCsim
namespace Medusa

open RequestScheduler Lib.Stepping

variable {hit : Request → Bool}

/-- The generator after writes were handed to it one after another, each as the row table calls it. -/
def handedAll (next : CommandGenerator → Request → Bool → CommandGenerator) (hit : Request → Bool)
    (g : CommandGenerator) (rs : List Request) : CommandGenerator :=
  rs.foldl (fun g r => next g r (hit r)) g

/-! ## What the loops do -/

/-- What the first loop takes: it runs above the high watermark only. -/
def firstTaken (hit : Request → Bool) (w : WriteQueue) : List Request :=
  if w.highWatermark then taken hit w.writeQueue else []

/-- What the second loop finds. -/
def firstLeft (hit : Request → Bool) (w : WriteQueue) : List Request :=
  if w.highWatermark then left hit w.writeQueue else w.writeQueue

/-- How many writes the second loop has to take. -/
def excess (hit : Request → Bool) (w : WriteQueue) : Nat :=
  (firstLeft hit w).length + 1 - w.lowwatermark

/-- The writes in the order in which they are handed over. -/
def takenWrites (hit : Request → Bool) (w : WriteQueue) : List Request :=
  firstTaken hit w ++ alternate (excess hit w) (firstLeft hit w)

/-- What the drain leaves. -/
def leftWrites (hit : Request → Bool) (w : WriteQueue) : WriteQueue :=
  { w with writeQueue := alternateLeft (excess hit w) (firstLeft hit w) }

variable {next : CommandGenerator → Request → Bool → CommandGenerator} {s s' : RequestScheduler}

theorem isSchedulable_accepting (s : RequestScheduler) (r : Request) (isOpen : Bool) :
    s.isSchedulable (accepting next) r isOpen =
      some ({ s with commandGenerator := next s.commandGenerator r isOpen }, true) := rfl

/-- **The second write loop.** It stands before `t`, with `a` behind it, and has `n` writes to take. It
gets through where `t` has a write for each of its turns. -/
theorem drainWrites_takes (s : RequestScheduler) (w : WriteQueue) (fuel : Nat) (a t : List Request)
    (enough : t.length < fuel) {n : Nat} (more : (a ++ t).length + 1 - w.lowwatermark = n) :
    drainWrites (accepting next) fuel a.length (s, { w with writeQueue := a ++ t }) =
      if 2 * n ≤ t.length + 1 then
        some ({ s with
            commandGenerator := handedAll next s.isRowHit s.commandGenerator (alternate n t) },
          { w with writeQueue := a ++ alternateLeft n t })
      else none := by
  induction fuel generalizing s a t n with
  | zero => omega
  | succ fuel ih =>
    rw [drainWrites]
    cases n with
    | zero =>
      have low : WriteQueue.lowWatermark { w with writeQueue := a ++ t } = true := by
        simp only [WriteQueue.lowWatermark, decide_eq_true_eq]
        omega
      rw [if_pos low, if_pos (Nat.zero_le _)]
      rfl
    | succ n =>
      have high : WriteQueue.lowWatermark { w with writeQueue := a ++ t } = false := by
        simp only [WriteQueue.lowWatermark, decide_eq_false_iff_not]
        omega
      rw [if_neg (by rw [high]; exact Bool.false_ne_true), getWrite_split]
      cases t with
      | nil =>
        rw [if_neg (by simp; omega)]
        rfl
      | cons r t =>
        cases t with
        | nil =>
          rw [List.head?_cons, Option.bind_some, isSchedulable_accepting, Option.bind_some]
          dsimp only
          rw [if_pos rfl, popWrite_split, Option.bind_some, List.append_nil]
          -- the index stands past the end: only the watermark can end the loop
          obtain ⟨fuel, rfl⟩ : ∃ m, fuel = m + 1 := ⟨fuel - 1, by simp at enough; omega⟩
          rw [drainWrites]
          cases n with
          | zero =>
            have low : WriteQueue.lowWatermark { w with writeQueue := a } = true := by
              simp only [WriteQueue.lowWatermark, decide_eq_true_eq]
              simp at more
              omega
            rw [if_pos low, if_pos (by simp)]
            simp [alternate, alternateLeft, handedAll]
          | succ n =>
            have high : WriteQueue.lowWatermark { w with writeQueue := a } = false := by
              simp only [WriteQueue.lowWatermark, decide_eq_false_iff_not]
              simp at more
              omega
            have past : WriteQueue.getWrite { w with writeQueue := a } (a.length + 1) = none := by
              simp [WriteQueue.getWrite]
            rw [if_neg (by rw [high]; exact Bool.false_ne_true), past, if_neg (by simp)]
            rfl
        | cons r' t =>
          rw [List.head?_cons, Option.bind_some, isSchedulable_accepting, Option.bind_some]
          dsimp only
          rw [if_pos rfl, popWrite_split, Option.bind_some]
          -- the write that moved up is stepped over
          have rest := ih { s with commandGenerator := next s.commandGenerator r (s.isRowHit r) }
            (a ++ [r']) t (by simp at enough; omega) (n := n) (by simp at more ⊢; omega)
          simp only [List.length_append, List.length_singleton, List.append_assoc,
            List.singleton_append] at rest
          rw [rest]
          simp only [List.length_cons, alternate, alternateLeft]
          by_cases bound : 2 * n ≤ t.length + 1
          · rw [if_pos bound, if_pos (by omega)]
            rfl
          · rw [if_neg bound, if_neg (by omega)]

/-- **The write loops over one queue.** -/
theorem writeLoops_takes (s : RequestScheduler) (w : WriteQueue) :
    writeLoops (accepting next) s w =
      if (firstLeft s.isRowHit w).length < 2 * w.lowwatermark then
        some ({ s with
            commandGenerator :=
              handedAll next s.isRowHit s.commandGenerator (takenWrites s.isRowHit w) },
          leftWrites s.isRowHit w)
      else none := by
  have first : (if w.highWatermark then hitWrites (accepting next) w.bufferSize 0 (s, w)
      else some (s, w)) = some ({ s with
        commandGenerator :=
          handedAll next s.isRowHit s.commandGenerator (firstTaken s.isRowHit w) },
      { w with writeQueue := firstLeft s.isRowHit w }) := by
    unfold firstTaken firstLeft
    split
    · have loop := hitWrites_takes (fun g r => (rfl : accepting next g r true = _)) s w w.bufferSize []
        w.writeQueue (Nat.le_refl _)
      rw [List.nil_append, List.length_nil, List.nil_append] at loop
      have same : (taken s.isRowHit w.writeQueue).foldl (fun g r => next g r true)
            s.commandGenerator =
          handedAll next s.isRowHit s.commandGenerator (taken s.isRowHit w.writeQueue) := by
        apply List.foldl_ext _ _ _
        intro g r hr
        rw [mem_taken hr]
      rw [← same]
      exact loop
    · rfl
  unfold writeLoops
  rw [first, Option.bind_some]
  have second := @drainWrites_takes next
    { s with
      commandGenerator :=
        handedAll next s.isRowHit s.commandGenerator (firstTaken s.isRowHit w) }
    w ((firstLeft s.isRowHit w).length + 1) [] (firstLeft s.isRowHit w) (Nat.lt_succ_self _)
    (excess s.isRowHit w) rfl
  rw [List.length_nil, List.nil_append] at second
  apply second.trans
  have turns : 2 * excess s.isRowHit w ≤ (firstLeft s.isRowHit w).length + 1 ↔
      (firstLeft s.isRowHit w).length < 2 * w.lowwatermark := by
    unfold excess
    omega
  have both : handedAll next s.isRowHit s.commandGenerator (takenWrites s.isRowHit w) =
      handedAll next s.isRowHit
        (handedAll next s.isRowHit s.commandGenerator (firstTaken s.isRowHit w))
        (alternate (excess s.isRowHit w) (firstLeft s.isRowHit w)) := by
    simp [handedAll, takenWrites, List.foldl_append]
  simp only [turns, both]
  rfl

/-! ## What a drain should do -/

/-- The two writes go to the same row of the same bank. -/
def sameRow (r r' : Request) : Bool :=
  r.addressMap.rank == r'.addressMap.rank && r.addressMap.bank == r'.addressMap.bank &&
    r.row == r'.row

/-- Fewer writes than the low watermark are left, every write that is gone was taken once, and the
writes of a row left in the order of their arrival: those taken came before those left. -/
structure Orderly (w : WriteQueue) (taken : List Request) (w' : WriteQueue) : Prop where
  few : w'.writeQueue.length < w.lowwatermark
  once : w.writeQueue.Perm (taken ++ w'.writeQueue)
  order : ∀ r, w.writeQueue.filter (sameRow r) =
    taken.filter (sameRow r) ++ w'.writeQueue.filter (sameRow r)

/-- What is waiting when the second loop starts: all of it up to the high watermark, and above it all
but the row hits at even places of their runs of row hits. -/
def remaining (hit : Request → Bool) (w : WriteQueue) : List Request :=
  if w.highWatermark then picked (fun i => !turns hit w.writeQueue i) w.writeQueue else w.writeQueue

/-- The queue drains in order. The second loop finds fewer than twice the low watermark. Above the high
watermark, no row hit at an odd place of its run comes before one of its row at an even place. And among
the writes the second loop passes, none at an odd position comes before one of its row at an even
position. -/
structure DrainsInOrder (hit : Request → Bool) (w : WriteQueue) : Prop where
  bound : (remaining hit w).length < 2 * w.lowwatermark
  hits : w.highWatermark = true → ∀ i j r r', i < j → w.writeQueue[i]? = some r →
    w.writeQueue[j]? = some r' → sameRow r r' = true → turns hit w.writeQueue j = true →
    turns hit w.writeQueue i = true
  rest : ∀ i j r r', i < j → i % 2 = 1 → j % 2 = 0 →
    j + 2 * w.lowwatermark ≤ 2 * (remaining hit w).length → (remaining hit w)[i]? = some r →
    (remaining hit w)[j]? = some r' → sameRow r r' = false

theorem firstLeft_eq (hit : Request → Bool) (w : WriteQueue) : firstLeft hit w = remaining hit w := by
  unfold firstLeft remaining
  rw [(taken_eq_picked hit w.writeQueue).2]

theorem sameRow_iff {r r' : Request} : sameRow r r' = true ↔
    r.addressMap.rank = r'.addressMap.rank ∧ r.addressMap.bank = r'.addressMap.bank ∧
      r.row = r'.row := by
  simp [sameRow, and_assoc]

/-- Two writes of a row are writes of one another's row. -/
theorem sameRow_of_both {r a b : Request} (ha : sameRow r a = true) (hb : sameRow r b = true) :
    sameRow a b = true := by
  rw [sameRow_iff] at *
  exact ⟨ha.1.symm.trans hb.1, ha.2.1.symm.trans hb.2.1, ha.2.2.symm.trans hb.2.2⟩

theorem sameRow_refl (r : Request) : sameRow r r = true := sameRow_iff.mpr ⟨rfl, rfl, rfl⟩

/-- Every write is taken or left. -/
theorem takenWrites_perm (hit : Request → Bool) (w : WriteQueue) :
    w.writeQueue.Perm (takenWrites hit w ++ (leftWrites hit w).writeQueue) := by
  have first : (firstTaken hit w ++ firstLeft hit w).Perm w.writeQueue := by
    unfold firstTaken firstLeft
    split
    · exact taken_perm hit w.writeQueue
    · exact List.Perm.refl _
  have second := alternate_perm (excess hit w) (firstLeft hit w)
  have both := (second.append_left (firstTaken hit w)).trans first
  rw [← List.append_assoc] at both
  exact both.symm

theorem leftWrites_few {w : WriteQueue} (bound : (firstLeft hit w).length < 2 * w.lowwatermark) :
    (leftWrites hit w).writeQueue.length < w.lowwatermark := by
  have counts := (alternate_perm (excess hit w) (firstLeft hit w)).length_eq
  have enough : (alternate (excess hit w) (firstLeft hit w)).length = excess hit w :=
    alternate_length (by unfold excess; omega)
  rw [List.length_append, enough] at counts
  unfold leftWrites
  unfold excess at counts ⊢
  dsimp only
  omega

/-- The first loop keeps the order of a row where no row hit is overtaken. -/
theorem firstTaken_order {w : WriteQueue} (r : Request)
    (hits : w.highWatermark = true → ∀ i j r r', i < j → w.writeQueue[i]? = some r →
      w.writeQueue[j]? = some r' → sameRow r r' = true → turns hit w.writeQueue j = true →
      turns hit w.writeQueue i = true) :
    w.writeQueue.filter (sameRow r) =
      (firstTaken hit w).filter (sameRow r) ++ (firstLeft hit w).filter (sameRow r) := by
  unfold firstTaken firstLeft
  split
  · next high =>
    obtain ⟨ht, hl⟩ := taken_eq_picked hit w.writeQueue
    rw [ht, hl]
    exact picked_order fun i j a b less ha hb ka kb =>
      hits high i j a b less ha hb (sameRow_of_both ka kb)
  · rfl

/-- The even positions that the second loop takes. -/
theorem even_lt_iff {j low len : Nat} : (j % 2 == 0 && decide (j / 2 < len + 1 - low)) = true ↔
    j % 2 = 0 ∧ j + 2 * low ≤ 2 * len := by
  simp only [Bool.and_eq_true, beq_iff_eq, decide_eq_true_eq]
  constructor <;> rintro ⟨even, less⟩ <;> exact ⟨even, by omega⟩

/-- The second loop keeps the order of a row where no write is stepped over before one of its row. -/
theorem rest_order {w : WriteQueue} (r : Request)
    (rest : ∀ i j r r', i < j → i % 2 = 1 → j % 2 = 0 →
      j + 2 * w.lowwatermark ≤ 2 * (firstLeft hit w).length → (firstLeft hit w)[i]? = some r →
      (firstLeft hit w)[j]? = some r' → sameRow r r' = false) :
    (firstLeft hit w).filter (sameRow r) =
      (alternate (excess hit w) (firstLeft hit w)).filter (sameRow r) ++
        (alternateLeft (excess hit w) (firstLeft hit w)).filter (sameRow r) := by
  obtain ⟨ht, hl⟩ := alternate_eq_picked (excess hit w) (firstLeft hit w)
  rw [ht, hl]
  apply picked_order
  intro i j a b less ha hb ka kb late
  obtain ⟨even, bound⟩ := even_lt_iff.mp late
  refine even_lt_iff.mpr ⟨?_, by omega⟩
  by_contra odd
  have apart := rest i j a b less (by omega) even bound ha hb
  rw [sameRow_of_both ka kb] at apart
  cases apart

/-- **A queue that drains in order is drained as it should be.** -/
theorem DrainsInOrder.orderly {w : WriteQueue} (drains : DrainsInOrder hit w) :
    Orderly w (takenWrites hit w) (leftWrites hit w) where
  few := leftWrites_few (firstLeft_eq hit w ▸ drains.bound)
  once := takenWrites_perm hit w
  order r := by
    have rest := drains.rest
    rw [← firstLeft_eq] at rest
    rw [firstTaken_order r drains.hits, rest_order r rest, takenWrites, leftWrites, List.filter_append,
      List.append_assoc]

/-- **And only such a queue is**, if no write is in it twice. -/
theorem Orderly.drainsInOrder {w : WriteQueue} (distinct : w.writeQueue.Nodup)
    (bound : (firstLeft hit w).length < 2 * w.lowwatermark)
    (orderly : Orderly w (takenWrites hit w) (leftWrites hit w)) : DrainsInOrder hit w := by
  have split : ∀ r, w.writeQueue.filter (sameRow r) = (firstTaken hit w).filter (sameRow r) ++
      ((alternate (excess hit w) (firstLeft hit w)).filter (sameRow r) ++
        (alternateLeft (excess hit w) (firstLeft hit w)).filter (sameRow r)) := by
    intro r
    rw [orderly.order r, takenWrites, leftWrites, List.filter_append, List.append_assoc]
  have rows : ∀ {l : List Request} {a b : Request}, [a, b].Sublist l → sameRow a b = true →
      [a, b].Sublist (l.filter (sameRow a)) := by
    intro l a b pair same
    have both : [a, b].filter (sameRow a) = [a, b] := by simp [sameRow_refl, same]
    exact both ▸ pair.filter _
  have hits : w.highWatermark = true → ∀ i j r r', i < j → w.writeQueue[i]? = some r →
      w.writeQueue[j]? = some r' → sameRow r r' = true → turns hit w.writeQueue j = true →
      turns hit w.writeQueue i = true := by
    intro high i j a b less ha hb same late
    by_contra early
    obtain ⟨ht, hl⟩ := taken_eq_picked hit w.writeQueue
    have gone : b ∈ firstTaken hit w := by
      rw [firstTaken, if_pos high, ht]
      exact mem_picked hb late
    have stays : a ∈ firstLeft hit w := by
      rw [firstLeft, if_pos high, hl]
      exact mem_picked ha (by simpa using early)
    refine not_overtaken (distinct.filter _) (split a) (rows (pair_sublist less ha hb) same)
      (List.mem_filter.mpr ⟨gone, same⟩) ?_
    rw [← List.filter_append]
    refine List.mem_filter.mpr ⟨?_, sameRow_refl a⟩
    exact (alternate_perm (excess hit w) (firstLeft hit w)).mem_iff.mpr stays
  refine ⟨firstLeft_eq hit w ▸ bound, hits, ?_⟩
  rw [← firstLeft_eq]
  intro i j a b less odd even late ha hb
  by_contra same
  have same : sameRow a b = true := by simpa using same
  obtain ⟨ht, hl⟩ := alternate_eq_picked (excess hit w) (firstLeft hit w)
  have gone : b ∈ alternate (excess hit w) (firstLeft hit w) := by
    rw [ht]
    exact mem_picked hb (even_lt_iff.mpr ⟨even, late⟩)
  have stays : a ∈ alternateLeft (excess hit w) (firstLeft hit w) := by
    rw [hl]
    exact mem_picked ha (by simp [odd])
  have second : (firstLeft hit w).filter (sameRow a) =
      (alternate (excess hit w) (firstLeft hit w)).filter (sameRow a) ++
        (alternateLeft (excess hit w) (firstLeft hit w)).filter (sameRow a) :=
    List.append_cancel_left ((firstTaken_order a hits).symm.trans (split a))
  have once : ((firstLeft hit w).filter (sameRow a)).Nodup := by
    have whole := distinct.filter (sameRow a)
    rw [firstTaken_order a hits] at whole
    exact (List.nodup_append.mp whole).2.1
  exact not_overtaken once second (rows (pair_sublist less ha hb) same)
    (List.mem_filter.mpr ⟨gone, same⟩) (List.mem_filter.mpr ⟨stays, sameRow_refl a⟩)

/-! ## A whole call -/

/-- A request queue after its writes were drained. -/
def drainQueue (hit : Request → Bool) (q : RequestQueue) : RequestQueue :=
  { q with writeQueue := q.writeQueue.map (leftWrites hit) }

/-- The writes taken from a request queue. -/
def takenOf (hit : Request → Bool) (q : RequestQueue) : List Request :=
  (q.writeQueue.map (takenWrites hit)).getD []

/-- The second loop stays within the queue. -/
def Bounded (hit : Request → Bool) (q : RequestQueue) : Prop :=
  ∀ w, q.writeQueue = some w → (firstLeft hit w).length < 2 * w.lowwatermark

/-- The scheduler after the queues of some indices were drained one after another. -/
def drainedAll (next : CommandGenerator → Request → Bool → CommandGenerator) (s : RequestScheduler)
    (indices : List Nat) : RequestScheduler :=
  { s with
    commandGenerator := handedAll next s.isRowHit s.commandGenerator
      (indices.flatMap fun i => takenOf s.isRowHit (s.requestQueue i))
    requestQueue := fun i =>
      if i ∈ indices then drainQueue s.isRowHit (s.requestQueue i) else s.requestQueue i }

theorem writeQueueTurn_eq_some {index : Nat} : writeQueueTurn (accepting next) s index = some s' ↔
    Bounded s.isRowHit (s.requestQueue index) ∧ drainedAll next s [index] = s' := by
  have same : drainedAll next s [index] =
      { s with
        commandGenerator := handedAll next s.isRowHit s.commandGenerator
          (takenOf s.isRowHit (s.requestQueue index))
        requestQueue := fun i => if i = index then drainQueue s.isRowHit (s.requestQueue index)
          else s.requestQueue i } := by
    unfold drainedAll
    simp only [List.flatMap_cons, List.flatMap_nil, List.append_nil, List.mem_singleton]
    congr 1
    funext i
    split
    · next h => rw [h]
    · rfl
  rw [same]
  unfold writeQueueTurn Bounded takenOf drainQueue
  cases queue : (s.requestQueue index).writeQueue with
  | none =>
    have unchanged : (fun i => if i = index then { s.requestQueue index with
        writeQueue := Option.map (leftWrites s.isRowHit) none } else s.requestQueue i) =
        s.requestQueue := by
      funext i
      split
      · next h => rw [h, Option.map_none, ← queue]
      · rfl
    rw [unchanged]
    exact ⟨fun h => ⟨nofun, Option.some.inj h⟩, fun h => congrArg some h.2⟩
  | some w =>
    simp only [writeLoops_takes, Option.some.injEq, forall_eq', Option.map_some, Option.getD_some]
    split
    · next bound =>
      simp only [Option.map_some, Option.some.injEq, bound, true_and]
      rfl
    · next past => simp [past]

/-- **The drain of several queues** gets through if it does in each, and then takes from each what it
takes from it alone. -/
theorem foldlM_drains {indices : List Nat} (once : indices.Nodup) :
    indices.foldlM (writeQueueTurn (accepting next)) s = some s' ↔
      (∀ i ∈ indices, Bounded s.isRowHit (s.requestQueue i)) ∧ drainedAll next s indices = s' := by
  induction indices generalizing s with
  | nil =>
    rw [List.foldlM_nil]
    refine ⟨fun h => ⟨fun i hi => absurd hi List.not_mem_nil, ?_⟩, fun h => congrArg some ?_⟩
    · exact Option.some.inj h
    · exact h.2
  | cons index indices ih =>
    obtain ⟨apart, once⟩ := List.nodup_cons.mp once
    have later : ∀ i ∈ indices, (drainedAll next s [index]).requestQueue i = s.requestQueue i := by
      intro i hi
      have other : i ≠ index := fun same => apart (same ▸ hi)
      simp [drainedAll, other]
    have queues : (∀ i ∈ indices, Bounded (drainedAll next s [index]).isRowHit
        ((drainedAll next s [index]).requestQueue i)) ↔
        ∀ i ∈ indices, Bounded s.isRowHit (s.requestQueue i) :=
      forall₂_congr fun i hi => by rw [later i hi]; rfl
    have both : drainedAll next (drainedAll next s [index]) indices =
        drainedAll next s (index :: indices) := by
      have takes : (indices.flatMap fun i => takenOf s.isRowHit
          ((drainedAll next s [index]).requestQueue i)) =
          indices.flatMap fun i => takenOf s.isRowHit (s.requestQueue i) :=
        List.flatMap_congr fun i hi => by rw [later i hi]
      have generator : (drainedAll next (drainedAll next s [index]) indices).commandGenerator =
          (drainedAll next s (index :: indices)).commandGenerator := by
        show handedAll next s.isRowHit (drainedAll next s [index]).commandGenerator
          (indices.flatMap fun i => takenOf s.isRowHit
            ((drainedAll next s [index]).requestQueue i)) = _
        rw [takes]
        simp [drainedAll, handedAll, List.foldl_append]
      have requests : (drainedAll next (drainedAll next s [index]) indices).requestQueue =
          (drainedAll next s (index :: indices)).requestQueue := by
        funext i
        by_cases member : i ∈ indices
        · have here : (drainedAll next (drainedAll next s [index]) indices).requestQueue i =
              drainQueue s.isRowHit ((drainedAll next s [index]).requestQueue i) := if_pos member
          rw [here, later i member]
          exact (if_pos (List.mem_cons_of_mem index member)).symm
        · have here : (drainedAll next (drainedAll next s [index]) indices).requestQueue i =
              (drainedAll next s [index]).requestQueue i := if_neg member
          rw [here]
          simp [drainedAll, member]
      calc drainedAll next (drainedAll next s [index]) indices
        _ = { s with
              commandGenerator := (drainedAll next (drainedAll next s [index]) indices).commandGenerator
              requestQueue := (drainedAll next (drainedAll next s [index]) indices).requestQueue } := rfl
        _ = drainedAll next s (index :: indices) := by rw [generator, requests]; rfl
    rw [List.foldlM_cons]
    constructor
    · intro h
      obtain ⟨middle, turn, rest⟩ := Option.bind_eq_some_iff.mp h
      obtain ⟨bound, rfl⟩ := writeQueueTurn_eq_some.mp turn
      obtain ⟨bounds, rfl⟩ := (ih once).mp rest
      exact ⟨List.forall_mem_cons.mpr ⟨bound, queues.mp bounds⟩, both.symm⟩
    · rintro ⟨bounds, rfl⟩
      obtain ⟨bound, bounds⟩ := List.forall_mem_cons.mp bounds
      exact Option.bind_eq_some_iff.mpr ⟨_, writeQueueTurn_eq_some.mpr ⟨bound, rfl⟩,
        (ih once).mpr ⟨queues.mpr bounds, both⟩⟩

/-- The writes taken from the queues below a count were handed to the generator one after another, and
each queue was drained as it should be. -/
def OrderlyCall (next : CommandGenerator → Request → Bool → CommandGenerator) (count : Nat)
    (s s' : RequestScheduler) : Prop :=
  s'.commandGenerator = handedAll next s.isRowHit s.commandGenerator
      ((List.range count).flatMap fun i => takenOf s.isRowHit (s.requestQueue i)) ∧
    ∀ index < count, ∀ w, (s.requestQueue index).writeQueue = some w →
      ∃ w', (s'.requestQueue index).writeQueue = some w' ∧
        Orderly w (takenWrites s.isRowHit w) w'

/-- **The write drain of a call that sees no read.** With a generator that always accepts, whatever the
queues and the row table: where every write queue drains in order the call gets through, and every queue
is left with fewer writes than its low watermark, each write that is gone handed over once, the writes of
a row in the order of their arrival. If no queue holds a write twice, the call does all this only
there. -/
theorem writeDrain_inOrder (critical : Nat → Bool)
    (next : CommandGenerator → Request → Bool → CommandGenerator) {s : RequestScheduler} {p : Pass}
    {requestorIndex : Nat → Nat}
    (reads : loop (readQueue critical (accepting next)) (List.range s.queueCount)
      ⟨s, requestorIndex, true⟩ = some (p, false))
    (noRead : p.writeEnable = true) :
    ((∀ index < s.queueCount, ∀ w, (p.scheduler.requestQueue index).writeQueue = some w →
        DrainsInOrder p.scheduler.isRowHit w) →
      ∃ s', requestSchedule critical (accepting next) s requestorIndex = some (s', p.requestorIndex) ∧
        OrderlyCall next s.queueCount p.scheduler s') ∧
    ((∀ index < s.queueCount, ∀ w, (p.scheduler.requestQueue index).writeQueue = some w →
        w.writeQueue.Nodup) →
      (∃ s', requestSchedule critical (accepting next) s requestorIndex =
          some (s', p.requestorIndex) ∧ OrderlyCall next s.queueCount p.scheduler s') →
      ∀ index < s.queueCount, ∀ w, (p.scheduler.requestQueue index).writeQueue = some w →
        DrainsInOrder p.scheduler.isRowHit w) := by
  have call : requestSchedule critical (accepting next) s requestorIndex =
      ((List.range s.queueCount).foldlM (writeQueueTurn (accepting next)) p.scheduler).map fun s =>
        (s, p.requestorIndex) := by
    unfold requestSchedule
    dsimp only
    rw [reads, Option.bind_some, noRead]
    rfl
  have drained : ∀ index < s.queueCount, ∀ w,
      (p.scheduler.requestQueue index).writeQueue = some w →
      ((drainedAll next p.scheduler (List.range s.queueCount)).requestQueue index).writeQueue =
        some (leftWrites p.scheduler.isRowHit w) := by
    intro index small w queue
    have member : index ∈ List.range s.queueCount := List.mem_range.mpr small
    simp only [drainedAll, if_pos member, drainQueue, queue, Option.map_some]
  constructor
  · intro inOrder
    have bounds : ∀ i ∈ List.range s.queueCount,
        Bounded p.scheduler.isRowHit (p.scheduler.requestQueue i) := by
      intro i hi w queue
      rw [firstLeft_eq]
      exact (inOrder i (List.mem_range.mp hi) w queue).bound
    refine ⟨drainedAll next p.scheduler (List.range s.queueCount), ?_, rfl, fun index small w queue =>
      ⟨_, drained index small w queue, (inOrder index small w queue).orderly⟩⟩
    rw [call, (foldlM_drains List.nodup_range).mpr ⟨bounds, rfl⟩]
    rfl
  · rintro distinct ⟨s', ran, _, orderly⟩ index small w queue
    rw [call] at ran
    obtain ⟨s'', fold, same⟩ := Option.map_eq_some_iff.mp ran
    obtain ⟨bounds, rfl⟩ := (foldlM_drains List.nodup_range).mp fold
    obtain ⟨rfl, _⟩ := Prod.mk.inj same
    obtain ⟨w', left, law⟩ := orderly index small w queue
    rw [drained index small w queue] at left
    cases left
    exact law.drainsInOrder (distinct index small w queue)
      (bounds index (List.mem_range.mpr small) w queue)

/-- A write to a row of bank 0. -/
def rowWrite (handle row : Nat) : Request :=
  { sampleRequest .DATA_WRITE 0 0 with handle := handle, row := row }

/-- A scheduler of `MEDUSA.ini` with writes to these rows waiting, numbered as they came. -/
def withWrites (rows : List Nat) : RequestScheduler :=
  let writes := rows.zipIdx.map fun e => rowWrite e.2 e.1
  { RequestScheduler.create true true 64 with
    requestQueue := fun _ => writes.foldl RequestQueue.insertRequest (RequestQueue.create true true) }

/-- Six writes, every other one to row 7: these three leave, in their order, and the others are left. -/
theorem writeDrain_inOrder_rowSeven :
    ∃ s', requestSchedule (fun _ => true) (accepting openNext) (withWrites [7, 1, 7, 3, 7, 5])
        (fun _ => 0) = some (s', fun _ => 0) ∧
      OrderlyCall openNext 1 (withWrites [7, 1, 7, 3, 7, 5]) s' ∧
      (s'.requestQueue 0).writeQueue.map (·.writeQueue.map Request.handle) = some [1, 3, 5] := by
  have inOrder : ∀ index < 1, ∀ w,
      ((withWrites [7, 1, 7, 3, 7, 5]).requestQueue index).writeQueue = some w →
        DrainsInOrder (withWrites [7, 1, 7, 3, 7, 5]).isRowHit w := by
    intro index _ w queue
    obtain rfl : ⟨4, 10, [rowWrite 0 7, rowWrite 1 1, rowWrite 2 7, rowWrite 3 3, rowWrite 4 7,
        rowWrite 5 5]⟩ = w :=
      Option.some.inj queue
    refine ⟨by decide, fun high => absurd high (by decide), ?_⟩
    intro i j r r' less odd even late hi hj
    have small : j + 2 * 4 ≤ 2 * 6 := late
    -- the writes at odd places are to rows of their own
    obtain ⟨rfl, rfl⟩ | ⟨rfl, rfl⟩ | ⟨rfl, rfl⟩ : i = 1 ∧ j = 2 ∨ i = 1 ∧ j = 4 ∨ i = 3 ∧ j = 4 := by
      omega
    all_goals
      cases hi
      cases hj
      decide
  obtain ⟨s', ran, orderly⟩ := (writeDrain_inOrder (fun _ => true) openNext
    (s := withWrites [7, 1, 7, 3, 7, 5])
    (p := ⟨withWrites [7, 1, 7, 3, 7, 5], fun _ => 0, true⟩) rfl rfl).1 inOrder
  have left : (requestSchedule (fun _ => true) (accepting openNext) (withWrites [7, 1, 7, 3, 7, 5])
      (fun _ => 0)).any (fun r =>
        ((r.1.requestQueue 0).writeQueue.map (·.writeQueue.map Request.handle)) ==
          some [1, 3, 5]) = true := by decide +kernel
  rw [ran, Option.any_some, beq_iff_eq] at left
  exact ⟨s', ran, orderly, left⟩

/-- Eight writes: the second loop comes to its fifth turn with four left and indexes past them. And of
five writes to one row, the second is still there when the third has left. -/
theorem writeDrain_eightWrites :
    requestSchedule (fun _ => true) (accepting openNext) (withWrites [0, 1, 2, 3, 4, 5, 6, 7])
        (fun _ => 0) = none ∧
      (requestSchedule (fun _ => true) (accepting openNext) (withWrites [7, 7, 7, 7, 7])
          (fun _ => 0)).any (fun r =>
        ((r.1.requestQueue 0).writeQueue.map fun w => w.writeQueue.map Request.handle) ==
          some [1, 3, 4]) = true := by
  decide +kernel

end Medusa
end MCsim
