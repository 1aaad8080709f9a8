import MCsim.Schedulers.Medusa
import MCsim.Laws.Requestors
import MCsim.Laws.RowState
import MCsim.Lib.Stepping

/-!
# The row table under MEDUSA

The read paths of `requestSchedule` write the row table for every request they hand to the generator.
The write loops do not. A write that is a row hit leaves the table right; a write that is a miss
leaves it one row behind, and the next read of the row it names is sent as a hit to a bank that holds
another row.

`drained` says which writes the loop down to the low watermark takes, from the write queue and the row
table alone. In runs where these are row hits, table and banks agree, and every bank is sent a legal
sequence of commands.
-/

namespace MCsim
namespace Medusa

open CommandScheduler RequestScheduler

/-! ## What the write loops take -/

/-- The first, third, fifth element and so on. -/
def everyOther {α : Type} : List α → List α
  | [] => []
  | [a] => [a]
  | a :: _ :: l => a :: everyOther l

/-- The row hits that the first write loop removes: the write after a removed one is stepped over. -/
def hitsTaken (hit : Request → Bool) : List Request → List Request
  | [] => []
  | [r] => if hit r then [r] else []
  | r :: r' :: l => if hit r then r :: hitsTaken hit l else hitsTaken hit (r' :: l)

/-- What the first write loop leaves. -/
def hitsLeft (hit : Request → Bool) : List Request → List Request
  | [] => []
  | [r] => if hit r then [] else [r]
  | r :: r' :: l => if hit r then r' :: hitsLeft hit l else r :: hitsLeft hit (r' :: l)

/-- The writes that the second write loop takes: every other one, until fewer than the low watermark
are left. -/
def drained (hit : Request → Bool) (w : WriteQueue) : List Request :=
  let l := if w.highWatermark then hitsLeft hit w.writeQueue else w.writeQueue
  (everyOther l).take (l.length + 1 - w.lowwatermark)

theorem mem_hitsTaken {hit : Request → Bool} {r : Request} {l : List Request}
    (h : r ∈ hitsTaken hit l) : r ∈ l ∧ hit r = true := by
  fun_induction hitsTaken hit l <;> grind

theorem mem_hitsLeft {hit : Request → Bool} {r : Request} {l : List Request}
    (h : r ∈ hitsLeft hit l) : r ∈ l := by
  fun_induction hitsLeft hit l <;> grind

/-- The generator after row hits were handed to it. -/
def handed (g : CommandGenerator) (rs : List Request) : CommandGenerator :=
  { g with commandBuffer := g.commandBuffer ++
      rs.flatMap (CommandGenerator.casCommands g.dataBusSize) }

theorem handed_handed (g : CommandGenerator) (rs rs' : List Request) :
    handed (handed g rs) rs' = handed g (rs ++ rs') := by
  simp [handed]

/-- A row hit is always accepted, and adds its column accesses only. -/
theorem isSchedulable_hit (s : RequestScheduler) (r : Request) :
    s.isSchedulable openGenerator r true =
      some ({ s with commandGenerator := handed s.commandGenerator [r] }, true) := by
  simp [isSchedulable, openGenerator, CommandGenerator.commandGenerateOpen, handed,
    CommandGenerator.openCommands]

theorem getWrite_split (w : WriteQueue) (a t : List Request) :
    { w with writeQueue := a ++ t }.getWrite a.length = t.head? := by
  rw [WriteQueue.getWrite, List.getElem?_append_right (Nat.le_refl _), Nat.sub_self,
    List.head?_eq_getElem?]

theorem popWrite_split (w : WriteQueue) (a : List Request) (r : Request) (t : List Request) :
    { w with writeQueue := a ++ r :: t }.popWrite a.length =
      some { w with writeQueue := a ++ t } := by
  simp [WriteQueue.popWrite, List.eraseIdx_append_of_length_le]

theorem hitWrites_past (gen : Generator) (s : RequestScheduler) (w : WriteQueue)
    {fuel qIndex : Nat} (past : w.writeQueue.length ≤ qIndex) :
    hitWrites gen fuel qIndex (s, w) = some (s, w) := by
  cases fuel with
  | zero => rfl
  | succ fuel =>
    rw [hitWrites, WriteQueue.getWrite, List.getElem?_eq_none past]

theorem handed_nil (g : CommandGenerator) : handed g [] = g := by
  simp [handed]

/-- **The first write loop** hands row hits to a generator that takes them and leaves the rest in
place. It stands before `t`, with `a` behind it. -/
theorem hitWrites_takes {gen : Generator} {next : CommandGenerator → Request → CommandGenerator}
    (accepts : ∀ g r, gen g r true = some (next g r, true)) (s : RequestScheduler) (w : WriteQueue)
    (fuel : Nat) (a t : List Request) (enough : t.length ≤ fuel) :
    hitWrites gen fuel a.length (s, { w with writeQueue := a ++ t }) = some
      ({ s with commandGenerator :=
          (Lib.Stepping.taken s.isRowHit t).foldl next s.commandGenerator },
        { w with writeQueue := a ++ Lib.Stepping.left s.isRowHit t }) := by
  induction fuel generalizing s a t with
  | zero =>
    obtain rfl := List.length_eq_zero_iff.mp (Nat.le_zero.mp enough)
    simp [hitWrites, Lib.Stepping.taken, Lib.Stepping.left]
  | succ fuel ih =>
    cases t with
    | nil =>
      rw [hitWrites_past gen s _ (by simp)]
      simp [Lib.Stepping.taken, Lib.Stepping.left]
    | cons r t =>
      have shorter : t.length ≤ fuel := by simpa using enough
      have handsOver : s.isSchedulable gen r true =
          some ({ s with commandGenerator := next s.commandGenerator r }, true) := by
        simp [isSchedulable, accepts]
      rw [hitWrites, getWrite_split, List.head?_cons]
      dsimp only
      split
      · next hit =>
        rw [handsOver, Option.bind_some]
        dsimp only
        rw [if_pos rfl, popWrite_split, Option.bind_some]
        cases t with
        | nil =>
          rw [hitWrites_past gen _ _ (by simp)]
          simp [Lib.Stepping.taken, Lib.Stepping.left, hit]
        | cons r' t =>
          -- the write that moved up is stepped over
          have rest := ih { s with commandGenerator := next s.commandGenerator r } (a ++ [r']) t
            (by simp at shorter; omega)
          simp only [List.length_append, List.length_singleton, List.append_assoc,
            List.singleton_append] at rest
          rw [rest]
          simp only [Lib.Stepping.taken, Lib.Stepping.left, hit, if_true, List.foldl_cons]
          rfl
      · next miss =>
        have rest := ih s (a ++ [r]) t shorter
        simp only [List.length_append, List.length_singleton, List.append_assoc,
          List.singleton_append] at rest
        rw [rest]
        cases t <;> simp [Lib.Stepping.taken, Lib.Stepping.left, miss]

theorem hitsTaken_eq (hit : Request → Bool) (l : List Request) :
    hitsTaken hit l = Lib.Stepping.taken hit l := by
  fun_induction hitsTaken hit l <;> simp_all [Lib.Stepping.taken]

theorem hitsLeft_eq (hit : Request → Bool) (l : List Request) :
    hitsLeft hit l = Lib.Stepping.left hit l := by
  fun_induction hitsLeft hit l <;> simp_all [Lib.Stepping.left]

theorem foldl_handed (g : CommandGenerator) (rs : List Request) :
    rs.foldl (fun g r => handed g [r]) g = handed g rs := by
  induction rs generalizing g with
  | nil => exact (handed_nil g).symm
  | cons r rs ih => rw [List.foldl_cons, ih, handed_handed, List.singleton_append]

/-- The first write loop at the `OPEN` generator, which takes every row hit. -/
theorem hitWrites_eq (s : RequestScheduler) (w : WriteQueue) (fuel : Nat) (a t : List Request)
    (enough : t.length ≤ fuel) :
    hitWrites openGenerator fuel a.length (s, { w with writeQueue := a ++ t }) = some
      ({ s with commandGenerator := handed s.commandGenerator (hitsTaken s.isRowHit t) },
        { w with writeQueue := a ++ hitsLeft s.isRowHit t }) := by
  have accepts : ∀ g r, openGenerator g r true = some (handed g [r], true) := by
    intro g r
    simp [openGenerator, CommandGenerator.commandGenerateOpen, handed, CommandGenerator.openCommands]
  rw [hitsTaken_eq, hitsLeft_eq, hitWrites_takes accepts s w fuel a t enough, foldl_handed]

/-- **The second write loop**, where the writes it takes are row hits: it hands them to the generator
and takes them off the queue. -/
theorem drainWrites_hits {s s' : RequestScheduler} {w w' : WriteQueue} {fuel : Nat}
    {a t : List Request}
    (hits : ∀ r ∈ (everyOther t).take ((a ++ t).length + 1 - w.lowwatermark), s.isRowHit r = true)
    (ran : drainWrites openGenerator fuel a.length (s, { w with writeQueue := a ++ t }) =
      some (s', w')) :
    ∃ rs, (∀ r ∈ rs, r ∈ a ++ t ∧ s.isRowHit r = true) ∧
      s' = { s with commandGenerator := handed s.commandGenerator rs } ∧
      ∀ r ∈ w'.writeQueue, r ∈ a ++ t := by
  induction fuel generalizing s a t with
  | zero => cases ran
  | succ fuel ih =>
    rw [drainWrites] at ran
    split at ran
    · cases ran
      exact ⟨[], fun r hr => absurd hr List.not_mem_nil, by rw [handed_nil], fun _ => id⟩
    · next low =>
      have more : w.lowwatermark ≤ (a ++ t).length := by
        simpa only [WriteQueue.lowWatermark, decide_eq_true_eq, Nat.not_lt] using low
      obtain ⟨n, hn⟩ : ∃ n, (a ++ t).length + 1 - w.lowwatermark = n + 1 :=
        ⟨(a ++ t).length - w.lowwatermark, by omega⟩
      rw [getWrite_split] at ran
      cases t with
      | nil => cases ran
      | cons r t =>
        have hit : s.isRowHit r = true := by
          apply hits r
          rw [hn]
          cases t <;> simp [everyOther]
        rw [List.head?_cons, Option.bind_some, hit, isSchedulable_hit, Option.bind_some] at ran
        dsimp only at ran
        rw [if_pos rfl, popWrite_split, Option.bind_some] at ran
        cases t with
        | nil =>
          -- nothing is left to look at: the loop ends here or runs past the end
          cases fuel with
          | zero => cases ran
          | succ fuel =>
            rw [drainWrites] at ran
            split at ran
            · cases ran
              exact ⟨[r], by simp [hit], rfl, fun x hx => List.mem_append_left [r] (by simpa using hx)⟩
            · simp [WriteQueue.getWrite] at ran
        | cons r' t =>
          have rest := ih (s := { s with commandGenerator := handed s.commandGenerator [r] })
            (a := a ++ [r']) (t := t) (fun x hx => hits x (by
              rw [hn, everyOther, List.take_succ_cons]
              refine List.mem_cons_of_mem r (List.take_subset_take_left _ ?_ hx)
              simp at hn ⊢
              omega))
            (by simpa using ran)
          obtain ⟨rs, taken, rfl, left⟩ := rest
          refine ⟨r :: rs, fun x hx => ?_, ?_, fun x hx => ?_⟩
          · rcases List.mem_cons.mp hx with rfl | hx
            · exact ⟨by simp, hit⟩
            · obtain ⟨mem, hit'⟩ := taken x hx
              exact ⟨by simp at mem ⊢; tauto, hit'⟩
          · simp only [handed_handed, List.singleton_append]
          · have mem := left x hx
            simp at mem ⊢
            tauto

/-- **The write loops**, where the writes of `drained` are row hits: row hits are handed to the
generator, and the row table stays. -/
theorem writeLoops_hits {s s' : RequestScheduler} {w w' : WriteQueue}
    (hits : ∀ r ∈ drained s.isRowHit w, s.isRowHit r = true)
    (ran : writeLoops openGenerator s w = some (s', w')) :
    ∃ rs, (∀ r ∈ rs, r ∈ w.writeQueue ∧ s.isRowHit r = true) ∧
      s' = { s with commandGenerator := handed s.commandGenerator rs } ∧
      ∀ r ∈ w'.writeQueue, r ∈ w.writeQueue := by
  unfold writeLoops at ran
  unfold drained at hits
  by_cases high : w.highWatermark = true
  · have first := hitWrites_eq s w w.bufferSize [] w.writeQueue (Nat.le_refl _)
    simp only [List.length_nil, List.nil_append] at first
    rw [if_pos high, first, Option.bind_some] at ran
    simp only [high, if_true] at hits
    obtain ⟨rs, taken, rfl, left⟩ := drainWrites_hits (a := [])
      (t := hitsLeft s.isRowHit w.writeQueue)
      (s := { s with
        commandGenerator := handed s.commandGenerator (hitsTaken s.isRowHit w.writeQueue) })
      (w := w) hits ran
    refine ⟨hitsTaken s.isRowHit w.writeQueue ++ rs, fun r hr => ?_, ?_, fun r hr =>
      mem_hitsLeft (left r hr)⟩
    · rcases List.mem_append.mp hr with hr | hr
      · exact mem_hitsTaken hr
      · exact ⟨mem_hitsLeft (taken r hr).1, (taken r hr).2⟩
    · simp only [handed_handed]
  · rw [if_neg high, Option.bind_some] at ran
    simp only [high, Bool.false_eq_true, if_false] at hits
    exact drainWrites_hits (a := []) (t := w.writeQueue) (w := w) hits ran

/-! ## What the read loops take -/

/-- One request queue with a buffer for each requestor that appeared. -/
structure Shaped (s : RequestScheduler) : Prop where
  count : s.queueCount = 1
  perRequestor : (s.requestQueue 0).perRequestorEnable = true
  ordered : ∀ id, (s.requestQueue 0).requestorBuffer id ≠ none →
    id ∈ (s.requestQueue 0).requestorOrder

/-- The scheduler after the front read of a requestor was handed to the generator, which became
`g`. -/
def readTaken (s : RequestScheduler) (id : Nat) (r : Request) (g : CommandGenerator) :
    RequestScheduler :=
  ({ s with commandGenerator := g }.updateRowTable r.addressMap.rank r.addressMap.bank r.row).setQueue
    0 { s.requestQueue 0 with
        scheduledRequest := (true, id, 0)
        requestorBuffer := fun i =>
          if i = id then some (((s.requestQueue 0).buffer id).eraseIdx 0)
          else (s.requestQueue 0).requestorBuffer i }

/-- Serving the front read that a queue handed out. -/
theorem serve_read {s : RequestScheduler} {id : Nat} {r : Request} {rest : List Request}
    (front : (s.requestQueue 0).buffer id = r :: rest) :
    (s.setQueue 0 { s.requestQueue 0 with scheduledRequest := (true, id, 0) }).serve openGenerator
        0 r =
      (s.commandGenerator.commandGenerateOpen r (s.isRowHit r)).map fun g =>
        (readTaken s id r g, true) := by
  show (((openGenerator s.commandGenerator r (s.isRowHit r)).map _).bind _) = _
  unfold openGenerator
  cases s.commandGenerator.commandGenerateOpen r (s.isRowHit r) with
  | none => rfl
  | some g =>
    have bound : 0 < ((s.requestQueue 0).buffer id).length := by simp [front]
    have bound' : 0 < (({ s.requestQueue 0 with scheduledRequest := (true, id, 0) } :
      RequestQueue).buffer id).length := bound
    simp only [RequestScheduler.setQueue, RequestQueue.removeRequest, readTaken, updateRowTable,
      Option.map_some, Option.bind_some, if_true, bound']
    congr
    funext j
    split <;> rfl

/-- The requestor at a position, modulo the number of requestors. -/
def requestorAt (s : RequestScheduler) (position : Nat) : Nat :=
  (s.requestQueue 0).requestorOrder.getD
    (position % (s.requestQueue 0).requestorOrder.length) 0

/-- A front read is handed to the generator, the position moves to `turn`, and the function
returns. -/
def Reads (s : RequestScheduler) (result : Option (Pass × Bool)) : Prop :=
  ∃ id r rest turn, (s.requestQueue 0).buffer id = r :: rest ∧
    turn 0 < max (s.requestQueue 0).requestorOrder.length 1 ∧
    result = (s.commandGenerator.commandGenerateOpen r (s.isRowHit r)).map fun g =>
      ({ scheduler := readTaken s id r g, requestorIndex := turn, writeEnable := false }, true)

/-- The pass after empty buffers were looked at: only the position moved. -/
def Pass.moved (p : Pass) (turn : Nat → Nat) : Pass := { p with requestorIndex := turn }

theorem advance_mod {p : Pass}
    (turn : p.requestorIndex 0 < (p.scheduler.requestQueue 0).requestorOrder.length) :
    advance p 0 0 =
      (p.requestorIndex 0 + 1) % (p.scheduler.requestQueue 0).requestorOrder.length := by
  show (if p.requestorIndex 0 + 1 = (p.scheduler.requestQueue 0).requestorOrder.length then 0
    else p.requestorIndex 0 + 1) = _
  split
  · next last => rw [last, Nat.mod_self]
  · rw [Nat.mod_eq_of_lt (by omega)]

variable {critical : Nat → Bool}

/-- **A turn of the first loop** serves the front read of the requestor whose turn it is, or moves
on. -/
theorem criticalTurn_cases (all : ∀ n, critical n = true) {p : Pass} (num : Nat)
    (turn : p.requestorIndex 0 < (p.scheduler.requestQueue 0).requestorOrder.length) :
    ((p.scheduler.requestQueue 0).buffer (requestorAt p.scheduler (p.requestorIndex 0)) = [] ∧
      ∃ next, next 0 = (p.requestorIndex 0 + 1) %
          (p.scheduler.requestQueue 0).requestorOrder.length ∧
        criticalTurn critical openGenerator 0 num p = some (p.moved next, false)) ∨
    Reads p.scheduler (criticalTurn critical openGenerator 0 num p) := by
  obtain ⟨s, index, writes⟩ := p
  dsimp only at turn ⊢
  have here : (s.requestQueue 0).requestorOrder[index 0]? = some (requestorAt s (index 0)) := by
    rw [requestorAt, Nat.mod_eq_of_lt turn, List.getD_eq_getElem?_getD,
      List.getElem?_eq_getElem turn, Option.getD_some]
  have nonempty : (s.requestQueue 0).requestorOrder.length ≠ 0 := by omega
  have next := advance_mod (p := { scheduler := s, requestorIndex := index, writeEnable := writes })
    turn
  have size : (s.requestQueue 0).getSize true (index 0) =
      some ((s.requestQueue 0).buffer (requestorAt s (index 0))).length := by
    simp [RequestQueue.getSize, nonempty, here]
  unfold criticalTurn
  simp only [all, if_true, size, Option.bind_some]
  cases front : (s.requestQueue 0).buffer (requestorAt s (index 0)) with
  | nil => exact .inl ⟨rfl, _, next, rfl⟩
  | cons r rest =>
    refine .inr ⟨requestorAt s (index 0), r, rest, advance ⟨s, index, writes⟩ 0, front, ?_, ?_⟩
    · rw [next]
      have : (index 0 + 1) % (s.requestQueue 0).requestorOrder.length <
        (s.requestQueue 0).requestorOrder.length := Nat.mod_lt _ (by omega)
      exact Nat.lt_of_lt_of_le this (Nat.le_max_left ..)
    · have got : (s.requestQueue 0).getRequestOf (index 0) 0 = some (some r,
          { s.requestQueue 0 with scheduledRequest := (true, requestorAt s (index 0), 0) }) := by
        simp [RequestQueue.getRequestOf, here, front]
      simp only [List.length_cons, Nat.zero_lt_succ, if_true, got, Option.bind_some, gt_iff_lt,
        serve_read front, Option.map_map]
      rfl

/-- **The first loop** serves a front read, or finds the buffers empty of as many requestors as it
takes turns. -/
theorem loop_critical (all : ∀ n, critical n = true) (nums : List Nat) {p : Pass}
    (turn : p.requestorIndex 0 < (p.scheduler.requestQueue 0).requestorOrder.length) :
    ((∀ k < nums.length, (p.scheduler.requestQueue 0).buffer
        (requestorAt p.scheduler (p.requestorIndex 0 + k)) = []) ∧
      ∃ next, next 0 < (p.scheduler.requestQueue 0).requestorOrder.length ∧
        loop (criticalTurn critical openGenerator 0) nums p = some (p.moved next, false)) ∨
    Reads p.scheduler (loop (criticalTurn critical openGenerator 0) nums p) := by
  induction nums generalizing p with
  | nil => exact .inl ⟨fun k hk => absurd hk (Nat.not_lt_zero k), p.requestorIndex, turn, rfl⟩
  | cons num nums ih =>
    rcases criticalTurn_cases all num turn with ⟨empty, next, hnext, step⟩ |
      ⟨id, r, rest, next, front, hnext, step⟩
    · have turn' : (p.moved next).requestorIndex 0 <
          ((p.moved next).scheduler.requestQueue 0).requestorOrder.length := by
        show next 0 < (p.scheduler.requestQueue 0).requestorOrder.length
        rw [hnext]
        exact Nat.mod_lt _ (by omega)
      have unroll : loop (criticalTurn critical openGenerator 0) (num :: nums) p =
          loop (criticalTurn critical openGenerator 0) nums (p.moved next) := by
        rw [loop, step]
        rfl
      rw [unroll]
      rcases ih turn' with ⟨empties, next', hnext', rest⟩ | reads
      · refine .inl ⟨fun k hk => ?_, next', hnext', rest⟩
        cases k with
        | zero => exact empty
        | succ k =>
          have there := empties k (by simpa using hk)
          have position : requestorAt p.scheduler (p.requestorIndex 0 + (k + 1)) =
              requestorAt p.scheduler (next 0 + k) := by
            unfold requestorAt
            rw [hnext, Nat.mod_add_mod]
            congr 2
            omega
          rw [position]
          exact there
      · exact .inr reads
    · refine .inr ⟨id, r, rest, next, front, hnext, ?_⟩
      rw [loop, step]
      cases p.scheduler.commandGenerator.commandGenerateOpen r (p.scheduler.isRowHit r) <;> rfl

/-- A loop over all positions has looked at every requestor. -/
theorem requestorAt_surj {s : RequestScheduler} {id : Nat} (start : Nat)
    (h : id ∈ (s.requestQueue 0).requestorOrder) :
    ∃ k < (s.requestQueue 0).requestorOrder.length, requestorAt s (start + k) = id := by
  obtain ⟨j, hj, at_⟩ := List.getElem_of_mem h
  obtain ⟨n, hn⟩ : ∃ n, (s.requestQueue 0).requestorOrder.length = n := ⟨_, rfl⟩
  rw [hn]
  refine ⟨(j + (n - start % n)) % n, Nat.mod_lt _ (by omega), ?_⟩
  have position : (start + (j + (n - start % n)) % n) % n = j := by
    have small : start % n < n := Nat.mod_lt _ (by omega)
    rw [Nat.add_mod_mod, ← Nat.mod_add_mod]
    have e : start % n + (j + (n - start % n)) = j + n := by omega
    rw [e, Nat.add_mod_right, Nat.mod_eq_of_lt (hn ▸ hj)]
  rw [requestorAt, hn, position, List.getD_eq_getElem?_getD, List.getElem?_eq_getElem hj,
    Option.getD_some, at_]

/-- The second loop does nothing while the requestor whose turn it is has no read. -/
theorem loop_hit {gen : Generator} (nums : List Nat) {p : Pass}
    (empty : (p.scheduler.requestQueue 0).getSize true (p.requestorIndex 0) = some 0) :
    loop (hitTurn gen 0) nums p = some (p, false) := by
  induction nums with
  | nil => rfl
  | cons num nums ih =>
    rw [loop, hitTurn, empty]
    exact ih

/-- **The read loops** serve a front read where there is one. -/
theorem readQueue_cases (all : ∀ n, critical n = true) {p : Pass} (shaped : Shaped p.scheduler)
    (turn : p.requestorIndex 0 < max (p.scheduler.requestQueue 0).requestorOrder.length 1) :
    ((∀ id, (p.scheduler.requestQueue 0).buffer id = []) ∧
      ∃ next, next 0 < max (p.scheduler.requestQueue 0).requestorOrder.length 1 ∧
        readQueue critical openGenerator 0 p = some (p.moved next, false)) ∨
    Reads p.scheduler (readQueue critical openGenerator 0 p) := by
  have absent : ∀ id, id ∉ (p.scheduler.requestQueue 0).requestorOrder →
      (p.scheduler.requestQueue 0).buffer id = [] := by
    intro id h
    have none_ : (p.scheduler.requestQueue 0).requestorBuffer id = none := by
      by_contra some_
      exact h (shaped.ordered id some_)
    rw [RequestQueue.buffer, none_]
    rfl
  unfold readQueue
  rw [if_pos (show (p.scheduler.requestQueue 0).isPerRequestor = true from shaped.perRequestor)]
  by_cases size : (p.scheduler.requestQueue 0).requestorOrder.length = 0
  · have noOne : (p.scheduler.requestQueue 0).requestorOrder = [] := List.length_eq_zero_iff.mp size
    refine .inl ⟨fun id => absent id (by simp [noOne]), p.requestorIndex, turn, ?_⟩
    simp only [RequestQueue.getQueueSize, size, List.range_zero]
    rfl
  · rw [Nat.max_eq_left (by omega)] at turn ⊢
    rcases loop_critical all (List.range (p.scheduler.requestQueue 0).getQueueSize) turn with
      ⟨empties, next, hnext, looped⟩ | ⟨id, r, rest, next, front, hnext, looped⟩
    · have empty : ∀ id, (p.scheduler.requestQueue 0).buffer id = [] := by
        intro id
        by_cases h : id ∈ (p.scheduler.requestQueue 0).requestorOrder
        · obtain ⟨k, hk, rfl⟩ := requestorAt_surj (p.requestorIndex 0) h
          exact empties k (by simpa [RequestQueue.getQueueSize] using hk)
        · exact absent id h
      refine .inl ⟨empty, next, hnext, ?_⟩
      simp only [looped, Option.bind_some, Bool.false_eq_true, if_false]
      apply loop_hit _
      simp [RequestQueue.getSize, Pass.moved, size, List.getElem?_eq_getElem hnext, empty]
    · refine .inr ⟨id, r, rest, next, front, hnext, ?_⟩
      · simp only [looped]
        cases p.scheduler.commandGenerator.commandGenerateOpen r (p.scheduler.isRowHit r) <;> rfl

/-! ## One call of the scheduler -/

/-- No read waits, or the writes that are drained then are row hits: in a cycle that meets this, no
write that misses is handed to the generator. -/
def DrainsHits (s : RequestScheduler) : Prop :=
  (∀ id, (s.requestQueue 0).buffer id = []) →
    ∀ w ∈ (s.requestQueue 0).writeQueue, ∀ r ∈ drained s.isRowHit w, s.isRowHit r = true

/-- What a call does that drains row hits only, with the commands it has the generator make. -/
inductive Serves (s : RequestScheduler) : RequestScheduler → List BusPacket → Prop
  | read {id : Nat} {r : Request} {rest : List Request}
      (front : (s.requestQueue 0).buffer id = r :: rest)
      (bank : s.isRowHit r = true ∨ r.bank < 8) :
      Serves s (readTaken s id r (s.commandGenerator.opened r (s.isRowHit r)))
        (s.commandGenerator.commandsOf r (s.isRowHit r))
  | writes {w w' : WriteQueue} {rs : List Request} (queue : (s.requestQueue 0).writeQueue = some w)
      (hits : ∀ r ∈ rs, r ∈ w.writeQueue ∧ s.isRowHit r = true)
      (kept : ∀ r ∈ w'.writeQueue, r ∈ w.writeQueue) :
      Serves s (s.setQueue 0 { s.requestQueue 0 with writeQueue := some w' })
        (rs.flatMap (CommandGenerator.casCommands s.commandGenerator.dataBusSize))
  | idle : Serves s s []

/-- **One call of the scheduler**, where the writes it drains are row hits. -/
theorem requestSchedule_serves (all : ∀ n, critical n = true) {s s' : RequestScheduler}
    {turn turn' : Nat → Nat} (shaped : Shaped s)
    (inTurn : turn 0 < max (s.requestQueue 0).requestorOrder.length 1)
    (emptied : s.commandGenerator.commandBuffer = []) (drains : DrainsHits s)
    (ran : requestSchedule critical openGenerator s turn = some (s', turn')) :
    turn' 0 < max (s.requestQueue 0).requestorOrder.length 1 ∧
    ∃ rs new, Serves s rs new ∧ s' = { rs with commandGenerator :=
      { rs.commandGenerator with commandBuffer := new } } := by
  have one : List.range s.queueCount = [0] := by rw [shaped.count]; rfl
  simp only [requestSchedule, one, loop] at ran
  rcases readQueue_cases all (p := ⟨s, turn, true⟩) shaped inTurn with
    ⟨empty, next, hnext, read⟩ | ⟨id, r, rest, next, front, hnext, read⟩
  · rw [read] at ran
    simp only [Option.bind_some, Bool.false_eq_true, if_false, Pass.moved, Bool.not_true,
      Bool.or_self, List.foldlM_cons, List.foldlM_nil, writeQueueTurn] at ran
    cases queue : (s.requestQueue 0).writeQueue with
    | none =>
      simp only [queue] at ran
      obtain ⟨rfl, rfl⟩ : s = s' ∧ next = turn' := by simpa using ran
      exact ⟨hnext, s, [], .idle, by rw [← emptied]⟩
    | some w =>
      simp only [queue] at ran
      cases loops : writeLoops openGenerator s w with
      | none => simp [loops] at ran
      | some st =>
        obtain ⟨s₁, w'⟩ := st
        obtain ⟨rs, hits, rfl, kept⟩ := writeLoops_hits (drains empty w (by simp [queue])) loops
        simp only [loops] at ran
        obtain ⟨rfl, rfl⟩ : _ = s' ∧ next = turn' := by simpa using ran
        refine ⟨hnext, _, _, .writes queue hits kept, ?_⟩
        simp only [handed, emptied, List.nil_append]
        rfl
  · rw [read, CommandGenerator.commandGenerateOpen_eq] at ran
    by_cases bank : (s.isRowHit r || decide (r.bank < 8)) = true
    · simp only [bank, if_true, Option.map_some, Option.bind_some, Bool.true_or, emptied,
        List.nil_append] at ran
      obtain ⟨rfl, rfl⟩ : _ = s' ∧ next = turn' := by simpa using ran
      exact ⟨hnext, _, _, .read front (by simpa using bank), rfl⟩
    · simp [bank] at ran

/-! ## What a call keeps -/

/-- A request waits: a read in a requestor's buffer, a write in the write queue. -/
def Waits (s : RequestScheduler) (r : Request) : Prop :=
  (∃ id, r ∈ (s.requestQueue 0).buffer id) ∨
    ∃ w, (s.requestQueue 0).writeQueue = some w ∧ r ∈ w.writeQueue

/-- The last command made for each bank carries the row of the row table. -/
def LastRow (s : CommandScheduler) (table : Nat → Option Nat) : Prop :=
  ∀ bank, (s.future bank).getLast?.map (·.row) = table bank

theorem LastRow.congr {s s' : CommandScheduler} {table : Nat → Option Nat} (h : LastRow s table)
    (same : ∀ bank, s'.future bank = s.future bank) : LastRow s' table := fun bank => by
  rw [same]
  exact h bank

namespace Serves

variable {s s' : RequestScheduler} {new : List BusPacket}

theorem shaped (serves : Serves s s' new) (h : Shaped s) : Shaped s' := by
  cases serves with
  | @read id r rest front bank =>
    refine ⟨h.count, h.perRequestor, fun i hi => ?_⟩
    by_cases e : i = id
    · subst e
      apply h.ordered i
      intro none_
      simp [RequestQueue.buffer, none_] at front
    · refine h.ordered i fun none_ => hi ?_
      simp [readTaken, RequestScheduler.setQueue, e, none_]
  | writes => exact ⟨h.count, h.perRequestor, h.ordered⟩
  | idle => exact h

theorem order (serves : Serves s s' new) :
    (s'.requestQueue 0).requestorOrder = (s.requestQueue 0).requestorOrder := by
  cases serves <;> rfl

theorem emptied (serves : Serves s s' new) (h : s.commandGenerator.commandBuffer = []) :
    s'.commandGenerator.commandBuffer = [] := by
  cases serves <;> exact h

theorem waits (serves : Serves s s' new) {r : Request} (h : Waits s' r) : Waits s r := by
  cases serves with
  | @read id r' rest front bank =>
    rcases h with ⟨i, hi⟩ | h
    · refine .inl ⟨i, ?_⟩
      by_cases e : i = id
      · subst e
        have here : r ∈ ((s.requestQueue 0).buffer i).eraseIdx 0 := by
          simpa [readTaken, RequestScheduler.setQueue, RequestQueue.buffer] using hi
        exact List.mem_of_mem_eraseIdx here
      · simpa [readTaken, RequestScheduler.setQueue, RequestQueue.buffer, e] using hi
    · exact .inr h
  | writes queue hits kept =>
    rcases h with h | ⟨w, hw, hr⟩
    · exact .inl h
    · refine .inr ⟨_, queue, kept r ?_⟩
      obtain rfl : _ = w := Option.some.inj hw
      exact hr
  | idle => exact h

theorem tabled (serves : Serves s s' new) (h : s.Tabled) (mapped : ∀ r, Waits s r → Mapped r) :
    s'.Tabled := by
  cases serves with
  | @read id r rest front bank =>
    have mappedR : Mapped r := mapped r (.inl ⟨id, by simp [front]⟩)
    have taken := h.taken (i := 0) mappedR bank
    exact ⟨taken.bound, taken.first⟩
  | writes => exact ⟨h.bound, h.first⟩
  | idle => exact h

/-- A row hit's column accesses are all that the generator makes of it. -/
theorem casCommands_eq (g : CommandGenerator) (r : Request) :
    CommandGenerator.casCommands g.dataBusSize r = g.commandsOf r true := by
  simp [CommandGenerator.commandsOf, CommandGenerator.openCommands]

theorem commands (serves : Serves s s' new) (h : s.Tabled) (mapped : ∀ r, Waits s r → Mapped r) :
    ∀ c ∈ new, c.bank < 8 ∧ OpenCommand c.bank c := by
  cases serves with
  | @read id r rest front bank =>
    intro c hc
    have opens := openCommand_of_commandsOf hc
    have small := h.bank_lt (mapped r (.inl ⟨id, by simp [front]⟩)) bank
    exact ⟨opens.1 ▸ small, opens.1.symm ▸ opens⟩
  | @writes w w' rs queue hits kept =>
    intro c hc
    obtain ⟨r, hr, hc⟩ := List.mem_flatMap.mp hc
    rw [casCommands_eq] at hc
    have opens := openCommand_of_commandsOf hc
    have small := h.bank_lt (mapped r (.inr ⟨w, queue, (hits r hr).1⟩)) (.inl (hits r hr).2)
    exact ⟨opens.1 ▸ small, opens.1.symm ▸ opens⟩
  | idle => exact fun c hc => absurd hc List.not_mem_nil

end Serves

/-- A request's commands carry its row. -/
theorem LastRow.request {s : CommandScheduler} {table : Nat → Option Nat} (h : LastRow s table)
    (g : CommandGenerator) {r : Request} {isOpen : Bool}
    (hit : isOpen = true → table r.bank = some r.row) (clockCycle : Nat) :
    LastRow (s.receive ((g.commandsOf r isOpen).map (stamp clockCycle)))
      fun bank => if bank = r.bank then some r.row else table bank := by
  intro bank
  rw [future_receive, filter_commandsOf]
  split
  · next e =>
    subst e
    cases last : ((g.commandsOf r isOpen).map (stamp clockCycle)).getLast? with
    | none =>
      -- a row hit of no size: the table holds its row already
      have nothing : g.commandsOf r isOpen = [] := by simpa using last
      cases isOpen with
      | true => simpa [nothing, hit rfl] using h r.bank
      | false =>
        cases first : g.first r.bank <;>
          simp [CommandGenerator.commandsOf, CommandGenerator.openCommands, first] at nothing
    | some x =>
      obtain ⟨y, hy, rfl⟩ := List.mem_map.mp (List.mem_of_getLast? last)
      rw [List.getLast?_append, last]
      simpa [stamp] using (CommandGenerator.mem_commandsOf hy).2.1
  · next e => simpa [e] using h bank

/-- The table of a row buffer that already holds the row. -/
theorem table_of_hit {table : Nat → Option Nat} {r : Request} (hit : table r.bank = some r.row) :
    (fun bank => if bank = r.bank then some r.row else table bank) = table := by
  funext bank
  split
  · next e => rw [e, hit]
  · rfl

/-- Row hits keep table and banks in agreement. -/
theorem agrees_hits {s : CommandScheduler} {table : Nat → Option Nat} (g : CommandGenerator)
    (rs : List Request) (hits : ∀ r ∈ rs, table r.bank = some r.row) (clockCycle : Nat)
    (agrees : s.Agrees table) (last : LastRow s table) :
    (s.receive ((rs.flatMap (CommandGenerator.casCommands g.dataBusSize)).map
        (stamp clockCycle))).Agrees table ∧
      LastRow (s.receive ((rs.flatMap (CommandGenerator.casCommands g.dataBusSize)).map
        (stamp clockCycle))) table := by
  induction rs generalizing s with
  | nil => simpa using ⟨agrees, last⟩
  | cons r rs ih =>
    have hit := hits r List.mem_cons_self
    have agrees' := agrees.request g r (fun _ : true = true => hit) (by simp) clockCycle
    have last' := last.request g (fun _ : true = true => hit) clockCycle
    rw [table_of_hit hit, ← Serves.casCommands_eq] at agrees' last'
    have rest := ih (fun x hx => hits x (List.mem_cons_of_mem r hx)) agrees' last'
    rw [receive_receive] at rest
    simpa using rest

/-- **A call keeps table and banks in agreement** where it drains row hits only. -/
theorem Serves.agrees {cs : CommandScheduler} {s s' : RequestScheduler} {new : List BusPacket}
    (serves : Serves s s' new) (tabled : s.Tabled) (mapped : ∀ r, Waits s r → Mapped r)
    (agrees : cs.Agrees (s.bankTable 0)) (last : LastRow cs (s.bankTable 0)) (clockCycle : Nat) :
    (cs.receive (new.map (stamp clockCycle))).Agrees (s'.bankTable 0) ∧
      LastRow (cs.receive (new.map (stamp clockCycle))) (s'.bankTable 0) := by
  cases serves with
  | @read id r rest front bank =>
    have mappedR : Mapped r := mapped r (.inl ⟨id, by simp [front]⟩)
    have bound := tabled.bank_lt mappedR bank
    have hit : s.isRowHit r = true → s.bankTable 0 r.bank = some r.row := fun hit => by
      simpa [mappedR.isRowHit] using hit
    have table : (readTaken s id r (s.commandGenerator.opened r (s.isRowHit r))).bankTable 0 =
        fun bank => if bank = r.bank then some r.row else s.bankTable 0 bank := by
      funext b
      show (if 0 = r.addressMap.rank ∧ b = r.addressMap.bank then some r.row
        else s.bankTable 0 b) = _
      rw [mappedR.1, mappedR.2]
      simp
    rw [table]
    exact ⟨agrees.request _ r hit (fun _ => tabled.first r.bank bound) clockCycle,
      last.request _ hit clockCycle⟩
  | @writes w w' rs queue hits kept =>
    have held : ∀ r ∈ rs, s.bankTable 0 r.bank = some r.row := by
      intro r hr
      have mappedR : Mapped r := mapped r (.inr ⟨w, queue, (hits r hr).1⟩)
      simpa [mappedR.isRowHit] using (hits r hr).2
    exact agrees_hits s.commandGenerator rs held clockCycle agrees last
  | idle => simpa using ⟨agrees, last⟩

/-! ## Runs -/

end Medusa

/-- The set-up of `MEDUSA.ini`: a buffer for each requestor's reads and a write queue before the
queues of the banks. -/
structure Setup.Medusa (setup : Setup) : Prop extends setup.PerBank where
  reqMap : setup.reqMap = [false, false, false, false]
  requestorReqQ : setup.requestorReqQ = true

namespace Medusa

open CommandScheduler RequestScheduler MemoryController

variable {κ : Type} {setup : Setup} {parts : Components (Nat → Nat) κ}

/-- `MEDUSA` with every requestor critical, `OPEN`, and a command scheduler that sends fronts. -/
structure Parts (parts : Components (Nat → Nat) κ) : Prop where
  requests : ∃ critical : Nat → Bool, (∀ n, critical n = true) ∧
    parts.requestScheduler = policy critical
  start : parts.requestInit = fun _ => 0
  generator : parts.commandGenerator = openGenerator
  commands : parts.commandScheduler.SendsFronts

/-- What runs keep that drain row hits only. -/
structure Inv (c : MemoryController (Nat → Nat) κ) : Prop where
  shaped : Shaped c.requestScheduler
  turn : c.requestPrivate 0 < max (c.requestScheduler.requestQueue 0).requestorOrder.length 1
  emptied : c.requestScheduler.commandGenerator.commandBuffer = []
  mapped : ∀ r, Waits c.requestScheduler r → Mapped r
  tabled : c.requestScheduler.Tabled
  commands : c.commandScheduler.PerBank
  writes : ∀ p ∈ c.sendDataBuffer, p.busPacketType = .DATA ∧ p.postCommand = false
  quiet : c.commandScheduler.Quiet
  agrees : c.commandScheduler.Agrees (c.requestScheduler.bankTable 0)
  last : LastRow c.commandScheduler (c.requestScheduler.bankTable 0)

theorem inv_create (medusa : setup.Medusa) (noRefresh : setup.refresh_mechanism = .none)
    (uses : Parts parts) (refreshCounting bank_release : Nat) :
    Inv (create setup parts refreshCounting bank_release) := by
  have one : queueNumber setup setup.reqMap = 1 := by rw [medusa.reqMap, queueNumber_unmarked]
  refine ⟨⟨one, medusa.requestorReqQ, fun id h => absurd rfl h⟩, ?_, rfl, ?_,
    ⟨fun _ h => absurd rfl h, fun _ _ => ⟨fun _ => rfl, fun _ => rfl⟩⟩,
    ⟨fun _ => ⟨medusa.requestorCmdQ, rfl⟩, medusa.queueNumber_cmdMap,
      fun _ c hc => absurd hc List.not_mem_nil⟩, fun p hp => absurd hp List.not_mem_nil,
    ⟨noRefresh, rfl⟩, fun _ => ⟨trivial, rfl⟩, fun _ => rfl⟩
  · show parts.requestInit 0 < _
    rw [uses.start]
    exact Nat.lt_of_lt_of_le Nat.zero_lt_one (Nat.le_max_right ..)
  · rintro r (⟨id, hr⟩ | ⟨w, hw, hr⟩)
    · exact absurd hr List.not_mem_nil
    · change (if setup.writeQueueEnable = true then some { lowwatermark := 4, highwatermark := 10 }
        else none) = some w at hw
      split at hw
      · cases hw
        exact absurd hr List.not_mem_nil
      · cases hw

/-- A delivery may resize a waiting request. -/
theorem shaped_resized {s s' : RequestScheduler} (h : Resized s s') (shaped : Shaped s) :
    Shaped s' ∧ (∀ r', Waits s' r' → ∃ r, Waits s r ∧ ∃ n, r' = { r with requestSize := n }) ∧
      (s'.requestQueue 0).requestorOrder = (s.requestQueue 0).requestorOrder := by
  cases h with
  | same => exact ⟨⟨shaped.count, shaped.perRequestor, shaped.ordered⟩,
      fun r' hr' => ⟨r', hr', r'.requestSize, rfl⟩, rfl⟩
  | sized clock handle n =>
    refine ⟨⟨shaped.count, shaped.perRequestor, fun id h => shaped.ordered id fun none_ => h ?_⟩,
      ?_, rfl⟩
    · show ((s.requestQueue 0).requestorBuffer id).map _ = none
      rw [none_]
      rfl
    · rintro r' (⟨id, hr'⟩ | ⟨w', hw', hr'⟩)
      · have mem : r' ∈ Request.assignSize handle n ((s.requestQueue 0).buffer id) :=
          RequestQueue.buffer_assignSize (s.requestQueue 0) handle n id ▸ hr'
        obtain ⟨r, hr, sized⟩ := Resized.mem_assignSize mem
        exact ⟨r, .inl ⟨id, hr⟩, sized⟩
      · obtain ⟨w, hw, rfl⟩ := Option.map_eq_some_iff.mp hw'
        obtain ⟨r, hr, sized⟩ := Resized.mem_assignSize hr'
        exact ⟨r, .inr ⟨w, hw, hr⟩, sized⟩

/-- **A cycle that drains row hits only keeps the invariant.** -/
theorem update_inv (medusa : setup.Medusa) (uses : Parts parts)
    {c c' : MemoryController (Nat → Nat) κ} {refreshCheck check : Answers} (inv : Inv c)
    (drains : DrainsHits c.requestScheduler)
    (h : c.update setup parts refreshCheck check = some c') : Inv c' := by
  obtain ⟨critical, all, policy_eq⟩ := uses.requests
  cases ran : requestSchedule critical openGenerator c.requestScheduler c.requestPrivate with
  | none => simp [MemoryController.update, policy_eq, policy, uses.generator, ran] at h
  | some st =>
    obtain ⟨s', turn'⟩ := st
    obtain ⟨inTurn, rs, new, serves, rfl⟩ := requestSchedule_serves all inv.shaped inv.turn
      inv.emptied drains ran
    have scheduled : parts.requestScheduler.requestSchedule parts.commandGenerator
        c.requestScheduler c.requestPrivate = some ({ rs with commandGenerator :=
          { rs.commandGenerator with commandBuffer := new } }, turn') := by
      rw [policy_eq, uses.generator]
      exact ran
    obtain ⟨received, cs, priv', out, updated, sends⟩ := update_scheduled medusa.toPerBank
      uses.commands inv.commands refreshCheck check scheduled (serves.emptied inv.emptied)
      (serves.commands inv.tabled inv.mapped)
    obtain rfl : _ = c' := Option.some.inj (updated.symm.trans h)
    obtain ⟨agrees, last⟩ := serves.agrees inv.tabled inv.mapped inv.agrees inv.last c.clockCycle
    have quiet : (c.commandScheduler.receive (new.map (stamp c.clockCycle))).Quiet := inv.quiet
    obtain ⟨same, quiet'⟩ := future_cycle quiet received sends
    obtain ⟨resized, ticked, writes⟩ := endCycle_frame setup
      (c := c.scheduled rs turn' new cs priv') out inv.writes
    obtain ⟨shaped, waits, order⟩ := shaped_resized resized (serves.shaped inv.shaped)
    refine ⟨shaped, ?_, ?_, ?_, resized.tabled (serves.tabled inv.tabled inv.mapped), ?_, writes,
      ?_, ?_, ?_⟩
    · rw [order, (endCycle_private setup _ out).1]
      show turn' 0 < max (rs.requestQueue 0).requestorOrder.length 1
      rw [serves.order]
      exact inTurn
    · rw [resized.generator]
      exact serves.emptied inv.emptied
    · intro r' hr'
      obtain ⟨r, hr, n, rfl⟩ := waits r' hr'
      exact inv.mapped r (serves.waits hr)
    · rw [ticked]
      exact (received.refresh.sends sends).tick
    · rw [ticked]
      exact quiet'
    · rw [ticked, resized.table]
      exact agrees.congr same
    · rw [ticked, resized.table]
      exact last.congr same

/-- A request joins its requestor's buffer or the write queue. -/
theorem shaped_insert {s : RequestScheduler} (shaped : Shaped s) (r : Request) :
    Shaped (s.setQueue 0 ((s.requestQueue 0).insertRequest r)) ∧
      (s.requestQueue 0).requestorOrder.length ≤
        ((s.requestQueue 0).insertRequest r).requestorOrder.length ∧
      ∀ x, Waits (s.setQueue 0 ((s.requestQueue 0).insertRequest r)) x → Waits s x ∨ x = r := by
  unfold RequestQueue.insertRequest
  split
  · refine ⟨⟨shaped.count, shaped.perRequestor, shaped.ordered⟩, Nat.le_refl _, ?_⟩
    rintro x (h | ⟨w', hw', hx⟩)
    · exact .inl (.inl h)
    · obtain ⟨w, hw, rfl⟩ := Option.map_eq_some_iff.mp hw'
      rcases List.mem_append.mp hx with hx | hx
      · exact .inl (.inr ⟨w, hw, hx⟩)
      · exact .inr (List.mem_singleton.mp hx)
  · rw [if_pos shaped.perRequestor]
    refine ⟨⟨shaped.count, shaped.perRequestor, fun id h => ?_⟩, ?_, ?_⟩
    · have order : ∀ id', id' ∈ (s.requestQueue 0).requestorOrder ∨ id' = r.requestorID ∧
          ((s.requestQueue 0).requestorBuffer r.requestorID).isNone = true →
          id' ∈ if ((s.requestQueue 0).requestorBuffer r.requestorID).isNone = true then
            (s.requestQueue 0).requestorOrder ++ [r.requestorID]
          else (s.requestQueue 0).requestorOrder := by
        intro id' h
        split
        · rcases h with h | ⟨rfl, _⟩
          · exact List.mem_append_left _ h
          · simp
        · next other => exact h.resolve_right fun h => other h.2
      apply order id
      by_cases e : id = r.requestorID
      · subst e
        by_cases new : ((s.requestQueue 0).requestorBuffer r.requestorID).isNone = true
        · exact .inr ⟨rfl, new⟩
        · exact .inl (shaped.ordered _ (by simpa using new))
      · refine .inl (shaped.ordered id fun none_ => h ?_)
        show (if id = r.requestorID then _ else (s.requestQueue 0).requestorBuffer id) = none
        rw [if_neg e, none_]
    · dsimp only
      split <;> simp
    · rintro x (⟨id, hx⟩ | h)
      · by_cases e : id = r.requestorID
        · subst e
          have here : x ∈ (s.requestQueue 0).buffer r.requestorID ++ [r] := by
            simpa [RequestScheduler.setQueue, RequestQueue.buffer] using hx
          rcases List.mem_append.mp here with hx | hx
          · exact .inl (.inl ⟨_, hx⟩)
          · exact .inr (List.mem_singleton.mp hx)
        · refine .inl (.inl ⟨id, ?_⟩)
          simpa [RequestScheduler.setQueue, RequestQueue.buffer, e] using hx
      · exact .inl (.inr h)

/-- **An arrival keeps the invariant**: it joins a buffer, and nothing else changes. -/
theorem addRequest_inv (medusa : setup.Medusa) {c c' : MemoryController (Nat → Nat) κ} (inv : Inv c)
    {requestorID address size : Nat} {R_W : Bool}
    (h : c.addRequest setup requestorID address R_W size = some c') : Inv c' := by
  have mapped := incoming_mapped setup c requestorID address R_W size
  simp only [addRequest, medusa.reqMap, decodeQueue_unmarked, inv.shaped.count, Nat.zero_lt_one,
    if_true, Option.some.injEq] at h
  subst h
  generalize incoming setup c requestorID address R_W size = r at *
  obtain ⟨shaped, longer, waits⟩ := shaped_insert inv.shaped r
  refine ⟨shaped, ?_, inv.emptied, fun x hx => (waits x hx).elim (inv.mapped x) (· ▸ mapped),
    ⟨inv.tabled.bound, inv.tabled.first⟩, inv.commands, inv.writes, inv.quiet, inv.agrees, inv.last⟩
  refine Nat.lt_of_lt_of_le inv.turn (Nat.max_le.mpr ⟨?_, Nat.le_max_right ..⟩)
  exact Nat.le_trans longer (Nat.le_max_left ..)

/-- In a cycle, the writes that are drained are row hits. -/
def Drains (c : MemoryController (Nat → Nat) κ) : Event → Prop
  | .addRequest _ _ _ _ => True
  | .update _ _ => DrainsHits c.requestScheduler

theorem step_inv (medusa : setup.Medusa) (uses : Parts parts)
    {c c' : MemoryController (Nat → Nat) κ} {e : Event} {o : Unit} (inv : Inv c)
    (h : step setup parts c e = some (c', o)) (drains : Drains c e) : Inv c' := by
  cases e with
  | addRequest requestorID address R_W size =>
    obtain ⟨c'', added, e⟩ := Option.map_eq_some_iff.mp h
    cases e
    exact addRequest_inv medusa inv added
  | update refreshCheck check =>
    obtain ⟨c'', updated, e⟩ := Option.map_eq_some_iff.mp h
    cases e
    exact update_inv medusa uses inv drains updated

/-- **Row-state legality under MEDUSA**, in the runs whose cycles drain row hits only: every `RD` and
`WR` finds its bank open with its row, and the row table holds the row of the last command made for
each bank. -/
theorem medusa_casLegal (medusa : setup.Medusa) (noRefresh : setup.refresh_mechanism = .none)
    (uses : Parts parts) (refreshCounting bank_release : Nat) (events : List Event)
    (drains : Lib.Machine.Along (step setup parts) (fun c e _ _ => Drains c e)
      (create setup parts refreshCounting bank_release) events)
    {c : MemoryController (Nat → Nat) κ} {os : List Unit}
    (ran : Lib.Machine.run (step setup parts) (create setup parts refreshCounting bank_release)
      events = some (c, os)) (bank : Nat) :
    CasLegal c.commandScheduler.memoryDevice.commandTrace bank ∧
      (c.commandScheduler.future bank).getLast?.map (·.row) = c.requestScheduler.bankTable 0 bank := by
  have inv : Inv c := Lib.Machine.run_invariant_along Inv
    (fun inv h drains => step_inv medusa uses inv h drains)
    (inv_create medusa noRefresh uses refreshCounting bank_release) drains ran
  have legal : BankLegal c.commandScheduler.memoryDevice.commandTrace bank :=
    ((rowBuffer.accepts_append ..).mp (inv.agrees bank).1).1
  exact ⟨legal.casLegal, inv.last bank⟩

/-- A read and four writes of one row: the write that is drained is a row hit. -/
def writeHitRun : List Event :=
  [.addRequest 1 0 true 64, .update (fun _ => true) fun _ => true] ++
    List.replicate 4 (.addRequest 1 0 false 64) ++
    List.replicate 30 (.update (fun _ => true) fun _ => true)

/-- The law at a run that drains a row hit. -/
theorem medusa_casLegal_writeHit : ∃ c os,
    Lib.Machine.run (step medusaSetup medusaIni) (create medusaSetup medusaIni 0 0) writeHitRun =
        some (c, os) ∧
      CasLegal c.commandScheduler.memoryDevice.commandTrace 1 ∧
      (c.commandScheduler.future 1).getLast?.map (·.row) = c.requestScheduler.bankTable 0 1 := by
  obtain ⟨c, os, ran, _⟩ := Lib.Machine.run_exists (step medusaSetup medusaIni)
    (fun c => c.accepted.length = 5) (create medusaSetup medusaIni 0 0) writeHitRun
    (by decide +kernel)
  have drains : Lib.Machine.Along (step medusaSetup medusaIni) (fun c e _ _ => Drains c e)
      (create medusaSetup medusaIni 0 0) writeHitRun := by
    refine Lib.Machine.along_of_check _ (fun c _ _ =>
      (c.requestScheduler.requestQueue 0).writeQueue.all fun w =>
        (drained c.requestScheduler.isRowHit w).all c.requestScheduler.isRowHit) _ _ _
      (fun c e _ check => ?_) (by decide +kernel)
    cases e with
    | addRequest => trivial
    | update =>
      intro _ w hw
      rw [Option.mem_def.mp hw] at check
      simpa using check
  exact ⟨c, os, ran, medusa_casLegal
    ⟨⟨by decide, rfl, rfl, rfl, rfl, rfl, rfl, fun _ => rfl⟩, rfl, rfl⟩ rfl
    ⟨⟨_, fun _ => rfl, rfl⟩, rfl, rfl, Fcfs.policy_sendsFronts⟩ 0 0 writeHitRun drains ran 1⟩

/-- A read, four writes of the next row, a read of the first row, and cycles in which the device takes
everything. -/
def writeMissRun : List Event :=
  [.addRequest 1 0 true 64, .update (fun _ => true) fun _ => true] ++
    List.replicate 4 (.addRequest 1 1024 false 64) ++
    [.update (fun _ => true) fun _ => true, .addRequest 1 0 true 64] ++
    List.replicate 63 (.update (fun _ => true) fun _ => true)

/-- **A drained write miss leaves the row table one row behind**: the read that follows is sent to row
0 of a bank that holds row 1. -/
theorem not_casLegal_writeMiss : ∃ c os,
    Lib.Machine.run (step medusaSetup medusaIni) (create medusaSetup medusaIni 0 0) writeMissRun =
        some (c, os) ∧
      ¬ CasLegal c.commandScheduler.memoryDevice.commandTrace 1 ∧
      c.commandScheduler.memoryDevice.commandTrace.map (fun p => (p.busPacketType, p.row)) =
        [(.ACT, 0), (.RD, 0), (.PRE, 1), (.ACT, 1), (.WR, 1), (.RD, 0)] :=
  Lib.Machine.run_exists _ _ _ _ (by decide +kernel)

end Medusa
end MCsim
