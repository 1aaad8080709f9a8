import Mathlib.Data.Prod.Lex
import Mathlib.Order.BooleanAlgebra.Basic
import MCsim.Lib.Champion
import MCsim.Requests.Parbs

/-!
# What PAR-BS selects

The comparison of `BetterRequest`, a cascade of tests for a difference, is a comparison by one key: the
lexicographic order of marked, row hit and the two loads (`priority`). So the loop of `requestSchedule`
is a tournament by that key (`Lib.Champion`), and it finds the first of the best requests.
-/

namespace MCsim
namespace Parbs

open RequestScheduler Lib.Champion

variable {s s' : RequestScheduler} {p p' : ParbsState} {requestors : Nat} {gen : Generator}

/-- The key of a request: marked first, then row hits, then the smaller largest load, then the smaller
total load. Smaller is better. -/
def priority (s : RequestScheduler) (p : ParbsState) (r : Request) : Bool ×ₗ Bool ×ₗ ℕ ×ₗ ℕ :=
  toLex (!p.marked r.handle, toLex (!s.isRowHit r,
    toLex (p.markedMaxLoadPerProc r.requestorID, p.markedTotalLoadPerProc r.requestorID)))

section

variable {α β γ : Type} [LinearOrder α] [LinearOrder β] (u v w : γ)

/-- A comparison by two keys as a test for a difference in the first one. -/
theorem ite_toLex_lt (a b : α) (x y : β) :
    (if toLex (a, x) < toLex (b, y) then u else v) =
      if a ≠ b then if a < b then u else v else if x < y then u else v := by
  by_cases same : a = b
  · subst same
    simp [Prod.Lex.toLex_lt_toLex]
  · simp [Prod.Lex.toLex_lt_toLex, same]

/-- The source's test of two flags. -/
theorem ite_not_lt (a b : Bool) :
    (if (!a) ≠ (!b) then if (!a) < (!b) then u else v else w) =
      if a ^^ b then if a then u else v else w := by
  cases a <;> cases b <;> simp

/-- The source's test of two loads. -/
theorem ite_lt_of_ne (a b : α) :
    (if a ≠ b then if a < b then u else v else w) = if a ≠ b then if a > b then v else u else w := by
  rcases lt_trichotomy a b with less | same | more
  · simp [less, less.ne, less.le]
  · simp [same]
  · simp [more, more.ne', more.le]

end

/-- The cascade compares by the key, and a tie keeps the second request. -/
theorem betterRequest_eq (x y : Request) :
    BetterRequest s p x y = if priority s p x < priority s p y then x else y := by
  have last : ∀ a b : ℕ, (if a < b then x else y) = if a ≠ b then if a > b then y else x else y := by
    intro a b
    rw [← ite_lt_of_ne]
    by_cases same : a = b <;> simp [same]
  unfold priority
  rw [ite_toLex_lt, ite_toLex_lt, ite_toLex_lt, ite_not_lt, ite_not_lt, ite_lt_of_ne, last]
  rfl

/-- The loop of `requestSchedule` is a tournament by the key. -/
theorem tournament_eq (front : Request) (rest : List Request) :
    tournament s p front rest = champion (priority s p) front rest := by
  have turn : tournamentTurn s p = challenge (priority s p) := by
    funext temp next
    unfold tournamentTurn challenge
    rw [betterRequest_eq]
    by_cases better : priority s p next.1 < priority s p temp.1
    · have other : temp.1 ≠ next.1 := fun same => absurd better (same ▸ lt_irrefl _)
      simp [better, other]
    · simp [better]
  rw [tournament, turn, champion]

/-- A request of the buffer, handed out by its position. -/
theorem getRequest_at {q : RequestQueue} {i : Nat} {r : Request} (here : q.generalBuffer[i]? = some r) :
    q.getRequest i = some (some r, { q with scheduledRequest := (false, 0, i) }) := by
  have some_request : q.generalBuffer ≠ [] := by
    rintro empty
    simp [empty] at here
  simp [RequestQueue.getRequest, some_request, here]

theorem removeRequest_at {q : RequestQueue} {i : Nat} {r : Request} (here : q.generalBuffer[i]? = some r) :
    ({ q with scheduledRequest := (false, 0, i) } : RequestQueue).removeRequest =
      some { q with scheduledRequest := (false, 0, i), generalBuffer := q.generalBuffer.eraseIdx i } :=
  if_pos (List.getElem?_eq_some_iff.mp here).1

theorem setQueue_setQueue (s : RequestScheduler) (k : Nat) (q q' : RequestQueue) :
    (s.setQueue k q).setQueue k q' = s.setQueue k q' := by
  unfold setQueue
  congr 1
  funext i
  by_cases here : i = k <;> simp [here]

/-- Serving a request that its queue handed out and can remove. -/
theorem serveOwn_handed {k : Nat} {q q' : RequestQueue} {r : Request} (removed : q.removeRequest = some q') :
    (s.setQueue k q).serveOwn gen k r =
      (s.isSchedulable gen r (s.isRowHit r)).map fun (t, accepted) =>
        if accepted then ((t.updateRowTable r.rank r.bank r.row).setQueue k q', true)
        else (t.setQueue k q, false) := by
  unfold serveOwn isSchedulable
  change Option.bind (Option.map _ (gen s.commandGenerator r (s.isRowHit r))) _ = _
  cases gen s.commandGenerator r (s.isRowHit r) with
  | none => rfl
  | some out =>
    obtain ⟨g, accepted⟩ := out
    cases accepted with
    | false => rfl
    | true =>
      have queue : ({ s.setQueue k q with commandGenerator := g } : RequestScheduler).requestQueue k = q :=
        if_pos rfl
      change Option.map _ (RequestQueue.removeRequest (RequestScheduler.requestQueue _ k)) = some _
      rw [queue, removed, Option.map_some]
      have twice := setQueue_setQueue
        (updateRowTable { s with commandGenerator := g } r.rank r.bank r.row) k q q'
      exact congrArg (fun t => some (t, true)) twice

/-- What a call does with the request it selected: it is handed to the generator as the row table calls
it, and removed if it is accepted. -/
def handsOver (gen : Generator) (s : RequestScheduler) (p : ParbsState) (i : Nat) (r : Request) :
    Option (RequestScheduler × ParbsState × List Request) :=
  let q := s.requestQueue 0
  (s.isSchedulable gen r (s.isRowHit r)).map fun (s, accepted) =>
    if accepted then
      ((s.updateRowTable r.rank r.bank r.row).setQueue 0
        { q with scheduledRequest := (false, 0, i), generalBuffer := q.generalBuffer.eraseIdx i },
        unmark p r, [r])
    else (s.setQueue 0 { q with scheduledRequest := (false, 0, i) }, p, [])

/-- A batch is formed within the load arrays. -/
theorem startBatch_defined (q : RequestQueue) (fits : p.markedCnt = 0 → requestors ≤ loadCells) :
    ∃ batch, startBatch requestors q p = some batch := by
  unfold startBatch
  split
  · next none_left => exact ⟨_, if_pos (fits none_left)⟩
  · exact ⟨p, rfl⟩

/-- A call with something waiting selects the first of the best requests and hands it over. -/
theorem requestSchedule_handsOver (gen : Generator) {batch : ParbsState}
    (started : startBatch requestors (s.requestQueue 0) p = some batch)
    (nonempty : (s.requestQueue 0).generalBuffer ≠ []) :
    ∃ i r, First (priority s batch) (s.requestQueue 0).generalBuffer i r ∧
      requestSchedule requestors gen () s p = handsOver gen s batch i r := by
  unfold requestSchedule
  rw [started, Option.bind_some]
  split
  · next empty => exact absurd empty nonempty
  · next front rest buffer =>
    have first : First (priority s batch) (s.requestQueue 0).generalBuffer
        (tournament s batch front rest).2 (tournament s batch front rest).1 := by
      rw [tournament_eq, buffer]
      exact champion_first front rest
    refine ⟨_, _, first, ?_⟩
    rw [getRequest_at first.here]
    dsimp only [Option.bind_some]
    rw [serveOwn_handed (removeRequest_at first.here)]
    unfold handsOver
    cases s.isSchedulable gen (tournament s batch front rest).1
      (s.isRowHit (tournament s batch front rest).1) with
    | none => rfl
    | some out =>
      obtain ⟨t, accepted⟩ := out
      cases accepted <;> rfl

/-- **PAR-BS selects the best request**, the nearest to the front of them, hands it to the generator,
and removes that request if it is accepted. -/
theorem parbs_best (requestors : Nat) (gen : Generator) (s : RequestScheduler) (p : ParbsState)
    (fits : p.markedCnt = 0 → requestors ≤ loadCells)
    (nonempty : (s.requestQueue 0).generalBuffer ≠ []) :
    ∃ batch i r, startBatch requestors (s.requestQueue 0) p = some batch ∧
      First (priority s batch) (s.requestQueue 0).generalBuffer i r ∧
      requestSchedule requestors gen () s p = handsOver gen s batch i r := by
  obtain ⟨batch, started⟩ := startBatch_defined (s.requestQueue 0) fits
  obtain ⟨i, r, first, handed⟩ := requestSchedule_handsOver gen started nonempty
  exact ⟨batch, i, r, started, first, handed⟩

/-- The law at two reads, of which the marked one is selected ahead of the row hit in front of it. -/
theorem parbs_best_marked : ∃ batch i r,
    startBatch 2 ((withReads [rowRead 0 0, { rowRead 1 5 with handle := 1 }]).requestQueue 0)
        { markedCnt := 1, marked := fun h => h == 1, markedMaxLoadPerProc := fun _ => 0,
          markedTotalLoadPerProc := fun _ => 0 } = some batch ∧
      First (priority (withReads [rowRead 0 0, { rowRead 1 5 with handle := 1 }]) batch)
        [rowRead 0 0, { rowRead 1 5 with handle := 1 }] i r ∧
      requestSchedule 2 openGenerator () (withReads [rowRead 0 0, { rowRead 1 5 with handle := 1 }])
          { markedCnt := 1, marked := fun h => h == 1, markedMaxLoadPerProc := fun _ => 0,
            markedTotalLoadPerProc := fun _ => 0 } =
        handsOver openGenerator (withReads [rowRead 0 0, { rowRead 1 5 with handle := 1 }]) batch i r :=
  parbs_best 2 openGenerator _ _ nofun (List.cons_ne_nil _ _)

end Parbs
end MCsim
