import MCsim.Requests.Bliss
import MCsim.Lib.Erase

/-!
# What BLISS selects

`scheduleBLISS` is meant to select by three criteria in turn: a request of a requestor that is not
blacklisted, a row hit, an old one (`Prioritised`). Its scan stops at the first request whose status is
not that of the front, whichever of the two is blacklisted, or, where the front is no row hit and the
locals start false, at the first row hit (`stops`). So a request behind the stop is never considered,
and a front that is not blacklisted loses to the first blacklisted request.

`Ranks` says of the buffer, and of what the locals start with, when the request selected is the one
meant; `bliss_priority` is the equivalence.
-/

namespace MCsim
namespace Bliss

open RequestScheduler

section

variable (blacklist : Nat → Int) (hit : Request → Bool)

/-- What BLISS is meant to select: not blacklisted if there is such a request, of that status a row hit
if there is one, and of those the nearest to the front. -/
structure Prioritised (l : List Request) (i : Nat) (r : Request) : Prop where
  here : l[i]? = some r
  status : (∃ x ∈ l, allowed blacklist x = true) → allowed blacklist r = true
  row : (∃ x ∈ l, allowed blacklist x = allowed blacklist r ∧ hit x = true) → hit r = true
  nearest : ∀ j < i, ∀ x, l[j]? = some x →
    ¬ (allowed blacklist x = allowed blacklist r ∧ hit x = hit r)

/-- The scan stops at a request whose status is not the front's, and where it compares rows also at a
row hit. -/
def stops (comparing : Bool) (front x : Request) : Bool :=
  (allowed blacklist front ^^ allowed blacklist x) || (comparing && hit x)

/-- The scan compares rows: the front is no row hit, and `hit_1` did not start true. -/
def comparing (left : Uninitialized) (front : Request) : Bool := !(left.hit_1 || hit front)

/-- The scan ends with the front at once: it is no row hit, and only one of the locals starts true. -/
def Stuck (left : Uninitialized) (front : Request) : Prop :=
  hit front = false ∧ left.hit_1 ≠ left.hit_2

instance (left : Uninitialized) (front : Request) : Decidable (Stuck hit left front) :=
  inferInstanceAs (Decidable (_ ∧ _))

/-- When the request that the scan ends with is the one meant. -/
def Ranks (left : Uninitialized) (front : Request) (l : List Request) : Prop :=
  if Stuck hit left front then
    (allowed blacklist front = true ∨ ∀ x ∈ l, allowed blacklist x = false) ∧
      ∀ x ∈ l, allowed blacklist x = allowed blacklist front → hit x = false
  else match l.find? (stops blacklist hit (comparing hit left front) front) with
    | none => hit front = true ∨ ∀ x ∈ l, hit x = false
    | some stop =>
      if allowed blacklist stop = allowed blacklist front then
        allowed blacklist front = true ∨ ∀ x ∈ l, allowed blacklist x = false
      else allowed blacklist stop = true ∧
        (hit stop = true ∨ ∀ x ∈ l, allowed blacklist x = true → hit x = false)

instance (left : Uninitialized) (front : Request) (l : List Request) :
    Decidable (Ranks blacklist hit left front l) := by
  unfold Ranks
  split
  · infer_instance
  · split <;> infer_instance

end

variable {blacklist : Nat → Int} {hit : Request → Bool} {front : Request} {l : List Request}

/-! ## The scan -/

/-- A turn of the scan where both locals are alike. -/
theorem scan_cons {both : Bool} (settled : both = true ∨ hit front = false) (x : Request)
    (rest : List Request) (index : Nat) :
    scan blacklist hit front (x :: rest) index both both =
      if stops blacklist hit (!both) front x then index
      else scan blacklist hit front rest (index + 1) both both := by
  have kept : (both || hit front) = both := by
    rcases settled with rfl | miss
    · rfl
    · rw [miss, Bool.or_false]
  rw [scan, kept]
  unfold stops
  cases allowed blacklist front ^^ allowed blacklist x with
  | true => simp
  | false => cases both <;> cases hit x <;> simp

/-- Past the front, where both locals are alike: the scan ends with the first request it stops at, or
with the front. -/
theorem scan_rest {both : Bool} (settled : both = true ∨ hit front = false) (rest : List Request)
    (index : Nat) :
    scan blacklist hit front rest index both both =
      (rest.findIdx? (stops blacklist hit (!both) front)).elim 0 (index + ·) := by
  induction rest generalizing index with
  | nil => rfl
  | cons x rest ih =>
    rw [scan_cons settled, List.findIdx?_cons]
    split
    · rfl
    · rw [ih]
      cases rest.findIdx? (stops blacklist hit (!both) front) with
      | none => rfl
      | some k => simp [Nat.add_assoc, Nat.add_comm 1 k]

/-- **The scan**: it ends with the front, or with the first request it stops at. -/
theorem scan_eq (left : Uninitialized) (front : Request) (rest : List Request) :
    scan blacklist hit front (front :: rest) 0 left.hit_1 left.hit_2 =
      if Stuck hit left front then 0
      else ((front :: rest).findIdx? (stops blacklist hit (comparing hit left front) front)).getD 0 := by
  rw [scan, Bool.xor_self, if_neg Bool.false_ne_true]
  by_cases stuck : Stuck hit left front
  · rw [if_pos stuck]
    obtain ⟨miss, apart⟩ := stuck
    simp [miss, apart]
  · rw [if_neg stuck]
    have alike : (left.hit_2 || hit front) = (left.hit_1 || hit front) := by
      cases miss : hit front with
      | true => simp
      | false =>
        by_contra apart
        exact stuck ⟨miss, fun same => apart (by rw [same])⟩
    have settled : (left.hit_1 || hit front) = true ∨ hit front = false := by
      cases hit front <;> simp
    have passes : stops blacklist hit (comparing hit left front) front front = false := by
      unfold stops comparing
      cases hit front <;> simp
    dsimp only
    rw [alike, Bool.xor_self, if_neg Bool.false_ne_true, scan_rest settled, List.findIdx?_cons,
      if_neg (by simp [passes])]
    change Option.elim (rest.findIdx? (stops blacklist hit (comparing hit left front) front)) _ _ = _
    cases rest.findIdx? (stops blacklist hit (comparing hit left front) front) with
    | none => rfl
    | some k => simp [Nat.add_comm 1 k]

/-! ## The criteria -/

/-- The front, where every request has its status. -/
theorem prioritised_front (cons : l.head? = some front)
    (alike : ∀ x ∈ l, allowed blacklist x = allowed blacklist front) :
    Prioritised blacklist hit l 0 front ↔ (hit front = true ∨ ∀ x ∈ l, hit x = false) := by
  have here : l[0]? = some front := by rw [← List.head?_eq_getElem?, cons]
  constructor
  · intro priority
    rcases Bool.eq_false_or_eq_true (hit front) with hits | miss
    · exact .inl hits
    · refine .inr fun x hx => ?_
      by_contra hits
      have row := priority.row ⟨x, hx, alike x hx, eq_true_of_ne_false hits⟩
      rw [miss] at row
      cases row
  · intro good
    refine ⟨here, fun ⟨x, hx, free⟩ => alike x hx ▸ free, fun ⟨x, hx, _, hits⟩ => ?_,
      fun j hj => absurd hj (Nat.not_lt_zero j)⟩
    rcases good with hits' | misses
    · exact hits'
    · rw [misses x hx] at hits
      cases hits

/-- The front, where it is no row hit. -/
theorem prioritised_missing (cons : l.head? = some front) (miss : hit front = false) :
    Prioritised blacklist hit l 0 front ↔
      (allowed blacklist front = true ∨ ∀ x ∈ l, allowed blacklist x = false) ∧
        ∀ x ∈ l, allowed blacklist x = allowed blacklist front → hit x = false := by
  have here : l[0]? = some front := by rw [← List.head?_eq_getElem?, cons]
  constructor
  · intro priority
    refine ⟨?_, fun x hx same => ?_⟩
    · by_contra neither
      obtain ⟨banned, some_free⟩ := not_or.mp neither
      refine banned (priority.status ?_)
      by_contra none_free
      exact some_free fun x hx => eq_false_of_ne_true fun free => none_free ⟨x, hx, free⟩
    · by_contra hits
      have row := priority.row ⟨x, hx, same, eq_true_of_ne_false hits⟩
      rw [miss] at row
      cases row
  · rintro ⟨status, misses⟩
    refine ⟨here, fun ⟨x, hx, free⟩ => ?_, fun ⟨x, hx, same, hits⟩ => ?_,
      fun j hj => absurd hj (Nat.not_lt_zero j)⟩
    · rcases status with free' | banned
      · exact free'
      · rw [banned x hx] at free
        cases free
    · rw [misses x hx same] at hits
      cases hits

/-- The first request the scan stops at. -/
theorem prioritised_stop {compares : Bool} {i : Nat} {stop : Request} (cons : l.head? = some front)
    (here : l[i]? = some stop) (stopped : stops blacklist hit compares front stop = true)
    (before : ∀ j x, j < i → l[j]? = some x → stops blacklist hit compares front x = false) :
    Prioritised blacklist hit l i stop ↔
      if allowed blacklist stop = allowed blacklist front then
        allowed blacklist front = true ∨ ∀ x ∈ l, allowed blacklist x = false
      else allowed blacklist stop = true ∧
        (hit stop = true ∨ ∀ x ∈ l, allowed blacklist x = true → hit x = false) := by
  have front_mem : front ∈ l := List.mem_of_mem_head? cons
  -- what stands before the stop has the front's status
  have alike : ∀ j x, j < i → l[j]? = some x → allowed blacklist x = allowed blacklist front := by
    intro j x hj hx
    have passed := (Bool.or_eq_false_iff.mp (before j x hj hx)).1
    cases h : allowed blacklist front <;> cases h' : allowed blacklist x <;> simp_all
  split
  · next same =>
    have hits : compares = true ∧ hit stop = true := by
      simpa [stops, same] using stopped
    have misses : ∀ j x, j < i → l[j]? = some x → hit x = false := by
      intro j x hj hx
      simpa [hits.1] using (Bool.or_eq_false_iff.mp (before j x hj hx)).2
    constructor
    · intro priority
      by_contra neither
      obtain ⟨banned, some_free⟩ := not_or.mp neither
      refine banned (same ▸ priority.status ?_)
      by_contra none_free
      exact some_free fun x hx => eq_false_of_ne_true fun free => none_free ⟨x, hx, free⟩
    · intro status
      refine ⟨here, fun ⟨x, hx, free⟩ => ?_, fun _ => hits.2, fun j hj x hx both => ?_⟩
      · rcases status with free' | banned
        · exact same.trans free'
        · rw [banned x hx] at free
          cases free
      · rw [misses j x hj hx, hits.2] at both
        cases both.2
  · next differs =>
    have first : ∀ j < i, ∀ x, l[j]? = some x →
        ¬ (allowed blacklist x = allowed blacklist stop ∧ hit x = hit stop) := by
      intro j hj x hx both
      exact differs (both.1.symm.trans (alike j x hj hx))
    constructor
    · intro priority
      have free : allowed blacklist stop = true := by
        by_contra banned
        have front_free : allowed blacklist front = true := by
          cases h : allowed blacklist front with
          | true => rfl
          | false => exact absurd ((eq_false_of_ne_true banned).trans h.symm) differs
        exact banned (priority.status ⟨front, front_mem, front_free⟩)
      refine ⟨free, ?_⟩
      by_contra neither
      obtain ⟨miss, some_hit⟩ := not_or.mp neither
      apply some_hit
      intro x hx free'
      by_contra hits
      exact miss (priority.row ⟨x, hx, free'.trans free.symm, eq_true_of_ne_false hits⟩)
    · rintro ⟨free, row⟩
      refine ⟨here, fun _ => free, fun ⟨x, hx, same, hits⟩ => ?_, first⟩
      rcases row with hits' | misses
      · exact hits'
      · rw [misses x hx (same.trans free)] at hits
        cases hits

/-- **What the scan ends with is the request meant exactly if the buffer ranks.** -/
theorem prioritised_scan (left : Uninitialized) {rest : List Request} {i : Nat} {r : Request}
    (found : scan blacklist hit front (front :: rest) 0 left.hit_1 left.hit_2 = i)
    (here : (front :: rest)[i]? = some r) :
    Prioritised blacklist hit (front :: rest) i r ↔ Ranks blacklist hit left front (front :: rest) := by
  rw [scan_eq] at found
  unfold Ranks
  split at found
  · next stuck =>
    subst found
    obtain rfl : front = r := by simpa using here
    rw [if_pos stuck]
    exact prioritised_missing rfl stuck.1
  · next free =>
    rw [if_neg free]
    cases stop_at : (front :: rest).findIdx? (stops blacklist hit (comparing hit left front) front) with
    | none =>
      rw [stop_at] at found
      obtain rfl : 0 = i := found
      obtain rfl : front = r := by simpa using here
      have passes := List.findIdx?_eq_none_iff.mp stop_at
      rw [List.find?_eq_none.mpr fun x hx => by simp [passes x hx]]
      apply prioritised_front rfl
      intro x hx
      have passed := (Bool.or_eq_false_iff.mp (passes x hx)).1
      cases h : allowed blacklist front <;> cases h' : allowed blacklist x <;> simp_all
    | some k =>
      rw [stop_at] at found
      obtain rfl : k = i := found
      obtain ⟨stop, at_, stopped, before⟩ := Lib.findIdx_eq_some_first stop_at
      obtain rfl : stop = r := by
        rw [at_] at here
        exact Option.some.inj here
      have first : (front :: rest).find? (stops blacklist hit (comparing hit left front) front) =
          some stop := by
        rw [List.find?_eq_some_iff_getElem]
        obtain ⟨bound, at_k⟩ := List.getElem?_eq_some_iff.mp at_
        refine ⟨stopped, k, bound, at_k, fun j hj => ?_⟩
        have passed := before j _ hj (List.getElem?_eq_getElem (Nat.lt_trans hj bound))
        simp [passed]
      rw [first]
      exact prioritised_stop rfl at_ stopped before

/-- The scan ends within the buffer. -/
theorem scan_lt (left : Uninitialized) (front : Request) (rest : List Request) :
    scan blacklist hit front (front :: rest) 0 left.hit_1 left.hit_2 < (front :: rest).length := by
  rw [scan_eq]
  split
  · exact Nat.succ_pos _
  · cases stop_at : (front :: rest).findIdx? (stops blacklist hit (comparing hit left front) front) with
    | none => exact Nat.succ_pos _
    | some k => exact (List.findIdx?_eq_some_iff_getElem.mp stop_at).1

/-- **BLISS**: a request of the buffer is selected, it is the one that `removeRequest` then removes, and
it is the one meant exactly if the buffer ranks. -/
theorem bliss_priority (blacklist : Nat → Int) (left : Uninitialized) (s : RequestScheduler)
    (qIndex : Nat) {front : Request} {rest : List Request}
    (buffer : (s.requestQueue qIndex).generalBuffer = front :: rest) :
    ∃ i r q, scheduleBLISS blacklist left s qIndex = some (some r, q) ∧
      (s.requestQueue qIndex).generalBuffer[i]? = some r ∧
      q.removeRequest.map (·.generalBuffer) =
        some ((s.requestQueue qIndex).generalBuffer.eraseIdx i) ∧
      (Prioritised blacklist s.isRowHit (s.requestQueue qIndex).generalBuffer i r ↔
        Ranks blacklist s.isRowHit left front (s.requestQueue qIndex).generalBuffer) := by
  have bound : scan blacklist s.isRowHit front (front :: rest) 0 left.hit_1 left.hit_2 <
      (front :: rest).length := scan_lt left front rest
  have here := List.getElem?_eq_getElem bound
  generalize found : scan blacklist s.isRowHit front (front :: rest) 0 left.hit_1 left.hit_2 = i
    at bound here
  refine ⟨i, (front :: rest)[i],
    { s.requestQueue qIndex with scheduledRequest := (false, 0, i) }, ?_, ?_, ?_, ?_⟩
  · simp [scheduleBLISS, buffer, found, RequestQueue.getRequest, here]
  · rw [buffer]
    exact here
  · have inside : i < (s.requestQueue qIndex).generalBuffer.length := buffer ▸ bound
    simp [RequestQueue.removeRequest, inside]
  · rw [buffer]
    exact prioritised_scan left found here

/-! ## Two buffers -/

/-- Requestor 1 is blacklisted. -/
def onlyOne (id : Nat) : Int := if id = 1 then 1 else 0

/-- The law at a blacklisted miss in front of a row hit, which is selected. -/
theorem bliss_priority_hitBehind : ∃ i r q,
    scheduleBLISS onlyOne ⟨false, false⟩ (withReads [rowRead 1 5, rowRead 0 0]) 0 = some (some r, q) ∧
      Prioritised onlyOne (withReads [rowRead 1 5, rowRead 0 0]).isRowHit [rowRead 1 5, rowRead 0 0]
        i r := by
  obtain ⟨i, r, q, selected, _, _, priority⟩ := bliss_priority onlyOne ⟨false, false⟩
    (withReads [rowRead 1 5, rowRead 0 0]) 0 rfl
  exact ⟨i, r, q, selected, priority.mpr (by decide)⟩

/-- A row hit of requestor 0 in front of a blacklisted read: whatever the locals start with, the
blacklisted read is selected. -/
theorem bliss_priority_hitInFront :
    (withReads [rowRead 0 0, rowRead 1 5]).isRowHit (rowRead 0 0) = true ∧
    allowed onlyOne (rowRead 0 0) = true ∧ allowed onlyOne (rowRead 1 5) = false ∧
    ∀ left : Uninitialized, ∃ q,
      scheduleBLISS onlyOne left (withReads [rowRead 0 0, rowRead 1 5]) 0 = some (some (rowRead 1 5), q) ∧
      ∀ i, ¬ Prioritised onlyOne (withReads [rowRead 0 0, rowRead 1 5]).isRowHit
        [rowRead 0 0, rowRead 1 5] i (rowRead 1 5) := by
  refine ⟨rfl, rfl, rfl, fun left => ⟨{ (withReads [rowRead 0 0, rowRead 1 5]).requestQueue 0 with
    scheduledRequest := (false, 0, 1) }, ?_, fun i priority => ?_⟩⟩
  · rcases left with ⟨_ | _, _ | _⟩ <;> rfl
  · have status := priority.status ⟨rowRead 0 0, List.mem_cons_self, rfl⟩
    cases status

end Bliss
end MCsim
