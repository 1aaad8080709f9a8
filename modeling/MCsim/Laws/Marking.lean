import Mathlib.Data.List.Nodup
import Mathlib.Data.List.Sort
import Mathlib.Logic.Function.Iterate
import MCsim.Laws.Parbs

/-!
# The batches of PAR-BS

`form_batch` is meant to mark, for every requestor and bank, the `MarkingCap` oldest requests, and
`markedCnt` to count the marked requests that wait. The nomination does not know what is marked already,
so the loop nominates one request `MarkingCap` times and then leaves the banks that follow: a requestor
with anything waiting gets one mark and five counts (`form_batch_eq`).

So the count is wrong after the first call that finds a request, and the marks are right exactly where no
requestor has two requests (`parbs_batches`).
-/

namespace MCsim
namespace Parbs

open RequestScheduler

variable {q : RequestQueue} {p p' : ParbsState} {proc b requestors : Nat}

/-! ## What the loops mark -/

/-- The requests of a requestor to a bank. -/
def requestsOf (q : RequestQueue) (proc b : Nat) : List Request :=
  q.generalBuffer.filter fun r => r.bank == b && r.requestorID == proc

/-- What is nominated for a bank is a request of the requestor to it. -/
theorem earliest_mem {r : Request} (h : q.earliestperBankperReq proc b = some r) :
    r ∈ requestsOf q proc b := by
  obtain ⟨first, head, rfl⟩ := Option.map_eq_some_iff.mp h
  refine List.foldlRecOn (motive := (· ∈ requestsOf q proc b)) _ _ (List.mem_of_mem_head? head)
    fun temp there r hr => ?_
  split
  · exact hr
  · exact there

/-- The only request that is nominated for a requestor. -/
def nominee (q : RequestQueue) (proc : Nat) : Option Request :=
  (List.range localBcount).findSome? (q.earliestperBankperReq proc)

theorem nominee_mem {r : Request} (h : nominee q proc = some r) :
    r ∈ q.generalBuffer ∧ r.requestorID = proc := by
  obtain ⟨b, _, earliest⟩ := List.exists_of_findSome?_eq_some h
  obtain ⟨mem, own⟩ := List.mem_filter.mp (earliest_mem earliest)
  exact ⟨mem, by simpa using (Bool.and_eq_true_iff.mp own).2⟩

/-- A requestor with a request that waits has one nominated. -/
theorem nominee_isSome {r : Request} (mem : r ∈ q.generalBuffer) (bank : r.bank < localBcount) :
    (nominee q r.requestorID).isSome = true := by
  refine List.findSome?_isSome_iff.mpr ⟨r.bank, List.mem_range.mpr bank, ?_⟩
  have mine : r ∈ requestsOf q r.requestorID r.bank := List.mem_filter.mpr ⟨mem, by simp⟩
  unfold RequestQueue.earliestperBankperReq
  rw [Option.isSome_map]
  exact List.isSome_head?.mpr (List.ne_nil_of_mem mine)

/-- A request nominated a number of times. -/
def nominateTimes (proc b : Nat) (r : Request) (k : Nat) (p : ParbsState) : ParbsState :=
  (fun p => nominate p proc b r)^[k] p

/-- What nominating it again and again does to the count, the marks and the queues. -/
theorem nominateTimes_spec (r : Request) (k : Nat) (p : ParbsState) :
    (nominateTimes proc b r (k + 1) p).markedCnt = (p.markedCnt + (k + 1)) % 2 ^ 32 ∧
      (nominateTimes proc b r (k + 1) p).marked = assign p.marked r.handle true ∧
      ∀ other, other ≠ proc →
        (nominateTimes proc b r (k + 1) p).MarkableQ other = p.MarkableQ other := by
  induction k generalizing p with
  | zero =>
    refine ⟨rfl, rfl, fun other apart => ?_⟩
    simp [nominateTimes, nominate, assign, apart]
  | succ k ih =>
    obtain ⟨count, marked, queues⟩ := ih (nominate p proc b r)
    refine ⟨?_, ?_, fun other apart => ?_⟩
    · change (nominateTimes proc b r (k + 1) (nominate p proc b r)).markedCnt = _
      rw [count]
      simp only [nominate]
      omega
    · change (nominateTimes proc b r (k + 1) (nominate p proc b r)).marked = _
      rw [marked]
      funext h
      simp only [nominate, assign]
      split <;> rfl
    · change (nominateTimes proc b r (k + 1) (nominate p proc b r)).MarkableQ other = _
      rw [queues other apart]
      simp [nominate, assign, apart]

/-- The turns at a bank that has a request: it is nominated up to the cap, and the loop is left. -/
theorem bankTurns_some {r : Request} (h : q.earliestperBankperReq proc b = some r) {turns : Nat}
    (enough : MarkingCap - (p.MarkableQ proc b).length < turns)
    (below : (p.MarkableQ proc b).length ≤ MarkingCap) :
    bankTurns q proc b turns p =
      (nominateTimes proc b r (MarkingCap - (p.MarkableQ proc b).length) p, true) := by
  induction turns generalizing p with
  | zero => omega
  | succ turns ih =>
    unfold bankTurns
    split
    · next full => simp [full, nominateTimes]
    · next room =>
      have less : (p.MarkableQ proc b).length < MarkingCap := by omega
      have longer : ((nominate p proc b r).MarkableQ proc b).length = (p.MarkableQ proc b).length + 1 := by
        simp [nominate, assign]
      rw [if_pos less, h]
      dsimp only
      rw [ih (by omega) (by omega), longer]
      have one : MarkingCap - (p.MarkableQ proc b).length =
          MarkingCap - ((p.MarkableQ proc b).length + 1) + 1 := by omega
      rw [one]
      rfl

theorem bankTurns_none (h : q.earliestperBankperReq proc b = none)
    (empty : p.MarkableQ proc b = []) (turns : Nat) : bankTurns q proc b turns p = (p, false) := by
  cases turns with
  | zero => rfl
  | succ turns => simp [bankTurns, empty, MarkingCap, h]

/-- What the loop over the banks does for one requestor: nothing, or its nominee is marked once and
counted up to the cap. -/
structure Nominates (nominee : Option Request) (proc : Nat) (p p' : ParbsState) : Prop where
  count : p'.markedCnt = (p.markedCnt + nominee.elim 0 fun _ => MarkingCap) % 2 ^ 32
  marked : p'.marked = nominee.elim p.marked fun r => assign p.marked r.handle true
  queues : ∀ other, other ≠ proc → p'.MarkableQ other = p.MarkableQ other

theorem bankLoop_nominates (banks : List Nat) (small : p.markedCnt < 2 ^ 32)
    (empty : ∀ b ∈ banks, p.MarkableQ proc b = []) :
    Nominates (banks.findSome? (q.earliestperBankperReq proc)) proc p (bankLoop q proc banks p) := by
  induction banks with
  | nil => exact ⟨(Nat.mod_eq_of_lt small).symm, rfl, fun _ _ => rfl⟩
  | cons b banks ih =>
    have here := empty b List.mem_cons_self
    rw [bankLoop, List.findSome?_cons]
    cases found : q.earliestperBankperReq proc b with
    | none =>
      rw [bankTurns_none found here]
      exact ih fun b' hb => empty b' (List.mem_cons_of_mem b hb)
    | some r =>
      rw [bankTurns_some found (by simp [here]) (by simp [here])]
      simp only [here, List.length_nil, Nat.sub_zero]
      obtain ⟨count, marked, queues⟩ := nominateTimes_spec r (MarkingCap - 1) p
      exact ⟨count, marked, queues⟩

/-- The requests nominated for the first requestors. -/
def nominees (q : RequestQueue) (n : Nat) : List Request := (List.range n).filterMap (nominee q)

theorem nominees_succ (q : RequestQueue) (n : Nat) :
    nominees q (n + 1) = nominees q n ++ (nominee q n).toList := by
  unfold nominees
  rw [List.range_succ, List.filterMap_append]
  cases h : nominee q n <;> simp [h]

/-- What a batch is for the first requestors: each nominee is marked once and counted up to the cap. -/
structure Forms (q : RequestQueue) (n : Nat) (p p' : ParbsState) : Prop where
  count : p'.markedCnt = (p.markedCnt + MarkingCap * (nominees q n).length) % 2 ^ 32
  marked : ∀ h, p'.marked h = true ↔ p.marked h = true ∨ ∃ r ∈ nominees q n, r.handle = h
  queues : ∀ other ≥ n, p'.MarkableQ other = p.MarkableQ other

theorem foldl_bankLoop_forms (n : Nat) (small : p.markedCnt < 2 ^ 32)
    (empty : ∀ proc, ∀ b ∈ List.range localBcount, proc < n → p.MarkableQ proc b = []) :
    Forms q n p ((List.range n).foldl (fun p proc => bankLoop q proc (List.range localBcount) p) p) := by
  induction n with
  | zero => exact ⟨(Nat.mod_eq_of_lt small).symm, by simp [nominees], fun _ _ => rfl⟩
  | succ n ih =>
    obtain ⟨count, marked, queues⟩ := ih fun proc b hb below => empty proc b hb (by omega)
    rw [List.range_succ, List.foldl_append, List.foldl_cons, List.foldl_nil]
    generalize (List.range n).foldl _ p = mid at count marked queues
    have turn : Nominates (nominee q n) n mid (bankLoop q n (List.range localBcount) mid) :=
      bankLoop_nominates _ (count ▸ Nat.mod_lt _ (by decide)) fun b hb => by
        rw [queues n (Nat.le_refl n)]
        exact empty n b hb (Nat.lt_succ_self n)
    refine ⟨?_, fun h => ?_, fun other later => ?_⟩
    · rw [turn.count, count, nominees_succ, List.length_append]
      cases nominee q n with
      | none => simp
      | some r =>
        simp only [Option.elim_some, Option.toList_some, List.length_singleton, Nat.mul_add]
        omega
    · rw [turn.marked, nominees_succ]
      cases nominee q n with
      | none => simpa using marked h
      | some r =>
        have before := marked h
        simp only [Option.elim_some, assign, Option.toList_some, List.mem_append, List.mem_singleton]
        by_cases same : h = r.handle
        · subst same
          simp
        · rw [if_neg same, before]
          constructor
          · rintro (old | ⟨x, hx, eq⟩)
            · exact .inl old
            · exact .inr ⟨x, .inl hx, eq⟩
          · rintro (old | ⟨x, hx | rfl, eq⟩)
            · exact .inl old
            · exact .inr ⟨x, hx, eq⟩
            · exact absurd eq.symm same
    · rw [turn.queues other (by omega)]
      exact queues other (by omega)

/-- **A batch**: each requestor with anything waiting gets one mark and counts up to the cap. -/
theorem form_batch_forms {batch : ParbsState} (formed : form_batch requestors q p = some batch)
    (small : p.markedCnt < 2 ^ 32) : requestors ≤ loadCells ∧ Forms q requestors p batch := by
  unfold form_batch at formed
  split at formed
  · next fits =>
    obtain rfl := Option.some.inj formed
    have forms : Forms q requestors (clear requestors p) _ :=
      foldl_bankLoop_forms requestors small fun proc b hb below => by
        simp [clear, below, List.mem_range.mp hb]
    refine ⟨fits, forms.count, forms.marked, fun other later => ?_⟩
    rw [forms.queues other later]
    funext b
    simp [clear, Nat.not_lt.mpr later]
  · cases formed

/-! ## The marks -/

/-- The requests of a requestor to a bank that a batch is meant to mark. -/
def oldest (q : RequestQueue) (proc b : Nat) : List Request :=
  ((requestsOf q proc b).mergeSort fun x y => x.arriveTime ≤ y.arriveTime).take MarkingCap

/-- A batch adds the marks it is meant to add, and no other. -/
def MarksOldest (q : RequestQueue) (p batch : ParbsState) : Prop :=
  ∀ r ∈ q.generalBuffer, batch.marked r.handle = true ↔
    p.marked r.handle = true ∨ ∃ x ∈ oldest q r.requestorID r.bank, x.handle = r.handle

/-- The requests that wait are distinct objects, of requestors and banks that exist. -/
structure Distinct (requestors : Nat) (q : RequestQueue) : Prop where
  handles : (q.generalBuffer.map Request.handle).Nodup
  known : ∀ r ∈ q.generalBuffer, r.requestorID < requestors ∧ r.bank < localBcount

variable {batch : ParbsState}

/-- A request that waits and has the handle of another is that one. -/
theorem Distinct.eq_of_handle (distinct : Distinct requestors q) {x y : Request}
    (hx : x ∈ q.generalBuffer) (hy : y ∈ q.generalBuffer) (same : x.handle = y.handle) : x = y :=
  List.inj_on_of_nodup_map distinct.handles hx hy same

/-- Where nothing was marked, a request is marked exactly if it is its requestor's nominee. -/
theorem Forms.marked_iff (forms : Forms q requestors p batch) (clean : ∀ h, p.marked h = false)
    (distinct : Distinct requestors q) {r : Request} (mem : r ∈ q.generalBuffer) :
    batch.marked r.handle = true ↔ nominee q r.requestorID = some r := by
  rw [forms.marked, clean]
  constructor
  · rintro (old | ⟨x, hx, same⟩)
    · cases old
    · obtain ⟨proc, _, nominated⟩ := List.mem_filterMap.mp hx
      obtain ⟨there, own⟩ := nominee_mem nominated
      obtain rfl := distinct.eq_of_handle there mem same
      rw [own, nominated]
  · intro nominated
    refine .inr ⟨r, List.mem_filterMap.mpr ⟨r.requestorID, ?_, nominated⟩, rfl⟩
    exact List.mem_range.mpr (distinct.known r mem).1

theorem mem_oldest {proc b : Nat} {x : Request} (h : x ∈ oldest q proc b) :
    x ∈ q.generalBuffer ∧ x.requestorID = proc ∧ x.bank = b := by
  obtain ⟨mem, own⟩ := List.mem_filter.mp (List.mem_mergeSort.mp (List.mem_of_mem_take h))
  obtain ⟨bank, id⟩ := Bool.and_eq_true_iff.mp own
  exact ⟨mem, by simpa using id, by simpa using bank⟩

theorem length_oldest (q : RequestQueue) (proc b : Nat) :
    (oldest q proc b).length = min MarkingCap (requestsOf q proc b).length := by
  rw [oldest, List.length_take, List.length_mergeSort]

theorem exists_oldest {proc b : Nat} {x : Request} (h : x ∈ requestsOf q proc b) :
    ∃ z, z ∈ oldest q proc b := by
  apply List.exists_mem_of_length_pos
  rw [length_oldest]
  exact Nat.lt_min.mpr ⟨by decide, List.length_pos_of_mem h⟩

theorem Distinct.nodup_oldest (distinct : Distinct requestors q) (proc b : Nat) :
    (oldest q proc b).Nodup := by
  have buffer : q.generalBuffer.Nodup := distinct.handles.of_map
  have sorted := ((requestsOf q proc b).mergeSort_perm fun x y => x.arriveTime ≤ y.arriveTime).nodup_iff
  exact (sorted.mpr (buffer.filter _)).sublist (List.take_sublist _ _)

/-- A requestor with two requests has one that is meant to be marked and is not a given one. -/
theorem oldest_other (distinct : Distinct requestors q) {x y : Request} (hx : x ∈ q.generalBuffer)
    (hy : y ∈ q.generalBuffer) (own : x.requestorID = y.requestorID) (apart : x ≠ y) (r : Request) :
    ∃ b, ∃ z ∈ oldest q x.requestorID b, z ≠ r := by
  have of_x : x ∈ requestsOf q x.requestorID x.bank := List.mem_filter.mpr ⟨hx, by simp⟩
  have of_y : y ∈ requestsOf q x.requestorID y.bank := List.mem_filter.mpr ⟨hy, by simp [own]⟩
  by_cases bank : x.bank = y.bank
  · -- both are to one bank, whose marks are two or more
    rw [← bank] at of_y
    have two : 1 < (oldest q x.requestorID x.bank).length := by
      have both : [x, y].Subperm (requestsOf q x.requestorID x.bank) :=
        List.subperm_of_subset (by simpa using apart) (by simp [of_x, of_y])
      rw [length_oldest]
      exact Nat.lt_min.mpr ⟨by decide, both.length_le⟩
    have nodup := distinct.nodup_oldest x.requestorID x.bank
    refine ⟨x.bank, ?_⟩
    by_contra all
    push Not at all
    have none_else : oldest q x.requestorID x.bank ⊆ [r] := fun z hz =>
      List.mem_singleton.mpr (all z hz)
    have short := (List.subperm_of_subset nodup none_else).length_le
    rw [List.length_singleton] at short
    omega
  · -- one of the two banks is not that of `r`
    by_cases here : x.bank = r.bank
    · obtain ⟨z, hz⟩ := exists_oldest of_y
      refine ⟨y.bank, z, hz, fun same => bank ?_⟩
      rw [here, ← same, (mem_oldest hz).2.2]
    · obtain ⟨z, hz⟩ := exists_oldest of_x
      refine ⟨x.bank, z, hz, fun same => here ?_⟩
      rw [← same, (mem_oldest hz).2.2]

/-- **The marks of a batch** are right exactly if no requestor has two requests. -/
theorem marksOldest_iff (forms : Forms q requestors p batch) (clean : ∀ h, p.marked h = false)
    (distinct : Distinct requestors q) :
    MarksOldest q p batch ↔ (q.generalBuffer.map Request.requestorID).Nodup := by
  have buffer : q.generalBuffer.Nodup := distinct.handles.of_map
  rw [List.nodup_map_iff_inj_on buffer]
  constructor
  · intro marks x hx y hy own
    by_contra apart
    obtain ⟨r, nominated⟩ := Option.isSome_iff_exists.mp (nominee_isSome hx (distinct.known x hx).2)
    obtain ⟨b, z, hz, other⟩ := oldest_other distinct hx hy own apart r
    obtain ⟨mem, id, bank⟩ := mem_oldest hz
    have marked := (marks z mem).mpr (.inr ⟨z, by rw [id, bank]; exact hz, rfl⟩)
    rw [forms.marked_iff clean distinct mem, id, nominated] at marked
    exact other (Option.some.inj marked).symm
  · intro alone r mem
    obtain ⟨x, nominated⟩ := Option.isSome_iff_exists.mp (nominee_isSome mem (distinct.known r mem).2)
    obtain ⟨there, id⟩ := nominee_mem nominated
    obtain rfl := alone x there r mem id
    have mine : x ∈ requestsOf q x.requestorID x.bank := List.mem_filter.mpr ⟨mem, by simp⟩
    obtain ⟨z, hz⟩ := exists_oldest mine
    obtain rfl := alone z (mem_oldest hz).1 x mem (mem_oldest hz).2.1
    rw [forms.marked_iff clean distinct mem]
    exact ⟨fun _ => .inr ⟨z, hz, rfl⟩, fun _ => nominated⟩

/-! ## The count -/

variable {s s' : RequestScheduler} {gen : Generator}

/-- The requests that wait and are marked. -/
def markedWaiting (s : RequestScheduler) (p : ParbsState) : List Request :=
  (s.requestQueue 0).generalBuffer.filter fun r => p.marked r.handle

/-- `markedCnt` counts them. -/
def Accounted (s : RequestScheduler) (p : ParbsState) : Prop := p.markedCnt = (markedWaiting s p).length

/-- A new batch has no more marked requests than nominees. -/
theorem Forms.length_marked (forms : Forms (s.requestQueue 0) requestors p batch)
    (clean : ∀ h, p.marked h = false) (distinct : Distinct requestors (s.requestQueue 0)) :
    (markedWaiting s batch).length ≤ (nominees (s.requestQueue 0) requestors).length := by
  have nodup : (markedWaiting s batch).Nodup := distinct.handles.of_map.filter _
  refine (List.subperm_of_subset nodup fun r hr => ?_).length_le
  obtain ⟨mem, marked⟩ := List.mem_filter.mp hr
  rw [forms.marked_iff clean distinct mem] at marked
  exact List.mem_filterMap.mpr ⟨_, List.mem_range.mpr (distinct.known r mem).1, marked⟩

/-- What handing over leaves: a part of the buffer, of the marks, and at most one count less. -/
theorem handsOver_leaves {i : Nat} {r : Request} {handed : List Request} (counted : 0 < p.markedCnt)
    (small : p.markedCnt < 2 ^ 32) (h : handsOver gen s p i r = some (s', p', handed)) :
    p.markedCnt ≤ p'.markedCnt + 1 ∧ (markedWaiting s' p').length ≤ (markedWaiting s p).length := by
  obtain ⟨⟨t, accepted⟩, _, out⟩ := Option.map_eq_some_iff.mp h
  cases accepted with
  | false =>
    obtain ⟨rfl, rfl, rfl⟩ : _ ∧ _ ∧ _ := by simpa using out
    exact ⟨Nat.le_succ _, Nat.le_refl _⟩
  | true =>
    obtain ⟨rfl, rfl, rfl⟩ : _ ∧ _ ∧ _ := by simpa using out
    refine ⟨?_, ?_⟩
    · simp only [unmark]
      omega
    · have fewer : ∀ x : Request, (unmark p r).marked x.handle = true → p.marked x.handle = true := by
        intro x
        simp only [unmark, assign]
        split
        · exact nofun
        · exact id
      calc ((((s.requestQueue 0).generalBuffer.eraseIdx i).filter
            fun x => (unmark p r).marked x.handle)).length
          ≤ ((s.requestQueue 0).generalBuffer.filter fun x => (unmark p r).marked x.handle).length :=
            ((List.eraseIdx_sublist _ _).filter _).length_le
        _ ≤ (markedWaiting s p).length :=
            (List.monotone_filter_right _ fun x => fewer x).length_le

/-- **The first call that finds a request** leaves the count too high. -/
theorem not_accounted {handed : List Request} (none_left : p.markedCnt = 0)
    (clean : ∀ h, p.marked h = false) (distinct : Distinct requestors (s.requestQueue 0))
    (nonempty : (s.requestQueue 0).generalBuffer ≠ [])
    (called : requestSchedule requestors gen () s p = some (s', p', handed)) : ¬ Accounted s' p' := by
  obtain ⟨batch, started, _⟩ := Option.bind_eq_some_iff.mp called
  have formed : form_batch requestors (s.requestQueue 0) p = some batch := by
    rw [← started, startBatch, if_pos none_left]
  obtain ⟨fits, forms⟩ := form_batch_forms formed (by omega)
  obtain ⟨i, r, _, handing⟩ := requestSchedule_handsOver gen started nonempty
  rw [called] at handing
  -- at least one requestor has a nominee, and at most ten
  obtain ⟨x, mem⟩ := List.exists_mem_of_ne_nil _ nonempty
  obtain ⟨id, bank⟩ := distinct.known x mem
  obtain ⟨y, nominated⟩ := Option.isSome_iff_exists.mp (nominee_isSome mem bank)
  have some_nominee : 0 < (nominees (s.requestQueue 0) requestors).length :=
    List.length_pos_of_mem (List.mem_filterMap.mpr ⟨_, List.mem_range.mpr id, nominated⟩)
  have few : (nominees (s.requestQueue 0) requestors).length ≤ loadCells := by
    apply Nat.le_trans (List.length_filterMap_le _ _)
    rw [List.length_range]
    exact fits
  have count : batch.markedCnt = 5 * (nominees (s.requestQueue 0) requestors).length := by
    rw [forms.count, none_left, Nat.zero_add, MarkingCap]
    unfold loadCells at few
    omega
  have marks := forms.length_marked clean distinct
  unfold loadCells at few
  obtain ⟨less, fewer⟩ := handsOver_leaves (by omega) (by omega) handing.symm
  unfold Accounted
  omega

/-- A call that finds nothing leaves nothing marked or counted. -/
theorem quiet_of_nothing {handed : List Request} (none_left : p.markedCnt = 0)
    (clean : ∀ h, p.marked h = false) (empty : (s.requestQueue 0).generalBuffer = [])
    (called : requestSchedule requestors gen () s p = some (s', p', handed)) :
    s' = s ∧ p'.markedCnt = 0 ∧ ∀ h, p'.marked h = false := by
  obtain ⟨batch, started, ended⟩ := Option.bind_eq_some_iff.mp called
  rw [empty] at ended
  obtain ⟨rfl, rfl, rfl⟩ : _ ∧ _ ∧ _ := by simpa using ended
  have formed : form_batch requestors (s.requestQueue 0) p = some batch := by
    rw [← started, startBatch, if_pos none_left]
  obtain ⟨_, forms⟩ := form_batch_forms formed (by omega)
  have nobody : nominees (s.requestQueue 0) requestors = [] := by
    apply List.filterMap_eq_nil_iff.mpr
    intro proc _
    by_contra nominated
    obtain ⟨r, hr⟩ := Option.ne_none_iff_exists'.mp nominated
    have mem := (nominee_mem hr).1
    rw [empty] at mem
    cases mem
  refine ⟨rfl, ?_, fun h => ?_⟩
  · rw [forms.count, none_left, nobody]
    rfl
  · have marked := forms.marked h
    rw [nobody, clean] at marked
    simpa using marked

/-! ## Runs -/

open Lib.Machine

/-- A new request is of a requestor and a bank that exist, and not an object that waits already. -/
def Arrives (requestors : Nat) (st : RequestScheduler × ParbsState) : RequestCall Unit → Prop
  | .insertRequest _ r => r.requestorID < requestors ∧ r.bank < localBcount ∧
      ∀ x ∈ (st.1.requestQueue 0).generalBuffer, x.handle ≠ r.handle
  | .requestSchedule _ => True

/-- A call that asks for a request finds none. -/
def FindsNothing (st : RequestScheduler × ParbsState) : RequestCall Unit → Prop
  | .insertRequest _ _ => True
  | .requestSchedule _ => (st.1.requestQueue 0).generalBuffer = []

instance (requestors : Nat) (st : RequestScheduler × ParbsState) :
    (call : RequestCall Unit) → Decidable (Arrives requestors st call)
  | .insertRequest _ _ => inferInstanceAs (Decidable (_ ∧ _ ∧ _))
  | .requestSchedule _ => inferInstanceAs (Decidable True)

instance (st : RequestScheduler × ParbsState) :
    (call : RequestCall Unit) → Decidable (FindsNothing st call)
  | .insertRequest _ _ => inferInstanceAs (Decidable True)
  | .requestSchedule _ => inferInstanceAs (Decidable (_ = _))

/-- The batch that a call forms, if it forms one, marks what it is meant to. -/
def FormsRight (requestors : Nat) (st : RequestScheduler × ParbsState) : RequestCall Unit → Prop
  | .insertRequest _ _ => True
  | .requestSchedule _ => st.2.markedCnt = 0 → ∀ batch,
      form_batch requestors (st.1.requestQueue 0) st.2 = some batch →
        MarksOldest (st.1.requestQueue 0) st.2 batch

/-- One general queue, nothing marked or counted, and distinct requests. -/
structure Quiet (requestors : Nat) (s : RequestScheduler) (p : ParbsState) : Prop where
  one : s.queueCount = 1
  general : (s.requestQueue 0).perRequestorEnable = false
  none_left : p.markedCnt = 0
  clean : ∀ h, p.marked h = false
  distinct : Distinct requestors (s.requestQueue 0)

theorem Quiet.accounted (quiet : Quiet requestors s p) : Accounted s p := by
  have nothing : markedWaiting s p = [] :=
    List.filter_eq_nil_iff.mpr fun r _ => by simp [quiet.clean]
  rw [Accounted, nothing, quiet.none_left]
  rfl

theorem Quiet.insertRequest (quiet : Quiet requestors s p) {r : Request}
    (arrives : Arrives requestors (s, p) (.insertRequest 0 r)) :
    Quiet requestors (s.setQueue 0 ((s.requestQueue 0).insertRequest r)) p := by
  obtain ⟨id, bank, fresh⟩ := arrives
  obtain ⟨one, general, none_left, clean, handles, known⟩ := quiet
  have queue : (s.setQueue 0 ((s.requestQueue 0).insertRequest r)).requestQueue 0 =
      (s.requestQueue 0).insertRequest r := rfl
  suffices kept : ((s.requestQueue 0).insertRequest r).perRequestorEnable = false ∧
      Distinct requestors ((s.requestQueue 0).insertRequest r) from
    ⟨one, queue ▸ kept.1, none_left, clean, queue ▸ kept.2⟩
  unfold RequestQueue.insertRequest
  rw [general]
  split
  · exact ⟨rfl, handles, known⟩
  · rw [if_neg (by simp)]
    refine ⟨rfl, ?_, fun x hx => ?_⟩
    · rw [List.map_append, List.nodup_append]
      refine ⟨handles, by simp, fun a ha c hc same => ?_⟩
      obtain ⟨x, hx, rfl⟩ := List.mem_map.mp ha
      exact fresh x hx (same.trans (by simpa using hc))
    · rcases List.mem_append.mp hx with hx | hx
      · exact known x hx
      · rw [List.mem_singleton.mp hx]
        exact ⟨id, bank⟩

/-- A step keeps the books and forms its batch right exactly if it does not find a request. -/
theorem step_accounted {st st' : RequestScheduler × ParbsState} {call : RequestCall Unit}
    {handed : List Request} (quiet : Quiet requestors st.1 st.2) (arrives : Arrives requestors st call)
    (stepped : (requestSchedule requestors gen).step st call = some (st', handed)) :
    (Accounted st'.1 st'.2 ∧ FormsRight requestors st call ↔ FindsNothing st call) ∧
      (FindsNothing st call → Quiet requestors st'.1 st'.2) := by
  obtain ⟨s, p⟩ := st
  rcases RequestScheduling.step_cases stepped with ⟨index, r, rfl, bound, rfl, rfl⟩ | ⟨u, rfl, called⟩
  · obtain rfl : index = 0 := by
      have := quiet.one
      simp only at bound this
      omega
    have later := quiet.insertRequest arrives
    exact ⟨⟨fun _ => trivial, fun _ => ⟨later.accounted, trivial⟩⟩, fun _ => later⟩
  · have ends : FindsNothing (s, p) (.requestSchedule u) → Quiet requestors st'.1 st'.2 := by
      intro empty
      obtain ⟨same, count, clean⟩ := quiet_of_nothing quiet.none_left quiet.clean empty called
      rw [same]
      exact ⟨quiet.one, quiet.general, count, clean, quiet.distinct⟩
    refine ⟨⟨fun right => ?_, fun empty => ⟨(ends empty).accounted, fun _ batch _ r mem => ?_⟩⟩, ends⟩
    · by_contra nonempty
      exact not_accounted quiet.none_left quiet.clean quiet.distinct nonempty called right.1
    · have mem : r ∈ (s.requestQueue 0).generalBuffer := mem
      rw [show (s.requestQueue 0).generalBuffer = [] from empty] at mem
      cases mem

/-- The state that the constructor leaves, over what the load arrays held. -/
def create (heldMax heldTotal : Nat → Nat) : ParbsState :=
  { markedMaxLoadPerProc := heldMax, markedTotalLoadPerProc := heldTotal }

/-- **The batches of PAR-BS.** The count is right in every state of a run, and every batch is marked
right, exactly if no call of the run finds a request. A batch formed from a clean state is marked right
exactly if no requestor has two requests. -/
theorem parbs_batches (requestors : Nat) (gen : Generator) (writeQueueEnable : Bool) (dataBusSize : Nat)
    (heldMax heldTotal : Nat → Nat) :
    (∀ calls, Meets (requestSchedule requestors gen).step (Arrives requestors)
        (RequestScheduler.create false writeQueueEnable dataBusSize, create heldMax heldTotal) calls →
      (Along (requestSchedule requestors gen).step
          (fun st call st' _ => Accounted st'.1 st'.2 ∧ FormsRight requestors st call)
          (RequestScheduler.create false writeQueueEnable dataBusSize, create heldMax heldTotal) calls ↔
        Along (requestSchedule requestors gen).step (fun st call _ _ => FindsNothing st call)
          (RequestScheduler.create false writeQueueEnable dataBusSize, create heldMax heldTotal) calls)) ∧
    ∀ q p batch, form_batch requestors q p = some batch → p.markedCnt = 0 →
      (∀ h, p.marked h = false) → Distinct requestors q →
      (MarksOldest q p batch ↔ (q.generalBuffer.map Request.requestorID).Nodup) := by
  refine ⟨fun calls meets => ?_, fun q p batch formed none_left clean distinct => ?_⟩
  · refine along_congr_of_meets (fun st => Quiet requestors st.1 st.2) step_accounted ?_ meets
    exact ⟨rfl, rfl, rfl, fun _ => rfl, List.nodup_nil, fun _ h => absurd h List.not_mem_nil⟩
  · exact marksOldest_iff (form_batch_forms formed (by omega)).2 clean distinct

/-- The law at a run with a call before any request, and at a batch of two requestors. -/
theorem parbs_batches_idle :
    Along (requestSchedule 2 openGenerator).step
      (fun st call st' _ => Accounted st'.1 st'.2 ∧ FormsRight 2 st call)
      (RequestScheduler.create false false 64, create (fun _ => 0) fun _ => 0)
      [.requestSchedule (), .insertRequest 0 (rowRead 0 0)] ∧
    ∃ batch, form_batch 2 ((withReads [rowRead 0 0, { rowRead 1 5 with handle := 1 }]).requestQueue 0)
        (create (fun _ => 0) fun _ => 0) = some batch ∧
      MarksOldest ((withReads [rowRead 0 0, { rowRead 1 5 with handle := 1 }]).requestQueue 0)
        (create (fun _ => 0) fun _ => 0) batch := by
  have law := parbs_batches 2 openGenerator false 64 (fun _ => 0) fun _ => 0
  constructor
  · refine (law.1 [.requestSchedule (), .insertRequest 0 (rowRead 0 0)] ?_).mpr ?_
    · exact meets_of_check _ (fun st call => decide (Arrives 2 st call)) _ _ _
        (fun _ _ => of_decide_eq_true) (by decide +kernel)
    · exact along_of_check _ (fun st call _ => decide (FindsNothing st call))
        (fun st call _ => FindsNothing st call) _ _ (fun _ _ _ => of_decide_eq_true) (by decide +kernel)
  · refine ⟨_, rfl, (law.2 _ _ _ rfl rfl (fun _ => rfl) ⟨by decide, ?_⟩).mpr (by decide)⟩
    decide

/-- Two reads of one requestor to one bank, and a call: one is handed over and the other is left
unmarked, but four marks are counted. -/
theorem parbs_batches_overcount : ∃ st told,
    run (requestSchedule 2 openGenerator).step
      (RequestScheduler.create false false 64, create (fun _ => 0) fun _ => 0)
      [.insertRequest 0 (rowRead 0 0), .insertRequest 0 { rowRead 0 5 with handle := 1 },
        .requestSchedule ()] = some (st, told) ∧
    told.flatten = [rowRead 0 0] ∧
    (st.1.requestQueue 0).generalBuffer = [{ rowRead 0 5 with handle := 1 }] ∧
    st.2.markedCnt = 4 ∧ st.2.marked 1 = false ∧ ¬ Accounted st.1 st.2 := by
  obtain ⟨st, told, ran, handed, buffer, count, unmarked⟩ := run_exists_told
    (requestSchedule 2 openGenerator).step
    (fun st told => told.flatten = [rowRead 0 0] ∧
      (st.1.requestQueue 0).generalBuffer = [{ rowRead 0 5 with handle := 1 }] ∧
      st.2.markedCnt = 4 ∧ st.2.marked 1 = false)
    (RequestScheduler.create false false 64, create (fun _ => 0) fun _ => 0)
    [.insertRequest 0 (rowRead 0 0), .insertRequest 0 { rowRead 0 5 with handle := 1 },
      .requestSchedule ()] (by decide +kernel)
  refine ⟨st, told, ran, handed, buffer, count, unmarked, fun accounted => ?_⟩
  rw [Accounted, markedWaiting, buffer, count] at accounted
  simp [unmarked] at accounted

end Parbs
end MCsim
