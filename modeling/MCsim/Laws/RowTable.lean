import MCsim.Requests.Calls
import MCsim.RowTable

/-!
# The row-hit test and the rows recorded

What the row table is for: to tell of a request whether the last request scheduled to its bank had its
row (`lastTo`). `isRowHit_recorded` says that it does, over every run of a scheduler, and that testing
does not disturb it, as long as the two ranks of the requests agree (`Agree`).

The table of `RequestScheduler` is a function of rank and bank. `flatten` reads the map of maps as one,
and the two operations are those of `RequestScheduler` under it (`isRowHit_flatten`,
`flatten_updateRowTable`).
-/

namespace MCsim.RowTable

open Lib.Subscript Lib.Machine

/-! ## The map of maps as one table -/

/-- The row found under a rank and a bank. -/
def flatten (bankTable : RowTable) (rank bank : Nat) : Option Nat :=
  (bankTable rank).bind fun banks => banks bank

theorem flatten_updateRowTable (bankTable : RowTable) (rank bank row r b : Nat) :
    (updateRowTable bankTable rank bank row).flatten r b =
      if r = rank ∧ b = bank then some row else bankTable.flatten r b := by
  unfold updateRowTable
  rcases found : bankTable rank with _ | banks
  · rw [subscript_missing _ found]
    by_cases hr : r = rank <;> by_cases hb : b = bank <;>
      simp [flatten, enter, empty, hr, hb, found]
  · rw [subscript_found _ found]
    by_cases hr : r = rank <;> by_cases hb : b = bank <;> simp [flatten, enter, hr, hb, found]

/-- Before any row of the rank is recorded, a test answers no and leaves the table. -/
theorem isRowHit_missing (foreign : Option Bool) {bankTable : RowTable} {request : Request}
    (missing : bankTable request.addressMap.rank = none) :
    isRowHit foreign bankTable request = some (false, bankTable) := by
  simp [isRowHit, missing]

/-- Where the two ranks of a request agree, the test searches and reads one map: it answers what the
table holds, and leaves the table as it was. -/
theorem isRowHit_agree (foreign : Option Bool) (bankTable : RowTable) {request : Request}
    (agree : request.rank = request.addressMap.rank) :
    isRowHit foreign bankTable request =
      some (bankTable.flatten request.addressMap.rank request.addressMap.bank == some request.row,
        bankTable) := by
  rcases found : bankTable request.addressMap.rank with _ | banks
  · simp [isRowHit_missing foreign found, flatten, found]
  · simp only [isRowHit, found, agree, if_true, subscript_found _ found, Option.map_some, flatten,
      Option.bind_some, Option.some.injEq]
    rcases row : banks request.addressMap.bank with _ | open_row
    · simp
    · simp [subscript_found _ row, enter_found found]

/-- The test is that of `RequestScheduler`, over the table read as one. -/
theorem isRowHit_flatten (foreign : Option Bool) (bankTable : RowTable) (s : RequestScheduler)
    {request : Request} (table : s.bankTable = bankTable.flatten)
    (agree : request.rank = request.addressMap.rank) :
    isRowHit foreign bankTable request = some (s.isRowHit request, bankTable) := by
  rw [isRowHit_agree foreign bankTable agree, RequestScheduler.isRowHit, table]

/-- Recording is that of `RequestScheduler`, wherever it writes. -/
theorem updateRowTable_flatten (bankTable : RowTable) (s : RequestScheduler) (rank bank row : Nat)
    (table : s.bankTable = bankTable.flatten) :
    (s.updateRowTable rank bank row).bankTable = (updateRowTable bankTable rank bank row).flatten := by
  funext r b
  rw [flatten_updateRowTable, RequestScheduler.updateRowTable, table]

/-! ## What the table records -/

/-- Two requests go to one bank of one rank of the device. -/
def SameBank (r q : Request) : Prop :=
  r.addressMap.rank = q.addressMap.rank ∧ r.addressMap.bank = q.addressMap.bank

instance (r q : Request) : Decidable (SameBank r q) := inferInstanceAs (Decidable (_ ∧ _))

/-- The last request scheduled to the bank of a request. -/
def lastTo (request : Request) (scheduled : List Request) : Option Request :=
  scheduled.reverse.find? fun r => SameBank r request

/-- The last one: none after it goes to the bank. -/
theorem lastTo_eq_some {request last : Request} {scheduled : List Request} :
    lastTo request scheduled = some last ↔
      SameBank last request ∧ ∃ before after, scheduled = before ++ last :: after ∧
        ∀ r ∈ after, ¬ SameBank r request := by
  simp only [lastTo, List.find?_eq_some_iff_append, decide_eq_true_eq, Bool.not_eq_eq_eq_not,
    Bool.not_true, decide_eq_false_iff_not]
  apply and_congr_right
  intro _
  constructor
  · rintro ⟨as, bs, eq, others⟩
    refine ⟨bs.reverse, as.reverse, ?_, fun r hr => others r (by simpa using hr)⟩
    simpa using congrArg List.reverse eq
  · rintro ⟨before, after, rfl, others⟩
    exact ⟨after.reverse, before.reverse, by simp, fun r hr => others r (by simpa using hr)⟩

theorem lastTo_append (request r : Request) (scheduled : List Request) :
    lastTo request (scheduled ++ [r]) =
      if SameBank r request then some r else lastTo request scheduled := by
  by_cases same : SameBank r request <;> simp [lastTo, same]

/-- The requests that were scheduled, in order. -/
def scheduledOf (uses : List Use) : List Request := uses.flatMap Use.scheduled

/-- What a table holds after some requests were scheduled: the row of the last one to each bank, and
nothing at all for the rank before the first. -/
structure Recorded (scheduled : List Request) (bankTable : RowTable) : Prop where
  row : ∀ request, Mapped request →
    bankTable.flatten request.addressMap.rank request.addressMap.bank =
      (lastTo request scheduled).map (·.row)
  untouched : scheduled = [] → bankTable 0 = none

theorem Recorded.start : Recorded [] empty where
  row _ _ := rfl
  untouched _ := rfl

/-! ## The condition -/

/-- The two ranks of the request agree where the use depends on it: a test where something was scheduled
before, and a recording at the request's own rank. -/
def Fits (kind : Scheduler) (past : List Request) : Use → Prop
  | .isRowHit request => past = [] ∨ request.rank = request.addressMap.rank
  | .schedule request => kind = .FRFCFS ∨ request.rank = request.addressMap.rank

/-- Every use fits, those after some requests were scheduled. -/
def Agree (kind : Scheduler) : List Request → List Use → Prop
  | _, [] => True
  | past, use :: uses => Fits kind past use ∧ Agree kind (past ++ use.scheduled) uses

theorem Agree.append {kind : Scheduler} {past : List Request} {uses more : List Use} :
    Agree kind past (uses ++ more) ↔
      Agree kind past uses ∧ Agree kind (past ++ scheduledOf uses) more := by
  induction uses generalizing past with
  | nil => simp [Agree, scheduledOf]
  | cons use uses ih => simp [Agree, ih, scheduledOf, and_assoc]

/-- A fitting recording writes the place that the tests read. -/
theorem place_eq {kind : Scheduler} {past : List Request} {request : Request} (mapped : Mapped request)
    (fits : Fits kind past (.schedule request)) :
    kind.place request = (request.addressMap.rank, request.addressMap.bank) := by
  rcases fits with rfl | agree
  · rfl
  · have bank := mapped.bank_eq
    cases kind <;> simp [Scheduler.place, agree, bank]

/-! ## One use -/

/-- What a test answers: whether the last request to the bank had the row. -/
def hit (past : List Request) (request : Request) : Bool :=
  (lastTo request past).map (·.row) == some request.row

theorem isRowHit_eq {kind : Scheduler} {past : List Request} {bankTable : RowTable} {request : Request}
    (foreign : Option Bool) (recorded : Recorded past bankTable) (mapped : Mapped request)
    (fits : Fits kind past (.isRowHit request)) :
    isRowHit foreign bankTable request = some (hit past request, bankTable) := by
  rcases fits with none_yet | agree
  · have missing : bankTable request.addressMap.rank = none := by
      rw [mapped.rank_eq]
      exact recorded.untouched none_yet
    rw [isRowHit_missing foreign missing, none_yet]
    rfl
  · rw [isRowHit_agree foreign bankTable agree, recorded.row request mapped]
    rfl

theorem Recorded.schedule {kind : Scheduler} {past : List Request} {bankTable : RowTable}
    {request : Request} (recorded : Recorded past bankTable) (mapped : Mapped request)
    (fits : Fits kind past (.schedule request)) :
    Recorded (past ++ [request])
      (updateRowTable bankTable (kind.place request).1 (kind.place request).2 request.row) where
  row q hq := by
    rw [place_eq mapped fits, flatten_updateRowTable, lastTo_append, recorded.row q hq]
    by_cases same : SameBank request q
    · rw [if_pos ⟨same.1.symm, same.2.symm⟩, if_pos same]
      rfl
    · rw [if_neg fun eq => same ⟨eq.1.symm, eq.2.symm⟩, if_neg same]
  untouched h := by simp at h

/-! ## Whole runs -/

/-- The answers of the tests, those after some requests were scheduled. -/
def answers : List Request → List Use → List (Option Bool)
  | _, [] => []
  | past, .isRowHit request :: uses => some (hit past request) :: answers past uses
  | past, .schedule request :: uses => none :: answers (past ++ [request]) uses

/-- A fitting run goes through, with the answers that the scheduled requests give. -/
theorem run_recorded {kind : Scheduler} (foreign : Option Bool) {uses : List Use}
    {past : List Request} {bankTable : RowTable} (recorded : Recorded past bankTable)
    (mapped : ∀ use ∈ uses, Mapped use.request) (agree : Agree kind past uses) :
    ∃ left, run (step kind foreign) bankTable uses = some (left, answers past uses) ∧
      Recorded (past ++ scheduledOf uses) left := by
  induction uses generalizing past bankTable with
  | nil => exact ⟨bankTable, rfl, by simpa [scheduledOf] using recorded⟩
  | cons use uses ih =>
    obtain ⟨fits, rest⟩ := agree
    have later := fun u hu => mapped u (List.mem_cons_of_mem use hu)
    cases use with
    | isRowHit request =>
      have here : Mapped request := mapped _ List.mem_cons_self
      have tested := isRowHit_eq foreign recorded here fits
      obtain ⟨left, ran, kept⟩ := ih recorded later (by simpa [Use.scheduled] using rest)
      refine ⟨left, ?_, by simpa [scheduledOf, Use.scheduled] using kept⟩
      exact run_cons_eq_some.mpr ⟨_, _, _, by rw [step, tested]; rfl, ran, rfl⟩
    | schedule request =>
      have here : Mapped request := mapped _ List.mem_cons_self
      obtain ⟨left, ran, kept⟩ := ih (recorded.schedule here fits) later rest
      refine ⟨left, ?_, by simpa [scheduledOf, Use.scheduled] using kept⟩
      exact run_cons_eq_some.mpr ⟨_, _, _, rfl, ran, rfl⟩

/-- **The test agrees with the rows recorded.** Take any run of a scheduler, a test in it and what comes
after. If the ranks of the requests agree wherever they are used, the test answers, yes exactly if some
request was scheduled to the same bank and the last of them had the same row; and what comes after goes
the same, with the same answers, from the table before the test and from the one it leaves. -/
theorem isRowHit_recorded (kind : Scheduler) (foreign : Option Bool) (before after : List Use)
    (request : Request)
    (mapped : ∀ use ∈ before ++ .isRowHit request :: after, Mapped use.request)
    (agree : Agree kind [] (before ++ .isRowHit request :: after)) :
    ∃ bankTable told answer tested,
      run (step kind foreign) empty before = some (bankTable, told) ∧
      isRowHit foreign bankTable request = some (answer, tested) ∧
      (answer = true ↔ ∃ earlier last others,
        scheduledOf before = earlier ++ last :: others ∧ SameBank last request ∧
          (∀ r ∈ others, ¬ SameBank r request) ∧ last.row = request.row) ∧
      ∃ left left' outcome,
        run (step kind foreign) bankTable after = some (left, outcome) ∧
          run (step kind foreign) tested after = some (left', outcome) := by
  obtain ⟨agree_before, fits, agree_after⟩ := Agree.append.mp agree
  obtain ⟨bankTable, ran, recorded⟩ :=
    run_recorded foreign Recorded.start (fun u hu => mapped u (by simp [hu])) agree_before
  have here : Mapped request := mapped (.isRowHit request) (by simp)
  have tested := isRowHit_eq foreign recorded here fits
  have later : ∀ use ∈ after, Mapped use.request := fun u hu => mapped u (by simp [hu])
  obtain ⟨left, went, -⟩ :=
    run_recorded foreign recorded later (by simpa [Use.scheduled] using agree_after)
  refine ⟨bankTable, _, _, bankTable, ran, tested, ?_, left, left, _, went, went⟩
  simp only [hit, List.nil_append, beq_iff_eq, Option.map_eq_some_iff]
  constructor
  · rintro ⟨last, found, row⟩
    obtain ⟨same, earlier, others, eq, none_after⟩ := lastTo_eq_some.mp found
    exact ⟨earlier, last, others, eq, same, none_after, row⟩
  · rintro ⟨earlier, last, others, eq, same, none_after, row⟩
    exact ⟨last, lastTo_eq_some.mpr ⟨same, earlier, others, eq, none_after⟩, row⟩

/-- A read that the mapping of a device with two ranks made of an address. -/
def twoRankRead (rank row bank : Nat) : Request :=
  AddressMapping.addressMapping .none [(.Rank, 1), (.Row, 14), (.Bank, 3), (.Column, 10)]
    (sampleRequest .DATA_READ 0 (rank * 2 ^ 27 + row * 2 ^ 13 + bank * 2 ^ 10))

theorem twoRankRead_mapped (rank row bank : Nat) : Mapped (twoRankRead rank row bank) :=
  ⟨_, _, _, rfl⟩

/-- A run on one rank, tested between two requests to a bank. -/
theorem isRowHit_recorded_oneRank :
    ∃ bankTable told answer tested,
      run (step .BLISS none) empty [.schedule (twoRankRead 0 5 2)] = some (bankTable, told) ∧
      isRowHit none bankTable (twoRankRead 0 5 2) = some (answer, tested) ∧
      (answer = true ↔ ∃ earlier last others,
        scheduledOf [.schedule (twoRankRead 0 5 2)] = earlier ++ last :: others ∧
          SameBank last (twoRankRead 0 5 2) ∧
          (∀ r ∈ others, ¬ SameBank r (twoRankRead 0 5 2)) ∧ last.row = (twoRankRead 0 5 2).row) ∧
      ∃ left left' outcome,
        run (step .BLISS none) bankTable [.schedule (twoRankRead 0 6 2)] = some (left, outcome) ∧
          run (step .BLISS none) tested [.schedule (twoRankRead 0 6 2)] = some (left', outcome) :=
  isRowHit_recorded .BLISS none [.schedule (twoRankRead 0 5 2)] [.schedule (twoRankRead 0 6 2)]
    (twoRankRead 0 5 2)
    (by
      intro use hu
      simp only [List.cons_append, List.nil_append, List.mem_cons, List.not_mem_nil, or_false] at hu
      rcases hu with rfl | rfl | rfl <;> exact twoRankRead_mapped _ _ _)
    ⟨.inr (by decide), .inr (by decide), .inr (by decide), trivial⟩

/-- A request to rank 1 is recorded under rank 1 and looked for under rank 0: the same request again is
no hit. Recorded by `FRFCFS`, which writes under rank 0, a request of rank 1 is compared across two
maps; if that answers unequal, a request to row 0 of a bank that nothing was scheduled to is a hit, and
the test makes it one for rank 0 too. -/
theorem isRowHit_secondRank :
    (∀ foreign, ∃ bankTable told,
      run (step .DIRECT foreign) empty [.schedule (twoRankRead 1 5 2)] = some (bankTable, told) ∧
        isRowHit foreign bankTable (twoRankRead 1 5 2) = some (false, bankTable)) ∧
    ∃ bankTable told tested,
      run (step .FRFCFS (some true)) empty [.schedule (twoRankRead 0 5 2)] = some (bankTable, told) ∧
        isRowHit (some true) bankTable (twoRankRead 1 0 3) = some (true, tested) ∧
        (isRowHit (some true) bankTable (twoRankRead 0 0 3)).map (·.1) = some false ∧
        (isRowHit (some true) tested (twoRankRead 0 0 3)).map (·.1) = some true :=
  ⟨fun _ => ⟨_, _, rfl, rfl⟩, _, _, _, rfl, rfl, rfl, rfl⟩

end MCsim.RowTable
