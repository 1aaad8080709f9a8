import MCsim.Laws.PipeCas
import MCsim.Lib.DelayLine

/-!
# The counters of PipeCAS

`fawCounter` is a delay line: an activation enters with `tFAW`, each call takes one from every entry, and
only the front is looked at and removed. An entry is always in front when it reaches 0, because the
entries are strictly increasing, so nothing is taken from a 0. The line holds the activations of the last
`tFAW - 1` calls, of which there are four at most if no five come within `tFAW` calls.

A snapshot never finds its queues empty: where a round is due some queue holds a pair, and the type that
the round is given is one that some queue holds.

`tCAS_SRT` subtracts below 0 in two subterms. As long as `exeACT` fits into 32 bits the wraps do not show in
the result, also where the first subterm comes back positive (`tCAS_SRT_eq`). One more queued access than
that and the value of `exeACT` has no `unsigned` to be converted to, and where `5 * (num - 1)` wraps too,
the result is wrong (`counters_wrap`).
-/

namespace MCsim.PipeCas

open CommandScheduler

variable {s s' : CommandScheduler} {p p' q : PipeCasState} {t u : Pass} {check : Answers}
variable {spec : DeviceSpec} {out : Option Entry}

/-! ## What a call leaves alone -/

/-- Neither the window, nor whether a round is due, nor its queues change. -/
structure Steady (p q : PipeCasState) : Prop where
  fawCounter : q.fawCounter = p.fawCounter
  roundStart : q.roundStart = p.roundStart
  queueScheduled : q.queueScheduled = p.queueScheduled

theorem Steady.refl (p : PipeCasState) : Steady p p := ⟨rfl, rfl, rfl⟩

theorem Steady.trans {p q r : PipeCasState} (h : Steady p q) (h' : Steady q r) : Steady p r :=
  ⟨h'.fawCounter.trans h.fawCounter, h'.roundStart.trans h.roundStart,
    h'.queueScheduled.trans h.queueScheduled⟩

theorem schedule_HRT_ACT_steady (check : Answers) (t : Pass) :
    Steady t.own (schedule_HRT_ACT check t).own := by
  unfold schedule_HRT_ACT
  split <;> exact ⟨rfl, rfl, rfl⟩

theorem schedule_HRT_CAS_steady (check : Answers) (t : Pass) :
    Steady t.own (schedule_HRT_CAS check t).own := by
  unfold schedule_HRT_CAS
  split <;> exact ⟨rfl, rfl, rfl⟩

theorem schedule_SRT_ACT_steady (check : Answers) (t : Pass) :
    Steady t.own (schedule_SRT_ACT check t).own := by
  unfold schedule_SRT_ACT
  split <;> exact ⟨rfl, rfl, rfl⟩

theorem schedule_SRT_PRE_steady (check : Answers) (t : Pass) :
    Steady t.own (schedule_SRT_PRE check t).own := by
  unfold schedule_SRT_PRE
  split <;> exact ⟨rfl, rfl, rfl⟩

theorem schedule_SRT_CAS_steady (check : Answers) (t : Pass) :
    Steady t.own (schedule_SRT_CAS check t).own := by
  unfold schedule_SRT_CAS
  dsimp only
  split <;> exact ⟨rfl, rfl, rfl⟩

theorem unlessScheduled_steady {next : Pass → Pass} (steady : ∀ t, Steady t.own (next t).own)
    (t : Pass) : Steady t.own (unlessScheduled t next).own := by
  unfold unlessScheduled
  split
  · exact steady t
  · exact .refl t.own

theorem bufferSRT_steady (st : CommandScheduler × PipeCasState) (index : Nat) :
    Steady st.2 (bufferSRT st index).2 := by
  unfold bufferSRT setPending
  split
  · exact .refl st.2
  · split
    · exact .refl st.2
    · dsimp only
      split
      · split
        · exact ⟨rfl, rfl, rfl⟩
        · split <;> exact ⟨rfl, rfl, rfl⟩
      · exact .refl st.2

theorem latchHRT_steady {st st' : CommandScheduler × PipeCasState} {index : Nat}
    (h : latchHRT st index = some st') : Steady st.2 st'.2 := by
  unfold latchHRT setPending at h
  split at h
  · split at h
    · cases h
    · dsimp only at h
      split at h
      · split at h
        · obtain rfl := Option.some.inj h
          exact ⟨rfl, rfl, rfl⟩
        · split at h <;> obtain rfl := Option.some.inj h <;> exact ⟨rfl, rfl, rfl⟩
      · obtain rfl := Option.some.inj h
        exact .refl st.2
  · obtain rfl := Option.some.inj h
    exact .refl st.2

theorem foldlM_latchHRT_steady {indices : List Nat} {st st' : CommandScheduler × PipeCasState}
    (h : indices.foldlM latchHRT st = some st') : Steady st.2 st'.2 := by
  induction indices generalizing st with
  | nil =>
    obtain rfl := Option.some.inj h
    exact .refl st.2
  | cons index indices ih =>
    obtain ⟨st₁, turn, rest⟩ := Option.bind_eq_some_iff.mp h
    exact (latchHRT_steady turn).trans (ih rest)

theorem chooseInRound_steady (check : Answers) (t : Pass) :
    Steady t.own (chooseInRound check t).own := by
  have slot : ∀ t : Pass, Steady t.own (if t.own.srtNum_ACT > 0 then
      if t.own.actCounter = 0 then
        unlessScheduled
          (schedule_SRT_ACT check { t with own := { t.own with srtNum_ACT := t.own.srtNum_ACT - 1 } })
          (schedule_HRT_ACT check)
      else t
    else schedule_HRT_ACT check t).own := by
    intro t
    split
    · split
      · have taken : Steady t.own { t.own with srtNum_ACT := t.own.srtNum_ACT - 1 } := ⟨rfl, rfl, rfl⟩
        exact (taken.trans (schedule_SRT_ACT_steady check { t with own := _ })).trans
          (unlessScheduled_steady (schedule_HRT_ACT_steady check) _)
      · exact .refl t.own
    · exact schedule_HRT_ACT_steady check t
  have access : ∀ t : Pass, Steady t.own (if t.own.casCounter > 0 then
      unlessScheduled (schedule_SRT_CAS check t) (schedule_HRT_CAS check)
    else schedule_HRT_CAS check t).own := by
    intro t
    split
    · exact (schedule_SRT_CAS_steady check t).trans
        (unlessScheduled_steady (schedule_HRT_CAS_steady check) _)
    · exact schedule_HRT_CAS_steady check t
  exact ((slot t).trans (unlessScheduled_steady access _)).trans
    (unlessScheduled_steady (schedule_SRT_PRE_steady check) _)

theorem outOfRound_steady (check : Answers) (t : Pass) : Steady t.own (outOfRound check t).own := by
  have turned : ∀ p : PipeCasState,
      Steady p (if p.srtRD = 10 then { p with roundSRT := .WR, srtRD := 0 } else p) := by
    intro p
    split <;> exact ⟨rfl, rfl, rfl⟩
  have turned' : ∀ p : PipeCasState,
      Steady p (if p.srtWR = 10 then { p with roundSRT := .RD, srtWR := 0 } else p) := by
    intro p
    split <;> exact ⟨rfl, rfl, rfl⟩
  have choice : ∀ t : Pass, Steady t.own (unlessScheduled
      (unlessScheduled (schedule_SRT_CAS check t) (schedule_SRT_ACT check))
      (schedule_SRT_PRE check)).own := by
    intro t
    exact ((schedule_SRT_CAS_steady check t).trans
      (unlessScheduled_steady (schedule_SRT_ACT_steady check) _)).trans
      (unlessScheduled_steady (schedule_SRT_PRE_steady check) _)
  unfold outOfRound
  split
  · exact ((turned t.own).trans (turned' _)).trans (choice { t with own := _ })
  · exact .refl t.own

/-- The start of a round gives it queues, if anything. -/
theorem beginRound_keeps (h : beginRound check t = some u) :
    u.own.fawCounter = t.own.fawCounter ∧ u.own.roundStart = t.own.roundStart := by
  unfold beginRound at h
  dsimp only at h
  split at h
  · split at h
    · obtain ⟨casCounter, -, rfl⟩ := Option.map_eq_some_iff.mp h
      exact ⟨rfl, rfl⟩
    · obtain rfl := Option.some.inj h
      have steady := (schedule_SRT_CAS_steady check { t with own := { t.own with
        srtRD := 0
        srtWR := 0
        roundSRT := if t.own.roundType = .RDA then .RD else .WR
        srtNum_ACT := 0 } }).trans (unlessScheduled_steady (schedule_SRT_PRE_steady check) _)
      exact ⟨steady.fawCounter, steady.roundStart⟩
  · obtain rfl := Option.some.inj h
    exact ⟨rfl, rfl⟩

/-- A round that is served is over, or its queues stay; where none is on nothing happens. -/
theorem serveRound_keeps (h : serveRound check t = some u) :
    u.own.fawCounter = t.own.fawCounter ∧
      (u.own.queueScheduled = [] → u = t ∧ t.own.queueScheduled = [] ∨ u.own.roundStart = false) := by
  unfold serveRound at h
  split at h
  · next none_on =>
    obtain rfl := Option.some.inj h
    exact ⟨rfl, fun empty => .inl ⟨rfl, empty⟩⟩
  · next on =>
    obtain ⟨st, folded, rfl⟩ := Option.map_eq_some_iff.mp h
    have steady := (foldlM_latchHRT_steady folded).trans
      (chooseInRound_steady check { t with scheduler := st.1, own := st.2 })
    generalize chooseInRound check { t with scheduler := st.1, own := st.2 } = v at steady ⊢
    dsimp only
    unfold closeRound
    split
    · exact ⟨steady.fawCounter, fun _ => .inr rfl⟩
    · refine ⟨steady.fawCounter, fun empty => absurd ?_ on⟩
      rw [steady.queueScheduled] at empty
      rw [empty]
      rfl

/-! ## The window of activations -/

/-- An activation is sent. -/
def activates (out : Option Entry) : Bool := out.any fun e => e.1.busPacketType = .ACT

/-- The entries that a call takes one from. -/
def counted (k : Constraints) (fawCounter : List Nat) (out : Option Entry) : List Nat :=
  if activates out then fawCounter ++ [k.tFAW] else fawCounter

/-- The entries that a call leaves. -/
def aged (k : Constraints) (fawCounter : List Nat) (out : Option Entry) : List Nat :=
  let left := (counted k fawCounter out).map fun n => sub32 n 1
  if left.head? = some 0 then left.tail else left

theorem note_keeps (k : Constraints) (p : PipeCasState) (e : Entry) :
    (note k p e).fawCounter = counted k p.fawCounter (some e) ∧
      (note k p e).roundStart = p.roundStart ∧ (note k p e).queueScheduled = p.queueScheduled := by
  unfold note counted activates setPending
  dsimp only
  split
  · next act => simp [act]
  · next other =>
    split
    · split <;> simp [other]
    · simp [other]

/-- The end of a call. -/
theorem finish_keeps (spec : DeviceSpec) (t : Pass) :
    (finish spec t).2.1.fawCounter = aged spec.constraints t.own.fawCounter t.scheduled ∧
      (finish spec t).2.1.roundStart = t.own.roundStart ∧
      (finish spec t).2.1.queueScheduled = t.own.queueScheduled ∧ (finish spec t).2.2 = t.scheduled := by
  unfold finish aged
  cases scheduled : t.scheduled with
  | none => exact ⟨rfl, rfl, rfl, rfl⟩
  | some e =>
    obtain ⟨fawCounter, start, queues⟩ := note_keeps spec.constraints t.own e
    dsimp only [countDown]
    rw [fawCounter, start, queues]
    exact ⟨rfl, rfl, rfl, rfl⟩

/-- **What a call does to the window.** -/
theorem schedule_fawCounter (h : schedule spec check s p = some (s', p', out)) :
    p'.fawCounter = aged spec.constraints p.fawCounter out := by
  obtain ⟨u, began, rest⟩ := Option.bind_eq_some_iff.mp h
  obtain ⟨v, served, finished⟩ := Option.map_eq_some_iff.mp rest
  have buffered : ∀ (indices : List Nat) (st : CommandScheduler × PipeCasState),
      Steady st.2 (indices.foldl bufferSRT st).2 := by
    intro indices
    induction indices with
    | nil => exact fun st => .refl st.2
    | cons index indices ih => exact fun st => (bufferSRT_steady st index).trans (ih _)
  have first : u.own.fawCounter = p.fawCounter :=
    (beginRound_keeps began).1.trans (buffered (List.range s.queueCount) (s, p)).fawCounter
  have second : (outOfRound check v).own.fawCounter = p.fawCounter :=
    ((outOfRound_steady check v).fawCounter.trans (serveRound_keeps served).1).trans first
  obtain ⟨fawCounter, _, _, told⟩ := finish_keeps spec (outOfRound check v)
  rw [finished] at fawCounter told
  dsimp only at fawCounter told
  rw [fawCounter, second, told]

/-- What each call to `commandSchedule` of a run sent. -/
def cycles (calls : List PipeCall) (told : List (Option Entry)) : List (Option Entry) :=
  (calls.zip told).filterMap fun e =>
    match e.1 with
    | .commandSchedule _ => some e.2
    | _ => none

/-- No five activations within a number of calls. -/
def Spaced (tFAW : Nat) (sent : List (Option Entry)) : Prop :=
  ∀ w, w <:+: sent → w.length ≤ tFAW → w.countP activates ≤ 4

/-- The activation that is sent, if any. -/
def activation (out : Option Entry) : Option Entry := out.filter fun e => e.1.busPacketType = .ACT

theorem reduceOption_activation (sent : List (Option Entry)) :
    (sent.map activation).reduceOption.length = sent.countP activates := by
  induction sent with
  | nil => rfl
  | cons out sent ih =>
    rw [List.map_cons, List.countP_cons, ← ih]
    cases out with
    | none => simp [activation, activates, List.reduceOption_cons_of_none]
    | some e => by_cases act : e.1.busPacketType = .ACT <;>
        simp [activation, activates, Option.filter, act, List.reduceOption_cons_of_none,
          List.reduceOption_cons_of_some]

theorem counted_eq {k : Constraints} (some_window : 1 ≤ k.tFAW) (fawCounter : List Nat)
    (out : Option Entry) : counted k fawCounter out =
      fawCounter ++ ((activation out).map fun _ => k.tFAW - 1 + 1).toList := by
  unfold counted activates activation
  rw [Nat.sub_add_cancel some_window]
  cases out with
  | none => simp
  | some e => by_cases act : e.1.busPacketType = .ACT <;> simp [act, Option.filter]

theorem sub32_one {n : Nat} (positive : 1 ≤ n) (word : n < 2 ^ 32) : sub32 n 1 = n - 1 := by
  unfold sub32
  omega

open Lib.DelayLine

/-- **A call is a step of the line.** -/
theorem aged_window {k : Constraints} (some_window : 1 ≤ k.tFAW) (word : k.tFAW < 2 ^ 32)
    {ins : List (Option Entry)} {items : List Entry} {fawCounter : List Nat}
    (keeps : Keeps 1 (window (k.tFAW - 1) ins) items fawCounter) (out : Option Entry) :
    (∀ n ∈ counted k fawCounter out, 1 ≤ n ∧ n ≤ k.tFAW) ∧
      ∃ items', Keeps 1 (window (k.tFAW - 1) (ins ++ [activation out])) items' (aged k fawCounter out) := by
  have bounds : ∀ n ∈ counted k fawCounter out, 1 ≤ n ∧ n ≤ k.tFAW := by
    intro n hn
    rw [counted_eq some_window] at hn
    rcases List.mem_append.mp hn with hn | hn
    · have inside := keeps.bounds n hn
      rw [length_window] at inside
      omega
    · cases act : activation out with
      | none => simp [act] at hn
      | some e =>
        have entered : n = k.tFAW - 1 + 1 := by simpa [act] using hn
        omega
  refine ⟨bounds, ?_⟩
  have left : ((counted k fawCounter out).map fun n => sub32 n 1) =
      (fawCounter ++ ((activation out).map fun _ => k.tFAW - 1 + 1).toList).map (· - 1) := by
    rw [← counted_eq some_window]
    apply List.map_congr_left
    intro n hn
    have inside := bounds n hn
    exact sub32_one inside.1 (by omega)
  exact keeps.step (activation out) left

/-! ## Snapshots -/

/-- The queues that a call enters, if it takes a snapshot. -/
def snapshotOf (s : CommandScheduler) (p : PipeCasState) : Option (List Nat) :=
  let st := (List.range s.queueCount).foldl bufferSRT (s, p)
  let q := enterRound st.1 st.2
  if q.roundStart && q.queueScheduled.isEmpty && q.actCounter = 0 then
    some (snapshot st.1 q q.roundType)
  else none

/-- A round that is due and has no queues yet has some command to serve. -/
def Due (s : CommandScheduler) (p : PipeCasState) : Prop :=
  p.roundStart = true → p.queueScheduled = [] → ∃ i < s.queueCount, s.waiting i ≠ []

theorem Serving.unlatched (serving : Serving s (core p)) (none_on : p.queueScheduled = []) (i : Nat) :
    PipeCas.unlatched s p i = s.waiting i := by
  obtain ⟨-, none_pending, -, -⟩ := serving.between none_on
  have free : p.queuePending i = false := none_pending i
  simp [PipeCas.unlatched, free, waiting]

/-- A round that becomes due in a call has some command to serve. -/
theorem Serving.enters (serving : Serving s (core p)) (due : Due s p) (none_on : p.queueScheduled = [])
    (start : (enterRound s p).roundStart = true) : ∃ i < s.queueCount, s.waiting i ≠ [] := by
  unfold enterRound at start
  dsimp only at start
  rcases (Bool.or_eq_true _ _).mp start with before | now
  · exact due before none_on
  · obtain ⟨i, bound, found⟩ := List.any_eq_true.mp (Bool.and_eq_true_iff.mp now).2
    refine ⟨i, List.mem_range.mp bound, ?_⟩
    rw [← serving.unlatched none_on i]
    simpa using found

/-- The search for the type: some queue holds a command of what it finds, or it finds nothing of a type
other than that of the last column access. -/
theorem foldl_typeTurn (s : CommandScheduler) (p : PipeCasState) (indices : List Nat)
    (type : BusPacketType) :
    (∃ i ∈ indices, ∃ c ∈ unlatched s p i,
      c.busPacketType = indices.foldl (typeTurn s p) type) ∨
    (indices.foldl (typeTurn s p) type = type ∧ ∀ i ∈ indices, ∀ c ∈ unlatched s p i,
      c.busPacketType.beforeACT = true → c.busPacketType = p.prevCAS) := by
  induction indices generalizing type with
  | nil => exact .inr ⟨rfl, fun _ h => by cases h⟩
  | cons i indices ih =>
    rw [List.foldl_cons]
    rcases ih (typeTurn s p type i) with ⟨j, hj, c, hc, found⟩ | ⟨same, others⟩
    · exact .inl ⟨j, List.mem_cons_of_mem i hj, c, hc, found⟩
    · rw [same]
      unfold typeTurn
      cases found : (unlatched s p i).find? fun c =>
          c.busPacketType.beforeACT && decide (c.busPacketType ≠ p.prevCAS) with
      | some c => exact .inl ⟨i, List.mem_cons_self, c, List.mem_of_find?_eq_some found, rfl⟩
      | none =>
        refine .inr ⟨rfl, fun j hj => ?_⟩
        rcases List.mem_cons.mp hj with rfl | hj
        · intro c hc access
          have refused := List.find?_eq_none.mp found c hc
          simpa [access] using refused
        · exact others j hj

/-- **A snapshot enters a queue.** -/
theorem Serving.snapshot_ne_nil (serving : Serving s (core p)) (none_on : p.queueScheduled = [])
    (some_queue : ∃ i < s.queueCount, s.waiting i ≠ []) : PipeCas.snapshot s p (nextType s p) ≠ [] := by
  have type : nextType s p = (List.range s.queueCount).foldl (typeTurn s p) p.prevCAS := by
    simp [nextType, none_on]
  suffices found : ∃ i < s.queueCount, ∃ c ∈ PipeCas.unlatched s p i, c.busPacketType = nextType s p by
    obtain ⟨i, bound, c, hc, same⟩ := found
    exact List.ne_nil_of_mem (mem_snapshot.mpr ⟨bound, c, hc, same⟩)
  rw [type]
  rcases foldl_typeTurn s p (List.range s.queueCount) p.prevCAS with
    ⟨i, hi, c, hc, found⟩ | ⟨same, others⟩
  · exact ⟨i, List.mem_range.mp hi, c, hc, found⟩
  · -- every column access is of the last type, and there is one
    obtain ⟨i, bound, nonempty⟩ := some_queue
    have paired := (serving.between none_on).2.2.2 i
    match list : s.waiting i with
    | [] => exact absurd list nonempty
    | [a] =>
      rw [list] at paired
      exact paired.elim
    | a :: c :: rest =>
      rw [list] at paired
      have inside : c ∈ PipeCas.unlatched s p i := by
        rw [serving.unlatched none_on, list]
        exact List.mem_cons_of_mem a List.mem_cons_self
      refine ⟨i, bound, c, inside, ?_⟩
      rw [same]
      exact others i (List.mem_range.mpr bound) c inside paired.2.1.beforeACT.2

/-- **A call keeps a due round due**: it serves the round, or it leaves the queues as they are. -/
theorem Serving.schedule_due (serving : Serving s (core p)) (quiet : Quiet p) (due : Due s p)
    (h : schedule spec check s p = some (s', p', out)) : Due s' p' := by
  unfold schedule at h
  dsimp only at h
  rw [foldl_bufferSRT serving.shaped] at h
  obtain ⟨u, began, rest⟩ := Option.bind_eq_some_iff.mp h
  obtain ⟨v, served, finished⟩ := Option.map_eq_some_iff.mp rest
  obtain ⟨q, rfl, quiet', type, settled⟩ := beginRound_cases quiet began
  have kept := finish_keeps spec (outOfRound check v)
  have steady := outOfRound_steady check v
  intro start empty
  rw [finished] at kept
  have start' : v.own.roundStart = true := steady.roundStart ▸ kept.2.1 ▸ start
  have empty' : v.own.queueScheduled = [] := steady.queueScheduled ▸ kept.2.2.1 ▸ empty
  rcases (serveRound_keeps served).2 empty' with ⟨rfl, none_begun⟩ | ended
  · -- no round is on, so none was on before, and nothing is sent
    have none_on : p.queueScheduled = [] := by
      rcases settled with same | ⟨none_on, _⟩
      · have queues : q.queueScheduled = p.queueScheduled := congrArg Core.queueScheduled same
        exact queues ▸ none_begun
      · exact none_on
    have begun : (enterRound s p).roundStart = true := by
      rw [← (beginRound_keeps began).2]
      exact start'
    obtain ⟨i, bound, nonempty⟩ := serving.enters due none_on begun
    have idle : outOfRound check { scheduler := s, own := q } = { scheduler := s, own := q } := by
      unfold outOfRound
      rw [if_neg]
      have started : q.roundStart = true := start'
      simp [started]
    rw [idle] at finished
    cases finished
    exact ⟨i, bound, nonempty⟩
  · rw [ended] at start'
    cases start'

/-! ## Runs -/

/-- What a run has made of the window and of a round that is due. -/
structure Counting (k : Constraints) (calls : List PipeCall) (st : CommandScheduler × PipeCasState)
    (told : List (Option Entry)) : Prop where
  ongoing : Ongoing st
  due : Due st.1 st.2
  length : calls.length = told.length
  window : ∃ items, Keeps 1 (window (k.tFAW - 1) ((cycles calls told).map activation)) items
    st.2.fawCounter

theorem counting_create (k : Constraints) (queueCount srtRD srtWR : Nat) (m : RefreshMachine) :
    Counting k [] (create queueCount false m, { srtRD := srtRD, srtWR := srtWR }) [] where
  ongoing := ⟨.create queueCount srtRD srtWR m, rfl, rfl, rfl, rfl⟩
  due start := by cases start
  length := rfl
  window := by
    refine ⟨[], ?_⟩
    show Keeps 1 (window (k.tFAW - 1) []) [] []
    rw [window_nil]
    exact .free 1 _

variable {calls : List PipeCall} {told : List (Option Entry)}

theorem cycles_append (length : calls.length = told.length) (call : PipeCall) (out : Option Entry) :
    cycles (calls ++ [call]) (told ++ [out]) = cycles calls told ++ cycles [call] [out] := by
  unfold cycles
  rw [List.zip_append length, List.filterMap_append]

theorem Due.congr (due : Due s p) (count : s'.queueCount = s.queueCount)
    (grows : ∀ i, ∃ more, s'.waiting i = s.waiting i ++ more) : Due s' p := by
  intro start empty
  obtain ⟨i, bound, nonempty⟩ := due start empty
  obtain ⟨more, waits⟩ := grows i
  refine ⟨i, count.symm ▸ bound, ?_⟩
  rw [waits]
  exact List.append_ne_nil_of_left_ne_nil nonempty more

/-- **A step of a run.** -/
theorem Counting.step {st st' : CommandScheduler × PipeCasState} {call : PipeCall}
    (some_window : 1 ≤ spec.constraints.tFAW) (word : spec.constraints.tFAW < 2 ^ 32)
    (counting : Counting spec.constraints calls st told) (h : PipeCas.step spec st call = some (st', out)) :
    Counting spec.constraints (calls ++ [call]) st' (told ++ [out]) := by
  obtain ⟨s, p⟩ := st
  have ongoing := counting.ongoing.step h
  have length : (calls ++ [call]).length = (told ++ [out]).length := by
    simp [counting.length]
  cases call with
  | request request =>
    simp only [PipeCas.step] at h
    split at h
    · obtain ⟨rfl, rfl⟩ := Prod.mk.inj (Option.some.inj h)
      obtain ⟨-, a, c, -, -, waits⟩ := waiting_insertRequest counting.ongoing.1.shaped request
      refine ⟨ongoing, counting.due.congr rfl fun i => ?_, length, ?_⟩
      · by_cases here : i = request.bank
        · exact ⟨[a, c], by rw [waits, if_pos here]⟩
        · exact ⟨[], by rw [waits, if_neg here, List.append_nil]⟩
      · rw [cycles_append counting.length]
        simpa [cycles] using counting.window
    · cases h
  | refresh check =>
    obtain ⟨rfl, rfl⟩ := Prod.mk.inj (Option.some.inj h)
    refine ⟨ongoing, counting.due.congr (commandQueue_refresh s spec check).2 fun i => ⟨[], ?_⟩, length, ?_⟩
    · rw [waiting_refresh, List.append_nil]
    · rw [cycles_append counting.length]
      simpa [cycles] using counting.window
  | tick =>
    obtain ⟨rfl, rfl⟩ := Prod.mk.inj (Option.some.inj h)
    refine ⟨ongoing, counting.due.congr rfl fun i => ⟨[], ?_⟩, length, ?_⟩
    · rw [waiting_tick counting.ongoing.1.shaped.general, List.append_nil]
    · rw [cycles_append counting.length]
      simpa [cycles] using counting.window
  | commandSchedule check =>
    obtain ⟨⟨s', p', out'⟩, scheduled, eq⟩ := Option.map_eq_some_iff.mp h
    obtain ⟨rfl, rfl⟩ := Prod.mk.inj eq
    obtain ⟨items, keeps⟩ := counting.window
    obtain ⟨-, items', aged⟩ := aged_window some_window word keeps out'
    refine ⟨ongoing, counting.ongoing.1.schedule_due counting.ongoing.2 counting.due scheduled, length,
      items', ?_⟩
    have here : cycles [.commandSchedule check] [out'] = [out'] := rfl
    rw [cycles_append counting.length, here, List.map_append, schedule_fawCounter scheduled]
    exact aged

/-! ## The formula of the stop point -/

/-- `exeACT` over the integers. -/
def exactACT (num : Int) : Int := 5 * (num - 1) + (num - 1) / 4 * 4

/-- `tCAS_SRT` over the integers, as a snapshot calls it: with no slot for the others. -/
def exactCAS (read : Bool) (num : Int) : Int :=
  max (max 0 ((if read then 15 else 21) - 4 * (num - 1)) + exactACT num) (exactACT (num + 0)) + 9 -
    ((4 + 1) * (num - 1) + 4)

/-- The most accesses for which `exeACT` fits into 32 bits. -/
def mostAccesses : Nat := 715827884

theorem exeACT_eq {n : Nat} (fits : n + 1 ≤ mostAccesses) :
    exeACT (n + 1) = some (5 * n + n / 4 * 4) := by
  unfold mostAccesses at fits
  have one : sub32 (n + 1) 1 = n := by
    rw [sub32_one (by omega) (by omega), Nat.add_sub_cancel]
  have small : 5 * n % 2 ^ 32 = 5 * n := by omega
  unfold exeACT
  rw [one, small]
  dsimp only
  rw [if_pos]
  omega

/-- The first subterm: what is left of the gap, nothing where the subtraction wraps to a negative number,
and too much where it wraps to a positive one. -/
theorem positive_gap {gap n : Nat} (few : gap ≤ 21) (fits : n + 1 ≤ mostAccesses) :
    positive (sub32 gap (4 * n)) =
      if 2 ^ 31 + gap < 4 * n then 2 ^ 32 + gap - 4 * n else gap - 4 * n := by
  unfold mostAccesses at fits
  have small : 4 * n % 2 ^ 32 = 4 * n := by omega
  have wrapped : sub32 gap (4 * n) = if 4 * n ≤ gap then gap - 4 * n else 2 ^ 32 + gap - 4 * n := by
    unfold sub32
    rw [small]
    split <;> omega
  rw [wrapped]
  unfold positive
  split
  · split <;> split <;> omega
  · split <;> split <;> omega

/-- **A positive wrap is not seen**: the sum it is part of wraps as well, and the maximum is the other. -/
theorem max_gap {gap n : Nat} (few : gap ≤ 21) (fits : n + 1 ≤ mostAccesses) :
    max ((positive (sub32 gap (4 * n)) + (5 * n + n / 4 * 4)) % 2 ^ 32) (5 * n + n / 4 * 4) =
      gap - 4 * n + (5 * n + n / 4 * 4) := by
  rw [positive_gap few fits]
  unfold mostAccesses at fits
  split
  · next wraps =>
    have sum : (2 ^ 32 + gap - 4 * n + (5 * n + n / 4 * 4)) % 2 ^ 32 = gap + n + n / 4 * 4 := by omega
    rw [sum, Nat.max_eq_right (by omega)]
    omega
  · next fine =>
    have sum : (gap - 4 * n + (5 * n + n / 4 * 4)) % 2 ^ 32 = gap - 4 * n + (5 * n + n / 4 * 4) := by
      omega
    rw [sum, Nat.max_eq_left (by omega)]

/-- **The value of `tCAS_SRT` is the value of its formula**, up to the most accesses that `exeACT` can
take. -/
theorem tCAS_SRT_eq (read : Bool) {num : Nat} (some_ : 1 ≤ num) (fits : num ≤ mostAccesses) :
    ∃ value, tCAS_SRT read num 0 = some value ∧ (value : Int) = exactCAS read num ∧
      0 < exactCAS read num := by
  obtain ⟨n, rfl⟩ := Nat.exists_eq_add_of_le' some_
  have fits' := fits
  unfold mostAccesses at fits'
  have same : (n + 1 + 0) % 2 ^ 32 = n + 1 := Nat.mod_eq_of_lt (by omega)
  have one : sub32 (n + 1) 1 = n := by
    rw [sub32_one (by omega) (by omega), Nat.add_sub_cancel]
  obtain ⟨gap, own, own', few⟩ : ∃ gap : Nat, (if read then 15 else 21) = gap ∧
      (if read then 15 else 21 : Int) = gap ∧ gap ≤ 21 := by
    cases read
    · exact ⟨21, rfl, rfl, Nat.le_refl 21⟩
    · exact ⟨15, rfl, rfl, by decide⟩
  have value : tCAS_SRT read (n + 1) 0 =
      some (sub32 (gap - 4 * n + (5 * n + n / 4 * 4) + 9) (5 * n + 4)) := by
    unfold tCAS_SRT
    rw [same, exeACT_eq fits, one, own]
    dsimp only [Option.bind_some, Option.map_some]
    rw [max_gap few fits]
  have exact_ : exactCAS read (n + 1 : Nat) = (gap - 4 * n + n / 4 * 4 + 5 : Nat) := by
    unfold exactCAS exactACT
    rw [own']
    omega
  have result : sub32 (gap - 4 * n + (5 * n + n / 4 * 4) + 9) (5 * n + 4) =
      gap - 4 * n + n / 4 * 4 + 5 := by
    have small : (5 * n + 4) % 2 ^ 32 = 5 * n + 4 := by omega
    unfold sub32
    rw [small]
    omega
  refine ⟨_, value, ?_, ?_⟩
  · rw [exact_, result]
  · rw [exact_]
    omega

/-! ## The counters -/

theorem Counting.few {k : Constraints} {st : CommandScheduler × PipeCasState}
    (counting : Counting k calls st told) (spaced : Spaced k.tFAW (cycles calls told)) :
    st.2.fawCounter.length ≤ 4 := by
  obtain ⟨items, keeps⟩ := counting.window
  have recent : st.2.fawCounter.length =
      ((cycles calls told).drop ((cycles calls told).length - (k.tFAW - 1))).countP activates := by
    rw [← keeps.length_eq, keeps.items, reduceOption_window, List.length_map, ← List.map_drop,
      reduceOption_activation]
  rw [recent]
  apply spaced _ (List.drop_suffix _ _).isInfix
  rw [List.length_drop]
  omega

theorem Counting.snapshot_ne_nil {k : Constraints} (counting : Counting k calls (s, p) told)
    {queues : List Nat} (taken : snapshotOf s p = some queues) : queues ≠ [] := by
  unfold snapshotOf at taken
  rw [foldl_bufferSRT counting.ongoing.1.shaped] at taken
  dsimp only at taken
  split at taken
  · next begins =>
    obtain ⟨start, -⟩ := Bool.and_eq_true_iff.mp begins
    obtain ⟨start, none_on⟩ := Bool.and_eq_true_iff.mp start
    have empty : p.queueScheduled = [] := List.isEmpty_iff.mp none_on
    cases taken
    exact counting.ongoing.1.snapshot_ne_nil empty
      (counting.ongoing.1.enters counting.due empty start)
  · cases taken

/-- **The counters of PipeCAS do not wrap.** Every requestor is critical. In every state of a run in which
no five activations are sent within `tFAW` calls, with any answers of the device: `fawCounter` is strictly
increasing, has four entries at most, all from 1 to `tFAW`, and a call takes one from entries of at least
1 only; a snapshot enters a queue, so that its count is not 0 while it fits into 32 bits. And for every
count up to the most accesses that `exeACT` can take, `tCAS_SRT` has the value of its formula, which is
positive. -/
theorem counters_noWrap (spec : DeviceSpec) (queueCount srtRD srtWR : Nat) (m : RefreshMachine)
    (some_window : 1 ≤ spec.constraints.tFAW) (word : spec.constraints.tFAW < 2 ^ 32)
    {calls : List PipeCall} {s : CommandScheduler} {p : PipeCasState} {told : List (Option Entry)}
    (spaced : Spaced spec.constraints.tFAW (cycles calls told))
    (ran : Lib.Machine.run (step spec) (create queueCount false m, { srtRD := srtRD, srtWR := srtWR })
      calls = some ((s, p), told)) :
    p.fawCounter.Pairwise (· < ·) ∧ (∀ n ∈ p.fawCounter, 1 ≤ n ∧ n ≤ spec.constraints.tFAW) ∧
      p.fawCounter.length ≤ 4 ∧
      (∀ check s' p' out, schedule spec check s p = some (s', p', out) →
        p'.fawCounter = aged spec.constraints p.fawCounter out ∧
          ∀ n ∈ counted spec.constraints p.fawCounter out, 1 ≤ n) ∧
      (∀ queues, snapshotOf s p = some queues →
        1 ≤ queues.length ∧ (queues.length < 2 ^ 32 → 1 ≤ queues.length % 2 ^ 32)) ∧
      ∀ read num, 1 ≤ num → num ≤ mostAccesses → ∃ value, tCAS_SRT read num 0 = some value ∧
        (value : Int) = exactCAS read num ∧ 0 < exactCAS read num := by
  have counting : Counting spec.constraints calls (s, p) told :=
    Lib.Machine.run_history (Counting spec.constraints)
      (fun counting h => counting.step some_window word h)
      (counting_create spec.constraints queueCount srtRD srtWR m) ran
  obtain ⟨items, keeps⟩ := counting.window
  refine ⟨keeps.strict, fun n hn => ?_, counting.few spaced, ?_, fun queues taken => ?_, ?_⟩
  · have inside := keeps.bounds n hn
    rw [length_window] at inside
    omega
  · intro check s' p' out scheduled
    obtain ⟨bounds, -⟩ := aged_window some_window word keeps out
    exact ⟨schedule_fawCounter scheduled, fun n hn => (bounds n hn).1⟩
  · have some_queue := List.length_pos_iff.mpr (counting.snapshot_ne_nil taken)
    refine ⟨some_queue, fun fits => ?_⟩
    rw [Nat.mod_eq_of_lt fits]
    exact some_queue
  · exact fun read num some_ fits => tCAS_SRT_eq read some_ fits

/-- It is enough to look at the windows of that many calls. -/
theorem spaced_of_windows {tFAW : Nat} {sent : List (Option Entry)}
    (each : ∀ t ∈ sent.tails, (t.take tFAW).countP activates ≤ 4) : Spaced tFAW sent := by
  intro w inside short
  obtain ⟨t, front, later⟩ := List.infix_iff_prefix_suffix.mp inside
  have within : w <+: t.take tFAW := List.prefix_take_iff.mpr ⟨front, short⟩
  exact Nat.le_trans within.sublist.countP_le (each t ((List.mem_tails t sent).mpr later))

/-- A scheduler with queues for six banks, at the start. -/
def sixBanks : CommandScheduler × PipeCasState :=
  (create 6 false (.create .none openPageSetup.device 0 0), { srtRD := 0, srtWR := 0 })

/-- A read of each bank, and cycles in which the device takes an activation every sixth time. -/
def sixReads : List PipeCall :=
  (List.range 6).map (fun bank => .request (bankRequest .DATA_READ bank)) ++
    (List.range 32).flatMap fun n =>
      [.commandSchedule fun c => c.busPacketType != .ACT || n % 6 == 0, .tick]

/-- The law where six activations were sent, four of them in the window. -/
theorem counters_noWrap_sixReads :
    ∃ s p told, Lib.Machine.run (step openPageSetup.device) sixBanks sixReads = some ((s, p), told) ∧
      (cycles sixReads told).countP activates = 6 ∧ p.fawCounter.length = 4 ∧
      p.fawCounter.Pairwise (· < ·) ∧
      ∀ n ∈ p.fawCounter, 1 ≤ n ∧ n ≤ openPageSetup.device.constraints.tFAW := by
  obtain ⟨⟨s, p⟩, told, ran, sent, most, windows⟩ := Lib.Machine.run_exists_told
    (step openPageSetup.device)
    (fun st told => (cycles sixReads told).countP activates = 6 ∧ 4 ≤ st.2.fawCounter.length ∧
      ∀ t ∈ (cycles sixReads told).tails,
        (t.take openPageSetup.device.constraints.tFAW).countP activates ≤ 4) sixBanks sixReads
    (by decide +kernel)
  obtain ⟨strict, bounds, short, _⟩ := counters_noWrap openPageSetup.device 6 0 0
    (.create .none openPageSetup.device 0 0) (by decide) (by decide) (spaced_of_windows windows) ran
  exact ⟨s, p, told, ran, sent, Nat.le_antisymm short most, strict, bounds⟩

/-! ### Too many accesses -/

/-- A scheduler with one queue, at the start. -/
def oneBank : CommandScheduler × PipeCasState :=
  (create 1 false (.create .none openPageSetup.device 0 0), { srtRD := 0, srtWR := 0 })

/-- The pair of a read for bank 0. -/
def readPair : List BusPacket :=
  CommandGenerator.pipeCommands true (sampleRequest .DATA_READ 0 0) false

/-- **As many reads as one likes** wait in one queue. -/
theorem run_reads (n : Nat) :
    ∃ s, Lib.Machine.run (step openPageSetup.device) oneBank
        (List.replicate n (.request (sampleRequest .DATA_READ 0 0))) =
          some ((s, oneBank.2), List.replicate n none) ∧
      s.Shaped false ∧ s.queueCount = 1 ∧ s.waiting 0 = (List.replicate n readPair).flatten := by
  induction n with
  | zero => exact ⟨oneBank.1, rfl, shaped_create 1 false _, rfl, rfl⟩
  | succ n ih =>
    obtain ⟨s, ran, shaped, count, waits⟩ := ih
    obtain ⟨a, c, made, joins⟩ : ∃ a c, readPair = [a, c] ∧ ∀ s : CommandScheduler,
        insertRequest s (sampleRequest .DATA_READ 0 0) =
          (s.insertCommand 0 a true).insertCommand 0 c true :=
      ⟨_, _, rfl, fun _ => rfl⟩
    have first := shaped.insertCommand (a, 0) fun _ => rfl
    have second := first.1.insertCommand (c, 0) fun _ => rfl
    have buffer := second.2 0 0
    rw [second.1.bufferOf_false, first.2, shaped.bufferOf_false] at buffer
    refine ⟨insertRequest s (sampleRequest .DATA_READ 0 0), ?_, ?_, count, ?_⟩
    · rw [List.replicate_succ', List.replicate_succ']
      refine Lib.Machine.run_append_eq_some.mpr ⟨(s, oneBank.2), _, [none], ran, ?_, rfl⟩
      refine Lib.Machine.run_cons_eq_some.mpr ⟨_, none, [], ?_, rfl, rfl⟩
      have inside : (sampleRequest .DATA_READ 0 0).bank < s.queueCount := by
        rw [count]
        decide
      simp only [step, inside, if_true]
    · rw [joins]
      exact second.1
    · rw [joins, buffer, List.replicate_succ', List.flatten_append, ← waits, List.flatten_singleton, made]
      simp [Entry.inBuffer]

/-- The snapshot enters the queue once for each of them. -/
theorem snapshotOf_reads {n : Nat} (shaped : s.Shaped false) (count : s.queueCount = 1)
    (waits : s.waiting 0 = (List.replicate (n + 1) readPair).flatten) :
    ∃ queues, snapshotOf s oneBank.2 = some queues ∧ queues.length = n + 1 := by
  have unlatched_eq : unlatched s oneBank.2 0 = (List.replicate (n + 1) readPair).flatten := waits
  obtain ⟨a, c, made, act, read⟩ : ∃ a c, readPair = [a, c] ∧ a.busPacketType = .ACT ∧
      c.busPacketType = .RDA := ⟨_, _, rfl, rfl, rfl⟩
  have type : nextType s oneBank.2 = .RDA := by
    have none_on : oneBank.2.queueScheduled.isEmpty = true := rfl
    have last : oneBank.2.prevCAS = .WRA := rfl
    have before : BusPacketType.beforeACT .ACT = false ∧ BusPacketType.beforeACT .RDA = true :=
      ⟨rfl, rfl⟩
    unfold nextType
    rw [if_pos none_on, count, List.range_one, List.foldl_cons, List.foldl_nil]
    unfold typeTurn
    rw [unlatched_eq, last, made, List.replicate_succ, List.flatten_cons]
    simp [act, read, before]
  have found : ∀ n, ((List.replicate n readPair).flatten.filter
      fun c => c.busPacketType = .RDA).length = n := by
    intro n
    induction n with
    | zero => rfl
    | succ n ih =>
      rw [List.replicate_succ, List.flatten_cons, List.filter_append, List.length_append, ih, made]
      simp [act, read, Nat.add_comm]
  refine ⟨snapshot s oneBank.2 .RDA, ?_, ?_⟩
  · unfold snapshotOf
    rw [foldl_bufferSRT shaped]
    have start : (enterRound s oneBank.2).roundStart = true := by
      have none_on : oneBank.2.queueScheduled = [] := rfl
      unfold enterRound
      rw [count]
      simp [unlatched_eq, made, List.replicate_succ, none_on]
    have settled : (enterRound s oneBank.2).queueScheduled = [] ∧
        (enterRound s oneBank.2).actCounter = 0 ∧ (enterRound s oneBank.2).roundType = .RDA :=
      ⟨rfl, rfl, type⟩
    dsimp only
    rw [start, settled.1, settled.2.1, settled.2.2]
    rfl
  · unfold snapshot
    rw [count, List.range_one, List.flatMap_cons, List.flatMap_nil, List.append_nil, List.length_map,
      unlatched_eq]
    exact found (n + 1)

/-- With more reads queued than `mostAccesses`, `exeACT` has no value. With 858993461 of them the snapshot's
count wraps `5 * (num - 1)` round, and the stop point is 1717986936 where the formula has 858993465. With
`2 ^ 32` of them the count is 0. No activation is sent in any of the runs. -/
theorem counters_wrap :
    (∃ s p told queues, Lib.Machine.run (step openPageSetup.device) oneBank
        (List.replicate 858993461 (.request (sampleRequest .DATA_READ 0 0))) = some ((s, p), told) ∧
      (∀ o ∈ told, o = none) ∧ snapshotOf s p = some queues ∧ queues.length = 858993461 ∧
      tCAS_SRT true (queues.length % 2 ^ 32) 0 = some 1717986936 ∧
      exactCAS true queues.length = 858993465 ∧ tCAS_SRT true (mostAccesses + 1) 0 = none) ∧
    ∃ s p told queues, Lib.Machine.run (step openPageSetup.device) oneBank
        (List.replicate (2 ^ 32) (.request (sampleRequest .DATA_READ 0 0))) = some ((s, p), told) ∧
      (∀ o ∈ told, o = none) ∧ snapshotOf s p = some queues ∧ queues.length % 2 ^ 32 = 0 := by
  constructor
  · obtain ⟨s, ran, shaped, count, waits⟩ := run_reads 858993461
    obtain ⟨queues, taken, length⟩ := snapshotOf_reads (n := 858993460) shaped count waits
    refine ⟨s, _, _, queues, ran, fun o ho => List.eq_of_mem_replicate ho, taken, length, ?_, ?_, ?_⟩
    · rw [length]
      decide +kernel
    · rw [length]
      decide +kernel
    · decide +kernel
  · obtain ⟨s, ran, shaped, count, waits⟩ := run_reads (2 ^ 32)
    obtain ⟨queues, taken, length⟩ := snapshotOf_reads (n := 2 ^ 32 - 1) shaped count waits
    refine ⟨s, _, _, queues, ran, fun o ho => List.eq_of_mem_replicate ho, taken, ?_⟩
    calc queues.length % 2 ^ 32 = (2 ^ 32 - 1 + 1) % 2 ^ 32 := by rw [length]
      _ = 0 := by decide

end MCsim.PipeCas
