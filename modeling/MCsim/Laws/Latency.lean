import MCsim.Requestor
import MCsim.Lib.Machine
import MCsim.Lib.Pairing

/-!
# The worst-case latency that a requestor reports

A completion reaches a requestor as an address, and the requestor takes it for that of its oldest
outstanding request to the address. So `wcLatency` is the largest span from the n-th request to an
address to the n-th completion of that address (`Inv`), in 32 bits. These spans are never longer than
the longest real latency (`Lib.Pairing.Ledger.Turn.le_stay`): the report may be too small, and it is
right exactly if every latency is reached by such a span.

The memory system is left open: it may complete any request that it has, whenever it likes, and answer
back-pressure as it likes. What really happens is kept beside the requestor in a `Ledger`, whose clock
does not wrap.
-/

namespace MCsim
namespace Latency

open Lib.Pairing

/-- `Requestor::sendRequest`, which `update` calls for its pending request. -/
def sendRequest (q : Requestor) (request : Request) : Requestor :=
  { q.sent request with pendingRequest := q.pendingRequest }

/-- What happens to a requestor. A completion is of the request at a position among those that the
memory system has. -/
inductive Event where
  | sendRequest (request : Request)
  | update (writeMode : Bool) (generalBufferSize : Nat)
  | complete (index : Nat)

/-- The requestor and what really happens to its requests, by address. -/
abbrev State := Requestor × Ledger Nat

/-- What comes back for a request to an address. -/
def answer (q : Requestor) (address : Nat) : Request :=
  { handle := 0, requestType := .DATA_READ, requestorID := q.requestorID,
    requestSize := q.RequestSize, address := address, arriveTime := 0 }

/-- One event. -/
def step : Lib.Machine.Step State Event Unit
  | (q, l), .sendRequest request => some ((sendRequest q request, l.arrive request.address), ())
  | (q, l), .update writeMode generalBufferSize =>
    match q.read.sends writeMode generalBufferSize with
    | some request =>
      some (((q.read.sent request).endUpdate, (l.arrive request.address).tick), ())
    | none => some ((q.read.endUpdate, l.tick), ())
  | (q, l), .complete index =>
    (l.inside[index]?).bind fun x =>
      (q.returnData (answer q x.1)).bind fun q => (l.leave index).map fun l => ((q, l), ())

/-- A requestor at the start of its trace, in cycle 1. -/
def start (requestorID : Nat) (inOrder : Bool) (trace : List (Option TraceLine)) : State :=
  ({ requestorID := requestorID, inOrder := inOrder, transFile := trace }, { now := 1 })

/-! ## The invariant -/

/-- A record as a requestor keeps it, with the cycle in 32 bits. -/
def wrap (x : Nat × Nat) : Nat × Nat := (x.1, x.2 % 2 ^ 32)

/-- The span that a requestor works out for a pair. -/
def reported (arrival departure : Nat) : Nat := (departure - arrival) % 2 ^ 32

/-- The requestor's record is the ledger's, and its worst case is the largest span reported. -/
structure Inv (st : State) : Prop where
  valid : st.2.Valid
  clock : st.1.currentClockCycle = st.2.now % 2 ^ 32
  core : st.1.corePendingData.map (fun r => (r.address, r.arriveTime)) = st.2.records.map wrap
  upper : ∀ {a n s c}, st.2.Turn a n s c → reported s c ≤ st.1.wcLatency
  attained : st.1.wcLatency = 0 ∨ ∃ a n s c, st.2.Turn a n s c ∧ st.1.wcLatency = reported s c

theorem inv_start (requestorID : Nat) (inOrder : Bool) (trace : List (Option TraceLine)) :
    Inv (start requestorID inOrder trace) := by
  refine ⟨Ledger.Valid.start 1, rfl, rfl, ?_, .inl rfl⟩
  intro a n s c turn
  simp [Ledger.Turn, start, timesOf] at turn

/-- Reading the trace touches neither the clock nor what was sent. -/
theorem read_kept (q : Requestor) :
    q.read.corePendingData = q.corePendingData ∧ q.read.wcLatency = q.wcLatency ∧
      q.read.currentClockCycle = q.currentClockCycle := by
  have arrival : ∀ (q : Requestor) (line : TraceLine),
      (q.arrival line).1.corePendingData = q.corePendingData ∧
        (q.arrival line).1.wcLatency = q.wcLatency ∧
        (q.arrival line).1.currentClockCycle = q.currentClockCycle := by
    intro q line
    unfold Requestor.arrival
    split
    · exact ⟨rfl, rfl, rfl⟩
    · split <;> exact ⟨rfl, rfl, rfl⟩
  unfold Requestor.read Requestor.readingTraceFile
  dsimp only
  split
  · exact ⟨rfl, rfl, rfl⟩
  · split
    · split
      · exact ⟨rfl, rfl, rfl⟩
      · exact ⟨rfl, rfl, rfl⟩
      · next line rest _ => exact arrival { q with latency := q.latency + 1 } line
    · exact ⟨rfl, rfl, rfl⟩

variable {st st' : State} {q : Requestor} {l : Ledger Nat}

/-- A request that is sent joins both records. -/
theorem Inv.arrive (inv : Inv (q, l)) (q' : Requestor) (request : Request)
    (clock : q'.currentClockCycle = q.currentClockCycle) (wc : q'.wcLatency = q.wcLatency)
    (core : q'.corePendingData =
      q.corePendingData ++ [{ request with arriveTime := q.currentClockCycle }]) :
    Inv (q', l.arrive request.address) := by
  have same : ∀ {a n s c}, (l.arrive request.address).Turn a n s c → l.Turn a n s c := by
    intro a n s c turn
    exact turn.of_arrive inv.valid
  refine ⟨inv.valid.arrive _, clock.trans inv.clock, ?_, ?_, ?_⟩
  · show q'.corePendingData.map _ = (l.records ++ [(request.address, l.now)]).map wrap
    rw [core, List.map_append, List.map_append, inv.core, List.map_singleton, List.map_singleton,
      inv.clock]
    rfl
  · intro a n s c turn
    show _ ≤ q'.wcLatency
    rw [wc]
    exact inv.upper (same turn)
  · show q'.wcLatency = 0 ∨ _
    rw [wc]
    apply inv.attained.imp_right
    rintro ⟨a, n, s, c, turn, eq⟩
    exact ⟨a, n, s, c, turn.arrive, eq⟩

/-- A cycle passes. -/
theorem Inv.tick (inv : Inv (q, l)) {q' : Requestor}
    (clock : q'.currentClockCycle = (q.currentClockCycle + 1) % 2 ^ 32)
    (wc : q'.wcLatency = q.wcLatency) (core : q'.corePendingData = q.corePendingData) :
    Inv (q', l.tick) := by
  refine ⟨inv.valid.tick, ?_, ?_, ?_, ?_⟩
  · have before : q.currentClockCycle = l.now % 2 ^ 32 := inv.clock
    show q'.currentClockCycle = (l.now + 1) % 2 ^ 32
    omega
  · show q'.corePendingData.map _ = l.records.map wrap
    rw [core]
    exact inv.core
  · intro a n s c turn
    show _ ≤ q'.wcLatency
    rw [wc]
    exact inv.upper turn
  · show q'.wcLatency = 0 ∨ _
    rw [wc]
    exact inv.attained

/-! ## A completion -/

/-- The first request of an address in the requestor's record is the first in the ledger's. -/
theorem findIdx_oldest {a old : Nat} {rest : List Nat} {core : List Request}
    {records : List (Nat × Nat)}
    (same : core.map (fun r => (r.address, r.arriveTime)) = records.map wrap)
    (oldest : timesOf a records = old :: rest) :
    ∃ index r, core.findIdx? (fun r => a == r.address) = some index ∧ core[index]? = some r ∧
      r.arriveTime = old % 2 ^ 32 ∧
      (core.eraseIdx index).map (fun r => (r.address, r.arriveTime)) =
        (records.eraseP fun x => x.1 = a).map wrap := by
  induction records generalizing core with
  | nil => simp [timesOf] at oldest
  | cons x records ih =>
    cases core with
    | nil => simp at same
    | cons r core =>
      obtain ⟨⟨address, arrival⟩, same⟩ : (r.address = x.1 ∧ r.arriveTime = x.2 % 2 ^ 32) ∧
          core.map (fun r => (r.address, r.arriveTime)) = records.map wrap := by
        simpa [wrap] using same
      rw [timesOf_cons] at oldest
      by_cases here : x.1 = a
      · rw [if_pos here] at oldest
        obtain ⟨rfl, _⟩ := List.cons.inj oldest
        refine ⟨0, r, ?_, rfl, arrival, ?_⟩
        · have own : (a == r.address) = true := by
            rw [address]
            simpa using here.symm
          simp [List.findIdx?_cons, own]
        · simpa [here] using same
      · rw [if_neg here] at oldest
        obtain ⟨index, r', found, at_, time, erased⟩ := ih same oldest
        refine ⟨index + 1, r', ?_, at_, time, ?_⟩
        · have other : (a == r.address) = false := by
            rw [address]
            simpa using Ne.symm here
          simp [List.findIdx?_cons, other, found]
        · simp [here, erased, wrap, address, arrival]

/-- **A completion** is paired with the oldest record of its address. -/
theorem returnData_oldest {a old : Nat} {rest : List Nat} (inv : Inv (q, l)) (past : old ≤ l.now)
    (oldest : timesOf a l.records = old :: rest) :
    ∃ q', q.returnData (answer q a) = some q' ∧ q'.currentClockCycle = q.currentClockCycle ∧
      q'.wcLatency = max q.wcLatency (reported old l.now) ∧
      q'.corePendingData.map (fun r => (r.address, r.arriveTime)) =
        (l.records.eraseP fun x => x.1 = a).map wrap := by
  obtain ⟨index, r, found, at_, time, erased⟩ := findIdx_oldest inv.core oldest
  have clock : q.currentClockCycle = l.now % 2 ^ 32 := inv.clock
  simp only [Requestor.returnData, answer, found, at_, Option.map_some]
  refine ⟨_, rfl, rfl, ?_, erased⟩
  show max q.wcLatency ((q.currentClockCycle + (2 ^ 32 - r.arriveTime)) % 2 ^ 32) = _
  congr 1
  rw [time, clock, reported]
  omega

theorem Inv.complete (inv : Inv (q, l)) {index : Nat} {x : Nat × Nat}
    (at_ : l.inside[index]? = some x) :
    ∃ q' l', q.returnData (answer q x.1) = some q' ∧ l.leave index = some l' ∧ Inv (q', l') := by
  obtain ⟨old, rest, records, first⟩ := inv.valid.oldest at_
  have past : old ≤ l.now := Ledger.timesOf_arrived_le inv.valid (List.mem_of_getElem? first)
  obtain ⟨q', returned, clock, wc, core⟩ := returnData_oldest inv past records
  obtain ⟨l', left⟩ : ∃ l', l.leave index = some l' := ⟨_, by simp [Ledger.leave, at_]; rfl⟩
  have records' : l'.records = l.records.eraseP fun r => r.1 = x.1 := by
    simp only [Ledger.leave, at_, Option.map_some, Option.some.injEq] at left
    rw [← left]
  have now : l'.now = l.now := by
    simp only [Ledger.leave, at_, Option.map_some, Option.some.injEq] at left
    rw [← left]
  refine ⟨q', l', returned, left, inv.valid.leave left, ?_, ?_, ?_, ?_⟩
  · show q'.currentClockCycle = l'.now % 2 ^ 32
    rw [clock, now]
    exact inv.clock
  · rw [core, records']
  · intro a n s c turn
    show _ ≤ q'.wcLatency
    rw [wc]
    rcases turn.of_leave at_ left with before | ⟨rfl, _, rfl, arrival⟩
    · exact Nat.le_trans (inv.upper before) (Nat.le_max_left _ _)
    · obtain rfl : old = s := Option.some.inj (first.symm.trans arrival)
      exact Nat.le_max_right _ _
  · show q'.wcLatency = 0 ∨ _
    rw [wc]
    rcases Nat.le_total q.wcLatency (reported old l.now) with small | large
    · rw [Nat.max_eq_right small]
      exact .inr ⟨x.1, _, old, l.now, Ledger.Turn.of_oldest at_ left first, rfl⟩
    · rw [Nat.max_eq_left large]
      apply inv.attained.imp_right
      rintro ⟨a, n, s, c, turn, eq⟩
      exact ⟨a, n, s, c, turn.leave at_ left, eq⟩

/-! ## Runs -/

theorem step_inv {event : Event} {out : Unit} (inv : Inv st) (h : step st event = some (st', out)) :
    Inv st' := by
  obtain ⟨q, l⟩ := st
  cases event with
  | sendRequest request =>
    obtain rfl := congrArg Prod.fst (Option.some.inj h)
    exact inv.arrive _ request rfl rfl rfl
  | update writeMode generalBufferSize =>
    obtain ⟨core, wc, clock⟩ := read_kept q
    have read : Inv (q.read, l) := by
      refine ⟨inv.valid, clock.trans inv.clock, ?_, ?_, ?_⟩
      · rw [core]
        exact inv.core
      · rw [wc]
        exact inv.upper
      · rw [wc]
        exact inv.attained
    simp only [step] at h
    split at h
    · next request _ =>
      obtain rfl := congrArg Prod.fst (Option.some.inj h)
      exact (read.arrive (q.read.sent request) request rfl rfl rfl).tick rfl rfl rfl
    · obtain rfl := congrArg Prod.fst (Option.some.inj h)
      exact read.tick rfl rfl rfl
  | complete index =>
    obtain ⟨x, at_, h⟩ := Option.bind_eq_some_iff.mp h
    obtain ⟨q', l', returned, left, inv'⟩ := inv.complete at_
    simp only [returned, left, Option.bind_some, Option.map_some] at h
    obtain rfl := congrArg Prod.fst (Option.some.inj h)
    exact inv'

/-- An event is taken, if it completes something that the memory system has. -/
theorem step_defined (inv : Inv st) (event : Event)
    (there : ∀ index, event = .complete index → index < st.2.inside.length) :
    ∃ st', step st event = some (st', ()) := by
  obtain ⟨q, l⟩ := st
  cases event with
  | sendRequest request => exact ⟨_, rfl⟩
  | update writeMode generalBufferSize =>
    simp only [step]
    split
    · exact ⟨_, rfl⟩
    · exact ⟨_, rfl⟩
  | complete index =>
    have at_ := List.getElem?_eq_getElem (there index rfl)
    obtain ⟨q', l', returned, left, _⟩ := inv.complete at_
    exact ⟨(q', l'), by simp only [step, at_, returned, left, Option.bind_some, Option.map_some]⟩

/-- The largest of these numbers, 0 where there is none. -/
def largest (l : List Nat) : Nat := l.foldr max 0

theorem le_largest {l : List Nat} {x : Nat} (h : x ∈ l) : x ≤ largest l := by
  induction l with
  | nil => cases h
  | cons y l ih =>
    rcases List.mem_cons.mp h with rfl | h
    · exact Nat.le_max_left _ _
    · exact Nat.le_trans (ih h) (Nat.le_max_right _ _)

theorem largest_le {l : List Nat} {bound : Nat} (h : ∀ x ∈ l, x ≤ bound) : largest l ≤ bound := by
  induction l with
  | nil => exact Nat.zero_le _
  | cons y l ih =>
    refine Nat.max_le.mpr ⟨h y List.mem_cons_self, ?_⟩
    exact ih fun x hx => h x (List.mem_cons_of_mem y hx)

/-- **The reported worst case.** In every run after which everything sent has completed, whatever was
sent and in whatever order it completed: the reported worst case is at least every latency and equals
the largest, exactly if every latency is below `2 ^ 32` and no longer than the span from the n-th
request to some address to the n-th completion of that address. -/
theorem wcLatency_exact (requestorID : Nat) (inOrder : Bool) (trace : List (Option TraceLine))
    {events : List Event} {st : State} {outs : List Unit}
    (ran : Lib.Machine.run step (start requestorID inOrder trace) events = some (st, outs))
    (all : st.2.inside = []) :
    ((∀ x ∈ st.2.left, x.span ≤ st.1.wcLatency) ∧
      st.1.wcLatency = largest (st.2.left.map Stay.span)) ↔
    ∀ x ∈ st.2.left, x.span < 2 ^ 32 ∧
      ∃ address n sent completed, st.2.Turn address n sent completed ∧ x.span ≤ completed - sent := by
  have inv : Inv st := by
    apply Lib.Machine.run_invariant Inv step_inv ?_ ran
    exact inv_start requestorID inOrder trace
  have below : st.1.wcLatency < 2 ^ 32 := by
    rcases inv.attained with none | ⟨a, n, s, c, _, eq⟩
    · omega
    · rw [eq]
      exact Nat.mod_lt _ (by decide)
  -- where the latencies fit, so do the spans, and each is reported as it is
  have exact : (∀ x ∈ st.2.left, x.span < 2 ^ 32) → ∀ {a n s c}, st.2.Turn a n s c →
      reported s c = c - s := by
    intro fit a n s c turn
    obtain ⟨x, hx, le⟩ := turn.le_stay inv.valid all
    exact Nat.mod_eq_of_lt (Nat.lt_of_le_of_lt le (fit x hx))
  constructor
  · rintro ⟨upper, _⟩ x hx
    have fit : ∀ x ∈ st.2.left, x.span < 2 ^ 32 := fun x hx => Nat.lt_of_le_of_lt (upper x hx) below
    refine ⟨fit x hx, ?_⟩
    rcases inv.attained with none | ⟨a, n, s, c, turn, eq⟩
    · -- nothing was reported to be longer than 0
      have valid := inv.valid
      obtain ⟨n, at_⟩ : ∃ n, (st.2.departures x.key)[n]? = some x.departure :=
        List.getElem?_of_mem (mem_timesOf.mpr (List.mem_map.mpr ⟨x, hx, rfl⟩))
      have small : n < (timesOf x.key st.2.arrived).length :=
        Nat.lt_of_lt_of_le (List.getElem?_eq_some_iff.mp at_).1 (valid.few x.key)
      refine ⟨x.key, n, _, x.departure, ⟨List.getElem?_eq_getElem small, at_⟩, ?_⟩
      have zero := upper x hx
      rw [none] at zero
      omega
    · refine ⟨a, n, s, c, turn, ?_⟩
      have le := upper x hx
      rw [eq, exact fit turn] at le
      exact le
  · intro reached
    have fit : ∀ x ∈ st.2.left, x.span < 2 ^ 32 := fun x hx => (reached x hx).1
    have upper : ∀ x ∈ st.2.left, x.span ≤ st.1.wcLatency := by
      intro x hx
      obtain ⟨_, a, n, s, c, turn, le⟩ := reached x hx
      have reports := inv.upper turn
      rw [exact fit turn] at reports
      exact Nat.le_trans le reports
    refine ⟨upper, Nat.le_antisymm ?_ ?_⟩
    · rcases inv.attained with none | ⟨a, n, s, c, turn, eq⟩
      · rw [none]
        exact Nat.zero_le _
      · rw [eq, exact fit turn]
        obtain ⟨x, hx, le⟩ := turn.le_stay inv.valid all
        exact Nat.le_trans le (le_largest (List.mem_map_of_mem hx))
    · apply largest_le
      intro span hspan
      obtain ⟨x, hx, rfl⟩ := List.mem_map.mp hspan
      exact upper x hx

/-- A read and then a write of one address. -/
def readThenWrite : List (Option TraceLine) :=
  [some { addr := 64, requestType := .DATA_READ, compDelay := 1 },
    some { addr := 64, requestType := .DATA_WRITE, compDelay := 1 }]

/-- They are sent in cycles 2 and 3, and these completions follow. -/
def sendBoth (completions : List Event) : List Event :=
  List.replicate 3 (.update false 0) ++ completions

/-- The law where the read completes first: the latencies are 3 and 6, and 6 is reported. -/
theorem wcLatency_exact_inTurn :
    ∃ st outs, Lib.Machine.run step (start 0 false readThenWrite)
        (sendBoth ([.update false 0, .complete 0] ++ List.replicate 4 (.update false 0) ++
          [.complete 0])) = some (st, outs) ∧
      st.2.left.map Stay.span = [3, 6] ∧ (∀ x ∈ st.2.left, x.span ≤ st.1.wcLatency) ∧
      st.1.wcLatency = 6 := by
  obtain ⟨st, outs, ran, all, spans, fit, reached⟩ := Lib.Machine.run_exists step
    (fun st => st.2.inside = [] ∧ st.2.left.map Stay.span = [3, 6] ∧
      (∀ x ∈ st.2.left, x.span < 2 ^ 32 ∧ x.span ≤ 6) ∧
      (timesOf 64 st.2.arrived)[1]? = some 3 ∧ (st.2.departures 64)[1]? = some 9)
    (start 0 false readThenWrite)
    (sendBoth ([.update false 0, .complete 0] ++ List.replicate 4 (.update false 0) ++
      [.complete 0])) (by decide +kernel)
  have law := (wcLatency_exact 0 false readThenWrite ran all).mpr fun x hx =>
    ⟨(fit x hx).1, 64, 1, 3, 9, reached, (fit x hx).2⟩
  exact ⟨st, outs, ran, spans, law.1, by rw [law.2, spans]; rfl⟩

/-- Where the write completes first, each of the two is paired with the other: the read took 7 cycles
and 6 are reported. -/
theorem wcLatency_exact_outOfTurn :
    ∃ st outs, Lib.Machine.run step (start 0 false readThenWrite)
        (sendBoth ([.complete 1] ++ List.replicate 5 (.update false 0) ++ [.complete 0])) =
          some (st, outs) ∧
      st.2.inside = [] ∧ st.2.left.map Stay.span = [1, 7] ∧ st.1.wcLatency = 6 := by
  obtain ⟨st, outs, ran, told⟩ := Lib.Machine.run_exists step
    (fun st => st.2.inside = [] ∧ st.2.left.map Stay.span = [1, 7] ∧ st.1.wcLatency = 6)
    (start 0 false readThenWrite)
    (sendBoth ([.complete 1] ++ List.replicate 5 (.update false 0) ++ [.complete 0]))
    (by decide +kernel)
  exact ⟨st, outs, ran, told⟩

end Latency
end MCsim
