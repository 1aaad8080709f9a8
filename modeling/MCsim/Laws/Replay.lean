import MCsim.TraceFile
import MCsim.Lib.Machine

/-!
# An in-order requestor replays its trace

An in-order requestor is idle, or it holds the next line's request back until its time, or it waits for
the one request it has sent (`Phase`). It goes from one to the next around, one trace line at a time, so
what it has sent is a beginning of the trace, and it reports the end only when it is idle with nothing
left to read.

The memory system is left open: it completes what it has when it likes and answers back-pressure as it
likes. What was sent and completed, and when, is kept beside the requestor, by a clock that does not
wrap.
-/

namespace MCsim
namespace Replay

/-- What happens to a requestor. -/
inductive Event where
  | update (writeMode : Bool) (generalBufferSize : Nat)
  | complete (index : Nat)

/-- The requestor, and what really happens: the requests sent with their cycles, the cycles of the
completions, and the requests that the memory system has. -/
structure State where
  requestor : Requestor
  now : Nat := 1
  sent : List (Request × Nat) := []
  completed : List Nat := []
  inside : List Request := []

/-- One event, with the request that was sent. -/
def step : Lib.Machine.Step State Event (Option Request)
  | st, .update writeMode generalBufferSize =>
    match st.requestor.read.sends writeMode generalBufferSize with
    | some request =>
      some ({ st with
        requestor := (st.requestor.read.sent request).endUpdate
        now := st.now + 1
        sent := st.sent ++ [(request, st.now)]
        inside := st.inside ++ [request] }, some request)
    | none => some ({ st with requestor := st.requestor.read.endUpdate, now := st.now + 1 }, none)
  | st, .complete index =>
    (st.inside[index]?).bind fun request =>
      (st.requestor.returnData request).map fun q =>
        ({ st with
          requestor := q
          completed := st.completed ++ [st.now]
          inside := st.inside.eraseIdx index }, none)

/-- An in-order requestor at the start of its trace. -/
def start (requestorID : Nat) (trace : List (Option TraceLine)) : State :=
  { requestor := { requestorID := requestorID, inOrder := true, transFile := trace } }

/-- No cycle count of the update overflows: neither the clock nor the arrival time of the line that is
read next. -/
def Fits (st : State) : Event → Prop
  | .update _ _ => st.requestor.currentClockCycle + 1 < 2 ^ 32 ∧
      ∀ line : TraceLine, st.requestor.transFile.head? = some (some line) →
        line.compDelay + st.requestor.prevComplete < 2 ^ 32
  | .complete _ => True

/-- The condition on the line that is read next. -/
def lineFits (q : Requestor) : Bool :=
  match q.transFile.head? with
  | some (some line) => line.compDelay + q.prevComplete < 2 ^ 32
  | _ => true

theorem lineFits_iff (q : Requestor) : lineFits q = true ↔ ∀ line : TraceLine,
    q.transFile.head? = some (some line) → line.compDelay + q.prevComplete < 2 ^ 32 := by
  unfold lineFits
  split
  · next line head => simp [head]
  · next other =>
    refine ⟨fun _ line head => absurd head (other line), fun _ => rfl⟩

instance (st : State) : ∀ event, Decidable (Fits st event)
  | .update _ _ => decidable_of_iff (st.requestor.currentClockCycle + 1 < 2 ^ 32 ∧
      lineFits st.requestor = true) (and_congr_right' (lineFits_iff st.requestor))
  | .complete _ => .isTrue trivial

/-! ## The invariant -/

/-- What a request and a line have in common. -/
def ofRequest (r : Request) : Nat × RequestType := (r.address, r.requestType)

def ofLine (line : TraceLine) : Nat × RequestType := (line.addr, line.requestType)

/-- What an in-order requestor is doing, with the lines that it has not sent yet. -/
inductive Phase (st : State) : List TraceLine → Prop
  | idle (pending : st.requestor.pendingRequest = none) (core : st.requestor.corePendingData = [])
      (inside : st.inside = []) (all : st.completed.length = st.sent.length)
      (ended : st.requestor.sim_done = true → st.requestor.transFile = []) :
      Phase st (st.requestor.transFile.filterMap id)
  | holding {r : Request} {line : TraceLine} (pending : st.requestor.pendingRequest = some r)
      (core : st.requestor.corePendingData = []) (inside : st.inside = [])
      (all : st.completed.length = st.sent.length) (same : ofRequest r = ofLine line)
      (time : r.arriveTime = line.compDelay + st.requestor.prevComplete)
      (going : st.requestor.sim_done = false) :
      Phase st (line :: st.requestor.transFile.filterMap id)
  | waiting {r r' : Request} (pending : st.requestor.pendingRequest = none)
      (core : st.requestor.corePendingData = [r]) (inside : st.inside = [r'])
      (address : r.address = r'.address) (one : st.completed.length + 1 = st.sent.length)
      (going : st.requestor.sim_done = false) :
      Phase st (st.requestor.transFile.filterMap id)

/-- A request is sent no earlier than its delay after the completion before it, or after 0. -/
def Spaced (lines : List TraceLine) (sent : List (Request × Nat)) (completed : List Nat) : Prop :=
  ∀ (i : Nat) (line : TraceLine) (r : Request) (cycle : Nat),
    lines[i]? = some line → sent[i]? = some (r, cycle) →
    ∃ before, (0 :: completed)[i]? = some before ∧ before + line.compDelay ≤ cycle

structure Inv (lines : List TraceLine) (st : State) : Prop where
  inOrder : st.requestor.inOrder = true
  clock : st.requestor.currentClockCycle = st.now
  played : (lines.take st.sent.length).map ofLine = st.sent.map fun x => ofRequest x.1
  phase : Phase st (lines.drop st.sent.length)
  previous : (0 :: st.completed)[st.completed.length]? = some st.requestor.prevComplete
  counts : st.requestor.requestRequest = st.sent.length ∧
    st.requestor.completeRequest = st.completed.length
  spaced : Spaced lines st.sent st.completed

theorem inv_start (requestorID : Nat) (trace : List (Option TraceLine)) :
    Inv (trace.filterMap id) (start requestorID trace) := by
  refine ⟨rfl, rfl, rfl, .idle rfl rfl rfl rfl nofun, rfl, ⟨rfl, rfl⟩, ?_⟩
  intro i line r cycle _ sent
  simp [start] at sent

variable {st st' : State} {lines : List TraceLine}

/-! ## Reading -/

/-- What reading the trace leaves as it is. -/
structure Kept (q q' : Requestor) : Prop where
  inOrder : q'.inOrder = q.inOrder
  clock : q'.currentClockCycle = q.currentClockCycle
  previous : q'.prevComplete = q.prevComplete
  counts : q'.requestRequest = q.requestRequest ∧ q'.completeRequest = q.completeRequest

/-- **Reading**: an idle requestor reads a line, if there is one, and holds its request; otherwise
nothing moves. -/
theorem read_phase (inOrder : st.requestor.inOrder = true) (phase : Phase st lines)
    {writeMode : Bool} {size : Nat} (fits : Fits st (.update writeMode size)) :
    Phase { st with requestor := st.requestor.read } lines ∧ Kept st.requestor st.requestor.read := by
  cases phase with
  | idle pending core inside all ended =>
    cases trace : st.requestor.transFile with
    | nil =>
      have read : st.requestor.read =
          { st.requestor with latency := st.requestor.latency + 1, sim_done := true } := by
        simp [Requestor.read, Requestor.readingTraceFile, core, pending, trace]
      refine ⟨?_, ?_⟩
      · rw [read, ← trace]
        exact .idle pending core inside all fun _ => trace
      · rw [read]
        exact ⟨rfl, rfl, rfl, rfl, rfl⟩
    | cons entry rest =>
      cases entry with
      | none =>
        have read : st.requestor.read =
            { st.requestor with
              latency := st.requestor.latency + 1, transFile := rest, bypass_read := true,
              sim_done := false } := by
          simp [Requestor.read, Requestor.readingTraceFile, core, pending, trace]
        refine ⟨?_, ?_⟩
        · rw [read]
          exact .idle pending core inside all nofun
        · rw [read]
          exact ⟨rfl, rfl, rfl, rfl, rfl⟩
      | some line =>
        have small : (line.compDelay + st.requestor.prevComplete) % 2 ^ 32 =
            line.compDelay + st.requestor.prevComplete :=
          Nat.mod_eq_of_lt (fits.2 line (by rw [trace]; rfl))
        have read : st.requestor.read =
            { st.requestor with
              latency := st.requestor.latency + 1
              compTime := st.requestor.compTime + line.compDelay
              transFile := rest
              pendingRequest := some
                { handle := 0, requestType := line.requestType,
                  requestorID := st.requestor.requestorID,
                  requestSize := st.requestor.RequestSize, address := line.addr,
                  arriveTime := (line.compDelay + st.requestor.prevComplete) % 2 ^ 32 }
              sim_done := false } := by
          simp [Requestor.read, Requestor.readingTraceFile, Requestor.arrival, inOrder, core, pending,
            trace]
        refine ⟨?_, ?_⟩
        · rw [read]
          exact .holding rfl core inside all rfl small rfl
        · rw [read]
          exact ⟨rfl, rfl, rfl, rfl, rfl⟩
  | holding pending core inside all same time going =>
    have read : st.requestor.read =
        { st.requestor with latency := st.requestor.latency + 1, sim_done := false } := by
      simp [Requestor.read, Requestor.readingTraceFile, core, pending]
    refine ⟨?_, ?_⟩
    · rw [read]
      exact .holding pending core inside all same time rfl
    · rw [read]
      exact ⟨rfl, rfl, rfl, rfl, rfl⟩
  | waiting pending core inside address one going =>
    have read : st.requestor.read =
        { st.requestor with latency := st.requestor.latency + 1, sim_done := false } := by
      simp [Requestor.read, Requestor.readingTraceFile, inOrder, core]
    refine ⟨?_, ?_⟩
    · rw [read]
      exact .waiting pending core inside address one rfl
    · rw [read]
      exact ⟨rfl, rfl, rfl, rfl, rfl⟩

/-! ## Sending and completing -/

/-- A request that is sent is the pending one, its time has come, and the memory system is not in write
mode. -/
theorem sends_eq_some {q : Requestor} {writeMode : Bool} {size : Nat} {r : Request}
    (h : q.sends writeMode size = some r) :
    q.pendingRequest = some r ∧ writeMode = false ∧ r.arriveTime ≤ q.currentClockCycle := by
  obtain ⟨pending, ready⟩ := Option.filter_eq_some_iff.mp h
  simp only [Bool.and_eq_true, Bool.not_eq_true', decide_eq_true_eq] at ready
  exact ⟨pending, ready.1.1.1, ready.1.1.2⟩

/-- An entry of a longer list is an old one or the new one. -/
theorem getElem?_concat {α : Type} {l : List α} {x y : α} {i : Nat} (h : (l ++ [x])[i]? = some y) :
    l[i]? = some y ∨ i = l.length ∧ y = x := by
  rw [List.getElem?_append] at h
  split at h
  · exact .inl h
  · next late =>
    right
    have here : i - l.length = 0 := by
      have := (List.getElem?_eq_some_iff.mp h).1
      simp at this
      omega
    rw [here] at h
    refine ⟨by omega, ?_⟩
    simpa using h.symm

theorem Spaced.send {sent : List (Request × Nat)} {completed : List Nat} {line : TraceLine}
    {rest : List TraceLine} {r : Request} {cycle before : Nat} (spaced : Spaced lines sent completed)
    (unsent : lines.drop sent.length = line :: rest) (all : completed.length = sent.length)
    (previous : (0 :: completed)[completed.length]? = some before)
    (late : before + line.compDelay ≤ cycle) : Spaced lines (sent ++ [(r, cycle)]) completed := by
  intro i line' r' cycle' at_ entry
  rcases getElem?_concat entry with old | ⟨rfl, new⟩
  · exact spaced i line' r' cycle' at_ old
  · obtain ⟨rfl, rfl⟩ := Prod.mk.inj new
    have same : lines[sent.length]? = some line := by
      rw [← List.head?_drop, unsent]
      rfl
    obtain rfl : line' = line := Option.some.inj (at_.symm.trans same)
    exact ⟨before, all ▸ previous, late⟩

theorem Spaced.complete {sent : List (Request × Nat)} {completed : List Nat} (now : Nat)
    (spaced : Spaced lines sent completed) : Spaced lines sent (completed ++ [now]) := by
  intro i line r cycle at_ entry
  obtain ⟨before, found, late⟩ := spaced i line r cycle at_ entry
  refine ⟨before, ?_, late⟩
  have bound := (List.getElem?_eq_some_iff.mp found).1
  rw [← List.cons_append, List.getElem?_append_left bound]
  exact found

/-- **An update** reads and may send what is pending. -/
theorem update_inv {writeMode : Bool} {size : Nat} {sent : Option Request} (inv : Inv lines st)
    (fits : Fits st (.update writeMode size))
    (h : step st (.update writeMode size) = some (st', sent)) :
    Inv lines st' ∧ (writeMode = true → sent = none) := by
  obtain ⟨phase, kept⟩ := read_phase inv.inOrder inv.phase fits
  have clock : (st.requestor.currentClockCycle + 1) % 2 ^ 32 = st.now + 1 := by
    rw [Nat.mod_eq_of_lt fits.1, inv.clock]
  have requested : st.requestor.read.requestRequest = st.sent.length :=
    kept.counts.1.trans inv.counts.1
  have completed : st.requestor.read.completeRequest = st.completed.length :=
    kept.counts.2.trans inv.counts.2
  have previous : (0 :: st.completed)[st.completed.length]? = some st.requestor.read.prevComplete := by
    rw [kept.previous]
    exact inv.previous
  simp only [step] at h
  split at h
  · next r sends =>
    obtain ⟨rfl, rfl⟩ : _ ∧ _ := by simpa using h
    obtain ⟨pending, quiet, due⟩ := sends_eq_some sends
    refine ⟨?_, fun on => absurd (on.symm.trans quiet) (by decide)⟩
    rw [kept.clock, inv.clock] at due
    generalize unsent : lines.drop st.sent.length = left at phase
    cases phase with
    | idle none' => exact absurd (pending.symm.trans none') (by simp)
    | waiting none' => exact absurd (pending.symm.trans none') (by simp)
    | @holding r' line pending' core inside all same time going =>
      obtain rfl : r = r' := Option.some.inj (pending.symm.trans pending')
      have core : st.requestor.read.corePendingData = [] := core
      have inside : st.inside = [] := inside
      have all : st.completed.length = st.sent.length := all
      have time : r.arriveTime = line.compDelay + st.requestor.read.prevComplete := time
      have here : lines[st.sent.length]? = some line := by
        rw [← List.head?_drop, unsent]
        rfl
      refine ⟨kept.inOrder.trans inv.inOrder, ?_, ?_, ?_, previous, ⟨?_, completed⟩, ?_⟩
      · show (st.requestor.read.currentClockCycle + 1) % 2 ^ 32 = st.now + 1
        rw [kept.clock]
        exact clock
      · rw [List.length_append, List.length_singleton, List.take_add_one, here, List.map_append,
          inv.played, List.map_append]
        simp [same]
      · have rest : lines.drop (st.sent ++ [(r, st.now)]).length =
            st.requestor.read.transFile.filterMap id := by
          rw [List.length_append, List.length_singleton, ← List.drop_drop, unsent]
          rfl
        rw [rest]
        have core' : st.requestor.read.corePendingData ++
            [{ r with arriveTime := st.requestor.read.currentClockCycle }] =
              [{ r with arriveTime := st.requestor.read.currentClockCycle }] := by
          rw [core]
          rfl
        have inside' : st.inside ++ [r] = [r] := by
          rw [inside]
          rfl
        refine .waiting rfl core' inside' rfl ?_ ?_
        · show st.completed.length + 1 = (st.sent ++ [(r, st.now)]).length
          rw [all]
          simp
        · simp [Requestor.endUpdate, Requestor.sent]
      · show st.requestor.read.requestRequest + 1 = (st.sent ++ [(r, st.now)]).length
        rw [requested]
        simp
      · apply inv.spaced.send unsent all previous
        omega
  · obtain ⟨rfl, rfl⟩ : _ ∧ _ := by simpa using h
    refine ⟨?_, fun _ => rfl⟩
    refine ⟨kept.inOrder.trans inv.inOrder, ?_, inv.played, ?_, previous, ⟨requested, completed⟩,
      inv.spaced⟩
    · show (st.requestor.read.currentClockCycle + 1) % 2 ^ 32 = st.now + 1
      rw [kept.clock]
      exact clock
    · generalize lines.drop st.sent.length = left at phase
      cases phase with
      | idle pending core inside all ended =>
        refine .idle pending core inside all ?_
        intro done
        have core : st.requestor.read.corePendingData = [] := core
        apply ended
        simpa [Requestor.endUpdate, core] using done
      | holding pending core inside all same time going =>
        refine .holding pending core inside all same time ?_
        have core : st.requestor.read.corePendingData = [] := core
        simpa [Requestor.endUpdate, core] using going
      | waiting pending core inside address one going =>
        refine .waiting pending core inside address one ?_
        have core : st.requestor.read.corePendingData = _ := core
        simp [Requestor.endUpdate, core]

/-- **A completion** is of the one request that is outstanding. -/
theorem complete_inv {index : Nat} {sent : Option Request} (inv : Inv lines st)
    (h : step st (.complete index) = some (st', sent)) : Inv lines st' ∧ sent = none := by
  obtain ⟨r, at_, h⟩ := Option.bind_eq_some_iff.mp h
  obtain ⟨q, returned, out⟩ := Option.map_eq_some_iff.mp h
  obtain ⟨rfl, rfl⟩ : _ ∧ _ := by simpa using out
  refine ⟨?_, rfl⟩
  have phase := inv.phase
  generalize unsent : lines.drop st.sent.length = left at phase
  cases phase with
  | idle _ _ inside => simp [inside] at at_
  | holding _ _ inside => simp [inside] at at_
  | @waiting own r' pending core inside address one going =>
    obtain ⟨rfl, rfl⟩ : index = 0 ∧ r' = r := by
      rw [inside] at at_
      cases index with
      | zero => simpa using at_
      | succ index => simp at at_
    have same : (r'.address == own.address) = true := by simp [address]
    simp only [Requestor.returnData, core, List.findIdx?_cons, same, if_true, List.getElem?_cons_zero,
      Option.map_some, Option.some.injEq] at returned
    subst returned
    refine ⟨inv.inOrder, inv.clock, inv.played, ?_, ?_, ⟨inv.counts.1, ?_⟩, inv.spaced.complete st.now⟩
    · rw [unsent]
      refine .idle pending rfl ?_ ?_ ?_
      · show st.inside.eraseIdx 0 = []
        rw [inside]
        rfl
      · show (st.completed ++ [st.now]).length = st.sent.length
        rw [← one]
        simp
      · intro done
        exact absurd (going.symm.trans done) (by decide)
    · show (0 :: (st.completed ++ [st.now]))[(st.completed ++ [st.now]).length]? =
        some st.requestor.currentClockCycle
      rw [inv.clock]
      simp
    · show st.requestor.completeRequest + 1 = (st.completed ++ [st.now]).length
      rw [inv.counts.2]
      simp

/-- What the memory system completes finds its request. -/
theorem complete_defined {index : Nat} (inv : Inv lines st) (there : index < st.inside.length) :
    ∃ st', step st (.complete index) = some (st', none) := by
  have phase := inv.phase
  generalize lines.drop st.sent.length = left at phase
  cases phase with
  | idle _ _ inside => simp [inside] at there
  | holding _ _ inside => simp [inside] at there
  | @waiting own r pending core inside address one going =>
    obtain rfl : index = 0 := by
      rw [inside] at there
      simpa using there
    have same : (r.address == own.address) = true := by simp [address]
    simp only [step, inside, Requestor.returnData, core, List.findIdx?_cons, same, if_true,
      List.getElem?_cons_zero, Option.bind_some, Option.map_some]
    exact ⟨_, rfl⟩

/-! ## Runs -/

theorem step_inv {event : Event} {sent : Option Request} (inv : Inv lines st)
    (h : step st event = some (st', sent)) (fits : Fits st event) : Inv lines st' := by
  cases event with
  | update writeMode size => exact (update_inv inv fits h).1
  | complete index => exact (complete_inv inv h).1

/-- An in-order requestor has one request at most. -/
theorem Phase.one {left : List TraceLine} (phase : Phase st left) :
    (st.requestor.pendingRequest.toList ++ st.requestor.corePendingData).length ≤ 1 := by
  cases phase with
  | idle pending core => simp [pending, core]
  | holding pending core => simp [pending, core]
  | waiting pending core => simp [pending, core]

/-- Where the requestor reports the end, every line was sent and completed. -/
theorem Inv.ended (inv : Inv lines st) (done : st.requestor.sim_done = true) :
    st.sent.length = lines.length ∧ st.completed.length = lines.length := by
  have phase := inv.phase
  generalize unsent : lines.drop st.sent.length = left at phase
  cases phase with
  | idle pending core inside all ended =>
    rw [ended done, List.filterMap_nil, List.drop_eq_nil_iff] at unsent
    have few : st.sent.length ≤ lines.length := by
      have played := congrArg List.length inv.played
      rw [List.length_map, List.length_map, List.length_take] at played
      omega
    omega
  | holding _ _ _ _ _ _ going => exact absurd (going.symm.trans done) (by decide)
  | waiting _ _ _ _ _ going => exact absurd (going.symm.trans done) (by decide)

/-- `Requestor::sim_end`. -/
def sim_end (q : Requestor) : Bool := q.sim_done

/-- **Trace replay.** For every trace file of well-formed lines, in every state that a run reaches in
which no cycle count overflows, whatever the memory system completes and answers: an in-order requestor
has one request at most, pending or outstanding; what it has sent is a beginning of the trace, each
request no earlier than its delay after the completion of the one before it; in write mode its next
update sends nothing; what the memory system completes next finds its request; and where it reports the
end, every line that is not empty was sent and completed. -/
theorem replay_inOrder (requestorID : Nat) (scale : Nat → Nat) (text : List Char)
    {trace : List (Option TraceLine)} (wellFormed : traceLines scale text = some trace)
    {events : List Event} {st : State} {told : List (Option Request)}
    (fits : Lib.Machine.Along step (fun st event _ _ => Fits st event) (start requestorID trace) events)
    (ran : Lib.Machine.run step (start requestorID trace) events = some (st, told)) :
    (st.requestor.pendingRequest.toList ++ st.requestor.corePendingData).length ≤ 1 ∧
    st.sent.map (fun x => ofRequest x.1) <+: (trace.filterMap id).map ofLine ∧
    Spaced (trace.filterMap id) st.sent st.completed ∧
    (∀ size st' sent, Fits st (.update true size) → step st (.update true size) = some (st', sent) →
      sent = none) ∧
    (∀ index < st.inside.length, ∃ st', step st (.complete index) = some (st', none)) ∧
    (sim_end st.requestor = true →
      st.requestor.requestRequest = (nonEmptyLines text).length ∧
      st.requestor.completeRequest = (nonEmptyLines text).length) := by
  have inv : Inv (trace.filterMap id) st := by
    apply Lib.Machine.run_invariant_along (Inv (trace.filterMap id)) step_inv ?_ fits ran
    exact inv_start requestorID trace
  refine ⟨inv.phase.one, ?_, inv.spaced, ?_, ?_, ?_⟩
  · rw [← inv.played]
    exact (List.take_prefix _ _).map ofLine
  · intro size st' sent fits h
    exact (update_inv inv fits h).2 rfl
  · intro index there
    exact complete_defined inv there
  · intro done
    obtain ⟨sent, completed⟩ := inv.ended done
    rw [← length_traceLines wellFormed]
    exact ⟨inv.counts.1.trans sent, inv.counts.2.trans completed⟩

/-- A file of two requests with an empty line in between and a line break at its end. -/
def twoLines : List Char := "0x40 READ 5\n\n0x40 WRITE 2\n".toList

/-- What it holds. -/
def twoLinesTrace : List (Option TraceLine) :=
  [some { addr := 64, requestType := .DATA_READ, compDelay := 5 }, none,
    some { addr := 64, requestType := .DATA_WRITE, compDelay := 2 }, none]

/-- Both are sent and completed, and the end is found. -/
def twoLinesEvents : List Event :=
  List.replicate 5 (.update false 0) ++ [.complete 0] ++ List.replicate 3 (.update false 0) ++
    [.complete 0] ++ List.replicate 2 (.update false 0)

/-- The law where the read, sent in cycle 5, completes in cycle 6 and the write, sent in cycle 8, in
cycle 9. -/
theorem replay_inOrder_twoLines :
    ∃ st told, Lib.Machine.run step (start 0 twoLinesTrace) twoLinesEvents = some (st, told) ∧
      st.sent.map (·.2) = [5, 8] ∧ st.completed = [6, 9] ∧
      st.requestor.completeRequest = (nonEmptyLines twoLines).length := by
  have wellFormed : traceLines id twoLines = some twoLinesTrace := by decide +kernel
  obtain ⟨st, told, ran, sent, completed, ended⟩ := Lib.Machine.run_exists step
    (fun st => st.sent.map (·.2) = [5, 8] ∧ st.completed = [6, 9] ∧ sim_end st.requestor = true)
    (start 0 twoLinesTrace) twoLinesEvents (by decide +kernel)
  have fits := Lib.Machine.along_of_check step (fun st event _ => Fits st event)
    (fun st event _ => Fits st event) (start 0 twoLinesTrace) twoLinesEvents (fun _ _ _ => of_decide_eq_true)
    (by decide +kernel)
  obtain ⟨_, _, _, _, _, all⟩ := replay_inOrder 0 id twoLines wellFormed fits ran
  exact ⟨st, told, ran, sent, completed, (all ended).2⟩

end Replay
end MCsim
