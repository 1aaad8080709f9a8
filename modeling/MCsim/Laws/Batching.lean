import MCsim.Requests.Batching
import Mathlib.Data.List.Infix

/-!
# Write order under batching

Writes leave the write queue at its front only, so they reach the generator in the order in which they
arrived, whatever the watermarks, the idle calls and the generator do: what was handed over and what
still waits are together what arrived (`Batched`, `Moves`). Between a read and a write there is no
order. A read does not look at the write queue, and a drain does not look at the reads.
-/

namespace MCsim
namespace Batching

open RequestScheduler

variable {gen : Generator} {s s' : RequestScheduler} {waiting : List Request}

/-- The request is a write. -/
def isWrite (r : Request) : Bool := r.requestType == .DATA_WRITE

/-- One request queue with a general buffer for reads, and a write queue that holds these writes. -/
structure Batched (s : RequestScheduler) (waiting : List Request) : Prop where
  one : s.queueCount = 1
  enabled : (s.requestQueue 0).writeQueueEnable = true
  general : (s.requestQueue 0).perRequestorEnable = false
  reads : ∀ r ∈ (s.requestQueue 0).generalBuffer, isWrite r = false
  writes : ∀ r ∈ waiting, isWrite r = true
  queue : ∃ w, (s.requestQueue 0).writeQueue = some w ∧ w.writeQueue = waiting

/-- Of the writes that waited, those among `handed` have left at the front, and the others wait. -/
def Moves (waiting : List Request) (s : RequestScheduler) (handed : List Request) : Prop :=
  ∃ rest, waiting = handed.filter isWrite ++ rest ∧ Batched s rest

theorem Batched.stays (h : Batched s waiting) : Moves waiting s [] := ⟨waiting, rfl, h⟩

theorem Moves.trans {handed handed' : List Request} (first : Moves waiting s handed)
    (later : ∀ rest, Batched s rest → Moves rest s' handed') : Moves waiting s' (handed ++ handed') := by
  obtain ⟨rest, rfl, batched⟩ := first
  obtain ⟨rest', rfl, batched'⟩ := later rest batched
  exact ⟨rest', by simp, batched'⟩

/-- What concerns neither queue changes nothing. -/
theorem Batched.congr (h : Batched s waiting) (count : s'.queueCount = s.queueCount)
    (queue : s'.requestQueue 0 = s.requestQueue 0) : Batched s' waiting := by
  refine ⟨count.trans h.one, ?_, ?_, ?_, h.writes, ?_⟩ <;> rw [queue]
  · exact h.enabled
  · exact h.general
  · exact h.reads
  · exact h.queue

theorem isSchedulable_batched {r : Request} {isOpen accepted : Bool} (h : Batched s waiting)
    (scheduled : s.isSchedulable gen r isOpen = some (s', accepted)) :
    Batched s' waiting ∧ s'.requestQueue = s.requestQueue := by
  obtain ⟨⟨g, accepted'⟩, _, out⟩ := Option.map_eq_some_iff.mp scheduled
  obtain ⟨rfl, rfl⟩ : _ ∧ _ := by simpa using out
  exact ⟨h.congr rfl rfl, rfl⟩

theorem setWriteMode_batched (h : Batched s waiting) (value : Bool) :
    Batched (setWriteMode s value) waiting :=
  ⟨h.one, h.enabled, h.general, h.reads, h.writes, h.queue⟩

/-! ## Writes -/

/-- The front of the write queue leaves it, or nothing does. -/
theorem serveWrite_moves {write : Option Request} (h : Batched s waiting)
    (served : serveWrite gen s 0 = some (s', write)) : Moves waiting s' write.toList := by
  obtain ⟨w, found, rfl⟩ := h.queue
  simp only [serveWrite, found, Option.bind_some] at served
  obtain ⟨r, front, served⟩ := Option.bind_eq_some_iff.mp served
  obtain ⟨⟨s₁, accepted⟩, scheduled, served⟩ := Option.bind_eq_some_iff.mp served
  obtain ⟨h₁, same⟩ := isSchedulable_batched h scheduled
  cases accepted with
  | false =>
    obtain ⟨rfl, rfl⟩ : _ ∧ _ := by simpa using served
    exact h₁.stays
  | true =>
    simp only [if_true] at served
    obtain ⟨w', popped, out⟩ := Option.map_eq_some_iff.mp served
    obtain ⟨rfl, rfl⟩ : _ ∧ _ := by simpa using out
    cases writes : w.writeQueue with
    | nil => simp [WriteQueue.getWrite, writes] at front
    | cons r' rest =>
      obtain rfl : r' = r := by simpa [WriteQueue.getWrite, writes] using front
      obtain rfl : { w with writeQueue := rest } = w' := by
        simpa [WriteQueue.popWrite, writes] using popped
      have write : isWrite r' = true := h.writes r' (by simp [writes])
      refine ⟨rest, by simp [write], h₁.one, h₁.enabled, h₁.general, h₁.reads, ?_, _, rfl, rfl⟩
      exact fun x hx => h.writes x (by simp [writes, hx])

/-- **A turn of the drain** moves writes from the front. -/
theorem drainTurn_moves {st st' : Progress} (h : Moves waiting st.s st.handed)
    (turned : drainTurn gen st 0 = some st') : Moves waiting st'.s st'.handed := by
  unfold drainTurn at turned
  split at turned
  · cases turned
    exact h
  · next w found =>
    dsimp only at turned
    have begun : Moves waiting
        (if w.highWatermark then { st with sw := true, s := setWriteMode st.s true } else st).s
        (if w.highWatermark then { st with sw := true, s := setWriteMode st.s true } else st).handed := by
      obtain ⟨rest, rfl, batched⟩ := h
      split
      · exact ⟨rest, rfl, setWriteMode_batched batched true⟩
      · exact ⟨rest, rfl, batched⟩
    generalize (if w.highWatermark then { st with sw := true, s := setWriteMode st.s true }
      else st) = st₁ at begun turned
    split at turned
    · split at turned
      · cases turned
        obtain ⟨rest, rfl, batched⟩ := begun
        exact ⟨rest, rfl, setWriteMode_batched batched false⟩
      · obtain ⟨⟨s', write⟩, served, rfl⟩ := Option.map_eq_some_iff.mp turned
        exact begun.trans fun rest batched => serveWrite_moves batched served
    · cases turned
      exact begun

theorem idleWrite_moves {handed : List Request} (h : Batched s waiting)
    (idle : idleWrite gen s = some (s', handed)) : Moves waiting s' handed := by
  obtain ⟨w, _, idle⟩ := Option.bind_eq_some_iff.mp idle
  split at idle
  · obtain ⟨⟨s₁, write⟩, served, out⟩ := Option.map_eq_some_iff.mp idle
    obtain ⟨rfl, rfl⟩ : _ ∧ _ := by simpa using out
    exact serveWrite_moves h served
  · obtain ⟨rfl, rfl⟩ : _ ∧ _ := by simpa using idle
    exact h.stays

/-! ## Reads -/

/-- What a general buffer hands out is one of its requests, and nothing but the note of it changes. -/
theorem getRequest_cases {q q' : RequestQueue} {i : Nat} {request : Option Request}
    (h : q.getRequest i = some (request, q')) :
    (request = none ∧ q' = q) ∨ ∃ r, r ∈ q.generalBuffer ∧ request = some r ∧
      q' = { q with scheduledRequest := (false, 0, i) } := by
  unfold RequestQueue.getRequest at h
  split at h
  · obtain ⟨rfl, rfl⟩ : _ ∧ _ := by simpa using h
    exact .inl ⟨rfl, rfl⟩
  · obtain ⟨r, found, out⟩ := Option.map_eq_some_iff.mp h
    obtain ⟨rfl, rfl⟩ : _ ∧ _ := by simpa using out
    exact .inr ⟨r, List.mem_of_getElem? found, rfl, rfl⟩

/-- Serving what the general buffer handed out leaves the write queue alone. -/
theorem serve_batched {r : Request} {i : Nat} {accepted : Bool} (h : Batched s waiting)
    (noted : (s.requestQueue 0).scheduledRequest = (false, 0, i))
    (served : s.serve gen 0 r = some (s', accepted)) : Batched s' waiting := by
  obtain ⟨⟨s₁, accepted₁⟩, scheduled, served⟩ := Option.bind_eq_some_iff.mp served
  obtain ⟨h₁, same⟩ := isSchedulable_batched h scheduled
  cases accepted₁ with
  | false =>
    obtain ⟨rfl, rfl⟩ : _ ∧ _ := by simpa using served
    exact h₁
  | true =>
    simp only [if_true, RequestQueue.removeRequest, same, noted] at served
    obtain ⟨q, removed, out⟩ := Option.map_eq_some_iff.mp served
    obtain ⟨rfl, rfl⟩ : _ ∧ _ := by simpa using out
    split at removed
    · obtain rfl := Option.some.inj removed
      refine ⟨h₁.one, h.enabled, h.general, fun x hx => ?_, h.writes, h.queue⟩
      exact h.reads x (List.mem_of_mem_eraseIdx hx)
    · cases removed

/-- **A turn of the read loop** hands over no write and leaves the write queue alone. -/
theorem readTurn_batched {handed handed' : List Request} {empty : Bool} (h : Batched s waiting)
    (quiet : handed.filter isWrite = [])
    (turned : readTurn gen 0 (s, handed) empty = some (s', handed')) :
    Batched s' waiting ∧ handed'.filter isWrite = [] := by
  unfold readTurn at turned
  split at turned
  · obtain ⟨⟨request, q⟩, chosen, turned⟩ := Option.bind_eq_some_iff.mp turned
    rcases getRequest_cases chosen with ⟨rfl, rfl⟩ | ⟨r, mem, rfl, rfl⟩
    · obtain ⟨rfl, rfl⟩ : _ ∧ _ := by simpa using turned
      exact ⟨h.congr rfl rfl, quiet⟩
    · obtain ⟨⟨s₁, accepted⟩, served, out⟩ := Option.map_eq_some_iff.mp turned
      obtain ⟨rfl, rfl⟩ : _ ∧ _ := by simpa using out
      refine ⟨serve_batched ?_ rfl served, ?_⟩
      · exact ⟨h.one, h.enabled, h.general, h.reads, h.writes, h.queue⟩
      · have read : isWrite r = false := h.reads r mem
        split
        · simp [quiet, read]
        · exact quiet
  · obtain ⟨rfl, rfl⟩ : _ ∧ _ := by simpa using turned
    exact ⟨h, quiet⟩

theorem readTurns_batched {empties : List Bool} {handed handed' : List Request}
    (h : Batched s waiting) (quiet : handed.filter isWrite = [])
    (turned : empties.foldlM (readTurn gen 0) (s, handed) = some (s', handed')) :
    Batched s' waiting ∧ handed'.filter isWrite = [] := by
  induction empties generalizing s handed with
  | nil =>
    obtain ⟨rfl, rfl⟩ : _ ∧ _ := by simpa using turned
    exact ⟨h, quiet⟩
  | cons empty empties ih =>
    rw [List.foldlM_cons] at turned
    obtain ⟨⟨s₁, handed₁⟩, first, later⟩ := Option.bind_eq_some_iff.mp turned
    obtain ⟨h₁, quiet₁⟩ := readTurn_batched h quiet first
    exact ih h₁ quiet₁ later

theorem readLoop_batched {empties : List Bool} {handed : List Request} (h : Batched s waiting)
    (looped : readLoop gen empties s = some (s', handed)) :
    Batched s' waiting ∧ handed.filter isWrite = [] := by
  have once : empties.foldlM (readTurn gen 0) (s, []) = some (s', handed) := by
    simpa [readLoop, h.one, List.range_succ] using looped
  exact readTurns_batched h rfl once

/-! ## Calls -/

theorem readOrIdle_moves {empties : List Bool} {st st' : Progress}
    (h : Moves waiting st.s st.handed) (called : readOrIdle gen empties st = some st') :
    Moves waiting st'.s st'.handed := by
  obtain ⟨⟨s₁, reads⟩, looped, called⟩ := Option.bind_eq_some_iff.mp called
  obtain ⟨rest, rfl, batched⟩ := h
  obtain ⟨batched₁, quiet⟩ := readLoop_batched batched looped
  dsimp only at called
  split at called
  · obtain ⟨⟨s₂, writes⟩, idle, rfl⟩ := Option.map_eq_some_iff.mp called
    obtain ⟨rest', rfl, batched₂⟩ := idleWrite_moves batched₁ idle
    exact ⟨rest', by simp, batched₂⟩
  · cases called
    exact ⟨rest, by simp [quiet], batched₁⟩

/-- **A call** hands over writes from the front of the write queue only. -/
theorem requestSchedule_moves {empties : List Bool} {sw sw' : Bool} {handed : List Request}
    (h : Batched s waiting) (called : requestSchedule gen empties s sw = some (s', sw', handed)) :
    Moves waiting s' handed := by
  obtain ⟨st, whole, out⟩ := Option.map_eq_some_iff.mp called
  obtain ⟨rfl, rfl, rfl⟩ : _ ∧ _ ∧ _ := by simpa using out
  have enabled : (s.requestQueue 0).isWriteEnable = true := h.enabled
  rw [if_pos enabled] at whole
  obtain ⟨st₁, drained, ended⟩ := Option.bind_eq_some_iff.mp whole
  have turned : drainTurn gen { s := s, sw := sw } 0 = some st₁ := by
    simpa [h.one, List.range_succ] using drained
  have moved : Moves waiting st₁.s st₁.handed := drainTurn_moves h.stays turned
  split at ended
  · exact readOrIdle_moves moved ended
  · cases ended
    exact moved

/-- A request that arrives joins the reads or the back of the write queue. -/
theorem insertRequest_batched (h : Batched s waiting) (r : Request) :
    Batched (s.setQueue 0 ((s.requestQueue 0).insertRequest r)) (waiting ++ [r].filter isWrite) := by
  obtain ⟨w, found, rfl⟩ := h.queue
  cases write : isWrite r with
  | true =>
    have type : (r.requestType == .DATA_WRITE) = true := write
    have inserted : (s.requestQueue 0).insertRequest r =
        { s.requestQueue 0 with writeQueue := some (w.insertWrite r) } := by
      simp [RequestQueue.insertRequest, type, h.enabled, found]
    rw [inserted, List.filter_cons_of_pos write, List.filter_nil]
    refine ⟨h.one, h.enabled, h.general, h.reads, fun x hx => ?_, _, rfl, rfl⟩
    rcases List.mem_append.mp hx with hx | hx
    · exact h.writes x hx
    · rw [List.mem_singleton.mp hx, write]
  | false =>
    have type : (r.requestType == .DATA_WRITE) = false := write
    have inserted : (s.requestQueue 0).insertRequest r =
        { s.requestQueue 0 with generalBuffer := (s.requestQueue 0).generalBuffer ++ [r] } := by
      simp [RequestQueue.insertRequest, type, h.general]
    rw [inserted, List.filter_cons_of_neg (by simp [write]), List.filter_nil, List.append_nil]
    refine ⟨h.one, h.enabled, h.general, fun x hx => ?_, h.writes, w, found, rfl⟩
    rcases List.mem_append.mp hx with hx | hx
    · exact h.reads x hx
    · rw [List.mem_singleton.mp hx, write]

/-- **Write order.** In every run of the scheduler, from either value of `sw`, with any generator and
any command queues: the writes that were handed over are the first of those that arrived, in the order
of their arrival. So of two writes of one requestor to one address, the one that arrived first is
handed over first. -/
theorem batching_writeOrder (gen : Generator) (dataBusSize : Nat) (sw : Bool)
    {calls : List (RequestCall (List Bool))} {st : RequestScheduler × Bool}
    {handed : List (List Request)}
    (ran : Lib.Machine.run (requestSchedule gen).step (RequestScheduler.create false true dataBusSize, sw)
      calls = some (st, handed)) (requestorID address : Nat) :
    (handed.flatten.filter fun r => isWrite r && r.requestorID == requestorID && r.address == address)
      <+: (calls.flatMap RequestCall.inserted).filter fun r =>
        isWrite r && r.requestorID == requestorID && r.address == address := by
  have history : ∃ rest, Batched st.1 rest ∧
      (calls.flatMap RequestCall.inserted).filter isWrite = handed.flatten.filter isWrite ++ rest := by
    refine Lib.Machine.run_history (fun calls st handed => ∃ rest, Batched st.1 rest ∧
      (calls.flatMap RequestCall.inserted).filter isWrite =
        handed.flatten.filter isWrite ++ rest) ?_ ⟨[], ?_, rfl⟩ ran
    · rintro calls ⟨s, sw⟩ handed call st' told ⟨rest, batched, books⟩ h
      rcases RequestScheduling.step_cases h with ⟨index, r, rfl, bound, rfl, rfl⟩ | ⟨seen, rfl, called⟩
      · obtain rfl : index = 0 := by
          have one : s.queueCount = 1 := batched.one
          omega
        refine ⟨rest ++ [r].filter isWrite, insertRequest_batched batched r, ?_⟩
        simp [RequestCall.inserted, books]
      · obtain ⟨rest', rfl, batched'⟩ := requestSchedule_moves batched called
        exact ⟨rest', batched', by simp [RequestCall.inserted, books]⟩
    · exact ⟨rfl, rfl, rfl, by simp [RequestScheduler.create, RequestQueue.create], by simp, _, rfl, rfl⟩
  obtain ⟨rest, _, books⟩ := history
  have split : ∀ l : List Request, l.filter (fun r => isWrite r && r.requestorID == requestorID &&
      r.address == address) = (l.filter isWrite).filter fun r =>
        r.requestorID == requestorID && r.address == address := by
    intro l
    simp only [List.filter_filter]
    congr 1
    funext r
    cases isWrite r <;> simp
  rw [split, split, books, List.filter_append]
  exact List.prefix_append _ _

/-- Eight command queues, all of them empty, or all but the first, or none. -/
def allEmpty : List Bool := List.replicate 8 true

def oneBusy : List Bool := false :: List.replicate 7 true

def allBusy : List Bool := List.replicate 8 false

/-- Commands of another request are queued when requestor 1 writes address 64 and then reads it. -/
def readAfterWrite : List (RequestCall (List Bool)) :=
  [.insertRequest 0 (sampleRequest .DATA_READ 0 0), .requestSchedule allEmpty,
    .insertRequest 0 (sampleRequest .DATA_WRITE 1 64), .requestSchedule oneBusy,
    .insertRequest 0 (sampleRequest .DATA_READ 1 64), .requestSchedule oneBusy,
    .requestSchedule allEmpty]

/-- Every command queue is in use when requestor 1 reads address 64 and then writes it, and ten other
writes arrive. -/
def writeAfterRead : List (RequestCall (List Bool)) :=
  [.insertRequest 0 (sampleRequest .DATA_READ 1 64), .requestSchedule allBusy,
    .insertRequest 0 (sampleRequest .DATA_WRITE 1 64), .requestSchedule allBusy] ++
  List.replicate 10 (.insertRequest 0 (sampleRequest .DATA_WRITE 0 0)) ++
  List.replicate 9 (.requestSchedule allBusy) ++ [.requestSchedule allEmpty]

/-- The kinds of requestor 1's requests to address 64, in order. -/
def kinds (l : List Request) : List RequestType :=
  (l.filter fun r => r.requestorID == 1 && r.address == 64).map (·.requestType)

/-- Between a read and a write of one requestor to one address there is no order: the read passes the
older write in one run, and the write passes the older read in another. -/
theorem batching_mixedOrder :
    (kinds (readAfterWrite.flatMap RequestCall.inserted) = [.DATA_WRITE, .DATA_READ] ∧
      (Lib.Machine.run (requestSchedule openGenerator).step
        (RequestScheduler.create false true 64, false) readAfterWrite).map (kinds ·.2.flatten) =
          some [.DATA_READ, .DATA_WRITE]) ∧
    kinds (writeAfterRead.flatMap RequestCall.inserted) = [.DATA_READ, .DATA_WRITE] ∧
      (Lib.Machine.run (requestSchedule openGenerator).step
        (RequestScheduler.create false true 64, false) writeAfterRead).map (kinds ·.2.flatten) =
          some [.DATA_WRITE, .DATA_READ] := by
  decide +kernel

/-- Two writes of requestor 1 to address 64, told apart by their sizes, with one idle call after. -/
def twoWrites : List (RequestCall (List Bool)) :=
  [.insertRequest 0 (sampleRequest .DATA_WRITE 1 64),
    .insertRequest 0 { sampleRequest .DATA_WRITE 1 64 with requestSize := 128 },
    .requestSchedule allEmpty]

/-- The law where one of two writes was handed over: it is the first. -/
theorem batching_writeOrder_twoWrites :
    ∃ st handed, Lib.Machine.run (requestSchedule openGenerator).step
        (RequestScheduler.create false true 64, false) twoWrites = some (st, handed) ∧
      handed.flatten = [sampleRequest .DATA_WRITE 1 64] ∧
      (handed.flatten.filter fun r => isWrite r && r.requestorID == 1 && r.address == 64) <+:
        (twoWrites.flatMap RequestCall.inserted).filter fun r =>
          isWrite r && r.requestorID == 1 && r.address == 64 := by
  obtain ⟨st, handed, ran, first⟩ := Lib.Machine.run_exists_told (requestSchedule openGenerator).step
    (fun _ handed => handed.flatten = [sampleRequest .DATA_WRITE 1 64])
    (RequestScheduler.create false true 64, false) twoWrites (by decide +kernel)
  exact ⟨st, handed, ran, first, batching_writeOrder openGenerator 64 false ran 1 64⟩

end Batching
end MCsim
