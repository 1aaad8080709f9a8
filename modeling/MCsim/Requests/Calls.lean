import MCsim.RequestScheduler

/-!
# Calls at a request scheduler

A request scheduler on its own: the controller inserts requests, and asks the scheduler once a cycle
to hand requests to the generator. A run is any sequence of these calls. What a scheduler looks at
beyond its own queues (`ε`) is part of a call, and nothing is assumed of it.
-/

namespace MCsim

/-- What a request scheduler is asked to do. -/
inductive RequestCall (ε : Type) where
  | insertRequest (index : Nat) (request : Request)
  | requestSchedule (seen : ε)

/-- A `requestSchedule` with state `ρ` of its own, and the requests that the generator accepted, in
order. -/
abbrev RequestScheduling (ρ ε : Type) :=
  ε → RequestScheduler → ρ → Option (RequestScheduler × ρ × List Request)

/-- The request a call inserts, if any. -/
def RequestCall.inserted {ε : Type} : RequestCall ε → List Request
  | .insertRequest _ request => [request]
  | .requestSchedule _ => []

/-- One call, with the requests it handed over. Inserting into a queue that does not exist is
undefined. -/
def RequestScheduling.step {ρ ε : Type} (schedule : RequestScheduling ρ ε) :
    Lib.Machine.Step (RequestScheduler × ρ) (RequestCall ε) (List Request)
  | (s, p), .insertRequest index request =>
    if index < s.queueCount then
      some ((s.setQueue index ((s.requestQueue index).insertRequest request), p), [])
    else none
  | (s, p), .requestSchedule seen => (schedule seen s p).map fun r => ((r.1, r.2.1), r.2.2)

/-- A call inserts a request, or it is a choice of the scheduler. -/
theorem RequestScheduling.step_cases {ρ ε : Type} {schedule : RequestScheduling ρ ε}
    {s : RequestScheduler} {p : ρ} {call : RequestCall ε} {st : RequestScheduler × ρ}
    {handed : List Request} (h : schedule.step (s, p) call = some (st, handed)) :
    (∃ index request, call = .insertRequest index request ∧ index < s.queueCount ∧
      st = (s.setQueue index ((s.requestQueue index).insertRequest request), p) ∧ handed = []) ∨
    ∃ seen, call = .requestSchedule seen ∧ schedule seen s p = some (st.1, st.2, handed) := by
  cases call with
  | insertRequest index request =>
    simp only [RequestScheduling.step] at h
    split at h
    · next bound =>
      obtain ⟨rfl, rfl⟩ : _ ∧ _ := by simpa using h
      exact .inl ⟨index, request, rfl, bound, rfl, rfl⟩
    · cases h
  | requestSchedule seen =>
    simp only [RequestScheduling.step] at h
    obtain ⟨⟨s', p', handed'⟩, scheduled, out⟩ := Option.map_eq_some_iff.mp h
    obtain ⟨rfl, rfl⟩ : _ ∧ _ := by simpa using out
    exact .inr ⟨seen, rfl, scheduled⟩

/-- A generator that always accepts, as every one of the repository does, given by what a request makes
of it. -/
def accepting (next : CommandGenerator → Request → Bool → CommandGenerator) : Generator :=
  fun g request isOpen => some (next g request isOpen, true)

/-- The `OPEN` generator, where it has a flag for the bank. -/
def openNext (g : CommandGenerator) (request : Request) (isOpen : Bool) : CommandGenerator :=
  { g.opened request isOpen with
    commandBuffer := g.commandBuffer ++ g.commandsOf request isOpen }

/-- The scheduler of a set-up with one request queue. -/
def RequestScheduler.create (perRequestor writeQueueEnable : Bool) (dataBusSize : Nat) :
    RequestScheduler :=
  { queueCount := 1
    requestQueue := fun _ => RequestQueue.create perRequestor writeQueueEnable
    commandGenerator := { dataBusSize := dataBusSize } }

/-- The scheduler of a set-up with any number of request queues, which `MemoryController` makes all
alike. -/
def RequestScheduler.createQueues (queueCount : Nat) (perRequestor writeQueueEnable : Bool)
    (dataBusSize : Nat) : RequestScheduler :=
  { RequestScheduler.create perRequestor writeQueueEnable dataBusSize with queueCount := queueCount }

/-- A request of a size of one bus width or more, the rest of it 0: what the runs on fixed inputs are
made of. -/
def sampleRequest (t : RequestType) (requestorID address : Nat) : Request :=
  { handle := 0, requestType := t, requestorID := requestorID, requestSize := 64, address := address,
    arriveTime := 0 }

/-- A read of a requestor and a row of bank 0. -/
def rowRead (requestorID row : Nat) : Request :=
  { sampleRequest .DATA_READ requestorID 0 with row := row }

/-- A scheduler with these reads waiting, and row 0 of bank 0 open. -/
def RequestScheduler.withReads (reads : List Request) : RequestScheduler :=
  { RequestScheduler.create false false 64 with
    requestQueue := fun _ => { RequestQueue.create false false with generalBuffer := reads }
    bankTable := fun _ _ => some 0 }

end MCsim
