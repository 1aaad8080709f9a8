import MCsim.RequestScheduler

/-!
# What the request schedulers do

On one general request buffer, `FCFS` and `FRFCFS` take one request a call, or none where the buffer
is empty. `RequestScheduler.Picks` says which request may be taken: no request that stands before it
is a row hit, and it is one itself or the front. `RequestScheduler.taken` is everything that changes
then: the request leaves the buffer, its row enters the row table, and the generator was told the row
table's answer. `RequestPolicy.TakesOne` puts the two together; the laws about runs use it and never
look into a scheduler.
-/

namespace MCsim
namespace RequestScheduler

/-- The requests of the one general buffer. -/
def buffered (s : RequestScheduler) : List Request := (s.requestQueue 0).generalBuffer

/-- One request queue, with a general buffer and no write queue. -/
structure OneBuffer (s : RequestScheduler) : Prop where
  count : s.queueCount = 1
  general : (s.requestQueue 0).perRequestorEnable = false
  writes : (s.requestQueue 0).writeQueueEnable = false

/-- The request at a position may be taken: it is the first row hit, or the front. -/
structure Picks (s : RequestScheduler) (i : Nat) (r : Request) : Prop where
  at_ : s.buffered[i]? = some r
  before : ∀ j r', j < i → s.buffered[j]? = some r' → s.isRowHit r' = false
  hit : i = 0 ∨ s.isRowHit r = true

/-- The scheduler after the request at a position was handed to the generator, which became `g`. -/
def taken (s : RequestScheduler) (i : Nat) (r : Request) (g : CommandGenerator) :
    RequestScheduler :=
  ({ s with commandGenerator := g }.updateRowTable r.addressMap.rank r.addressMap.bank r.row).setQueue
    0 { s.requestQueue 0 with
        scheduledRequest := (false, 0, i), generalBuffer := s.buffered.eraseIdx i }

@[simp] theorem buffered_taken (s : RequestScheduler) (i : Nat) (r : Request)
    (g : CommandGenerator) : (s.taken i r g).buffered = s.buffered.eraseIdx i := rfl

@[simp] theorem commandGenerator_taken (s : RequestScheduler) (i : Nat) (r : Request)
    (g : CommandGenerator) : (s.taken i r g).commandGenerator = g := rfl

theorem bankTable_taken (s : RequestScheduler) (i : Nat) (r : Request) (g : CommandGenerator)
    (rank bank : Nat) :
    (s.taken i r g).bankTable rank bank =
      if rank = r.addressMap.rank ∧ bank = r.addressMap.bank then some r.row
      else s.bankTable rank bank := rfl

theorem OneBuffer.taken {s : RequestScheduler} (h : s.OneBuffer) (i : Nat) (r : Request)
    (g : CommandGenerator) : (s.taken i r g).OneBuffer := ⟨h.count, h.general, h.writes⟩

/-- Serving the request at a position, once the queue handed it out. -/
theorem serve_handed {s : RequestScheduler} {i : Nat} {r : Request}
    (at_ : s.buffered[i]? = some r) :
    ((s.setQueue 0 { s.requestQueue 0 with scheduledRequest := (false, 0, i) }).serve
        openGenerator 0 r).map (·.1) =
      (s.commandGenerator.commandGenerateOpen r (s.isRowHit r)).map (s.taken i r) := by
  have bound : i < (s.requestQueue 0).generalBuffer.length := (List.getElem?_eq_some_iff.mp at_).1
  show (((openGenerator s.commandGenerator r (s.isRowHit r)).map _).bind _).map _ = _
  unfold openGenerator
  cases s.commandGenerator.commandGenerateOpen r (s.isRowHit r) with
  | none => rfl
  | some g =>
    simp only [setQueue, RequestQueue.removeRequest, bound, taken, updateRowTable, buffered,
      Option.map_some, Option.bind_some, if_true]
    congr
    funext j
    split <;> rfl

end RequestScheduler

open RequestScheduler

/-- What stands at a position of the general buffer is handed out and remembered. -/
theorem RequestQueue.getRequest_of_at {q : RequestQueue} {i : Nat} {r : Request}
    (h : q.generalBuffer[i]? = some r) :
    q.getRequest i = some (some r, { q with scheduledRequest := (false, 0, i) }) := by
  have nonempty : q.generalBuffer ≠ [] := by
    intro e
    simp [e] at h
  simp [getRequest, nonempty, h]

/-- A request scheduler that takes one request off its general buffer at each call. It goes wrong
only where the generator does. -/
def RequestPolicy.TakesOne {ρ : Type} (policy : RequestPolicy ρ) : Prop :=
  ∀ (s : RequestScheduler) (priv : ρ), s.OneBuffer → ∃ priv',
    (s.buffered = [] ∧ policy.requestSchedule openGenerator s priv = some (s, priv')) ∨
    ∃ i r, s.Picks i r ∧ policy.requestSchedule openGenerator s priv =
      (s.commandGenerator.commandGenerateOpen r (s.isRowHit r)).map fun g => (s.taken i r g, priv')

namespace RequestFcfs

/-- **`FCFS` takes the front of its general buffer.** -/
theorem policy_takesOne : policy.TakesOne := by
  intro s _ one
  refine ⟨(), ?_⟩
  have perReq : (s.requestQueue 0).isPerRequestor = false := one.general
  cases hb : s.buffered with
  | nil =>
    have hb' : (s.requestQueue 0).generalBuffer = [] := hb
    refine .inl ⟨rfl, ?_⟩
    simp [policy, requestSchedule, one.count, scheduleQueue, perReq, scheduleGeneral, hb',
      List.range_succ]
  | cons r rest =>
    have hb' : (s.requestQueue 0).generalBuffer = r :: rest := hb
    have at_ : s.buffered[0]? = some r := by simp [hb]
    have nonempty : 0 < (s.requestQueue 0).generalBuffer.length := by simp [hb']
    refine .inr ⟨0, r, ⟨at_, fun j _ hj => absurd hj (Nat.not_lt_zero j), .inl rfl⟩, ?_⟩
    have served := serve_handed at_
    have whole : requestSchedule openGenerator s =
        (s.commandGenerator.commandGenerateOpen r (s.isRowHit r)).map (s.taken 0 r) := by
      rw [← served]
      simp [requestSchedule, one.count, scheduleQueue, perReq, scheduleGeneral, nonempty,
        RequestQueue.getRequest_of_at at_, List.range_succ]
      rfl
    show (requestSchedule openGenerator s).map _ = _
    rw [whole, Option.map_map]
    rfl

end RequestFcfs

namespace RequestFrfcfs

/-- The position that `scheduleFR` settles on. -/
theorem picks_scheduleFR {s : RequestScheduler} (nonempty : s.buffered ≠ []) :
    ∃ r, s.Picks ((s.buffered.findIdx? s.isRowHit).getD 0) r := by
  cases hf : s.buffered.findIdx? s.isRowHit with
  | none =>
    obtain ⟨r, rest, hb⟩ := List.exists_cons_of_ne_nil nonempty
    exact ⟨r, by simp [hb], fun j _ hj => absurd hj (Nat.not_lt_zero j), .inl rfl⟩
  | some i =>
    obtain ⟨bound, hit, before⟩ := List.findIdx?_eq_some_iff_getElem.mp hf
    refine ⟨_, List.getElem?_eq_getElem bound, fun j x hj hx => ?_, .inr hit⟩
    obtain ⟨_, rfl⟩ := List.getElem?_eq_some_iff.mp hx
    exact Bool.eq_false_iff.mpr (before j hj)

/-- **`FRFCFS` takes the first row hit of its general buffer, or the front.** -/
theorem policy_takesOne : policy.TakesOne := by
  intro s _ one
  refine ⟨(), ?_⟩
  by_cases hb : s.buffered = []
  · have hb' : (s.requestQueue 0).generalBuffer = [] := hb
    refine .inl ⟨hb, ?_⟩
    simp [policy, requestSchedule, one.count, scheduleQueue, hb', List.range_succ]
  · obtain ⟨r, picks⟩ := picks_scheduleFR hb
    refine .inr ⟨_, r, picks, ?_⟩
    have nonempty : 0 < (s.requestQueue 0).generalBuffer.length := List.length_pos_iff.mpr hb
    have handed : s.scheduleFR 0 = _ := RequestQueue.getRequest_of_at picks.at_
    have whole : requestSchedule openGenerator s =
        (s.commandGenerator.commandGenerateOpen r (s.isRowHit r)).map
          (s.taken ((s.buffered.findIdx? s.isRowHit).getD 0) r) := by
      rw [← serve_handed picks.at_]
      simp [requestSchedule, one.count, scheduleQueue, nonempty, handed, List.range_succ]
      rfl
    show (requestSchedule openGenerator s).map _ = _
    rw [whole, Option.map_map]
    rfl

end RequestFrfcfs
end MCsim
