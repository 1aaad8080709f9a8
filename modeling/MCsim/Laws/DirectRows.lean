import MCsim.Laws.Direct
import MCsim.Laws.RefreshRows

/-!
# What DIRECT has the generator make

Where a call of DIRECT is defined, the `OPEN` generator has a flag for every bank that it was asked for,
so the call is the one that hands over a front of every buffer. `Took` says what the generator made on the
way: the commands of each request, as the row table called it in its turn.

Two sides that share a row table leave rows of their own. A request whose row the table has gets no
activation, and its column accesses are legal behind the commands of its own side only where these leave
that row open (`OwnHits`).
-/

namespace MCsim
namespace Direct

open RequestScheduler CommandScheduler MemoryController

variable {s s' : RequestScheduler} {p p' : DirectState} {handed : List Request}

/-- Requests were handed over one after the other: each was called by the row table, joined it, and had
its commands made. -/
inductive Took : RequestScheduler → List Request → List BusPacket → RequestScheduler → Prop
  | nil (s : RequestScheduler) : Took s [] [] s
  | request {s s₁ s' : RequestScheduler} {r : Request} {rest : List Request} {new : List BusPacket}
      (bank : s.isRowHit r = true ∨ r.bank < 8)
      (table : s₁.bankTable = (s.updateRowTable r.addressMap.rank r.addressMap.bank r.row).bankTable)
      (made : s₁.commandGenerator = openNext s.commandGenerator r (s.isRowHit r))
      (later : Took s₁ rest new s') :
      Took s (r :: rest) (s.commandGenerator.commandsOf r (s.isRowHit r) ++ new) s'

/-- The `OPEN` generator accepts what it has a flag for. -/
theorem serve_open (s : RequestScheduler) (index : Nat) (r : Request) :
    s.serve openGenerator index r =
      if s.isRowHit r || r.bank < 8 then s.serve (accepting openNext) index r else none := by
  unfold serve isSchedulable openGenerator accepting
  rw [CommandGenerator.commandGenerateOpen_eq]
  split <;> rfl

/-- A request that is served is accepted. -/
theorem serve_took {index : Nat} {r : Request} {q : RequestQueue} {accepted : Bool}
    (h : (s.setQueue index q).serve openGenerator index r = some (s', accepted)) :
    (s.setQueue index q).serve (accepting openNext) index r = some (s', accepted) ∧ accepted = true ∧
      (s.isRowHit r = true ∨ r.bank < 8) ∧
      s'.bankTable = (s.updateRowTable r.addressMap.rank r.addressMap.bank r.row).bankTable ∧
      s'.commandGenerator = openNext s.commandGenerator r (s.isRowHit r) := by
  rw [serve_open] at h
  split at h
  · next bank =>
    refine ⟨h, ?_⟩
    have unmoved : (s.setQueue index q).isRowHit r = s.isRowHit r := rfl
    rw [unmoved] at bank
    simp only [serve, isSchedulable, accepting, Option.map_some, Option.bind_some, if_true] at h
    obtain ⟨q', _, rfl, rfl⟩ : ∃ q', _ ∧ _ = s' ∧ true = accepted := by
      simpa only [Option.map_eq_some_iff, Prod.mk.injEq] using h
    exact ⟨rfl, by simpa using bank, rfl, rfl⟩
  · cases h

/-- **The walk around a queue** hands over what the accepting walk hands over. -/
theorem requestorTurns_took {index size turns : Nat}
    (h : requestorTurns openGenerator index size turns s p = some (s', p', handed)) :
    requestorTurns (accepting openNext) index size turns s p = some (s', p', handed) ∧
      ∃ new, Took s handed new s' := by
  induction turns generalizing s p handed with
  | zero =>
    obtain ⟨rfl, rfl, rfl⟩ : s = s' ∧ p = p' ∧ [] = handed := by simpa [requestorTurns] using h
    exact ⟨rfl, [], .nil s⟩
  | succ turns ih =>
    simp only [requestorTurns] at h ⊢
    obtain ⟨pointer, at_, h⟩ := Option.bind_eq_some_iff.mp h
    obtain ⟨buffered, has, h⟩ := Option.bind_eq_some_iff.mp h
    rw [at_, Option.bind_some, has, Option.bind_some]
    split at h
    · next some' =>
      obtain ⟨⟨request, q⟩, got, h⟩ := Option.bind_eq_some_iff.mp h
      obtain ⟨r, rfl, h⟩ := Option.bind_eq_some_iff.mp h
      obtain ⟨⟨s₁, accepted⟩, served, h⟩ := Option.bind_eq_some_iff.mp h
      obtain ⟨same, rfl, bank, table, made⟩ := serve_took served
      rw [if_pos some', got, Option.bind_some, Option.bind_some, same, Option.bind_some]
      dsimp only at h ⊢
      split at h
      · next level =>
        obtain ⟨rfl, rfl, rfl⟩ : s₁ = s' ∧ _ = p' ∧ [r] = handed := by simpa using h
        exact ⟨by rw [if_pos level]; rfl, _, .request bank table made (.nil s₁)⟩
      · next level =>
        obtain ⟨⟨s₂, p₂, rest⟩, walked, h⟩ := Option.map_eq_some_iff.mp h
        obtain ⟨rfl, rfl, rfl⟩ : s₂ = s' ∧ p₂ = p' ∧ r :: rest = handed := by simpa using h
        obtain ⟨walks, new, took⟩ := ih walked
        exact ⟨by rw [if_neg level, walks]; rfl, _, .request bank table made took⟩
    · next none' =>
      rw [if_neg none']
      exact ih h

/-- **A call with one queue**: it hands over the front of every buffer. -/
theorem requestSchedule_took (inv : Inv 1 s p)
    (h : requestSchedule openGenerator () s p = some (s', p', handed)) :
    p' = p ∧ handed = given s p 0 ∧ Drained [0] s s' ∧ Inv 1 s' p ∧ ∃ new, Took s handed new s' := by
  have one : ∀ gen : Generator, requestSchedule gen () s p = queueTurn gen s p 0 := by
    intro gen
    simp only [requestSchedule, inv.count, List.range_one, List.foldlM_cons, List.foldlM_nil, List.nil_append]
    cases queueTurn gen s p 0 <;> rfl
  have perRequestor : (s.requestQueue 0).isPerRequestor = true := (inv.listed 0 Nat.one_pos).enabled
  rw [one, queueTurn, if_pos perRequestor] at h
  obtain ⟨s₁, called, drained, kept⟩ := requestSchedule_given openNext inv
  rw [one, queueTurn, if_pos perRequestor] at called
  have first : (List.range 1).flatMap (given s p) = given s p 0 := by simp [List.range_one]
  rw [first] at called
  suffices walked : (if (s.requestQueue 0).getQueueSize > 0 then
      requestorTurns (accepting openNext) 0 (s.requestQueue 0).getQueueSize
        (s.requestQueue 0).getQueueSize s p
      else some (s, p, [])) = some (s', p', handed) ∧ ∃ new, Took s handed new s' by
    obtain ⟨walked, took⟩ := walked
    obtain ⟨rfl, rfl, rfl⟩ : s₁ = s' ∧ p = p' ∧ given s p 0 = handed := by
      simpa using called.symm.trans walked
    exact ⟨rfl, rfl, drained, kept, took⟩
  split at h
  · next some' =>
    rw [if_pos some']
    exact requestorTurns_took h
  · next none' =>
    rw [if_neg none']
    refine ⟨h, ?_⟩
    obtain ⟨rfl, rfl, rfl⟩ : s = s' ∧ p = p' ∧ [] = handed := by simpa using h
    exact ⟨[], .nil s⟩

/-! ## What waits -/

/-- A delivery may resize a waiting request. -/
theorem Inv.resized {queueCount : Nat} (inv : Inv queueCount s p) (resized : Resized s s') :
    Inv queueCount s' p := by
  cases resized with
  | same => exact ⟨inv.count, inv.plain, inv.listed, inv.points⟩
  | sized clock handle n =>
    exact ⟨inv.count, inv.plain, fun i small => (inv.listed i small).assignSize handle n, inv.points⟩

/-- Every request that waits in the queue is decoded. -/
def MappedIn (s : RequestScheduler) : Prop := ∀ id, ∀ r ∈ (s.requestQueue 0).buffer id, Mapped r

theorem MappedIn.resized (mapped : MappedIn s) (resized : Resized s s') : MappedIn s' := by
  cases resized with
  | same => exact mapped
  | sized clock handle n =>
    intro id r hr
    have waits : r ∈ Request.assignSize handle n ((s.requestQueue 0).buffer id) :=
      RequestQueue.buffer_assignSize (s.requestQueue 0) handle n id ▸ hr
    obtain ⟨r₀, before, _, rfl⟩ := Resized.mem_assignSize waits
    exact mapped id r₀ before

theorem MappedIn.insertRequest (mapped : MappedIn s) {r : Request} (mappedR : Mapped r) :
    MappedIn (s.setQueue 0 ((s.requestQueue 0).insertRequest r)) := by
  intro id x hx
  rcases RequestQueue.mem_insertRequest hx with old | rfl
  · exact mapped id x old
  · exact mappedR

theorem MappedIn.drained {indices : List Nat} (mapped : MappedIn s) (drained : Drained indices s s') :
    MappedIn s' := by
  intro id r hr
  by_cases here : 0 ∈ indices
  · rw [drained.buffers 0 here] at hr
    exact mapped id r (List.mem_of_mem_tail hr)
  · rw [drained.others 0 here] at hr
    exact mapped id r hr

theorem MappedIn.given (mapped : MappedIn s) (p : DirectState) : ∀ r ∈ given s p 0, Mapped r := by
  intro r hr
  obtain ⟨id, _, front⟩ := List.mem_filterMap.mp hr
  exact mapped id r (List.mem_of_head? front)

/-! ## What was made -/

namespace Took

variable {new : List BusPacket}

/-- The commands join the generator's buffer, and nothing else does. -/
theorem buffer (took : Took s handed new s') :
    s'.commandGenerator.commandBuffer = s.commandGenerator.commandBuffer ++ new := by
  induction took with
  | nil => simp
  | request _ _ made _ ih =>
    rw [ih, made]
    simp [openNext, CommandGenerator.opened]

/-- The row table and the generator's flags change together. -/
theorem tabled (took : Took s handed new s') (tabled : s.Tabled) (mapped : ∀ r ∈ handed, Mapped r) :
    s'.Tabled ∧ ∀ c ∈ new, c.bank < 8 ∧ OpenCommand c.bank c := by
  induction took with
  | nil => exact ⟨tabled, fun c hc => absurd hc List.not_mem_nil⟩
  | @request s s₁ s' r rest new bank table made later ih =>
    have mappedR := mapped r List.mem_cons_self
    have taken := tabled.taken (i := 0) mappedR bank
    have next : s₁.Tabled := by
      refine ⟨?_, ?_⟩
      · rw [table]
        exact taken.bound
      · rw [table, made]
        exact taken.first
    obtain ⟨tabled', commands⟩ := ih next fun x hx => mapped x (List.mem_cons_of_mem r hx)
    refine ⟨tabled', fun c hc => ?_⟩
    rcases List.mem_append.mp hc with here | there
    · have opens := openCommand_of_commandsOf here
      exact ⟨opens.1 ▸ tabled.bank_lt mappedR bank, opens.1.symm ▸ opens⟩
    · exact commands c there

end Took

/-! ## Two sides and one row table -/

/-- The row that a request opens, in the table of its side. -/
def opens (critical : Nat → Bool) (r : Request) (rows : Bool → Nat → Option Nat) (side : Bool) (bank : Nat) :
    Option Nat :=
  if side = critical r.requestorID ∧ bank = r.bank then some r.row else rows side bank

/-- **Row hits of one's own.** The requests are handed over in order; where the shared table has the row of
a request, so have the commands of its own side. `rows` are the rows that these leave open. -/
def OwnHits (critical : Nat → Bool) : (Nat → Option Nat) → (Bool → Nat → Option Nat) → List Request → Prop
  | _, _, [] => True
  | table, rows, r :: rest =>
    (table r.bank = some r.row → rows (critical r.requestorID) r.bank = some r.row) ∧
      OwnHits critical (fun bank => if bank = r.bank then some r.row else table bank)
        (opens critical r rows) rest

instance decidableOwnHits (critical : Nat → Bool) : (table : Nat → Option Nat) →
    (rows : Bool → Nat → Option Nat) → (l : List Request) → Decidable (OwnHits critical table rows l)
  | _, _, [] => inferInstanceAs (Decidable True)
  | table, rows, r :: rest =>
    have := decidableOwnHits critical (fun bank => if bank = r.bank then some r.row else table bank)
      (opens critical r rows) rest
    inferInstanceAs (Decidable (_ ∧ _))

/-- The commands of a side for a bank. -/
def sorted (critical : Nat → Bool) (l : List BusPacket) (side : Bool) (bank : Nat) : List BusPacket :=
  l.filter fun c => c.bank == bank && critical c.requestorID == side

theorem sorted_append (critical : Nat → Bool) (v w : List BusPacket) (side : Bool) (bank : Nat) :
    sorted critical (v ++ w) side bank = sorted critical v side bank ++ sorted critical w side bank :=
  List.filter_append ..

/-- The commands of a request are all for its side and its bank. -/
theorem sorted_commandsOf (critical : Nat → Bool) (g : CommandGenerator) (r : Request) (isOpen : Bool)
    (clockCycle : Nat) (side : Bool) (bank : Nat) :
    sorted critical ((g.commandsOf r isOpen).map (stamp clockCycle)) side bank =
      if side = critical r.requestorID ∧ bank = r.bank then
        (g.commandsOf r isOpen).map (stamp clockCycle)
      else [] := by
  have same : ∀ x ∈ (g.commandsOf r isOpen).map (stamp clockCycle),
      x.bank = r.bank ∧ x.requestorID = r.requestorID := by
    intro x hx
    obtain ⟨y, hy, rfl⟩ := List.mem_map.mp hx
    exact ⟨(CommandGenerator.mem_commandsOf hy).1, (CommandGenerator.commandsOf_requestor hy).1⟩
  unfold sorted
  split
  · next own =>
    apply List.filter_eq_self.mpr
    intro x hx
    simp [same x hx, own]
  · next other =>
    apply List.filter_eq_nil_iff.mpr
    intro x hx both
    simp only [same x hx, Bool.and_eq_true, beq_iff_eq] at both
    exact other ⟨both.2.symm, both.1.symm⟩

/-- **What each side has to send stays legal**: behind commands that are legal from the row that is open
and leave the rows of `rows`, the commands of the requests handed over are legal. -/
theorem Took.plays {new : List BusPacket} (took : Took s handed new s') {critical : Nat → Bool}
    (mapped : ∀ r ∈ handed, Mapped r) {rows : Bool → Nat → Option Nat}
    (hits : OwnHits critical (s.bankTable 0) rows handed) (clockCycle : Nat) (side : Bool) (bank : Nat) :
    casBuffer.Accepts (rows side bank) (sorted critical (new.map (stamp clockCycle)) side bank) := by
  induction took generalizing rows with
  | nil => trivial
  | @request s s₁ s' r rest new small table made later ih =>
    obtain ⟨own, hits⟩ := hits
    have mappedR := mapped r List.mem_cons_self
    have tableNow : s₁.bankTable 0 = fun bank => if bank = r.bank then some r.row else s.bankTable 0 bank := by
      rw [table]
      funext b
      simp [updateRowTable, mappedR.1, mappedR.2]
    rw [← tableNow] at hits
    have behind := ih (fun x hx => mapped x (List.mem_cons_of_mem r hx)) hits
    rw [List.map_append, sorted_append, sorted_commandsOf, casBuffer.accepts_append]
    unfold opens at behind
    by_cases here : side = critical r.requestorID ∧ bank = r.bank
    · obtain ⟨rfl, rfl⟩ := here
      rw [if_pos ⟨rfl, rfl⟩]
      rw [if_pos ⟨rfl, rfl⟩] at behind
      have request := s.commandGenerator.casBuffer_request r (s.isRowHit r)
        (rows (critical r.requestorID) r.bank) fun hit => own (by simpa [mappedR.isRowHit] using hit)
      rw [(casBuffer_timeless ..).1, (casBuffer_timeless ..).2, request.2]
      exact ⟨request.1, behind⟩
    · rw [if_neg here]
      rw [if_neg here] at behind
      exact ⟨trivial, behind⟩

end Direct
end MCsim
