import MCsim.Laws.Completion
import MCsim.Laws.OpenClose

/-!
# The statistics of a memory system

The open system of the counters leaves most of a controller open. Here a whole memory system fills it, in
the set-ups of the general schedulers without refresh: an arrival is an event of the open system, and an
update is a few of them (`step_mirrored`). They are events that the law on the counters allows. What it
asks of the data is no assumption here: with the books kept, a packet finds a request that has left the
request buffer (`Mirrors.data_allowed`).
-/

namespace MCsim
namespace OpenClose

open MemoryController RequestScheduler Lib.Machine

variable {ρ κ : Type} {setup : Setup} {parts : Components ρ κ} {c c' : MemoryController ρ κ}
  {st : State ρ κ}

/-- The requests of requestor 0 in the request buffer. -/
def waitingOf (c : MemoryController ρ κ) : List Request :=
  c.requestScheduler.buffered.filter (·.requestorID == 0)

/-- The open system stands where the memory system does. -/
structure Mirrors (setup : Setup) (c : MemoryController ρ κ) (st : State ρ κ) : Prop where
  controller : st.controller = c
  waiting : st.waiting = waitingOf c
  wide : 0 < setup.dataBusWidth
  inv : Inv setup st
  drained : Drained c

/-- Events of the open system that the law on the counters allows. -/
abbrev Allows (setup : Setup) (st : State ρ κ) (events : List (Event ρ κ)) (st' : State ρ κ) : Prop :=
  Leads (step setup openGenerator) (fun st event _ _ => Allowed setup st event) st events st'

/-- Such events get the open system to where the memory system is. -/
def Reaches (setup : Setup) (st : State ρ κ) (c : MemoryController ρ κ) : Prop :=
  ∃ events st', Allows setup st events st' ∧ Mirrors setup c st'

theorem Mirrors.here (mirrors : Mirrors setup c st) : Reaches setup st c := ⟨[], st, .nil, mirrors⟩

theorem Reaches.trans (first : Reaches setup st c)
    (next : ∀ st', Mirrors setup c st' → Reaches setup st' c') : Reaches setup st c' := by
  obtain ⟨events, st', leads, mirrors⟩ := first
  obtain ⟨events', st'', leads', mirrors'⟩ := next st' mirrors
  exact ⟨events ++ events', st'', leads.append leads', mirrors'⟩

/-- Everything else, where it keeps what the counters depend on, is taken over as it is. -/
theorem step_others (kept : keep st.controller c' = c') :
    step setup openGenerator st (.others c') = some ({ st with controller := c' }, ()) := by
  show some ({ st with controller := keep st.controller c' }, ()) = _
  rw [kept]

/-- An event that is allowed, and that leaves the right requests waiting. -/
theorem Mirrors.event (mirrors : Mirrors setup c st) {event : Event ρ κ} {st' : State ρ κ}
    (stepped : step setup openGenerator st event = some (st', ())) (allowed : Allowed setup st event)
    (waits : st'.waiting = waitingOf st'.controller) : Reaches setup st st'.controller := by
  obtain ⟨rfl, _, wide, inv, drained⟩ := mirrors
  obtain ⟨inv', drained'⟩ := step_inv openGenerator_cracks wide ⟨inv, drained⟩ stepped allowed
  exact ⟨[event], st', .single stepped allowed, rfl, waits, wide, inv', drained'⟩

/-- Everything else that leaves the counters and the request buffer alone. -/
theorem Mirrors.others (mirrors : Mirrors setup c st) (kept : keep c c' = c')
    (waits : waitingOf c' = waitingOf c) : Reaches setup st c' := by
  obtain ⟨rfl, waiting, _⟩ := id mirrors
  exact mirrors.event (step_others kept) trivial (waiting.trans waits.symm)

/-- An event that is allowed, and everything else after it. -/
theorem Mirrors.followed (mirrors : Mirrors setup c st) {event : Event ρ κ} {st' : State ρ κ}
    (stepped : step setup openGenerator st event = some (st', ())) (allowed : Allowed setup st event)
    (kept : keep st'.controller c' = c') (waits : st'.waiting = waitingOf c') : Reaches setup st c' := by
  obtain ⟨rfl, _, wide, inv, drained⟩ := mirrors
  obtain ⟨inv₁, drained₁⟩ := step_inv openGenerator_cracks wide ⟨inv, drained⟩ stepped allowed
  obtain ⟨inv₂, drained₂⟩ :=
    step_inv openGenerator_cracks wide ⟨inv₁, drained₁⟩ (step_others kept) trivial
  exact ⟨_, _, (Leads.single stepped allowed).append (.single (step_others kept) trivial), rfl, waits,
    wide, inv₂, drained₂⟩

/-! ## Data -/

section

variable {flight : Bool → List BusPacket} {queue : Nat → List BusPacket} {isRead : Bool} {p : BusPacket}
  {rest : List BusPacket}

/-- **Data comes once the commands were made**: with the books kept, the request that the next packet
finds is in no request buffer any more, and requestor 0 has no other. -/
theorem Mirrors.data_allowed (mirrors : Mirrors setup c st)
    (books : Books setup c.pendings c.requestScheduler.buffered flight queue)
    (front : flight isRead = p :: rest) : Allowed setup st (.data isRead p) := by
  obtain ⟨rfl, waiting, _, inv, _⟩ := mirrors
  rintro own -
  obtain ⟨index, r, found, at_, key, _, absent, _⟩ := books.matched front
  have pending : r ∈ st.controller.pending isRead := List.mem_of_getElem? at_
  have requestor : r.requestorID = 0 := (congrArg Key.requestorID key).trans own
  have mineR : r ∈ mine st.controller :=
    List.mem_filter.mpr ⟨mem_allPending pending, by simp [requestor]⟩
  rcases inv.stage with ⟨none, _, _⟩ | ⟨r', one, waits, _, _⟩ | ⟨_, _, empty, _⟩
  · rw [none] at mineR
    cases mineR
  · obtain rfl : r = r' := by simpa [one] using mineR
    have here : r ∈ waitingOf st.controller := by
      rw [← waiting, waits]
      exact List.mem_singleton_self r
    exact absurd rfl (absent r (List.mem_filter.mp here).1)
  · exact empty

/-- A delivery leaves the requests of requestor 0 in the buffer as they are. -/
theorem Mirrors.waitingOf_transfer (mirrors : Mirrors setup c st)
    (books : Books setup c.pendings c.requestScheduler.buffered flight queue)
    (front : flight isRead = p :: rest) : waitingOf (transfer setup isRead c p) = waitingOf c := by
  have allowed := mirrors.data_allowed books front
  obtain ⟨rfl, _, _, inv, _⟩ := mirrors
  have alike := counting_alike setup isRead st.controller p
  have buffered : (counting setup isRead st.controller p).requestScheduler =
      st.controller.requestScheduler := by
    cases isRead <;> rfl
  have pendings : (counting setup isRead st.controller p).pending isRead =
      st.controller.pending isRead := by
    cases isRead <;> rfl
  rw [transfer_eq]
  obtain ⟨_, same⟩ | ⟨index, r, ⟨found, at_⟩, ⟨_, done⟩ | ⟨large, smaller⟩⟩ :=
    deliver_cases setup isRead (counting setup isRead st.controller p) p
  · rw [same, waitingOf, buffered]
    rfl
  · rw [done, waitingOf, (completed_fields _ isRead p index r).1, buffered]
    rfl
  · -- it is counted down, so it is not requestor 0's
    rw [pendings] at found at_
    have pending : r ∈ st.controller.pending isRead := List.mem_of_getElem? at_
    obtain ⟨r', at', hit, _⟩ := Lib.findIdx_eq_some_first found
    obtain rfl : r = r' := Option.some.inj (at_.symm.trans at')
    have requestor : p.requestorID = r.requestorID := by
      unfold matchesRequest at hit
      simp only [Bool.and_eq_true, beq_iff_eq] at hit
      exact hit.1
    have other : r.requestorID ≠ 0 := by
      intro own
      have mineR : r ∈ mine st.controller :=
        List.mem_filter.mpr ⟨mem_allPending pending, by simp [own]⟩
      exact large (inv.matched mineR (allowed (requestor.trans own) ⟨r, pending, hit⟩)).1
    rw [smaller]
    show List.filter _ (Request.assignSize r.handle _
      (counting setup isRead st.controller p).requestScheduler.buffered) = _
    rw [buffered]
    refine filter_assignSize_other fun x hx same => ?_
    have here : x ∈ allPending st.controller := mem_allPending (books.mem_pending hx)
    have owner := inv.owner x here r (mem_allPending pending) same
    exact owner ▸ other

/-- **A delivery** is an event of the open system. -/
theorem Mirrors.data (mirrors : Mirrors setup c st)
    (books : Books setup c.pendings c.requestScheduler.buffered flight queue)
    (front : flight isRead = p :: rest) : Reaches setup st (transfer setup isRead c p) := by
  have allowed := mirrors.data_allowed books front
  have waits := mirrors.waitingOf_transfer books front
  obtain ⟨rfl, waiting, _⟩ := id mirrors
  have stepped : step setup openGenerator st (.data isRead p) =
      some ({ st with controller := transfer setup isRead st.controller p }, ()) := rfl
  exact mirrors.event stepped allowed (waiting.trans waits.symm)

end

/-! ## Arrivals and requests handed over -/

/-- Requestor 0 has one request outstanding at a time, one data bus width large. -/
def Single (setup : Setup) (c : MemoryController ρ κ) : MCsim.Event → Prop
  | .addRequest requestorID _ _ size => requestorID = 0 → size = setup.dataBusWidth ∧ mine c = []
  | .update _ _ => True

/-- **An arrival** is an event of the open system. -/
theorem Mirrors.arrived (mirrors : Mirrors setup c st) {requestorID address : Nat} {R_W : Bool}
    {size : Nat} (single : Single setup c (.addRequest requestorID address R_W size))
    (added : c.addRequest setup requestorID address R_W size =
      some (c.arrived (incoming setup c requestorID address R_W size) R_W)) :
    Reaches setup st (c.arrived (incoming setup c requestorID address R_W size) R_W) := by
  obtain ⟨rfl, waiting, _⟩ := id mirrors
  obtain ⟨_, _, requestor, _⟩ := incoming_same setup st.controller requestorID address R_W size
  generalize joined : incoming setup st.controller requestorID address R_W size = r at *
  have buffer : waitingOf (st.controller.arrived r R_W) =
      waitingOf st.controller ++ [r].filter (·.requestorID == 0) := List.filter_append ..
  have stepped : step setup openGenerator st (.addRequest requestorID address R_W size) =
      some ({ st with
        controller := st.controller.arrived r R_W
        waiting := if requestorID = 0 then st.waiting ++ [r] else st.waiting }, ()) := by
    show (st.controller.addRequest setup requestorID address R_W size).map _ = _
    rw [added, Option.map_some, joined]
  refine mirrors.event stepped single ?_
  show (if requestorID = 0 then st.waiting ++ [r] else st.waiting) =
    waitingOf (st.controller.arrived r R_W)
  rw [buffer, waiting]
  split
  · next own => simp [requestor, own]
  · next other => simp [requestor, other]

/-- The request of requestor 0 that is taken was the only one that waited. -/
theorem Mirrors.waitingOf_taken (mirrors : Mirrors setup c st) {i : Nat} {r : Request}
    (at_ : c.requestScheduler.buffered[i]? = some r) :
    (if r.requestorID = 0 then st.waiting.erase r else st.waiting) =
      (c.requestScheduler.buffered.eraseIdx i).filter (·.requestorID == 0) := by
  obtain ⟨rfl, waiting, _, inv, _⟩ := mirrors
  split
  · next own =>
    have here : r ∈ st.waiting := by
      rw [waiting]
      exact List.mem_filter.mpr ⟨List.mem_of_getElem? at_, by simp [own]⟩
    obtain ⟨bound, rfl⟩ := List.getElem?_eq_some_iff.mp at_
    have perm := (List.getElem_cons_eraseIdx_perm bound).filter (·.requestorID == 0)
    rw [List.filter_cons_of_pos (by simp [own])] at perm
    rcases inv.stage with ⟨_, empty, _⟩ | ⟨r', _, waits, _, _⟩ | ⟨_, _, empty, _⟩
    · rw [empty] at here
      cases here
    · rw [waits] at here
      obtain rfl := List.mem_singleton.mp here
      have one : st.controller.requestScheduler.buffered.filter (·.requestorID == 0) = [_] :=
        waiting.symm.trans waits
      rw [one] at perm
      have none := (List.perm_cons _).mp perm
      rw [waits, none.eq_nil]
      simp
    · rw [empty] at here
      cases here
  · next other =>
    rw [waiting, Lib.filter_eraseIdx_of_neg at_ (by simp [other])]
    rfl

/-- The controller with the commands of a request in their queues; the request has not left its buffer. -/
def cracked (c : MemoryController ρ κ) (r : Request) : MemoryController ρ κ :=
  let g := c.requestScheduler.commandGenerator
  let hit := c.requestScheduler.isRowHit r
  { c with requestScheduler := { c.requestScheduler with commandGenerator := g.opened r hit } }.enqueued
    (g.commandsOf r hit)

/-- A request that is taken is scheduled in the open system: its commands are made as the row table tells,
and they join the queues of their banks. -/
theorem schedule_taken (perBank : setup.PerBank) (wired : st.controller.Wired) {i : Nat} {r : Request}
    (picks : st.controller.requestScheduler.Picks i r)
    (bank : st.controller.requestScheduler.isRowHit r = true ∨ r.bank < 8)
    (waited : r.requestorID = 0 → r ∈ st.waiting) :
    ∃ served, step setup openGenerator st
        (.schedule [(r, st.controller.requestScheduler.isRowHit r)]) = some
      ({ controller := cracked st.controller r
         waiting := if r.requestorID = 0 then st.waiting.erase r else st.waiting
         served := served }, ()) := by
  have banks := (Hands.take picks bank).commands wired.tabled wired.mapped
  let g := st.controller.requestScheduler.commandGenerator
  let hit := st.controller.requestScheduler.isRowHit r
  let generated : MemoryController ρ κ := { st.controller with
    requestScheduler := { st.controller.requestScheduler with
      commandGenerator := { g.opened r hit with commandBuffer := g.commandsOf r hit } } }
  have made : openGenerator g r hit =
      some ({ g.opened r hit with commandBuffer := g.commandsOf r hit }, true) := by
    have can : (hit || decide (r.bank < 8)) = true := by simpa [hit] using bank
    rw [openGenerator, CommandGenerator.commandGenerateOpen_eq, if_pos can,
      show g.commandBuffer = [] from wired.emptied]
    rfl
  have clear : ({ g.opened r hit with commandBuffer := [] } : CommandGenerator) = g.opened r hit := by
    rw [← show (g.opened r hit).commandBuffer = [] from wired.emptied]
  have sorted : enqueueAll setup generated = some (cracked st.controller r) := by
    have all := enqueueAll_eq (c := generated) perBank wired.commands fun x hx => (banks x hx).1
    simp only [generated, clear] at all
    exact all
  obtain ⟨served, handed⟩ : ∃ served, hand openGenerator st (r, hit) = some
      { controller := generated
        waiting := if r.requestorID = 0 then st.waiting.erase r else st.waiting
        served := served } := by
    unfold hand
    rw [if_neg fun absent => absent.2 (waited absent.1), isSchedulable, made]
    exact ⟨_, rfl⟩
  refine ⟨served, ?_⟩
  show ([(r, hit)].foldlM (hand openGenerator) st).bind _ = _
  rw [List.foldlM_cons, handed]
  show (enqueueAll setup generated).map _ = _
  rw [sorted]
  rfl

/-- **A request handed over** is one event of the open system, and what the other parts do is another. -/
theorem Mirrors.handed (mirrors : Mirrors setup c st) (perBank : setup.PerBank) (wired : c.Wired)
    {rs : RequestScheduler} {new : List BusPacket} (hands : Hands c.requestScheduler rs new) (priv : ρ)
    (cs : CommandScheduler) (priv' : κ) (data : List BusPacket) (counters : List Nat) :
    Reaches setup st { c.scheduled rs priv new cs priv' with
      sendDataBuffer := data, sendDataCounter := counters } := by
  cases hands with
  | idle => exact mirrors.others rfl rfl
  | @take i r picks bank =>
    have waits := mirrors.waitingOf_taken picks.at_
    obtain ⟨rfl, waiting, _⟩ := id mirrors
    have waited : r.requestorID = 0 → r ∈ st.waiting := by
      intro own
      rw [waiting]
      exact List.mem_filter.mpr ⟨List.mem_of_getElem? picks.at_, by simp [own]⟩
    -- the request leaves the log of those that wait first, and then its buffer
    obtain ⟨served, scheduled⟩ := schedule_taken perBank wired picks bank waited
    exact mirrors.followed scheduled trivial rfl waits

/-! ## Cycles -/

/-- What is due of the write data is an event of the open system. -/
theorem Mirrors.written (mirrors : Mirrors setup c st) {queue : Nat → List BusPacket}
    (balanced : Balanced setup c queue) : Reaches setup st (sendWriteData setup c) := by
  unfold sendWriteData
  dsimp only
  split
  · split
    · exact mirrors.here
    · next p rest front =>
      have sent : Reaches setup st (transfer setup false c p) := mirrors.data balanced.1 front
      exact sent.trans fun _ mirrors => mirrors.others rfl rfl
  · exact mirrors.others rfl rfl

/-- **A cycle** is a few events of the open system. -/
theorem Mirrors.cycle (mirrors : Mirrors setup c st) (perBank : setup.PerBank)
    (accounted : Accounted setup c) {refreshCheck check : Answers}
    (cycle : Cycle setup refreshCheck check c c') : Reaches setup st c' := by
  obtain ⟨priv, priv', hands, sends⟩ := cycle
  rename_i rs new cs out
  have balanced := accounted.scheduled priv priv' hands sends
  have received := accounted.wired.perBank_receive hands
  obtain ⟨counters, queued⟩ := queueWriteData_eq setup (c.scheduled rs priv new cs priv')
    (sends_open received.refresh sends)
  have before : Reaches setup st (queueWriteData setup (c.scheduled rs priv new cs priv') out) := by
    rw [queued]
    exact mirrors.handed perBank accounted.wired hands priv cs priv' _ counters
  exact (before.trans fun _ mirrors => mirrors.written balanced).trans fun _ mirrors =>
    mirrors.others rfl rfl

/-- **The device's update** is one or two. -/
theorem Mirrors.deviceUpdate (mirrors : Mirrors setup c st) (accounted : Accounted setup c) :
    Reaches setup st (MemorySystem.deviceUpdate setup c) := by
  obtain ⟨d', _, ⟨quiet, _⟩ | ⟨p, delivered, front⟩⟩ := update_device setup.device accounted.posted
  · simp only [MemorySystem.deviceUpdate, quiet]
    exact mirrors.others rfl rfl
  · simp only [MemorySystem.deviceUpdate, delivered]
    have updated : Reaches setup st
        { c with commandScheduler := { c.commandScheduler with memoryDevice := d' } } :=
      mirrors.others rfl rfl
    refine updated.trans fun st₁ mirrors => ?_
    exact show Reaches setup st₁ (transfer setup true _ p) from mirrors.data accounted.books front

/-! ## Runs of a memory system -/

/-- **Every event at a memory system is some events of the open system**, and the law on the counters
allows them. -/
theorem step_mirrored (open_ : setup.OpenPage) (opens : parts.OpenPage) (mirrors : Mirrors setup c st)
    (accounted : Accounted setup c) {e : MCsim.Event} {o : Unit}
    (stepped : MemorySystem.step setup parts c e = some (c', o)) (single : Single setup c e) :
    Reaches setup st c' := by
  obtain ⟨requestorID, address, R_W, size, rfl, rfl⟩ | ⟨refreshCheck, check, c₁, rfl, cycle, rfl⟩ :=
    MemorySystem.step_cases open_ opens accounted.wired stepped
  · exact mirrors.arrived single (addRequest_eq open_ accounted.wired ..)
  · exact (mirrors.cycle open_.toPerBank accounted cycle).trans fun _ mirrors =>
      mirrors.deviceUpdate (cycle.accounted accounted)

/-- **The statistics of a memory system.** With one general request buffer, `OPEN`, a queue for each bank,
no refresh and any of the general schedulers, whatever the device answers: where requestor 0 has one
request outstanding at a time, the run of the memory system is a run of the open system that the law on
the counters allows, and they are exact if and only if its first request needed an activation. -/
theorem memorySystem_statistics (open_ : setup.OpenPage) (noRefresh : setup.refresh_mechanism = .none)
    {parts : Components Unit Unit} (general : parts.General) (wide : 0 < setup.dataBusWidth)
    (refreshCounting bank_release : Nat) {events : List MCsim.Event}
    {c : MemoryController Unit Unit} {os : List Unit} (sized : ∀ e ∈ events, e.Sized setup)
    (single : Along (MemorySystem.step setup parts) (fun c e _ _ => Single setup c e)
      (create setup parts refreshCounting bank_release) events)
    (ran : run (MemorySystem.step setup parts) (create setup parts refreshCounting bank_release)
      events = some (c, os)) :
    ∃ opened st, Allows setup (start setup parts refreshCounting bank_release) opened st ∧
      st.controller = c ∧ (Exact st ↔ ∀ first ∈ st.served.head?, first.2 = true) := by
  have opens := general.openPage
  have inv := @start_inv _ _ setup parts refreshCounting bank_release
  have mirrors : Mirrors setup (create setup parts refreshCounting bank_release)
      (start setup parts refreshCounting bank_release) := ⟨rfl, rfl, wide, inv.1, inv.2⟩
  obtain ⟨opened, st, leads, mirrors', _⟩ := run_simulates
    (fun c st => Mirrors setup c st ∧ Accounted setup c)
    (fun related stepped meets => by
      obtain ⟨ks, st', leads, mirrors'⟩ :=
        step_mirrored open_ opens related.1 related.2 stepped meets.1
      exact ⟨ks, st', leads, mirrors',
        MemorySystem.step_accounted open_ opens related.2 stepped meets.2⟩)
    ⟨mirrors, accounted_create open_ noRefresh parts refreshCounting bank_release⟩
    (along_and single (along_of_forall (MemorySystem.step setup parts)
      (create setup parts refreshCounting bank_release) sized)) ran
  refine ⟨opened, st, leads, mirrors'.controller, mirrors'.inv.exact_iff ?_⟩
  rw [mirrors'.controller]
  exact mirrors'.drained

end OpenClose
end MCsim
