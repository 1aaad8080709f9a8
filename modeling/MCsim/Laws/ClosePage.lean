import MCsim.Laws.Pipelines
import MCsim.Laws.RTMem
import MCsim.Laws.RowState
import MCsim.Requests.Pmc
import MCsim.Spec.Access

/-!
# Closed pages

The set-ups of `AMC.ini`, `PMC.ini` and `RTMem.ini` have one command queue for each bank and the `CLOSE`
generator behind it. However their request schedulers choose, what they put into the queues are requests
that the generator made accesses of (`Fed`), and a queue keeps the order. So the commands sent to a bank
and those that wait for it are always a sequence of accesses (`closePage_isolated`): no column access finds
a row that was opened for another one, or for another requestor.
-/

namespace MCsim

open CommandScheduler RequestScheduler CommandGenerator

/-! ## Requests that were handed to a generator -/

/-- A generator after requests were handed to it in turn, with those that it accepted. -/
inductive Fed (gen : Generator) : CommandGenerator → List Request → CommandGenerator → Prop
  | refl (g : CommandGenerator) : Fed gen g [] g
  | more {g g' g'' : CommandGenerator} {requests : List Request} {request : Request}
      {isOpen accepted : Bool} (fed : Fed gen g requests g')
      (made : gen g' request isOpen = some (g'', accepted)) :
      Fed gen g (requests ++ if accepted then [request] else []) g''

/-- A request scheduler changes its generator by handing it requests. -/
def RequestPolicy.Feeds {ρ : Type} (policy : RequestPolicy ρ) : Prop :=
  ∀ (gen : Generator) (s s' : RequestScheduler) (priv priv' : ρ),
    policy.requestSchedule gen s priv = some (s', priv') →
      ∃ requests, Fed gen s.commandGenerator requests s'.commandGenerator

namespace Fed

variable {gen : Generator} {g g' g'' : CommandGenerator} {requests requests' : List Request}

theorem trans (first : Fed gen g requests g') (later : Fed gen g' requests' g'') :
    Fed gen g (requests ++ requests') g'' := by
  induction later with
  | refl =>
    rw [List.append_nil]
    exact first
  | more _ made ih =>
    rw [← List.append_assoc]
    exact .more ih made

theorem isSchedulable {s s' : RequestScheduler} {request : Request} {isOpen accepted : Bool}
    (scheduled : s.isSchedulable gen request isOpen = some (s', accepted)) :
    Fed gen s.commandGenerator (if accepted then [request] else []) s'.commandGenerator := by
  obtain ⟨⟨g, answer⟩, made, out⟩ := Option.map_eq_some_iff.mp scheduled
  obtain ⟨rfl, rfl⟩ := Prod.mk.inj out
  exact .more (.refl _) made

/-- The `CLOSE` generator has accesses of the requests it was handed in its buffer. -/
theorem close (fed : Fed closeGenerator g requests g') :
    g' = { g with
      commandBuffer := g.commandBuffer ++ requests.flatMap (closeCommands g.dataBusSize) } := by
  induction fed with
  | refl => simp
  | @more g' g'' requests request isOpen accepted _ made ih =>
    subst ih
    obtain ⟨rfl, rfl⟩ := Prod.mk.inj (Option.some.inj made)
    simp [List.flatMap_append]

end Fed

/-! ### Round robin -/

namespace RoundRobin

variable {table : Nat → Bool} {gen : Generator} {s : RequestScheduler} {p : RoundRobinState}

theorem grant_fed {index size : Nat} {request : Request} {outcome : Outcome}
    (h : grant gen index size s p request = some outcome) :
    Fed gen s.commandGenerator outcome.2.2.2 outcome.1.commandGenerator := by
  obtain ⟨⟨s₁, accepted⟩, scheduled, h⟩ := Option.bind_eq_some_iff.mp h
  have fed := Fed.isSchedulable scheduled
  dsimp only at h
  split at h
  · next takes =>
    obtain ⟨q, _, rfl⟩ := Option.map_eq_some_iff.mp h
    rwa [if_pos takes] at fed
  · next refuses =>
    cases h
    rwa [if_neg refuses] at fed

theorem requestorTurns_fed {index size turns : Nat} {outcome : Outcome}
    (h : requestorTurns table gen index size turns s p = some outcome) :
    Fed gen s.commandGenerator outcome.2.2.2 outcome.1.commandGenerator := by
  induction turns generalizing s p with
  | zero =>
    cases h
    exact .refl _
  | succ turns ih =>
    obtain ⟨waiting, _, h⟩ := Option.bind_eq_some_iff.mp h
    dsimp only at h
    split at h
    · obtain ⟨⟨found, q⟩, _, h⟩ := Option.bind_eq_some_iff.mp h
      obtain ⟨request, _, h⟩ := Option.bind_eq_some_iff.mp h
      split at h
      · obtain ⟨q', _, h⟩ := Option.bind_eq_some_iff.mp h
        exact ih (s := s.setQueue p.queueIndex q') h
      · exact grant_fed (s := s.setQueue p.queueIndex q) h
    · exact ih h

theorem grantAside_fed {r outcome : Outcome} {g : CommandGenerator}
    (first : Fed gen g r.2.2.2 r.1.commandGenerator) (h : grantAside gen r = some outcome) :
    Fed gen g outcome.2.2.2 outcome.1.commandGenerator := by
  obtain ⟨s, p, scheduled, handed⟩ := r
  cases scheduled with
  | some request =>
    cases h
    exact first
  | none =>
    unfold grantAside at h
    dsimp only at h
    split at h
    · obtain ⟨⟨s₁, accepted⟩, scheduled, out⟩ := Option.map_eq_some_iff.mp h
      have fed := first.trans (Fed.isSchedulable scheduled)
      dsimp only at out
      split at out
      · next takes =>
        rw [if_pos takes] at fed
        exact out ▸ fed
      · next refuses =>
        rw [if_neg refuses, List.append_nil] at fed
        exact out ▸ fed
    · cases h
      exact first

theorem queueTurn_fed {index : Nat} {outcome : Outcome}
    (h : queueTurn table gen index s p = some outcome) :
    Fed gen s.commandGenerator outcome.2.2.2 outcome.1.commandGenerator := by
  unfold queueTurn at h
  dsimp only at h
  split at h
  · split at h
    · obtain ⟨between, turned, aside⟩ := Option.bind_eq_some_iff.mp h
      exact grantAside_fed (requestorTurns_fed turned) aside
    · cases h
      exact .refl _
  · split at h
    · obtain ⟨⟨found, q⟩, _, h⟩ := Option.bind_eq_some_iff.mp h
      obtain ⟨request, _, h⟩ := Option.bind_eq_some_iff.mp h
      obtain ⟨⟨s₁, accepted⟩, scheduled, h⟩ := Option.bind_eq_some_iff.mp h
      have fed := Fed.isSchedulable (s := s.setQueue p.queueIndex q) scheduled
      dsimp only at h
      split at h
      · next takes =>
        obtain ⟨q', _, rfl⟩ := Option.map_eq_some_iff.mp h
        rwa [if_pos takes] at fed
      · next refuses =>
        cases h
        rwa [if_neg refuses] at fed
    · cases h
      exact .refl _

theorem queueTurns_fed {indices : List Nat} {handed handed' : List Request} {s' : RequestScheduler}
    {p' : RoundRobinState} {g : CommandGenerator} (first : Fed gen g handed s.commandGenerator)
    (h : queueTurns table gen indices s p handed = some (s', p', handed')) :
    Fed gen g handed' s'.commandGenerator := by
  induction indices generalizing s p handed with
  | nil =>
    cases h
    exact first
  | cons index rest ih =>
    obtain ⟨⟨s₁, p₁, scheduled, granted⟩, turned, h⟩ := Option.bind_eq_some_iff.mp h
    have fed := first.trans (queueTurn_fed turned)
    dsimp only at h
    split at h
    · cases h
      exact fed
    · exact ih fed h

/-- **The generator accepted what round robin says it granted.** -/
theorem requestSchedule_fed {s' : RequestScheduler} {p' : RoundRobinState} {handed : List Request}
    (h : requestSchedule table gen () s p = some (s', p', handed)) :
    Fed gen s.commandGenerator handed s'.commandGenerator := by
  unfold requestSchedule at h
  split at h
  · exact queueTurns_fed (.refl _) h
  · cases h
    exact .refl _

theorem policy_feeds (table : Nat → Bool) : (policy table).Feeds := by
  intro gen s s' p p' h
  obtain ⟨⟨s₁, p₁, handed⟩, scheduled, out⟩ := Option.map_eq_some_iff.mp h
  obtain ⟨rfl, rfl⟩ := Prod.mk.inj out
  exact ⟨handed, requestSchedule_fed scheduled⟩

end RoundRobin

/-! ### RTMem -/

namespace RTMem

/-- A generator behind a full command queue is not asked. -/
theorem fed_isSchedulable {queues : List CommandQueue} {gen : Generator} {g g' : CommandGenerator}
    {requests : List Request} (fed : Fed (isSchedulable queues gen) g requests g') :
    ∃ requests', Fed gen g requests' g' := by
  induction fed with
  | refl => exact ⟨[], .refl g⟩
  | @more g' g'' requests request isOpen accepted _ made ih =>
    unfold isSchedulable at made
    split at made
    · cases made
      exact ih
    · obtain ⟨⟨g₁, answer⟩, asked, out⟩ := Option.map_eq_some_iff.mp made
      obtain ⟨rfl, _⟩ := Prod.mk.inj out
      obtain ⟨requests', fed'⟩ := ih
      exact ⟨_, .more fed' asked⟩

theorem requestPolicy_feeds (table : Nat → Bool) (queues : List CommandQueue) :
    (requestPolicy table queues).Feeds := by
  intro gen s s' p p' h
  obtain ⟨⟨s₁, p₁, handed⟩, scheduled, out⟩ := Option.map_eq_some_iff.mp h
  obtain ⟨rfl, rfl⟩ := Prod.mk.inj out
  exact fed_isSchedulable (RoundRobin.requestSchedule_fed scheduled)

end RTMem

/-! ### PMC -/

namespace Pmc

variable {gen : Generator} {s : RequestScheduler} {p : PmcState}

theorem slotTurns_fed {turns : Nat} {s' : RequestScheduler} {p' : PmcState} {granted : Grant}
    (h : slotTurns gen turns s p = some (s', p', granted)) :
    ∃ requests, Fed gen s.commandGenerator requests s'.commandGenerator := by
  induction turns generalizing s p with
  | zero =>
    cases h
    exact ⟨[], .refl _⟩
  | succ turns ih =>
    obtain ⟨slot, _, h⟩ := Option.bind_eq_some_iff.mp h
    obtain ⟨size, _, h⟩ := Option.bind_eq_some_iff.mp h
    split at h
    · obtain ⟨⟨found, q⟩, _, h⟩ := Option.bind_eq_some_iff.mp h
      obtain ⟨request, _, h⟩ := Option.bind_eq_some_iff.mp h
      obtain ⟨⟨s₁, accepted⟩, scheduled, h⟩ := Option.bind_eq_some_iff.mp h
      have fed := Fed.isSchedulable (s := s.setQueue 0 q) scheduled
      dsimp only at h
      split at h
      · obtain ⟨q', _, h⟩ := Option.bind_eq_some_iff.mp h
        obtain ⟨length, _, out⟩ := Option.map_eq_some_iff.mp h
        obtain ⟨rfl, _⟩ := Prod.mk.inj out
        exact ⟨_, fed⟩
      · cases h
    · exact ih h

theorem policy_feeds : policy.Feeds := by
  intro gen s s' p p' h
  obtain ⟨⟨s₁, p₁, granted⟩, called, out⟩ := Option.map_eq_some_iff.mp h
  obtain ⟨rfl, rfl⟩ := Prod.mk.inj out
  unfold requestSchedule at called
  generalize (if s.clockCycle = 1 then initialise p else p) = p at called
  unfold slotCall at called
  split at called
  · exact slotTurns_fed called
  · cases called
    exact ⟨[], .refl _⟩

end Pmc

/-! ## Accesses -/

/-- The two commands of an access, an activation and the column access that closes the page. -/
def Access (activation access : BusPacket) : Prop :=
  activation.busPacketType = .ACT ∧ (access.busPacketType = .RDA ∨ access.busPacketType = .WRA) ∧
    activation.postCommand = false ∧ access.postCommand = false ∧ activation.bank = access.bank ∧
    activation.bank < 2 ^ 32 ∧ access.Serves activation

/-- A list of commands that is made of accesses. -/
inductive Accesses : List BusPacket → Prop
  | nil : Accesses []
  | cons {activation access : BusPacket} {rest : List BusPacket} (pair : Access activation access)
      (later : Accesses rest) : Accesses (activation :: access :: rest)

namespace Accesses

theorem append {v w : List BusPacket} (first : Accesses v) (later : Accesses w) : Accesses (v ++ w) := by
  induction first with
  | nil => exact later
  | cons pair _ ih => exact .cons pair ih

theorem flatMap {α : Type} {f : α → List BusPacket} {l : List α} (each : ∀ a ∈ l, Accesses (f a)) :
    Accesses (l.flatMap f) := by
  induction l with
  | nil => exact .nil
  | cons a l ih =>
    rw [List.flatMap_cons]
    exact (each a List.mem_cons_self).append (ih fun b hb => each b (List.mem_cons_of_mem a hb))

/-- What the `CLOSE` generator makes of a request. -/
theorem closeCommands (dataBusSize : Nat) (request : Request) :
    Accesses (closeCommands dataBusSize request) := by
  unfold CommandGenerator.closeCommands
  dsimp only
  refine flatMap fun bi _ => flatMap fun bc _ => .cons ⟨rfl, ?_, rfl, rfl, rfl, ?_, rfl, rfl, rfl, rfl, rfl⟩ .nil
  · show autoCasType request = .RDA ∨ autoCasType request = .WRA
    unfold autoCasType
    cases request.requestType
    · exact .inl rfl
    · exact .inr rfl
  · exact Nat.lt_trans (Nat.mod_lt _ (by decide)) (by decide)

/-- The commands of one bank are accesses by themselves. -/
theorem filter_bank {l : List BusPacket} (made : Accesses l) (bank : Nat) :
    Accesses (l.filter (·.bank == bank)) := by
  induction made with
  | nil => exact .nil
  | @cons activation access rest pair _ ih =>
    have same : activation.bank = access.bank := pair.2.2.2.2.1
    by_cases here : activation.bank = bank
    · rw [List.filter_cons_of_pos (by simpa using here),
        List.filter_cons_of_pos (by simpa using same ▸ here)]
      exact .cons pair ih
    · rw [List.filter_cons_of_neg (by simpa using here),
        List.filter_cons_of_neg (by simpa using same ▸ here)]
      exact ih

theorem stamped {l : List BusPacket} (made : Accesses l) (clockCycle : Nat) :
    Accesses (l.map (stamp clockCycle)) := by
  induction made with
  | nil => exact .nil
  | cons pair _ ih => exact .cons pair ih

/-- They continue a sequence of accesses, and leave none open. -/
theorem accepted {l : List BusPacket} (made : Accesses l) :
    accesses.Accepts none l ∧ accesses.after none l = none := by
  induction made with
  | nil => exact ⟨trivial, rfl⟩
  | @cons activation access rest pair _ ih =>
    obtain ⟨opens, closes, _, _, _, _, serves⟩ := pair
    have first : accesses.ok none activation := by simp [accesses, AccessOk, opens]
    have opened : accesses.next none activation = some activation := by simp [accesses, accessNext, opens]
    have second : accesses.ok (some activation) access := by
      rcases closes with type | type <;> simp [accesses, AccessOk, type, serves]
    have closed : accesses.next (some activation) access = none := by
      rcases closes with type | type <;> simp [accesses, accessNext, type]
    simp only [Lib.Automaton.accepts_cons, Lib.Automaton.after_cons, opened, closed]
    exact ⟨⟨first, second, ih.1⟩, ih.2⟩

/-- A command of an access. -/
theorem mem {l : List BusPacket} (made : Accesses l) {c : BusPacket} (hc : c ∈ l) :
    c.postCommand = false ∧ c.bank < 2 ^ 32 ∧
      (c.busPacketType = .ACT ∨ c.busPacketType = .RDA ∨ c.busPacketType = .WRA) := by
  induction made with
  | nil => cases hc
  | @cons activation access rest pair _ ih =>
    obtain ⟨opens, closes, plain, plain', same, small, _⟩ := pair
    rcases List.mem_cons.mp hc with rfl | hc
    · exact ⟨plain, small, .inl opens⟩
    · rcases List.mem_cons.mp hc with rfl | hc
      · exact ⟨plain', same ▸ small, .inr closes⟩
      · exact ih hc

end Accesses

/-! ## The queues of the banks -/

/-- Every queue holds critical commands of its own bank, and no others. -/
def CommandScheduler.Own (s : CommandScheduler) : Prop :=
  ∀ i, (∀ c ∈ s.waiting i, c.bank = i) ∧ (s.commandQueue i).srtBuffer = []

/-- A command scheduler that sends the fronts of queues, where every queue holds commands of its own
bank. -/
def CommandPolicy.SendsOwn {κ : Type} (policy : CommandPolicy κ) : Prop :=
  ∀ (spec : DeviceSpec) (check : Answers) (s s' : CommandScheduler) (priv priv' : κ)
    (out : Option BusPacket), s.General → 0 < s.queueCount → s.Own →
      policy.commandSchedule spec check s priv = some (s', priv', out) → Sends spec check s s' out

theorem CommandPolicy.SendsFronts.sendsOwn {κ : Type} {policy : CommandPolicy κ}
    (fronts : policy.SendsFronts) : policy.SendsOwn := by
  intro spec check s s' priv priv' out general some_queue _ called
  obtain ⟨s₁, priv₁, out₁, called₁, sends⟩ := fronts spec check s priv general some_queue
  rw [called₁] at called
  obtain ⟨rfl, rfl, rfl⟩ : s₁ = s' ∧ priv₁ = priv' ∧ out₁ = out := by simpa using called
  exact sends

namespace RTMem

variable {s : CommandScheduler}

/-- A candidate is a front that is ready. -/
def Ripe (s : CommandScheduler) (c : BusPacket) : Prop :=
  c.bank < s.queueCount ∧ (s.waiting c.bank).head? = some c ∧ s.isReady c c.bank = true

/-- Without commands that are not critical, a turn looks at the front of its queue and changes nothing. -/
theorem turn_own (general : s.General) (own : s.Own) {index : Nat} {found : Candidates}
    {st : CommandScheduler × Candidates} (h : turn (s, found) index = some st)
    (ripe : ∀ c, found.tempCAS = some c ∨ found.tempACT = some c → Ripe s c) :
    st.1 = s ∧ ∀ c, st.2.tempCAS = some c ∨ st.2.tempACT = some c → Ripe s c := by
  have nothing : s.look index false = (s, none) := by
    unfold CommandScheduler.look CommandQueue.getCommand
    rw [show (s.commandQueue index).general false = [] from (own index).2]
    rfl
  have looked : s.freeFront false index = (s, (s.waiting index).head?) := by
    unfold freeFront
    rw [if_neg Bool.false_ne_true, look_general general]
    cases (s.waiting index).head? with
    | none => exact nothing
    | some c => rfl
  unfold turn at h
  dsimp only at h
  rw [looked] at h
  cases front : (s.waiting index).head? with
  | none =>
    rw [front] at h
    cases h
    exact ⟨rfl, ripe⟩
  | some d =>
    rw [front] at h
    dsimp only at h
    split at h
    · next bound =>
      cases h
      refine ⟨rfl, fun c hc => ?_⟩
      have bank : d.bank = index := (own index).1 d (List.mem_of_mem_head? front)
      unfold compare at hc
      split at hc
      · next ready =>
        have new : Ripe s d := ⟨bound, bank.symm ▸ front, ready⟩
        have kept : ∀ best, keep best d = some c → best = some c ∨ d = c := by
          intro best hk
          unfold keep at hk
          split at hk
          · exact .inr (Option.some.inj hk)
          · split at hk
            · exact .inr (Option.some.inj hk)
            · exact .inl hk
        split at hc
        · rcases hc with hc | hc
          · rcases kept _ hc with old | rfl
            · exact ripe c (.inl old)
            · exact new
          · exact ripe c (.inr hc)
        · rcases hc with hc | hc
          · exact ripe c (.inl hc)
          · rcases kept _ hc with old | rfl
            · exact ripe c (.inr old)
            · exact new
      · exact ripe c hc
    · cases h

theorem scan_own (general : s.General) (own : s.Own) {indices : List Nat} {found : Candidates}
    {st : CommandScheduler × Candidates} (h : indices.foldlM turn (s, found) = some st)
    (ripe : ∀ c, found.tempCAS = some c ∨ found.tempACT = some c → Ripe s c) :
    st.1 = s ∧ ∀ c, st.2.tempCAS = some c ∨ st.2.tempACT = some c → Ripe s c := by
  induction indices generalizing found with
  | nil =>
    cases h
    exact ⟨rfl, ripe⟩
  | cons index rest ih =>
    rw [List.foldlM_cons] at h
    obtain ⟨⟨s₁, found₁⟩, turned, later⟩ := Option.bind_eq_some_iff.mp h
    obtain ⟨same, ripe₁⟩ := turn_own general own turned ripe
    obtain rfl : s₁ = s := same
    exact ih later ripe₁

/-- **With critical commands only, RTMem sends a front that can be issued or nothing.** -/
theorem policy_sendsOwn : policy.SendsOwn := by
  intro spec check s s' _ _ out general some_queue own called
  obtain ⟨⟨s₁, out₁⟩, scheduled, same⟩ := Option.map_eq_some_iff.mp called
  obtain ⟨⟨s₂, found⟩, scanned, chosen⟩ := Option.map_eq_some_iff.mp scheduled
  obtain ⟨rfl, rfl⟩ : s₁ = s' ∧ out₁ = out := by simpa using same
  obtain ⟨rfl, ripe⟩ := scan_own (s := { s with scheduledCommand := none }) general own scanned
    fun c hc => by rcases hc with hc | hc <;> cases hc
  dsimp only at chosen
  split at chosen
  · next c picked =>
    obtain ⟨rfl, rfl⟩ := Prod.mk.inj chosen
    obtain ⟨candidate, issuable⟩ : (found.tempCAS = some c ∨ found.tempACT = some c) ∧
        CommandScheduler.isIssuable { s with scheduledCommand := none } check c = true := by
      rcases Option.or_eq_some_iff.mp picked with cas | ⟨_, act⟩
      · obtain ⟨held, can⟩ := Option.filter_eq_some_iff.mp cas
        exact ⟨.inl held, can⟩
      · obtain ⟨held, can⟩ := Option.filter_eq_some_iff.mp act
        exact ⟨.inr held, can⟩
    obtain ⟨bound, front, ready⟩ := ripe c candidate
    have can : CommandScheduler.candidate { s with scheduledCommand := none } check c.bank = some c :=
      Option.filter_eq_some_iff.mpr ⟨front, by rw [canIssue, ready, issuable]; rfl⟩
    exact (sends_of_candidate (s := { s with scheduledCommand := none }) bound can).of_cleared
  · obtain ⟨rfl, rfl⟩ := Prod.mk.inj chosen
    exact .idle none

end RTMem

namespace CommandScheduler

variable {s s' : CommandScheduler} {spec : DeviceSpec} {check : Answers}

/-- Eight general queues with accesses of their own banks, and no refresh. What was sent to a bank and what
waits for it is a sequence of accesses, each of them whole. -/
structure ClosePage (s : CommandScheduler) : Prop where
  general : s.General
  queues : s.queueCount = 8
  own : s.Own
  plain : ∀ i, ∀ c ∈ s.waiting i, c.postCommand = false ∧
    (c.busPacketType = .ACT ∨ c.busPacketType = .RDA ∨ c.busPacketType = .WRA)
  quiet : s.Quiet
  unposted : s.memoryDevice.postBuffer = []
  whole : ∀ bank, accesses.Accepts none (s.future bank) ∧ accesses.after none (s.future bank) = none

namespace ClosePage

/-- **New accesses** join the queues. -/
theorem receive (close : s.ClosePage) {l : List BusPacket} (made : Accesses l) :
    (s.receive l).ClosePage := by
  refine ⟨close.general.receive l, close.queues, fun i => ⟨fun c hc => ?_, (close.own i).2⟩,
    fun i c hc => ?_, close.quiet, close.unposted, fun bank => ?_⟩
  · rcases List.mem_append.mp hc with hc | hc
    · exact (close.own i).1 c hc
    · simpa using (List.mem_filter.mp hc).2
  · rcases List.mem_append.mp hc with hc | hc
    · exact close.plain i c hc
    · obtain ⟨plain, _, type⟩ := made.mem (List.mem_filter.mp hc).1
      exact ⟨plain, type⟩
  · obtain ⟨legal, leaves⟩ := close.whole bank
    obtain ⟨legal', leaves'⟩ := (made.filter_bank bank).accepted
    rw [future_receive, accesses.accepts_append, accesses.after_append, leaves]
    exact ⟨⟨legal, legal'⟩, leaves'⟩

theorem refresh (close : s.ClosePage) (spec : DeviceSpec) (check : Answers) :
    (s.refresh spec check).ClosePage := by
  obtain ⟨quiet, device⟩ := close.quiet.refresh spec check
  obtain ⟨queues, count⟩ := commandQueue_refresh s spec check
  refine ⟨close.general.refresh spec check, count ▸ close.queues, fun i => ?_,
    fun i => (waiting_refresh s spec check i).symm ▸ close.plain i, quiet, device ▸ close.unposted,
    fun bank => ?_⟩
  · rw [waiting_refresh, queues]
    exact close.own i
  have same : (s.refresh spec check).future bank = s.future bank := by
    unfold future
    rw [device, waiting_refresh]
  rw [same]
  exact close.whole bank

/-- **Sending a front** moves it from the queue to the trace. -/
theorem sends (close : s.ClosePage) {out : Option BusPacket} (sends : Sends spec check s s' out) :
    s'.ClosePage := by
  have quiet := close.quiet.sends sends
  cases sends with
  | idle left =>
    exact ⟨close.general, close.queues, close.own, close.plain, quiet, close.unposted, close.whole⟩
  | @send i c rest bound front can =>
    have bank : c.bank = i := (close.own i).1 c (by simp [front])
    obtain ⟨plain, type⟩ := close.plain i c (by simp [front])
    have command : c.busPacketType ≠ .DATA ∧ c.busPacketType ≠ .PREA := by
      rcases type with type | type | type <;> simp [type]
    have fewer : ∀ j, ∀ x ∈ (s.issue spec c i).waiting j, x ∈ s.waiting j := by
      intro j x hx
      rw [waiting_issue close.general] at hx
      split at hx
      · next here => exact here ▸ List.mem_of_mem_tail hx
      · exact hx
    refine ⟨close.general.issue spec c i, (queueCount_issue s spec c i).trans close.queues,
      fun j => ⟨fun x hx => (close.own j).1 x (fewer j x hx), ?_⟩,
      fun j x hx => close.plain j x (fewer j x hx), quiet, ?_, fun b => ?_⟩
    · have critical : (s.issue spec c i).side j false = s.side j false := by
        rw [Sided.side_issue fun k => (close.general k).1]
        exact if_neg fun h => by
          have last : s.last i = true := (close.general i).2
          rw [last] at h
          cases h.2
      exact critical.trans (close.own j).2
    · rw [memoryDevice_issue, (MemoryDevice.receiveFromBus_unposted plain).2.2.1]
      exact close.unposted
    · have same : (s.issue spec c i).future b = s.future b := by
        unfold future
        rw [memoryDevice_issue, MemoryDevice.receiveFromBus_trace plain command.1,
          waiting_issue close.general, toBank_append]
        by_cases here : b = i
        · subst here
          simp [toBank, bank, front]
        · have other : (c.bank == b) = false := by simpa [bank] using fun h => here h.symm
          simp [toBank, other, command.2, here]
      rw [same]
      exact close.whole b

theorem tick (close : s.ClosePage) : s.tick.ClosePage := by
  refine ⟨close.general.tick, close.queues, fun i => ?_,
    fun i => (waiting_tick close.general i).symm ▸ close.plain i, close.quiet.tick, close.unposted,
    fun bank => ?_⟩
  · rw [waiting_tick close.general, commandQueue_tick close.general]
    exact close.own i
  · rw [future_tick close.general]
    exact close.whole bank

end ClosePage
end CommandScheduler

/-- A device without posted commands keeps its trace over an update. -/
theorem MemoryDevice.update_trace (spec : DeviceSpec) {d : MemoryDevice} (unposted : d.postBuffer = []) :
    (d.update spec).1.commandTrace = d.commandTrace ∧ (d.update spec).1.postBuffer = [] := by
  have reads : d.updateReads.1.commandTrace = d.commandTrace ∧
      d.updateReads.1.postBuffer = d.postBuffer := by
    unfold updateReads
    split
    · exact ⟨rfl, rfl⟩
    · dsimp only
      split <;> exact ⟨rfl, rfl⟩
  have posted : d.updateReads.1.updatePosted spec = d.updateReads.1 := by
    unfold updatePosted
    rw [reads.2, unposted]
  simp only [MemoryDevice.update, posted]
  exact ⟨reads.1, reads.2.trans unposted⟩

/-! ## A cycle -/

/-- What the set-ups with closed pages are made of. -/
structure Components.ClosePage {ρ κ : Type} (parts : Components ρ κ) : Prop where
  requests : parts.requestScheduler.Feeds
  generator : parts.commandGenerator = closeGenerator
  commands : parts.commandScheduler.SendsOwn

/-- A command goes to the queue of its bank, where there is one. -/
theorem Setup.PerBank.commandIndex_bank {setup : Setup} (perBank : setup.PerBank) {c : BusPacket}
    (bank : c.bank < 2 ^ 32) : MemoryController.commandIndex setup c = c.bank := by
  rw [MemoryController.commandIndex, decodeQueue, perBank.cmdMap, findIdx_bank_marked]
  simp only [List.range_succ, List.range_zero, List.nil_append, List.cons_append, List.foldl_cons,
    List.foldl_nil, AddressMap.get, Nat.lt_irrefl, if_false, Nat.zero_mul, Nat.add_zero]
  exact Nat.mod_eq_of_lt bank

namespace MemoryController

variable {ρ κ : Type} {setup : Setup} {parts : Components ρ κ} {c c' : MemoryController ρ κ}

/-- Commands that were all enqueued are for banks with a queue. -/
theorem bank_of_enqueued (perBank : setup.PerBank) (queues : c.commandScheduler.queueCount = 8)
    {l : List BusPacket} (banks : ∀ x ∈ l, x.bank < 2 ^ 32)
    (looped : l.foldlM (enqueueCommand setup) c = some c') : ∀ x ∈ l, x.bank < 8 := by
  induction l generalizing c with
  | nil => exact fun x hx => absurd hx List.not_mem_nil
  | cons cmd l ih =>
    rw [List.foldlM_cons] at looped
    obtain ⟨c₁, inserted, looped⟩ := Option.bind_eq_some_iff.mp looped
    unfold enqueueCommand at inserted
    dsimp only at inserted
    rw [perBank.commandIndex_bank (banks cmd List.mem_cons_self), queues] at inserted
    split at inserted
    · next here =>
      obtain rfl := Option.some.inj inserted
      intro x hx
      rcases List.mem_cons.mp hx with rfl | hx
      · exact here
      · exact ih (c := { c with
          stats := trackCommand c.stats cmd
          commandScheduler := c.commandScheduler.insertCommand cmd.bank
            { cmd with arriveTime := c.clockCycle % 2 ^ 32 }
            (setup.requestorCriticalTable cmd.requestorID) }) queues
          (fun x hx => banks x (List.mem_cons_of_mem cmd hx)) looped x hx
    · cases inserted

/-- The first half of a cycle, with what the request scheduler put into the generator's buffer. -/
theorem prepare_eq (perBank : setup.PerBank) (generator : parts.commandGenerator = closeGenerator)
    (emptied : c.requestScheduler.commandGenerator.commandBuffer = [])
    (general : c.commandScheduler.General) (queues : c.commandScheduler.queueCount = 8)
    {rs : RequestScheduler} {priv : ρ} {new : List BusPacket}
    (scheduled : parts.requestScheduler.requestSchedule closeGenerator c.requestScheduler
      c.requestPrivate = some (rs, priv))
    (fed : rs.commandGenerator = { c.requestScheduler.commandGenerator with commandBuffer := new })
    (banks : ∀ x ∈ new, x.bank < 8) (refreshCheck : Answers) :
    c.prepare setup parts refreshCheck = some { c with
      requestScheduler := { rs with commandGenerator := c.requestScheduler.commandGenerator }
      requestPrivate := priv, stats := new.foldl trackCommand c.stats
      commandScheduler := (c.commandScheduler.receive (new.map (stamp c.clockCycle))).refresh
        setup.device refreshCheck } := by
  have sorted := foldlM_enqueueCommand perBank new
    (c := { c with requestScheduler := rs, requestPrivate := priv }) general queues banks
  have cleared : ({ rs.commandGenerator with commandBuffer := [] } : CommandGenerator) =
      c.requestScheduler.commandGenerator := by rw [fed, ← emptied]
  have enqueued : enqueueAll setup { c with requestScheduler := rs, requestPrivate := priv } =
      some { c with
        requestScheduler := { rs with commandGenerator := c.requestScheduler.commandGenerator }
        requestPrivate := priv, stats := new.foldl trackCommand c.stats
        commandScheduler := c.commandScheduler.receive (new.map (stamp c.clockCycle)) } := by
    have listed : rs.commandGenerator.commandBuffer = new := by rw [fed]
    unfold enqueueAll
    dsimp only
    rw [listed, sorted, Option.map_some, ← cleared]
    rfl
  rw [prepare, generator, scheduled, Option.bind_some]
  dsimp only
  rw [enqueued]
  rfl

/-- **The first half of a cycle**: new accesses join the queues of their banks, and the refresh machine has
its turn. -/
theorem prepare_close (perBank : setup.PerBank) (close : parts.ClosePage)
    (emptied : c.requestScheduler.commandGenerator.commandBuffer = [])
    (queues : c.commandScheduler.ClosePage) {refreshCheck : Answers}
    (prepared : c.prepare setup parts refreshCheck = some c') :
    ∃ rs priv new, parts.requestScheduler.requestSchedule closeGenerator c.requestScheduler
        c.requestPrivate = some (rs, priv) ∧
      rs.commandGenerator = { c.requestScheduler.commandGenerator with commandBuffer := new } ∧
      Accesses new ∧ (∀ x ∈ new, x.bank < 8) ∧
      c' = { c with
        requestScheduler := { rs with commandGenerator := c.requestScheduler.commandGenerator }
        requestPrivate := priv, stats := new.foldl trackCommand c.stats
        commandScheduler := (c.commandScheduler.receive (new.map (stamp c.clockCycle))).refresh
          setup.device refreshCheck } := by
  obtain ⟨⟨rs, priv⟩, scheduled, enqueued⟩ := Option.bind_eq_some_iff.mp prepared
  rw [close.generator] at scheduled
  obtain ⟨requests, handed⟩ := close.requests _ _ _ _ _ scheduled
  have fed := handed.close
  rw [emptied, List.nil_append] at fed
  have made : Accesses (requests.flatMap
      (closeCommands c.requestScheduler.commandGenerator.dataBusSize)) :=
    Accesses.flatMap fun r _ => Accesses.closeCommands _ r
  generalize requests.flatMap (closeCommands c.requestScheduler.commandGenerator.dataBusSize) = new
    at fed made
  have banks : ∀ x ∈ new, x.bank < 8 := by
    obtain ⟨c₁, enqueued, _⟩ := Option.map_eq_some_iff.mp enqueued
    obtain ⟨c₂, looped, _⟩ := Option.map_eq_some_iff.mp enqueued
    dsimp only at looped
    rw [fed] at looped
    exact bank_of_enqueued (c := { c with requestScheduler := rs, requestPrivate := priv }) perBank
      queues.queues (fun x hx => (made.mem hx).2.1) looped
  refine ⟨rs, priv, new, scheduled, fed, made, banks, ?_⟩
  rw [prepare_eq perBank close.generator emptied queues.general queues.queues scheduled fed banks] at prepared
  exact (Option.some.inj prepared).symm

/-- What runs with closed pages keep. -/
structure Closed (c : MemoryController ρ κ) : Prop where
  emptied : c.requestScheduler.commandGenerator.commandBuffer = []
  queues : c.commandScheduler.ClosePage
  writes : ∀ p ∈ c.sendDataBuffer, p.busPacketType = .DATA ∧ p.postCommand = false

theorem closed_create (perBank : setup.PerBank) (noRefresh : setup.refresh_mechanism = .none)
    (parts : Components ρ κ) (refreshCounting bank_release : Nat) :
    (create setup parts refreshCounting bank_release).Closed where
  emptied := rfl
  queues := {
    general := fun _ => ⟨perBank.requestorCmdQ, rfl⟩
    queues := perBank.queueNumber_cmdMap
    own := fun _ => ⟨fun _ hc => absurd hc List.not_mem_nil, rfl⟩
    plain := fun _ _ hc => absurd hc List.not_mem_nil
    quiet := ⟨noRefresh, rfl⟩
    unposted := rfl
    whole := fun _ => ⟨trivial, rfl⟩ }
  writes _ hp := absurd hp List.not_mem_nil

/-- **A cycle keeps the sequences of accesses.** -/
theorem Closed.update (perBank : setup.PerBank) (close : parts.ClosePage) (closed : c.Closed)
    {refreshCheck check : Answers} (updated : c.update setup parts refreshCheck check = some c') :
    c'.Closed := by
  rw [update_eq] at updated
  obtain ⟨c₁, prepared, updated⟩ := Option.bind_eq_some_iff.mp updated
  obtain ⟨⟨c₂, out⟩, scheduled, rfl⟩ := Option.map_eq_some_iff.mp updated
  obtain ⟨rs, priv, new, _, _, made, _, rfl⟩ := prepare_close perBank close closed.emptied closed.queues
    prepared
  obtain ⟨⟨cs, priv', out'⟩, called, same⟩ := Option.map_eq_some_iff.mp scheduled
  obtain ⟨rfl, rfl⟩ := Prod.mk.inj same
  have received := (closed.queues.receive (made.stamped c.clockCycle)).refresh setup.device refreshCheck
  have sends := close.commands _ _ _ _ _ _ _ received.general (by rw [received.queues]; decide)
    received.own called
  obtain ⟨resized, ticked, writes⟩ := endCycle_frame setup (c := { c with
    requestScheduler := { rs with commandGenerator := c.requestScheduler.commandGenerator }
    requestPrivate := priv, stats := new.foldl trackCommand c.stats
    commandScheduler := cs, commandPrivate := priv' }) out' closed.writes
  refine ⟨?_, ?_, writes⟩
  · rw [resized.generator]
    exact closed.emptied
  · rw [ticked]
    exact (received.sends sends).tick

theorem Closed.addRequest (closed : c.Closed) {requestorID address size : Nat} {R_W : Bool}
    (added : c.addRequest setup requestorID address R_W size = some c') : c'.Closed := by
  unfold MemoryController.addRequest at added
  dsimp only at added
  split at added
  · cases added
    exact ⟨closed.emptied, closed.queues, closed.writes⟩
  · cases added

/-- The device's update hands read data to the controller, and that is all it changes there. -/
theorem Closed.deviceUpdate (closed : c.Closed) : (MemorySystem.deviceUpdate setup c).Closed := by
  obtain ⟨trace, unposted⟩ := MemoryDevice.update_trace setup.device closed.queues.unposted
  have queues : ({ c.commandScheduler with
      memoryDevice := (c.commandScheduler.memoryDevice.update setup.device).1 } :
        CommandScheduler).ClosePage := by
    obtain ⟨general, count, own, plain, quiet, _, whole⟩ := closed.queues
    refine ⟨general, count, own, plain, quiet, unposted, fun bank => ?_⟩
    have same : CommandScheduler.future { c.commandScheduler with
        memoryDevice := (c.commandScheduler.memoryDevice.update setup.device).1 } bank =
          c.commandScheduler.future bank := by
      unfold CommandScheduler.future
      rw [trace]
      rfl
    rw [same]
    exact whole bank
  unfold MemorySystem.deviceUpdate
  dsimp only
  split
  · exact ⟨closed.emptied, queues, closed.writes⟩
  · unfold receiveData
    obtain ⟨resized, commands, buffer, _⟩ := deliver_frame setup true
      { c with
        commandScheduler := { c.commandScheduler with
          memoryDevice := (c.commandScheduler.memoryDevice.update setup.device).1 }
        stats := { c.stats with readBytes := c.stats.readBytes + setup.dataBusWidth } } _
    refine ⟨?_, ?_, ?_⟩
    · rw [resized.generator]
      exact closed.emptied
    · rw [commands]
      exact queues
    · rw [buffer]
      exact closed.writes

end MemoryController

/-! ## Runs -/

namespace MemorySystem

open MemoryController

variable {ρ κ : Type} {setup : Setup}

/-- One event at a memory system whose schedulers may look into the controller. -/
def stepWith (setup : Setup) (parts : MemoryController ρ κ → Components ρ κ) :
    Lib.Machine.Step (MemoryController ρ κ) Event Unit := fun c e => step setup (parts c) c e

/-- **Accesses are isolated on closed pages.** With one command queue for each of eight banks, the `CLOSE`
generator and no refresh: in every run, whatever the requests, their sizes, the choices of the schedulers
and the answers of the device, each bank is sent a sequence of activations, each followed by the
auto-precharging access of the same request, row, requestor and address. So every command is legal for the
bank's row buffer, and no access finds a row that another one opened. -/
theorem closePage_isolated (perBank : setup.PerBank) (noRefresh : setup.refresh_mechanism = .none)
    {parts : MemoryController ρ κ → Components ρ κ} (close : ∀ c, (parts c).ClosePage)
    (initial : Components ρ κ) (refreshCounting bank_release : Nat) {events : List Event}
    {c : MemoryController ρ κ} {os : List Unit}
    (ran : Lib.Machine.run (stepWith setup parts) (create setup initial refreshCounting bank_release)
      events = some (c, os)) (bank : Nat) :
    Isolated c.commandScheduler.memoryDevice.commandTrace bank ∧
      BankLegal c.commandScheduler.memoryDevice.commandTrace bank := by
  have closed : c.Closed := by
    refine Lib.Machine.run_invariant Closed (fun {c e c' o} closed stepped => ?_)
      (closed_create perBank noRefresh initial refreshCounting bank_release) ran
    cases e with
    | addRequest requestorID address R_W size =>
      obtain ⟨c₁, added, out⟩ := Option.map_eq_some_iff.mp stepped
      obtain ⟨rfl, _⟩ := Prod.mk.inj out
      exact closed.addRequest added
    | update refreshCheck check =>
      obtain ⟨c₁, updated, out⟩ := Option.map_eq_some_iff.mp stepped
      obtain ⟨rfl, _⟩ := Prod.mk.inj out
      obtain ⟨c₂, cycled, rfl⟩ := Option.map_eq_some_iff.mp updated
      exact (closed.update perBank (close c) cycled).deviceUpdate
  have isolated : Isolated c.commandScheduler.memoryDevice.commandTrace bank :=
    ((accesses.accepts_append ..).mp (closed.queues.whole bank).1).1
  exact ⟨isolated, isolated.bankLegal⟩

end MemorySystem

/-- The set-up of `AMC.ini`. -/
theorem amcIni_closePage : amcIni.ClosePage :=
  ⟨RoundRobin.policy_feeds _, rfl, Fcfs.policy_sendsFronts.sendsOwn⟩

/-- The set-up of `PMC.ini`. -/
theorem pmcIni_closePage : pmcIni.ClosePage :=
  ⟨Pmc.policy_feeds, rfl, Fcfs.policy_sendsFronts.sendsOwn⟩

/-- The set-up of `RTMem.ini`. -/
theorem rtmemIni_closePage (table : Nat → Bool) (c : MemoryController RoundRobinState Unit) :
    (rtmemIni table c).ClosePage :=
  ⟨RTMem.requestPolicy_feeds table _, rfl, RTMem.policy_sendsOwn⟩

namespace MemorySystem

open MemoryController

/-- The law in the set-up of `RTMem.ini`, at a read that is spread over two banks and a write of one of
them. -/
theorem closePage_isolated_rtmemIni :
    ∃ c os, Lib.Machine.run (stepWith closePageSetup (rtmemIni fun _ => true))
        (create closePageSetup amcIni 0 0) ([.addRequest 1 0 true 128, .addRequest 2 64 false 64] ++
          List.replicate 60 (.update (fun _ => true) fun _ => true)) = some (c, os) ∧
      c.commandScheduler.memoryDevice.commandTrace.length = 6 ∧
      Isolated c.commandScheduler.memoryDevice.commandTrace 2 ∧
        BankLegal c.commandScheduler.memoryDevice.commandTrace 2 := by
  obtain ⟨c, os, ran, length⟩ := Lib.Machine.run_exists
    (stepWith closePageSetup (rtmemIni fun _ => true))
    (fun c => c.commandScheduler.memoryDevice.commandTrace.length = 6) (create closePageSetup amcIni 0 0)
    ([.addRequest 1 0 true 128, .addRequest 2 64 false 64] ++
      List.replicate 60 (.update (fun _ => true) fun _ => true)) (by decide +kernel)
  exact ⟨c, os, ran, length, closePage_isolated
    ⟨by decide, rfl, rfl, rfl, rfl, rfl, rfl, fun _ => rfl⟩ rfl (rtmemIni_closePage fun _ => true) amcIni 0 0
    ran 2⟩

end MemorySystem
end MCsim
