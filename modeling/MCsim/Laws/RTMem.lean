import MCsim.Laws.Oldest
import MCsim.Laws.Removal
import MCsim.Lib.Champion
import MCsim.Schedulers.RTMem

/-!
# The RTMem command scheduler

Every call looks at one front of each queue, and what it sends is one of them. So the side of a queue that
was looked at last, which `removeCommand` goes by, is the side of what is sent: nothing else is removed,
and each criticality of each bank is served first come, first served. The command sent is the first of the
oldest column accesses whose timers are over, if the device takes it, or else the first of the oldest
other commands. A younger one is not tried in the place of either (`rtmem_serves`).
-/

namespace MCsim
namespace RTMem

open CommandScheduler Lib.Champion

/-! ## What a call chooses -/

/-- The front that is looked at: the critical one where there is one. -/
def front (s : CommandScheduler) (index : Nat) : Option BusPacket :=
  (s.side index true).head?.or (s.side index false).head?

/-- A front whose timers are over, as a column access or as another command. -/
def Ready (s : CommandScheduler) (isCas : Bool) (index : Nat) (c : BusPacket) : Prop :=
  index < s.queueCount ∧ front s index = some c ∧ s.isReady c index = true ∧
    c.busPacketType.beforeACT = isCas

/-- The first of the oldest ready fronts of a kind. -/
def Oldest (s : CommandScheduler) (isCas : Bool) (index : Nat) (c : BusPacket) : Prop :=
  Ready s isCas index c ∧ ∀ j d, Ready s isCas j d →
    c.arriveTime < d.arriveTime ∨ c.arriveTime = d.arriveTime ∧ index ≤ j

/-- What a call sends: the oldest column access if the device takes it, or else the oldest other
command if the device takes that. -/
inductive Chooses (s : CommandScheduler) (check : Answers) : Option (BusPacket × Nat) → Prop
  | cas {c : BusPacket} {index : Nat} (oldest : Oldest s true index c)
      (takes : s.isIssuable check c = true) : Chooses s check (some (c, index))
  | row {c : BusPacket} {index : Nat} (oldest : Oldest s false index c)
      (takes : s.isIssuable check c = true)
      (refused : ∀ j d, Oldest s true j d → s.isIssuable check d = false) :
      Chooses s check (some (c, index))
  | nothing (refused : ∀ isCas j d, Oldest s isCas j d → s.isIssuable check d = false) :
      Chooses s check none

/-! ## The scan -/

variable {s s' : CommandScheduler} {check : Answers} {n : Nat}

/-- Every queue holds commands of its own bank. -/
def Banked (s : CommandScheduler) : Prop := ∀ i k, ∀ c ∈ s.side i k, c.bank = i

theorem front_mem {i : Nat} {c : BusPacket} (h : front s i = some c) :
    ∃ k, (s.side i k).head? = some c ∧ (k = false → s.side i true = []) := by
  rcases Option.or_eq_some_iff.mp h with critical | ⟨none, other⟩
  · exact ⟨true, critical, fun impossible => by cases impossible⟩
  · exact ⟨false, other, fun _ => List.head?_eq_none_iff.mp none⟩

theorem Banked.front (banked : Banked s) {i : Nat} {c : BusPacket} (h : front s i = some c) :
    c.bank = i := by
  obtain ⟨k, head, _⟩ := front_mem h
  exact banked i k c (List.mem_of_mem_head? head)

/-- The ready fronts of a kind, of the queues below an index. -/
def readyBelow (s : CommandScheduler) (isCas : Bool) (n : Nat) : List BusPacket :=
  (List.range n).filterMap fun i => (front s i).filter fun c =>
    s.isReady c i && c.busPacketType.beforeACT == isCas

theorem readyBelow_succ (s : CommandScheduler) (isCas : Bool) (n : Nat) :
    readyBelow s isCas (n + 1) = readyBelow s isCas n ++ ((front s n).filter fun c =>
      s.isReady c n && c.busPacketType.beforeACT == isCas).toList := by
  rw [readyBelow, List.range_succ, List.filterMap_append]
  congr 1

/-- The queues below an index were looked at, each on the side of its front. -/
structure Turned (s s' : CommandScheduler) (n : Nat) (found : Candidates) : Prop where
  alike : Alike s s'
  noted : ∀ i < n, ∀ c, front s i = some c →
    (s.side i (s'.last i)).head? = some c ∧ (s'.last i = false → s.side i true = [])
  cas : found.tempCAS = winner BusPacket.arriveTime (readyBelow s true n)
  act : found.tempACT = winner BusPacket.arriveTime (readyBelow s false n)

theorem keep_eq (best : Option BusPacket) (c : BusPacket) :
    keep best c = contest BusPacket.arriveTime best c := by
  cases best <;> rfl

/-- Looking at a queue finds its front, and notes its side. -/
theorem freeFront_front {i : Nat} {found : Option BusPacket}
    (h : s.freeFront false i = (s', found)) :
    Looked s s' i ∧ found = front s i ∧ ∀ c, found = some c →
      (s.side i (s'.last i)).head? = some c ∧ (s'.last i = false → s.side i true = []) := by
  unfold freeFront at h
  rw [if_neg Bool.false_ne_true] at h
  cases first : s.look i true with
  | mk s₁ critical =>
    rw [first] at h
    obtain ⟨looked, head, unchanged, noted⟩ := look_cases first
    cases critical with
    | some c =>
      obtain ⟨rfl, rfl⟩ := Prod.mk.inj h
      refine ⟨looked, by rw [front, ← head]; rfl, ?_⟩
      rintro d ⟨⟩
      rw [noted rfl]
      exact ⟨head.symm, fun impossible => by cases impossible⟩
    | none =>
      obtain rfl := unchanged rfl
      obtain ⟨looked, other, _, noted⟩ := look_cases h
      refine ⟨looked, by rw [front, ← head, other]; rfl, ?_⟩
      rintro d rfl
      rw [noted rfl]
      exact ⟨other.symm, fun _ => List.head?_eq_none_iff.mp head.symm⟩

theorem front_alike (alike : Alike s s') (i : Nat) : front s' i = front s i := by
  rw [front, front, alike.side, alike.side]

/-- Comparing the front of a queue carries the candidates on. -/
theorem compare_next {found : Candidates} {c : BusPacket} (alike : Alike s s') (there : front s n = some c)
    (bank : c.bank = n)
    (cas : found.tempCAS = winner BusPacket.arriveTime (readyBelow s true n))
    (act : found.tempACT = winner BusPacket.arriveTime (readyBelow s false n)) :
    (compare s' found c).tempCAS = winner BusPacket.arriveTime (readyBelow s true (n + 1)) ∧
      (compare s' found c).tempACT = winner BusPacket.arriveTime (readyBelow s false (n + 1)) := by
  rw [readyBelow_succ, readyBelow_succ, there, compare, alike.isReady, bank]
  cases ready : s.isReady c n with
  | false => simp [Option.filter, ready, cas, act]
  | true =>
    cases kind : c.busPacketType.beforeACT with
    | true => simp [Option.filter, ready, kind, cas, act, keep_eq, winner_concat]
    | false => simp [Option.filter, ready, kind, cas, act, keep_eq, winner_concat]

/-- One turn. -/
theorem Turned.turn (banked : Banked s) {found : Candidates} (turned : Turned s s' n found)
    (bound : n < s.queueCount) :
    ∃ s'' found', turn (s', found) n = some (s'', found') ∧ Turned s s'' (n + 1) found' := by
  obtain ⟨alike, noted, cas, act⟩ := turned
  cases looks : s'.freeFront false n with
  | mk s'' checkCommand =>
    obtain ⟨looked, head, sides⟩ := freeFront_front looks
    rw [front_alike alike] at head
    have alike' := alike.trans looked.alike
    have earlier : ∀ i < n, ∀ c, front s i = some c →
        (s.side i (s''.last i)).head? = some c ∧ (s''.last i = false → s.side i true = []) := by
      intro i hi c there
      rw [looked.last (by omega)]
      exact noted i hi c there
    cases checkCommand with
    | none =>
      refine ⟨s'', found, by rw [RTMem.turn, looks], alike', fun i hi c there => ?_, ?_, ?_⟩
      · rcases Nat.lt_succ_iff_lt_or_eq.mp hi with below | rfl
        · exact earlier i below c there
        · rw [← head] at there
          cases there
      · rw [readyBelow_succ, ← head, cas]
        simp
      · rw [readyBelow_succ, ← head, act]
        simp
    | some c =>
      have bank := banked.front head.symm
      have inside : c.bank < s''.queueCount := by
        rw [bank, alike'.queueCount]
        exact bound
      obtain ⟨cas', act'⟩ := compare_next alike' head.symm bank cas act
      refine ⟨s'', compare s'' found c, ?_, alike', fun i hi d there => ?_, cas', act'⟩
      · rw [RTMem.turn, looks]
        exact if_pos inside
      · rcases Nat.lt_succ_iff_lt_or_eq.mp hi with below | rfl
        · exact earlier i below d there
        · obtain rfl := Option.some.inj (head.trans there)
          have noticed := sides c rfl
          rw [alike.side, alike.side] at noticed
          exact noticed

/-- The whole scan. -/
theorem scan_turned (banked : Banked s) :
    ∃ s' found, (List.range s.queueCount).foldlM turn ({ s with scheduledCommand := none }, {}) =
      some (s', found) ∧ Turned s s' s.queueCount found := by
  have upTo : ∀ n ≤ s.queueCount, ∃ s' found,
      (List.range n).foldlM turn ({ s with scheduledCommand := none }, {}) = some (s', found) ∧
        Turned s s' n found := by
    intro n
    induction n with
    | zero =>
      intro _
      exact ⟨_, {}, rfl, Alike.refl s none, fun i hi => absurd hi (Nat.not_lt_zero i), rfl, rfl⟩
    | succ n ih =>
      intro bound
      obtain ⟨s', found, folded, turned⟩ := ih (by omega)
      obtain ⟨s'', found', stepped, turned'⟩ := turned.turn banked bound
      refine ⟨s'', found', ?_, turned'⟩
      rw [List.range_succ, List.foldlM_append, folded]
      simpa using stepped
  exact upTo s.queueCount (Nat.le_refl _)

theorem mem_readyBelow (banked : Banked s) {isCas : Bool} {c : BusPacket} :
    c ∈ readyBelow s isCas s.queueCount ↔ Ready s isCas c.bank c := by
  constructor
  · intro h
    obtain ⟨i, bound, filtered⟩ := List.mem_filterMap.mp h
    obtain ⟨there, can⟩ := Option.filter_eq_some_iff.mp filtered
    rw [banked.front there]
    simp only [Bool.and_eq_true, beq_iff_eq] at can
    exact ⟨List.mem_range.mp bound, there, can.1, can.2⟩
  · rintro ⟨bound, there, ready, kind⟩
    refine List.mem_filterMap.mpr ⟨c.bank, List.mem_range.mpr bound, ?_⟩
    rw [there]
    exact Option.filter_eq_some_iff.mpr ⟨rfl, by simp [ready, kind]⟩

/-- The ready fronts stand in the order of their queues. -/
theorem readyBelow_sorted (banked : Banked s) (isCas : Bool) (n : Nat) :
    (readyBelow s isCas n).Pairwise fun c d => c.bank < d.bank := by
  refine List.Pairwise.filterMap _ (fun i j below c hc d hd => ?_) List.pairwise_lt_range
  rw [banked.front (Option.filter_eq_some_iff.mp hc).1, banked.front (Option.filter_eq_some_iff.mp hd).1]
  exact below

/-- The winner is the oldest of its kind, in the queue of its bank. -/
theorem oldest_of_winner (banked : Banked s) {isCas : Bool} {c : BusPacket}
    (h : winner BusPacket.arriveTime (readyBelow s isCas s.queueCount) = some c) :
    Oldest s isCas c.bank c := by
  obtain ⟨i, here, least, before⟩ := (winner_first _).2 c h
  refine ⟨(mem_readyBelow banked).mp (List.mem_of_getElem? here), fun j d ready => ?_⟩
  have bank : d.bank = j := banked.front ready.2.1
  subst bank
  have there := (mem_readyBelow banked).mpr ready
  rcases Nat.lt_or_eq_of_le (least d there) with older | same
  · exact .inl older
  · -- one that arrived at the same time stands at the same place or later
    obtain ⟨p, inside, at_⟩ := List.mem_iff_getElem.mp there
    obtain ⟨inside', at_'⟩ := List.getElem?_eq_some_iff.mp here
    refine .inr ⟨same, ?_⟩
    rcases Nat.lt_trichotomy p i with earlier | rfl | later
    · have strictly := before p earlier d (by rw [List.getElem?_eq_getElem inside, at_])
      omega
    · rw [← at_, ← at_']
    · have sorted := List.pairwise_iff_getElem.mp (readyBelow_sorted banked isCas s.queueCount) i p inside'
        inside later
      rw [at_, at_'] at sorted
      exact Nat.le_of_lt sorted

/-- There is an oldest one only where there is a winner, and it is the winner. -/
theorem winner_of_oldest (banked : Banked s) {isCas : Bool} {i : Nat} {c : BusPacket}
    (oldest : Oldest s isCas i c) :
    winner BusPacket.arriveTime (readyBelow s isCas s.queueCount) = some c := by
  have bank : c.bank = i := banked.front oldest.1.2.1
  subst bank
  have there := (mem_readyBelow banked).mpr oldest.1
  cases won : winner BusPacket.arriveTime (readyBelow s isCas s.queueCount) with
  | none =>
    rw [(winner_first _).1.mp won] at there
    cases there
  | some d =>
    have other := oldest_of_winner banked won
    have same : c.bank = d.bank := by
      have forth := oldest.2 d.bank d other.1
      have back := other.2 c.bank c oldest.1
      omega
    rw [← same] at other
    exact other.1.2.1.symm.trans oldest.1.2.1

/-! ## A call -/

variable {table : Nat → Bool} {spec : DeviceSpec}

/-- What runs keep: commands wait in the queue of their bank, on the side of their requestor. -/
structure Inv (table : Nat → Bool) (s : CommandScheduler) : Prop where
  sided : s.Sided
  sorted : ∀ i critical, ∀ c ∈ s.side i critical, table c.requestorID = critical
  banked : Banked s

theorem inv_create (table : Nat → Bool) (queueCount : Nat) (m : RefreshMachine) :
    Inv table (create queueCount false m) where
  sided := sided_create queueCount m
  sorted i critical c hc := by
    rw [side_create] at hc
    cases hc
  banked i critical c hc := by
    rw [side_create] at hc
    cases hc

/-- Fewer commands wait as they did. -/
theorem Inv.mono (inv : Inv table s) (sided : s'.Sided)
    (fewer : ∀ i k, ∀ c ∈ s'.side i k, c ∈ s.side i k) : Inv table s' :=
  ⟨sided, fun i k c hc => inv.sorted i k c (fewer i k c hc), fun i k c hc => inv.banked i k c (fewer i k c hc)⟩

/-- **Sending a front** takes it from the side of its requestor, and takes nothing else. -/
theorem Turned.removes (spec : DeviceSpec) (inv : Inv table s) {found : Candidates}
    (turned : Turned s s' s.queueCount found) {c : BusPacket} (bound : c.bank < s.queueCount)
    (there : front s c.bank = some c) :
    Inv table (s'.issue spec c c.bank) ∧
      Dcmc.Removes spec table s (s'.issue spec c c.bank) (some (c, c.bank)) := by
  obtain ⟨head, _⟩ := turned.noted c.bank bound c there
  have own := inv.sorted c.bank (s'.last c.bank) c (List.mem_of_mem_head? head)
  have sides : ∀ i k, (s'.issue spec c c.bank).side i k =
      if i = c.bank ∧ k = s'.last c.bank then (s.side i k).tail else s.side i k := by
    intro i k
    rw [(turned.alike.sided inv.sided).side_issue, turned.alike.side]
  refine ⟨inv.mono ((turned.alike.sided inv.sided).issue spec c c.bank) fun i k d hd => ?_,
    fun i k => ?_, ?_⟩
  · rw [sides] at hd
    split at hd
    · exact List.mem_of_mem_tail hd
    · exact hd
  · rw [sides, Option.toList_some, ofSide_singleton, own]
    split
    · next here =>
      obtain ⟨rfl, rfl⟩ := here
      obtain ⟨rest, cons⟩ := List.head?_eq_some_iff.mp head
      rw [cons]
      rfl
    · rfl
  · rw [memoryDevice_issue, turned.alike.same]
    rfl

/-- **A call** can always be made, removes what it sends, and chooses as it should. -/
theorem Inv.call (inv : Inv table s) (spec : DeviceSpec) (check : Answers) :
    ∃ s' sent, schedule spec check s () = some (s', (), sent) ∧ Inv table s' ∧
      Dcmc.Removes spec table s s' sent ∧ Chooses s check sent := by
  obtain ⟨s₁, found, folded, turned⟩ := scan_turned inv.banked
  have scheduled : schedule spec check s () = some
      (((found.tempCAS.filter (s₁.isIssuable check)).or
          (found.tempACT.filter (s₁.isIssuable check))).elim (s₁, (), none) fun c =>
        (s₁.issue spec c c.bank, (), some (c, c.bank))) := by
    rw [schedule, commandSchedule, folded]
    dsimp only [Option.map_some]
    cases (found.tempCAS.filter (s₁.isIssuable check)).or
        (found.tempACT.filter (s₁.isIssuable check)) <;> rfl
  have takes : s₁.isIssuable check = s.isIssuable check := funext (turned.alike.isIssuable check)
  rw [takes] at scheduled
  have oldest : ∀ isCas c, winner BusPacket.arriveTime (readyBelow s isCas s.queueCount) = some c →
      Oldest s isCas c.bank c := fun _ _ => oldest_of_winner inv.banked
  have only : ∀ isCas j d, Oldest s isCas j d →
      winner BusPacket.arriveTime (readyBelow s isCas s.queueCount) = some d :=
    fun _ _ _ => winner_of_oldest inv.banked
  -- the oldest column access, where the device refuses it
  have refusedCas : found.tempCAS.filter (s.isIssuable check) = none →
      ∀ j d, Oldest s true j d → s.isIssuable check d = false := by
    intro none j d older
    rw [turned.cas, only true j d older] at none
    simpa [Option.filter] using none
  have refusedAct : found.tempACT.filter (s.isIssuable check) = none →
      ∀ j d, Oldest s false j d → s.isIssuable check d = false := by
    intro none j d older
    rw [turned.act, only false j d older] at none
    simpa [Option.filter] using none
  cases cas : found.tempCAS.filter (s.isIssuable check) with
  | some c =>
    obtain ⟨won, issuable⟩ := Option.filter_eq_some_iff.mp cas
    have first := oldest true c (turned.cas ▸ won)
    obtain ⟨inv', removes⟩ := turned.removes spec inv first.1.1 first.1.2.1
    rw [cas] at scheduled
    exact ⟨_, _, scheduled, inv', removes, .cas first issuable⟩
  | none =>
    cases act : found.tempACT.filter (s.isIssuable check) with
    | some c =>
      obtain ⟨won, issuable⟩ := Option.filter_eq_some_iff.mp act
      have first := oldest false c (turned.act ▸ won)
      obtain ⟨inv', removes⟩ := turned.removes spec inv first.1.1 first.1.2.1
      rw [cas, act] at scheduled
      exact ⟨_, _, scheduled, inv', removes, .row first issuable (refusedCas cas)⟩
    | none =>
      rw [cas, act] at scheduled
      refine ⟨_, _, scheduled, inv.mono (turned.alike.sided inv.sided) fun i k d hd => ?_,
        ⟨fun i k => ?_, ?_⟩, .nothing fun isCas j d older => ?_⟩
      · rwa [turned.alike.side] at hd
      · rw [turned.alike.side]
        rfl
      · rw [turned.alike.same]
        rfl
      · cases isCas with
        | true => exact refusedCas cas j d older
        | false => exact refusedAct act j d older

/-! ## Runs -/

/-- The commands sent in a run, with their queues. -/
def sentOf (told : List (Option (Option Entry))) : List Entry := told.filterMap (Option.bind · id)

theorem sentOf_append (told : List (Option (Option Entry))) (sent : Option Entry) :
    sentOf (told ++ [some sent]) = sentOf told ++ sent.toList := by
  cases sent <;> simp [sentOf]

/-- What was inserted into each side of each queue is what was sent from it and what still waits, in
this order. -/
def Served (table : Nat → Bool) (calls : List SchedulerCall) (s : CommandScheduler)
    (told : List (Option (Option Entry))) : Prop :=
  ∀ i critical, ofSide table i critical (insertedOf calls) =
    ofSide table i critical (sentOf told) ++ s.side i critical

/-- The calls that the base class answers. -/
theorem Inv.base (inv : Inv table s) {call : SchedulerCall} (banks : call.Inserts ofBank)
    (base : BaseStep spec table s call s') {calls : List SchedulerCall}
    {told : List (Option (Option Entry))} (served : Served table calls s told) :
    Inv table s' ∧ Served table (calls ++ [call]) s' (told ++ [none]) := by
  have silent : sentOf (told ++ [none]) = sentOf told := by simp [sentOf]
  cases base with
  | @insertCommand index command bound =>
    have own : command.bank = index := banks (command, index) rfl
    have side : ∀ i k, (s.insertCommand index command (table command.requestorID)).side i k =
        s.side i k ++ if i = index ∧ k = table command.requestorID then [command] else [] :=
      inv.sided.side_insertCommand index command _
    refine ⟨⟨inv.sided.insertCommand index command _, fun i k c hc => ?_, fun i k c hc => ?_⟩,
      fun i k => ?_⟩
    · rw [side] at hc
      rcases List.mem_append.mp hc with old | new
      · exact inv.sorted i k c old
      · split at new
        · next here => exact List.mem_singleton.mp new ▸ here.2.symm
        · cases new
    · rw [side] at hc
      rcases List.mem_append.mp hc with old | new
      · exact inv.banked i k c old
      · split at new
        · next here => exact List.mem_singleton.mp new ▸ own.trans here.1.symm
        · cases new
    · rw [silent, insertedOf_append, ofSide_append, served i k, side, List.append_assoc]
      congr 2
      exact ofSide_singleton table i k (command, index)
  | refresh check =>
    have same := (commandQueue_refresh s spec check).1
    have side : ∀ i k, (s.refresh spec check).side i k = s.side i k := by
      intro i k
      unfold CommandScheduler.side
      rw [same]
    refine ⟨inv.mono (fun i => same ▸ inv.sided i) fun i k c hc => side i k ▸ hc, fun i k => ?_⟩
    rw [silent, insertedOf_append, side, ← served i k]
    exact congrArg _ (List.append_nil _)
  | tick =>
    refine ⟨inv.mono inv.sided.tick fun i k c hc => side_tick s i k ▸ hc, fun i k => ?_⟩
    rw [silent, insertedOf_append, side_tick, ← served i k]
    exact congrArg _ (List.append_nil _)

/-- **RTMem serves each criticality of each bank in order, the oldest first.** With one command queue for
each bank, any criticality of the requestors, any refresh machine and any answers of the device: in every
run of insertions, refreshes, scheduling calls and ticks, what was inserted for a bank by requestors of a
criticality is what was sent of it and what still waits, in this order. And wherever a run ends, the next
call is defined, removes exactly the command that it sends, and chooses the first of the oldest column
accesses at a front, or the first of the oldest other commands if the device does not take that one. -/
theorem rtmem_serves (spec : DeviceSpec) (table : Nat → Bool) (queueCount : Nat) (m : RefreshMachine)
    {calls : List SchedulerCall} (banks : ∀ call ∈ calls, call.Inserts ofBank) {s : CommandScheduler}
    {told : List (Option (Option Entry))}
    (ran : Lib.Machine.run ((schedule spec).step spec table) (create queueCount false m, ()) calls =
      some ((s, ()), told)) :
    Served table calls s told ∧ ∀ check, ∃ s' sent, schedule spec check s () = some (s', (), sent) ∧
      Dcmc.Removes spec table s s' sent ∧ Chooses s check sent := by
  have start : Inv table (create queueCount false m) ∧ Served table [] (create queueCount false m) [] := by
    refine ⟨inv_create table queueCount m, fun i critical => ?_⟩
    rw [side_create]
    rfl
  have history : Inv table s ∧ Served table calls s told := by
    refine Lib.Machine.run_history_along (fun calls st told => Inv table st.1 ∧
      Served table calls st.1 told) ?_ start
      (Lib.Machine.along_of_forall ((schedule spec).step spec table) _ banks) ran
    rintro calls ⟨s, ⟨⟩⟩ told call st' o ⟨inv, served⟩ stepped bank
    rcases Scheduling.step_cases stepped with
      ⟨s', base, rfl, rfl⟩ | ⟨check, s', p', sent, rfl, scheduled, rfl, rfl⟩
    · exact inv.base bank base served
    · obtain ⟨s'', sent', scheduled', inv', removes, _⟩ := inv.call spec check
      obtain ⟨rfl, _, rfl⟩ : s' = s'' ∧ p' = () ∧ sent = sent' := by
        simpa using scheduled.symm.trans scheduled'
      refine ⟨inv', fun i k => ?_⟩
      have nothing : (SchedulerCall.commandSchedule check).inserted.toList = [] := rfl
      rw [insertedOf_append, nothing, List.append_nil, served i k, removes.sides i k, sentOf_append,
        ofSide_append, List.append_assoc]
  refine ⟨history.2, fun check => ?_⟩
  obtain ⟨s', sent, scheduled, _, removes, chooses⟩ := history.1.call spec check
  exact ⟨s', sent, scheduled, removes, chooses⟩

/-- A bank's commands of the two criticalities, and an older read of another bank. Requestor 0 is the
critical one. The device refuses column accesses at first. -/
def twoBanks : List SchedulerCall :=
  [.insertCommand 0 { sampleCommand .RD 1 0 with arriveTime := 1 },
    .insertCommand 0 { sampleCommand .PRE 0 0 with arriveTime := 4 },
    .insertCommand 1 { sampleCommand .RD 1 1 with arriveTime := 2 },
    .commandSchedule fun c => !c.busPacketType.beforeACT, .tick, .commandSchedule fun _ => true]

/-- The law at a run in which the younger precharge is sent first, as it hides the read of its bank that
is not critical, and then the oldest read. -/
theorem rtmem_serves_twoBanks :
    ∃ s told, Lib.Machine.run ((schedule openPageSetup.device).step openPageSetup.device (· == 0))
        (create 2 false (.create .none openPageSetup.device 0 0), ()) twoBanks = some ((s, ()), told) ∧
      sentOf told = [({ sampleCommand .PRE 0 0 with arriveTime := 4 }, 0),
        ({ sampleCommand .RD 1 0 with arriveTime := 1 }, 0)] ∧
      Served (· == 0) twoBanks s told ∧ ∀ check, ∃ s' sent,
        schedule openPageSetup.device check s () = some (s', (), sent) ∧
          Dcmc.Removes openPageSetup.device (· == 0) s s' sent ∧ Chooses s check sent := by
  obtain ⟨⟨s, ⟨⟩⟩, told, ran, sent⟩ := Lib.Machine.run_exists_told
    ((schedule openPageSetup.device).step openPageSetup.device (· == 0))
    (fun _ told => sentOf told = [({ sampleCommand .PRE 0 0 with arriveTime := 4 }, 0),
      ({ sampleCommand .RD 1 0 with arriveTime := 1 }, 0)])
    (create 2 false (.create .none openPageSetup.device 0 0), ()) twoBanks (by decide +kernel)
  refine ⟨s, told, ran, sent, rtmem_serves _ _ 2 _ (fun call hc e inserted => ?_) ran⟩
  simp only [twoBanks, List.mem_cons, List.not_mem_nil, or_false] at hc
  rcases hc with rfl | rfl | rfl | rfl | rfl | rfl <;> cases inserted <;> rfl

end RTMem
end MCsim
