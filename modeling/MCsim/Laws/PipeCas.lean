import Mathlib.Data.List.ReduceOption
import MCsim.Laws.Latch
import MCsim.Requests.Calls
import MCsim.Schedulers.PipeCas
import MCsim.Setups

/-!
# Rounds of PipeCAS

Every requestor is critical, and a queue holds pairs of an activation and a column access. A round serves
each queue of its snapshot: the front pair of the queue is sent, activation first, and then nothing more
of the queue until the round is done. `Serving` is what every run keeps, and `Round` is what a round has
sent: of each queue of the snapshot a part of its first pair.

So the column accesses of a round are the first ones of the queues in the snapshot. These are of the
round's type exactly if they are what the snapshot found there (`FrontsMatch`); it looks for the type
behind the front pair too.
-/

namespace MCsim.PipeCas

open CommandScheduler

/-! ## Pairs -/

/-- A column access with auto-precharge. -/
def IsAuto (c : BusPacket) : Prop := c.busPacketType = .RDA ∨ c.busPacketType = .WRA

/-- Activations and column accesses in turns. -/
def Paired : List BusPacket → Prop
  | [] => True
  | [_] => False
  | a :: c :: rest => a.busPacketType = .ACT ∧ IsAuto c ∧ Paired rest

theorem Paired.append {a c : BusPacket} (act : a.busPacketType = .ACT) (auto : IsAuto c) :
    ∀ {l : List BusPacket}, Paired l → Paired (l ++ [a, c])
  | [], _ => ⟨act, auto, trivial⟩
  | _ :: _ :: _, ⟨h₁, h₂, rest⟩ => ⟨h₁, h₂, rest.append act auto⟩

theorem not_auto_of_act {c : BusPacket} (act : c.busPacketType = .ACT) : ¬ IsAuto c := by
  rintro (h | h) <;> rw [act] at h <;> cases h

theorem IsAuto.beforeACT {c : BusPacket} (auto : IsAuto c) :
    c.busPacketType ≠ .ACT ∧ c.busPacketType.beforeACT = true := by
  rcases auto with h | h <;> rw [h] <;> decide

/-- Half a pair, and whole ones. -/
def Halved (l : List BusPacket) : Prop := ∃ c rest, l = c :: rest ∧ IsAuto c ∧ Paired rest

theorem Halved.append {a c : BusPacket} {l : List BusPacket} (halved : Halved l)
    (act : a.busPacketType = .ACT) (auto : IsAuto c) : Halved (l ++ [a, c]) := by
  obtain ⟨d, rest, rfl, is_auto, paired⟩ := halved
  exact ⟨d, rest ++ [a, c], rfl, is_auto, paired.append act auto⟩

/-! ## What every run keeps -/

/-- The part of the state that rounds are made of. -/
structure Core where
  queueScheduled : List Nat
  queueServed : Nat → Bool
  hrtACT : List Entry
  hrtCAS : List Entry
  queuePending : Nat → Bool

def core (p : PipeCasState) : Core where
  queueScheduled := p.queueScheduled
  queueServed := p.queueServed
  hrtACT := p.hrtACT
  hrtCAS := p.hrtCAS
  queuePending := p.queuePending

/-- Nothing of a requestor that is not critical is latched, and no slot is kept for it. -/
def Quiet (p : PipeCasState) : Prop :=
  p.srtCAS = [] ∧ p.srtACT = [] ∧ p.srtPRE = [] ∧ p.srtNum_ACT = 0

/-- The queues hold pairs, but for those that a round is in the middle of; what is latched are fronts of
queues that the round has still to serve. -/
structure Serving (s : CommandScheduler) (k : Core) : Prop where
  shaped : s.Shaped false
  latched : Latched Entry.queue s (k.hrtACT ++ k.hrtCAS) k.queuePending
  act : ∀ e ∈ k.hrtACT, e.1.busPacketType = .ACT
  cas : ∀ e ∈ k.hrtCAS, IsAuto e.1
  due : ∀ e ∈ k.hrtACT ++ k.hrtCAS, e.2 ∈ k.queueScheduled ∧ k.queueServed e.2 = false
  served : ∀ i, k.queueServed i = true → i ∈ k.queueScheduled
  queues : ∀ i, Paired (s.waiting i) ∨
    (i ∈ k.queueScheduled ∧ k.queueServed i = false ∧ Halved (s.waiting i))

variable {s s' : CommandScheduler} {k k' : Core} {e : Entry}

/-- An entry is the front of the queue it is latched from. -/
theorem Serving.front (serving : Serving s k) (mem : e ∈ k.hrtACT ++ k.hrtCAS) :
    ∃ rest, s.waiting e.2 = e.1 :: rest := by
  have head := serving.latched.head e mem
  rw [serving.shaped.bufferOf_false] at head
  exact List.head?_eq_some_iff.mp head

/-- A call that leaves the queues, or appends pairs to them. -/
theorem Serving.congr (serving : Serving s k) (shaped : s'.Shaped false)
    (latched : Latched Entry.queue s' (k.hrtACT ++ k.hrtCAS) k.queuePending)
    (paired : ∀ i, Paired (s.waiting i) → Paired (s'.waiting i))
    (halved : ∀ i, Halved (s.waiting i) → Halved (s'.waiting i)) : Serving s' k :=
  { serving with
    shaped := shaped
    latched := latched
    queues := fun i => (serving.queues i).imp (paired i) fun ⟨mem, due, half⟩ => ⟨mem, due, halved i half⟩ }

theorem Serving.create (queueCount srtRD srtWR : Nat) (m : RefreshMachine) :
    Serving (create queueCount false m) (core { srtRD := srtRD, srtWR := srtWR }) where
  shaped := shaped_create queueCount false m
  latched := .empty Entry.queue _
  act _ h := by cases h
  cas _ h := by cases h
  due _ h := by cases h
  served _ h := by cases h
  queues _ := .inl trivial

/-! ## Requests, refreshes and ticks -/

theorem waiting_insertRequest (shaped : s.Shaped false) (request : Request) :
    (insertRequest s request).Shaped false ∧
      ∃ a c, a.busPacketType = .ACT ∧ IsAuto c ∧ ∀ i, (insertRequest s request).waiting i =
        if i = request.bank then s.waiting i ++ [a, c] else s.waiting i := by
  obtain ⟨a, c, made, act, auto⟩ : ∃ a c, CommandGenerator.pipeCommands true request false = [a, c] ∧
      a.busPacketType = .ACT ∧ IsAuto c := by
    refine ⟨_, _, rfl, rfl, ?_⟩
    unfold IsAuto CommandGenerator.autoCasType
    cases request.requestType
    · exact .inl rfl
    · exact .inr rfl
  have first := shaped.insertCommand (a, request.bank) fun _ => rfl
  have second := first.1.insertCommand (c, request.bank) fun _ => rfl
  have whole : insertRequest s request =
      (s.insertCommand request.bank a true).insertCommand request.bank c true := by
    simp [insertRequest, made]
  rw [whole]
  refine ⟨second.1, a, c, act, auto, fun i => ?_⟩
  have buffer := second.2 i 0
  rw [second.1.bufferOf_false, first.2, shaped.bufferOf_false] at buffer
  rw [buffer]
  by_cases here : i = request.bank
  · simp [Entry.inBuffer, here]
  · simp [Entry.inBuffer, here, Ne.symm here]

theorem Serving.insertRequest (serving : Serving s k) (request : Request) :
    Serving (insertRequest s request) k := by
  obtain ⟨shaped, a, c, act, auto, waiting⟩ := waiting_insertRequest serving.shaped request
  have latched : Latched Entry.queue (PipeCas.insertRequest s request) (k.hrtACT ++ k.hrtCAS)
      k.queuePending := by
    refine serving.latched.of_entries fun e _ head ready => ⟨?_, ?_⟩
    · rw [shaped.bufferOf_false, waiting]
      rw [serving.shaped.bufferOf_false] at head
      split
      · rw [List.head?_append, head]
        rfl
      · exact head
    · simp only [PipeCas.insertRequest, CommandGenerator.pipeCommands, if_true, List.foldl_cons,
        List.foldl_nil, isReady_insertCommand]
      exact ready
  refine serving.congr shaped latched (fun i paired => ?_) fun i halved => ?_
  · rw [waiting]
    split
    · exact paired.append act auto
    · exact paired
  · rw [waiting]
    split
    · exact halved.append act auto
    · exact halved

theorem Serving.refresh (serving : Serving s k) (spec : DeviceSpec) (check : Answers) :
    Serving (s.refresh spec check) k := by
  have same := waiting_refresh s spec check
  exact serving.congr (serving.shaped.refresh spec check) (serving.latched.refresh spec check)
    (fun i paired => by rw [same]; exact paired) fun i halved => by rw [same]; exact halved

theorem Serving.tick (serving : Serving s k) : Serving s.tick k := by
  have same := fun i => waiting_tick serving.shaped.general i
  exact serving.congr serving.shaped.tick (serving.latched.tick serving.shaped)
    (fun i paired => by rw [same]; exact paired) fun i halved => by rw [same]; exact halved

/-! ## Sending within a round -/

/-- What a call sends: nothing, the activation latched first, or the column access latched first, which
makes its queue served. -/
inductive Chooses (spec : DeviceSpec) (s : CommandScheduler) (k : Core) :
    Option Entry → CommandScheduler → Core → Prop
  | idle : Chooses spec s k none { s with scheduledCommand := none } k
  | act {e : Entry} {rest : List Entry} (first : k.hrtACT = e :: rest) :
      Chooses spec s k (some e) (s.issue spec e.1 e.2)
        { k with
          hrtACT := rest
          queuePending := fun i => if i = e.2 then false else k.queuePending i }
  | cas {e : Entry} {rest : List Entry} (first : k.hrtCAS = e :: rest) :
      Chooses spec s k (some e) (s.issue spec e.1 e.2)
        { k with
          hrtCAS := rest
          queueServed := fun i => if i = e.2 then true else k.queueServed i
          queuePending := fun i => if i = e.2 then false else k.queuePending i }

/-- The end of a round. -/
def close (k : Core) : Core :=
  if k.queueScheduled.all k.queueServed then
    { k with queueScheduled := [], queueServed := fun _ => false }
  else k

variable {spec : DeviceSpec} {out : Option Entry}

/-- The queue of an activation that is sent holds a pair. -/
theorem Serving.whole (serving : Serving s k) (mem : e ∈ k.hrtACT) :
    ∃ c rest, s.waiting e.2 = e.1 :: c :: rest ∧ IsAuto c ∧ Paired rest := by
  obtain ⟨rest, front⟩ := serving.front (List.mem_append_left _ mem)
  have act := serving.act e mem
  rcases serving.queues e.2 with paired | ⟨-, -, c, rest', eq, auto, -⟩
  · rw [front] at paired
    cases rest with
    | nil => exact paired.elim
    | cons c rest => exact ⟨c, rest, front, paired.2.1, paired.2.2⟩
  · rw [front] at eq
    obtain ⟨rfl, -⟩ := List.cons.inj eq
    exact absurd auto (not_auto_of_act act)

/-- The queue of a column access that is sent holds half a pair. -/
theorem Serving.half (serving : Serving s k) (mem : e ∈ k.hrtCAS) :
    ∃ rest, s.waiting e.2 = e.1 :: rest ∧ Paired rest := by
  obtain ⟨rest, front⟩ := serving.front (List.mem_append_right _ mem)
  have auto := serving.cas e mem
  rcases serving.queues e.2 with paired | ⟨-, -, c, rest', eq, -, paired⟩
  · rw [front] at paired
    cases rest with
    | nil => exact paired.elim
    | cons c rest => exact absurd auto (not_auto_of_act paired.1)
  · rw [front] at eq
    obtain ⟨-, rfl⟩ := List.cons.inj eq
    exact ⟨rest, front, paired⟩

theorem waiting_sent (shaped : s.Shaped false) (spec : DeviceSpec) (e : Entry) (i : Nat) :
    (s.issue spec e.1 e.2).waiting i = if i = e.2 then (s.waiting i).tail else s.waiting i := by
  have buffer := (shaped.issue spec e).2 i 0
  rw [(shaped.issue spec e).1.bufferOf_false, shaped.bufferOf_false] at buffer
  rw [buffer]
  by_cases here : i = e.2
  · simp [Entry.inBuffer, here]
  · simp [Entry.inBuffer, here, Ne.symm here]

/-- The entries other than one that is sent are of other queues. -/
theorem Serving.apart (serving : Serving s k) {before after : List Entry}
    (split : k.hrtACT ++ k.hrtCAS = before ++ e :: after) : ∀ d ∈ before ++ after, d.2 ≠ e.2 := by
  have once := serving.latched.once
  rw [split] at once
  obtain ⟨fresh, -⟩ := List.nodup_cons.mp ((List.perm_middle.map Entry.queue).nodup_iff.mp once)
  intro d hd same
  have key : Entry.queue d = Entry.queue e := same
  exact fresh (key ▸ List.mem_map_of_mem hd)

theorem Serving.chooses (serving : Serving s k) (chooses : Chooses spec s k out s' k') :
    Serving s' k' := by
  cases chooses with
  | idle =>
    exact serving.congr serving.shaped (serving.latched.of_entries fun _ _ head ready => ⟨head, ready⟩)
      (fun _ paired => paired) fun _ halved => halved
  | @act e rest first =>
    have mem : e ∈ k.hrtACT := by simp [first]
    have split : k.hrtACT ++ k.hrtCAS = [] ++ e :: (rest ++ k.hrtCAS) := by simp [first]
    have sent := waiting_sent serving.shaped spec e
    have latched := serving.latched
    rw [split] at latched
    refine ⟨(serving.shaped.issue spec e).1,
      latched.issue (Entry.queue_separates false) serving.shaped spec fun _ => rfl,
      fun d hd => serving.act d (by simp [first, hd]), serving.cas,
      fun d hd => serving.due d (by rw [split]; exact List.mem_append_right _ (List.mem_cons_of_mem e hd)),
      serving.served, fun i => ?_⟩
    rw [sent]
    split
    · next here =>
      subst here
      obtain ⟨c, tail, front, auto, paired⟩ := serving.whole mem
      obtain ⟨scheduled, due⟩ := serving.due e (List.mem_append_left _ mem)
      exact .inr ⟨scheduled, due, c, tail, by rw [front]; rfl, auto, paired⟩
    · exact serving.queues i
  | @cas e rest first =>
    have mem : e ∈ k.hrtCAS := by simp [first]
    have split : k.hrtACT ++ k.hrtCAS = k.hrtACT ++ e :: rest := by rw [first]
    have sent := waiting_sent serving.shaped spec e
    have apart := serving.apart split
    have latched := serving.latched
    rw [split] at latched
    refine ⟨(serving.shaped.issue spec e).1,
      latched.issue (Entry.queue_separates false) serving.shaped spec fun _ => rfl,
      serving.act, fun d hd => serving.cas d (by simp [first, hd]), fun d hd => ?_, fun i hi => ?_,
      fun i => ?_⟩
    · have whole : d ∈ k.hrtACT ++ k.hrtCAS := by
        rw [split]
        exact List.perm_middle.mem_iff.mpr (List.mem_cons_of_mem e hd)
      obtain ⟨scheduled, due⟩ := serving.due d whole
      exact ⟨scheduled, by simpa [apart d hd] using due⟩
    · dsimp only at hi
      split at hi
      · next here => exact here ▸ (serving.due e (List.mem_append_right _ mem)).1
      · exact serving.served i hi
    · rw [sent]
      split
      · next here =>
        subst here
        obtain ⟨tail, front, paired⟩ := serving.half mem
        exact .inl (by rw [front]; exact paired)
      · next other =>
        refine (serving.queues i).imp_right fun ⟨scheduled, due, halved⟩ => ⟨scheduled, ?_, halved⟩
        simpa [other] using due

/-- At the end of a round nothing is latched, and every queue holds pairs. -/
theorem Serving.close (serving : Serving s k) : Serving s (close k) := by
  unfold PipeCas.close
  split
  · next done =>
    have all := List.all_eq_true.mp done
    have none_latched : k.hrtACT ++ k.hrtCAS = [] := by
      apply List.eq_nil_iff_forall_not_mem.mpr
      intro e he
      obtain ⟨scheduled, due⟩ := serving.due e he
      rw [all _ scheduled] at due
      cases due
    have no_one : ∀ i : Nat, (false = true) → i ∈ ([] : List Nat) := fun _ h => by cases h
    refine ⟨serving.shaped, serving.latched, serving.act, serving.cas, fun e he => ?_, no_one,
      fun i => .inl ?_⟩
    · dsimp only at he
      rw [none_latched] at he
      cases he
    · rcases serving.queues i with paired | ⟨scheduled, due, -⟩
      · exact paired
      · rw [all _ scheduled] at due
        cases due
  · exact serving

/-! ## What a round has sent -/

/-- How far a queue of the round is, by what was sent of its first pair. -/
inductive Phase (a c : BusPacket) (i : Nat) (sent : List Entry) (waiting : List BusPacket) (served : Bool) :
    Prop
  | whole {rest : List BusPacket} (due : served = false) (nothing : sent = [])
      (front : waiting = a :: c :: rest)
  | half {rest : List BusPacket} (due : served = false) (one : sent = [(a, i)])
      (front : waiting = c :: rest)
  | done (finished : served = true) (both : sent = [(a, i), (c, i)])

/-- A round over the queues `l`, whose first pairs were `first` at the snapshot. -/
structure Round (l : List Nat) (first : Nat → BusPacket × BusPacket) (sent : List Entry)
    (s : CommandScheduler) (k : Core) : Prop where
  scheduled : k.queueScheduled = l
  pairs : ∀ i ∈ l, (first i).1.busPacketType = .ACT ∧ IsAuto (first i).2
  each : ∀ i ∈ l, Phase (first i).1 (first i).2 i (sent.filter (·.2 == i)) (s.waiting i) (k.queueServed i)
  others : ∀ i, i ∉ l → sent.filter (·.2 == i) = []

variable {l : List Nat} {first : Nat → BusPacket × BusPacket} {sent : List Entry}

/-- What is latched does not matter, nor what is appended to the queues. -/
theorem Round.congr (round : Round l first sent s k) (scheduled : k'.queueScheduled = k.queueScheduled)
    (served : k'.queueServed = k.queueServed)
    (grows : ∀ i, ∃ more, s'.waiting i = s.waiting i ++ more) : Round l first sent s' k' := by
  refine { round with scheduled := scheduled.trans round.scheduled, each := fun i hi => ?_ }
  rw [served]
  obtain ⟨more, eq⟩ := grows i
  rw [eq]
  cases round.each i hi with
  | whole due nothing front => exact .whole due nothing (by rw [front]; rfl)
  | half due one front => exact .half due one (by rw [front]; rfl)
  | done finished both => exact .done finished both

/-- An entry that is sent goes on with its queue, and with no other. -/
theorem Round.sends (round : Round l first sent s k) (serving : Serving s k)
    (mem : e ∈ k.hrtACT ++ k.hrtCAS) (scheduled : k'.queueScheduled = k.queueScheduled)
    (elsewhere : ∀ i, i ≠ e.2 → k'.queueServed i = k.queueServed i)
    (here : Phase (first e.2).1 (first e.2).2 e.2 (sent.filter (·.2 == e.2) ++ [e])
      (s.waiting e.2).tail (k'.queueServed e.2)) :
    Round l first (sent ++ [e]) (s.issue spec e.1 e.2) k' := by
  have waiting := waiting_sent serving.shaped spec e
  have own : e.2 ∈ l := round.scheduled ▸ (serving.due e mem).1
  refine ⟨scheduled.trans round.scheduled, round.pairs, fun i hi => ?_, fun i hi => ?_⟩
  · rw [waiting, List.filter_append]
    by_cases same : i = e.2
    · subst same
      simpa using here
    · rw [if_neg same, elsewhere i same]
      simpa [Ne.symm same] using round.each i hi
  · have other : e.2 ≠ i := fun eq => hi (eq ▸ own)
    simpa [List.filter_append, other] using round.others i hi

theorem Round.chooses (round : Round l first sent s k) (serving : Serving s k)
    (chooses : Chooses spec s k out s' k') : Round l first (sent ++ out.toList) s' k' := by
  cases chooses with
  | idle =>
    rw [Option.toList_none, List.append_nil]
    exact round.congr rfl rfl fun i => ⟨[], (List.append_nil _).symm⟩
  | @act e rest eq =>
    have mem : e ∈ k.hrtACT := by simp [eq]
    have latched := List.mem_append_left k.hrtCAS mem
    obtain ⟨scheduled, due⟩ := serving.due e latched
    have act := serving.act e mem
    obtain ⟨tail, front⟩ := serving.front latched
    have pairs := round.pairs e.2 (round.scheduled ▸ scheduled)
    refine round.sends serving latched rfl (fun _ _ => rfl) ?_
    cases round.each e.2 (round.scheduled ▸ scheduled) with
    | whole _ nothing here =>
      rw [front] at here
      obtain ⟨eq, rest_eq⟩ := List.cons.inj here
      refine .half due ?_ (by rw [front, rest_eq]; rfl)
      rw [nothing, ← eq]
      rfl
    | half _ one here =>
      rw [front] at here
      exact absurd ((List.cons.inj here).1 ▸ pairs.2) (not_auto_of_act act)
    | done finished =>
      rw [finished] at due
      cases due
  | @cas e rest eq =>
    have mem : e ∈ k.hrtCAS := by simp [eq]
    have latched := List.mem_append_right k.hrtACT mem
    obtain ⟨scheduled, due⟩ := serving.due e latched
    have auto := serving.cas e mem
    obtain ⟨tail, front⟩ := serving.front latched
    have pairs := round.pairs e.2 (round.scheduled ▸ scheduled)
    refine round.sends serving latched rfl (fun i other => if_neg other) ?_
    cases round.each e.2 (round.scheduled ▸ scheduled) with
    | whole _ nothing here =>
      rw [front] at here
      exact absurd auto (not_auto_of_act ((List.cons.inj here).1 ▸ pairs.1))
    | half _ one here =>
      rw [front] at here
      refine .done (if_pos rfl) ?_
      rw [one, ← (List.cons.inj here).1]
      rfl
    | done finished =>
      rw [finished] at due
      cases due

/-- A round that is over: of each queue its first pair was sent. -/
def Over (l : List Nat) (first : Nat → BusPacket × BusPacket) (sent : List Entry) : Prop :=
  (∀ i ∈ l, sent.filter (·.2 == i) = [((first i).1, i), ((first i).2, i)]) ∧
    ∀ i, i ∉ l → sent.filter (·.2 == i) = []

theorem Round.close (round : Round l first sent s k) :
    Round l first sent s (close k) ∨ (close k).queueScheduled = [] ∧ Over l first sent := by
  unfold PipeCas.close
  split
  · next done =>
    refine .inr ⟨rfl, fun i hi => ?_, round.others⟩
    have served : k.queueServed i = true := List.all_eq_true.mp done i (round.scheduled ▸ hi)
    cases round.each i hi with
    | whole due => rw [served] at due; cases due
    | half due => rw [served] at due; cases due
    | done _ both => exact both
  · exact .inl round

/-! ## A call -/

variable {p p' : PipeCasState} {check : Answers}

theorem foldl_bufferSRT (shaped : s.Shaped false) (p : PipeCasState) (indices : List Nat) :
    indices.foldl bufferSRT (s, p) = (s, p) := by
  induction indices with
  | nil => rfl
  | cons index indices ih =>
    have turn : bufferSRT (s, p) index = (s, p) := by
      unfold bufferSRT
      dsimp only
      rw [shaped.look_other]
      split <;> rfl
    rw [List.foldl_cons, turn, ih]

/-- What latching leaves as it is. -/
structure Kept (p p' : PipeCasState) : Prop where
  scheduled : p'.queueScheduled = p.queueScheduled
  served : p'.queueServed = p.queueServed
  type : p'.roundType = p.roundType
  quiet : Quiet p → Quiet p'

/-- The front of a queue is an activation, or the column access that a round has still to send. -/
theorem Serving.front_kind (serving : Serving s k) {i : Nat} {c : BusPacket} {rest : List BusPacket}
    (front : s.waiting i = c :: rest) : c.busPacketType = .ACT ∨ IsAuto c := by
  rcases serving.queues i with paired | ⟨-, -, d, tail, eq, auto, -⟩
  · rw [front] at paired
    cases rest with
    | nil => exact paired.elim
    | cons d rest => exact .inl paired.1
  · rw [front] at eq
    exact .inr ((List.cons.inj eq).1 ▸ auto)

/-- A front that joins the latched ones, wherever in their list. -/
theorem Serving.join (serving : Serving s k) {c : BusPacket} {i : Nat} {rest : List BusPacket}
    (front : s.waiting i = c :: rest) (ready : s.isReady c i = true) (scheduled : i ∈ k.queueScheduled)
    (due : k.queueServed i = false) (free : k.queuePending i = false) {hrtACT hrtCAS : List Entry}
    (joined : (k.hrtACT ++ k.hrtCAS ++ [(c, i)]).Perm (hrtACT ++ hrtCAS))
    (act : ∀ e ∈ hrtACT, e ∈ k.hrtACT ∨ e = (c, i) ∧ c.busPacketType = .ACT)
    (cas : ∀ e ∈ hrtCAS, e ∈ k.hrtCAS ∨ e = (c, i) ∧ IsAuto c) :
    Serving s { k with
      hrtACT := hrtACT
      hrtCAS := hrtCAS
      queuePending := fun j => if j = i then true else k.queuePending j } := by
  have head : (s.bufferOf i c.requestorID).head? = some c := by
    rw [serving.shaped.bufferOf_false, front]
    rfl
  have pushed := serving.latched.push (e := (c, i)) head ready free fun _ => rfl
  refine ⟨serving.shaped, pushed.perm joined, fun e he => ?_, fun e he => ?_, fun e he => ?_,
    serving.served, serving.queues⟩
  · rcases act e he with he | ⟨rfl, is_act⟩
    · exact serving.act e he
    · exact is_act
  · rcases cas e he with he | ⟨rfl, is_auto⟩
    · exact serving.cas e he
    · exact is_auto
  · rcases List.mem_append.mp (joined.mem_iff.mpr he) with he | he
    · exact serving.due e he
    · rw [List.mem_singleton.mp he]
      exact ⟨scheduled, due⟩

theorem latchHRT_serving (serving : Serving s (core p)) {i : Nat} (scheduled : i ∈ p.queueScheduled)
    {st : CommandScheduler × PipeCasState} (h : latchHRT (s, p) i = some st) :
    st.1 = s ∧ Serving s (core st.2) ∧ Kept p st.2 := by
  unfold latchHRT at h
  dsimp only at h
  rw [look_general serving.shaped.general] at h
  split at h
  · next asked =>
    obtain ⟨free, due⟩ : p.queuePending i = false ∧ p.queueServed i = false := by simpa using asked
    split at h
    · cases h
    · next c found =>
      obtain ⟨rfl, head⟩ := Prod.mk.inj found
      obtain ⟨rest, front⟩ := List.head?_eq_some_iff.mp head
      split at h
      · next ready =>
        rcases serving.front_kind front with act | auto
        · rw [if_pos act] at h
          obtain rfl := Option.some.inj h
          refine ⟨rfl, ?_, rfl, rfl, rfl, id⟩
          refine serving.join front ready scheduled due free ?_ (fun e he => ?_) fun e he => .inl he
          · rw [List.append_assoc, List.append_assoc]
            exact .append_left _ List.perm_append_comm
          · rcases List.mem_append.mp he with he | he
            · exact .inl he
            · exact .inr ⟨List.mem_singleton.mp he, act⟩
        · rw [if_neg auto.beforeACT.1, if_pos auto.beforeACT.2] at h
          obtain rfl := Option.some.inj h
          refine ⟨rfl, ?_, rfl, rfl, rfl, id⟩
          refine serving.join front ready scheduled due free ?_ (fun e he => .inl he) fun e he => ?_
          · rw [List.append_assoc]
            rfl
          · rcases List.mem_append.mp he with he | he
            · exact .inl he
            · exact .inr ⟨List.mem_singleton.mp he, auto⟩
      · obtain rfl := Option.some.inj h
        exact ⟨rfl, serving, rfl, rfl, rfl, id⟩
  · obtain rfl := Option.some.inj h
    exact ⟨rfl, serving, rfl, rfl, rfl, id⟩

theorem foldlM_latchHRT {indices : List Nat} (serving : Serving s (core p))
    (scheduled : ∀ i ∈ indices, i ∈ p.queueScheduled) {st : CommandScheduler × PipeCasState}
    (h : indices.foldlM latchHRT (s, p) = some st) :
    st.1 = s ∧ Serving s (core st.2) ∧ Kept p st.2 := by
  induction indices generalizing p with
  | nil =>
    obtain rfl := Option.some.inj h
    exact ⟨rfl, serving, rfl, rfl, rfl, id⟩
  | cons i indices ih =>
    obtain ⟨here, later⟩ := List.forall_mem_cons.mp scheduled
    obtain ⟨⟨s₁, p₁⟩, turn, rest⟩ := Option.bind_eq_some_iff.mp h
    obtain ⟨rfl, serving₁, kept⟩ := latchHRT_serving serving here turn
    obtain ⟨same, serving', kept'⟩ :=
      ih serving₁ (fun j hj => kept.scheduled ▸ later j hj) rest
    exact ⟨same, serving', kept'.scheduled.trans kept.scheduled, kept'.served.trans kept.served,
      kept'.type.trans kept.type, fun quiet => kept'.quiet (kept.quiet quiet)⟩

/-! The others' commands have no part in it. -/

variable {t : Pass}

theorem schedule_SRT_CAS_quiet (quiet : Quiet t.own) : schedule_SRT_CAS check t = t := by
  unfold schedule_SRT_CAS
  dsimp only
  rw [quiet.1]
  rfl

theorem schedule_SRT_ACT_quiet (quiet : Quiet t.own) : schedule_SRT_ACT check t = t := by
  unfold schedule_SRT_ACT
  rw [quiet.2.1]
  rfl

theorem schedule_SRT_PRE_quiet (quiet : Quiet t.own) : schedule_SRT_PRE check t = t := by
  unfold schedule_SRT_PRE
  rw [quiet.2.2.1]
  rfl

theorem unlessScheduled_same {next : Pass → Pass} (same : next t = t) : unlessScheduled t next = t := by
  unfold unlessScheduled
  split
  · exact same
  · rfl

theorem takeFront_eq_some {can : BusPacket → Bool} {l rest : List Entry}
    (h : takeFront can l = some (e, rest)) : l = e :: rest := by
  cases l with
  | nil => cases h
  | cons d l =>
    simp only [takeFront] at h
    split at h
    · obtain ⟨rfl, rfl⟩ := Prod.mk.inj (Option.some.inj h)
      rfl
    · cases h

/-- The choice within a round: the activation latched first, or the column access latched first. -/
theorem chooseInRound_cases (quiet : Quiet t.own) (none_yet : t.scheduled = none) :
    chooseInRound check t = t ∨
    (∃ e rest, t.own.hrtACT = e :: rest ∧
      chooseInRound check t = { t with scheduled := some e, own := { t.own with hrtACT := rest } }) ∨
    ∃ e rest, t.own.hrtCAS = e :: rest ∧ chooseInRound check t =
      { t with
        scheduled := some e
        own := { t.own with
          hrtCAS := rest
          queueServed := fun i => if i = e.2 then true else t.own.queueServed i } } := by
  have no_slot : ¬ t.own.srtNum_ACT > 0 := by rw [quiet.2.2.2]; omega
  unfold chooseInRound
  rw [if_neg no_slot]
  cases act : takeFront (t.scheduler.isIssuable check) t.own.hrtACT with
  | some r =>
    refine .inr (.inl ⟨r.1, r.2, takeFront_eq_some act, ?_⟩)
    simp [schedule_HRT_ACT, act, unlessScheduled]
  | none =>
    have refused : schedule_HRT_ACT check t = t := by simp [schedule_HRT_ACT, act]
    have only : ∀ n : Nat, (if n > 0 then unlessScheduled (schedule_SRT_CAS check t) (schedule_HRT_CAS check)
        else schedule_HRT_CAS check t) = schedule_HRT_CAS check t := by
      intro n
      rw [schedule_SRT_CAS_quiet quiet]
      split
      · simp [unlessScheduled, none_yet]
      · rfl
    have tried : unlessScheduled t (fun t => if t.own.casCounter > 0 then
        unlessScheduled (schedule_SRT_CAS check t) (schedule_HRT_CAS check)
        else schedule_HRT_CAS check t) = schedule_HRT_CAS check t := by
      unfold unlessScheduled
      rw [if_pos (by simp [none_yet])]
      exact only t.own.casCounter
    dsimp only
    rw [refused, tried]
    cases cas : takeFront (t.scheduler.isIssuable check) t.own.hrtCAS with
    | some r =>
      refine .inr (.inr ⟨r.1, r.2, takeFront_eq_some cas, ?_⟩)
      simp [schedule_HRT_CAS, cas, unlessScheduled]
    | none =>
      have refused : schedule_HRT_CAS check t = t := by simp [schedule_HRT_CAS, cas]
      rw [refused]
      exact .inl (unlessScheduled_same (schedule_SRT_PRE_quiet quiet))

/-- Out of a round nothing is chosen. -/
theorem outOfRound_quiet (check : Answers) (quiet : Quiet t.own) :
    (outOfRound check t).scheduler = t.scheduler ∧ (outOfRound check t).scheduled = t.scheduled ∧
      core (outOfRound check t).own = core t.own ∧ Quiet (outOfRound check t).own ∧
      (outOfRound check t).own.roundType = t.own.roundType := by
  have no_choice : ∀ t : Pass, Quiet t.own →
      unlessScheduled (unlessScheduled (schedule_SRT_CAS check t) (schedule_SRT_ACT check))
        (schedule_SRT_PRE check) = t := by
    intro t quiet
    rw [schedule_SRT_CAS_quiet quiet, unlessScheduled_same (schedule_SRT_ACT_quiet quiet),
      unlessScheduled_same (schedule_SRT_PRE_quiet quiet)]
  unfold outOfRound
  split
  · dsimp only
    rw [no_choice]
    · refine ⟨rfl, rfl, ?_, ?_, ?_⟩ <;> split <;> split <;> first | rfl | exact quiet
    · split <;> split <;> exact quiet
  · exact ⟨rfl, rfl, rfl, quiet, rfl⟩

theorem core_note (c : Constraints) (p : PipeCasState) (e : Entry) :
    core (note c p e) =
      { core p with queuePending := fun i => if i = e.2 then false else p.queuePending i } := by
  unfold note
  dsimp only
  split
  · rfl
  · split
    · split <;> rfl
    · rfl

theorem quiet_note (c : Constraints) (quiet : Quiet p) (e : Entry) :
    Quiet (note c p e) ∧ (note c p e).roundType = p.roundType := by
  unfold note
  dsimp only
  split
  · exact ⟨quiet, rfl⟩
  · split
    · split <;> exact ⟨quiet, rfl⟩
    · exact ⟨quiet, rfl⟩

theorem closeRound_core (p : PipeCasState) : core (closeRound p) = close (core p) := by
  unfold closeRound close
  show core (if _ then _ else _) = if p.queueScheduled.all p.queueServed = true then _ else _
  split <;> rfl

theorem closeRound_quiet (quiet : Quiet p) :
    Quiet (closeRound p) ∧ (closeRound p).roundType = p.roundType := by
  unfold closeRound
  split <;> exact ⟨quiet, rfl⟩

/-- A call from where the round has been settled: nothing where none is on, else latching, a choice and
perhaps the end of the round. -/
inductive Serves (spec : DeviceSpec) (s : CommandScheduler) (k : Core) :
    Option Entry → CommandScheduler → Core → Prop
  | idle (none_on : k.queueScheduled = []) : Serves spec s k none { s with scheduledCommand := none } k
  | round {k₁ k₂ : Core} {out : Option Entry} {s' : CommandScheduler} (on : k.queueScheduled ≠ [])
      (scheduled : k₁.queueScheduled = k.queueScheduled) (served : k₁.queueServed = k.queueServed)
      (serving : Serving s k₁) (chooses : Chooses spec s k₁ out s' k₂) :
      Serves spec s k out s' (close k₂)

theorem close_pending (k : Core) (pending : Nat → Bool) :
    close { k with queuePending := pending } = { close k with queuePending := pending } := by
  unfold close
  dsimp only
  split <;> rfl

/-- The end of a call: what was chosen is sent. -/
theorem finish_outOfRound (spec : DeviceSpec) (check : Answers) (quiet : Quiet t.own) :
    Quiet (finish spec (outOfRound check t)).2.1 ∧
      (finish spec (outOfRound check t)).2.1.roundType = t.own.roundType ∧
      match t.scheduled with
      | none =>
        (finish spec (outOfRound check t)).2.2 = none ∧
          (finish spec (outOfRound check t)).1 = { t.scheduler with scheduledCommand := none } ∧
          core (finish spec (outOfRound check t)).2.1 = core t.own
      | some e =>
        (finish spec (outOfRound check t)).2.2 = some e ∧
          (finish spec (outOfRound check t)).1 = t.scheduler.issue spec e.1 e.2 ∧
          core (finish spec (outOfRound check t)).2.1 =
            { core t.own with queuePending := fun i => if i = e.2 then false else t.own.queuePending i } := by
  obtain ⟨scheduler, scheduled, core_eq, quiet', type⟩ := outOfRound_quiet check quiet
  generalize outOfRound check t = u at *
  rcases chosen : t.scheduled with _ | e
  · rw [chosen] at scheduled
    simp only [finish, scheduled, scheduler]
    exact ⟨quiet', type, trivial, trivial, core_eq⟩
  · rw [chosen] at scheduled
    simp only [finish, scheduled, scheduler]
    obtain ⟨quiet'', type'⟩ := quiet_note spec.constraints quiet' e
    refine ⟨quiet'', type'.trans type, trivial, trivial, ?_⟩
    have pending : u.own.queuePending = t.own.queuePending := congrArg Core.queuePending core_eq
    have noted := core_note spec.constraints u.own e
    rw [core_eq, pending] at noted
    exact noted

/-- The end of a call that chose an entry of a round. -/
theorem finish_chosen (spec : DeviceSpec) (check : Answers) (s : CommandScheduler) {q : PipeCasState}
    (quiet : Quiet q) (e : Entry) :
    ∃ p', finish spec (outOfRound check { scheduler := s, own := closeRound q, scheduled := some e }) =
        (s.issue spec e.1 e.2, p', some e) ∧ Quiet p' ∧ p'.roundType = q.roundType ∧
      core p' = close { core q with
        queuePending := fun i => if i = e.2 then false else q.queuePending i } := by
  obtain ⟨closed, type⟩ := closeRound_quiet quiet
  obtain ⟨quiet', type', sent, scheduler, core_eq⟩ := finish_outOfRound
    (t := { scheduler := s, own := closeRound q, scheduled := some e }) spec check closed
  have pending : (closeRound q).queuePending = q.queuePending := by
    unfold closeRound
    split <;> rfl
  refine ⟨_, Prod.ext scheduler (Prod.ext rfl sent), quiet', type'.trans type, ?_⟩
  dsimp only at core_eq
  rw [closeRound_core, pending] at core_eq
  exact core_eq.trans (close_pending (core q) _).symm

/-- The rest of a call, once the round has been settled. -/
theorem serves_of_serveRound (spec : DeviceSpec) {q : PipeCasState} (serving : Serving s (core q)) (quiet : Quiet q)
    {u : Pass} (h : serveRound check { scheduler := s, own := q } = some u) :
    Serves spec s (core q) (finish spec (outOfRound check u)).2.2 (finish spec (outOfRound check u)).1
        (core (finish spec (outOfRound check u)).2.1) ∧
      Quiet (finish spec (outOfRound check u)).2.1 ∧
      (finish spec (outOfRound check u)).2.1.roundType = q.roundType := by
  unfold serveRound at h
  dsimp only at h
  split at h
  · next none_on =>
    obtain rfl := Option.some.inj h
    obtain ⟨quiet', type, nothing, scheduler, core_eq⟩ :=
      finish_outOfRound (t := { scheduler := s, own := q }) spec check quiet
    rw [nothing, scheduler, core_eq]
    exact ⟨.idle (List.isEmpty_iff.mp none_on), quiet', type⟩
  · next on =>
    obtain ⟨⟨s₁, q₁⟩, folded, rfl⟩ := Option.map_eq_some_iff.mp h
    obtain ⟨rfl, serving₁, kept⟩ := foldlM_latchHRT serving (fun _ hi => hi) folded
    have quiet₁ := kept.quiet quiet
    have is_on : (core q).queueScheduled ≠ [] := fun eq => on (by simpa [core] using eq)
    have serves : ∀ {out s' k₂}, Chooses spec s₁ (core q₁) out s' k₂ →
        Serves spec s₁ (core q) out s' (close k₂) := fun chooses =>
      .round is_on kept.scheduled kept.served serving₁ chooses
    dsimp only
    rcases chooseInRound_cases (t := { scheduler := s₁, own := q₁ }) quiet₁ rfl with
      chosen | ⟨e, rest, latched, chosen⟩ | ⟨e, rest, latched, chosen⟩ <;> rw [chosen]
    · obtain ⟨quiet', type, nothing, scheduler, core_eq⟩ :=
        finish_outOfRound (t := { scheduler := s₁, own := closeRound q₁ }) spec check
          (closeRound_quiet quiet₁).1
      rw [nothing, scheduler, core_eq, closeRound_core]
      exact ⟨serves .idle, quiet', type.trans ((closeRound_quiet quiet₁).2.trans kept.type)⟩
    · obtain ⟨p', finished, quiet', type, core_eq⟩ :=
        finish_chosen spec check s₁ (q := { q₁ with hrtACT := rest }) quiet₁ e
      rw [finished, core_eq]
      exact ⟨serves (.act latched), quiet', type.trans kept.type⟩
    · obtain ⟨p', finished, quiet', type, core_eq⟩ := finish_chosen spec check s₁
        (q := { q₁ with
          hrtCAS := rest
          queueServed := fun i => if i = e.2 then true else q₁.queueServed i }) quiet₁ e
      rw [finished, core_eq]
      exact ⟨serves (.cas latched), quiet', type.trans kept.type⟩

/-- Before the round is settled: nothing changes, or no round is on and a snapshot is taken. -/
theorem beginRound_cases (quiet : Quiet p) {u : Pass}
    (h : beginRound check { scheduler := s, own := enterRound s p } = some u) :
    ∃ q, u = { scheduler := s, own := q } ∧ Quiet q ∧ q.roundType = nextType s p ∧
      (core q = core p ∨ p.queueScheduled = [] ∧
        core q = { core p with queueScheduled := snapshot s p (nextType s p) }) := by
  unfold beginRound at h
  dsimp only at h
  split at h
  · next starts =>
    have none_on : p.queueScheduled = [] := List.isEmpty_iff.mp (Bool.and_eq_true_iff.mp starts).2
    split at h
    · obtain ⟨casCounter, -, rfl⟩ := Option.map_eq_some_iff.mp h
      exact ⟨_, rfl, ⟨quiet.1, quiet.2.1, quiet.2.2.1, rfl⟩, rfl, .inr ⟨none_on, rfl⟩⟩
    · have quiet' : Quiet { enterRound s p with
          srtRD := 0
          srtWR := 0
          roundSRT := if (enterRound s p).roundType = .RDA then .RD else .WR
          srtNum_ACT := 0 } := ⟨quiet.1, quiet.2.1, quiet.2.2.1, rfl⟩
      obtain rfl := Option.some.inj h
      refine ⟨_, ?_, quiet', rfl, .inl rfl⟩
      rw [schedule_SRT_CAS_quiet quiet', unlessScheduled_same (schedule_SRT_PRE_quiet quiet')]
  · obtain rfl := Option.some.inj h
    exact ⟨_, rfl, quiet, rfl, .inl rfl⟩

/-- Where no round is on, nothing is latched and every queue holds pairs. -/
theorem Serving.between (serving : Serving s k) (none_on : k.queueScheduled = []) :
    k.hrtACT ++ k.hrtCAS = [] ∧ (∀ i, k.queuePending i = false) ∧ (∀ i, k.queueServed i = false) ∧
      ∀ i, Paired (s.waiting i) := by
  have none_latched : k.hrtACT ++ k.hrtCAS = [] := by
    apply List.eq_nil_iff_forall_not_mem.mpr
    intro e he
    have scheduled := (serving.due e he).1
    rw [none_on] at scheduled
    cases scheduled
  refine ⟨none_latched, fun i => ?_, fun i => ?_, fun i => ?_⟩
  · apply Bool.eq_false_iff.mpr
    intro up
    have listed := (serving.latched.pending i).mp up
    rw [none_latched] at listed
    cases listed
  · apply Bool.eq_false_iff.mpr
    intro up
    have scheduled := serving.served i up
    rw [none_on] at scheduled
    cases scheduled
  · rcases serving.queues i with paired | ⟨scheduled, -⟩
    · exact paired
    · rw [none_on] at scheduled
      cases scheduled

theorem Serving.snapshot (serving : Serving s k) (none_on : k.queueScheduled = []) (l : List Nat) :
    Serving s { k with queueScheduled := l } := by
  obtain ⟨none_latched, -, none_served, paired⟩ := serving.between none_on
  refine ⟨serving.shaped, serving.latched, serving.act, serving.cas, fun e he => ?_, fun i up => ?_,
    fun i => .inl (paired i)⟩
  · dsimp only at he
    rw [none_latched] at he
    cases he
  · dsimp only at up
    rw [none_served i] at up
    cases up

/-- **A call, taken apart.** -/
theorem schedule_cases (serving : Serving s (core p)) (quiet : Quiet p)
    (h : schedule spec check s p = some (s', p', out)) :
    ∃ k, (k = core p ∨ p.queueScheduled = [] ∧
        k = { core p with queueScheduled := snapshot s p (nextType s p) }) ∧
      Serving s k ∧ Serves spec s k out s' (core p') ∧ Quiet p' ∧ p'.roundType = nextType s p := by
  unfold schedule at h
  dsimp only at h
  rw [foldl_bufferSRT serving.shaped] at h
  obtain ⟨u, began, rest⟩ := Option.bind_eq_some_iff.mp h
  obtain ⟨v, served, finished⟩ := Option.map_eq_some_iff.mp rest
  obtain ⟨q, rfl, quiet', type, settled⟩ := beginRound_cases quiet began
  have serving' : Serving s (core q) := by
    rcases settled with same | ⟨none_on, taken⟩
    · rw [same]
      exact serving
    · rw [taken]
      exact serving.snapshot none_on _
  obtain ⟨serves, still, kept⟩ := serves_of_serveRound spec serving' quiet' served
  rw [finished] at serves still kept
  exact ⟨core q, settled, serving', serves, still, kept.trans type⟩

theorem Serves.serving (serving : Serving s k) (serves : Serves spec s k out s' k') : Serving s' k' := by
  cases serves with
  | idle =>
    have nothing : Chooses spec s k none { s with scheduledCommand := none } k := .idle
    exact serving.chooses nothing
  | round _ _ _ serving₁ chooses => exact (serving₁.chooses chooses).close

/-! ## Runs -/

/-- What every run keeps. -/
def Ongoing (st : CommandScheduler × PipeCasState) : Prop := Serving st.1 (core st.2) ∧ Quiet st.2

/-- A step is a request, a refresh, a tick or a call. -/
theorem step_cases {st st' : CommandScheduler × PipeCasState} {call : PipeCall}
    (h : step spec st call = some (st', out)) :
    (∃ request, st' = (insertRequest st.1 request, st.2) ∧ out = none) ∨
    (∃ check, st' = (st.1.refresh spec check, st.2) ∧ out = none) ∨
    (st' = (st.1.tick, st.2) ∧ out = none) ∨
    ∃ check, schedule spec check st.1 st.2 = some (st'.1, st'.2, out) := by
  obtain ⟨s, p⟩ := st
  cases call with
  | request request =>
    simp only [step] at h
    split at h
    · obtain ⟨rfl, rfl⟩ := Prod.mk.inj (Option.some.inj h)
      exact .inl ⟨request, rfl, rfl⟩
    · cases h
  | refresh check =>
    obtain ⟨rfl, rfl⟩ := Prod.mk.inj (Option.some.inj h)
    exact .inr (.inl ⟨check, rfl, rfl⟩)
  | tick =>
    obtain ⟨rfl, rfl⟩ := Prod.mk.inj (Option.some.inj h)
    exact .inr (.inr (.inl ⟨rfl, rfl⟩))
  | commandSchedule check =>
    obtain ⟨⟨s', p', out'⟩, scheduled, eq⟩ := Option.map_eq_some_iff.mp h
    obtain ⟨rfl, rfl⟩ := Prod.mk.inj eq
    exact .inr (.inr (.inr ⟨check, scheduled⟩))

theorem Ongoing.step {st st' : CommandScheduler × PipeCasState} {call : PipeCall} (ongoing : Ongoing st)
    (h : step spec st call = some (st', out)) : Ongoing st' := by
  obtain ⟨serving, quiet⟩ := ongoing
  rcases step_cases h with ⟨request, rfl, -⟩ | ⟨check, rfl, -⟩ | ⟨rfl, -⟩ | ⟨check, scheduled⟩
  · exact ⟨serving.insertRequest request, quiet⟩
  · exact ⟨serving.refresh spec check, quiet⟩
  · exact ⟨serving.tick, quiet⟩
  · obtain ⟨k, -, serving', serves, quiet', -⟩ := schedule_cases serving quiet scheduled
    exact ⟨serves.serving serving', quiet'⟩

/-- A round on its way, or just over. -/
def Window (l : List Nat) (first : Nat → BusPacket × BusPacket) (sent : List Entry)
    (st : CommandScheduler × PipeCasState) : Prop :=
  Round l first sent st.1 (core st.2) ∨ st.2.queueScheduled = [] ∧ Over l first sent

theorem Round.serves (round : Round l first sent s k) (on : k.queueScheduled ≠ [])
    (serves : Serves spec s k out s' (core p')) : Window l first (sent ++ out.toList) (s', p') := by
  generalize final : core p' = k' at serves
  cases serves with
  | idle none_on => exact absurd none_on on
  | @round k₁ k₂ _ _ _ scheduled served serving chooses =>
    have round₁ : Round l first sent s k₁ :=
      round.congr scheduled served fun i => ⟨[], (List.append_nil _).symm⟩
    have ends := (round₁.chooses serving chooses).close
    rw [← final] at ends
    exact ends

/-- Where no round is on, a call starts none. -/
theorem Serves.idle_eq (serves : Serves spec s k out s' k') (none_on : k.queueScheduled = []) :
    k'.queueScheduled = [] := by
  cases serves with
  | idle => exact none_on
  | round on => exact absurd none_on on

/-- A window whose round is no longer on is over. -/
theorem Window.ended {st : CommandScheduler × PipeCasState} (window : Window l first sent st)
    (cleared : st.2.queueScheduled = []) (some_queue : l ≠ []) : Over l first sent :=
  (window.resolve_left fun round => some_queue (round.scheduled.symm.trans cleared)).2

/-- **A step within a round.** -/
theorem Round.step {st st' : CommandScheduler × PipeCasState} {call : PipeCall} (ongoing : Ongoing st)
    (round : Round l first sent st.1 (core st.2)) (on : st.2.queueScheduled ≠ [])
    (h : step spec st call = some (st', out)) : Window l first (sent ++ out.toList) st' := by
  obtain ⟨serving, quiet⟩ := ongoing
  rcases step_cases h with ⟨request, rfl, rfl⟩ | ⟨check, rfl, rfl⟩ | ⟨rfl, rfl⟩ | ⟨check, scheduled⟩
  · rw [Option.toList_none, List.append_nil]
    obtain ⟨-, a, c, -, -, waiting⟩ := waiting_insertRequest serving.shaped request
    refine .inl (round.congr rfl rfl fun i => ?_)
    by_cases here : i = request.bank
    · exact ⟨[a, c], by rw [waiting, if_pos here]⟩
    · exact ⟨[], by rw [waiting, if_neg here, List.append_nil]⟩
  · rw [Option.toList_none, List.append_nil]
    exact .inl (round.congr rfl rfl fun i => ⟨[], by rw [waiting_refresh, List.append_nil]⟩)
  · rw [Option.toList_none, List.append_nil]
    exact .inl (round.congr rfl rfl fun i => ⟨[], by
      rw [waiting_tick serving.shaped.general, List.append_nil]⟩)
  · obtain ⟨k, settled, -, serves, -, -⟩ := schedule_cases serving quiet scheduled
    obtain rfl : k = core st.2 := settled.resolve_right fun taken => on taken.1
    exact round.serves on serves

theorem run_window {st st' : CommandScheduler × PipeCasState} {during : List PipeCall}
    {outs : List (Option Entry)} (ongoing : Ongoing st) (started : Window l first sent st)
    (within : Lib.Machine.Along (step spec) (fun st _ _ _ => st.2.queueScheduled ≠ []) st during)
    (went : Lib.Machine.run (step spec) st during = some (st', outs)) :
    Window l first (sent ++ outs.reduceOption) st' := by
  have history : Ongoing st' ∧ Window l first (sent ++ outs.reduceOption) st' := by
    refine Lib.Machine.run_history_along
      (fun _ st outs => Ongoing st ∧ Window l first (sent ++ outs.reduceOption) st)
      (fun {is st os i st' o} history h on => ?_) ⟨ongoing, ?_⟩ within went
    · obtain ⟨ongoing, window⟩ := history
      refine ⟨ongoing.step h, ?_⟩
      have round := window.resolve_right fun ended => on ended.1
      have next := round.step ongoing on h
      rw [List.append_assoc] at next
      have told : (os ++ [o]).reduceOption = os.reduceOption ++ o.toList := by
        cases o <;> simp [List.reduceOption]
      rw [told]
      exact next
    · rw [List.reduceOption_nil, List.append_nil]
      exact started
  exact history.2

/-! ## The type of a round -/

theorem mem_snapshot {type : BusPacketType} {i : Nat} :
    i ∈ snapshot s p type ↔ i < s.queueCount ∧ ∃ c ∈ unlatched s p i, c.busPacketType = type := by
  simp only [snapshot, List.mem_flatMap, List.mem_range, List.mem_map, List.mem_filter, decide_eq_true_eq]
  constructor
  · rintro ⟨j, bound, c, ⟨mem, eq⟩, rfl⟩
    exact ⟨bound, c, mem, eq⟩
  · rintro ⟨bound, c, mem, eq⟩
    exact ⟨i, bound, c, ⟨mem, eq⟩, rfl⟩

/-- The snapshot finds what it looks for in front: in each queue that holds a column access of the
round's type, the first one is of the type. -/
def FrontsMatch (s : CommandScheduler) (p : PipeCasState) : Prop :=
  ∀ i < s.queueCount, (s.waiting i).any (·.busPacketType = nextType s p) = true →
    ((s.waiting i)[1]?).map (·.busPacketType) = some (nextType s p)

instance (s : CommandScheduler) (p : PipeCasState) : Decidable (FrontsMatch s p) :=
  inferInstanceAs (Decidable (∀ i < s.queueCount, _ → _))

/-- The snapshot starts a round over the first pairs of its queues. -/
theorem Serving.starts (serving : Serving s (core p)) (none_on : p.queueScheduled = []) :
    ∃ first : Nat → BusPacket × BusPacket,
      Round (PipeCas.snapshot s p (nextType s p)) first [] s
        { core p with queueScheduled := PipeCas.snapshot s p (nextType s p) } ∧
      (∀ i ∈ PipeCas.snapshot s p (nextType s p), ((s.waiting i)[1]?) = some (first i).2) ∧
      ∀ i, i ∈ PipeCas.snapshot s p (nextType s p) ↔
        i < s.queueCount ∧ (s.waiting i).any (·.busPacketType = nextType s p) = true := by
  obtain ⟨-, none_pending, none_served, paired⟩ := serving.between none_on
  have mem_iff : ∀ i, i ∈ PipeCas.snapshot s p (nextType s p) ↔
      i < s.queueCount ∧ (s.waiting i).any (·.busPacketType = nextType s p) = true := by
    intro i
    have none_i : p.queuePending i = false := none_pending i
    simp [mem_snapshot, unlatched, none_i, waiting]
  have fronts : ∀ i, ∃ pair : BusPacket × BusPacket, i ∈ PipeCas.snapshot s p (nextType s p) →
      (pair.1.busPacketType = .ACT ∧ IsAuto pair.2) ∧ ∃ rest, s.waiting i = pair.1 :: pair.2 :: rest := by
    intro i
    have here := paired i
    rcases list : s.waiting i with _ | ⟨a, _ | ⟨c, rest⟩⟩
    · refine ⟨(sampleCommand .ACT 0 0, sampleCommand .ACT 0 0), fun mem => ?_⟩
      have found := ((mem_iff i).mp mem).2
      simp [list] at found
    · rw [list] at here
      exact here.elim
    · rw [list] at here
      exact ⟨(a, c), fun _ => ⟨⟨here.1, here.2.1⟩, rest, rfl⟩⟩
  choose first holds using fronts
  refine ⟨first, ⟨rfl, fun i hi => (holds i hi).1, fun i hi => ?_, fun _ _ => rfl⟩, fun i hi => ?_, mem_iff⟩
  · obtain ⟨rest, front⟩ := (holds i hi).2
    exact .whole (none_served i) rfl front
  · obtain ⟨rest, front⟩ := (holds i hi).2
    rw [front]
    rfl

/-- Everything sent in a round is of the first pair of a queue in it. -/
theorem Window.mem_sent {st : CommandScheduler × PipeCasState} (window : Window l first sent st)
    (pairs : ∀ i ∈ l, (first i).1.busPacketType = .ACT ∧ IsAuto (first i).2) (mem : e ∈ sent) :
    e.2 ∈ l ∧ (e.1.busPacketType = .ACT ∨ e.1 = (first e.2).2) := by
  have own : e ∈ sent.filter (·.2 == e.2) := List.mem_filter.mpr ⟨mem, beq_self_eq_true _⟩
  have others : ∀ i, i ∉ l → sent.filter (·.2 == i) = [] := window.elim (·.others) (·.2.2)
  have inside : e.2 ∈ l := by
    by_contra out
    rw [others e.2 out] at own
    cases own
  refine ⟨inside, ?_⟩
  have act := (pairs e.2 inside).1
  have parts : sent.filter (·.2 == e.2) <+: [((first e.2).1, e.2), ((first e.2).2, e.2)] := by
    rcases window with round | ended
    · cases round.each e.2 inside with
      | whole _ nothing => rw [nothing]; exact List.nil_prefix
      | half _ one => rw [one]; exact ⟨[((first e.2).2, e.2)], rfl⟩
      | done _ both => exact ⟨[], (List.append_nil _).trans both⟩
    · exact ⟨[], (List.append_nil _).trans (ended.2.1 e.2 inside)⟩
  rcases List.mem_cons.mp (parts.subset own) with eq | later
  · exact .inl (by rw [eq]; exact act)
  · exact .inr (by rw [List.mem_singleton.mp later])

/-- A round of one type: every column access sent is of the type, and each queue of the round had one
activation and one column access sent. -/
structure OneType (type : BusPacketType) (l : List Nat) (sent : List Entry) : Prop where
  types : ∀ e ∈ sent, e.1.busPacketType.beforeACT = true → e.1.busPacketType = type
  each : ∀ i ∈ l, sent.countP (fun e => e.2 == i && e.1.busPacketType == .ACT) = 1 ∧
    sent.countP (fun e => e.2 == i && e.1.busPacketType.beforeACT) = 1

theorem countP_of_filter {sent : List Entry} {i : Nat} (f : Entry → Bool) :
    sent.countP (fun e => e.2 == i && f e) = (sent.filter (·.2 == i)).countP f := by
  rw [List.countP_filter]
  exact List.countP_congr fun e _ => by simp [and_comm]

/-- **Rounds of PipeCAS.** Take any run to where no round is on, a call that takes a snapshot, and any run
on from there within the round. If the first column accesses of the snapshot's queues match, every column
access sent so far is of the round's type. If the round is just over, it was of one type, with one
activation and one column access for each queue, exactly if they match. -/
theorem round_oneType (spec : DeviceSpec) (queueCount srtRD srtWR : Nat) (m : RefreshMachine)
    (before : List PipeCall) {st₀ : CommandScheduler × PipeCasState} {told : List (Option Entry)}
    (ran : Lib.Machine.run (step spec) (create queueCount false m, { srtRD := srtRD, srtWR := srtWR })
      before = some (st₀, told))
    (none_on : st₀.2.queueScheduled = []) (check : Answers) {st₁ : CommandScheduler × PipeCasState}
    {out : Option Entry} (snap : step spec st₀ (.commandSchedule check) = some (st₁, out))
    (on : st₁.2.queueScheduled ≠ []) (during : List PipeCall) {st₂ : CommandScheduler × PipeCasState}
    {outs : List (Option Entry)} (went : Lib.Machine.run (step spec) st₁ during = some (st₂, outs))
    (within : Lib.Machine.Along (step spec) (fun st _ _ _ => st.2.queueScheduled ≠ []) st₁ during) :
    (FrontsMatch st₀.1 st₀.2 → ∀ e ∈ (out :: outs).reduceOption,
      e.1.busPacketType.beforeACT = true → e.1.busPacketType = st₁.2.roundType) ∧
    (st₂.2.queueScheduled = [] →
      (OneType st₁.2.roundType st₁.2.queueScheduled (out :: outs).reduceOption ↔
        FrontsMatch st₀.1 st₀.2)) := by
  have ongoing : Ongoing st₀ := Lib.Machine.run_invariant Ongoing (fun inv h => inv.step h)
    ⟨.create queueCount srtRD srtWR m, rfl, rfl, rfl, rfl⟩ ran
  obtain ⟨⟨s₁, p₁, o⟩, scheduled, eq⟩ := Option.map_eq_some_iff.mp snap
  obtain ⟨rfl, rfl⟩ := Prod.mk.inj eq
  obtain ⟨k, settled, -, serves, -, type⟩ := schedule_cases ongoing.1 ongoing.2 scheduled
  obtain ⟨first, round, seconds, mem_iff⟩ := ongoing.1.starts none_on
  -- The call did take the snapshot, for a round is on after it.
  have on_k : k.queueScheduled ≠ [] := fun none_k => on (serves.idle_eq none_k)
  obtain rfl := (settled.resolve_left fun same => on_k (same ▸ none_on)).2
  have started := round.serves on_k serves
  have listed : p₁.queueScheduled = snapshot st₀.1 st₀.2 (nextType st₀.1 st₀.2) :=
    (started.resolve_right fun ended => on ended.1).scheduled
  have told : (o :: outs).reduceOption = [] ++ o.toList ++ outs.reduceOption := by
    cases o <;> simp [List.reduceOption]
  have window := run_window (ongoing.step snap) started within went
  rw [← told] at window
  dsimp only
  rw [type, listed]
  have types : FrontsMatch st₀.1 st₀.2 → ∀ e ∈ (o :: outs).reduceOption,
      e.1.busPacketType.beforeACT = true → e.1.busPacketType = nextType st₀.1 st₀.2 := by
    intro fronts e he cas
    obtain ⟨inside, act | second⟩ := window.mem_sent round.pairs he
    · rw [act] at cas
      cases cas
    · obtain ⟨bound, found⟩ := (mem_iff e.2).mp inside
      have here := fronts e.2 bound found
      rw [seconds e.2 inside, ← second] at here
      exact Option.some.inj here
  refine ⟨types, fun cleared => ⟨fun one i bound found => ?_, fun fronts => ⟨types fronts, fun i hi => ?_⟩⟩⟩
  · have inside := (mem_iff i).mpr ⟨bound, found⟩
    have both := (window.ended cleared (listed ▸ on)).1 i inside
    have sent : ((first i).2, i) ∈ (o :: outs).reduceOption :=
      List.mem_of_mem_filter (both ▸ List.mem_cons_of_mem _ List.mem_cons_self)
    have auto := (round.pairs i inside).2
    rw [seconds i inside]
    exact congrArg some (one.types _ sent auto.beforeACT.2)
  · have both := (window.ended cleared (listed ▸ on)).1 i hi
    obtain ⟨act, auto⟩ := round.pairs i hi
    rw [countP_of_filter, countP_of_filter, both]
    have not_act : BusPacketType.ACT.beforeACT = false := rfl
    simp [act, not_act, auto.beforeACT.1, auto.beforeACT.2]

/-- A round on fixed inputs, evaluated. -/
theorem round_exists (spec : DeviceSpec) (st : CommandScheduler × PipeCasState)
    (before during : List PipeCall) (check : Answers)
    (P : (st₀ st₁ : CommandScheduler × PipeCasState) → List Entry → Bool)
    (evaluates : (Lib.Machine.run (step spec) st before).any (fun r₀ =>
      r₀.1.2.queueScheduled.isEmpty && (step spec r₀.1 (.commandSchedule check)).any fun r₁ =>
        !r₁.1.2.queueScheduled.isEmpty &&
        Lib.Machine.checkAlong (step spec) (fun st _ _ => !st.2.queueScheduled.isEmpty) r₁.1 during &&
        (Lib.Machine.run (step spec) r₁.1 during).any fun r₂ =>
          r₂.1.2.queueScheduled.isEmpty && P r₀.1 r₁.1 (r₁.2 :: r₂.2).reduceOption) = true) :
    ∃ st₀ told st₁ out st₂ outs, Lib.Machine.run (step spec) st before = some (st₀, told) ∧
      st₀.2.queueScheduled = [] ∧ step spec st₀ (.commandSchedule check) = some (st₁, out) ∧
      st₁.2.queueScheduled ≠ [] ∧ Lib.Machine.run (step spec) st₁ during = some (st₂, outs) ∧
      Lib.Machine.Along (step spec) (fun st _ _ _ => st.2.queueScheduled ≠ []) st₁ during ∧
      st₂.2.queueScheduled = [] ∧ P st₀ st₁ (out :: outs).reduceOption = true := by
  obtain ⟨⟨st₀, told⟩, ran, h₀⟩ := Option.any_eq_true _ _ |>.mp evaluates
  obtain ⟨none_on, h₁⟩ := Bool.and_eq_true_iff.mp h₀
  obtain ⟨⟨st₁, out⟩, snap, h₂⟩ := Option.any_eq_true _ _ |>.mp h₁
  obtain ⟨h₃, h₄⟩ := Bool.and_eq_true_iff.mp h₂
  obtain ⟨on, along⟩ := Bool.and_eq_true_iff.mp h₃
  obtain ⟨⟨st₂, outs⟩, went, h₅⟩ := Option.any_eq_true _ _ |>.mp h₄
  obtain ⟨cleared, holds⟩ := Bool.and_eq_true_iff.mp h₅
  have within := Lib.Machine.along_of_check (step spec) (fun st _ _ => !st.2.queueScheduled.isEmpty)
    (fun st _ _ => st.2.queueScheduled ≠ []) st₁ during (fun _ _ _ h => by simpa using h) along
  exact ⟨st₀, told, st₁, out, st₂, outs, ran, List.isEmpty_iff.mp none_on, snap, by simpa using on, went,
    within, List.isEmpty_iff.mp cleared, holds⟩

/-- As many cycles as the activation is ahead of its column access, on the default device. -/
def roundCycles : List PipeCall :=
  (List.replicate 9 [.tick, .commandSchedule fun _ => true]).flatten

/-- The scheduler at the start, with queues for two banks. -/
def twoBanks : CommandScheduler × PipeCasState :=
  (create 2 false (.create .none openPageSetup.device 0 0), { srtRD := 0, srtWR := 0 })

/-- The same for four banks. -/
def fourBanks : CommandScheduler × PipeCasState :=
  (create 4 false (.create .none openPageSetup.device 0 0), { srtRD := 0, srtWR := 0 })

/-- A request of one bus width to a bank. -/
def bankRequest (t : RequestType) (bank : Nat) : Request := { sampleRequest t bank 0 with bank := bank }

/-- Two reads of bank 0, one of bank 1 and one of bank 2, and a write to bank 3. -/
def readsAndWrite : List PipeCall :=
  [.request (bankRequest .DATA_READ 0), .request (bankRequest .DATA_READ 0),
    .request (bankRequest .DATA_READ 1), .request (bankRequest .DATA_READ 2),
    .request (bankRequest .DATA_WRITE 3)]

/-- The cycles until the round of the reads is over. -/
def readRound : List PipeCall := (List.replicate 11 [.tick, .commandSchedule fun _ => true]).flatten

/-- The law at a round of three banks, bank 0 entered once for each of its reads, while the write waits. -/
theorem round_oneType_threeBanks :
    ∃ st₀ told st₁ out st₂ outs,
      Lib.Machine.run (step openPageSetup.device) fourBanks readsAndWrite = some (st₀, told) ∧
      step openPageSetup.device st₀ (.commandSchedule fun _ => true) = some (st₁, out) ∧
      st₁.2.queueScheduled = [0, 0, 1, 2] ∧
      Lib.Machine.run (step openPageSetup.device) st₁ readRound = some (st₂, outs) ∧
      st₂.2.queueScheduled = [] ∧
      OneType st₁.2.roundType st₁.2.queueScheduled (out :: outs).reduceOption := by
  obtain ⟨st₀, told, st₁, out, st₂, outs, ran, none_on, snap, on, went, within, cleared, holds⟩ :=
    round_exists openPageSetup.device fourBanks readsAndWrite readRound (fun _ => true)
      (fun st₀ st₁ _ => FrontsMatch st₀.1 st₀.2 && st₁.2.queueScheduled == [0, 0, 1, 2])
      (by decide +kernel)
  obtain ⟨fronts, entered⟩ := Bool.and_eq_true_iff.mp holds
  have result := round_oneType openPageSetup.device 4 0 0 (.create .none openPageSetup.device 0 0)
    readsAndWrite ran none_on (fun _ => true) snap on readRound went within
  exact ⟨st₀, told, st₁, out, st₂, outs, ran, snap, eq_of_beq entered, went, cleared,
    (result.2 cleared).mpr (of_decide_eq_true fronts)⟩

/-- A bank has a write in front of a read. The last column access counts as a write, so the round is one of
reads, and the read behind the write enters the bank in it; the write is what is sent. -/
theorem round_writeInFront :
    ∃ st₀ told st₁ out st₂ outs,
      Lib.Machine.run (step openPageSetup.device) twoBanks
        [.request (sampleRequest .DATA_WRITE 0 0), .request (sampleRequest .DATA_READ 0 0)] =
          some (st₀, told) ∧
      st₀.2.queueScheduled = [] ∧
      step openPageSetup.device st₀ (.commandSchedule fun _ => true) = some (st₁, out) ∧
      st₁.2.queueScheduled ≠ [] ∧
      Lib.Machine.run (step openPageSetup.device) st₁ roundCycles = some (st₂, outs) ∧
      Lib.Machine.Along (step openPageSetup.device) (fun st _ _ _ => st.2.queueScheduled ≠ []) st₁
        roundCycles ∧
      st₂.2.queueScheduled = [] ∧
      (st₁.2.roundType == .RDA && (out :: outs).reduceOption.any (·.1.busPacketType == .WRA)) = true :=
  round_exists openPageSetup.device twoBanks
    [.request (sampleRequest .DATA_WRITE 0 0), .request (sampleRequest .DATA_READ 0 0)] roundCycles
    (fun _ => true)
    (fun _ st₁ sent => st₁.2.roundType == .RDA && sent.any (·.1.busPacketType == .WRA))
    (by decide +kernel)

end MCsim.PipeCas
