import MCsim.Laws.Fifo
import MCsim.Lib.Places
import MCsim.Schedulers.Roc

/-!
# The ROC pipeline

A command on its way through ROC is in one place: a FIFO of level 3, or a register of level 2. `held`
lists what all places of all ranks hold, and each level is described by what it does to the list. Level
3 adds fronts that are ready and whose requestor has no flag (`Joined`), level 2 moves, and level 1 takes
one out or none (`Leaves`). The list is latched in the sense of `Latched`, with a flag for each requestor.

The places are elements of vectors that are pushed in the first cycle. `Built` is what every later access
relies on.
-/

namespace MCsim

open CommandScheduler

/-! ## The places -/

namespace RocState

/-- What the FIFOs and the registers hold. -/
def held (p : RocState) : List BusPacket :=
  p.rankFIFO_L3PA.flatMap id ++ p.rankFIFO_L3CAS.flatMap id ++
    (p.l2_PA.flatMap Option.toList ++ p.l2_CAS.flatMap Option.toList)

/-- The same with the queue they wait in, of which there is one. -/
def entries (p : RocState) : List Entry := p.held.map (·, 0)

/-- The flag of a requestor. -/
def pending (p : RocState) (id : Nat) : Bool := (p.queuePending[id]?).getD false

end RocState

namespace Roc

/-- The vectors are there: an element for each rank, a flag for each requestor, and indices within. -/
structure Built (requestors : Nat) (p : RocState) : Prop where
  fifoPA : ranks ≤ p.rankFIFO_L3PA.length
  fifoCAS : ranks ≤ p.rankFIFO_L3CAS.length
  registerPA : ranks ≤ p.l2_PA.length
  registerCAS : ranks ≤ p.l2_CAS.length
  timers : p.l2_CAStimer.length = p.l2_CAS.length
  indexPA : p.l2_PAindex < p.l2_PA.length
  indexCAS : p.l2_CASindex < p.l2_CAS.length
  flags : requestors ≤ p.queuePending.length

/-- The commands that there is a queue and the vectors have a place for. -/
def Fits (requestors : Nat) (index : Nat) (c : BusPacket) : Prop :=
  index = 0 ∧ c.rank < ranks ∧ c.requestorID < requestors

variable {requestors : Nat} {p p' : RocState} {c : BusPacket}

theorem pending_set {id : Nat} (bound : id < p.queuePending.length) (value : Bool) (k : Nat) :
    ((p.queuePending.set id value)[k]?).getD false = if k = id then value else p.pending k := by
  by_cases same : k = id
  · simp [same, bound]
  · simp [RocState.pending, Ne.symm same, same]

/-! ## The first cycle -/

theorem held_pushVectors (s : CommandScheduler) : (pushVectors requestors s p).held = p.held := by
  unfold pushVectors
  split
  · simp [RocState.held, ranks, List.replicate]
  · rfl

theorem pending_pushVectors (s : CommandScheduler) (k : Nat) :
    (pushVectors requestors s p).pending k = p.pending k := by
  unfold pushVectors
  split
  · simp only [RocState.pending, List.getElem?_append]
    split
    · rfl
    · next out =>
      rw [List.getElem?_eq_none (Nat.le_of_not_lt out), List.getElem?_replicate]
      split <;> rfl
  · rfl

theorem built_pushVectors {s : CommandScheduler} (first : s.clock = 1)
    (before : p = {} ∨ Built requestors p) : Built requestors (pushVectors requestors s p) := by
  rcases before with rfl | built
  · constructor <;> simp [pushVectors, first, ranks]
  · obtain ⟨h₁, h₂, h₃, h₄, h₅, h₆, h₇, h₈⟩ := built
    constructor <;> simp [pushVectors, first, ranks] at *
    omega

/-! ## Level 3 -/

/-- A command joined the places, and its requestor's flag was raised. -/
structure Joined (requestors : Nat) (p : RocState) (c : BusPacket) (p' : RocState) : Prop where
  held : p'.held.Perm (c :: p.held)
  pending : ∀ k, p'.pending k = if k = c.requestorID then true else p.pending k
  built : Built requestors p'

/-- A FIFO that a command was pushed on. -/
theorem fifo_join {fifos : List (List BusPacket)} {rank : Nat} {fifo : List BusPacket}
    (at_ : fifos[rank]? = some fifo) (c : BusPacket) :
    ((fifos.set rank (fifo ++ [c])).flatMap id).Perm (c :: fifos.flatMap id) :=
  Lib.Places.flatMap_set_join at_ (.refl _)

theorem push_joined (built : Built requestors p) (fits : Fits requestors 0 c) :
    ∃ p', push p c = some p' ∧ Joined requestors p c p' := by
  obtain ⟨-, rank, requestor⟩ := fits
  have flag := Nat.lt_of_lt_of_le requestor built.flags
  obtain ⟨h₁, h₂, h₃, h₄, h₅, h₆, h₇, h₈⟩ := built
  unfold push
  dsimp only
  split
  · have at_ := List.getElem?_eq_getElem (Nat.lt_of_lt_of_le rank h₂)
    rw [at_]
    refine ⟨_, rfl, ?_, pending_set flag true, by constructor <;> simp <;> assumption⟩
    apply List.perm_iff_count.mpr
    intro a
    have count := (fifo_join at_ c).count_eq a
    simp only [RocState.held, List.count_append, List.count_cons] at count ⊢
    omega
  · have at_ := List.getElem?_eq_getElem (Nat.lt_of_lt_of_le rank h₁)
    rw [at_]
    refine ⟨_, rfl, ?_, pending_set flag true, by constructor <;> simp <;> assumption⟩
    apply List.perm_iff_count.mpr
    intro a
    have count := (fifo_join at_ c).count_eq a
    simp only [RocState.held, List.count_append, List.count_cons] at count ⊢
    omega

/-- What level 3 does with some fronts: those that are ready and whose requestor has no flag join, in
their order. -/
structure Latches (requestors : Nat) (s : CommandScheduler) (fronts : List BusPacket) (p p' : RocState)
    (entered : List BusPacket) : Prop where
  built : Built requestors p'
  latched : Latched Entry.requestor s p'.entries p'.pending
  held : p'.held.Perm (p.held ++ entered)
  sound : ∀ c ∈ entered, c ∈ fronts ∧ p.pending c.requestorID = false ∧ s.isReady c 0 = true
  complete : ∀ c ∈ fronts, p.pending c.requestorID = false → s.isReady c 0 = true → c ∈ entered

variable {s : CommandScheduler}

theorem Joined.latched (joined : Joined requestors p c p')
    (latched : Latched Entry.requestor s p.entries p.pending)
    (front : (s.bufferOf 0 c.requestorID).head? = some c) (ready : s.isReady c 0 = true)
    (free : p.pending c.requestorID = false) :
    Latched Entry.requestor s p'.entries p'.pending := by
  have pushed : Latched Entry.requestor s (p.entries ++ [(c, 0)]) p'.pending :=
    latched.push (e := (c, 0)) front ready free joined.pending
  apply pushed.perm
  have moved := joined.held.map fun c : BusPacket => ((c, 0) : Entry)
  exact List.perm_append_comm.trans moved.symm

theorem foldlM_latchRequestor {fronts : List BusPacket}
    (heads : ∀ c ∈ fronts, (s.bufferOf 0 c.requestorID).head? = some c)
    (fit : ∀ c ∈ fronts, Fits requestors 0 c) (built : Built requestors p)
    (latched : Latched Entry.requestor s p.entries p.pending) (before : List Entry) :
    ∃ p' entered, fronts.foldlM (latchRequestor s 0) (p, before) =
        some (p', before ++ entered.map (·, 0)) ∧
      Latches requestors s fronts p p' entered := by
  induction fronts generalizing p before with
  | nil => exact ⟨p, [], by simp, built, latched, by simp, by simp, by simp⟩
  | cons c fronts ih =>
    have here := heads c List.mem_cons_self
    have fits := fit c List.mem_cons_self
    have flag := Nat.lt_of_lt_of_le fits.2.2 built.flags
    have asked : p.queuePending[c.requestorID]? = some (p.pending c.requestorID) := by
      simp [RocState.pending, flag]
    have heads' := fun d hd => heads d (List.mem_cons_of_mem c hd)
    have fit' := fun d hd => fit d (List.mem_cons_of_mem c hd)
    by_cases goes : p.pending c.requestorID = false ∧ s.isReady c 0 = true
    · obtain ⟨p₁, pushed, joined⟩ := push_joined built fits
      have turn : latchRequestor s 0 (p, before) c = some (p₁, before ++ [(c, 0)]) := by
        simp [latchRequestor, asked, goes, pushed]
      obtain ⟨p', entered, folded, rest⟩ :=
        ih heads' fit' joined.built (joined.latched latched here goes.2 goes.1) (before ++ [(c, 0)])
      refine ⟨p', c :: entered, ?_, rest.built, rest.latched, ?_, fun d hd => ?_, fun d hd free ready => ?_⟩
      · rw [List.foldlM_cons, turn]
        simpa using folded
      · exact rest.held.trans ((joined.held.append_right entered).trans List.perm_middle.symm)
      · rcases List.mem_cons.mp hd with rfl | hd
        · exact ⟨List.mem_cons_self, goes⟩
        · obtain ⟨mem, free, ready⟩ := rest.sound d hd
          refine ⟨List.mem_cons_of_mem c mem, ?_, ready⟩
          rw [joined.pending] at free
          split at free
          · cases free
          · exact free
      · by_cases same : d.requestorID = c.requestorID
        · -- Two fronts of a requestor are the head of its buffer.
          have eq : some d = some c := by rw [← heads d hd, same, here]
          exact Option.some.inj eq ▸ List.mem_cons_self
        · have later : d ∈ fronts := (List.mem_cons.mp hd).resolve_left fun eq => same (eq ▸ rfl)
          have free' : p₁.pending d.requestorID = false := by rw [joined.pending, if_neg same, free]
          exact List.mem_cons_of_mem c (rest.complete d later free' ready)
    · have turn : latchRequestor s 0 (p, before) c = some (p, before) := by
        simp only [latchRequestor, asked, Option.bind_some, if_neg goes]
      obtain ⟨p', entered, folded, rest⟩ := ih heads' fit' built latched before
      refine ⟨p', entered, ?_, rest.built, rest.latched, rest.held, fun d hd => ?_,
        fun d hd free ready => ?_⟩
      · rw [List.foldlM_cons, turn]
        exact folded
      · exact ⟨List.mem_cons_of_mem c (rest.sound d hd).1, (rest.sound d hd).2⟩
      · rcases List.mem_cons.mp hd with rfl | later
        · exact absurd ⟨free, ready⟩ goes
        · exact rest.complete d later free ready

/-- **Level 3**, where there is one queue: nothing while the flag of requestor 0 is up, else all its
fronts. -/
theorem foldlM_latch (shaped : s.Shaped true) (holds : s.Holds (Fits requestors)) (one : s.queueCount = 1)
    (some_requestor : 0 < requestors) (built : Built requestors p)
    (latched : Latched Entry.requestor s p.entries p.pending) :
    ∃ p' entered, (List.range s.queueCount).foldlM (latch s) (p, []) =
        some (p', entered.map (·, 0)) ∧
      Latches requestors s (if p.pending 0 then [] else (s.commandQueue 0).requestorFronts) p p'
        entered := by
  have flag := Nat.lt_of_lt_of_le some_requestor built.flags
  have asked : p.queuePending[0]? = some (p.pending 0) := by simp [RocState.pending, flag]
  have only : (List.range s.queueCount).foldlM (latch s) (p, []) = latch s (p, []) 0 := by
    simp [one]
  rw [only, latch, asked, Option.bind_some]
  cases p.pending 0 with
  | true => exact ⟨p, [], rfl, built, latched, by simp, by simp, by simp⟩
  | false =>
    have heads : ∀ c ∈ (s.commandQueue 0).requestorFronts, (s.bufferOf 0 c.requestorID).head? = some c :=
      fun _ => Orp.head_of_requestorFronts shaped
    exact foldlM_latchRequestor heads
      (fun c hc => holds 0 _ c (List.mem_of_mem_head? (heads c hc))) built latched []

/-! ## Level 2 -/

/-- The places held what they hold now, and what left them. -/
structure Leaves (requestors : Nat) (p : RocState) (left : Option BusPacket) (p' : RocState) : Prop where
  held : p.held.Perm (left.toList ++ p'.held)
  flags : p'.queuePending = p.queuePending
  built : Built requestors p'

theorem Leaves.refl (built : Built requestors p) : Leaves requestors p none p := ⟨.refl _, rfl, built⟩

theorem Leaves.trans {p₁ : RocState} {left : Option BusPacket} (first : Leaves requestors p none p₁)
    (next : Leaves requestors p₁ left p') : Leaves requestors p left p' :=
  ⟨first.held.trans next.held, next.flags.trans first.flags, next.built⟩

/-- A register that was empty and holds a command. -/
theorem register_join {registers : List (Option BusPacket)} {rank : Nat}
    (at_ : registers[rank]? = some none) (c : BusPacket) :
    ((registers.set rank (some c)).flatMap Option.toList).Perm (c :: registers.flatMap Option.toList) :=
  Lib.Places.flatMap_set_join at_ (.refl _)

/-- A register whose command was taken. -/
theorem register_leave {registers : List (Option BusPacket)} {rank : Nat}
    (at_ : registers[rank]? = some (some c)) :
    (registers.flatMap Option.toList).Perm (c :: (registers.set rank none).flatMap Option.toList) :=
  Lib.Places.flatMap_set_leave at_ (.refl _)

/-- A FIFO that a command was taken from. -/
theorem fifo_leave {fifos : List (List BusPacket)} {rank : Nat} {fifo rest : List BusPacket}
    (at_ : fifos[rank]? = some fifo) (left : fifo.Perm (c :: rest)) :
    (fifos.flatMap id).Perm (c :: (fifos.set rank rest).flatMap id) :=
  Lib.Places.flatMap_set_leave at_ left

theorem found_at {α : Type} {l : List α} {i : Nat} (bound : i < l.length) : ∃ a, l[i]? = some a :=
  ⟨_, List.getElem?_eq_getElem bound⟩

variable (can : BusPacket → Bool) {rank : Nat}

theorem promotePA_leaves (built : Built requestors p) (bound : rank < ranks) :
    ∃ p', promotePA can p rank = some p' ∧ Leaves requestors p none p' := by
  obtain ⟨fifo, in_fifo⟩ := found_at (Nat.lt_of_lt_of_le bound built.fifoPA)
  obtain ⟨register, in_register⟩ := found_at (Nat.lt_of_lt_of_le bound built.registerPA)
  unfold promotePA
  rw [in_fifo, in_register]
  cases register with
  | some _ => exact ⟨p, rfl, .refl built⟩
  | none =>
    dsimp only
    cases found : Lib.Scan.firstThat can fifo with
    | none => exact ⟨p, rfl, .refl built⟩
    | some r =>
      obtain ⟨before, after, stops⟩ := Lib.Scan.firstFree_split found
      obtain ⟨h₁, h₂, h₃, h₄, h₅, h₆, h₇, h₈⟩ := built
      refine ⟨_, rfl, List.perm_iff_count.mpr fun a => ?_, rfl, by constructor <;> simp <;> assumption⟩
      have erased : fifo.Perm (r.2 :: fifo.eraseIdx r.1) := by
        rw [stops.eraseIdx]
        nth_rewrite 1 [stops.split]
        exact List.perm_middle
      have taken := (fifo_leave in_fifo erased).count_eq a
      have put := (register_join in_register r.2).count_eq a
      simp only [RocState.held, Option.toList_none, List.nil_append, List.count_append,
        List.count_cons] at taken put ⊢
      omega

theorem promoteCAS_leaves (built : Built requestors p) (bound : rank < ranks) :
    ∃ p', promoteCAS p rank = some p' ∧ Leaves requestors p none p' := by
  obtain ⟨fifo, in_fifo⟩ := found_at (Nat.lt_of_lt_of_le bound built.fifoCAS)
  obtain ⟨register, in_register⟩ := found_at (Nat.lt_of_lt_of_le bound built.registerCAS)
  unfold promoteCAS
  rw [in_fifo, in_register]
  cases fifo with
  | nil => exact ⟨p, rfl, .refl built⟩
  | cons c rest =>
    cases register with
    | some _ => exact ⟨p, rfl, .refl built⟩
    | none =>
      obtain ⟨h₁, h₂, h₃, h₄, h₅, h₆, h₇, h₈⟩ := built
      refine ⟨_, rfl, List.perm_iff_count.mpr fun a => ?_, rfl, by constructor <;> simp <;> assumption⟩
      have taken := (fifo_leave in_fifo (.refl _)).count_eq a
      have put := (register_join in_register c).count_eq a
      simp only [RocState.held, Option.toList_none, List.nil_append, List.count_append,
        List.count_cons] at taken put ⊢
      omega

/-- **Level 2** moves commands between their places. -/
theorem level2_leaves (built : Built requestors p) :
    ∃ p', level2 can p = some p' ∧ Leaves requestors p none p' := by
  have turns : ∀ l : List Nat, (∀ rank ∈ l, rank < ranks) → ∀ p, Built requestors p →
      ∃ p', l.foldlM (fun p rank => (promotePA can p rank).bind fun p => promoteCAS p rank) p =
        some p' ∧ Leaves requestors p none p' := by
    intro l bounds
    induction l with
    | nil => exact fun p built => ⟨p, rfl, .refl built⟩
    | cons rank l ih =>
      intro p built
      obtain ⟨bound, bounds⟩ := List.forall_mem_cons.mp bounds
      obtain ⟨p₁, promoted, first⟩ := promotePA_leaves can built bound
      obtain ⟨p₂, promoted', second⟩ := promoteCAS_leaves first.built bound
      obtain ⟨p', rest, third⟩ := ih bounds p₂ second.built
      refine ⟨p', ?_, first.trans (second.trans third)⟩
      simpa [promoted, promoted'] using rest
  exact turns _ (fun _ => List.mem_range.mp) p built

/-! ## Level 1 -/

theorem advance_lt {size index : Nat} (bound : index < size) : advance size index < size := by
  unfold advance
  split <;> omega

/-- The turns end within the registers, at a candidate that its register holds. -/
theorem casTurns_spec (built : Built requestors p) (limit n : Nat) {index : Nat}
    (bound : index < p.l2_CAS.length) :
    ∃ left candidate, casTurns can p limit n index = some (left, candidate) ∧
      left < p.l2_CAS.length ∧
      ∀ i c, candidate = some (i, c) → p.l2_CAS[i]? = some (some c) := by
  induction n generalizing index with
  | zero => exact ⟨index, none, rfl, bound, by simp⟩
  | succ n ih =>
    obtain ⟨register, in_register⟩ := found_at bound
    obtain ⟨timer, in_timer⟩ := found_at (l := p.l2_CAStimer) (i := index) (by rw [built.timers]; exact bound)
    have next := ih (advance_lt bound)
    unfold casTurns
    rw [in_register, in_timer]
    cases register with
    | none => exact next
    | some c =>
      dsimp only
      split
      · refine ⟨_, _, rfl, ?_, fun i d eq => ?_⟩
        · split
          · exact advance_lt bound
          · exact bound
        · obtain ⟨rfl, rfl⟩ : index = i ∧ c = d := by simpa using eq
          exact in_register
      · exact next

/-- The search for the smallest timer ends within the registers. -/
theorem smaller_lt (p : RocState) {l : List Nat} (bounds : ∀ i ∈ l, i < p.l2_CAS.length) {st : Nat × Nat}
    (start : st.2 < p.l2_CAS.length) : (l.foldl (smaller p) st).2 < p.l2_CAS.length := by
  refine List.foldlRecOn (motive := fun st => st.2 < p.l2_CAS.length) l (smaller p) start
    fun st inside i hi => ?_
  unfold smaller
  split
  · split
    · exact bounds i hi
    · exact inside
  · exact inside

theorem smallest_spec (built : Built requestors p) :
    ∃ candidate, smallest p = some candidate ∧
      ∀ i c, candidate = some (i, c) → p.l2_CAS[i]? = some (some c) := by
  have four : ranks ≤ p.l2_CAS.length := built.registerCAS
  obtain ⟨front, head⟩ : ∃ front, p.l2_CAStimer.head? = some front := by
    rw [List.head?_eq_getElem?]
    exact found_at (by rw [built.timers]; unfold ranks at four; omega)
  unfold smallest
  rw [head, Option.bind_some]
  have inside := @smaller_lt p (List.range p.l2_CAStimer.length)
    (fun i hi => by rw [← built.timers]; exact List.mem_range.mp hi)
    (front, 0) (by unfold ranks at four; dsimp only; omega)
  obtain ⟨register, in_register⟩ := found_at inside
  dsimp only
  rw [in_register]
  refine ⟨_, rfl, fun i c eq => ?_⟩
  obtain ⟨d, rfl, pair⟩ := Option.map_eq_some_iff.mp eq
  obtain ⟨rfl, rfl⟩ : _ = i ∧ d = c := by simpa using pair
  exact in_register

theorem chosen_leaves (spec : DeviceSpec) (tCCD tRTR clock : Nat) {i : Nat} (built : Built requestors p)
    (at_ : p.l2_CAS[i]? = some (some c)) :
    Leaves requestors p (some c) (chosen spec tCCD tRTR clock p i c) := by
  obtain ⟨h₁, h₂, h₃, h₄, h₅, h₆, h₇, h₈⟩ := built
  refine ⟨List.perm_iff_count.mpr fun a => ?_, rfl, by constructor <;> simp [chosen] <;> assumption⟩
  have taken := (register_leave at_).count_eq a
  simp only [RocState.held, chosen, Option.toList_some, List.count_append, List.count_cons,
    List.count_nil] at taken ⊢
  omega

theorem selectCAS_leaves (spec : DeviceSpec) (tCCD tRTR clock : Nat) (built : Built requestors p) :
    ∃ p' left, selectCAS spec tCCD tRTR clock can p = some (p', left) ∧ Leaves requestors p left p' := by
  obtain ⟨index, turned, turns, bound, of_turns⟩ :=
    casTurns_spec can built (p.prevEnd + tRTR) p.l2_CAStimer.length built.indexCAS
  obtain ⟨h₁, h₂, h₃, h₄, h₅, h₆, h₇, h₈⟩ := built
  have moved : Leaves requestors p none { p with l2_CASindex := index } :=
    ⟨.refl _, rfl, by constructor <;> assumption⟩
  obtain ⟨candidate, searched, holds⟩ : ∃ candidate,
      orSmallest { p with l2_CASindex := index } turned = some candidate ∧ ∀ i c, candidate = some (i, c) → p.l2_CAS[i]? = some (some c) := by
    cases turned with
    | none => exact smallest_spec moved.built
    | some found => exact ⟨some found, rfl, of_turns⟩
  unfold selectCAS
  rw [turns, Option.bind_some]
  dsimp only
  rw [searched]
  rcases candidate with _ | ⟨i, c⟩
  · exact ⟨_, _, rfl, moved⟩
  · dsimp only [Option.map_some]
    split
    · exact ⟨_, _, rfl, moved.trans (chosen_leaves spec tCCD tRTR clock moved.built (holds i c rfl))⟩
    · exact ⟨_, _, rfl, moved⟩

/-- The same of the turns over the other registers. -/
theorem paTurns_spec (registers : List (Option BusPacket)) (n : Nat) {index : Nat}
    (bound : index < registers.length) :
    ∃ left candidate, paTurns can registers n index = some (left, candidate) ∧
      left < registers.length ∧ ∀ i c, candidate = some (i, c) → registers[i]? = some (some c) := by
  induction n generalizing index with
  | zero => exact ⟨index, none, rfl, bound, by simp⟩
  | succ n ih =>
    obtain ⟨register, in_register⟩ := found_at bound
    have next := ih (advance_lt bound)
    unfold paTurns
    rw [in_register]
    cases register with
    | none => exact next
    | some c =>
      dsimp only
      split
      · refine ⟨_, _, rfl, advance_lt bound, fun i d eq => ?_⟩
        obtain ⟨rfl, rfl⟩ : index = i ∧ c = d := by simpa using eq
        exact in_register
      · exact next

theorem selectPA_leaves (built : Built requestors p) :
    ∃ p' left, selectPA can p = some (p', left) ∧ Leaves requestors p left p' := by
  obtain ⟨index, turned, turns, bound, of_turns⟩ :=
    paTurns_spec can p.l2_PA p.l2_PA.length built.indexPA
  obtain ⟨h₁, h₂, h₃, h₄, h₅, h₆, h₇, h₈⟩ := built
  unfold selectPA
  rw [turns, Option.map_some]
  rcases turned with _ | ⟨i, c⟩
  · exact ⟨_, _, rfl, .refl _, rfl, by constructor <;> assumption⟩
  · refine ⟨_, _, rfl, List.perm_iff_count.mpr fun a => ?_, rfl, by constructor <;> simp <;> assumption⟩
    have taken := (register_leave (of_turns i c rfl)).count_eq a
    simp only [RocState.held, Option.toList_some, List.count_append, List.count_cons,
      List.count_nil] at taken ⊢
    omega

/-- **Level 1** takes out one command, or none. -/
theorem level1_leaves (spec : DeviceSpec) (tCCD tRTR clock : Nat) (built : Built requestors p) :
    ∃ p' left, level1 spec tCCD tRTR clock can p = some (p', left) ∧ Leaves requestors p left p' := by
  obtain ⟨p₁, left, selected, leaves⟩ := selectCAS_leaves can spec tCCD tRTR clock built
  unfold level1
  rw [selected, Option.bind_some]
  cases left with
  | some c => exact ⟨_, _, rfl, leaves⟩
  | none =>
    obtain ⟨p', left, other, rest⟩ := selectPA_leaves can leaves.built
    exact ⟨p', left, other, leaves.trans rest⟩

/-! ## A call -/

/-- The end of a call, with the command that level 1 took out. -/
inductive Sends (spec : DeviceSpec) (s : CommandScheduler) (p : RocState) :
    Option BusPacket → CommandScheduler → RocState → Prop
  | idle : Sends spec s p none { s with scheduledCommand := none } p
  | send (c : BusPacket) : Sends spec s p (some c) (s.issue spec c 0)
      { p with queuePending := p.queuePending.set c.requestorID false }

/-- A call: what level 3 latched, what levels 2 and 1 took out of the places, and what was sent. -/
structure Call (requestors : Nat) (spec : DeviceSpec) (s : CommandScheduler) (p : RocState)
    (s' : CommandScheduler) (p' : RocState) (entered : List BusPacket) (issued : Option BusPacket)
    (p₁ p₂ : RocState) : Prop where
  latches : Latches requestors s (if p.pending 0 then [] else (s.commandQueue 0).requestorFronts)
    (pushVectors requestors s p) p₁ entered
  leaves : Leaves requestors p₁ issued p₂
  sends : Sends spec s p₂ issued s' p'

/-- One queue of latched commands that the vectors have places for. -/
structure Piped (requestors : Nat) (s : CommandScheduler) (p : RocState) : Prop where
  one : s.queueCount = 1
  latching : Latching true (Fits requestors) Entry.requestor s p.entries p.pending

theorem Piped.pushVectors (piped : Piped requestors s p) :
    Latched Entry.requestor s (pushVectors requestors s p).entries
      (pushVectors requestors s p).pending := by
  have flags : (Roc.pushVectors requestors s p).pending = p.pending :=
    funext (pending_pushVectors s)
  rw [flags, RocState.entries, held_pushVectors]
  exact piped.latching.latched

/-- **A call goes through** once the vectors are there. -/
theorem schedule_call (spec : DeviceSpec) (tCCD tRTR : Nat) (check : Answers)
    (some_requestor : 0 < requestors) (piped : Piped requestors s p)
    (built : Built requestors (pushVectors requestors s p)) :
    ∃ s' p' entered issued p₁ p₂,
      schedule spec tCCD tRTR requestors check s p =
        some (s', p', { entered := entered.map (·, 0), issued := issued.map (·, 0) }) ∧
      Call requestors spec s p s' p' entered issued p₁ p₂ := by
  obtain ⟨p₁, entered, folded, latches⟩ := foldlM_latch piped.latching.shaped piped.latching.holds
    piped.one some_requestor built piped.pushVectors
  obtain ⟨p₂, promoted, moved⟩ := level2_leaves (s.isIssuable check) latches.built
  obtain ⟨p₃, issued, selected, taken⟩ :=
    level1_leaves (s.isIssuable check) spec tCCD tRTR s.clock moved.built
  have leaves := moved.trans taken
  rw [pending_pushVectors] at latches
  unfold schedule
  rw [folded, Option.bind_some, promoted, Option.bind_some, selected, Option.bind_some]
  cases issued with
  | none => exact ⟨_, _, entered, none, p₁, p₃, rfl, latches, leaves, .idle⟩
  | some c =>
    have here : c ∈ p₁.held := leaves.held.mem_iff.mpr List.mem_cons_self
    have fits := piped.latching.holds 0 _ c (List.mem_of_mem_head?
      (latches.latched.head (c, 0) (List.mem_map_of_mem here)))
    have flag : c.requestorID < p₃.queuePending.length :=
      Nat.lt_of_lt_of_le fits.2.2 leaves.built.flags
    refine ⟨_, _, entered, some c, p₁, p₃, ?_, latches, leaves, .send c⟩
    simp [send, flag]

section

variable {spec : DeviceSpec} {s' : CommandScheduler} {p₁ p₂ : RocState} {entered : List BusPacket}
  {issued : Option BusPacket}

/-- The command taken out is the head of its buffer. -/
theorem Call.head (call : Call requestors spec s p s' p' entered issued p₁ p₂) (h : issued = some c) :
    (s.bufferOf 0 c.requestorID).head? = some c := by
  subst h
  have here : c ∈ p₁.held := call.leaves.held.mem_iff.mpr List.mem_cons_self
  exact call.latches.latched.head (c, 0) (List.mem_map_of_mem here)

/-- **A call keeps what is latched.** -/
theorem Call.piped (piped : Piped requestors s p)
    (call : Call requestors spec s p s' p' entered issued p₁ p₂) :
    Piped requestors s' p' ∧ Built requestors p' := by
  obtain ⟨latches, leaves, sends⟩ := call
  have built := leaves.built
  have moved := leaves.held.map fun c : BusPacket => ((c, 0) : Entry)
  have flags : p₂.pending = p₁.pending := by
    funext k
    rw [RocState.pending, RocState.pending, leaves.flags]
  have all : Latching true (Fits requestors) Entry.requestor s p₁.entries p₁.pending :=
    ⟨piped.latching.shaped, piped.latching.holds, latches.latched⟩
  cases sends with
  | idle =>
    refine ⟨⟨piped.one, ?_⟩, built⟩
    have same : Latching true (Fits requestors) Entry.requestor s p'.entries p'.pending :=
      ⟨all.shaped, all.holds, flags ▸ latches.latched.perm moved⟩
    exact same.cleared none
  | send c =>
    have listed : Latching true (Fits requestors) Entry.requestor s ([] ++ (c, 0) :: p₂.entries)
        p₂.pending := ⟨all.shaped, all.holds, flags ▸ latches.latched.perm moved⟩
    have fits := listed.fits_entry (List.mem_cons_self (a := (c, 0)))
    have flag := Nat.lt_of_lt_of_le fits.2.2 built.flags
    refine ⟨⟨(queueCount_issue s spec c 0).trans piped.one, ?_⟩, ?_⟩
    · exact listed.issue Entry.requestor_separates spec (pending_set flag false)
    · obtain ⟨h₁, h₂, h₃, h₄, h₅, h₆, h₇, h₈⟩ := built
      constructor <;> simp <;> assumption

/-- The places after a call and what it sent are what they held and what joined. -/
theorem Call.held (call : Call requestors spec s p s' p' entered issued p₁ p₂) :
    (p.held ++ entered).Perm (issued.toList ++ p'.held) := by
  have joined := call.latches.held
  rw [held_pushVectors] at joined
  have left := call.leaves.held
  have same : p'.held = p₂.held := by
    cases call.sends <;> rfl
  rw [same]
  exact joined.symm.trans left

end

/-! ## Runs -/

/-- The calls come as the controller makes them: a command is asked for before the first tick. -/
def Punctual (calls : List SchedulerCall) : Prop :=
  ∀ before after, calls = before ++ .tick :: after → ∃ check, .commandSchedule check ∈ before

section

variable {spec : DeviceSpec} {table : Nat → Bool} {s' : CommandScheduler} {call : SchedulerCall}

theorem Piped.base (piped : Piped requestors s p) (fit : call.Inserts (Fits requestors))
    (step : BaseStep spec table s call s') : Piped requestors s' p := by
  refine ⟨?_, piped.latching.base (fun general => by cases general) fit step⟩
  cases step with
  | insertCommand => exact piped.one
  | refresh check => exact (commandQueue_refresh s spec check).2.trans piped.one
  | tick => exact piped.one

/-- The vectors were never pushed, or are there. -/
def Pushed (requestors : Nat) (p : RocState) : Prop := p = {} ∨ 0 < requestors ∧ Built requestors p

/-- A call for a command without the vectors is undefined. -/
theorem schedule_unbuilt (spec : DeviceSpec) (tCCD tRTR : Nat) (check : Answers) (one : s.queueCount = 1)
    (missing : s.clock ≠ 1 ∨ requestors = 0) :
    schedule spec tCCD tRTR requestors check s {} = none := by
  have flags : (pushVectors requestors s {}).queuePending = [] := by
    unfold pushVectors
    split
    · next first =>
      obtain rfl := missing.resolve_left (not_not_intro first)
      rfl
    · rfl
  simp [schedule, one, latch, flags]

/-- A call for a command that goes through, taken apart. -/
theorem call_of_schedule {tCCD tRTR : Nat} {check : Answers} {record : FifoRecord}
    (piped : Piped requestors s p) (pushed : Pushed requestors p)
    (h : schedule spec tCCD tRTR requestors check s p = some (s', p', record)) :
    0 < requestors ∧ ∃ entered issued p₁ p₂,
      record = { entered := entered.map (·, 0), issued := issued.map (·, 0) } ∧
        Call requestors spec s p s' p' entered issued p₁ p₂ := by
  have ready : 0 < requestors ∧ Built requestors (pushVectors requestors s p) := by
    by_cases first : s.clock = 1
    · rcases Nat.eq_zero_or_pos requestors with none | some
      · rcases pushed with rfl | built
        · rw [schedule_unbuilt spec tCCD tRTR check piped.one (.inr none)] at h
          cases h
        · exact absurd none (Nat.ne_of_gt built.1)
      · exact ⟨some, built_pushVectors first (pushed.imp_right (·.2))⟩
    · rcases pushed with rfl | built
      · rw [schedule_unbuilt spec tCCD tRTR check piped.one (.inl first)] at h
        cases h
      · simpa [pushVectors, first] using built
  obtain ⟨t, q, entered, issued, p₁, p₂, scheduled, call⟩ :=
    schedule_call spec tCCD tRTR check ready.1 piped ready.2
  rw [scheduled] at h
  obtain ⟨rfl, rfl, rfl⟩ : t = s' ∧ q = p' ∧ _ = record := by simpa using h
  exact ⟨ready.1, entered, issued, p₁, p₂, rfl, call⟩

/-- What a run has inserted, latched and sent. -/
structure History (requestors : Nat) (calls : List SchedulerCall) (st : CommandScheduler × RocState)
    (told : List (Option FifoRecord)) : Prop where
  piped : Piped requestors st.1 st.2
  pushed : Pushed requestors st.2
  entered : ∀ e ∈ st.2.entries, e ∈ enteredOf told
  buffered : Buffered true (insertedOf calls) (issuedOf told) st.1

theorem history_create (requestors : Nat) (m : RefreshMachine) :
    History requestors [] (create 1 true m, {}) [] where
  piped := ⟨rfl, .create true (Fits requestors) Entry.requestor 1 m⟩
  pushed := .inl rfl
  entered _ h := by cases h
  buffered := .create 1 true m

variable {calls : List SchedulerCall} {told : List (Option FifoRecord)}

theorem History.base (history : History requestors calls (s, p) told)
    (fit : call.Inserts (Fits requestors)) (step : BaseStep spec table s call s') :
    History requestors (calls ++ [call]) (s', p) (told ++ [none]) := by
  have shaped := history.piped.latching.shaped
  refine ⟨history.piped.base fit step, history.pushed, ?_, ?_⟩
  · simpa [enteredOf] using history.entered
  · have issued : issuedOf (told ++ [none]) = issuedOf told := by simp [issuedOf]
    rw [issued, insertedOf_append]
    cases step with
    | @insertCommand index command =>
      exact history.buffered.insertCommand shaped (command, index) fun general => by cases general
    | refresh check =>
      simpa [SchedulerCall.inserted] using history.buffered.congr (bufferOf_refresh s spec check)
    | tick => simpa [SchedulerCall.inserted] using history.buffered.congr shaped.bufferOf_tick

theorem History.extend {entered : List BusPacket} {issued : Option BusPacket} {p₁ p₂ : RocState}
    {check : Answers} (some_requestor : 0 < requestors) (history : History requestors calls (s, p) told)
    (call : Call requestors spec s p s' p' entered issued p₁ p₂) :
    History requestors (calls ++ [.commandSchedule check]) (s', p')
      (told ++ [some { entered := entered.map (·, 0), issued := issued.map (·, 0) }]) := by
  obtain ⟨piped, built⟩ := call.piped history.piped
  refine ⟨piped, .inr ⟨some_requestor, built⟩, fun e he => ?_, ?_⟩
  · obtain ⟨c, hc, rfl⟩ := List.mem_map.mp he
    rw [enteredOf_append]
    have before := call.held.mem_iff.mpr (List.mem_append_right issued.toList hc)
    rcases List.mem_append.mp before with earlier | now
    · exact List.mem_append_left _ (history.entered _ (List.mem_map_of_mem earlier))
    · exact List.mem_append_right _ (List.mem_map_of_mem now)
  · have inserted : insertedOf (calls ++ [.commandSchedule check]) = insertedOf calls := by
      rw [insertedOf_append]
      simp [SchedulerCall.inserted]
    rw [inserted, issuedOf_append]
    have head := fun c => call.head (c := c)
    cases call.sends with
    | idle =>
      rw [Option.map_none, Option.toList_none, List.append_nil]
      exact history.buffered.congr fun _ _ => rfl
    | send c =>
      exact history.buffered.issue (e := (c, 0)) history.piped.latching.shaped spec (head c rfl)

/-- Every run has its history. -/
theorem run_history {tCCD tRTR : Nat} {m : RefreshMachine} {st : CommandScheduler × RocState}
    (fit : ∀ call ∈ calls, call.Inserts (Fits requestors))
    (ran : Lib.Machine.run ((schedule spec tCCD tRTR requestors).step spec table) (create 1 true m, {})
      calls = some (st, told)) : History requestors calls st told := by
  refine Lib.Machine.run_history_along (History requestors)
    (P := fun _ call _ _ => call.Inserts (Fits requestors)) (fun {is st os i st' o} history h fit => ?_)
    (history_create requestors m) (Lib.Machine.along_of_forall _ _ fit) ran
  obtain ⟨s, p⟩ := st
  rcases Scheduling.step_cases h with ⟨s', base, rfl, rfl⟩ | ⟨_, _, _, _, rfl, scheduled, rfl, rfl⟩
  · exact history.base fit base
  · obtain ⟨some_requestor, entered, issued, p₁, p₂, rfl, call⟩ :=
      call_of_schedule history.piped history.pushed scheduled
    exact history.extend some_requestor call

/-- A call that asks for no command is answered by the base class. -/
theorem base_answered (spec : DeviceSpec) (table : Nat → Bool) (tCCD tRTR : Nat)
    (piped : Piped requestors s p) (fit : call.Inserts (Fits requestors))
    (other : ∀ check, call ≠ .commandSchedule check) :
    ∃ s', BaseStep spec table s call s' ∧
      (schedule spec tCCD tRTR requestors).step spec table (s, p) call = some ((s', p), none) := by
  cases call with
  | insertCommand index command =>
    have only : index = 0 := (fit (command, index) rfl).1
    have bound : index < s.queueCount := by
      rw [only, piped.one]
      exact Nat.one_pos
    exact ⟨_, .insertCommand bound, if_pos bound⟩
  | refresh check => exact ⟨_, .refresh check, rfl⟩
  | tick => exact ⟨_, .tick, rfl⟩
  | commandSchedule check => exact absurd rfl (other check)

/-- Once the vectors are there, every call is answered. -/
theorem run_built (spec : DeviceSpec) (table : Nat → Bool) (tCCD tRTR : Nat) (some_requestor : 0 < requestors)
    (fit : ∀ call ∈ calls, call.Inserts (Fits requestors)) (piped : Piped requestors s p)
    (built : Built requestors p) :
    ∃ st told, Lib.Machine.run ((schedule spec tCCD tRTR requestors).step spec table) (s, p) calls =
      some (st, told) := by
  refine Lib.Machine.run_defined
    (fun st : CommandScheduler × RocState => Piped requestors st.1 st.2 ∧ Built requestors st.2)
    (SchedulerCall.Inserts (Fits requestors)) ?_ ⟨piped, built⟩ fit
  rintro ⟨s, p⟩ call ⟨piped, built⟩ fit
  by_cases asks : ∃ check, call = .commandSchedule check
  · obtain ⟨check, rfl⟩ := asks
    have pushed : Built requestors (pushVectors requestors s p) := by
      by_cases first : s.clock = 1
      · exact built_pushVectors first (.inr built)
      · simpa [pushVectors, first] using built
    obtain ⟨s', p', entered, issued, p₁, p₂, scheduled, call⟩ :=
      schedule_call spec tCCD tRTR check some_requestor piped pushed
    exact ⟨_, _, Scheduling.step_commandSchedule spec table scheduled, call.piped piped⟩
  · obtain ⟨s', base, answered⟩ :=
      base_answered spec table tCCD tRTR piped fit fun check eq => asks ⟨check, eq⟩
    exact ⟨_, _, answered, piped.base fit base, built⟩

/-- **Every run goes through** in which a command is asked for before the first tick. -/
theorem run_punctual (spec : DeviceSpec) (table : Nat → Bool) (tCCD tRTR : Nat)
    (some_requestor : 0 < requestors) (fit : ∀ call ∈ calls, call.Inserts (Fits requestors))
    (punctual : Punctual calls) (piped : Piped requestors s {}) (first : s.clock = 1) :
    ∃ st told, Lib.Machine.run ((schedule spec tCCD tRTR requestors).step spec table) (s, {}) calls =
      some (st, told) := by
  induction calls generalizing s with
  | nil => exact ⟨_, _, rfl⟩
  | cons call calls ih =>
    obtain ⟨here, later⟩ := List.forall_mem_cons.mp fit
    by_cases asks : ∃ check, call = .commandSchedule check
    · obtain ⟨check, rfl⟩ := asks
      obtain ⟨s', p', entered, issued, p₁, p₂, scheduled, made⟩ :=
        schedule_call spec tCCD tRTR check some_requestor piped (built_pushVectors first (.inl rfl))
      obtain ⟨piped', built⟩ := made.piped piped
      obtain ⟨st, told, ran⟩ := run_built spec table tCCD tRTR some_requestor later piped' built
      have answered := Scheduling.step_commandSchedule spec table scheduled
      exact ⟨st, _, Lib.Machine.run_cons_eq_some.mpr ⟨_, _, told, answered, ran, rfl⟩⟩
    · obtain ⟨s', base, answered⟩ :=
        base_answered spec table tCCD tRTR piped here fun check eq => asks ⟨check, eq⟩
      have rest : Punctual calls := by
        intro before after split
        obtain ⟨check, mem⟩ := punctual (call :: before) after (by rw [split]; rfl)
        exact ⟨check, (List.mem_cons.mp mem).resolve_left fun eq => asks ⟨check, eq.symm⟩⟩
      have still : s'.clock = 1 := by
        cases base with
        | insertCommand => exact first
        | refresh check => rw [clock_refresh, first]
        | tick =>
          obtain ⟨check, mem⟩ := punctual [] calls rfl
          cases mem
      obtain ⟨st, told, ran⟩ := ih later rest (piped.base here base) still
      exact ⟨st, _, Lib.Machine.run_cons_eq_some.mpr ⟨(s', {}), none, told, answered, ran, rfl⟩⟩

end

/-! ## The law -/

/-- The pipeline neither loses nor duplicates, of a run that made `calls`, told `told` and ended in `s`
and `p`. -/
structure Law (schedule : Scheduling RocState FifoRecord) (calls : List SchedulerCall)
    (told : List (Option FifoRecord)) (s : CommandScheduler) (p : RocState) : Prop where
  /-- A requestor with its flag up has one command in all places of all ranks together: the head of its
  buffer, which was latched and is ready. -/
  pending : ∀ r, p.pending r = true → ∃ c, p.held.filter (·.requestorID == r) = [c] ∧
    (s.bufferOf 0 r).head? = some c ∧ s.isReady c 0 = true ∧ (c, 0) ∈ enteredOf told
  /-- A requestor with its flag down has none. -/
  free : ∀ r, p.pending r = false → p.held.filter (·.requestorID == r) = []
  /-- What a call latches is the head of its buffer, and ready at the call. -/
  ready : ∀ {check s' p' record}, schedule check s p = some (s', p', record) →
    ∀ e ∈ record.entered, (s.bufferOf 0 e.1.requestorID).head? = some e.1 ∧ s.isReady e.1 0 = true
  /-- Of each requestor's buffer, what was inserted is what was sent and what still waits, in this
  order. -/
  insertionOrder : ∀ index id, (insertedOf calls).filter (Entry.inBuffer true index id) =
    (issuedOf told).filter (Entry.inBuffer true index id) ++ (s.bufferOf index id).map (·, index)

/-- Of elements with distinct keys, one has a key that is there. -/
theorem filter_requestor {l : List BusPacket} (once : (l.map (·.requestorID)).Nodup) {c : BusPacket}
    (mem : c ∈ l) : l.filter (·.requestorID == c.requestorID) = [c] := by
  induction l with
  | nil => cases mem
  | cons d l ih =>
    have cons : (d.requestorID :: l.map (·.requestorID)).Nodup := once
    obtain ⟨fresh, rest⟩ := List.nodup_cons.mp cons
    by_cases same : d.requestorID = c.requestorID
    · rw [same] at fresh
      have others : l.filter (·.requestorID == c.requestorID) = [] :=
        List.filter_eq_nil_iff.mpr fun e he eq => fresh (eq_of_beq eq ▸ List.mem_map_of_mem he)
      have here : c = d :=
        (List.mem_cons.mp mem).resolve_right fun later => fresh (List.mem_map_of_mem later)
      rw [List.filter_cons_of_pos (by simp [same]), others, here]
    · have later := (List.mem_cons.mp mem).resolve_left fun eq => same (eq ▸ rfl)
      simp [same, ih rest later]

theorem History.law {spec : DeviceSpec} {tCCD tRTR : Nat} {calls : List SchedulerCall}
    {told : List (Option FifoRecord)} (history : History requestors calls (s, p) told) :
    Law (schedule spec tCCD tRTR requestors) calls told s p := by
  have latched := history.piped.latching.latched
  have keys : p.entries.map Entry.requestor = p.held.map (·.requestorID) := by
    simp [RocState.entries, Entry.requestor, Function.comp_def]
  have once := latched.once
  rw [keys] at once
  refine ⟨fun r up => ?_, fun r down => ?_, fun h e he => ?_, history.buffered⟩
  · obtain ⟨e, he, rfl⟩ := List.mem_map.mp ((latched.pending r).mp up)
    obtain ⟨c, hc, rfl⟩ := List.mem_map.mp he
    exact ⟨c, filter_requestor once hc, latched.head _ he, latched.ready _ he, history.entered _ he⟩
  · apply List.filter_eq_nil_iff.mpr
    intro c hc eq
    have up := (latched.pending r).mpr (eq_of_beq eq ▸ List.mem_map_of_mem (List.mem_map_of_mem hc))
    rw [up] at down
    cases down
  · obtain ⟨-, entered, issued, p₁, p₂, rfl, call⟩ :=
      call_of_schedule history.piped history.pushed h
    obtain ⟨c, hc, rfl⟩ := List.mem_map.mp he
    obtain ⟨front, -, is_ready⟩ := call.latches.sound c hc
    refine ⟨?_, is_ready⟩
    split at front
    · cases front
    · exact Orp.head_of_requestorFronts history.piped.latching.shaped front

/-- **The ROC pipeline neither loses nor duplicates commands**: in every run of insertions, refreshes,
scheduling calls and ticks, with any answers of the device, each requestor with its flag up has one
command in the pipeline, and commands of a requestor are sent once and in order of insertion. A run in
which a command is asked for before the first tick, as the controller does, always goes through. -/
theorem pipeline_once (spec : DeviceSpec) (table : Nat → Bool) (tCCD tRTR requestors : Nat)
    (m : RefreshMachine) (calls : List SchedulerCall)
    (fit : ∀ call ∈ calls, call.Inserts (Fits requestors)) :
    (∀ s p told, Lib.Machine.run ((schedule spec tCCD tRTR requestors).step spec table)
        (create 1 true m, {}) calls = some ((s, p), told) →
      Law (schedule spec tCCD tRTR requestors) calls told s p) ∧
    (0 < requestors → Punctual calls →
      ∃ st told, Lib.Machine.run ((schedule spec tCCD tRTR requestors).step spec table)
        (create 1 true m, {}) calls = some (st, told)) :=
  ⟨fun _ _ _ ran => (run_history fit ran).law, fun some_requestor punctual =>
    run_punctual spec table tCCD tRTR some_requestor fit punctual (history_create requestors m).piped rfl⟩

/-- Two requestors: the read of the first is refused and waits in a register while the second's goes
through all levels. -/
def twoRequestorCalls : List SchedulerCall :=
  [.insert 0 .RD 0 0, .insert 0 .ACT 1 1, .commandSchedule fun _ => false, .tick,
    .commandSchedule fun c => c.requestorID = 1, .insert 0 .RD 1 1, .tick]

/-- The law at a run that sends one command and holds another back. -/
theorem pipeline_once_heldBack :
    ∃ st told, Lib.Machine.run
        ((schedule openPageSetup.device 4 2 2).step openPageSetup.device fun _ => true)
        (create 1 true (.create .none openPageSetup.device 0 0), {}) twoRequestorCalls =
          some (st, told) ∧
      Law (schedule openPageSetup.device 4 2 2) twoRequestorCalls told st.1 st.2 ∧
      st.2.held.map (·.requestorID) = [0] ∧ st.1.memoryDevice.commandTrace.map (·.requestorID) = [1] := by
  have fit : ∀ call ∈ twoRequestorCalls, call.Inserts (Fits 2) := by
    simp [twoRequestorCalls, SchedulerCall.insert, SchedulerCall.Inserts, SchedulerCall.inserted,
      sampleCommand, Fits, ranks]
  obtain ⟨st, told, ran, waits⟩ := Lib.Machine.run_exists
    ((schedule openPageSetup.device 4 2 2).step openPageSetup.device fun _ => true)
    (fun st => st.2.held.map (·.requestorID) = [0] ∧
      st.1.memoryDevice.commandTrace.map (·.requestorID) = [1])
    (create 1 true (.create .none openPageSetup.device 0 0), {}) twoRequestorCalls (by decide +kernel)
  exact ⟨st, told, ran, (pipeline_once _ _ 4 2 2 _ _ fit).1 st.1 st.2 told ran, waits⟩

/-! ## Whom level 3 latches -/

/-- A requestor that has a buffer is listed. -/
def Listed (s : CommandScheduler) : Prop :=
  ∀ id, ((s.commandQueue 0).requestorBuffer id).isSome = true → id ∈ (s.commandQueue 0).requestorMap

/-- The head of a buffer is among the fronts. -/
theorem Listed.front (listed : Listed s) (shaped : s.Shaped true) {r : Nat}
    (head : (s.bufferOf 0 r).head? = some c) : c ∈ (s.commandQueue 0).requestorFronts := by
  have buffer : ((s.commandQueue 0).buffer r).head? = some c := by
    simpa [bufferOf, CommandQueue.lane, CommandQueue.isPerRequestor, (shaped 0).kind] using head
  have some_buffer : ((s.commandQueue 0).requestorBuffer r).isSome = true := by
    cases h : (s.commandQueue 0).requestorBuffer r with
    | none => simp [CommandQueue.buffer, h] at buffer
    | some l => rfl
  exact List.mem_filterMap.mpr ⟨r, listed r some_buffer, buffer⟩

theorem Listed.base {spec : DeviceSpec} {table : Nat → Bool} {call : SchedulerCall} {s' : CommandScheduler}
    (listed : Listed s) (shaped : s.Shaped true) (step : BaseStep spec table s call s') : Listed s' := by
  cases step with
  | @insertCommand index command bound =>
    intro id has
    by_cases here : 0 = index
    · have kind := (shaped index).kind
      have known := listed id
      simp only [CommandScheduler.insertCommand, setQueue, ← here, if_true, CommandQueue.insertCommand,
        (shaped 0).kind] at has ⊢
      by_cases mine : id = command.requestorID
      · subst mine
        split
        · simp
        · next there => exact known (by simpa [Option.isSome_iff_ne_none] using there)
      · rw [if_neg mine] at has
        split
        · exact List.mem_append_left _ (known has)
        · exact known has
    · simp only [CommandScheduler.insertCommand, setQueue, if_neg here] at has ⊢
      exact listed id has
  | refresh check =>
    unfold Listed
    rw [(commandQueue_refresh s spec check).1]
    exact listed
  | tick =>
    unfold Listed
    rw [shaped.commandQueue_tick]
    exact listed

theorem Call.listed {spec : DeviceSpec} {s' : CommandScheduler} {entered : List BusPacket}
    {issued : Option BusPacket} {p₁ p₂ : RocState} (listed : Listed s) (shaped : s.Shaped true)
    (call : Call requestors spec s p s' p' entered issued p₁ p₂) : Listed s' := by
  have head := fun c => call.head (c := c)
  cases call.sends with
  | idle => exact listed
  | send c =>
    have taken : (s.issue spec c 0).commandQueue 0 =
        (s.commandQueue 0).removeRequestorCommand c.requestorID := by
      rw [commandQueue_issue, if_pos rfl]
      simp [CommandQueue.taken, CommandQueue.isPerRequestor, (shaped 0).kind]
    intro id has
    rw [taken] at has ⊢
    by_cases mine : id = c.requestorID
    · subst mine
      obtain ⟨r, mem, front⟩ := List.mem_filterMap.mp (listed.front shaped (head c rfl))
      have own := (shaped 0).owned r c (List.mem_of_mem_head? front)
      exact own ▸ mem
    · apply listed id
      simpa [CommandQueue.removeRequestorCommand, mine] using has

theorem run_listed {spec : DeviceSpec} {table : Nat → Bool} {tCCD tRTR : Nat} {m : RefreshMachine}
    {calls : List SchedulerCall} {st : CommandScheduler × RocState} {told : List (Option FifoRecord)}
    (fit : ∀ call ∈ calls, call.Inserts (Fits requestors))
    (ran : Lib.Machine.run ((schedule spec tCCD tRTR requestors).step spec table) (create 1 true m, {})
      calls = some (st, told)) : Listed st.1 := by
  have start : (Piped requestors (create 1 true m) {} ∧ Pushed requestors {}) ∧ Listed (create 1 true m) :=
    ⟨⟨(history_create requestors m).piped, .inl rfl⟩, fun _ has => by cases has⟩
  refine (Lib.Machine.run_invariant_along
    (fun st : CommandScheduler × RocState =>
      (Piped requestors st.1 st.2 ∧ Pushed requestors st.2) ∧ Listed st.1)
    (P := fun _ call _ _ => call.Inserts (Fits requestors)) (fun {st i st' o} inv h fit => ?_) start
    (Lib.Machine.along_of_forall _ _ fit) ran).2
  obtain ⟨s, p⟩ := st
  obtain ⟨⟨piped, pushed⟩, listed⟩ := inv
  rcases Scheduling.step_cases h with ⟨s', base, rfl, rfl⟩ | ⟨_, _, _, _, rfl, scheduled, rfl, rfl⟩
  · exact ⟨⟨piped.base fit base, pushed⟩, listed.base piped.latching.shaped base⟩
  · obtain ⟨some_requestor, entered, issued, p₁, p₂, rfl, call⟩ := call_of_schedule piped pushed scheduled
    obtain ⟨piped', built⟩ := call.piped piped
    exact ⟨⟨piped', .inr ⟨some_requestor, built⟩⟩, call.listed listed piped.latching.shaped⟩

/-- Whom a call latches: nobody while the flag of requestor 0 is up, else each requestor whose flag is
down and whose head is ready. -/
theorem Call.mem_entered {spec : DeviceSpec} {s' : CommandScheduler} {entered : List BusPacket}
    {issued : Option BusPacket} {p₁ p₂ : RocState} (listed : Listed s) (shaped : s.Shaped true)
    (call : Call requestors spec s p s' p' entered issued p₁ p₂) {r : Nat}
    (head : (s.bufferOf 0 r).head? = some c) :
    c ∈ entered ↔ p.pending 0 = false ∧ p.pending r = false ∧ s.isReady c 0 = true := by
  have front := listed.front shaped head
  have own : c.requestorID = r := by
    have mem := List.mem_of_mem_head? head
    rw [bufferOf, CommandQueue.lane, CommandQueue.isPerRequestor, (shaped 0).kind, if_pos rfl] at mem
    exact (shaped 0).owned r c mem
  have flag : (pushVectors requestors s p).pending r = p.pending r := pending_pushVectors s r
  obtain ⟨-, -, -, sound, complete⟩ := call.latches
  constructor
  · intro mem
    obtain ⟨among, free, ready⟩ := sound c mem
    rw [own, flag] at free
    cases first : p.pending 0 with
    | true => simp [first] at among
    | false => exact ⟨rfl, free, ready⟩
  · rintro ⟨first, free, ready⟩
    refine complete c ?_ ?_ ready
    · rw [first]
      exact front
    · rw [own, flag]
      exact free

/-- Asking for a command is always punctual. -/
theorem Punctual.commandSchedule {calls : List SchedulerCall} (punctual : Punctual calls) (check : Answers) :
    Punctual (calls ++ [.commandSchedule check]) := by
  intro before after split
  rcases List.eq_nil_or_concat after with rfl | ⟨after, last, rfl⟩
  · obtain ⟨-, eq⟩ := List.append_inj' split rfl
    cases eq
  · rw [List.concat_eq_append, ← List.cons_append, ← List.append_assoc] at split
    obtain ⟨eq, -⟩ := List.append_inj' split rfl
    exact punctual before after eq

/-- **Whom level 3 latches.** In every reachable state, for every requestor with a command waiting: its
head is latched exactly if its flag is down and the head is ready, exactly where requestor 0 has no
command in the pipeline, or the requestor has one of its own or its head is not ready. -/
theorem latch_perRequestor (spec : DeviceSpec) (table : Nat → Bool) (tCCD tRTR requestors : Nat)
    (m : RefreshMachine) (calls : List SchedulerCall)
    (fit : ∀ call ∈ calls, call.Inserts (Fits requestors)) (punctual : Punctual calls)
    {s : CommandScheduler} {p : RocState} {told : List (Option FifoRecord)}
    (ran : Lib.Machine.run ((schedule spec tCCD tRTR requestors).step spec table) (create 1 true m, {})
      calls = some ((s, p), told))
    (check : Answers) {r : Nat} {c : BusPacket} (head : (s.bufferOf 0 r).head? = some c) :
    ∃ s' p' record, schedule spec tCCD tRTR requestors check s p = some (s', p', record) ∧
      (((c, 0) ∈ record.entered ↔ p.pending r = false ∧ s.isReady c 0 = true) ↔
        p.pending 0 = false ∨ p.pending r = true ∨ s.isReady c 0 = false) := by
  have history := run_history fit ran
  have shaped := history.piped.latching.shaped
  have fits := history.piped.latching.holds 0 r c (List.mem_of_mem_head? head)
  have some_requestor : 0 < requestors := Nat.zero_lt_of_lt fits.2.2
  have fit' : ∀ call ∈ calls ++ [.commandSchedule check], call.Inserts (Fits requestors) := by
    intro call mem
    rcases List.mem_append.mp mem with mem | mem
    · exact fit call mem
    · rw [List.mem_singleton.mp mem]
      intro e he
      cases he
  obtain ⟨st, outs, whole⟩ := run_punctual spec table tCCD tRTR some_requestor fit'
    (punctual.commandSchedule check) (history_create requestors m).piped rfl
  obtain ⟨mid, os₁, os₂, before, last, -⟩ := Lib.Machine.run_append_eq_some.mp whole
  obtain ⟨rfl, rfl⟩ : mid = (s, p) ∧ os₁ = told := by simpa [ran, eq_comm] using before
  obtain ⟨st', o, _, stepped, -, -⟩ := Lib.Machine.run_cons_eq_some.mp last
  rcases Scheduling.step_cases stepped with ⟨s', base, -, -⟩ | ⟨_, s', p', record, asked, scheduled, -, -⟩
  · cases base
  · obtain rfl : check = _ := by simpa using asked
    obtain ⟨-, entered, issued, p₁, p₂, rfl, call⟩ :=
      call_of_schedule history.piped history.pushed scheduled
    refine ⟨s', p', _, scheduled, ?_⟩
    have entering : (c, 0) ∈ entered.map (fun c : BusPacket => ((c, 0) : Entry)) ↔ c ∈ entered := by simp
    rw [entering, call.mem_entered (run_listed fit ran) shaped head]
    cases p.pending 0 <;> cases p.pending r <;> cases s.isReady c 0 <;> decide

/-- A requestor of its own, with nothing in the pipeline. -/
theorem latch_perRequestor_alone :
    ∃ st told, Lib.Machine.run
        ((schedule openPageSetup.device 4 2 2).step openPageSetup.device fun _ => true)
        (create 1 true (.create .none openPageSetup.device 0 0), {}) [.insert 0 .ACT 1 1] =
          some (st, told) ∧ st.2.pending 0 = false ∧
      ∃ s' p' record, schedule openPageSetup.device 4 2 2 (fun _ => false) st.1 st.2 =
          some (s', p', record) ∧
        (((sampleCommand .ACT 1 1, 0) ∈ record.entered ↔
            st.2.pending 1 = false ∧ st.1.isReady (sampleCommand .ACT 1 1) 0 = true) ↔
          st.2.pending 0 = false ∨ st.2.pending 1 = true ∨
            st.1.isReady (sampleCommand .ACT 1 1) 0 = false) := by
  have fit : ∀ call ∈ [SchedulerCall.insert 0 .ACT 1 1], call.Inserts (Fits 2) := by
    simp [SchedulerCall.insert, SchedulerCall.Inserts, SchedulerCall.inserted, sampleCommand, Fits, ranks]
  have punctual : Punctual [SchedulerCall.insert 0 .ACT 1 1] := by
    intro before after split
    have mem : SchedulerCall.tick ∈ [SchedulerCall.insert 0 .ACT 1 1] := by rw [split]; simp
    simp [SchedulerCall.insert] at mem
  obtain ⟨⟨s, p⟩, told, ran, down, head⟩ := Lib.Machine.run_exists
    ((schedule openPageSetup.device 4 2 2).step openPageSetup.device fun _ => true)
    (fun st => st.2.pending 0 = false ∧ (st.1.bufferOf 0 1).head? = some (sampleCommand .ACT 1 1))
    (create 1 true (.create .none openPageSetup.device 0 0), {}) [.insert 0 .ACT 1 1] (by decide +kernel)
  exact ⟨(s, p), told, ran, down, latch_perRequestor _ _ 4 2 2 _ _ fit punctual ran (fun _ => false) head⟩

/-- Requestor 0 has an activation in the pipeline that the device refuses. The other requestor's head is
ready and its flag is down, and nothing is latched. -/
theorem latch_requestorZero :
    ∃ st told, Lib.Machine.run
        ((schedule openPageSetup.device 4 2 2).step openPageSetup.device fun _ => true)
        (create 1 true (.create .none openPageSetup.device 0 0), {})
        [.insert 0 .ACT 0 0, .commandSchedule fun _ => false, .tick, .insert 0 .ACT 1 1] =
          some (st, told) ∧
      (st.1.bufferOf 0 1).head? = some (sampleCommand .ACT 1 1) ∧ st.2.pending 1 = false ∧
      st.1.isReady (sampleCommand .ACT 1 1) 0 = true ∧
      (schedule openPageSetup.device 4 2 2 (fun _ => false) st.1 st.2).map (·.2.2.entered) = some [] :=
  Lib.Machine.run_exists _ _ _ _ (by decide +kernel)

end Roc
end MCsim
