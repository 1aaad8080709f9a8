import Mathlib.Data.List.Nodup
import MCsim.Lib.Erase
import MCsim.Laws.Controller
import MCsim.Spec.Lane

/-!
# The books of the outstanding requests

`Books` is the agreement of the five containers a request's life goes through: the pending lists, the
request buffer, the queues of the banks, and the data under way in the device and in the controller.
For every requestor, address and type they form a `Lane`. The lemmas say how each event moves a lane
on: a request arrives, is taken, has a column access sent, has a beat delivered.
-/

namespace MCsim

/-! ## Requests that a packet cannot tell apart -/

/-- What a data packet and the list it is looked up in say of a request. -/
structure Key where
  isRead : Bool
  requestorID : Nat
  address : Nat
  deriving DecidableEq, Repr

def Request.key (r : Request) : Key :=
  { isRead := r.requestType == .DATA_READ, requestorID := r.requestorID, address := r.address }

def BusPacket.key (isRead : Bool) (p : BusPacket) : Key :=
  { isRead := isRead, requestorID := p.requestorID, address := p.address }

/-- The column access of a direction. -/
def casOf (isRead : Bool) : BusPacketType := if isRead then .RD else .WR

theorem casType_eq (r : Request) : CommandGenerator.casType r = casOf r.key.isRead := by
  unfold CommandGenerator.casType casOf Request.key
  cases r.requestType <;> rfl

/-- Where a requestor's address lies. -/
def Setup.home (setup : Setup) (requestorID address : Nat) : Request :=
  AddressMapping.addressMapping setup.build
    (AddressMapping.decodeIndex setup.format setup.memTable)
    { handle := 0, requestType := .DATA_READ, requestorID := requestorID, requestSize := 0,
      address := address, arriveTime := 0 }

/-- A request that was decoded for its requestor and address. -/
def AtHome (setup : Setup) (r : Request) : Prop :=
  r.bank = (setup.home r.requestorID r.address).bank ∧
    r.row = (setup.home r.requestorID r.address).row

namespace AddressMapping

/-- Requests with the same levels, from the same requestor. -/
def SameLevels (r s : Request) : Prop :=
  r.requestorID = s.requestorID ∧ r.rank = s.rank ∧ r.bankGroup = s.bankGroup ∧ r.bank = s.bank ∧
    r.subArray = s.subArray ∧ r.row = s.row ∧ r.col = s.col

theorem sameLevels_decode (index : List (MemOrg × Nat)) (x : Nat) {r s : Request}
    (h : SameLevels r s) :
    SameLevels (index.foldl decodeStep (x, r)).2 (index.foldl decodeStep (x, s)).2 := by
  induction index generalizing x r s with
  | nil => exact h
  | cons entry index ih =>
    apply ih _
    obtain ⟨h₁, h₂, h₃, h₄, h₅, h₆, h₇⟩ := h
    obtain ⟨level, bits⟩ := entry
    cases level <;> simp [SameLevels, assignLevel, *]

theorem sameLevels_privatize (build : Privatization) {r s : Request} (h : SameLevels r s) :
    SameLevels (privatize build r) (privatize build s) := by
  obtain ⟨h₁, h₂, h₃, h₄, h₅, h₆, h₇⟩ := h
  cases build <;> simp [SameLevels, privatize, *]

/-- The levels depend on the address and the requestor only. -/
theorem sameLevels_addressMapping (build : Privatization) (index : List (MemOrg × Nat))
    {r s : Request} (h : SameLevels r s) (address : r.address = s.address) :
    SameLevels (addressMapping build index r) (addressMapping build index s) := by
  have decoded := sameLevels_privatize build
    (sameLevels_decode index.reverse (r.address % 2 ^ 32) h)
  unfold addressMapping
  rw [← address]
  exact decoded

end AddressMapping

/-- An arriving request is at home. -/
theorem MemoryController.incoming_atHome {ρ κ : Type} (setup : Setup) (c : MemoryController ρ κ)
    (requestorID address : Nat) (R_W : Bool) (size : Nat) :
    AtHome setup (incoming setup c requestorID address R_W size) := by
  obtain ⟨_, _, sameID, _, sameAddress⟩ := incoming_same setup c requestorID address R_W size
  have same := AddressMapping.sameLevels_addressMapping setup.build
    (AddressMapping.decodeIndex setup.format setup.memTable)
    (r := { handle := c.nextHandle, requestType := if R_W then .DATA_READ else .DATA_WRITE,
            requestorID := requestorID, requestSize := size, address := address,
            arriveTime := c.clockCycle % 2 ^ 32 })
    (s := { handle := 0, requestType := .DATA_READ, requestorID := requestorID, requestSize := 0,
            address := address, arriveTime := 0 })
    ⟨rfl, rfl, rfl, rfl, rfl, rfl, rfl⟩ rfl
  unfold AtHome
  rw [sameID, sameAddress]
  exact ⟨same.2.2.2.1, same.2.2.2.2.2.1⟩

/-! ## The books -/

/-- The beat a column access or a data packet stands for. -/
def BusPacket.beat (p : BusPacket) : Nat × Bool := (p.origin, p.lastBeat)

/-- A column access of a lane. -/
def Key.cas (k : Key) (p : BusPacket) : Bool :=
  p.busPacketType == casOf k.isRead && p.key k.isRead == k

/-- The beats of a lane that are under way: data in flight, then queued column accesses. -/
def laneBeats (setup : Setup) (flight : Bool → List BusPacket) (queue : Nat → List BusPacket)
    (k : Key) : List (Nat × Bool) :=
  ((flight k.isRead).filter (·.key k.isRead == k) ++
    (queue (setup.home k.requestorID k.address).bank).filter k.cas).map BusPacket.beat

/-- Pending lists, request buffer, data in flight and the queues of the banks agree. -/
structure Books (setup : Setup) (pending : Bool → List Request) (buffered : List Request)
    (flight : Bool → List BusPacket) (queue : Nat → List BusPacket) : Prop where
  typed : ∀ isRead, ∀ r ∈ pending isRead, r.key.isRead = isRead
  sized : ∀ isRead, ∀ r ∈ pending isRead, Sized setup.dataBusWidth r.requestSize
  unique : ((pending true ++ pending false).map (·.handle)).Nodup
  homes : ∀ r ∈ buffered, AtHome setup r
  queued : ∀ bank, ∀ c ∈ queue bank, bank = (setup.home c.requestorID c.address).bank
  lanes : ∀ k : Key, Lane setup.dataBusWidth ((pending k.isRead).filter (·.key == k))
    (buffered.filter (·.key == k)) (laneBeats setup flight queue k)

namespace Books

variable {setup : Setup} {pending : Bool → List Request} {buffered : List Request}
  {flight : Bool → List BusPacket} {queue : Nat → List BusPacket}

theorem empty (setup : Setup) : Books setup (fun _ => []) [] (fun _ => []) fun _ => [] where
  typed := fun _ _ h => absurd h List.not_mem_nil
  sized := fun _ _ h => absurd h List.not_mem_nil
  unique := List.nodup_nil
  homes := fun _ h => absurd h List.not_mem_nil
  queued := fun _ _ h => absurd h List.not_mem_nil
  lanes := fun _ => Lane.empty _

/-- A pending request is known by its handle. -/
theorem eq_of_handle (b : Books setup pending buffered flight queue) {d d' : Bool} {r s : Request}
    (hr : r ∈ pending d) (hs : s ∈ pending d') (same : r.handle = s.handle) : r = s := by
  have mem : ∀ d, ∀ x ∈ pending d, x ∈ pending true ++ pending false := by
    intro d x hx
    cases d
    · exact List.mem_append_right _ hx
    · exact List.mem_append_left _ hx
  exact List.inj_on_of_nodup_map b.unique (mem d r hr) (mem d' s hs) same

theorem nodup_lane (b : Books setup pending buffered flight queue) (isRead : Bool) (k : Key) :
    ((pending isRead).filter (·.key == k)).Nodup := by
  apply List.Nodup.filter _
  have all := List.Nodup.of_map _ b.unique
  cases isRead
  · exact (List.nodup_append.mp all).2.1
  · exact (List.nodup_append.mp all).1

/-- What waits in the buffer is pending. -/
theorem mem_pending (b : Books setup pending buffered flight queue) {r : Request}
    (hr : r ∈ buffered) : r ∈ pending r.key.isRead := by
  have here : r ∈ buffered.filter (·.key == r.key) := List.mem_filter.mpr ⟨hr, by simp⟩
  exact (List.mem_filter.mp ((b.lanes r.key).subset r here)).1

/-- **A request arrives** at the end of its lane. -/
theorem arrive (b : Books setup pending buffered flight queue) {r : Request}
    (home : AtHome setup r) (size : Sized setup.dataBusWidth r.requestSize)
    (fresh : ∀ d, ∀ x ∈ pending d, x.handle ≠ r.handle) :
    Books setup (fun d => if d = r.key.isRead then pending d ++ [r] else pending d)
      (buffered ++ [r]) flight queue where
  typed := by
    intro d x hx
    split at hx
    · next e =>
      rcases List.mem_append.mp hx with hx | hx
      · exact b.typed d x hx
      · rw [List.mem_singleton.mp hx, e]
    · exact b.typed d x hx
  sized := by
    intro d x hx
    split at hx
    · rcases List.mem_append.mp hx with hx | hx
      · exact b.sized d x hx
      · rw [List.mem_singleton.mp hx]
        exact size
    · exact b.sized d x hx
  unique := by
    have old := b.unique
    have notRead := fresh true
    have notWrite := fresh false
    cases r.key.isRead <;>
      simp only [Bool.false_eq_true, Bool.true_eq_false, if_true, if_false, List.map_append,
        List.map_cons, List.map_nil, List.nodup_append, List.nodup_cons, List.not_mem_nil,
        not_false_eq_true, List.nodup_nil, and_self, true_and, List.mem_append,
        List.mem_singleton, List.mem_map] at old ⊢ <;>
      grind
  homes := by
    intro x hx
    rcases List.mem_append.mp hx with hx | hx
    · exact b.homes x hx
    · exact List.mem_singleton.mp hx ▸ home
  queued := b.queued
  lanes := by
    intro k
    have lane := b.lanes k
    by_cases e : r.key = k
    · subst e
      simpa using lane.arrive (r := r)
    · have other : (r.key == k) = false := by simpa using e
      have same : (if k.isRead = r.key.isRead then pending k.isRead ++ [r]
          else pending k.isRead).filter (·.key == k) =
          (pending k.isRead).filter (·.key == k) := by
        split <;> simp [other]
      rw [same, List.filter_append]
      simpa [other] using lane

/-- The lane of a request gets its beats, and no other lane gets any. -/
theorem commandsOf_lane {g : CommandGenerator} (width : g.dataBusSize = setup.dataBusWidth)
    (r : Request) (isOpen : Bool) (clockCycle : Nat) (k : Key) :
    (((g.commandsOf r isOpen).map (stamp clockCycle)).filter k.cas).map BusPacket.beat =
      if r.key = k then r.beatList setup.dataBusWidth else [] := by
  split
  · next e =>
    subst e
    have noRow : ((g.openCommands r isOpen).map (stamp clockCycle)).filter r.key.cas = [] := by
      apply List.filter_eq_nil_iff.mpr
      intro x hx
      obtain ⟨y, hy, rfl⟩ := List.mem_map.mp hx
      rcases CommandGenerator.mem_openCommands hy with rfl | rfl <;>
        simp [Key.cas, stamp, casOf] <;> split <;> simp
    have allCas : ((CommandGenerator.casCommands g.dataBusSize r).map (stamp clockCycle)).filter
        r.key.cas = (CommandGenerator.casCommands g.dataBusSize r).map (stamp clockCycle) := by
      apply List.filter_eq_self.mpr
      intro x hx
      obtain ⟨y, hy, rfl⟩ := List.mem_map.mp hx
      obtain ⟨type, _, _, id, address, _⟩ := CommandGenerator.mem_casCommands hy
      simp [Key.cas, stamp, type, casType_eq, BusPacket.key, id, address, Request.key]
    rw [CommandGenerator.commandsOf, List.map_append, List.filter_append, noRow, allCas,
      List.nil_append, List.map_map, ← width]
    exact CommandGenerator.casCommands_beats g.dataBusSize r
  · next e =>
    rw [List.map_eq_nil_iff, List.filter_eq_nil_iff]
    intro x hx cas
    obtain ⟨y, hy, rfl⟩ := List.mem_map.mp hx
    obtain ⟨_, _, _, type⟩ := CommandGenerator.mem_commandsOf hy
    obtain ⟨id, address⟩ := CommandGenerator.commandsOf_requestor hy
    simp only [Key.cas, stamp, BusPacket.key, Bool.and_eq_true, beq_iff_eq] at cas
    obtain ⟨sameType, sameKey⟩ := cas
    apply e
    have direction : r.key.isRead = k.isRead := by
      rw [casType_eq] at type
      rcases type with h | h | h <;> rw [h] at sameType <;> revert sameType <;>
        unfold casOf <;> cases r.key.isRead <;> cases k.isRead <;> simp
    rw [← sameKey, ← direction, id, address]
    rfl

/-- **A request is taken** that is the first of its lane in the buffer. -/
theorem take (b : Books setup pending buffered flight queue) {i : Nat} {r : Request}
    (at_ : buffered[i]? = some r)
    (first : ∀ j r', j < i → buffered[j]? = some r' → r'.key ≠ r.key) {g : CommandGenerator}
    (width : g.dataBusSize = setup.dataBusWidth) (isOpen : Bool) (clockCycle : Nat) :
    Books setup pending (buffered.eraseIdx i) flight fun bank =>
      queue bank ++ ((g.commandsOf r isOpen).map (stamp clockCycle)).filter (·.bank == bank) := by
  have home := b.homes r (List.mem_of_getElem? at_)
  have mine : ∀ x ∈ (g.commandsOf r isOpen).map (stamp clockCycle), x.bank = r.bank ∧
      x.requestorID = r.requestorID ∧ x.address = r.address := by
    intro x hx
    obtain ⟨y, hy, rfl⟩ := List.mem_map.mp hx
    have requestor := CommandGenerator.commandsOf_requestor hy
    exact ⟨(CommandGenerator.mem_commandsOf hy).1, requestor.1, requestor.2⟩
  refine ⟨b.typed, b.sized, b.unique, fun x hx => b.homes x (Lib.mem_of_eraseIdx hx), ?_, ?_⟩
  · intro bank x hx
    rcases List.mem_append.mp hx with hx | hx
    · exact b.queued bank x hx
    · obtain ⟨hx, e⟩ := List.mem_filter.mp hx
      obtain ⟨hbank, id, address⟩ := mine x hx
      rw [id, address, ← home.1, ← hbank]
      exact (beq_iff_eq.mp e).symm
  · intro k
    have lane := b.lanes k
    have beats := commandsOf_lane width r isOpen clockCycle k
    by_cases e : r.key = k
    · subst e
      rw [if_pos rfl] at beats
      have whole : ((g.commandsOf r isOpen).map (stamp clockCycle)).filter
          (·.bank == (setup.home r.key.requestorID r.key.address).bank) =
          (g.commandsOf r isOpen).map (stamp clockCycle) := by
        rw [filter_commandsOf]
        exact if_pos home.1.symm
      rw [Lib.filter_eq_cons_eraseIdx (f := (·.key == r.key)) at_ (by simp)
        fun j x hj hx => by simpa using first j x hj hx] at lane
      have taken := lane.take
      unfold laneBeats at taken ⊢
      dsimp only
      rw [whole, List.filter_append, ← List.append_assoc, List.map_append, beats]
      exact taken
    · rw [if_neg e] at beats
      have other : (r.key == k) = false := by simpa using e
      rw [Lib.filter_eraseIdx_of_neg at_ other]
      have nothing : (((g.commandsOf r isOpen).map (stamp clockCycle)).filter
          (·.bank == (setup.home k.requestorID k.address).bank)).filter k.cas = [] := by
        rw [List.filter_filter, List.filter_eq_nil_iff]
        rw [List.map_eq_nil_iff, List.filter_eq_nil_iff] at beats
        intro x hx both
        exact beats x hx (by simp only [Bool.and_eq_true] at both; exact both.1)
      unfold laneBeats at lane ⊢
      dsimp only
      rw [List.filter_append, nothing, List.append_nil]
      exact lane

/-- A data packet that stands for the same beat as the column access it came from. -/
def SameBeat (c p : BusPacket) : Prop :=
  p.requestorID = c.requestorID ∧ p.address = c.address ∧ p.beat = c.beat

/-- **A front is sent**: where it is a column access, its data is the last in flight of its
direction. -/
theorem send (b : Books setup pending buffered flight queue) {i : Nat} {c : BusPacket}
    {rest : List BusPacket} (front : queue i = c :: rest) (data : Bool → BusPacket)
    (same : ∀ d, SameBeat c (data d)) :
    Books setup pending buffered
      (fun d => if c.busPacketType = casOf d then flight d ++ [data d] else flight d)
      fun j => if j = i then rest else queue j := by
  refine ⟨b.typed, b.sized, b.unique, b.homes, ?_, ?_⟩
  · intro bank x hx
    split at hx
    · next e => exact e ▸ b.queued i x (by simp [front, hx])
    · exact b.queued bank x hx
  · intro k
    have lane := b.lanes k
    obtain ⟨id, address, beat⟩ := same k.isRead
    have dataKey : (data k.isRead).key k.isRead = c.key k.isRead := by simp [BusPacket.key, id, address]
    have home : i = (setup.home c.requestorID c.address).bank := b.queued i c (by simp [front])
    suffices e : laneBeats setup
        (fun d => if c.busPacketType = casOf d then flight d ++ [data d] else flight d)
        (fun j => if j = i then rest else queue j) k = laneBeats setup flight queue k by
      rw [e]
      exact lane
    unfold laneBeats
    by_cases mine : k.cas c = true
    · -- the column access moves from the head of the queued part to the end of the data part
      obtain ⟨type, key⟩ : c.busPacketType = casOf k.isRead ∧ c.key k.isRead = k := by
        simpa [Key.cas] using mine
      have here : (setup.home k.requestorID k.address).bank = i := by
        rw [home, ← key]
        rfl
      have dataMine : ((data k.isRead).key k.isRead == k) = true := by simp [dataKey, key]
      simp only [here, if_true, type, front, List.filter_append, List.filter_cons, dataMine,
        List.filter_nil, mine, List.map_append, List.map_cons, beat,
        List.append_assoc, List.cons_append, List.nil_append]
    · have notMine : k.cas c = false := by simpa using mine
      have flightSame : (if c.busPacketType = casOf k.isRead then flight k.isRead ++ [data k.isRead]
          else flight k.isRead).filter (·.key k.isRead == k) =
          (flight k.isRead).filter (·.key k.isRead == k) := by
        split
        · next type =>
          have other : ((data k.isRead).key k.isRead == k) = false := by
            rw [dataKey]
            simpa [Key.cas, type] using notMine
          simp [List.filter_append, other]
        · rfl
      have queueSame : ∀ j, (if j = i then rest else queue j).filter k.cas =
          (queue j).filter k.cas := by
        intro j
        split
        · next e => rw [e, front, List.filter_cons, notMine]; rfl
        · rfl
      rw [flightSame, queueSame]

/-- Looking a packet up in the pending list of its direction is looking for its key. -/
theorem matches_eq_key (b : Books setup pending buffered flight queue) {isRead : Bool}
    (p : BusPacket) {r : Request} (hr : r ∈ pending isRead) :
    MemoryController.matchesRequest p r = (r.key == p.key isRead) := by
  have direction := b.typed isRead r hr
  apply Bool.eq_iff_iff.mpr
  simp only [MemoryController.matchesRequest, Bool.and_eq_true, beq_iff_eq]
  constructor
  · rintro ⟨id, address⟩
    cases e : r.key
    simp_all [Request.key, BusPacket.key]
  · intro e
    have id := congrArg Key.requestorID e
    have address := congrArg Key.address e
    exact ⟨id.symm, address.symm⟩

/-- The data in flight without the packet at the head of one direction. -/
def popFlight (flight : Bool → List BusPacket) (isRead : Bool) (rest : List BusPacket) :
    Bool → List BusPacket := fun d => if d = isRead then rest else flight d

theorem laneBeats_pop {isRead : Bool} {p : BusPacket} {rest : List BusPacket}
    (front : flight isRead = p :: rest) (k : Key) :
    laneBeats setup flight queue k =
      (if p.key isRead = k then [p.beat] else []) ++
        laneBeats setup (popFlight flight isRead rest) queue k := by
  unfold laneBeats popFlight
  by_cases direction : k.isRead = isRead
  · rw [direction, front, List.filter_cons, if_pos rfl]
    by_cases e : p.key isRead = k <;> simp [e]
  · have other : p.key isRead ≠ k := fun e => direction (congrArg Key.isRead e.symm)
    simp [direction, other]

/-- **The request that a packet at the head of the data in flight is matched with**: its own, and one
that no buffer holds. The rest of its lane goes on without this beat. -/
theorem matched (b : Books setup pending buffered flight queue) {isRead : Bool} {p : BusPacket}
    {rest : List BusPacket} (front : flight isRead = p :: rest) :
    ∃ index r, (pending isRead).findIdx? (MemoryController.matchesRequest p) = some index ∧
      (pending isRead)[index]? = some r ∧ r.key = p.key isRead ∧ r.handle = p.origin ∧
      (∀ x ∈ buffered, x.handle ≠ r.handle) ∧
      (pending isRead).filter (·.key == r.key) =
        r :: ((pending isRead).eraseIdx index).filter (·.key == r.key) ∧
      (r.requestSize = setup.dataBusWidth → p.lastBeat = true ∧
        Lane setup.dataBusWidth (((pending isRead).eraseIdx index).filter (·.key == r.key))
          (buffered.filter (·.key == r.key))
          (laneBeats setup (popFlight flight isRead rest) queue r.key)) ∧
      (r.requestSize ≠ setup.dataBusWidth →
        Lane setup.dataBusWidth
          ({ r with requestSize := r.requestSize - setup.dataBusWidth } ::
            ((pending isRead).eraseIdx index).filter (·.key == r.key))
          (buffered.filter (·.key == r.key))
          (laneBeats setup (popFlight flight isRead rest) queue r.key)) := by
  have lane := b.lanes (p.key isRead)
  rw [laneBeats_pop front, if_pos rfl, List.singleton_append] at lane
  obtain ⟨r, others, hpending, origin, waiting, last, more⟩ := lane.deliver fun x hx =>
    b.sized _ x (List.mem_filter.mp hx).1
  replace hpending : (pending isRead).filter (·.key == p.key isRead) = r :: others := hpending
  obtain ⟨hr, hkey⟩ : r ∈ pending isRead ∧ (r.key == p.key isRead) = true :=
    List.mem_filter.mp (hpending ▸ List.mem_cons_self)
  have key : r.key = p.key isRead := beq_iff_eq.mp hkey
  -- the first match is the first of the lane
  obtain ⟨index, found⟩ : ∃ index,
      (pending isRead).findIdx? (MemoryController.matchesRequest p) = some index := by
    rw [← Option.isSome_iff_exists, List.findIdx?_isSome, List.any_eq_true]
    exact ⟨r, hr, (b.matches_eq_key p hr).trans hkey⟩
  obtain ⟨a, at_, hmatch, before⟩ := Lib.findIdx_eq_some_first found
  have first := Lib.filter_eq_cons_eraseIdx (f := (·.key == p.key isRead)) at_
    ((b.matches_eq_key p (List.mem_of_getElem? at_)).symm.trans hmatch)
    (fun j x hj hx => (b.matches_eq_key p (List.mem_of_getElem? hx)).symm.trans (before j x hj hx))
  obtain ⟨rfl, rfl⟩ := List.cons.inj (hpending.symm.trans first)
  have nodup := b.nodup_lane isRead (p.key isRead)
  rw [first] at nodup
  refine ⟨index, r, found, at_, key, origin, fun x hx same => ?_, key ▸ first, key ▸ last, ?_⟩
  · obtain rfl := b.eq_of_handle (b.mem_pending hx) hr same
    exact (List.nodup_cons.mp nodup).1 (waiting x (List.mem_filter.mpr ⟨hx, hkey⟩))
  · intro left
    rw [key]
    exact (more left).2

/-- The lanes of the other keys go on as they are. -/
theorem other_lane (b : Books setup pending buffered flight queue) {isRead : Bool} {p : BusPacket}
    {rest : List BusPacket} (front : flight isRead = p :: rest) {k : Key}
    (other : p.key isRead ≠ k) :
    Lane setup.dataBusWidth ((pending k.isRead).filter (·.key == k)) (buffered.filter (·.key == k))
      (laneBeats setup (popFlight flight isRead rest) queue k) := by
  have lane := b.lanes k
  rwa [laneBeats_pop front, if_neg other, List.nil_append] at lane

/-- **The last beat**: the request it is matched with leaves the books. -/
theorem complete (b : Books setup pending buffered flight queue) {isRead : Bool} {p : BusPacket}
    {rest : List BusPacket} (front : flight isRead = p :: rest) {index : Nat} {r : Request}
    (at_ : (pending isRead)[index]? = some r) (key : r.key = p.key isRead)
    (lane : Lane setup.dataBusWidth (((pending isRead).eraseIdx index).filter (·.key == r.key))
      (buffered.filter (·.key == r.key))
      (laneBeats setup (popFlight flight isRead rest) queue r.key)) :
    Books setup (fun d => if d = isRead then (pending isRead).eraseIdx index else pending d)
      buffered (popFlight flight isRead rest) queue where
  typed := by
    intro d x hx
    split at hx
    · next e => exact e ▸ b.typed isRead x (Lib.mem_of_eraseIdx hx)
    · exact b.typed d x hx
  sized := by
    intro d x hx
    split at hx
    · next e => exact b.sized isRead x (Lib.mem_of_eraseIdx hx)
    · exact b.sized d x hx
  unique := by
    refine List.Nodup.sublist (List.Sublist.map _ ?_) b.unique
    cases isRead
    · exact (List.Sublist.refl _).append (List.eraseIdx_sublist ..)
    · exact (List.eraseIdx_sublist ..).append (List.Sublist.refl _)
  homes := b.homes
  queued := b.queued
  lanes := by
    intro k
    by_cases e : p.key isRead = k
    · subst e
      rw [← key]
      have direction : r.key.isRead = isRead := congrArg Key.isRead key
      simpa only [direction, if_true] using lane
    · have other := b.other_lane front e
      split
      · next direction =>
        have notR : (r.key == k) = false := by simpa [key] using e
        rw [Lib.filter_eraseIdx_of_neg at_ notR]
        exact direction ▸ other
      · exact other

/-! ### Counting down -/

theorem assignSize_of_absent {handle n : Nat} {l : List Request}
    (absent : ∀ x ∈ l, x.handle ≠ handle) : Request.assignSize handle n l = l := by
  unfold Request.assignSize
  refine (List.map_congr_left fun x hx => ?_).trans (List.map_id _)
  rw [if_neg (absent x hx)]
  rfl

theorem filter_assignSize (handle n : Nat) (l : List Request) (k : Key) :
    (Request.assignSize handle n l).filter (·.key == k) =
      Request.assignSize handle n (l.filter (·.key == k)) := by
  unfold Request.assignSize
  rw [List.filter_map]
  congr 2
  funext x
  simp only [Function.comp]
  split <;> rfl

/-- **Any other beat**: the request it is matched with gets one width smaller, in the pending list
that holds it and nowhere else. -/
theorem countDown (b : Books setup pending buffered flight queue) {isRead : Bool} {p : BusPacket}
    {rest : List BusPacket} (front : flight isRead = p :: rest) {index : Nat} {r : Request}
    (at_ : (pending isRead)[index]? = some r) (key : r.key = p.key isRead)
    (absent : ∀ x ∈ buffered, x.handle ≠ r.handle)
    (first : (pending isRead).filter (·.key == r.key) =
      r :: ((pending isRead).eraseIdx index).filter (·.key == r.key))
    (more : r.requestSize ≠ setup.dataBusWidth)
    (lane : Lane setup.dataBusWidth
      ({ r with requestSize := r.requestSize - setup.dataBusWidth } ::
        ((pending isRead).eraseIdx index).filter (·.key == r.key))
      (buffered.filter (·.key == r.key))
      (laneBeats setup (popFlight flight isRead rest) queue r.key)) :
    Books setup
      (fun d => Request.assignSize r.handle (r.requestSize - setup.dataBusWidth) (pending d))
      (Request.assignSize r.handle (r.requestSize - setup.dataBusWidth) buffered)
      (popFlight flight isRead rest) queue := by
  have hr := List.mem_of_getElem? at_
  have size := b.sized isRead r hr
  rw [assignSize_of_absent absent]
  refine ⟨?_, ?_, ?_, b.homes, b.queued, ?_⟩
  · intro d x hx
    rcases Request.mem_assignSize hx with ⟨hx, _⟩ | ⟨y, hy, _, rfl⟩
    · exact b.typed d x hx
    · exact b.typed d y hy
  · intro d x hx
    rcases Request.mem_assignSize hx with ⟨hx, _⟩ | ⟨y, hy, _, rfl⟩
    · exact b.sized d x hx
    · exact (size.rest more).1
  · have handles : ∀ l : List Request, (Request.assignSize r.handle
        (r.requestSize - setup.dataBusWidth) l).map (·.handle) = l.map (·.handle) := by
      intro l
      rw [Request.assignSize, List.map_map]
      apply List.map_congr_left
      intro x _
      simp only [Function.comp]
      split <;> rfl
    rw [List.map_append, handles, handles, ← List.map_append]
    exact b.unique
  · intro k
    rw [filter_assignSize]
    by_cases e : p.key isRead = k
    · subst e
      rw [← key]
      have direction : r.key.isRead = isRead := congrArg Key.isRead key
      have others : ∀ x ∈ ((pending isRead).eraseIdx index).filter (·.key == r.key),
          x.handle ≠ r.handle := by
        have nodup := b.nodup_lane isRead r.key
        rw [first] at nodup
        intro x hx same
        have e := b.eq_of_handle (Lib.mem_of_eraseIdx (List.mem_filter.mp hx).1) hr same
        exact (List.nodup_cons.mp nodup).1 (e ▸ hx)
      rw [direction, first, Request.assignSize, List.map_cons, if_pos rfl, ← Request.assignSize,
        assignSize_of_absent others]
      exact lane
    · rw [assignSize_of_absent fun x hx same => ?_]
      · exact b.other_lane front e
      · obtain ⟨hx, hk⟩ := List.mem_filter.mp hx
        have same := b.eq_of_handle hx hr same
        rw [same, key] at hk
        exact e (beq_iff_eq.mp hk)

end Books
end MCsim
