import MCsim.Generators

/-!
# ROUND beside OPEN

The `ROUND` generator is a copy of the `OPEN` generator that tells the activations of reads and writes
apart and leaves out what its scheduler does not need. Up to that (`untyped`) both make the same row
commands, and as many column accesses. The columns differ: where `OPEN` walks from the request's column
on, `ROUND` puts every access at the column past the request. So the two agree exactly on the sequences
without a column access (`round_untyped`).
-/

namespace MCsim
namespace CommandGenerator

/-- A command without what `ROUND` changes on purpose: the direction of an `ACT`, the rank, the subarray,
and the column of a row command. -/
def untyped (c : BusPacket) : BusPacket :=
  { c with
    busPacketType := if c.busPacketType = .ACT_R ∨ c.busPacketType = .ACT_W then .ACT else c.busPacketType
    rank := 0
    subArray := 0
    column := if c.busPacketType.isCas then c.column else 0 }

/-- A sequence of requests, each with its row-hit flag, fed to a generator. -/
def feedAll (gen : Generator) (g : CommandGenerator) (requests : List (Request × Bool)) :
    Option CommandGenerator :=
  requests.foldlM (fun g e => (gen g e.1 e.2).map (·.1)) g

/-- Both put the same row commands before the column accesses. -/
theorem roundRows_untyped {g g' : CommandGenerator} (first : g'.first = g.first) (r : Request)
    (isOpen : Bool) : (g'.roundRows r isOpen).map untyped = (g.openCommands r isOpen).map untyped := by
  have act : untyped (roundRow (actType r) r) = untyped (rowCommand .ACT r) := by
    unfold roundRow actType
    cases r.requestType <;> rfl
  have pre : untyped (roundRow .PRE r) = untyped (rowCommand .PRE r) := rfl
  unfold roundRows openCommands
  rw [first]
  split
  · rfl
  · split
    · simp [act]
    · simp [act, pre]

theorem column_untyped {c : BusPacket} (cas : c.busPacketType.isCas = true) :
    (untyped c).column = c.column := by
  simp only [untyped, cas, if_true]

/-- The column accesses differ, where there are any: the last of a request stands one column further. -/
theorem roundCas_untyped (n : Nat) (r : Request) :
    (roundCas n r).map untyped = (casCommands n r).map untyped ↔ beats n r = 0 := by
  constructor
  · intro same
    by_contra some_beat
    have last : beats n r - 1 < beats n r := by omega
    have column := congrArg (fun l => (l[beats n r - 1]?).map BusPacket.column) same
    simp only [roundCas, casCommands, List.map_map, List.getElem?_map, List.getElem?_range last,
      Option.map_some, Function.comp_apply, Option.some.injEq] at column
    rw [column_untyped (casType_isCas r), column_untyped (casType_isCas r)] at column
    dsimp only at column
    omega
  · intro none
    simp [roundCas, casCommands, none]

/-- What a request adds to the two buffers. -/
theorem generate_both {g g' : CommandGenerator} {r : Request} (bank : r.bank < 8) (isOpen : Bool)
    (first : g'.first = g.first) (size : g'.dataBusSize = g.dataBusSize) :
    ∃ h h', openGenerator g r isOpen = some (h, true) ∧ roundGenerator g' r isOpen = some (h', true) ∧
      h'.first = h.first ∧ h.dataBusSize = g.dataBusSize ∧ h'.dataBusSize = g.dataBusSize ∧
      h.commandBuffer = g.commandBuffer ++ g.commandsOf r isOpen ∧
      h'.commandBuffer = g'.commandBuffer ++ (g'.roundRows r isOpen ++ roundCas g.dataBusSize r) := by
  have opens : openGenerator g r isOpen = some ({ g.opened r isOpen with
      commandBuffer := g.commandBuffer ++ g.commandsOf r isOpen }, true) := by
    simp [openGenerator, commandGenerateOpen_eq, bank]
  have rounds : roundGenerator g' r isOpen = some ({ g' with
      commandBuffer := g'.commandBuffer ++ g'.roundRows r isOpen ++ roundCas g'.dataBusSize r
      first := fun bank => if bank = r.bank ∧ ¬ isOpen then false else g'.first bank }, true) := by
    simp [roundGenerator, bank]
  refine ⟨_, _, opens, rounds, ?_, rfl, size, rfl, ?_⟩
  · simp only [opened, first]
  · dsimp only
    rw [size, List.append_assoc]

/-- **The two buffers over a sequence of requests.** -/
theorem feedAll_both {g g' : CommandGenerator} (bus : 0 < g.dataBusSize) (first : g'.first = g.first)
    (size : g'.dataBusSize = g.dataBusSize) (length : g'.commandBuffer.length = g.commandBuffer.length)
    {requests : List (Request × Bool)} (banks : ∀ e ∈ requests, e.1.bank < 8) :
    ∃ h h', feedAll openGenerator g requests = some h ∧ feedAll roundGenerator g' requests = some h' ∧
      (h'.commandBuffer.map untyped = h.commandBuffer.map untyped ↔
        g'.commandBuffer.map untyped = g.commandBuffer.map untyped ∧
          ∀ e ∈ requests, e.1.requestSize < g.dataBusSize) := by
  induction requests generalizing g g' with
  | nil => exact ⟨g, g', rfl, rfl, by simp⟩
  | cons e requests ih =>
    obtain ⟨h₁, h₁', opens, rounds, first₁, size₁, size₁', buffer, buffer'⟩ :=
      generate_both (banks e List.mem_cons_self) e.2 first size
    -- the commands of this request, in both
    have rows := roundRows_untyped first e.1 e.2
    have blocks : (g'.roundRows e.1 e.2 ++ roundCas g.dataBusSize e.1).map untyped =
        (g.commandsOf e.1 e.2).map untyped ↔ e.1.requestSize < g.dataBusSize := by
      rw [commandsOf, List.map_append, List.map_append, rows, List.append_cancel_left_eq,
        roundCas_untyped, beats, Nat.div_eq_zero_iff_lt bus]
    have even : (g'.roundRows e.1 e.2 ++ roundCas g.dataBusSize e.1).length =
        (g.commandsOf e.1 e.2).length := by
      have rowCount := congrArg List.length rows
      rw [List.length_map, List.length_map] at rowCount
      simp [commandsOf, roundCas, casCommands, rowCount]
    generalize g'.roundRows e.1 e.2 ++ roundCas g.dataBusSize e.1 = new' at blocks even buffer'
    have lengths : h₁'.commandBuffer.length = h₁.commandBuffer.length := by
      rw [buffer, buffer', List.length_append, List.length_append, length, even]
    obtain ⟨h, h', fed, fed', iff⟩ := ih (size₁.symm ▸ bus) first₁ (size₁'.trans size₁.symm) lengths
      fun x hx => banks x (List.mem_cons_of_mem e hx)
    refine ⟨h, h', ?_, ?_, ?_⟩
    · simp only [feedAll, List.foldlM_cons, opens, Option.map_some]
      exact fed
    · simp only [feedAll, List.foldlM_cons, rounds, Option.map_some]
      exact fed'
    · rw [iff, buffer, buffer', List.map_append, List.map_append, size₁, List.forall_mem_cons, ← blocks]
      constructor
      · rintro ⟨whole, later⟩
        obtain ⟨before, here⟩ := List.append_inj whole (by simp [length])
        exact ⟨before, here, later⟩
      · rintro ⟨before, here, later⟩
        rw [before, here]
        exact ⟨rfl, later⟩

/-- **ROUND is OPEN up to the direction of activations exactly where there is no column access**: fed the
same requests, the two buffers are the same but for what `untyped` leaves out if and only if every request
is smaller than the data bus. -/
theorem round_untyped {dataBusSize : Nat} (bus : 0 < dataBusSize) {requests : List (Request × Bool)}
    (banks : ∀ e ∈ requests, e.1.bank < 8) :
    ∃ g g', feedAll openGenerator { dataBusSize := dataBusSize } requests = some g ∧
      feedAll roundGenerator { dataBusSize := dataBusSize } requests = some g' ∧
      (g'.commandBuffer.map untyped = g.commandBuffer.map untyped ↔
        ∀ e ∈ requests, e.1.requestSize < dataBusSize) := by
  obtain ⟨g, g', fed, fed', iff⟩ := @feedAll_both { dataBusSize := dataBusSize }
    { dataBusSize := dataBusSize } bus rfl rfl rfl requests banks
  exact ⟨g, g', fed, fed', iff.trans (and_iff_right rfl)⟩

/-- A read of one beat at column 0. -/
def oneBeat : Request where
  handle := 0
  requestType := .DATA_READ
  requestorID := 0
  requestSize := 64
  address := 0
  arriveTime := 0

/-- Half a beat makes an activation only, and there the two agree. -/
theorem round_untyped_halfBeat : ∃ g g',
    feedAll openGenerator { dataBusSize := 64 } [({ oneBeat with requestSize := 32 }, false)] = some g ∧
      feedAll roundGenerator { dataBusSize := 64 } [({ oneBeat with requestSize := 32 }, false)] = some g' ∧
      g'.commandBuffer.map untyped = g.commandBuffer.map untyped := by
  obtain ⟨g, g', fed, fed', iff⟩ := @round_untyped 64 (by decide)
    [({ oneBeat with requestSize := 32 }, false)] (by decide)
  exact ⟨g, g', fed, fed', iff.mpr (by decide)⟩

/-- **A read of one beat goes to column 0 in OPEN and to column 1 in ROUND.** -/
theorem round_oneBeat :
    ((feedAll openGenerator { dataBusSize := 64 } [(oneBeat, true)]).map fun g =>
        g.commandBuffer.map fun c => (untyped c).column) = some [0] ∧
      ((feedAll roundGenerator { dataBusSize := 64 } [(oneBeat, true)]).map fun g =>
        g.commandBuffer.map fun c => (untyped c).column) = some [1] ∧
      (feedAll openGenerator { dataBusSize := 64 } [(oneBeat, true)]).map (·.commandBuffer.map untyped) ≠
        (feedAll roundGenerator { dataBusSize := 64 } [(oneBeat, true)]).map (·.commandBuffer.map untyped) := by
  decide

end CommandGenerator
end MCsim
