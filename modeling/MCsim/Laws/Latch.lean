import Mathlib.Data.List.Nodup
import MCsim.Laws.Buffers

/-!
# Latched commands

The schedulers that latch commands keep a list of entries (a command with its queue) and a pending flag
for each key: a requestor, or a queue. `Latched` is their invariant: the entries are heads of their
buffers and ready, they have distinct keys, and those keys are the pending ones. Entries of distinct
keys wait in distinct buffers (`Separates`), so sending one touches neither the head nor the readiness
of another.
-/

namespace MCsim

open CommandScheduler

/-- The key of an entry where there is a pending flag for each requestor. -/
def Entry.requestor (e : Entry) : Nat := e.1.requestorID

/-- The key of an entry where there is a pending flag for each queue. -/
def Entry.queue (e : Entry) : Nat := e.2

/-- Entries of distinct keys wait in distinct buffers. -/
def Separates (perRequestor : Bool) (key : Entry → Nat) : Prop :=
  ∀ e d : Entry, key e ≠ key d → e.inBuffer perRequestor d.2 d.1.requestorID = false

theorem Entry.requestor_separates : Separates true Entry.requestor := fun _ _ h =>
  Entry.inBuffer_eq_false.mpr (.inr ⟨rfl, h⟩)

theorem Entry.queue_separates (perRequestor : Bool) : Separates perRequestor Entry.queue :=
  fun _ _ h => Entry.inBuffer_eq_false.mpr (.inl h)

/-- Every entry is the head of its buffer and ready, and the pending keys are the keys of the entries,
each of one entry. -/
structure Latched (key : Entry → Nat) (s : CommandScheduler) (entries : List Entry)
    (pending : Nat → Bool) : Prop where
  head : ∀ e ∈ entries, (s.bufferOf e.2 e.1.requestorID).head? = some e.1
  ready : ∀ e ∈ entries, s.isReady e.1 e.2 = true
  once : (entries.map key).Nodup
  pending : ∀ k, pending k = true ↔ k ∈ entries.map key

namespace Latched

variable {key : Entry → Nat} {s s' : CommandScheduler} {entries before after : List Entry}
  {pending pending' : Nat → Bool} {e : Entry}

theorem empty (key : Entry → Nat) (s : CommandScheduler) : Latched key s [] fun _ => false :=
  ⟨fun _ h => absurd h List.not_mem_nil, fun _ h => absurd h List.not_mem_nil, List.nodup_nil,
    fun _ => by simp⟩

/-- The order of the entries does not matter. -/
theorem perm (latched : Latched key s entries pending) {entries' : List Entry}
    (same : entries.Perm entries') : Latched key s entries' pending :=
  ⟨fun e he => latched.head e (same.mem_iff.mpr he), fun e he => latched.ready e (same.mem_iff.mpr he),
    (same.map key).nodup_iff.mp latched.once,
    fun k => (latched.pending k).trans (same.map key).mem_iff⟩

/-- The invariant only sees the heads and the readiness of the entries. -/
theorem of_entries (latched : Latched key s entries pending)
    (same : ∀ e ∈ entries, (s.bufferOf e.2 e.1.requestorID).head? = some e.1 →
      s.isReady e.1 e.2 = true →
      (s'.bufferOf e.2 e.1.requestorID).head? = some e.1 ∧ s'.isReady e.1 e.2 = true) :
    Latched key s' entries pending :=
  ⟨fun e he => (same e he (latched.head e he) (latched.ready e he)).1,
    fun e he => (same e he (latched.head e he) (latched.ready e he)).2,
    latched.once, latched.pending⟩

/-- A key that is not pending is of no entry. -/
theorem fresh (latched : Latched key s entries pending) {k : Nat} (free : pending k = false) :
    k ∉ entries.map key := fun h => by
  rw [(latched.pending k).mpr h] at free
  cases free

/-- A ready front whose key is not pending joins. -/
theorem push (latched : Latched key s entries pending)
    (head : (s.bufferOf e.2 e.1.requestorID).head? = some e.1) (ready : s.isReady e.1 e.2 = true)
    (free : pending (key e) = false)
    (raised : ∀ k, pending' k = if k = key e then true else pending k) :
    Latched key s (entries ++ [e]) pending' := by
  refine ⟨fun d hd => ?_, fun d hd => ?_, ?_, fun k => ?_⟩
  · rcases List.mem_append.mp hd with hd | hd
    · exact latched.head d hd
    · rw [List.mem_singleton.mp hd]
      exact head
  · rcases List.mem_append.mp hd with hd | hd
    · exact latched.ready d hd
    · rw [List.mem_singleton.mp hd]
      exact ready
  · rw [List.map_append]
    exact List.nodup_append_comm.mp (List.nodup_cons.mpr ⟨latched.fresh free, latched.once⟩)
  · rw [raised, List.map_append, List.mem_append, List.map_singleton, List.mem_singleton]
    by_cases h : k = key e
    · simp [h]
    · simp [h, latched.pending]

/-- **Sending an entry** keeps the others latched, and takes back its flag. -/
theorem issue {perRequestor : Bool} (separates : Separates perRequestor key)
    (shaped : s.Shaped perRequestor) (spec : DeviceSpec)
    (latched : Latched key s (before ++ e :: after) pending)
    (lowered : ∀ k, pending' k = if k = key e then false else pending k) :
    Latched key (s.issue spec e.1 e.2) (before ++ after) pending' := by
  have middle : (before ++ e :: after).Perm (e :: (before ++ after)) := List.perm_middle
  obtain ⟨head, ready, once, flags⟩ := latched.perm middle
  obtain ⟨fresh, once⟩ := List.nodup_cons.mp once
  have other : ∀ d ∈ before ++ after, e.inBuffer perRequestor d.2 d.1.requestorID = false :=
    fun d hd => separates e d fun same => fresh (same ▸ List.mem_map_of_mem hd)
  have buffers := (shaped.issue spec e).2
  refine ⟨fun d hd => ?_, fun d hd => ?_, once, fun k => ?_⟩
  · rw [buffers, other d hd]
    exact head d (List.mem_cons_of_mem e hd)
  · rw [shaped.isReady_issue spec (other d hd)]
    exact ready d (List.mem_cons_of_mem e hd)
  · rw [lowered]
    by_cases same : k = key e
    · simpa [same] using fresh
    · rw [if_neg same, flags]
      simp [same]

/-- Inserting appends: the heads stay heads. -/
theorem insertCommand {perRequestor critical : Bool} (shaped : s.Shaped perRequestor)
    (latched : Latched key s entries pending) (e : Entry)
    (served : perRequestor = false → critical = true) :
    Latched key (s.insertCommand e.2 e.1 critical) entries pending := by
  refine latched.of_entries fun d _ head ready => ⟨?_, ?_⟩
  · rw [(shaped.insertCommand e served).2]
    split
    · rw [List.head?_append, head]
      rfl
    · exact head
  · rw [isReady_insertCommand]
    exact ready

theorem refresh (latched : Latched key s entries pending) (spec : DeviceSpec) (check : Answers) :
    Latched key (s.refresh spec check) entries pending :=
  latched.of_entries fun _ _ head ready =>
    ⟨by rw [bufferOf_refresh]; exact head, by rw [isReady_refresh]; exact ready⟩

theorem tick {perRequestor : Bool} (shaped : s.Shaped perRequestor)
    (latched : Latched key s entries pending) : Latched key s.tick entries pending :=
  latched.of_entries fun _ _ head ready =>
    ⟨by rw [shaped.bufferOf_tick]; exact head, shaped.isReady_tick ready⟩

end Latched

/-- A scheduler's queues, what waits in them, and what is latched. -/
structure Latching (perRequestor : Bool) (fits : Nat → BusPacket → Prop) (key : Entry → Nat)
    (s : CommandScheduler) (entries : List Entry) (pending : Nat → Bool) : Prop where
  shaped : s.Shaped perRequestor
  holds : s.Holds fits
  latched : Latched key s entries pending

namespace Latching

variable {perRequestor : Bool} {fits : Nat → BusPacket → Prop} {key : Entry → Nat}
  {s s' : CommandScheduler} {entries before after : List Entry} {pending pending' : Nat → Bool}
  {spec : DeviceSpec} {table : Nat → Bool}

theorem create (perRequestor : Bool) (fits : Nat → BusPacket → Prop) (key : Entry → Nat)
    (queueCount : Nat) (m : RefreshMachine) :
    Latching perRequestor fits key (.create queueCount perRequestor m) [] fun _ => false :=
  ⟨shaped_create queueCount perRequestor m, holds_create fits queueCount perRequestor m,
    .empty key _⟩

/-- An entry's command fits the queue it waits in. -/
theorem fits_entry (latching : Latching perRequestor fits key s entries pending) {e : Entry}
    (he : e ∈ entries) : fits e.2 e.1 :=
  latching.holds e.2 _ e.1 (List.mem_of_mem_head? (latching.latched.head e he))

/-- The field `scheduledCommand` is not looked at. -/
theorem cleared (latching : Latching perRequestor fits key s entries pending)
    (left : Option BusPacket) :
    Latching perRequestor fits key { s with scheduledCommand := left } entries pending :=
  ⟨latching.shaped, latching.holds, latching.latched.of_entries fun _ _ head ready => ⟨head, ready⟩⟩

/-- **The calls that the base class answers** keep everything. -/
theorem base (latching : Latching perRequestor fits key s entries pending) {call : SchedulerCall}
    (critical : perRequestor = false → ∀ id, table id = true) (fit : call.Inserts fits)
    (step : BaseStep spec table s call s') :
    Latching perRequestor fits key s' entries pending := by
  obtain ⟨shaped, holds, latched⟩ := latching
  cases step with
  | @insertCommand index command bound =>
    have served := fun general => critical general command.requestorID
    exact ⟨(shaped.insertCommand (command, index) served).1,
      holds.insertCommand shaped (fit (command, index) rfl) served,
      latched.insertCommand shaped (command, index) served⟩
  | refresh check =>
    exact ⟨shaped.refresh spec check, holds.refresh spec check, latched.refresh spec check⟩
  | tick => exact ⟨shaped.tick, holds.tick shaped, latched.tick shaped⟩

/-- **Sending an entry** keeps everything of the others. -/
theorem issue {e : Entry} (separates : Separates perRequestor key) (spec : DeviceSpec)
    (latching : Latching perRequestor fits key s (before ++ e :: after) pending)
    (lowered : ∀ k, pending' k = if k = key e then false else pending k) :
    Latching perRequestor fits key (s.issue spec e.1 e.2) (before ++ after) pending' :=
  ⟨(latching.shaped.issue spec e).1, latching.holds.issue latching.shaped spec e,
    latching.latched.issue separates latching.shaped spec lowered⟩

end Latching
end MCsim
