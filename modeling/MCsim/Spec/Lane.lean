import MCsim.CommandGenerator

/-!
# Lanes

The requests of one requestor to one address and of one type cannot be told apart by a data packet.
What keeps their completions right is order. A lane is the order of one such family: its requests
that are pending, in order of arrival, are first those taken off the request buffer and then those
still in it, and the beats under way (queued column accesses and data in flight) are the beats of the
taken ones, in that order. A beat at the head of the lane is therefore a beat of the first pending
request, and the last one exactly when one beat is left of it.
-/

namespace MCsim

/-- The beats left of a request: the request they belong to, and whether it is the last one. -/
def Request.beatList (width : Nat) (r : Request) : List (Nat × Bool) :=
  (List.range (CommandGenerator.beats width r)).map fun x =>
    (r.handle, x + 1 == CommandGenerator.beats width r)

/-- A size that is a positive number of data bus widths, as an unsigned integer. -/
def Sized (width size : Nat) : Prop := 0 < size ∧ width ∣ size ∧ size < 2 ^ 32

/-- The beats a request starts from: all but the last are marked as not last. -/
theorem Request.beatList_eq {width : Nat} {r : Request} (h : 0 < CommandGenerator.beats width r) :
    r.beatList width =
      List.replicate (CommandGenerator.beats width r - 1) (r.handle, false) ++ [(r.handle, true)] := by
  obtain ⟨m, hm⟩ := Nat.exists_eq_succ_of_ne_zero (Nat.pos_iff_ne_zero.mp h)
  rw [Request.beatList, hm, List.range_succ, List.map_append]
  have early : (List.range m).map (fun x => (r.handle, x + 1 == m.succ)) =
      List.replicate m (r.handle, false) := by
    rw [List.eq_replicate_iff]
    refine ⟨by simp, fun b hb => ?_⟩
    obtain ⟨x, hx, rfl⟩ := List.mem_map.mp hb
    have := List.mem_range.mp hx
    simp
    omega
  rw [early]
  simp

/-- The column accesses of a request are its beats. -/
theorem CommandGenerator.casCommands_beats (width : Nat) (r : Request) :
    (casCommands width r).map (fun c => (c.origin, c.lastBeat)) = r.beatList width := by
  simp [casCommands, Request.beatList, rowCommand]

namespace Sized

variable {width size : Nat}

theorem width_pos (h : Sized width size) : 0 < width :=
  Nat.pos_of_dvd_of_pos h.2.1 h.1

theorem width_le (h : Sized width size) : width ≤ size := Nat.le_of_dvd h.1 h.2.1

theorem beats_pos (h : Sized width size) : 0 < size / width :=
  Nat.div_pos h.width_le h.width_pos

/-- What is left after a beat that was not the last. -/
theorem rest (h : Sized width size) (more : size ≠ width) :
    Sized width (size - width) ∧ (size - width) / width = size / width - 1 := by
  have le := h.width_le
  refine ⟨⟨by omega, Nat.dvd_sub h.2.1 (Nat.dvd_refl width), by have := h.2.2; omega⟩, ?_⟩
  simpa using Nat.sub_mul_div size width 1

/-- The counting down of an unsigned size. -/
theorem wrap (h : Sized width size) : (size + (2 ^ 32 - width)) % 2 ^ 32 = size - width := by
  have le := h.width_le
  have small := h.2.2
  have e : size + (2 ^ 32 - width) = (size - width) + 2 ^ 32 := by omega
  rw [e, Nat.add_mod_right]
  exact Nat.mod_eq_of_lt (by omega)

end Sized

/-- A lane: the pending requests, those of them still in the request buffer, the beats under way. -/
def Lane (width : Nat) (pending buffered : List Request) (beats : List (Nat × Bool)) : Prop :=
  ∃ taken, pending = taken ++ buffered ∧ beats = taken.flatMap (Request.beatList width)

namespace Lane

variable {width : Nat} {pending buffered : List Request} {beats : List (Nat × Bool)} {r : Request}

theorem empty (width : Nat) : Lane width [] [] [] := ⟨[], rfl, rfl⟩

/-- A request arrives. -/
theorem arrive (h : Lane width pending buffered beats) :
    Lane width (pending ++ [r]) (buffered ++ [r]) beats := by
  obtain ⟨taken, rfl, rfl⟩ := h
  exact ⟨taken, List.append_assoc .., rfl⟩

/-- The first request of the buffer is taken, and its beats follow those under way. -/
theorem take (h : Lane width pending (r :: buffered) beats) :
    Lane width pending buffered (beats ++ r.beatList width) := by
  obtain ⟨taken, rfl, rfl⟩ := h
  exact ⟨taken ++ [r], by simp, by simp⟩

theorem subset (h : Lane width pending buffered beats) : ∀ r ∈ buffered, r ∈ pending := by
  obtain ⟨taken, rfl, _⟩ := h
  exact fun r hr => List.mem_append_right taken hr

/-- **The beat at the head of a lane** belongs to the first pending request, which is in no buffer.
It is marked as the last beat exactly where one width is left; then the request leaves the lane, and
otherwise it is one width smaller. -/
theorem deliver {origin : Nat} {last : Bool}
    (h : Lane width pending buffered ((origin, last) :: beats))
    (sized : ∀ r ∈ pending, Sized width r.requestSize) :
    ∃ r rest, pending = r :: rest ∧ r.handle = origin ∧ (∀ b ∈ buffered, b ∈ rest) ∧
      (r.requestSize = width → last = true ∧ Lane width rest buffered beats) ∧
      (r.requestSize ≠ width → last = false ∧
        Lane width ({ r with requestSize := r.requestSize - width } :: rest) buffered beats) := by
  obtain ⟨taken, rfl, hbeats⟩ := h
  cases taken with
  | nil => cases hbeats
  | cons r taken =>
    have size := sized r (by simp)
    have positive : 0 < CommandGenerator.beats width r := size.beats_pos
    rw [List.flatMap_cons, Request.beatList_eq positive] at hbeats
    refine ⟨r, taken ++ buffered, rfl, ?_⟩
    by_cases one : r.requestSize = width
    · have single : CommandGenerator.beats width r = 1 := by
        rw [CommandGenerator.beats, one, Nat.div_self size.width_pos]
      simp only [single, Nat.sub_self, List.replicate_zero, List.nil_append, List.cons_append,
        List.cons.injEq, Prod.mk.injEq] at hbeats
      obtain ⟨⟨rfl, rfl⟩, rfl⟩ := hbeats
      exact ⟨rfl, fun b hb => List.mem_append_right taken hb, fun _ => ⟨rfl, taken, rfl, rfl⟩,
        fun h => absurd one h⟩
    · obtain ⟨left, fewer⟩ := size.rest one
      have leftPos := left.beats_pos
      obtain ⟨m, hm⟩ : ∃ m, CommandGenerator.beats width r = m + 2 := by
        have e : CommandGenerator.beats width r = r.requestSize / width := rfl
        exact ⟨r.requestSize / width - 2, by omega⟩
      have smaller : CommandGenerator.beats width
          { r with requestSize := r.requestSize - width } = m + 1 := by
        have e : CommandGenerator.beats width r = r.requestSize / width := rfl
        simp only [CommandGenerator.beats]
        omega
      simp only [hm, show m + 2 - 1 = m + 1 by omega, List.replicate_succ,
        List.cons_append, List.cons.injEq, Prod.mk.injEq] at hbeats
      obtain ⟨⟨rfl, rfl⟩, rfl⟩ := hbeats
      refine ⟨rfl, fun b hb => List.mem_append_right taken hb, fun h => absurd h one,
        fun _ => ⟨rfl, { r with requestSize := r.requestSize - width } :: taken, rfl, ?_⟩⟩
      rw [List.flatMap_cons, Request.beatList_eq (by omega), smaller]
      simp

end Lane
end MCsim
