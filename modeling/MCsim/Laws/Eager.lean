import MCsim.Laws.General

/-!
# The general command schedulers do not wait

`Sends` says that a call of `PUSH`, `FCFS` or `FRFCFS` may send the front of a queue that can be issued.
Here is the other half: a call that sends nothing has found no such front. `PUSH` keeps a candidate once
it has one; `FCFS` serves the first queue that has one; `FRFCFS` keeps its candidate up to the last queue,
where it is sent.
-/

namespace MCsim

open CommandScheduler

/-! ## PUSH -/

namespace Push

variable {spec : DeviceSpec} {check : Answers} {s s' : CommandScheduler}

/-- The second scan drops no candidate. -/
theorem foldlM_secondScan_none (general : s.General) (l : List Nat) {best : Option (BusPacket × Nat)}
    (scanned : l.foldlM (secondScan check) (s, best) = some (s', none)) : best = none := by
  induction l generalizing best with
  | nil =>
    obtain ⟨_, rfl⟩ := Prod.mk.inj (Option.some.inj scanned)
    rfl
  | cons i l ih =>
    rw [List.foldlM_cons, secondScan_general general] at scanned
    cases hc : s.candidate check i with
    | none =>
      rw [hc] at scanned
      exact ih scanned
    | some c =>
      rw [hc] at scanned
      cases best with
      | none => rfl
      | some b =>
        have kept := ih scanned
        split at kept <;> cases kept

/-- **`PUSH` sends nothing only where no front can be issued.** -/
theorem commandSchedule_idle (general : s.General)
    (called : commandSchedule spec check s = some (s', none)) :
    ∀ i < s.queueCount, s.candidate check i = none := by
  have bound : ∀ i ∈ List.range s.queueCount, i < s.queueCount := fun i h => List.mem_range.mp h
  obtain ⟨b, hb, chosen, found⟩ := @foldl_firstScan check s general
    (List.range s.queueCount) bound none fun _ _ h => by cases h
  obtain ⟨b', hb', _⟩ := foldlM_secondScan general (List.range s.queueCount) bound b chosen
    fun h => (found h).2
  unfold commandSchedule at called
  simp only [hb, hb', Option.map_some, Option.some.injEq] at called
  cases b' with
  | none =>
    have empty := foldlM_secondScan_none general _ hb'
    exact fun i hi => (found empty).2 i (List.mem_range.mpr hi)
  | some best => simp at called

end Push

/-! ## FCFS -/

namespace Fcfs

variable {spec : DeviceSpec} {check : Answers}

theorem scheduleFrom_idle {s : CommandScheduler} (general : s.General) (l : List Nat)
    (idle : (scheduleFrom spec check l s).2 = none) : ∀ i ∈ l, s.candidate check i = none := by
  induction l generalizing s with
  | nil => exact fun i hi => absurd hi List.not_mem_nil
  | cons i l ih =>
    have look : { s with scheduledCommand := none }.look i true =
        ({ s with scheduledCommand := none }, (s.waiting i).head?) :=
      look_general (s := { s with scheduledCommand := none }) general i
    have later := ih (s := { s with scheduledCommand := none }) general
    unfold scheduleFrom at idle
    rw [if_neg (by simp [CommandQueue.isPerRequestor, (general i).1]), look] at idle
    have here : s.candidate check i = none ∧
        (scheduleFrom spec check l { s with scheduledCommand := none }).2 = none := by
      unfold candidate
      cases front : (s.waiting i).head? with
      | none =>
        rw [front] at idle
        exact ⟨rfl, idle⟩
      | some c =>
        rw [front] at idle
        dsimp only at idle
        split at idle
        · cases idle
        · next can => exact ⟨Option.filter_eq_none_iff.mpr fun x hx => Option.some.inj hx ▸ can, idle⟩
    intro j hj
    rcases List.mem_cons.mp hj with rfl | hj
    · exact here.1
    · exact later here.2 j hj

/-- **`FCFS` sends nothing only where no front can be issued.** -/
theorem commandSchedule_idle {s : CommandScheduler} (general : s.General)
    (idle : (commandSchedule spec check s).2 = none) :
    ∀ i < s.queueCount, s.candidate check i = none :=
  fun i hi => scheduleFrom_idle general _ idle i (List.mem_range.mpr hi)

end Fcfs

/-! ## FRFCFS -/

namespace Frfcfs

variable {spec : DeviceSpec} {check : Answers}

/-- Nothing is kept only where nothing was kept before and the front cannot be issued. -/
theorem keep_eq_none {s : CommandScheduler} {i : Nat} {best : Option (BusPacket × Nat)}
    (nothing : keep check s i best (s.waiting i).head? = none) :
    best = none ∧ s.candidate check i = none := by
  unfold keep at nothing
  unfold candidate
  cases front : (s.waiting i).head? with
  | none =>
    rw [front] at nothing
    exact ⟨nothing, rfl⟩
  | some c =>
    rw [front] at nothing
    dsimp only at nothing
    split at nothing
    · rcases better_eq best c i with e | e
      · rw [e] at nothing
        cases nothing
      · rw [e] at nothing
        subst nothing
        simp [better] at e
    · next can => exact ⟨nothing, Option.filter_eq_none_iff.mpr fun x hx => Option.some.inj hx ▸ can⟩

/-- What is kept at the last queue is sent. -/
theorem scheduleFrom_idle {s : CommandScheduler} (general : s.General) (l : List Nat)
    (ends : l.getLast? = some (s.queueCount - 1)) {best : Option (BusPacket × Nat)}
    (idle : (scheduleFrom spec check l s best).2 = none) :
    best = none ∧ ∀ i ∈ l, s.candidate check i = none := by
  induction l generalizing best with
  | nil => cases ends
  | cons i l ih =>
    unfold scheduleFrom at idle
    rw [if_neg (by simp [CommandQueue.isPerRequestor, (general i).1]), look_general general] at idle
    dsimp only at idle
    have here : keep check s i best (s.waiting i).head? = none ∧
        ∀ j ∈ l, s.candidate check j = none := by
      generalize keep check s i best (s.waiting i).head? = best' at idle ⊢
      cases l with
      | nil =>
        obtain rfl : i = s.queueCount - 1 := by simpa using ends
        rw [if_pos rfl] at idle
        cases best' with
        | none => exact ⟨rfl, fun j hj => absurd hj List.not_mem_nil⟩
        | some b => cases idle
      | cons j l =>
        have ends' : (j :: l).getLast? = some (s.queueCount - 1) := by rwa [List.getLast?_cons_cons] at ends
        split at idle
        · cases best' with
          | none => exact ih ends' idle
          | some b => cases idle
        · exact ih ends' idle
    obtain ⟨nothing, later⟩ := here
    obtain ⟨before, none_⟩ := keep_eq_none nothing
    refine ⟨before, fun j hj => ?_⟩
    rcases List.mem_cons.mp hj with rfl | hj
    · exact none_
    · exact later j hj

/-- **`FRFCFS` sends nothing only where no front can be issued.** -/
theorem commandSchedule_idle {s : CommandScheduler} (general : s.General)
    (idle : (commandSchedule spec check s).2 = none) :
    ∀ i < s.queueCount, s.candidate check i = none := by
  intro i hi
  have ends : (List.range s.queueCount).getLast? = some (s.queueCount - 1) := by
    rw [List.getLast?_range, if_neg (by omega)]
  exact (scheduleFrom_idle (s := { s with scheduledCommand := none }) general _ ends idle).2 i
    (List.mem_range.mpr hi)

end Frfcfs

/-! ## As policies -/

/-- A command scheduler that sends a front that can be issued wherever there is one. -/
def CommandPolicy.Eager {κ : Type} (policy : CommandPolicy κ) : Prop :=
  ∀ ⦃spec : DeviceSpec⦄ ⦃check : Answers⦄ ⦃s s' : CommandScheduler⦄ ⦃priv priv' : κ⦄, s.General →
    policy.commandSchedule spec check s priv = some (s', priv', none) →
      ∀ i < s.queueCount, s.candidate check i = none

theorem Push.policy_eager : Push.policy.Eager := by
  intro spec check s s' priv priv' general called
  obtain ⟨⟨s₁, out⟩, returned, same⟩ := Option.map_eq_some_iff.mp called
  obtain ⟨rfl, _, rfl⟩ : s₁ = s' ∧ () = priv' ∧ out = none := by simpa using same
  exact Push.commandSchedule_idle general returned

theorem Fcfs.policy_eager : Fcfs.policy.Eager := by
  intro spec check s s' priv priv' general called
  have idle : (Fcfs.commandSchedule spec check s).2 = none := by
    simp only [Fcfs.policy, Option.some.injEq, Prod.mk.injEq] at called
    exact called.2.2
  exact Fcfs.commandSchedule_idle general idle

theorem Frfcfs.policy_eager : Frfcfs.policy.Eager := by
  intro spec check s s' priv priv' general called
  have idle : (Frfcfs.commandSchedule spec check s).2 = none := by
    simp only [Frfcfs.policy, Option.some.injEq, Prod.mk.injEq] at called
    exact called.2.2
  exact Frfcfs.commandSchedule_idle general idle

end MCsim
