import MCsim.ClockDomain
import Mathlib.Algebra.Order.Floor.Div
import Mathlib.Tactic.Ring

/-!
# The clocks do not drift

Counting the rounds that the two counters have finished together, the sum of all that was added to the
first counter is `rounds * lcm + counter1`, and that of the second `rounds * lcm + counter2`. After every
update the second counter is at most one `clock2` ahead (`Paced`), so the calls are the updates' time
divided by `clock2`, rounded up, with no error that adds up.

Both counters are multiples of their clocks and stay below a multiple of both, so the next multiple is at
most the least common one: a bound on the counters that the code does not show.
-/

namespace MCsim
namespace ClockDomainCrosser

variable {clock1 clock2 n calls fuel : Nat} {x : ClockDomainCrosser}

/-- A multiple below another is at least one divisor below it. -/
theorem add_le_of_dvd {d a l : Nat} (ha : d ∣ a) (hl : d ∣ l) (below : a < l) : a + d ≤ l := by
  obtain ⟨i, rfl⟩ := ha
  obtain ⟨j, rfl⟩ := hl
  have less : i < j := Nat.lt_of_mul_lt_mul_left below
  calc d * i + d = d * (i + 1) := by ring
    _ ≤ d * j := Nat.mul_le_mul_left d less

/-- Where the counters stand after some updates and calls. -/
structure Paced (clock1 clock2 n calls : Nat) (x : ClockDomainCrosser) : Prop where
  rates : x.clock1 = clock1 ∧ x.clock2 = clock2
  connected : x.callback = true
  rounds : ∃ rounds, n * clock1 = rounds * Nat.lcm clock1 clock2 + x.counter1 ∧
    calls * clock2 = rounds * Nat.lcm clock1 clock2 + x.counter2
  caughtUp : x.counter1 ≤ x.counter2
  close : x.counter2 < x.counter1 + clock2
  first : x.counter1 < Nat.lcm clock1 clock2
  second : x.counter2 ≤ Nat.lcm clock1 clock2

/-- A counter is a multiple of its clock. -/
theorem dvd_counter {clock total rounds l counter : Nat} (hl : clock ∣ l)
    (sum : total * clock = rounds * l + counter) : clock ∣ counter :=
  (Nat.dvd_add_right (Dvd.dvd.mul_left hl rounds)).mp (sum ▸ Nat.dvd_mul_left clock total)

/-- What the loop keeps while the second counter is behind `target`. -/
structure Racing (clock1 clock2 l rounds calls target : Nat) (st : ClockDomainCrosser × Effects) :
    Prop where
  rates : st.1.clock1 = clock1 ∧ st.1.clock2 = clock2
  connected : st.1.callback = true
  still : st.1.counter1 = target
  made : (calls + st.2.calls) * clock2 = rounds * l + st.1.counter2
  close : st.1.counter2 < target + clock2
  bound : st.1.counter2 ≤ l
  sums : ∀ v ∈ st.2.sums, v ≤ l

/-- **A turn of the loop** brings the second counter one `clock2` on, and not past the multiple. -/
theorem Racing.turn {l rounds target : Nat} {st : ClockDomainCrosser × Effects}
    (racing : Racing clock1 clock2 l rounds calls target st) (hl : clock2 ∣ l) (fits : l < 2 ^ 64)
    (below : target ≤ l) (late : behind st = true) :
    Racing clock1 clock2 l rounds calls target (catchUp st) ∧
      (catchUp st).1.counter2 = st.1.counter2 + clock2 := by
  have still := racing.still
  have less : st.1.counter2 < st.1.counter1 := of_decide_eq_true late
  have next : st.1.counter2 + clock2 ≤ l :=
    add_le_of_dvd (dvd_counter hl racing.made) hl (by omega)
  have moved : (catchUp st).1.counter2 = st.1.counter2 + clock2 := by
    show (st.1.counter2 + st.1.clock2) % 2 ^ 64 = _
    rw [racing.rates.2, Nat.mod_eq_of_lt (by omega)]
  have called : (catchUp st).2.calls = st.2.calls + 1 := if_pos racing.connected
  refine ⟨⟨racing.rates, racing.connected, still, ?_, ?_, ?_, ?_⟩, moved⟩
  · rw [called, moved]
    have made := racing.made
    calc (calls + (st.2.calls + 1)) * clock2 = (calls + st.2.calls) * clock2 + clock2 := by ring
      _ = rounds * l + (st.1.counter2 + clock2) := by omega
  · rw [moved]
    omega
  · rw [moved]
    exact next
  · intro v hv
    rcases List.mem_append.mp hv with hv | hv
    · exact racing.sums v hv
    · obtain rfl : v = st.1.counter2 + st.1.clock2 := by simpa using hv
      rw [racing.rates.2]
      exact next

/-- **An update** takes the counters on: the loop ends, no sum passes the least common multiple, and the
calls it makes are those that were due. -/
theorem Paced.update (paced : Paced clock1 clock2 n calls x) (pos1 : 1 ≤ clock1) (pos2 : 1 ≤ clock2)
    (fits : Nat.lcm clock1 clock2 < 2 ^ 64) (enough : Nat.lcm clock1 clock2 < fuel) :
    ∃ x' e, x.update fuel = some (x', e) ∧ Paced clock1 clock2 (n + 1) (calls + e.calls) x' ∧
      ∀ v ∈ e.sums, v ≤ Nat.lcm clock1 clock2 := by
  obtain ⟨⟨rate1, rate2⟩, connected, ⟨rounds, sum1, sum2⟩, caughtUp, close, first, second⟩ := paced
  unfold ClockDomainCrosser.update
  by_cases same : x.clock1 = x.clock2 ∧ x.callback = true
  · -- equal clocks: the counters stay at 0
    obtain rfl : clock1 = clock2 := by rw [← rate1, ← rate2]; exact same.1
    rw [if_pos same]
    have one : Nat.lcm clock1 clock1 = clock1 := Nat.lcm_self clock1
    refine ⟨x, { calls := 1 }, rfl, ⟨⟨rate1, rate2⟩, connected, ⟨rounds + 1, ?_, ?_⟩, caughtUp, close,
      first, second⟩, by simp⟩
    · rw [one] at sum1 ⊢
      calc (n + 1) * clock1 = n * clock1 + clock1 := by ring
        _ = (rounds + 1) * clock1 + x.counter1 := by rw [sum1]; ring
    · rw [one] at sum2 ⊢
      calc (calls + 1) * clock1 = calls * clock1 + clock1 := by ring
        _ = (rounds + 1) * clock1 + x.counter2 := by rw [sum2]; ring
  · rw [if_neg same]
    generalize hl : Nat.lcm clock1 clock2 = l at *
    have dvd1 : clock1 ∣ l := hl ▸ Nat.dvd_lcm_left clock1 clock2
    have dvd2 : clock2 ∣ l := hl ▸ Nat.dvd_lcm_right clock1 clock2
    have target : x.counter1 + clock1 ≤ l := add_le_of_dvd (dvd_counter dvd1 sum1) dvd1 first
    have cut : (x.counter1 + x.clock1) % 2 ^ 64 = x.counter1 + clock1 := by
      rw [rate1, Nat.mod_eq_of_lt (by omega)]
    have start : Racing clock1 clock2 l rounds calls (x.counter1 + clock1)
        ({ x with counter1 := (x.counter1 + x.clock1) % 2 ^ 64 }, { sums := [x.counter1 + x.clock1] }) := by
      refine ⟨⟨rate1, rate2⟩, connected, cut, sum2, ?_, second, ?_⟩
      · show x.counter2 < _
        omega
      · intro v hv
        obtain rfl : v = x.counter1 + x.clock1 := by simpa using hv
        rw [rate1]
        exact target
    obtain ⟨⟨y, e⟩, looped, racing, done⟩ := Lib.While.loop_total behind
      catchUp (Racing clock1 clock2 l rounds calls (x.counter1 + clock1))
      (fun st => x.counter1 + clock1 - st.1.counter2)
      (fun st racing tested => by
        have less : st.1.counter2 < st.1.counter1 := of_decide_eq_true tested
        have at_ := racing.still
        obtain ⟨kept, moved⟩ := racing.turn dvd2 fits target tested
        exact ⟨kept, by omega⟩) start (show _ < fuel by dsimp only; omega)
    have at_ : y.counter1 = x.counter1 + clock1 := racing.still
    have past : x.counter1 + clock1 ≤ y.counter2 := by
      have : ¬ y.counter2 < y.counter1 := of_decide_eq_false done
      omega
    have total : (n + 1) * clock1 = rounds * l + (x.counter1 + clock1) := by
      rw [Nat.add_mul, sum1, Nat.one_mul, Nat.add_assoc]
    dsimp only
    rw [looped, Option.map_some]
    dsimp only
    by_cases meet : y.counter1 = y.counter2
    · -- the two meet: at a multiple of both clocks, which is the least
      rw [if_pos meet]
      have multiple : l ∣ x.counter1 + clock1 := by
        rw [← hl]
        apply Nat.lcm_dvd
        · exact dvd_counter dvd1 total
        · have second := dvd_counter dvd2 racing.made
          rwa [← meet, at_] at second
      have least : x.counter1 + clock1 = l :=
        Nat.le_antisymm target (Nat.le_of_dvd (by omega) multiple)
      refine ⟨_, e, rfl, ⟨racing.rates, racing.connected, ⟨rounds + 1, ?_, ?_⟩, Nat.le_refl _, ?_, ?_, Nat.zero_le _⟩,
        racing.sums⟩
      · rw [hl, total, least]
        ring
      · have made := racing.made
        rw [← meet, at_, least] at made
        rw [hl, made]
        ring
      · show 0 < 0 + clock2
        omega
      · show 0 < Nat.lcm clock1 clock2
        omega
    · rw [if_neg meet]
      have bound : y.counter2 ≤ l := racing.bound
      have near : y.counter2 < x.counter1 + clock1 + clock2 := racing.close
      refine ⟨y, e, rfl, ⟨racing.rates, racing.connected, ⟨rounds, ?_, ?_⟩, ?_, ?_, ?_, ?_⟩, racing.sums⟩
      · rw [hl, at_]
        exact total
      · rw [hl]
        exact racing.made
      · omega
      · omega
      · rw [hl]
        omega
      · rw [hl]
        exact bound

/-! ## Runs -/

theorem paced_create (pos1 : 1 ≤ clock1) (pos2 : 1 ≤ clock2) :
    Paced clock1 clock2 0 0 (create clock1 clock2) := by
  refine ⟨⟨rfl, rfl⟩, rfl, ⟨0, ?_, ?_⟩, Nat.le_refl _, ?_, Nat.lcm_pos pos1 pos2, Nat.zero_le _⟩
  · simp [create]
  · simp [create]
  · show 0 < 0 + clock2
    omega

/-- Updates in a row. -/
theorem Paced.run (paced : Paced clock1 clock2 n calls x) (pos1 : 1 ≤ clock1) (pos2 : 1 ≤ clock2)
    (fits : Nat.lcm clock1 clock2 < 2 ^ 64) (enough : Nat.lcm clock1 clock2 < fuel) (more : Nat) :
    ∃ x' es, Lib.Machine.run (step fuel) x (List.replicate more ()) = some (x', es) ∧
      Paced clock1 clock2 (n + more) (calls + (es.map Effects.calls).sum) x' ∧
      ∀ e ∈ es, ∀ v ∈ e.sums, v ≤ Nat.lcm clock1 clock2 := by
  induction more generalizing n calls x with
  | zero => exact ⟨x, [], rfl, paced, by simp⟩
  | succ more ih =>
    obtain ⟨x₁, e, updated, paced₁, sums⟩ := paced.update pos1 pos2 fits enough
    obtain ⟨x', es, ran, paced', rest⟩ := ih paced₁
    refine ⟨x', e :: es, Lib.Machine.run_cons_eq_some.mpr ⟨x₁, e, es, updated, ran, rfl⟩, ?_, ?_⟩
    · have time : n + (more + 1) = n + 1 + more := by omega
      rw [time, List.map_cons, List.sum_cons, ← Nat.add_assoc]
      exact paced'
    · intro e' he'
      rcases List.mem_cons.mp he' with rfl | he'
      · exact sums
      · exact rest e' he'

/-- The calls that are due, rounded up. -/
theorem Paced.calls_eq (paced : Paced clock1 clock2 n calls x) (pos2 : 1 ≤ clock2) :
    calls = (n * clock1) ⌈/⌉ clock2 := by
  obtain ⟨rounds, sum1, sum2⟩ := paced.rounds
  have caughtUp := paced.caughtUp
  have close := paced.close
  apply Nat.le_antisymm
  · -- one call fewer would leave the second counter behind
    by_contra more
    have fewer : (n * clock1) ⌈/⌉ clock2 ≤ calls - 1 := by omega
    rw [ceilDiv_le_iff_le_mul pos2] at fewer
    have last : clock2 * (calls - 1) + clock2 = calls * clock2 := by
      obtain ⟨m, rfl⟩ : ∃ m, calls = m + 1 := ⟨calls - 1, by omega⟩
      rw [Nat.add_sub_cancel]
      ring
    omega
  · rw [ceilDiv_le_iff_le_mul pos2, Nat.mul_comm clock2]
    omega

/-- **The clocks do not drift**: after any number of updates the callback was called as often as the
other clock has ticked, rounded up. Every loop ends, and no sum that is formed, so no counter, passes the
least common multiple of the clocks. -/
theorem update_ceilDiv (clock1 clock2 : Nat) (pos1 : 1 ≤ clock1) (pos2 : 1 ≤ clock2)
    (fits : Nat.lcm clock1 clock2 < 2 ^ 64) (n fuel : Nat) (enough : Nat.lcm clock1 clock2 < fuel) :
    ∃ x es, Lib.Machine.run (step fuel) (create clock1 clock2) (List.replicate n ()) = some (x, es) ∧
      (es.map Effects.calls).sum = (n * clock1) ⌈/⌉ clock2 ∧
      (clock1 = clock2 → (es.map Effects.calls).sum = n) ∧
      (∀ e ∈ es, ∀ v ∈ e.sums, v ≤ Nat.lcm clock1 clock2) ∧
      x.counter1 ≤ Nat.lcm clock1 clock2 ∧ x.counter2 ≤ Nat.lcm clock1 clock2 := by
  obtain ⟨x, es, ran, paced, sums⟩ := (paced_create pos1 pos2).run pos1 pos2 fits enough n
  rw [Nat.zero_add, Nat.zero_add] at paced
  have due := paced.calls_eq pos2
  refine ⟨x, es, ran, due, ?_, sums, paced.first.le, paced.second⟩
  rintro rfl
  rw [due, Nat.mul_comm]
  exact smul_ceilDiv pos1 n

/-- The law for a memory at 800 MHz and a processor at 3000 MHz, over ten updates. -/
theorem update_ceilDiv_memory : ∃ x es,
    Lib.Machine.run (step 12001) (setCPUClockSpeed {} 800 3000) (List.replicate 10 ()) = some (x, es) ∧
      (es.map Effects.calls).sum = 3 ∧ x.counter1 ≤ 12000 := by
  obtain ⟨x, es, ran, due, _, _, first, _⟩ :=
    update_ceilDiv 800 3000 (by decide) (by decide) (by decide) 10 12001 (by decide)
  exact ⟨x, es, ran, due.trans (by decide), first⟩

end ClockDomainCrosser
end MCsim
