import Mathlib.Data.List.Basic
import Mathlib.Tactic.Common

/-!
# Step machines and their runs

A machine is a partial step function: a state and an input give the next state and an output, or
nothing where the step is undefined. A run feeds a list of inputs and collects the outputs.

Seven rules carry every argument about whole runs. `run_invariant` is induction over a run: what the
start has and each step keeps, every reached state has. `run_defined` is the same for being defined,
`run_history` the same for a relation with the inputs fed and the outputs collected.
`run_invariant_along` is the same for the runs whose steps all meet a condition. `run_projects` sees a
run through a view of its states: where the view moves on its own, two runs that look alike to it stay
alike. `run_simulates` carries a run out on another machine, a step by several. `count_le_one` bounds
events: where one event sets a latch, the latch stays while something holds, and a latched state has no
event, a stretch of steps throughout which that something holds has one event at most.
-/

namespace Lib.Machine

variable {σ ι ο : Type}

/-- A partial step: the next state and what the step puts out, or nothing. -/
abbrev Step (σ ι ο : Type) := σ → ι → Option (σ × ο)

/-- Feed a list of inputs, collecting the outputs in order. -/
def run (step : Step σ ι ο) : σ → List ι → Option (σ × List ο)
  | s, [] => some (s, [])
  | s, i :: is => (step s i).bind fun p => (run step p.1 is).map fun q => (q.1, p.2 :: q.2)

/-- Every step that the run takes satisfies a relation between the state before it, its input, the
state after it and its output. -/
def Along (step : Step σ ι ο) (P : σ → ι → σ → ο → Prop) : σ → List ι → Prop
  | _, [] => True
  | s, i :: is => ∀ s' o, step s i = some (s', o) → P s i s' o ∧ Along step P s' is

variable {step : Step σ ι ο}

@[simp] theorem run_nil (s : σ) : run step s [] = some (s, []) := rfl

/-- A run that takes a first step, taken apart. -/
theorem run_cons_eq_some {s t : σ} {i : ι} {is : List ι} {os : List ο} :
    run step s (i :: is) = some (t, os) ↔
      ∃ s' o os', step s i = some (s', o) ∧ run step s' is = some (t, os') ∧ os = o :: os' := by
  simp only [run, Option.bind_eq_some_iff, Option.map_eq_some_iff, Prod.exists, Prod.mk.injEq]
  constructor
  · rintro ⟨s', o, hs, t', os', hr, rfl, rfl⟩
    exact ⟨s', o, os', hs, hr, rfl⟩
  · rintro ⟨s', o, os', hs, hr, rfl⟩
    exact ⟨s', o, hs, t, os', hr, rfl, rfl⟩

/-- A run over two input lists in series is a run over the first and one over the second from where
it ended. -/
theorem run_append_eq_some {s t : σ} {is js : List ι} {os : List ο} :
    run step s (is ++ js) = some (t, os) ↔
      ∃ m os₁ os₂, run step s is = some (m, os₁) ∧ run step m js = some (t, os₂) ∧
        os = os₁ ++ os₂ := by
  induction is generalizing s os with
  | nil => simp
  | cons i is ih =>
    simp only [List.cons_append, run_cons_eq_some, ih]
    constructor
    · rintro ⟨s', o, _, hs, ⟨m, os₁, os₂, h₁, h₂, rfl⟩, rfl⟩
      exact ⟨m, o :: os₁, os₂, ⟨s', o, os₁, hs, h₁, rfl⟩, h₂, rfl⟩
    · rintro ⟨m, _, os₂, ⟨s', o, os₁, hs, h₁, rfl⟩, h₂, rfl⟩
      exact ⟨s', o, os₁ ++ os₂, hs, ⟨m, os₁, os₂, h₁, h₂, rfl⟩, rfl⟩

/-- **Induction over a conditional run**: an invariant that every step meeting the condition keeps
holds wherever such a run ends. -/
theorem run_invariant_along (Inv : σ → Prop) {P : σ → ι → σ → ο → Prop}
    (keep : ∀ {s i s' o}, Inv s → step s i = some (s', o) → P s i s' o → Inv s')
    {s t : σ} {is : List ι} {os : List ο} (start : Inv s) (along : Along step P s is)
    (ran : run step s is = some (t, os)) : Inv t := by
  induction is generalizing s os with
  | nil =>
    simp only [run_nil, Option.some.injEq, Prod.mk.injEq] at ran
    exact ran.1 ▸ start
  | cons i is ih =>
    obtain ⟨s', o, os', hs, hr, rfl⟩ := run_cons_eq_some.mp ran
    obtain ⟨here, later⟩ := along s' o hs
    exact ih (keep start hs here) later hr

/-- The trivial relation holds along every run. -/
theorem along_true (s : σ) (is : List ι) : Along step (fun _ _ _ _ => True) s is := by
  induction is generalizing s with
  | nil => trivial
  | cons i is ih => exact fun s' o _ => ⟨trivial, ih s'⟩

/-- A history carried on from where a conditional run starts. -/
theorem run_history_along_from (History : List ι → σ → List ο → Prop) {P : σ → ι → σ → ο → Prop}
    (extend : ∀ {is s os i s' o}, History is s os → step s i = some (s', o) → P s i s' o →
      History (is ++ [i]) s' (os ++ [o]))
    {s t : σ} {past is : List ι} {told os : List ο} (start : History past s told)
    (along : Along step P s is) (ran : run step s is = some (t, os)) :
    History (past ++ is) t (told ++ os) := by
  induction is generalizing s past told os with
  | nil =>
    obtain ⟨rfl, rfl⟩ : s = t ∧ [] = os := by simpa using ran
    simpa using start
  | cons i is ih =>
    obtain ⟨s', o, os', hs, hr, rfl⟩ := run_cons_eq_some.mp ran
    obtain ⟨here, later⟩ := along s' o hs
    simpa using ih (extend start hs here) later hr

/-- A history carried on from where a run starts. -/
theorem run_history_from (History : List ι → σ → List ο → Prop)
    (extend : ∀ {is s os i s' o}, History is s os → step s i = some (s', o) →
      History (is ++ [i]) s' (os ++ [o]))
    {s t : σ} {past is : List ι} {told os : List ο} (start : History past s told)
    (ran : run step s is = some (t, os)) : History (past ++ is) t (told ++ os) :=
  run_history_along_from History (fun history stepped _ => extend history stepped) start (along_true s is)
    ran

/-- **Induction over a conditional run and its history.** -/
theorem run_history_along (History : List ι → σ → List ο → Prop) {P : σ → ι → σ → ο → Prop}
    (extend : ∀ {is s os i s' o}, History is s os → step s i = some (s', o) → P s i s' o →
      History (is ++ [i]) s' (os ++ [o]))
    {s t : σ} {is : List ι} {os : List ο} (start : History [] s []) (along : Along step P s is)
    (ran : run step s is = some (t, os)) : History is t os :=
  run_history_along_from History extend start along ran

/-- **Induction over a run and its history**: a relation between the inputs fed, the state reached
and the outputs collected, which every step carries on, holds at the end of every run. -/
theorem run_history (History : List ι → σ → List ο → Prop)
    (extend : ∀ {is s os i s' o}, History is s os → step s i = some (s', o) →
      History (is ++ [i]) s' (os ++ [o]))
    {s t : σ} {is : List ι} {os : List ο} (start : History [] s [])
    (ran : run step s is = some (t, os)) : History is t os :=
  run_history_from History extend start ran

/-- What every step meeting the condition has, from the states of an invariant, holds along the
run. -/
theorem along_invariant (Inv : σ → Prop) {P Q : σ → ι → σ → ο → Prop}
    (keep : ∀ {s i s' o}, Inv s → step s i = some (s', o) → P s i s' o → Inv s' ∧ Q s i s' o)
    {s : σ} {is : List ι} (start : Inv s) (along : Along step P s is) : Along step Q s is := by
  induction is generalizing s with
  | nil => trivial
  | cons i is ih =>
    intro s' o hs
    obtain ⟨here, later⟩ := along s' o hs
    obtain ⟨inv, holds⟩ := keep start hs here
    exact ⟨holds, ih inv later⟩

/-- What holds along a run holds of its last step. -/
theorem along_last {P : σ → ι → σ → ο → Prop} {s t t' : σ} {is : List ι} {i : ι} {os : List ο}
    {o : ο} (along : Along step P s (is ++ [i])) (ran : run step s is = some (t, os))
    (last : step t i = some (t', o)) : P t i t' o := by
  induction is generalizing s os with
  | nil =>
    obtain ⟨rfl, _⟩ : s = t ∧ [] = os := by simpa using ran
    exact (along t' o last).1
  | cons j is ih =>
    obtain ⟨s', o', os', hs, hr, rfl⟩ := run_cons_eq_some.mp ran
    exact ih (along s' o' hs).2 hr

/-- What every input meets holds along every run. -/
theorem along_of_forall (step : Step σ ι ο) {Q : ι → Prop} (s : σ) {is : List ι} (h : ∀ i ∈ is, Q i) :
    Along step (fun _ i _ _ => Q i) s is := by
  induction is generalizing s with
  | nil => trivial
  | cons i is ih =>
    exact fun s' o _ => ⟨h i List.mem_cons_self, ih s' fun j hj => h j (List.mem_cons_of_mem i hj)⟩

/-- What holds of the step after every prefix of a run holds along it. -/
theorem along_of_prefixes {P : σ → ι → σ → ο → Prop} {s : σ} {is : List ι}
    (h : ∀ before i later, is = before ++ i :: later → ∀ t os, run step s before = some (t, os) →
      ∀ t' o, step t i = some (t', o) → P t i t' o) : Along step P s is := by
  induction is generalizing s with
  | nil => trivial
  | cons i is ih =>
    intro s' o hs
    refine ⟨h [] i is rfl s [] rfl s' o hs, ih fun before j later split t os ran t' o' ht => ?_⟩
    exact h (i :: before) j later (by rw [split]; rfl) t (o :: os)
      (run_cons_eq_some.mpr ⟨s', o, os, hs, ran, rfl⟩) t' o' ht

/-- Two relations that hold along a run hold together. -/
theorem along_and {P Q : σ → ι → σ → ο → Prop} {s : σ} {is : List ι} (hP : Along step P s is)
    (hQ : Along step Q s is) : Along step (fun s i s' o => P s i s' o ∧ Q s i s' o) s is := by
  induction is generalizing s with
  | nil => trivial
  | cons i is ih =>
    intro s' o hs
    exact ⟨⟨(hP s' o hs).1, (hQ s' o hs).1⟩, ih (hP s' o hs).2 (hQ s' o hs).2⟩

/-- What every output of a run meets holds along it. -/
theorem along_of_outputs {Q : ο → Prop} {s t : σ} {is : List ι} {os : List ο}
    (ran : run step s is = some (t, os)) (h : ∀ o ∈ os, Q o) :
    Along step (fun _ _ _ o => Q o) s is := by
  induction is generalizing s os with
  | nil => trivial
  | cons i is ih =>
    obtain ⟨s₁, o₁, os', hs, hr, rfl⟩ := run_cons_eq_some.mp ran
    intro s' o hs'
    -- a step has one outcome
    obtain ⟨rfl, rfl⟩ : s₁ = s' ∧ o₁ = o := by simpa [hs] using hs'
    exact ⟨h o₁ List.mem_cons_self, ih hr fun o ho => h o (List.mem_cons_of_mem o₁ ho)⟩

/-- **Induction over a run**: an invariant that every step keeps holds wherever a run ends. -/
theorem run_invariant (Inv : σ → Prop)
    (keep : ∀ {s i s' o}, Inv s → step s i = some (s', o) → Inv s')
    {s t : σ} {is : List ι} {os : List ο} (start : Inv s)
    (ran : run step s is = some (t, os)) : Inv t :=
  run_invariant_along Inv (P := fun _ _ _ _ => True) (fun h hs _ => keep h hs) start
    (along_true s is) ran

/-- Every step that the run takes or gets stuck at starts from a state and with an input that meet a
condition. -/
def Meets (step : Step σ ι ο) (P : σ → ι → Prop) : σ → List ι → Prop
  | _, [] => True
  | s, i :: is => P s i ∧ ∀ s' o, step s i = some (s', o) → Meets step P s' is

theorem Meets.along {P : σ → ι → Prop} {s : σ} {is : List ι} (meets : Meets step P s is) :
    Along step (fun s i _ _ => P s i) s is := by
  induction is generalizing s with
  | nil => trivial
  | cons i is ih => exact fun s' o hs => ⟨meets.1, ih (meets.2 s' o hs)⟩

/-- A condition on the inputs alone. -/
theorem meets_of_forall (step : Step σ ι ο) {P : ι → Prop} (s : σ) {is : List ι} (h : ∀ i ∈ is, P i) :
    Meets step (fun _ i => P i) s is := by
  induction is generalizing s with
  | nil => trivial
  | cons i is ih =>
    exact ⟨h i List.mem_cons_self, fun s' _ _ => ih s' fun j hj => h j (List.mem_cons_of_mem i hj)⟩

/-- A condition that every state of an invariant meets. -/
theorem meets_of_invariant (Inv : σ → Prop) {P : σ → ι → Prop} (here : ∀ {s i}, Inv s → P s i)
    (keep : ∀ {s i s' o}, Inv s → step s i = some (s', o) → Inv s') {s : σ} (start : Inv s)
    (is : List ι) : Meets step P s is := by
  induction is generalizing s with
  | nil => trivial
  | cons i is ih => exact ⟨here start, fun s' o hs => ih (keep start hs)⟩

theorem Meets.and {P Q : σ → ι → Prop} {s : σ} {is : List ι} (hP : Meets step P s is)
    (hQ : Meets step Q s is) : Meets step (fun s i => P s i ∧ Q s i) s is := by
  induction is generalizing s with
  | nil => trivial
  | cons i is ih => exact ⟨⟨hP.1, hQ.1⟩, fun s' o hs => ih (hP.2 s' o hs) (hQ.2 s' o hs)⟩

/-- **Progress**: a machine whose steps are defined where a condition is met, from the states of an
invariant they keep, runs through every list of inputs that meets it throughout. -/
theorem run_defined_of_meets (Inv : σ → Prop) {P : σ → ι → Prop}
    (progress : ∀ {s i}, Inv s → P s i → ∃ s' o, step s i = some (s', o) ∧ Inv s')
    {s : σ} {is : List ι} (start : Inv s) (meets : Meets step P s is) :
    ∃ t os, run step s is = some (t, os) := by
  induction is generalizing s with
  | nil => exact ⟨s, [], rfl⟩
  | cons i is ih =>
    obtain ⟨s', o, hs, inv⟩ := progress start meets.1
    obtain ⟨t, os, hr⟩ := ih inv (meets.2 s' o hs)
    exact ⟨t, o :: os, run_cons_eq_some.mpr ⟨s', o, os, hs, hr, rfl⟩⟩

/-- What the steps of a run leave behind, told from the states around each. -/
def collect {α : Type} (step : Step σ ι ο) (f : σ → σ → List α) : σ → List ι → List α
  | _, [] => []
  | s, i :: is => ((step s i).map fun next => f s next.1 ++ collect step f next.1 is).getD []

/-- One step more leaves its part at the end. -/
theorem collect_concat {α : Type} (f : σ → σ → List α) {s t u : σ} {is : List ι} {i : ι} {os : List ο}
    {o : ο} (ran : run step s is = some (t, os)) (stepped : step t i = some (u, o)) :
    collect step f s (is ++ [i]) = collect step f s is ++ f t u := by
  induction is generalizing s os with
  | nil =>
    obtain ⟨rfl, rfl⟩ : s = t ∧ [] = os := by simpa using ran
    simp [collect, stepped]
  | cons j is ih =>
    obtain ⟨s', o', os', first, rest, rfl⟩ := run_cons_eq_some.mp ran
    rw [List.cons_append, collect, collect, first, Option.map_some, Option.map_some, Option.getD_some,
      Option.getD_some, ih rest, List.append_assoc]

/-- **The sequences a machine takes**, where a history tells what it is in and each input is taken exactly
when the history allows it. -/
theorem run_isSome_iff (History : List ι → σ → Prop) (fits : ι → Prop) {P : List ι → ι → Prop}
    (here : ∀ {seq s i}, History seq s → fits i → ((step s i).isSome = true ↔ P seq i))
    (next : ∀ {seq s i t o}, History seq s → fits i → step s i = some (t, o) → History (seq ++ [i]) t)
    {s : σ} {is : List ι} (start : History [] s) (fit : ∀ i ∈ is, fits i) :
    (run step s is).isSome = true ↔ ∀ before i after, is = before ++ i :: after → P before i := by
  have from_ : ∀ (is : List ι) (seq : List ι) (s : σ), History seq s → (∀ i ∈ is, fits i) →
      ((run step s is).isSome = true ↔
        ∀ before i after, is = before ++ i :: after → P (seq ++ before) i) := by
    intro is
    induction is with
    | nil => exact fun seq s _ _ => ⟨fun _ before i after h => by simp at h, fun _ => rfl⟩
    | cons i is ih =>
      intro seq s history fit
      have fits_i := fit i List.mem_cons_self
      have first := here history fits_i
      have later : ∀ {t o}, step s i = some (t, o) → ((run step t is).isSome = true ↔
          ∀ before j after, is = before ++ j :: after → P (seq ++ [i] ++ before) j) :=
        fun stepped => ih _ _ (next history fits_i stepped) fun j hj => fit j (List.mem_cons_of_mem i hj)
      constructor
      · intro taken
        obtain ⟨⟨t, os⟩, ran⟩ := Option.isSome_iff_exists.mp taken
        obtain ⟨t', o, os', stepped, rest, rfl⟩ := run_cons_eq_some.mp ran
        intro before j after split
        cases before with
        | nil =>
          obtain ⟨rfl, rfl⟩ := List.cons.inj split
          rw [List.append_nil]
          exact first.mp (by rw [stepped]; rfl)
        | cons b before =>
          obtain ⟨rfl, rfl⟩ := List.cons.inj split
          have deeper := (later stepped).mp (by rw [rest]; rfl) before j after rfl
          rwa [List.append_assoc] at deeper
      · intro allowed
        have taken := first.mpr (by simpa using allowed [] i is rfl)
        obtain ⟨⟨t, o⟩, stepped⟩ := Option.isSome_iff_exists.mp taken
        have rest := (later stepped).mpr fun before j after split => by
          rw [List.append_assoc]
          exact allowed (i :: before) j after (by rw [split]; rfl)
        obtain ⟨⟨t', os⟩, ran⟩ := Option.isSome_iff_exists.mp rest
        rw [run_cons_eq_some.mpr ⟨t, o, os, stepped, ran, rfl⟩]
        rfl
  exact from_ is [] s start fit

/-- The same for a condition on the inputs alone. -/
theorem run_defined (Inv : σ → Prop) (fits : ι → Prop)
    (progress : ∀ {s i}, Inv s → fits i → ∃ s' o, step s i = some (s', o) ∧ Inv s')
    {s : σ} {is : List ι} (start : Inv s) (fit : ∀ i ∈ is, fits i) :
    ∃ t os, run step s is = some (t, os) :=
  run_defined_of_meets Inv progress start (meets_of_forall step s fit)

/-- Relations that agree on every step from the states of an invariant, as long as the condition of the
run is met, hold along the same runs. The invariant need only be kept by the steps that have them. -/
theorem along_congr_of_meets (Inv : σ → Prop) {R : σ → ι → Prop} {P Q : σ → ι → σ → ο → Prop}
    (keep : ∀ {s i s' o}, Inv s → R s i → step s i = some (s', o) →
      (P s i s' o ↔ Q s i s' o) ∧ (Q s i s' o → Inv s'))
    {s : σ} {is : List ι} (start : Inv s) (meets : Meets step R s is) :
    Along step P s is ↔ Along step Q s is := by
  induction is generalizing s with
  | nil => exact Iff.rfl
  | cons i is ih =>
    constructor
    · intro along s' o hs
      obtain ⟨same, inv⟩ := keep start meets.1 hs
      have here := same.mp (along s' o hs).1
      exact ⟨here, (ih (inv here) (meets.2 s' o hs)).mp (along s' o hs).2⟩
    · intro along s' o hs
      obtain ⟨same, inv⟩ := keep start meets.1 hs
      have here := (along s' o hs).1
      exact ⟨same.mpr here, (ih (inv here) (meets.2 s' o hs)).mpr (along s' o hs).2⟩

/-- The same for a condition on the inputs alone, and an invariant that every step keeps. -/
theorem along_congr (Inv : σ → Prop) {fits : ι → Prop} {P Q : σ → ι → σ → ο → Prop}
    (keep : ∀ {s i s' o}, Inv s → fits i → step s i = some (s', o) →
      Inv s' ∧ (P s i s' o ↔ Q s i s' o))
    {s : σ} {is : List ι} (start : Inv s) (fit : ∀ i ∈ is, fits i) :
    Along step P s is ↔ Along step Q s is :=
  along_congr_of_meets Inv (fun inv fits hs => ⟨(keep inv fits hs).2, fun _ => (keep inv fits hs).1⟩)
    start (meets_of_forall step s fit)

/-- **Projection of a run**: where every step commutes with a view of the state, a part of the input
and an observation of the output, the run is seen as a run of the projected machine, which knows
nothing else. -/
theorem run_projects {τ κ ω : Type} (view : σ → τ) (part : ι → κ) (observe : ο → ω)
    (project : τ → κ → τ × ω) (Inv : σ → Prop) {P : σ → ι → σ → ο → Prop}
    (commute : ∀ {s i s' o}, Inv s → step s i = some (s', o) → P s i s' o →
      Inv s' ∧ project (view s) (part i) = (view s', observe o))
    {s t : σ} {is : List ι} {os : List ο} (start : Inv s) (along : Along step P s is)
    (ran : run step s is = some (t, os)) :
    run (fun v k => some (project v k)) (view s) (is.map part) = some (view t, os.map observe) := by
  induction is generalizing s os with
  | nil =>
    obtain ⟨rfl, rfl⟩ : s = t ∧ [] = os := by simpa using ran
    rfl
  | cons i is ih =>
    obtain ⟨s', o, os', hs, hr, rfl⟩ := run_cons_eq_some.mp ran
    obtain ⟨here, later⟩ := along s' o hs
    obtain ⟨inv, seen⟩ := commute start hs here
    exact run_cons_eq_some.mpr ⟨view s', observe o, os'.map observe, congrArg some seen,
      ih inv later hr, rfl⟩

/-! ## One step carried out by several of another machine -/

/-- Inputs that lead from a state to another, by steps that meet a condition. -/
def Leads (step : Step σ ι ο) (P : σ → ι → σ → ο → Prop) (s : σ) (is : List ι) (t : σ) : Prop :=
  Along step P s is ∧ ∃ os, run step s is = some (t, os)

namespace Leads

variable {P : σ → ι → σ → ο → Prop} {s t u : σ} {is js : List ι}

theorem nil : Leads step P s [] s := ⟨trivial, [], rfl⟩

theorem single {i : ι} {o : ο} (stepped : step s i = some (t, o)) (meets : P s i t o) :
    Leads step P s [i] t := by
  refine ⟨fun s' o' hs => ?_, [o], by simp [run, stepped]⟩
  obtain ⟨rfl, rfl⟩ : t = s' ∧ o = o' := by simpa [stepped] using hs
  exact ⟨meets, trivial⟩

theorem append (first : Leads step P s is t) (then_ : Leads step P t js u) :
    Leads step P s (is ++ js) u := by
  obtain ⟨along, os, ran⟩ := first
  induction is generalizing s os with
  | nil =>
    obtain ⟨rfl, _⟩ : s = t ∧ [] = os := by simpa using ran
    exact then_
  | cons i is ih =>
    obtain ⟨s', o, os', hs, hr, rfl⟩ := run_cons_eq_some.mp ran
    obtain ⟨rest, os'', ran'⟩ := ih (along s' o hs).2 os' hr
    refine ⟨fun s'' o' hs' => ?_, o :: os'', run_cons_eq_some.mpr ⟨s', o, os'', hs, ran', rfl⟩⟩
    obtain ⟨rfl, rfl⟩ : s' = s'' ∧ o = o' := by simpa [hs] using hs'
    exact ⟨(along s' o hs).1, rest⟩

end Leads

/-- **Simulation**: where every step of a run is carried out by steps of another machine, the run is. -/
theorem run_simulates {τ κ ω : Type} {step' : Step τ κ ω} {Q : τ → κ → τ → ω → Prop} (R : σ → τ → Prop)
    {P : σ → ι → σ → ο → Prop}
    (carries : ∀ {s i s' o t}, R s t → step s i = some (s', o) → P s i s' o →
      ∃ ks t', Leads step' Q t ks t' ∧ R s' t')
    {s s' : σ} {is : List ι} {os : List ο} {t : τ} (start : R s t) (along : Along step P s is)
    (ran : run step s is = some (s', os)) : ∃ ks t', Leads step' Q t ks t' ∧ R s' t' := by
  induction is generalizing s os t with
  | nil =>
    obtain ⟨rfl, _⟩ : s = s' ∧ [] = os := by simpa using ran
    exact ⟨[], t, .nil, start⟩
  | cons i is ih =>
    obtain ⟨s₁, o, os', hs, hr, rfl⟩ := run_cons_eq_some.mp ran
    obtain ⟨here, later⟩ := along s₁ o hs
    obtain ⟨ks, t₁, first, related⟩ := carries start hs here
    obtain ⟨ks', t', then_, related'⟩ := ih related later hr
    exact ⟨ks ++ ks', t', first.append then_, related'⟩

/-- Check a condition on the states before and after each step and its input along a run. -/
def checkAlong (step : Step σ ι ο) (p : σ → ι → σ → Bool) : σ → List ι → Bool
  | _, [] => true
  | s, i :: is => match step s i with
    | none => true
    | some (s', _) => p s i s' && checkAlong step p s' is

theorem along_of_check (step : Step σ ι ο) (p : σ → ι → σ → Bool) (Q : σ → ι → σ → Prop)
    (s : σ) (is : List ι) (sound : ∀ s i s', p s i s' = true → Q s i s')
    (check : checkAlong step p s is = true) : Along step (fun s i s' _ => Q s i s') s is := by
  induction is generalizing s with
  | nil => trivial
  | cons i is ih =>
    intro s' o hs
    simp only [checkAlong, hs, Bool.and_eq_true] at check
    exact ⟨sound s i s' check.1, ih s' check.2⟩

/-- The same for a condition on the states before each step, which the run takes or gets stuck at. -/
def checkMeets (step : Step σ ι ο) (p : σ → ι → Bool) : σ → List ι → Bool
  | _, [] => true
  | s, i :: is => p s i && match step s i with
    | none => true
    | some (s', _) => checkMeets step p s' is

theorem meets_of_check (step : Step σ ι ο) (p : σ → ι → Bool) (P : σ → ι → Prop) (s : σ) (is : List ι)
    (sound : ∀ s i, p s i = true → P s i) (check : checkMeets step p s is = true) :
    Meets step P s is := by
  induction is generalizing s with
  | nil => trivial
  | cons i is ih =>
    simp only [checkMeets, Bool.and_eq_true] at check
    refine ⟨sound s i check.1, fun s' o hs => ih s' ?_⟩
    simpa only [hs] using check.2

/-- A run evaluated: where the machine computes, what its last state and its outputs have is checked
by computation. -/
theorem run_exists_told (step : Step σ ι ο) (P : σ → List ο → Prop) [∀ t os, Decidable (P t os)]
    (s : σ) (is : List ι) (check : (run step s is).any (fun r => P r.1 r.2) = true) :
    ∃ t os, run step s is = some (t, os) ∧ P t os := by
  cases ran : run step s is with
  | none => simp [ran] at check
  | some r =>
    rw [ran] at check
    exact ⟨r.1, r.2, rfl, of_decide_eq_true check⟩

/-- The same for its last state alone. -/
theorem run_exists (step : Step σ ι ο) (P : σ → Prop) [DecidablePred P] (s : σ) (is : List ι)
    (check : (run step s is).any (fun r => P r.1) = true) :
    ∃ t os, run step s is = some (t, os) ∧ P t :=
  run_exists_told step (fun t _ => P t) s is check

/-- Once latched, a stretch whose steps meet the condition has no event. -/
theorem count_eq_zero_along (Inv latched : σ → Prop) {P : σ → ι → σ → ο → Prop} {event : ο → Bool}
    (keep : ∀ {s i s' o}, Inv s → step s i = some (s', o) → P s i s' o → Inv s')
    (stay : ∀ {s i s' o}, Inv s → latched s → step s i = some (s', o) → P s i s' o →
      event o = false ∧ latched s')
    {s t : σ} {is : List ι} {os : List ο} (inv : Inv s) (latch : latched s)
    (along : Along step P s is) (ran : run step s is = some (t, os)) : os.countP event = 0 := by
  induction is generalizing s os with
  | nil =>
    simp only [run_nil, Option.some.injEq, Prod.mk.injEq] at ran
    simp [← ran.2]
  | cons i is ih =>
    obtain ⟨s', o, os', hs, hr, rfl⟩ := run_cons_eq_some.mp ran
    obtain ⟨here, later⟩ := along s' o hs
    obtain ⟨quiet, latch'⟩ := stay inv latch hs here
    rw [List.countP_cons_of_neg (by simp [quiet]), ih (keep inv hs here) latch' later hr]

/-- **One event a stretch**: an event latches, and a latched state stays latched and quiet at the steps
that meet the condition, so a stretch of such steps has at most one event. Nothing is asked of the
state the stretch starts from but the invariant. -/
theorem count_le_one_along (Inv latched : σ → Prop) {P : σ → ι → σ → ο → Prop} {event : ο → Bool}
    (keep : ∀ {s i s' o}, Inv s → step s i = some (s', o) → P s i s' o → Inv s')
    (set : ∀ {s i s' o}, Inv s → step s i = some (s', o) → P s i s' o → event o = true → latched s')
    (stay : ∀ {s i s' o}, Inv s → latched s → step s i = some (s', o) → P s i s' o →
      event o = false ∧ latched s')
    {s t : σ} {is : List ι} {os : List ο} (inv : Inv s)
    (along : Along step P s is) (ran : run step s is = some (t, os)) : os.countP event ≤ 1 := by
  induction is generalizing s os with
  | nil =>
    simp only [run_nil, Option.some.injEq, Prod.mk.injEq] at ran
    simp [← ran.2]
  | cons i is ih =>
    obtain ⟨s', o, os', hs, hr, rfl⟩ := run_cons_eq_some.mp ran
    obtain ⟨here, later⟩ := along s' o hs
    have inv' := keep inv hs here
    cases he : event o with
    | true =>
      -- the first event of the stretch: from here on the machine is latched
      have rest := count_eq_zero_along Inv latched keep stay inv' (set inv hs here he) later hr
      simp [he, rest]
    | false =>
      rw [List.countP_cons_of_neg (by simp [he])]
      exact ih inv' later hr

/-- The same for a stretch with `hold` after each of its steps, over inputs that fit. -/
theorem count_le_one (Inv hold latched : σ → Prop) {fits : ι → Prop} {event : ο → Bool}
    (keep : ∀ {s i s' o}, Inv s → fits i → step s i = some (s', o) → Inv s')
    (set : ∀ {s i s' o}, Inv s → step s i = some (s', o) → event o = true → latched s')
    (stay : ∀ {s i s' o}, Inv s → hold s → latched s → step s i = some (s', o) → hold s' →
      event o = false ∧ latched s')
    {s t : σ} {is : List ι} {os : List ο} (inv : Inv s) (fit : ∀ i ∈ is, fits i)
    (along : Along step (fun _ _ s' _ => hold s') s is) (ran : run step s is = some (t, os)) :
    os.countP event ≤ 1 := by
  refine count_le_one_along Inv (fun s => hold s ∧ latched s)
    (fun inv hs here => keep inv here.1 hs) (fun inv hs here he => ⟨here.2, set inv hs he⟩) ?_ inv
    (along_and (along_of_forall step s fit) along) ran
  intro s i s' o inv latch hs here
  obtain ⟨quiet, latch'⟩ := stay inv latch.1 latch.2 hs here.2
  exact ⟨quiet, here.2, latch'⟩

/-! ## Partial loops -/

/-- A loop whose turns stay within a preorder stays within it. -/
theorem foldlM_within {turn : σ → ι → Option σ} (R : σ → σ → Prop) (refl : ∀ s, R s s)
    (trans : ∀ {s t u}, R s t → R t u → R s u) (within : ∀ {s i t}, turn s i = some t → R s t)
    {is : List ι} {s t : σ} (looped : is.foldlM turn s = some t) : R s t := by
  induction is generalizing s with
  | nil =>
    obtain rfl := Option.some.inj looped
    exact refl s
  | cons i is ih =>
    rw [List.foldlM_cons] at looped
    obtain ⟨m, first, later⟩ := Option.bind_eq_some_iff.mp looped
    exact trans (within first) (ih later)

end Lib.Machine
