import MCsim.MultiChannel

/-!
# The simulation

The loop of `main.cpp`: in every round each requestor is updated, in the order of their numbers, and then
the memory system; the loop ends after the round in which a requestor is at its end, or in which the round
that the command line asks for is reached. What the devices of the channels answer in a round is given.
-/

namespace MCsim

/-- What the loop keeps. -/
structure Simulation (ρ κ : Type) where
  simulator : Simulator ρ κ
  currentClockCyle : Nat := 1
  simDone : Bool := false

namespace Simulation

variable {ρ κ : Type}

/-- A requestor's update, and the question whether it is at its end. -/
def stepRequestor (setup : Setup) (s : Simulation ρ κ) (id : Nat) : Option (Simulation ρ κ) :=
  (s.simulator.updateRequestor setup id).map fun m =>
    { s with simulator := m, simDone := s.simDone || (m.requestorsMap id).sim_done }

/-- A round. The answers of a channel's device are to its refresh machine and to its scheduler. -/
def round (setup : Setup) (parts : Components ρ κ) (cycles : Nat) (answers : Nat → Answers × Answers)
    (s : Simulation ρ κ) : Option (Simulation ρ κ) :=
  let reached := cycles ≠ 0 && s.currentClockCyle == cycles
  ((List.range s.simulator.numberRequestors).foldlM (stepRequestor setup)
    { s with simDone := s.simDone || reached }).bind fun s =>
  (s.simulator.updateMemory setup parts (fun i => (answers i).1) fun i => (answers i).2).map fun m =>
    { s with simulator := m, currentClockCyle := (s.currentClockCyle + 1) % 2 ^ 64 }

/-- `while (!simDone)`, from a round on, with fuel for every test. -/
def loop (setup : Setup) (parts : Components ρ κ) (cycles : Nat)
    (answers : Nat → Nat → Answers × Answers) : Nat → Nat → Simulation ρ κ → Option (Simulation ρ κ)
  | 0, _, _ => none
  | fuel + 1, n, s =>
    if s.simDone then some s
    else (round setup parts cycles (answers n) s).bind (loop setup parts cycles answers fuel (n + 1))

/-- What `main` starts from. -/
def create (setup : Setup) (parts : Components ρ κ) (refreshCounting bank_release : Nat → Nat)
    (numberChannels numberRequestors : Nat) (inOrder : Nat → Bool)
    (traces : Nat → List (Option TraceLine)) : Simulation ρ κ :=
  { simulator := Simulator.create setup parts refreshCounting bank_release numberChannels
      numberRequestors inOrder traces }

end Simulation
end MCsim
