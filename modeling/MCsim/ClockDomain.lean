import Mathlib.Algebra.Group.Nat.Defs
import MCsim.Lib.Machine
import MCsim.Lib.While

/-!
# Crossing clock domains

`ClockDomainCrosser` calls its callback at the rate of one clock while it is updated at the rate of
another. It races two counters: an update moves the first on by `clock1`, and the second is moved on by
`clock2` with a call each time until it is not behind. Where the two meet they start again from 0.

The counters are 64 bits wide. The loop has no bound that its code shows, so an update has fuel.

Left out: the constructor that approximates a ratio (floating point), and what the callback does, which
leaves the crosser alone.
-/

namespace MCsim

structure ClockDomainCrosser where
  /-- A callback is connected. -/
  callback : Bool := true
  clock1 : Nat := 1
  clock2 : Nat := 1
  counter1 : Nat := 0
  counter2 : Nat := 0
  deriving DecidableEq, Repr

namespace ClockDomainCrosser

/-- What an update does: how often it calls back, and the sums it forms, before they are cut to the
width of a counter. -/
structure Effects where
  calls : Nat := 0
  sums : List Nat := []
  deriving DecidableEq, Repr

/-- The loop's test. -/
def behind (st : ClockDomainCrosser × Effects) : Bool := st.1.counter2 < st.1.counter1

/-- The loop's body. -/
def catchUp (st : ClockDomainCrosser × Effects) : ClockDomainCrosser × Effects :=
  let (x, e) := st
  ({ x with counter2 := (x.counter2 + x.clock2) % 2 ^ 64 },
    { calls := if x.callback then e.calls + 1 else e.calls, sums := e.sums ++ [x.counter2 + x.clock2] })

/-- `ClockDomainCrosser::update`. -/
def update (fuel : Nat) (x : ClockDomainCrosser) : Option (ClockDomainCrosser × Effects) :=
  if x.clock1 = x.clock2 ∧ x.callback = true then some (x, { calls := 1 })
  else
    let sum := x.counter1 + x.clock1
    (Lib.While.loop behind catchUp fuel
        ({ x with counter1 := sum % 2 ^ 64 }, { sums := [sum] })).map fun (x, e) =>
      if x.counter1 = x.counter2 then ({ x with counter1 := 0, counter2 := 0 }, e) else (x, e)

/-- Updates, one after the other. -/
def step (fuel : Nat) : Lib.Machine.Step ClockDomainCrosser Unit Effects := fun x _ => update fuel x

/-- The constructor for two clocks. -/
def create (clock1 clock2 : Nat) : ClockDomainCrosser := { clock1 := clock1, clock2 := clock2 }

/-- `MultiChannelMemorySystem::setCPUClockSpeed`, for the memory's own frequency. -/
def setCPUClockSpeed (x : ClockDomainCrosser) (mcsimClkFreqHz cpuClkFreqHz : Nat) : ClockDomainCrosser :=
  { x with
    clock1 := mcsimClkFreqHz, clock2 := if cpuClkFreqHz = 0 then mcsimClkFreqHz else cpuClkFreqHz }

end ClockDomainCrosser
end MCsim
