import SwitchBench.Hardware.Pin
import SwitchBench.Motion.Basic
import SwitchBench.Outcome

/-!
# The guarded state of the drive

What the drive's clients and its stepper share: the power and direction outputs, the position and
where it is to go, and the flags through which one tells the other to stop. Every function here is
one critical section: nothing else happens to the state while it runs.

An unpowered drive has no position. Switching the power, either way, puts the origin where the
plunger is, and switching it off marks the move in flight as lost, even if the power comes back
before the stepper notices.

* **Clients**: `powerOn`, `powerOff`, `abort`, `locate`, and `launch` for a move they have the permit
  for.
* **The stepper**: `decide` on each tick, `advance` after a step, `report` in the end.

Left out: what a section logs. The step output is the stepper's own and not in here.
-/

namespace SwitchBench

/-- What a move is told to do. -/
structure MoveOrder where
  relative : Bool
  steps : Int
  speed : Speed
  deriving DecidableEq, Repr

/-- The state shared by the drive's clients and its stepper. -/
structure Axis where
  disable : Pin
  direction : Pin
  position : Int
  target : Int
  speed : Speed
  aborted : Bool
  powerLost : Bool
  outcome : MoveOutcome
  deriving DecidableEq, Repr

/-- What becomes of a move order. -/
inductive Launch where
  /-- The stepper is to move there. -/
  | began (target : Int)
  /-- There is nothing to do, and this is how the move ended. -/
  | finished (outcome : MoveOutcome)
  /-- The order breaks the contract. -/
  | refused (fault : Fault)
  deriving DecidableEq, Repr

/-- What the stepper does on a tick. -/
inductive Decision where
  | step (up : Bool)
  | finish (outcome : MoveOutcome)
  deriving DecidableEq, Repr

namespace Axis

/-- The state before any power: the power output is high, which disables the drive. -/
def initial : Axis where
  disable := .ofLevel true
  direction := .ofLevel false
  position := 0
  target := 0
  speed := .slowest
  aborted := false
  powerLost := false
  outcome := .ok

instance : Inhabited Axis := ⟨initial⟩

/-- Is the power off? -/
def isOff (a : Axis) : Bool := a.disable.level

/-- The position, if there is one. -/
def locate (a : Axis) : Int := if a.isOff then Position.nowhere else a.position

/-- Switches the power on; says whether it was off. -/
def powerOn (a : Axis) : Axis × Bool :=
  if a.isOff then ({ a with disable := a.disable.drive false, position := 0 }, true)
  else (a, false)

/-- Switches the power off; says whether it was on. -/
def powerOff (a : Axis) : Axis × Bool :=
  if a.isOff then (a, false)
  else ({ a with disable := a.disable.drive true, position := 0, powerLost := true }, true)

/-- Asks the move in flight to stop; says whether the power is on. -/
def abort (a : Axis) : Axis × Bool :=
  if a.isOff then (a, false) else ({ a with aborted := true }, true)

/-- The position an order leads to, if it is one. -/
def destination? (a : Axis) (o : MoveOrder) : Option Int :=
  if o.relative then
    if Position.Valid (a.position + o.steps) then some (a.position + o.steps) else none
  else some o.steps

/-- Takes up an order. A move of an unpowered drive, or to where the plunger is, ends at once. -/
def launch (a : Axis) (o : MoveOrder) : Axis × Launch :=
  if a.isOff then ({ a with outcome := .poweredOff }, .finished .poweredOff)
  else match a.destination? o with
    | none => (a, .refused (.moveLeavesRange o.steps a.position))
    | some target =>
      if target = a.position then ({ a with outcome := .ok }, .finished .ok)
      else
        ({ a with target := target, speed := o.speed, aborted := false, powerLost := false },
          .began target)

/-- Decides what to do on a tick; a step sets the direction first. -/
def decide (a : Axis) : Axis × Decision :=
  if a.isOff || a.powerLost then (a, .finish .poweredOff)
  else if a.aborted then ({ a with aborted := false }, .finish .aborted)
  else if a.position = a.target then (a, .finish .ok)
  else
    let up := a.target < a.position
    ({ a with direction := a.direction.drive up }, .step up)

/-- Counts a step; one that comes after the power was lost moves nothing. -/
def advance (a : Axis) (up : Bool) : Axis :=
  if a.isOff || a.powerLost then a
  else { a with position := if up then a.position - 1 else a.position + 1 }

/-- Notes how the move ended. -/
def report (a : Axis) (outcome : MoveOutcome) : Axis := { a with outcome := outcome }

end Axis

end SwitchBench
