import SwitchBench.Capture.Channel
import SwitchBench.Motion.Basic

/-!
# Settings of the simulated bench

The key switch under the drive, how the capture channels are wired to it, and the cycle clock.
-/

namespace SwitchBench

/-- How a capture channel is wired to the key switch. -/
inductive Wiring where
  | level
  | pulse
  | disconnected
  deriving DecidableEq, Repr

namespace Wiring

/-- The written form. -/
def text : Wiring → String
  | level => "level"
  | pulse => "pulse"
  | disconnected => "disconnected"

/-- The wiring of a written form. -/
def ofText? (word : String) : Option Wiring :=
  [level, pulse, disconnected].find? (·.text == word)

instance : Inhabited Wiring := ⟨level⟩

end Wiring

/-- The settings of a simulated bench. -/
structure SimulationSettings where
  actuation : Int
  bounceEdges : Nat
  cyclesPerUs : Nat
  clockOffset : Nat
  wiring : PerChannel Wiring
  deriving DecidableEq, Repr

namespace SimulationSettings

/-- A switch at the origin that does not bounce, and a clock of one cycle per microsecond. -/
def standard : SimulationSettings := ⟨0, 0, 1, 0, .const .level⟩

instance : Inhabited SimulationSettings := ⟨standard⟩

def validate (s : SimulationSettings) : Except Problem Unit :=
  if s.cyclesPerUs = 0 then .error .zeroClockRate
  else if Position.Valid s.actuation then .ok () else .error .actuationPosition

end SimulationSettings

end SwitchBench
