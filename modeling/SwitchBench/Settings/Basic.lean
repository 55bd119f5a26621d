import SwitchBench.Capture.Setup
import SwitchBench.Journal.Level
import SwitchBench.Motion.Basic
import SwitchBench.Settings.Simulation

/-!
# Settings

The settings of a program run, by sections: what all programs share, the pace of the drive, the
capture, the check, and the simulated bench. Each section can be validated by itself, and
`Settings.validate` reports the first problem in the order of the sections.

The capture section lists channels as they were written; `CaptureSection.setup` makes a capture
setup of them, in which missing channels capture nothing.
-/

namespace SwitchBench

/-- What every program has. -/
structure SharedSettings where
  level : Level
  serviceName : String
  deriving DecidableEq, Repr

/-- A service has a name. -/
def SharedSettings.validate (s : SharedSettings) : Except Problem Unit :=
  if s.serviceName = "" then .error .emptyServiceName else .ok ()

/-- What is captured, as it was written. -/
structure CaptureSection where
  timeoutUs : Nat
  bounceUs : Nat
  channels : List ChannelSetup
  deriving DecidableEq, Repr

namespace CaptureSection

/-- The capture setup of a section, if there are channels enough and the window fits. -/
def setup (s : CaptureSection) : Except Problem CaptureSetup :=
  if Limits.channelCount < s.channels.length then .error (.tooManyChannels s.channels.length)
  else
    let channel (n : Nat) : ChannelSetup := s.channels[n]?.getD .unused
    let c : CaptureSetup := ⟨⟨channel 0, channel 1⟩, s.timeoutUs, s.bounceUs⟩
    c.validate.map fun _ => c

end CaptureSection

/-- The range to exercise, and how often. -/
structure CheckSection where
  top : Int
  bottom : Int
  speed : Speed
  passes : Nat
  deriving DecidableEq, Repr

/-- A range has a top above its bottom. -/
def CheckSection.validate (s : CheckSection) : Except Problem Unit :=
  if ¬ (Position.Valid s.top ∧ Position.Valid s.bottom) then .error .checkPosition
  else if s.top < s.bottom then .ok ()
  else .error (.checkOrder s.top s.bottom)

/-- All settings of a program run. -/
structure Settings where
  shared : SharedSettings
  periods : StepPeriods
  capture : CaptureSection
  check : CheckSection
  simulation : SimulationSettings
  deriving DecidableEq, Repr

/-- The first problem of the settings, section after section. -/
def Settings.validate (s : Settings) : Except Problem Unit := do
  s.shared.validate
  s.periods.validate
  let _ ← s.capture.setup
  s.check.validate
  s.simulation.validate

end SwitchBench
