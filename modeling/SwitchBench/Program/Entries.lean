import SwitchBench.Journal.Entry
import SwitchBench.Program.Basic
import SwitchBench.Workbench.Basic

/-!
# What the journal tells of the bench

The entries that samples and series of samples give rise to, each made by one part of the program.
-/

namespace SwitchBench.Program

/-! ## Parts of the program that make entries -/

def drivePart : String := "kp_core::actuator"
def recorderPart : String := "kp_core::capture"
def samplerPart : String := "kp_core::sample"
def measurementPart : String := "kp_core::measure"
def rigPart : String := "kp_core::rig"
def timerPart : String := "kp_hal::drivers::simulation::capture_timer"
def benchPart : String := "kp_hal::drivers::simulation::bench"
def switchPart : String := "kp_hal::drivers::simulation::switch"

/-- A field that holds a count. -/
def count (name : String) (n : Nat) : String × FieldValue := (name, .number n)

/-- A field that holds a text. -/
def text (name s : String) : String × FieldValue := (name, .text s)

/-- The entry of a sampler's note. -/
def samplerEntry : SampleNote → Entry
  | .captureArmed o =>
    .of .debug recorderPart "capture armed"
      [text "dirs" o.directions.keyword,
        count "channels" (Timer.Flags.captures (Recorder.maskOf o.setup o.directions)).bits,
        count "timeout_us" o.setup.timeoutUs, count "bounce_us" o.setup.bounceUs]
  | .moveStarted target speed =>
    .of .debug drivePart "move started" [("target", .number target), text "speed" speed.text]
  | .sampleAborted => .of .debug samplerPart "sample aborted by user" []
  | .moveAbortAsked => .of .debug drivePart "move abort requested" []
  | .captureAbortAsked => .of .debug recorderPart "capture abort requested" []
  | .captureAborted => .of .debug recorderPart "capture aborted" []

/-- The entry of a reading of a pass. -/
def readingEntry (m : Measurement) (pass : Nat) (d : Directions) (c : Channel) (r : Reading) :
    Entry :=
  .of .info name "pass result"
    [count "pass" pass, text "dir" d.title, count "ch" c.val,
      text "name" (m.setup.channels.get c).name, text "status" r.status.text,
      count "value_us" r.valueUs]

/-- The entries of the readings of a measurement's last pass. -/
def passEntries (m : Measurement) : Except Fault (List Entry) := do
  let pass := m.passes - 1
  let d ← m.passDirections pass
  let l ← Channel.all.mapM fun c => do
    return (← m.reading pass c.val).toList.map (readingEntry m pass d c)
  return .of .debug measurementPart "pass acquired" [count "pass" pass, text "dirs" d.keyword]
    :: l.flatten

/-- The entries of a note of the bench. -/
def noteEntries : BenchNote → Except Fault (List Entry)
  | .switchTurned pressed =>
    .ok [.of .trace switchPart "simulated switch transition" [("pressed", .flag pressed)]]
  | .timerPeriodEnded => .ok [.of .trace timerPart "capture timer update event" []]
  | .sampler n => .ok [samplerEntry n]
  | .checkInterrupted pass outcome =>
    .ok [.of .warn samplerPart "check interrupted"
      [count "pass" pass, text "result" outcome.text]]
  | .checkFinished passes triggers =>
    .ok [.of .info samplerPart "check finished"
      [count "passes" passes, count "triggers" triggers]]
  | .passAcquired m => passEntries m
  | .acquisitionInterrupted passes outcome =>
    .ok [.of .info measurementPart "measurement interrupted"
      [count "passes" passes, text "rc" outcome.text]]

end SwitchBench.Program
