import SwitchBench.Sampling.Check

/-!
# Measurements

A measurement goes back and forth between a top and a bottom position and keeps the readings of
every pass, densely and in the order of `CaptureSetup.slot`. It first goes to the end where its
even passes begin, without capturing.

`Acquisition` is a measurement being acquired, a program over samples like a check. It stops at
the first sample that does not succeed, and the passes done so far are kept. A measurement that has
passes already is not acquired again.

Left out: the samples themselves, as for a check, and the room that the readings take.
-/

namespace SwitchBench

/-- A measurement, acquired or not. -/
structure Measurement where
  setup : CaptureSetup
  top : Int
  bottom : Int
  speed : Speed
  requestedPasses : Nat
  evenDown : Bool
  capturedPasses : Nat
  passes : Nat
  readings : List Reading
  deriving DecidableEq, Repr

namespace Measurement

/-- A measurement of which nothing has been acquired. -/
def ofRange (top bottom : Int) (speed : Speed) (passes : Nat) (setup : CaptureSetup)
    (evenDown : Bool) : Except Fault Measurement := do
  if ¬ (Position.Valid top ∧ Position.Valid bottom) then throw .measurementRange
  if ¬ top < bottom then throw (.measurementOrder top bottom)
  if ¬ setup.Valid then throw .captureSetup
  if setup.channelCount .both = 0 then throw .nothingToCapture
  let fits ← setup.fits evenDown passes
  if ¬ fits then throw (.tooManyPasses passes Limits.readingsMax)
  return ⟨setup, top, bottom, speed, passes, evenDown, 0, 0, []⟩

/-- Has no pass been done? -/
def isEmpty (m : Measurement) : Bool := m.passes = 0

/-- The directions of the requested passes. -/
def requestedDirections (m : Measurement) : Directions :=
  match m.requestedPasses with
  | 0 => .none
  | 1 => .ofDown m.evenDown
  | _ => .both

/-- Number of channels captured in any of the requested passes. -/
def requestedChannels (m : Measurement) : Nat := m.setup.channelCount m.requestedDirections

/-- Do the requested passes capture nothing at all? -/
def isNull (m : Measurement) : Except Fault Bool :=
  (m.setup.slot m.evenDown m.requestedPasses 0).map (· = 0)

/-- The direction of a pass that was done. -/
def passDirections (m : Measurement) (pass : Nat) : Except Fault Directions :=
  if pass < m.passes then .ok (CaptureSetup.passDirections m.evenDown pass)
  else .error (.passNotAcquired pass)

/-- Number of channels captured in a pass that was done. -/
def passChannels (m : Measurement) (pass : Nat) : Except Fault Nat :=
  (m.passDirections pass).map m.setup.channelCount

/-- The readings of a pass that was done, in channel order. -/
def passReadings (m : Measurement) (pass : Nat) : Except Fault (List Reading) := do
  let n ← m.passChannels pass
  let start ← m.setup.slot m.evenDown pass 0
  if start + n ≤ m.readings.length then return (m.readings.drop start).take n
  else throw (.sliceRange (start + n) m.readings.length)

/-- The reading of a channel in a pass that was done, if the pass captured it. -/
def reading (m : Measurement) (pass channel : Nat) : Except Fault (Option Reading) := do
  let d ← m.passDirections pass
  match Channel.ofNat? channel with
  | none => return none
  | some c =>
    if m.setup.enables c d then return m.readings[← m.setup.slot m.evenDown pass channel]?
    else return none

/-- The direction of the pass that comes next. -/
def nextDirections (m : Measurement) : Directions :=
  CaptureSetup.passDirections m.evenDown m.passes

/-- The measurement with one more pass. -/
def addPass (m : Measurement) (readings : List Reading) : Measurement :=
  { m with
      readings := m.readings ++ readings
      capturedPasses :=
        m.capturedPasses + if m.setup.channelCount m.nextDirections = 0 then 0 else 1
      passes := m.passes + 1 }

end Measurement

/-- What an acquisition waits for. -/
inductive AcquisitionPhase where
  /-- The end of the sample that goes to the first end. -/
  | approaching
  /-- The end of a pass. -/
  | passing
  | finished (outcome : SampleOutcome)
  | refused (fault : Fault)
  deriving DecidableEq, Repr

/-- A measurement being acquired. -/
structure Acquisition where
  measurement : Measurement
  phase : AcquisitionPhase
  deriving DecidableEq, Repr

namespace Acquisition

/-- An acquisition that begins; a measurement is acquired only once. -/
def start (m : Measurement) : Except Fault Acquisition :=
  if m.isEmpty then .ok ⟨m, .approaching⟩ else .error .alreadyAcquired

/-- The acquisition before its next pass, if there is one to do. -/
def proceed (a : Acquisition) : Acquisition :=
  let m := a.measurement
  if m.requestedPasses ≤ m.passes then { a with phase := .finished .ok }
  else if Limits.readingsMax < m.readings.length + m.setup.channelCount m.nextDirections then
    { a with phase := .refused .noSpace }
  else { a with phase := .passing }

/-- The sample that the acquisition wants. -/
def wants? (a : Acquisition) : Option Wanted :=
  let m := a.measurement
  match a.phase with
  | .approaching =>
    some ⟨⟨if m.evenDown then m.top else m.bottom, m.speed, m.setup, .none⟩, 0⟩
  | .passing =>
    some ⟨⟨if m.nextDirections.down then m.bottom else m.top, m.speed, m.setup,
      m.nextDirections⟩, m.setup.channelCount m.nextDirections⟩
  | _ => none

/-- Does the sample it waits for end a pass, if it ends like this? -/
def endsPass (a : Acquisition) (outcome : SampleOutcome) : Bool :=
  a.phase = .passing && outcome = .ok

/-- The acquisition, told how its sample ended. -/
def told (a : Acquisition) (outcome : SampleOutcome) (readings : List Reading) : Acquisition :=
  match a.phase with
  | .approaching =>
    if outcome = .ok then a.proceed else { a with phase := .finished outcome }
  | .passing =>
    if outcome = .ok then { a with measurement := a.measurement.addPass readings }.proceed
    else { a with phase := .finished outcome }
  | _ => a

/-- How the acquisition ended. -/
def result? (a : Acquisition) : Option (Except Fault SampleOutcome) :=
  match a.phase with
  | .finished outcome => some (.ok outcome)
  | .refused f => some (.error f)
  | _ => none

/-- The most samples that an acquisition can want. -/
def samplesMax (a : Acquisition) : Nat := a.measurement.requestedPasses + 1

end Acquisition

end SwitchBench
