import SwitchBench.Capture.Channel
import SwitchBench.Fault

/-!
# Capture setups

A capture times edges on the channels within a window after a trigger. A `CaptureSetup` says what
each channel captures and how long the window is: a timeout, and a bounce period after it.

A series of passes alternates between the two directions. Its readings are stored densely, pass
after pass and within a pass channel after channel, and `slot` computes where a reading is found.
The slots of a round of two passes repeat, so the index is a multiple of the round's size plus a
part of at most one round; both are kept within a 64-bit word, and a word overflow is a fault.
-/

namespace SwitchBench

/-- What a capture is to do. -/
structure CaptureSetup where
  channels : PerChannel ChannelSetup
  timeoutUs : Nat
  bounceUs : Nat
  deriving DecidableEq, Repr

namespace CaptureSetup

/-- A setup that captures nothing, with an empty window. -/
def idle : CaptureSetup := ⟨.const .unused, 0, 0⟩

instance : Inhabited CaptureSetup := ⟨idle⟩

/-- The window fits the capture timer. -/
def Valid (s : CaptureSetup) : Prop := s.timeoutUs + s.bounceUs ≤ Limits.windowMaxUs

instance (s : CaptureSetup) : Decidable s.Valid := inferInstanceAs (Decidable (_ ≤ _))

def validate (s : CaptureSetup) : Except Problem Unit :=
  if s.Valid then .ok () else .error (.windowTooLong s.timeoutUs s.bounceUs)

/-- Whole ticks in the timeout. -/
def timeoutTicks (s : CaptureSetup) : Nat := s.timeoutUs / Limits.tickUs

/-- Whole ticks in the bounce period. -/
def bounceTicks (s : CaptureSetup) : Nat := s.bounceUs / Limits.tickUs

/-- Length of the window in ticks; the timer does not count to zero. -/
def windowTicks (s : CaptureSetup) : Nat := max (s.timeoutTicks + s.bounceTicks) 1

/-- Is a channel captured for any of these directions? -/
def enables (s : CaptureSetup) (c : Channel) (d : Directions) : Bool :=
  (s.channels.get c).directions.intersects d

/-- Number of channels captured for any of these directions. -/
def channelCount (s : CaptureSetup) (d : Directions) : Nat :=
  Channel.all.countP (s.enables · d)

/-! ## The dense layout of a series of passes -/

/-- Does a pass go down, in a series whose even passes do or do not? -/
def passDown (evenDown : Bool) (pass : Nat) : Bool := xor evenDown (pass % 2 == 1)

/-- The direction of a pass. -/
def passDirections (evenDown : Bool) (pass : Nat) : Directions := .ofDown (passDown evenDown pass)

/-- Number of readings of two passes in a row. -/
def roundSize (s : CaptureSetup) : Nat :=
  s.channels.ch0.directions.size + s.channels.ch1.directions.size

/-- Number of readings before a channel's place, counted from the start of its round. -/
def placeInRound (s : CaptureSetup) (evenDown : Bool) (pass channel : Nat) : Nat :=
  (if pass % 2 = 1 then s.channelCount (.ofDown evenDown) else 0)
    + Channel.all.countP fun c => c.val < channel && s.enables c (passDirections evenDown pass)

/-- The place of a channel's reading in the dense layout. -/
def slot (s : CaptureSetup) (evenDown : Bool) (pass channel : Nat) : Except Fault Nat :=
  if 2 ≤ channel then .error (.noSuchChannel channel)
  else if Limits.countMax < s.roundSize * (pass / 2) then .error .multiplyOverflow
  else if Limits.countMax < s.roundSize * (pass / 2) + s.placeInRound evenDown pass channel then
    .error .addOverflow
  else .ok (s.roundSize * (pass / 2) + s.placeInRound evenDown pass channel)

/-- Do the readings of that many passes fit a measurement? -/
def fits (s : CaptureSetup) (evenDown : Bool) (passes : Nat) : Except Fault Bool :=
  (s.slot evenDown passes 0).map (· ≤ Limits.readingsMax)

end CaptureSetup

end SwitchBench
