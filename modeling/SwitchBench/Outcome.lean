import SwitchBench.Fault

/-!
# Outcomes

How a move, a capture and a sample of both can end, their written forms, and how the ends of a
move and of a capture that ran side by side combine into the outcome of the sample
(`SampleOutcome.reduce`).
-/

namespace SwitchBench

/-- How a move ended; `timedOut` is the answer to a wait that gave up on it. -/
inductive MoveOutcome where
  | ok
  | aborted
  | poweredOff
  | timedOut
  deriving DecidableEq, Repr

/-- How a capture ended; `timedOut` is the answer to a wait that gave up on it. -/
inductive CaptureOutcome where
  | ok
  | aborted
  | timedOut
  deriving DecidableEq, Repr

/-- How a sample ended. -/
inductive SampleOutcome where
  | ok
  | aborted
  | poweredOff
  deriving DecidableEq, Repr

/-- The written form of a move's outcome. -/
def MoveOutcome.text : MoveOutcome → String
  | ok => "OK"
  | aborted => "ABORTED"
  | poweredOff => "POWERED_OFF"
  | timedOut => "TIMEOUT"

/-- The written form of a capture's outcome. -/
def CaptureOutcome.text : CaptureOutcome → String
  | ok => "OK"
  | aborted => "ABORTED"
  | timedOut => "TIMEOUT"

namespace SampleOutcome

/-- The written form of a sample's outcome. -/
def text : SampleOutcome → String
  | ok => "OK"
  | aborted => "ABORTED"
  | poweredOff => "POWERED_OFF"

/-- The outcome of a sample from those of its move and its capture. An abort of either wins over a
loss of power, and neither part may be unfinished otherwise. -/
def reduce (move : MoveOutcome) (capture : CaptureOutcome) : Except Fault SampleOutcome :=
  if move = .aborted ∨ capture = .aborted then .ok .aborted
  else match move, capture with
    | .poweredOff, _ => .ok .poweredOff
    | .timedOut, _ => .error .unfinishedMove
    | _, .ok => .ok .ok
    | _, _ => .error .unfinishedCapture

end SampleOutcome

end SwitchBench
