import SwitchBench.Sampling.Sampler

/-!
# Checks

A check goes back and forth between two positions, one sample a traversal, and counts the passes
in which every channel it captured triggered. It first goes to the nearer end without capturing.
A traversal in a direction in which no channel is captured does not count as a pass.

A check is a program over samples: it says which sample it wants next (`Check.wants?`) and goes on
when it is told how that sample ended (`Check.told`).

* `start` is the entry with its assertions, `located` the way to the nearer end, `counted` a pass
  that was done; `result?` is what the caller gets, beside the counts.

Left out: the samples themselves, which whoever runs a check takes for it, each with a buffer of the
length that is wanted, and what is logged of them.
-/

namespace SwitchBench

/-- A sample that a series wants, with the length of its result buffer. -/
structure Wanted where
  order : SampleOrder
  length : Nat
  deriving DecidableEq, Repr

/-- The number of steps between two positions. -/
def distance (a b : Int) : Nat := (a - b).natAbs

/-- Does a series between two ends begin by going down, from a position? It does if the top is the
nearer end. -/
def beginsDown (position top bottom : Int) : Bool :=
  distance position top < distance position bottom

/-- What a check is to do. -/
structure CheckOrder where
  top : Int
  bottom : Int
  speed : Speed
  passes : Nat
  setup : CaptureSetup
  deriving DecidableEq, Repr

/-- What a check waits for. -/
inductive CheckPhase where
  /-- The position of the plunger. -/
  | locating
  /-- The end of the sample that goes to the nearer end. -/
  | approaching
  /-- The end of a traversal. -/
  | passing
  | finished (outcome : SampleOutcome)
  deriving DecidableEq, Repr

/-- A check at work. -/
structure Check where
  order : CheckOrder
  phase : CheckPhase
  evenDown : Bool
  pass : Nat
  captured : Nat
  triggers : Nat
  deriving DecidableEq, Repr

namespace Check

/-- A check that begins; without passes it has ended already. -/
def start (o : CheckOrder) : Except Fault Check :=
  if ¬ (Position.Valid o.top ∧ Position.Valid o.bottom) then .error .checkRange
  else if ¬ o.setup.Valid then .error .captureSetup
  else if o.setup.channelCount .both = 0 then .error .nothingToCapture
  else .ok ⟨o, if o.passes = 0 then .finished .ok else .locating, false, 0, 0, 0⟩

/-- The check, told where the plunger is. -/
def located (c : Check) (position : Int) : Check :=
  if Position.Valid position then
    { c with evenDown := beginsDown position c.order.top c.order.bottom, phase := .approaching }
  else { c with phase := .finished .poweredOff }

/-- The direction of the traversal at hand. -/
def directions (c : Check) : Directions := CaptureSetup.passDirections c.evenDown c.pass

/-- The sample that the check wants. -/
def wants? (c : Check) : Option Wanted :=
  match c.phase with
  | .approaching =>
    some ⟨⟨if c.evenDown then c.order.top else c.order.bottom, c.order.speed, c.order.setup,
      .none⟩, 0⟩
  | .passing =>
    some ⟨⟨if c.directions.down then c.order.bottom else c.order.top, c.order.speed,
      c.order.setup, c.directions⟩, Limits.channelCount⟩
  | _ => none

/-- The check after a traversal, its channels read. -/
def counted (c : Check) (readings : List Reading) : Check :=
  let channels := c.order.setup.channelCount c.directions
  let c := if channels = 0 then c else { c with
    captured := c.captured + 1
    triggers := c.triggers
      + if (readings.take channels).all Reading.triggered then 1 else 0 }
  { c with
      pass := c.pass + 1
      phase := if c.captured < c.order.passes then .passing else .finished .ok }

/-- The check, told how its sample ended. -/
def told (c : Check) (outcome : SampleOutcome) (readings : List Reading) : Check :=
  match c.phase with
  | .approaching => { c with phase := if outcome = .ok then .passing else .finished outcome }
  | .passing =>
    if outcome = .ok then c.counted readings else { c with phase := .finished outcome }
  | _ => c

/-- How the check ended. -/
def result? (c : Check) : Option SampleOutcome :=
  match c.phase with
  | .finished outcome => some outcome
  | _ => none

/-- The most samples that a check can want. -/
def samplesMax (c : Check) : Nat := 2 * c.order.passes + 1

end Check

end SwitchBench
