import SwitchBench.Sync.Inbox

/-!
# Scripts

A script tells what happens to a bench while it works: at the n-th tick of the step timer, at the
n-th time the timer is stopped, or at the n-th rising edge of the step output, counted from the
start of an operation.
-/

namespace SwitchBench

/-- A moment that a script can name. -/
inductive Cue where
  | tick (n : Nat)
  | stop (n : Nat)
  | step (n : Nat)
  deriving DecidableEq, Repr

/-- Something done to a bench from outside. -/
inductive Intervention where
  | abortMove
  | abortCapture
  | powerOff
  | powerOn
  /-- The next wait for a tick finds the timer stopped. -/
  | failTimer
  | send (m : Message)
  deriving DecidableEq, Repr

/-- What happens at one moment. -/
structure ScriptLine where
  cue : Cue
  actions : List Intervention
  deriving DecidableEq, Repr

/-- A script being followed, and how many moments of each kind have passed. -/
structure Script where
  lines : List ScriptLine
  ticks : Nat
  stops : Nat
  steps : Nat
  deriving DecidableEq, Repr

namespace Script

/-- A script at its beginning. -/
def ofLines (lines : List ScriptLine) : Script := ⟨lines, 0, 0, 0⟩

instance : Inhabited Script := ⟨ofLines []⟩

/-- What happens at a moment. -/
def actionsAt (s : Script) (c : Cue) : List Intervention :=
  (s.lines.filter (·.cue = c)).flatMap (·.actions)

/-- One more tick, and what happens at it. -/
def tick (s : Script) : Script × List Intervention :=
  ({ s with ticks := s.ticks + 1 }, s.actionsAt (.tick (s.ticks + 1)))

/-- One more stop of the timer, and what happens at it. -/
def stop (s : Script) : Script × List Intervention :=
  ({ s with stops := s.stops + 1 }, s.actionsAt (.stop (s.stops + 1)))

/-- One more rising edge of the step output, and what happens at it. -/
def step (s : Script) : Script × List Intervention :=
  ({ s with steps := s.steps + 1 }, s.actionsAt (.step (s.steps + 1)))

end Script

end SwitchBench
