import SwitchBench.Settings.Simulation

/-!
# The simulated key switch

The switch lies under the plunger and is pressed while the plunger is at or below the actuation
position. A powered step moves the plunger; one that crosses the actuation position is a
transition and sends edges to the capture channels, as each channel is wired.

A change of the drive's power moves the origin. The switch only notes it, and starts again from
zero with the next powered step; until then it reports what it would be at zero.

Assumed: all edges of a transition come at the instant of the step, in the order of the channels.
Left out: the lines that the switch listens to. `step` is for a rising edge of the step output with
the power on, and `powerChanged` for any change of the power output.
-/

namespace SwitchBench

/-- The state of the key switch. -/
structure KeySwitch where
  actuation : Int
  bounceEdges : Nat
  wiring : PerChannel Wiring
  plunger : Int
  down : Bool
  originMoved : Bool
  transitions : Nat
  deriving DecidableEq, Repr

namespace KeySwitch

/-- Is a switch with this actuation position pressed by a plunger at a position? -/
def pressedAt (actuation position : Int) : Bool := actuation ≤ position

/-- A switch with the plunger at the origin. -/
def ofSettings (s : SimulationSettings) : KeySwitch :=
  ⟨s.actuation, s.bounceEdges, s.wiring, 0, pressedAt s.actuation 0, false, 0⟩

/-- Where the plunger is. -/
def position (k : KeySwitch) : Int := if k.originMoved then 0 else k.plunger

/-- Is the switch pressed? -/
def pressed (k : KeySwitch) : Bool := if k.originMoved then pressedAt k.actuation 0 else k.down

/-- The power of the drive changed. -/
def powerChanged (k : KeySwitch) : KeySwitch := { k with originMoved := true }

/-- A pair of edges in a row, so many times. -/
def pairs (n : Nat) (a b : Edge) : List Edge := (List.replicate n [a, b]).flatten

/-- The edges of a transition on a channel: on a level wiring the new level, and back and forth
once for every bounce; on a pulse wiring one pulse, and one more for every bounce. -/
def channelEdges (bounceEdges : Nat) (pressed : Bool) : Wiring → List Edge
  | .level =>
    if pressed then .rising :: pairs bounceEdges .falling .rising
    else .falling :: pairs bounceEdges .rising .falling
  | .pulse => pairs (bounceEdges + 1) .rising .falling
  | .disconnected => []

/-- The edges of a transition, channel after channel. -/
def edges (k : KeySwitch) (pressed : Bool) : List (Channel × Edge) :=
  Channel.all.flatMap fun c => (channelEdges k.bounceEdges pressed (k.wiring.get c)).map (c, ·)

/-- The plunger and the switch as the next powered step finds them. -/
def settleOrigin (k : KeySwitch) : KeySwitch :=
  if k.originMoved then
    { k with plunger := 0, down := pressedAt k.actuation 0, originMoved := false }
  else k

/-- A powered step in a direction, and the edges it causes. -/
def step (k : KeySwitch) (up : Bool) : KeySwitch × List (Channel × Edge) :=
  let k := k.settleOrigin
  let position := Position.nudge k.plunger up
  let pressed := pressedAt k.actuation position
  if pressed = k.down then ({ k with plunger := position }, [])
  else
    ({ k with plunger := position, down := pressed, transitions := k.transitions + 1 },
      k.edges pressed)

end KeySwitch

end SwitchBench
