import SwitchBench.Drive.Axis
import SwitchBench.Hardware.CycleClock
import SwitchBench.Sync.Semaphore

/-!
# The drive

The actuator and its motion thread. A drive moves the plunger on behalf of clients. One move at a
time: a client takes the permit `available`, takes up its order in a critical section, and either
hands the move to the stepper (`begin`) or, if there is nothing to move, announces its end itself
(`done`). Whoever waits for the end takes `done`, reads the outcome and gives the permit back.

The stepper is a program of its own: a loop over moves, and for each move one over steps, which
paces itself by a step timer. It does one atomic action after the other, some of them on the state
it shares with the clients and some on the hardware. `Drive.demand` says what its next action needs
from outside, and `Drive.resume` does that action, given what it asked for. Nothing forces the
stepper and the clients into an order, so whatever runs a drive may put clients' calls between any
two actions.

A step in the direction opposite to the last one comes after a rest. The stepper measures what has
passed of that rest with a cycle counter, and rests in full if the counter wrapped around.

* **Start a move**: `admits`, `takePermit?`, `launch`, `announce`; `startMove?` in a row.
* **Finish it**: `takeDone?`, the outcome, `givePermit`; `finishMove?` in a row.
* **Power, abort, position**: `powerOn`, `powerOff`, `abort`, `locate`, one critical section each.

The sections of the shared state are those of `Axis`. Assumed: the periods are in order, as a drive
is refused otherwise, and then pace and rest are what `StepPeriods` says without a bound. Left out:
how long an action takes, which is for whoever keeps the time, and what is logged.
-/

namespace SwitchBench

/-- The last step taken, and the cycle counter after it. -/
structure LastStep where
  up : Bool
  cycles : Nat
  deriving DecidableEq, Repr

/-- Where the stepper stands: what its next action is. -/
inductive StepperPhase where
  /-- Waits for a move to begin. -/
  | waiting
  /-- Looks whether the drive is being shut down. -/
  | woken
  /-- Reads the speed of the move. -/
  | loading
  /-- Starts the step timer. -/
  | starting (periodUs : Nat)
  /-- Waits for the next tick. -/
  | pacing
  /-- Looks again whether the drive is being shut down. -/
  | ticked
  /-- Decides what to do on this tick. -/
  | deciding
  /-- Reads the cycle counter before a reversal. -/
  | gauging (up : Bool)
  /-- Rests before a reversal. -/
  | resting (up : Bool) (us : Nat)
  /-- Raises the step output. -/
  | raising (up : Bool)
  /-- Counts the step. -/
  | advancing (up : Bool)
  /-- Holds the step output up. -/
  | holding (up : Bool)
  /-- Lowers the step output. -/
  | lowering (up : Bool)
  /-- Reads the cycle counter after the step. -/
  | marking (up : Bool)
  /-- Stops the step timer. -/
  | stopping (outcome : MoveOutcome)
  /-- Notes how the move ended. -/
  | reporting (outcome : MoveOutcome)
  /-- Announces the end of the move. -/
  | announcing
  | ended
  deriving DecidableEq, Repr

/-- The stepper: its next action, and what it remembers from one action to the next. -/
structure Stepper where
  phase : StepperPhase
  restUs : Nat
  last : Option LastStep
  deriving DecidableEq, Repr

/-- What the stepper's next action needs from outside. -/
inductive Demand where
  /-- That a move begins. -/
  | permit
  /-- Nothing. -/
  | turn
  | startTimer (periodUs : Nat)
  | tick
  | cycles
  | delay (us : Nat)
  | stopTimer
  /-- There is no next action. -/
  | nothing
  deriving DecidableEq, Repr

/-- What the outside gives the stepper for its next action. -/
inductive Reply where
  /-- It is done. -/
  | done
  /-- The wait for a tick is over; did the timer run? -/
  | ticked (running : Bool)
  /-- The cycle counter. -/
  | cycles (n : Nat)
  deriving DecidableEq, Repr

/-- A drive: its shared state, its step output, the semaphores of its moves and its stepper. -/
structure Drive where
  axis : Axis
  step : Pin
  periods : StepPeriods
  clockRate : Nat
  available : Semaphore
  begin : Semaphore
  done : Semaphore
  shutdown : Bool
  stepper : Stepper
  deriving DecidableEq, Repr

namespace Drive

/-- A drive without power, with its stepper waiting; refused if the periods are. -/
def ofPeriods (periods : StepPeriods) (clockRate : Nat) : Except Problem Drive :=
  periods.validate.map fun _ => {
    axis := .initial
    step := .ofLevel false
    periods := periods
    clockRate := clockRate
    available := .permit
    begin := .flag
    done := .flag
    shutdown := false
    stepper := ⟨.waiting, 0, none⟩ }

/-! ## The stepper -/

/-- What the stepper's next action needs. -/
def demand (d : Drive) : Demand :=
  match d.stepper.phase with
  | .waiting => .permit
  | .starting us => .startTimer us
  | .pacing => .tick
  | .gauging _ | .marking _ => .cycles
  | .resting _ us => .delay us
  | .holding _ => .delay Limits.pulseWidthUs
  | .stopping _ => .stopTimer
  | .ended => .nothing
  | _ => .turn

/-- The drive with its stepper at another action. -/
def goto (d : Drive) (p : StepperPhase) : Drive := { d with stepper.phase := p }

/-- The action after a decision to step: a reversal is gauged first. -/
def stepPhase (last : Option LastStep) (up : Bool) : StepperPhase :=
  match last with
  | some l => if l.up = up then .raising up else .gauging up
  | none => .raising up

/-- The action after the cycle counter was read before a reversal. -/
def restPhase (d : Drive) (up : Bool) (cycles : Nat) : StepperPhase :=
  let elapsed := d.stepper.last.bind fun l => CycleClock.elapsedUs d.clockRate l.cycles cycles
  let us := remainingRest d.stepper.restUs elapsed
  if us = 0 then .raising up else .resting up us

/-- The stepper's next action, given what it asked for. A reply to something else changes
nothing, and neither does one to a stepper that waits for a move while none has begun. -/
def resume (d : Drive) (r : Reply) : Drive :=
  match d.stepper.phase, r with
  | .waiting, .done =>
    match d.begin.take? with
    | none => d
    | some b => { d with begin := b, stepper.phase := .woken }
  | .woken, .done => d.goto (if d.shutdown then .ended else .loading)
  | .loading, .done =>
    { d with stepper := { d.stepper with
        phase := .starting (d.periods.pace d.axis.speed)
        restUs := d.periods.rest d.axis.speed } }
  | .starting _, .done => d.goto .pacing
  | .pacing, .ticked running => d.goto (if running then .ticked else .stopping .aborted)
  | .ticked, .done => d.goto (if d.shutdown then .stopping .aborted else .deciding)
  | .deciding, .done =>
    match d.axis.decide with
    | (a, .finish outcome) => { d with axis := a, stepper.phase := .stopping outcome }
    | (a, .step up) => { d with axis := a, stepper.phase := stepPhase d.stepper.last up }
  | .gauging up, .cycles n => d.goto (d.restPhase up n)
  | .resting up _, .done => d.goto (.raising up)
  | .raising up, .done => { d with step := d.step.drive true, stepper.phase := .advancing up }
  | .advancing up, .done => { d with axis := d.axis.advance up, stepper.phase := .holding up }
  | .holding up, .done => d.goto (.lowering up)
  | .lowering up, .done => { d with step := d.step.drive false, stepper.phase := .marking up }
  | .marking up, .cycles n =>
    { d with stepper := { d.stepper with phase := .pacing, last := some ⟨up, n⟩ } }
  | .stopping outcome, .done => d.goto (.reporting outcome)
  | .reporting outcome, .done =>
    { d with axis := d.axis.report outcome, stepper.phase := .announcing }
  | .announcing, .done => { d with done := d.done.give, stepper.phase := .waiting }
  | _, _ => d

/-- Has the stepper a move to do or in hand? -/
def moving (d : Drive) : Bool := d.stepper.phase ≠ .waiting || d.begin.ready

/-! ## What clients do -/

/-- The position, if there is one. -/
def locate (d : Drive) : Int := d.axis.locate

def powerOn (d : Drive) : Drive × Bool :=
  let (a, changed) := d.axis.powerOn
  ({ d with axis := a }, changed)

def powerOff (d : Drive) : Drive × Bool :=
  let (a, changed) := d.axis.powerOff
  ({ d with axis := a }, changed)

/-- Asks the move in flight to stop. -/
def abort (d : Drive) : Drive × Bool :=
  let (a, asked) := d.axis.abort
  ({ d with axis := a }, asked)

/-- May an order be given at all? An absolute one must name a position. -/
def admits (o : MoveOrder) : Except Fault Unit :=
  if o.relative = true ∨ Position.Valid o.steps then .ok () else .error (.moveTarget o.steps)

/-- Takes the permit to move, if the last move has been collected. -/
def takePermit? (d : Drive) : Option Drive :=
  d.available.take?.map fun s => { d with available := s }

/-- Takes up an order, in one critical section. -/
def launch (d : Drive) (o : MoveOrder) : Drive × Launch :=
  let (a, l) := d.axis.launch o
  ({ d with axis := a }, l)

/-- Passes on what became of an order: to the stepper, to whoever waits for the end, or, if it was
refused, to the next client. -/
def announce (d : Drive) : Launch → Drive
  | .began _ => { d with begin := d.begin.give }
  | .finished _ => { d with done := d.done.give }
  | .refused _ => { d with available := d.available.give }

/-- Starts a move, unless the last one has not been collected. -/
def startMove? (d : Drive) (o : MoveOrder) : Option (Drive × Launch) :=
  d.takePermit?.map fun d =>
    let (d, l) := d.launch o
    (d.announce l, l)

/-- Takes the end of a move, if it has been announced. -/
def takeDone? (d : Drive) : Option Drive :=
  d.done.take?.map fun s => { d with done := s }

/-- Gives the permit to move back. -/
def givePermit (d : Drive) : Drive := { d with available := d.available.give }

/-- Collects the outcome of a move that has ended. -/
def finishMove? (d : Drive) : Option (Drive × MoveOutcome) :=
  d.takeDone?.map fun d => (d.givePermit, d.axis.outcome)

end Drive

end SwitchBench
