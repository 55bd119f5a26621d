import SwitchBench.Hardware.KeySwitch
import SwitchBench.Hardware.Pacer
import SwitchBench.Sampling.Measurement
import SwitchBench.Workbench.Script

/-!
# The workbench

A workbench is a rig on simulated hardware, in virtual time. It holds what the rig's programs act
on and what acts on them: the instant, the cycle clock, the step timer, the plunger under the
drive, edges and messages that are yet to come, a script, and a sampler at work.

What the rig does to its outputs shows in the rig's own state. `react` compares that state before
and after an action and lets the hardware follow: it notes the changes of the outputs, moves the
origin of the plunger with the power, and moves the plunger with a step.

The sampler waits for nothing but the rig. It is given its turns as soon as it can use them, after
every single action (`attend`).
-/

namespace SwitchBench

/-- An edge that a capture channel sees when the plunger arrives somewhere. -/
structure EdgeRule where
  position : Int
  up : Bool
  channel : Nat
  edge : Edge
  afterUs : Nat
  deriving DecidableEq, Repr

/-- What lies under the drive: a plunger that causes edges by rules, or a key switch. -/
inductive Plunger where
  | ruled (position : Int) (rules : List EdgeRule)
  | onSwitch (k : KeySwitch)
  deriving DecidableEq, Repr

namespace Plunger

def position : Plunger → Int
  | ruled p _ => p
  | onSwitch k => k.position

/-- The power of the drive changed, and the origin is where the plunger is. -/
def powerChanged : Plunger → Plunger
  | ruled _ rules => ruled 0 rules
  | onSwitch k => onSwitch k.powerChanged

/-- A powered step, and the edges it causes, each with its delay. -/
def step (p : Plunger) (up : Bool) : Plunger × List (Nat × Nat × Edge) :=
  match p with
  | ruled position rules =>
    let position := if up then position - 1 else position + 1
    (ruled position rules,
      (rules.filter fun r => r.position = position ∧ r.up = up).map fun r =>
        (r.afterUs, r.channel, r.edge))
  | onSwitch k =>
    let (k, edges) := k.step up
    (onSwitch k, edges.map fun (c, e) => (0, c.val, e))

end Plunger

/-- Something the drive's hardware did. -/
inductive HardwareEvent where
  | disable (level : Bool)
  | direction (level : Bool)
  | step (level : Bool)
  | startTimer (periodUs : Nat)
  | stopTimer
  | delay (us : Nat)
  deriving DecidableEq, Repr

/-- The written form. -/
def HardwareEvent.text : HardwareEvent → String
  | disable l => s!"disable {l.toNat}"
  | direction l => s!"dir {l.toNat}"
  | step l => s!"step {l.toNat}"
  | startTimer us => s!"start {us}"
  | stopTimer => "stop"
  | delay us => s!"delay {us}"

/-- Something that happened on the bench: at the key switch, to the capture timer, to a sample, or
to the series of samples it belongs to. -/
inductive BenchNote where
  | switchTurned (pressed : Bool)
  | timerPeriodEnded
  | sampler (n : SampleNote)
  | checkInterrupted (pass : Nat) (outcome : SampleOutcome)
  | checkFinished (passes triggers : Nat)
  | passAcquired (m : Measurement)
  | acquisitionInterrupted (passes : Nat) (outcome : SampleOutcome)
  deriving Repr

/-- A rig on simulated hardware. -/
structure Workbench where
  rig : Rig
  now : Nat
  clock : CycleClock
  pacer : Pacer
  plunger : Plunger
  /-- Edges to come, with their instants, in the order they were caused. -/
  edges : List (Nat × Nat × Edge)
  /-- Messages to come, with their instants. -/
  messages : List (Nat × Message)
  /-- When the delay that the stepper is in is over. -/
  delayOver : Option Nat
  /-- The next wait for a tick finds the timer stopped. -/
  timerFails : Bool
  /-- The power went off since the step timer was started. -/
  powerWentOff : Bool
  script : Script
  sampler : Option Sampler
  /-- What the hardware did, newest first. -/
  events : List (Nat × HardwareEvent)
  /-- What happened on the bench, newest first. -/
  notes : List BenchNote
  deriving Repr

namespace Workbench

/-- A rig on its bench at time zero. -/
def ofRig (rig : Rig) (clock : CycleClock) (catchup : Catchup) (plunger : Plunger) : Workbench where
  rig := rig
  now := 0
  clock := clock
  pacer := .stopped catchup
  plunger := plunger
  edges := []
  messages := []
  delayOver := none
  timerFails := false
  powerWentOff := false
  script := .ofLines []
  sampler := none
  events := []
  notes := []

/-- Notes what happened on the bench. -/
def note (w : Workbench) (n : Option BenchNote) : Workbench :=
  { w with notes := n.toList ++ w.notes }

/-- Notes what the hardware does. -/
def log (w : Workbench) (e : HardwareEvent) : Workbench := { w with events := (w.now, e) :: w.events }

/-! ## The sampler's turns -/

/-- One action of the sampler, if it can act. -/
def sampleStep? (w : Workbench) : Option Workbench := do
  let s ← w.sampler
  let (rig, s, note) ← s.step w.now w.rig
  return { w with rig := rig, sampler := some s }.note (note.map .sampler)

/-- Lets the sampler act until it has to wait, at most so many times. -/
def attendFor : Nat → Workbench → Workbench
  | 0, w => w
  | n + 1, w =>
    match w.sampleStep? with
    | none => w
    | some w => attendFor n w

/-- More turns than a sampler can use in a row: it takes at most fifteen between two of the
messages, the two permits and the two ends it waits for. -/
def attention : Nat := 16 * (Limits.inboxDepth + 8)

/-- Lets the sampler act until it has to wait. -/
def attend (w : Workbench) : Workbench := attendFor attention w

/-! ## Hardware that follows the rig -/

/-- An edge at a capture input now. -/
def injectEdge (w : Workbench) (channel : Nat) (e : Edge) : Workbench × Bool :=
  match Channel.ofNat? channel with
  | none => (w, false)
  | some c =>
    let (r, taken) := w.rig.recorder.edge c e w.now
    ({ w with rig := { w.rig with recorder := r } }, taken)

/-- A trigger edge now. -/
def injectTrigger (w : Workbench) : Workbench × Bool :=
  let (r, started) := w.rig.recorder.trigger w.now
  ({ w with rig := { w.rig with recorder := r } }, started)

/-- An edge that a step causes: at once, or to come. -/
def causeEdge (w : Workbench) (e : Nat × Nat × Edge) : Workbench :=
  if e.1 = 0 then (w.injectEdge e.2.1 e.2.2).1
  else { w with edges := w.edges ++ [(w.now + e.1, e.2)] }

/-- What is to be noted of a step of the plunger. -/
def turn? (before after : Plunger) : Option BenchNote :=
  match before, after with
  | .onSwitch k, .onSwitch l =>
    if k.transitions = l.transitions then none else some (.switchTurned l.pressed)
  | _, _ => none

/-- The plunger follows a rising edge of the step output, if the drive has power. -/
def follow (w : Workbench) : Workbench :=
  if w.rig.drive.axis.isOff then w
  else
    let w := w.injectTrigger.1
    let (p, edges) := w.plunger.step w.rig.drive.axis.direction.level
    edges.foldl causeEdge ({ w with plunger := p }.note (turn? w.plunger p))

/-- The hardware follows what the rig did to its power and direction outputs. -/
def followAxis (w : Workbench) (before : Axis) : Workbench :=
  let a := w.rig.drive.axis
  let w :=
    if a.disable.level = before.disable.level then w
    else { w.log (.disable a.disable.level) with
      plunger := w.plunger.powerChanged
      powerWentOff := w.powerWentOff || a.disable.level }
  if a.direction.level = before.direction.level then w else w.log (.direction a.direction.level)

/-- Changes the rig's drive, and the power and direction outputs with it. -/
def withDrive (w : Workbench) (d : Drive) : Workbench :=
  { w with rig := { w.rig with drive := d } }.followAxis w.rig.drive.axis

/-- Something done to the bench from outside; the sampler reacts at once. -/
def intervene (w : Workbench) (i : Intervention) : Workbench :=
  attend <| match i with
    | .abortMove => w.withDrive w.rig.drive.abort.1
    | .abortCapture =>
      { w with rig := { w.rig with recorder := (w.rig.recorder.abort w.now).1 } }
    | .powerOff => w.withDrive w.rig.drive.powerOff.1
    | .powerOn => w.withDrive w.rig.drive.powerOn.1
    | .failTimer => { w with timerFails := true }
    | .send m => { w with rig := { w.rig with inbox := (w.rig.inbox.push m).1 } }

def interveneAll (w : Workbench) (l : List Intervention) : Workbench := l.foldl intervene w

/-- The hardware follows a change of the step output; a rising edge is a moment of the script. -/
def followStep (w : Workbench) (before : Pin) : Workbench :=
  let level := w.rig.drive.step.level
  if level = before.level then w
  else
    let w := w.log (.step level)
    if level then
      let w := w.follow
      let (s, actions) := w.script.step
      { w with script := s }.interveneAll actions
    else w

/-! ## Time -/

/-- Something that happens by itself when its time comes. -/
inductive Due where
  | expiry
  | edge
  | message
  deriving DecidableEq, Repr

/-- The first of the edges to come. -/
def firstOf {α : Type} : List (Nat × α) → Option Nat
  | [] => none
  | (t, _) :: rest => some (match firstOf rest with
    | none => t
    | some u => min t u)

/-- The earlier of two things to come; at one instant the former goes first. -/
def earlier : Option (Nat × Due) → Option (Nat × Due) → Option (Nat × Due)
  | none, b => b
  | a, none => a
  | some a, some b => some (if a.1 ≤ b.1 then a else b)

/-- What comes next by itself, and when: at one instant the end of a timer period goes before an
edge, and an edge before a message. -/
def due (w : Workbench) : Option (Nat × Due) :=
  earlier (w.rig.recorder.timer.expiry.map (·, .expiry))
    (earlier ((firstOf w.edges).map (·, .edge)) ((firstOf w.messages).map (·, .message)))

/-- Splits off the first entry at an instant. -/
def takeAt {α : Type} (t : Nat) : List (Nat × α) → Option (α × List (Nat × α))
  | [] => none
  | (u, a) :: rest =>
    if u = t then some (a, rest) else (takeAt t rest).map fun (b, l) => (b, (u, a) :: l)

/-- What comes next happens, at its time or now if that has passed. -/
def happen (w : Workbench) (t : Nat) (d : Due) : Workbench :=
  let w := { w with now := max w.now t }
  attend <| match d with
    | .expiry =>
      { w with rig := { w.rig with recorder := w.rig.recorder.expire t w.now } }.note
        (some .timerPeriodEnded)
    | .edge =>
      match takeAt t w.edges with
      | none => w
      | some ((channel, e), rest) => ({ w with edges := rest }.injectEdge channel e).1
    | .message =>
      match takeAt t w.messages with
      | none => w
      | some (m, rest) =>
        { w with messages := rest, rig := { w.rig with inbox := (w.rig.inbox.push m).1 } }

/-- Lets everything happen up to an instant, at most so many things. -/
def elapseFor : Nat → Nat → Workbench → Workbench
  | 0, target, w => { w with now := max w.now target }
  | n + 1, target, w =>
    match w.due with
    | some (t, d) => if t ≤ target then elapseFor n target (w.happen t d)
      else { w with now := max w.now target }
    | none => { w with now := max w.now target }

/-- Lets time go by up to an instant. A timer period lasts a tick at least, and what comes by
itself otherwise is on its list. -/
def elapse (w : Workbench) (target : Nat) : Workbench :=
  elapseFor ((target - w.now) / Limits.tickUs + 2 * w.edges.length + w.messages.length + 8)
    target w

end Workbench

end SwitchBench
