import SwitchBench.Workbench.Run

/-!
# Rehearsals

A rehearsal is a sequence of calls on a rig on its workbench. There are two kinds (`Motion`): one
in which the stepper waits for every tick until a call grants it, so that a move can be looked at
between any two steps, and one in which it moves whenever time goes by.

A call that starts a move waits while the last move has not been collected, and so does one that
starts a capture. One such call of each kind may wait; it goes on when the last one is collected.
A call is refused if it would wait for something that cannot happen any more.
-/

namespace SwitchBench

/-- When the stepper moves. -/
inductive Motion where
  /-- On ticks that are granted. -/
  | granted
  /-- Whenever time goes by. -/
  | free
  deriving DecidableEq, Repr

/-- A measurement to be acquired. -/
structure MeasureOrder where
  top : Int
  bottom : Int
  speed : Speed
  passes : Nat
  evenDown : Bool
  setup : CaptureSetup
  /-- How often it is to be acquired. -/
  times : Nat
  /-- What is done once that many passes are done. -/
  afterPass : List (Nat × List Intervention)
  deriving Repr

/-- A call. -/
inductive RigCall where
  | powerOn
  | powerOff
  | abort
  | isOn
  | locate
  | pins
  | startMove (o : MoveOrder)
  | finishMove (p : Patience) (script : List ScriptLine)
  | move (o : MoveOrder) (script : List ScriptLine)
  | tick (n : Nat)
  | failTimer
  | advance (us : Nat)
  | send (m : Message)
  | inputLength
  | inputGet
  | inputReset
  | poll
  | startCapture (s : CaptureSetup) (d : Directions)
  | finishCapture (p : Patience) (length : Nat)
  | abortCapture
  | trigger
  | edge (channel : Nat) (e : Edge)
  | raise (f : Timer.Flags)
  | setLatched (c : Channel) (ticks : Nat)
  | handle
  | sample (o : SampleOrder) (length : Nat) (script : List ScriptLine)
  | check (o : CheckOrder) (script : List ScriptLine)
  | measure (o : MeasureOrder) (script : List ScriptLine)
  | state
  deriving Repr

/-- What became of a call that had to wait, once it could go on. -/
abbrev Unblocked := Option (Except Refusal Unit)

/-- What a call answers. -/
inductive RigAnswer where
  | done
  | flag (b : Bool)
  | power (on off : Bool)
  | position (p : Int)
  | pins (l : List Pin)
  | started
  | blocked
  | moveEnded (outcome : MoveOutcome) (next : Unblocked)
  | moved (outcome : MoveOutcome)
  | ticked (used : Nat) (moving : Bool)
  | length (n : Nat)
  | message (m : Option Message)
  | polled (ready : Option (List Bool))
  | captureEnded (outcome : CaptureOutcome) (readings : List Reading) (next : Unblocked)
  | sampled (outcome : SampleOutcome) (readings : List Reading)
  | checked (outcome : SampleOutcome) (triggers : Nat)
  | measured (runs : List Workbench.Acquired) (m : Measurement)
  | state (plunger : Int) (pressed : Bool) (transitions : Nat) (pins : List Pin) (counting : Bool)
  deriving Repr

/-- A rehearsal: its bench, and the calls that wait. -/
structure Rehearsal where
  bench : Workbench
  motion : Motion
  waitingMove : Option MoveOrder
  waitingCapture : Option (CaptureSetup × Directions)
  deriving Repr

namespace Rehearsal

/-- A rehearsal on a bench where nothing has happened yet. -/
def ofBench (bench : Workbench) (motion : Motion) : Rehearsal := ⟨bench, motion, none, none⟩

/-- What a result slot holds before anything is written to it. -/
def unwritten : Reading := ⟨.overcapture, 12345⟩

/-- A result buffer before anything is written to it. -/
def unwrittenBuffer (length : Nat) : List Reading := List.replicate length unwritten

/-- The rehearsal after a change of its bench. The stepper acts until it waits for a tick; where
it moves as time goes by, also until it is in a delay. -/
def withBench (h : Rehearsal) (w : Workbench) : Rehearsal :=
  { h with bench := w.settle (h.motion = .free) }

def withRig (h : Rehearsal) (r : Rig) : Rehearsal := h.withBench { h.bench with rig := r }

def withRecorder (h : Rehearsal) (r : Recorder) : Rehearsal :=
  h.withRig { h.bench.rig with recorder := r }

/-- The bench at the start of an operation with a script. -/
def scripted (h : Rehearsal) (script : List ScriptLine) : Workbench :=
  { h.bench with script := .ofLines script }

/-- Does the end of a sample's motion wait for the end of its capture? -/
def draining (h : Rehearsal) : Bool := h.motion = .granted

/-- Has the last move not been collected? -/
def moveOpen (h : Rehearsal) : Bool := !h.bench.rig.drive.available.ready

/-- Has the last capture not been collected? -/
def captureOpen (h : Rehearsal) : Bool := !h.bench.rig.recorder.available.ready

/-! ## Moves -/

/-- Starts a move, if the permit is free. -/
def launch? (h : Rehearsal) (o : MoveOrder) : Option (Rehearsal × Except Refusal Unit) :=
  h.bench.rig.drive.startMove? o |>.map fun (d, l) =>
    (h.withRig { h.bench.rig with drive := d },
      match l with
      | .refused f => .error (.breach f)
      | _ => .ok ())

/-- A call to start a move. -/
def startMove (h : Rehearsal) (o : MoveOrder) : Rehearsal × Except Refusal RigAnswer :=
  match Drive.admits o with
  | .error f => (h, .error (.breach f))
  | .ok _ =>
    match h.launch? o with
    | some (h, r) => (h, r.map fun _ => .started)
    | none =>
      if h.waitingMove.isSome then (h, .error .endless)
      else ({ h with waitingMove := some o }, .ok .blocked)

/-- Lets the call that waits for the permit to move go on. -/
def releaseMove (h : Rehearsal) : Rehearsal × Unblocked :=
  match h.waitingMove with
  | none => (h, none)
  | some o =>
    match h.launch? o with
    | none => (h, none)
    | some (h, r) => ({ h with waitingMove := none }, some r)

/-- Lets a move come to its end, as far as a wait allows. -/
def awaitMove (h : Rehearsal) (p : Patience) (script : List ScriptLine) : Workbench :=
  match h.motion, p with
  | .granted, .forever => (h.scripted script).finish
  | .granted, _ => h.bench
  | .free, p => (h.scripted script).await p (·.rig.drive.done.ready)

/-- Collects a move. -/
def finishMove (h : Rehearsal) (p : Patience) (script : List ScriptLine) :
    Rehearsal × Except Refusal RigAnswer :=
  let h := { h with bench := h.awaitMove p script }
  match h.bench.rig.drive.finishMove? with
  | some (d, outcome) =>
    let (h, next) := (h.withRig { h.bench.rig with drive := d }).releaseMove
    (h, .ok (.moveEnded outcome next))
  | none => (h, if p = .forever then .error .endless else .ok (.moveEnded .timedOut none))

/-- A move from its start to its end. -/
def move (h : Rehearsal) (o : MoveOrder) (script : List ScriptLine) :
    Rehearsal × Except Refusal RigAnswer :=
  if h.moveOpen then (h, .error .endless)
  else
    match { h with bench := h.scripted script }.startMove o with
    | (h, .error e) => (h, .error e)
    | (h, .ok _) =>
      let h := { h with bench := h.bench.finish }
      match h.bench.rig.drive.finishMove? with
      | some (d, outcome) =>
        (h.withRig { h.bench.rig with drive := d }, .ok (.moved outcome))
      | none => (h, .error .endless)

/-! ## Captures -/

/-- Starts a capture, if the permit is free. -/
def arm? (h : Rehearsal) (s : CaptureSetup) (d : Directions) : Option Rehearsal :=
  h.bench.rig.recorder.start? s d h.bench.now |>.map h.withRecorder

/-- A call to start a capture. -/
def startCapture (h : Rehearsal) (s : CaptureSetup) (d : Directions) :
    Rehearsal × Except Refusal RigAnswer :=
  match Recorder.admits s with
  | .error f => (h, .error (.breach f))
  | .ok _ =>
    match h.arm? s d with
    | some h => (h, .ok .started)
    | none =>
      if h.waitingCapture.isSome then (h, .error .endless)
      else ({ h with waitingCapture := some (s, d) }, .ok .blocked)

/-- Lets the call that waits for the permit to capture go on. -/
def releaseCapture (h : Rehearsal) : Rehearsal × Unblocked :=
  match h.waitingCapture with
  | none => (h, none)
  | some (s, d) =>
    match h.arm? s d with
    | none => (h, none)
    | some h => ({ h with waitingCapture := none }, some (.ok ()))

/-- Collects a capture. -/
def finishCapture (h : Rehearsal) (p : Patience) (length : Nat) :
    Rehearsal × Except Refusal RigAnswer :=
  let h := match h.motion with
    | .granted => h
    | .free => { h with bench := (h.scripted []).await p (·.rig.recorder.done.ready) }
  let buffer := unwrittenBuffer length
  match h.bench.rig.recorder.finish? buffer with
  | some (r, outcome, readings) =>
    let (h, next) := (h.withRecorder r).releaseCapture
    (h, .ok (.captureEnded outcome readings next))
  | none =>
    (h, if p = .forever then .error .endless else .ok (.captureEnded .timedOut buffer none))

/-! ## Samples -/

/-- Nothing may be open when a sample begins. -/
def busy (h : Rehearsal) : Bool := h.moveOpen || h.captureOpen

def sample (h : Rehearsal) (o : SampleOrder) (length : Nat) (script : List ScriptLine) :
    Rehearsal × Except Refusal RigAnswer :=
  if h.busy then (h, .error .endless)
  else
    let (w, r) := (h.scripted script).sample h.draining o (unwrittenBuffer length)
    (h.withBench w, r.map fun (outcome, readings) => .sampled outcome readings)

def check (h : Rehearsal) (o : CheckOrder) (script : List ScriptLine) :
    Rehearsal × Except Refusal RigAnswer :=
  if h.busy then (h, .error .endless)
  else
    let (w, r) := (h.scripted script).check h.draining o
    (h.withBench w, r.bind fun c => match c.result? with
      | some outcome => .ok (.checked outcome c.triggers)
      | none => .error .endless)

/-- What is to be done once that many passes are done. -/
def afterPasses (l : List (Nat × List Intervention)) (passes : Nat) : List Intervention :=
  (l.filter (·.1 = passes)).flatMap (·.2)

/-- Acquires a measurement so many times. -/
def acquireTimes (draining : Bool) (after : Nat → List Intervention) :
    Nat → Workbench → Measurement → Workbench × Measurement × List Workbench.Acquired
  | 0, w, m => (w, m, [])
  | n + 1, w, m =>
    let (w, m, a) := w.acquire draining after m
    let (w, m, l) := acquireTimes draining after n w m
    (w, m, a :: l)

def measure (h : Rehearsal) (o : MeasureOrder) (script : List ScriptLine) :
    Rehearsal × Except Refusal RigAnswer :=
  if h.busy then (h, .error .endless)
  else match Measurement.ofRange o.top o.bottom o.speed o.passes o.setup o.evenDown with
    | .error f => (h, .error (.breach f))
    | .ok m =>
      let (w, m, runs) :=
        acquireTimes h.draining (afterPasses o.afterPass) o.times (h.scripted script) m
      (h.withBench w, .ok (.measured runs m))

/-! ## All calls -/

/-- The output lines: power, direction and step. -/
def pins (h : Rehearsal) : List Pin :=
  let d := h.bench.rig.drive
  [d.axis.disable, d.axis.direction, d.step]

/-- What can be told about the plunger and the timer. -/
def describe (h : Rehearsal) : RigAnswer :=
  let (pressed, transitions) := match h.bench.plunger with
    | .onSwitch k => (k.pressed, k.transitions)
    | .ruled _ _ => (false, 0)
  .state h.bench.plunger.position pressed transitions h.pins h.bench.rig.recorder.timer.counting

/-- A call, and the rehearsal after it. -/
def call (h : Rehearsal) (c : RigCall) : Rehearsal × Except Refusal RigAnswer :=
  let w := h.bench
  let d := w.rig.drive
  match c with
  | .powerOn => (h.withBench (w.withDrive d.powerOn.1), .ok (.flag d.powerOn.2))
  | .powerOff => (h.withBench (w.withDrive d.powerOff.1), .ok (.flag d.powerOff.2))
  | .abort => (h.withBench (w.withDrive d.abort.1), .ok (.flag d.abort.2))
  | .isOn => (h, .ok (.power (!d.axis.isOff) d.axis.isOff))
  | .locate => (h, .ok (.position d.locate))
  | .pins => (h, .ok (.pins h.pins))
  | .startMove o => h.startMove o
  | .finishMove p script => h.finishMove p script
  | .move o script => h.move o script
  | .tick n =>
    let (w, used) := Workbench.grant n (h.scripted [])
    ({ h with bench := w }, .ok (.ticked used w.rig.drive.moving))
  | .failTimer => ({ h with bench := { w with timerFails := true } }, .ok .done)
  | .advance us =>
    (h.withBench (match h.motion with
      | .granted => w.elapse (w.now + us)
      | .free => (h.scripted []).pass us), .ok .done)
  | .send m =>
    let (q, queued) := w.rig.inbox.push m
    (h.withRig { w.rig with inbox := q }, .ok (.flag queued))
  | .inputLength => (h, .ok (.length w.rig.inbox.length))
  | .inputGet =>
    match w.rig.inbox.pop? with
    | none => (h, .ok (.message none))
    | some (m, q) => (h.withRig { w.rig with inbox := q }, .ok (.message (some m)))
  | .inputReset => (h.withRig { w.rig with inbox := .empty }, .ok .done)
  | .poll =>
    let ready := [w.rig.inbox.ready, d.done.ready, w.rig.recorder.done.ready]
    (h, .ok (.polled (if ready.any id then some ready else none)))
  | .startCapture s dirs => h.startCapture s dirs
  | .finishCapture p length => h.finishCapture p length
  | .abortCapture =>
    let (r, was) := w.rig.recorder.abort w.now
    (h.withRecorder r, .ok (.flag was))
  | .trigger =>
    let (w, started) := w.injectTrigger
    (h.withBench w, .ok (.flag started))
  | .edge channel e =>
    let (w, taken) := w.injectEdge channel e
    (h.withBench w, .ok (.flag taken))
  | .raise f =>
    (h.withRecorder { w.rig.recorder with timer := w.rig.recorder.timer.raise f }, .ok .done)
  | .setLatched c ticks =>
    let t := w.rig.recorder.timer
    (h.withRecorder { w.rig.recorder with timer := { t with latched := t.latched.set c ticks } },
      .ok .done)
  | .handle => (h.withRecorder (w.rig.recorder.handle w.now), .ok .done)
  | .sample o length script => h.sample o length script
  | .check o script => h.check o script
  | .measure o script => h.measure o script
  | .state => (h, .ok h.describe)

/-- What the hardware did since it was last asked, oldest first, and the rehearsal with that
forgotten. -/
def takeEvents (h : Rehearsal) : Rehearsal × List (Nat × HardwareEvent) :=
  ({ h with bench := { h.bench with events := [] } }, h.bench.events.reverse)

end Rehearsal

end SwitchBench
