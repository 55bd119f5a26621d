import SwitchBench.Drive.Basic
import SwitchBench.Recorder
import SwitchBench.Sync.Inbox

/-!
# The rig and its samples

A rig is one drive, one recorder and one input queue. A sample is one move on it with a capture
alongside. The capture is armed before the move starts, so that the first step triggers its window.
While both are in flight the sampler waits for a message, the end of the move and the end of the
capture at once: an abort message stops both, and a move that lost its power stops the capture,
which no step will trigger any more.

The sampler is a program of small steps, each of them one atomic action on the rig
(`Sampler.step`). A step that has to wait for somebody else is `none`. Other programs, the stepper
above all, may act between any two steps.

* `Sampler.start` is the entry with its assertions; `step` from `locating` to `announcing` looks
  where the plunger is, arms the capture and starts the move.
* From `asleep` to `freeingRecorder` are the rounds: the poll looks at its three sources one after
  the other, and what was found is dealt with in the order message, move, capture.
* `conclude` combines the two ends, and `result?` is what the caller gets, beside the buffer.

Left out: the poller's subscriptions. A sampler that is `asleep` may wake whenever something is
ready, and that no wakeup is lost on the way is proved of the pollers by themselves.
-/

namespace SwitchBench

/-- A rig: what a sampler works with. -/
structure Rig where
  drive : Drive
  recorder : Recorder
  inbox : Inbox
  deriving DecidableEq, Repr

namespace Rig

/-- A rig at rest without power; refused if the step periods are. -/
def ofPeriods (periods : StepPeriods) (clockRate : Nat) : Except Problem Rig :=
  (Drive.ofPeriods periods clockRate).map fun d => ⟨d, .initial, .empty⟩

/-- Is there anything a sampler waits for: a message, the end of a move or of a capture? -/
def ready (r : Rig) : Bool := r.inbox.ready || r.drive.done.ready || r.recorder.done.ready

/-- Are move and capture free to start? -/
def idle (r : Rig) : Bool := r.drive.available.ready && r.recorder.available.ready

end Rig

/-- What a sample is to do. -/
structure SampleOrder where
  target : Int
  speed : Speed
  setup : CaptureSetup
  directions : Directions
  deriving DecidableEq, Repr

/-- What a sampler does that somebody may want to know. -/
inductive SampleNote where
  | captureArmed (order : SampleOrder)
  | moveStarted (target : Int) (speed : Speed)
  | sampleAborted
  | moveAbortAsked
  | captureAbortAsked
  | captureAborted
  deriving DecidableEq, Repr

/-- Where a sampler stands: what its next action is. -/
inductive SamplerPhase where
  /-- Asks where the plunger is. -/
  | locating
  /-- Takes the permit to capture. -/
  | takingRecorder
  | arming
  /-- Takes the permit to move. -/
  | takingDrive
  | launching
  /-- Passes on what became of the move order. -/
  | announcing (launch : Launch)
  /-- Sleeps until something it waits for is ready. -/
  | asleep
  /-- Looks for a message. -/
  | lookingForMessage
  /-- Looks for the end of the move. -/
  | lookingAtMove (message : Bool)
  /-- Looks for the end of the capture. -/
  | lookingAtCapture (message moved : Bool)
  /-- Takes a message. -/
  | reading (moved captured : Bool)
  | abortingMove (moved captured : Bool)
  | abortingCapture (moved captured : Bool)
  /-- Announces the end of the capture it aborted. -/
  | announcingAbort (moved captured : Bool)
  /-- Takes the end of the move. -/
  | takingMove (captured : Bool)
  /-- Reads how the move ended. -/
  | readingMove (captured : Bool)
  /-- Gives the permit to move back. -/
  | freeingDrive (captured : Bool)
  /-- Aborts the capture that nothing will trigger any more. -/
  | cuttingCapture (captured : Bool)
  /-- Announces the end of the capture it cut. -/
  | announcingCut (captured : Bool)
  /-- Takes the end of the capture. -/
  | takingCapture
  /-- Reads the channels out. -/
  | readingChannels
  /-- Gives the permit to capture back. -/
  | freeingRecorder (readings : Option (List Reading))
  | finished (outcome : SampleOutcome)
  /-- Broke the contract. -/
  | refused (fault : Fault)
  deriving DecidableEq, Repr

/-- A sampler at work: its order, its next action, what it found out, and the result buffer. -/
structure Sampler where
  order : SampleOrder
  phase : SamplerPhase
  moveEnd : Option MoveOutcome
  captureEnd : Option CaptureOutcome
  userAborted : Bool
  buffer : List Reading
  deriving DecidableEq, Repr

namespace Sampler

/-- A sample that begins; an order for no position, or with too long a window, is refused. -/
def start (o : SampleOrder) (buffer : List Reading) : Except Fault Sampler :=
  if ¬ Position.Valid o.target then .error .sampleTarget
  else if ¬ o.setup.Valid then .error .captureSetup
  else .ok ⟨o, .locating, none, none, false, buffer⟩

/-- The outcome once move and capture have ended. A loss of power is reported as such unless the
user asked to abort. -/
def conclude (move : MoveOutcome) (capture : CaptureOutcome) (userAborted : Bool) :
    Except Fault SampleOutcome :=
  if move = .poweredOff ∧ userAborted = false then .ok .poweredOff
  else SampleOutcome.reduce move capture

/-- The end of a sample. -/
def ending : Except Fault SampleOutcome → SamplerPhase
  | .ok outcome => .finished outcome
  | .error f => .refused f

/-- The sampler at another action. -/
def goto (s : Sampler) (p : SamplerPhase) : Sampler := { s with phase := p }

/-- The action at the start of a round: to conclude if both ends are known, to look for
something to do otherwise. -/
def nextRound (s : Sampler) : Sampler :=
  match s.moveEnd, s.captureEnd with
  | some m, some c => s.goto (ending (conclude m c s.userAborted))
  | _, _ => s.goto .lookingForMessage

/-- The action after the end of the move was dealt with. -/
def afterMove (s : Sampler) (captured : Bool) : Sampler :=
  if captured && s.captureEnd.isNone then s.goto .takingCapture else s.nextRound

/-- The action after a message was dealt with. -/
def afterMessage (s : Sampler) (moved captured : Bool) : Sampler :=
  if moved && s.moveEnd.isNone then s.goto (.takingMove captured) else s.afterMove captured

/-- Takes a message; an abort is passed on to move and capture. -/
def read (r : Rig) (s : Sampler) (moved captured : Bool) : Rig × Sampler × Option SampleNote :=
  match r.inbox.pop? with
  | none => (r, s.afterMessage moved captured, none)
  | some (m, q) =>
    let r := { r with inbox := q }
    if m = .abort then
      (r, { s with userAborted := true, phase := .abortingMove moved captured },
        some .sampleAborted)
    else (r, s.afterMessage moved captured, none)

/-- The next action of a sampler, at an instant; `none` if it has to wait or has finished. -/
def step (now : Nat) (r : Rig) (s : Sampler) : Option (Rig × Sampler × Option SampleNote) :=
  match s.phase with
  | .locating =>
    let p := r.drive.locate
    if ¬ Position.Valid p then some (r, s.goto (.finished .poweredOff), none)
    else if s.order.target = p then
      some (r, { s with
        buffer := s.buffer.map fun _ => .blank, phase := .finished .ok }, none)
    else some (r, s.goto .takingRecorder, none)
  | .takingRecorder =>
    r.recorder.takePermit?.map fun c => ({ r with recorder := c }, s.goto .arming, none)
  | .arming =>
    some ({ r with recorder := r.recorder.arm s.order.setup s.order.directions now },
      s.goto .takingDrive, some (.captureArmed s.order))
  | .takingDrive =>
    r.drive.takePermit?.map fun d => ({ r with drive := d }, s.goto .launching, none)
  | .launching =>
    let (d, l) := r.drive.launch ⟨false, s.order.target, s.order.speed⟩
    let note := match l with
      | .began target => some (.moveStarted target s.order.speed)
      | _ => none
    some ({ r with drive := d }, s.goto (.announcing l), note)
  | .announcing l =>
    let r := { r with drive := r.drive.announce l }
    match l with
    | .refused f => some (r, s.goto (.refused f), none)
    | _ => some (r, s.goto .lookingForMessage, none)
  | .asleep => if r.ready then some (r, s.goto .lookingForMessage, none) else none
  | .lookingForMessage => some (r, s.goto (.lookingAtMove r.inbox.ready), none)
  | .lookingAtMove message =>
    some (r, s.goto (.lookingAtCapture message r.drive.done.ready), none)
  | .lookingAtCapture message moved =>
    let captured := r.recorder.done.ready
    if message then some (r, s.goto (.reading moved captured), none)
    else if moved || captured then some (r, s.afterMessage moved captured, none)
    else some (r, s.goto .asleep, none)
  | .reading moved captured => some (read r s moved captured)
  | .abortingMove moved captured =>
    let (d, asked) := r.drive.abort
    some ({ r with drive := d }, s.goto (.abortingCapture moved captured),
      if asked then some .moveAbortAsked else none)
  | .abortingCapture moved captured =>
    let (c, was) := r.recorder.cut now
    let r := { r with recorder := c }
    if was then some (r, s.goto (.announcingAbort moved captured), some .captureAbortAsked)
    else some (r, s.afterMessage moved captured, none)
  | .announcingAbort moved captured =>
    some ({ r with recorder := r.recorder.announce }, s.afterMessage moved captured, none)
  | .takingMove captured =>
    r.drive.takeDone?.map fun d => ({ r with drive := d }, s.goto (.readingMove captured), none)
  | .readingMove captured =>
    some (r, { s with moveEnd := some r.drive.axis.outcome, phase := .freeingDrive captured }, none)
  | .freeingDrive captured =>
    let r := { r with drive := r.drive.givePermit }
    if s.moveEnd = some .poweredOff ∧ s.captureEnd = none then
      some (r, s.goto (.cuttingCapture captured), none)
    else some (r, s.afterMove captured, none)
  | .cuttingCapture captured =>
    let (c, was) := r.recorder.cut now
    let r := { r with recorder := c }
    if was then some (r, s.goto (.announcingCut captured), some .captureAbortAsked)
    else some (r, s.afterMove captured, none)
  | .announcingCut captured =>
    some ({ r with recorder := r.recorder.announce }, s.afterMove captured, none)
  | .takingCapture =>
    r.recorder.takeDone?.map fun c => ({ r with recorder := c }, s.goto .readingChannels, none)
  | .readingChannels =>
    let (c, readings) := r.recorder.collect
    some ({ r with recorder := c }, s.goto (.freeingRecorder readings), none)
  | .freeingRecorder readings =>
    let r := { r with recorder := r.recorder.givePermit }
    match readings with
    | some l =>
      some (r, { s with
        captureEnd := some .ok, buffer := Recorder.fill s.buffer.length l }.nextRound, none)
    | none => some (r, { s with captureEnd := some .aborted }.nextRound, some .captureAborted)
  | .finished _ | .refused _ => none

/-- What a sampler came to. -/
def result? (s : Sampler) : Option (Except Fault SampleOutcome) :=
  match s.phase with
  | .finished outcome => some (.ok outcome)
  | .refused f => some (.error f)
  | _ => none

end Sampler

end SwitchBench
