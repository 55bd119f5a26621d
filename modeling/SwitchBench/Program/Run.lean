import SwitchBench.Journal.Filter
import SwitchBench.Program.Entries
import SwitchBench.Settings.Load
import SwitchBench.Workbench.Run

/-!
# Running the program

A run of the program exercises the simulated key switch as the settings say: it powers the drive
on, checks that the channels trigger over the range, acquires a measurement over the same range,
and powers the drive off again. All of it is told in the journal.

A run is made of jobs (`Job`). A job acts on a desk, which holds the bench and the journal, and it
may stop early.
-/

namespace SwitchBench.Program

/-! ## Jobs -/

/-- What a run works on: the bench, and the journal so far. -/
structure Desk where
  bench : Workbench
  entries : List Entry

/-- A part of a run. -/
abbrev Job := ExceptT Stop (StateM Desk)

namespace Job

/-- Makes entries. -/
def tell (l : List Entry) : Job Unit := modify fun d => { d with entries := d.entries ++ l }

def fail {α : Type} (f : Failure) : Job α := throw (.failed f)

/-- Goes on unless a contract was breached. -/
def ofFault {α : Type} : Except Fault α → Job α
  | .ok a => pure a
  | .error f => throw (.refused (.breach f))

/-- Makes entries of notes. -/
def tellOf : List BenchNote → Job Unit
  | [] => pure ()
  | n :: rest => do
    tell (← ofFault (noteEntries n))
    tellOf rest

/-- Makes entries of what the bench noted, the oldest note first. -/
def tellNotes : Job Unit := do
  let notes := (← get).bench.notes.reverse
  modify fun d => { d with bench := { d.bench with notes := [] } }
  tellOf notes

/-- Runs an operation of the bench, and tells what it noted. -/
def onBench {α : Type} (f : Workbench → Workbench × Except Refusal α) : Job α := do
  let (w, r) := f (← get).bench
  modify fun d => { d with bench := w }
  tellNotes
  match r with
  | .ok a => return a
  | .error e => throw (.refused e)

/-- Changes the drive's power, and tells if it changed. -/
def switchPower (on : Bool) : Job Unit := do
  let w := (← get).bench
  let (d, changed) := if on then w.rig.drive.powerOn else w.rig.drive.powerOff
  modify fun desk => { desk with bench := w.withDrive d }
  if changed then
    tell [.of .info drivePart (if on then "actuator powered on" else "actuator powered off") []]

end Job

open Job

/-! ## The run -/

/-- The check. -/
def check (s : CheckSection) (setup : CaptureSetup) (passes : Nat) : Job SampleOutcome := do
  let c ← onBench (·.check false ⟨s.top, s.bottom, s.speed, passes, setup⟩)
  match c.result? with
  | none => throw (.refused .endless)
  | some outcome =>
    tell [.of .info name "check done" [text "result" outcome.text, count "triggers" c.triggers,
      count "passes" passes]]
    return outcome

/-- The measurement, from where the check left the plunger. -/
def measure (s : CheckSection) (setup : CaptureSetup) (passes : Nat) : Job Unit := do
  let position := (← get).bench.rig.drive.locate
  if ¬ Position.Valid position then fail .poweredOff
  let evenDown := beginsDown position s.top s.bottom
  let fits ← ofFault (setup.fits evenDown passes)
  if ¬ fits then fail (.tooManyPasses passes)
  let m ← ofFault (Measurement.ofRange s.top s.bottom s.speed passes setup evenDown)
  if ← ofFault m.isNull then tell [.of .warn name "measurement captures no channels" []]
  let (m, outcome) ← onBench fun w =>
    let (w, m, a) := w.acquire false (fun _ => []) m
    (w, a.result.map (m, ·))
  tell [.of .info name "measurement done" [text "result" outcome.text, count "passes" m.passes,
    count "captured_passes" m.capturedPasses]]

/-- The check, and the measurement if the check came to its end. -/
def exercise (s : CheckSection) (setup : CaptureSetup) (passes : Nat) : Job Unit := do
  if (← check s setup passes) = .ok then measure s setup passes
  else tell [.of .warn name "skipping measurement" []]

/-- The exercise between powering on and off. A failure is passed on after the drive is off; a
breach leaves everything as it is. -/
def powered (s : CheckSection) (setup : CaptureSetup) (passes : Nat) : Job Unit := do
  switchPower true
  let failure ← tryCatch (do exercise s setup passes; return none) fun e =>
    match e with
    | .failed f => return some f
    | e => throw e
  switchPower false
  let transitions := match (← get).bench.plunger with
    | .onSwitch k => k.transitions
    | .ruled _ _ => 0
  tell [.of .info name "simulated switch transitions" [count "transitions" transitions]]
  match failure with
  | none => return
  | some f => fail f

/-- The entries about the bench and the rig once they are set up. -/
def setupEntries (s : Settings) : List Entry :=
  [.of .debug timerPart "simulated capture timer created" [],
    .of .info benchPart "simulated bench ready"
      [("actuation", .number s.simulation.actuation),
        count "bounce_edges" s.simulation.bounceEdges,
        count "cycles_per_us" s.simulation.cyclesPerUs],
    .of .debug drivePart "motion thread started" [],
    .of .info drivePart "actuator initialized"
      [count "step_period_min_us" s.periods.minUs, count "step_period_max_us" s.periods.maxUs],
    .of .debug recorderPart "capturer initialized" [],
    .of .info rigPart "keypecker initialized" []]

/-- The bench of the settings, with messages to come. -/
def bench (s : Settings) (messages : List (Nat × Message)) : Except Problem Workbench := do
  s.simulation.validate
  let rig ← Rig.ofPeriods s.periods s.simulation.cyclesPerUs
  return { Workbench.ofRig rig ⟨s.simulation.cyclesPerUs, s.simulation.clockOffset⟩ .steady
    (.onSwitch (.ofSettings s.simulation)) with messages := messages }

/-- What a run came to: its journal, and what stopped it, if anything did. -/
structure Course where
  entries : List Entry
  stop : Option Stop
  deriving Repr

namespace Course

/-- A course that fails after some entries. -/
def failing (entries : List Entry) (f : Failure) : Course := ⟨entries, some (.failed f)⟩

/-- A job on a bench that has been set up. -/
def ofJob (entries : List Entry) (w : Workbench) (job : Job Unit) : Course :=
  match job.run ⟨w, entries⟩ with
  | (r, d) =>
    let entries := d.entries ++ [.of .debug drivePart "motion thread stopped" []]
    match r with
    | .ok () => ⟨entries, none⟩
    | .error e => ⟨entries, some e⟩

end Course

/-- A run on valid settings that capture something. -/
def course (s : Settings) (setup : CaptureSetup) (passes : Nat)
    (messages : List (Nat × Message)) : Course :=
  let accepted : Entry := .of .info name "Config OK"
    [text "service" s.shared.serviceName, ("top", .number s.check.top),
      ("bottom", .number s.check.bottom), text "speed" s.check.speed.text,
      count "passes" passes]
  match bench s messages with
  | .error p => .failing [accepted] (.setup p)
  | .ok w => .ofJob (accepted :: setupEntries s) w (powered s.check setup passes)

/-- A run on settings, of which the number of passes may be overridden. -/
def run (s : Settings) (passes : Option Nat) (messages : List (Nat × Message)) : Course :=
  match s.validate, s.capture.setup with
  | .error p, _ | _, .error p => .failing [] (.problem p)
  | .ok _, .ok setup =>
    if setup.channelCount .both = 0 then .failing [] .nothingToCapture
    else course s setup (passes.getD s.check.passes) messages

/-! ## The whole program -/

/-- What the program did: its journal, and its exit code. -/
structure Report where
  entries : List Entry
  exitCode : Nat
  deriving Repr

/-- The report of a course; a failure is the last entry. -/
def Report.ofCourse (c : Course) : Report :=
  let started : Entry := .of .info name s!"Keypecker v{version} starting..." []
  match c.stop with
  | none => ⟨started :: c.entries ++ [.of .info name "Keypecker shutdown complete" []], 0⟩
  | some (.failed f) =>
    ⟨started :: c.entries ++ [⟨.error, name, s!"FATAL: {f.message}", [], f.moreLines⟩], 1⟩
  | some (.refused _) => ⟨started :: c.entries, 101⟩

/-- The report with only the entries that a filter admits. -/
def Report.filter (r : Report) (f : Filter) : Report :=
  { r with entries := r.entries.filter f.admits }

/-- The program. The level of its journal is the one of the settings, or `debug` if it is to be
verbose; directives can change it for parts of the program. -/
def report (file : SettingsFile) (passes : Option Nat) (verbose : Bool) (directives : String)
    (messages : List (Nat × Message)) : Report :=
  let settings := file.load Settings.ofToml?
  let level := if verbose then .debug else
    match settings with
    | .ok s => s.shared.level
    | .error _ => .info
  let course := match settings with
    | .ok s => run s passes messages
    | .error e => .failing [] (.load e)
  (Report.ofCourse course).filter (.ofText directives level)

end SwitchBench.Program
