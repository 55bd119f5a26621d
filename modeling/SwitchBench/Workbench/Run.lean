import SwitchBench.Sync.Semaphore
import SwitchBench.Workbench.Basic

/-!
# Running a workbench

The stepper's turns, and the operations that need many of them: a move to its end, a sample, a
check, an acquisition.

Each stepper action takes what it needs from the hardware (`stepperTurn`). A wait for a tick or a
delay lets time go by, and everything happens meanwhile that comes by itself. A delay is begun and
ended in two turns, so that a run may stop in the middle of it. A run (`runFor`) goes from one such
action or event to the next, in the order of time, until it has come to its goal.

With `draining`, the end of a move's motion waits for the end of the capture that runs alongside:
time goes on to the end of its window, and a capture that was never triggered is given up.
-/

namespace SwitchBench.Workbench

/-- Can the stepper act? -/
def stepperReady (w : Workbench) : Bool :=
  match w.rig.drive.demand with
  | .permit => w.rig.drive.begin.ready
  | .nothing => false
  | _ => true

/-- Does the stepper wait for a tick? -/
def awaitsTick (w : Workbench) : Bool := w.rig.drive.demand = .tick

/-- Gives the stepper what it asked for, and lets the hardware follow its action. -/
def resume (w : Workbench) (r : Reply) : Workbench :=
  let before := w.rig.drive
  let w := { w with rig := { w.rig with drive := before.resume r } }
  (w.followAxis before.axis).followStep before.step

/-- Lets time go by until the capture has ended, at most so many times. -/
def drainFor : Nat → Workbench → Workbench
  | 0, w => w
  | n + 1, w =>
    if w.rig.recorder.timer.armed then
      match w.rig.recorder.timer.expiry with
      | some t => drainFor n (w.elapse t)
      | none => w.intervene (.send .abort)
    else w

/-- Lets time go by until the capture has ended. The end of its window ends it. -/
def drain (w : Workbench) : Workbench := drainFor Limits.handlerCallsMax w

/-- The stepper's next action. -/
def stepperTurn (draining : Bool) (w : Workbench) : Workbench :=
  attend <| match w.rig.drive.demand with
    | .permit | .turn => w.resume .done
    | .startTimer us =>
      { w.log (.startTimer us) with
        pacer := w.pacer.start w.now us, powerWentOff := false }.resume .done
    | .tick =>
      match w.pacer.next? with
      | none => w.resume (.ticked false)
      | some due =>
        let t := max due w.now
        let w := { w.elapse t with pacer := w.pacer.waited t }
        let (s, actions) := w.script.tick
        let w := { w with script := s }.interveneAll actions
        { w with timerFails := false }.resume (.ticked !w.timerFails)
    | .cycles => w.resume (.cycles (w.clock.cyclesAt w.now))
    | .delay us =>
      match w.delayOver with
      | none => { w.log (.delay us) with delayOver := some (w.now + us) }
      | some t => { w.elapse t with delayOver := none }.resume .done
    | .stopTimer =>
      let (s, actions) := w.script.stop
      let w := { w.log .stopTimer with pacer := w.pacer.stop, script := s }.interveneAll actions
      (if draining && !w.powerWentOff then w.drain else w).resume .done
    | .nothing => w

/-! ## Moves -/

/-- Lets the stepper act until it waits for a tick or for a move, or, if delays take time, until
it is in a delay; at most so many times. -/
def settleFor (timed : Bool) : Nat → Workbench → Workbench
  | 0, w => w
  | n + 1, w =>
    if w.stepperReady && !w.awaitsTick && !(timed && w.delayOver.isSome) then
      settleFor timed n (w.stepperTurn false)
    else w

/-- Lets the stepper act until it waits; between two waits lie at most a dozen actions. -/
def settle (timed : Bool) (w : Workbench) : Workbench := settleFor timed 16 w

/-- Grants up to so many ticks, until the move has ended; says how many were used. -/
def grant : Nat → Workbench → Workbench × Nat
  | 0, w => (w, 0)
  | n + 1, w =>
    if w.awaitsTick then
      let (w, used) := grant n ((w.stepperTurn false).settle false)
      (w, used + 1)
    else (w, 0)

/-! ## Runs -/

/-- When the stepper can act next, if it can. -/
def stepperTime? (w : Workbench) : Option Nat :=
  if w.stepperReady then
    if w.awaitsTick then some (max w.now (w.pacer.next?.getD w.now))
    else some (max w.now (w.delayOver.getD w.now))
  else none

/-- When a bench goes on by itself, and how: something happens, or the stepper acts. At one
instant what happens by itself goes first. -/
def nextMove? (w : Workbench) : Option (Nat × Option Due) :=
  match w.stepperTime?, w.due with
  | none, none => none
  | some t, none => some (t, none)
  | none, some (u, d) => some (u, some d)
  | some t, some (u, d) => some (if u ≤ t then (u, some d) else (t, none))

/-- Runs the bench until it has come to a goal, until nothing more happens by itself, or to the
end of a time, for at most so many actions and events. -/
def runFor (draining : Bool) (goal : Workbench → Bool) (deadline : Option Nat) :
    Nat → Workbench → Workbench
  | 0, w => w
  | n + 1, w =>
    if goal w then w
    else match w.nextMove? with
      | none => { w with now := max w.now (deadline.getD w.now) }
      | some (t, d) =>
        if deadline.all (t ≤ ·) then
          runFor draining goal deadline n (match d with
            | some d => w.happen t d
            | none => w.stepperTurn draining)
        else { w with now := max w.now (deadline.getD w.now) }

/-- More actions than a move over a distance takes: a dozen a step, and as many around. -/
def actionsFor (steps : Nat) : Nat := 16 * (steps + 4)

/-- Number of edges that one step can cause to come. -/
def ruleCount (w : Workbench) : Nat :=
  match w.plunger with
  | .ruled _ rules => rules.length
  | .onSwitch _ => 0

/-- More actions and events than it takes to move over a distance and let a window end, or to let
a time go by. A step is at least a microsecond long, and a timer period at least a tick. -/
def budget (w : Workbench) (steps us : Nat) : Nat :=
  actionsFor (steps + us) + w.ruleCount * (steps + us + 1) + w.edges.length + w.messages.length
    + 64

/-- The steps left of the move in flight. -/
def stepsLeft (w : Workbench) : Nat :=
  distance w.rig.drive.axis.target w.rig.drive.axis.position

/-- Has the stepper nothing to do? -/
def atRest (w : Workbench) : Bool := !w.stepperReady

/-- Lets the move in flight come to its end. -/
def finish (w : Workbench) : Workbench :=
  runFor false atRest none (w.budget w.stepsLeft (w.pacer.next?.getD 0 - w.now)) w

/-- Lets so much time go by, with the stepper at work. -/
def pass (w : Workbench) (us : Nat) : Workbench :=
  runFor false (fun _ => false) (some (w.now + us)) (w.budget 0 us) w

/-- Runs the bench until something is ready, or for some time. -/
def await (w : Workbench) (p : Patience) (goal : Workbench → Bool) : Workbench :=
  match p.limitUs with
  | some us => runFor false goal (some (w.now + us)) (w.budget 0 us) w
  | none => runFor false goal none (w.budget w.stepsLeft 0) w

/-! ## Samples -/

/-- Has the sampler finished? -/
def sampled (w : Workbench) : Bool := w.sampler.all fun s => s.result?.isSome

/-- What the sampler at work came to. -/
def answer (w : Workbench) : Except Refusal (SampleOutcome × List Reading) :=
  match w.sampler with
  | none => .error .endless
  | some s => match s.result? with
    | none => .error .endless
    | some (.error f) => .error (.breach f)
    | some (.ok outcome) => .ok (outcome, s.buffer)

/-- Runs a sample to its end. -/
def sample (w : Workbench) (draining : Bool) (o : SampleOrder) (buffer : List Reading) :
    Workbench × Except Refusal (SampleOutcome × List Reading) :=
  match Sampler.start o buffer with
  | .error f => (w, .error (.breach f))
  | .ok s =>
    let w := { w with sampler := some s }.attend
    let w := runFor draining sampled none
      (w.budget (distance o.target w.rig.drive.axis.position) 0) w
    ({ w with sampler := none }, w.answer)

/-- A result buffer with nothing in it. -/
def blanks (length : Nat) : List Reading := List.replicate length .blank

/-- What is to be noted of a check that was told how a sample ended. -/
def checkNote? (before after : Check) : Option BenchNote :=
  match before.phase, after.phase with
  | .passing, .finished .ok => some (.checkFinished after.order.passes after.triggers)
  | .passing, .finished outcome => some (.checkInterrupted before.pass outcome)
  | _, _ => none

/-- Runs the samples that a check wants, at most so many. -/
def checkFor (draining : Bool) : Nat → Workbench → Check → Workbench × Except Refusal Check
  | 0, w, c => (w, .ok c)
  | n + 1, w, c =>
    match c.wants? with
    | none => (w, .ok c)
    | some wanted =>
      match w.sample draining wanted.order (blanks wanted.length) with
      | (w, .error e) => (w, .error e)
      | (w, .ok (outcome, readings)) =>
        let d := c.told outcome readings
        checkFor draining n (w.note (checkNote? c d)) d

/-- Runs a check to its end. -/
def check (w : Workbench) (draining : Bool) (o : CheckOrder) :
    Workbench × Except Refusal Check :=
  match Check.start o with
  | .error f => (w, .error (.breach f))
  | .ok c =>
    let c := if c.result?.isSome then c else c.located w.rig.drive.locate
    checkFor draining c.samplesMax w c

/-- What is to be noted of an acquisition that was told how a sample ended, unless it was a pass
that succeeded. -/
def acquisitionNote? (before after : Acquisition) : Option BenchNote :=
  match before.phase, after.phase with
  | .passing, .finished outcome => some (.acquisitionInterrupted before.measurement.passes outcome)
  | _, _ => none

/-- Runs the samples that an acquisition wants, at most so many, and does what is to be done after
each pass. Lists, after each pass, how many passes were done and how many captured. -/
def acquireFor (draining : Bool) (afterPass : Nat → List Intervention) :
    Nat → Workbench → Acquisition →
      Workbench × Acquisition × List (Nat × Nat) × Option Refusal
  | 0, w, a => (w, a, [], none)
  | n + 1, w, a =>
    match a.wants? with
    | none => (w, a, [], none)
    | some wanted =>
      match w.sample draining wanted.order (blanks wanted.length) with
      | (w, .error e) => (w, a, [], some e)
      | (w, .ok (outcome, readings)) =>
        let b := a.told outcome readings
        if a.endsPass outcome then
          let m := b.measurement
          let w := (w.note (some (.passAcquired m))).interveneAll (afterPass m.passes)
          let (w, b, seen, e) := acquireFor draining afterPass n w b
          (w, b, (m.passes, m.capturedPasses) :: seen, e)
        else acquireFor draining afterPass n (w.note (acquisitionNote? a b)) b

/-- What acquiring a measurement came to: the passes as they were seen, and its end. -/
structure Acquired where
  seen : List (Nat × Nat)
  result : Except Refusal SampleOutcome
  deriving Repr

/-- Acquires a measurement. -/
def acquire (w : Workbench) (draining : Bool) (afterPass : Nat → List Intervention)
    (m : Measurement) : Workbench × Measurement × Acquired :=
  match Acquisition.start m with
  | .error f => (w, m, ⟨[], .error (.breach f)⟩)
  | .ok a =>
    let (w, a, seen, e) := acquireFor draining afterPass a.samplesMax w a
    let result := match e, a.result? with
      | some e, _ => .error e
      | none, some (.ok outcome) => .ok outcome
      | none, some (.error f) => .error (.breach f)
      | none, none => .error .endless
    (w, a.measurement, ⟨seen, result⟩)

end SwitchBench.Workbench
