import SwitchBench.Drive.Basic
import SwitchBench.Proofs.Roster
import SwitchBench.Proofs.Runs
import SwitchBench.Sync.Semaphore

/-!
# A drive and its clients

`Drive.Crowd` is a drive with any number of clients. Each client's call is on the roster while it
is in progress, told by its next action, and each action is one semaphore operation or one critical
section of the drive: the functions of `Drive` that do the same in the library. The stepper is one
more party: `Drive.resume` does its next action, with whatever reply the hardware gives. Calls that
are a single critical section (switching the power, asking for an abort, locating) are one action.

`Crowd.act?` is one action of anybody, `Crowd.Reaches` is reachability with the trace of the
actions, newest first. What an action means for the move in flight is its `MoveEvent`, and
`MoveStage` sums the events up: no move, a move under way with what was asked of it meanwhile, or a
move whose outcome is fixed.
-/

namespace SwitchBench

/-- A client's call that starts or collects a move, told by its next action. -/
inductive MoveCall where
  /-- Starts a move: waits for the permit. -/
  | takingPermit (o : MoveOrder)
  | launching (o : MoveOrder)
  /-- Passes on what became of its order, and returns. -/
  | announcing (l : Launch)
  /-- Collects a move: waits for its end. -/
  | takingEnd (p : Patience)
  | readingOutcome
  /-- Gives the permit back, and returns the outcome it read. -/
  | givingPermit (outcome : MoveOutcome)
  deriving DecidableEq, Repr

namespace MoveCall

/-- Does the call hold the permit to move? -/
def holds : MoveCall → Bool
  | takingPermit _ | takingEnd _ => false
  | _ => true

/-- May a call begin like this? An order that the drive does not admit is refused at once. -/
def opens : MoveCall → Bool
  | takingPermit o => (Drive.admits o).isOk
  | takingEnd _ => true
  | _ => false

/-- The next action of a call, and the action after it; `none` if it has to wait. -/
def step? (d : Drive) : MoveCall → Option (Drive × Option MoveCall)
  | takingPermit o => d.takePermit?.map (·, some (launching o))
  | launching o => some ((d.launch o).1, some (announcing (d.launch o).2))
  | announcing l => some (d.announce l, none)
  | takingEnd _ => d.takeDone?.map (·, some readingOutcome)
  | readingOutcome => some (d, some (givingPermit d.axis.outcome))
  | givingPermit _ => some (d.givePermit, none)

end MoveCall

namespace Drive

/-- A drive with the calls its clients have in progress. -/
structure Crowd where
  drive : Drive
  calls : List MoveCall
  deriving DecidableEq, Repr

/-- One action of the stepper or of a client. -/
inductive Action where
  /-- The stepper acts, given a reply of the hardware. -/
  | stepper (r : Reply)
  | powerOn
  | powerOff
  | abort
  | locate
  /-- A client begins a call. -/
  | enter (k : MoveCall)
  /-- The call at a place acts. -/
  | proceed (i : Nat)
  /-- The wait of the call at a place is over, and its move goes on. -/
  | giveUp (i : Nat)
  deriving DecidableEq, Repr

/-- Something that happened to the moves of a drive. -/
inductive MoveEvent where
  /-- An order was taken up, in a state of the axis. -/
  | launched (before : Axis) (o : MoveOrder) (l : Launch)
  /-- The stepper decided, in a state of the axis. -/
  | decided (before : Axis) (d : Decision)
  /-- The step timer was found stopped. -/
  | timerFailed
  /-- The power went off. -/
  | powerLost
  /-- An abort was asked for, with the power on. -/
  | abortAsked
  /-- A client read how its move ended. -/
  | collected (outcome : MoveOutcome)
  deriving DecidableEq, Repr

namespace Crowd

/-- One action, if it is possible. -/
def act? (c : Crowd) : Action → Option Crowd
  | .stepper r => some { c with drive := c.drive.resume r }
  | .powerOn => some { c with drive := c.drive.powerOn.1 }
  | .powerOff => some { c with drive := c.drive.powerOff.1 }
  | .abort => some { c with drive := c.drive.abort.1 }
  | .locate => some c
  | .enter k => if k.opens then some { c with calls := c.calls ++ [k] } else none
  | .proceed i => do
    let k ← c.calls[i]?
    let (d, next) ← k.step? c.drive
    return ⟨d, putAt c.calls i next⟩
  | .giveUp i =>
    match c.calls[i]? with
    | some (.takingEnd p) =>
      if p ≠ .forever ∧ c.drive.done.count = 0 then some { c with calls := putAt c.calls i none }
      else none
    | _ => none

/-! ### What an action has done -/

variable {c c' : Crowd}

theorem enter_of_act {k : MoveCall} (ha : c.act? (.enter k) = some c') :
    k.opens = true ∧ c' = { c with calls := c.calls ++ [k] } := by
  simp only [act?, Option.ite_none_right_eq_some, Option.some.injEq] at ha
  exact ⟨ha.1, ha.2.symm⟩

/-- A call that acts takes its next step. -/
theorem proceed_of_act {i : Nat} (ha : c.act? (.proceed i) = some c') :
    ∃ k d next, c.calls[i]? = some k ∧ k.step? c.drive = some (d, next) ∧
      c' = { c with drive := d, calls := putAt c.calls i next } := by
  simp only [act?, Option.bind_eq_bind, Option.bind_eq_some_iff, Option.pure_def,
    Option.some.injEq] at ha
  obtain ⟨k, hi, ⟨d, next⟩, hk, rfl⟩ := ha
  exact ⟨k, d, next, hi, hk, rfl⟩

/-- A call gives up when its time is up. -/
theorem giveUp_of_act {i : Nat} (ha : c.act? (.giveUp i) = some c') :
    ∃ p, c.calls[i]? = some (.takingEnd p) ∧ (p ≠ .forever ∧ c.drive.done.count = 0) ∧
      c' = { c with calls := putAt c.calls i none } := by
  simp only [act?] at ha
  split at ha
  · rename_i p hi
    simp only [Option.ite_none_right_eq_some, Option.some.injEq] at ha
    exact ⟨p, hi, ha.1, ha.2.symm⟩
  · cases ha

/-! ### What an action means -/

/-- What an action means for the moves. -/
def event? (c : Crowd) : Action → Option MoveEvent
  | .stepper r =>
    match c.drive.stepper.phase, r with
    | .deciding, .done => some (.decided c.drive.axis c.drive.axis.decide.2)
    | .pacing, .ticked false => some .timerFailed
    | _, _ => none
  | .powerOff => if c.drive.powerOff.2 then some .powerLost else none
  | .abort => if c.drive.abort.2 then some .abortAsked else none
  | .proceed i =>
    match c.calls[i]? with
    | some (.launching o) => some (.launched c.drive.axis o (c.drive.launch o).2)
    | some .readingOutcome => some (.collected c.drive.axis.outcome)
    | _ => none
  | _ => none

/-- The semaphores that an action gives a unit to, as they stand before it. -/
def receivers (c : Crowd) : Action → List Semaphore
  | .stepper .done => if c.drive.stepper.phase = .announcing then [c.drive.done] else []
  | .proceed i =>
    match c.calls[i]? with
    | some (.announcing (.began _)) => [c.drive.begin]
    | some (.announcing (.finished _)) => [c.drive.done]
    | some (.announcing (.refused _)) => [c.drive.available]
    | some (.givingPermit _) => [c.drive.available]
    | _ => []
  | _ => []

/-- The actions so far, each with the state it was done in, newest first. -/
abbrev Trace := List (Crowd × Action)

/-- What happened along a trace, newest first. -/
def events (t : Trace) : List MoveEvent := t.filterMap fun e => e.1.event? e.2

/-- The states that a drive can come to, from its first one, by any actions in any order. -/
inductive Reaches (p : StepPeriods) (rate : Nat) : Trace → Crowd → Prop
  | start {d : Drive} (h : Drive.ofPeriods p rate = .ok d) : Reaches p rate [] ⟨d, []⟩
  | act {t : Trace} {c c' : Crowd} {a : Action} (h : Reaches p rate t c) (ha : c.act? a = some c') :
      Reaches p rate ((c, a) :: t) c'

theorem events_cons (c : Crowd) (a : Action) (t : Trace) :
    events ((c, a) :: t) = (c.event? a).toList ++ events t := by
  unfold events
  rw [List.filterMap_cons]
  cases h : c.event? a <;> simp

end Crowd

/-! ## Where the moves stand -/

/-- What the events so far come to. -/
inductive MoveStage where
  /-- No move is launched, or the last one has been collected. -/
  | idle
  /-- A move to a target is undecided; was the power lost, or an abort asked for, meanwhile? -/
  | flying (target : Int) (lost asked : Bool)
  /-- It is fixed how the move ends. -/
  | settled (outcome : MoveOutcome)
  deriving DecidableEq, Repr

namespace MoveStage

/-- The stage after an event. -/
def next : MoveStage → MoveEvent → MoveStage
  | _, .launched _ _ (.began t) => flying t false false
  | _, .launched _ _ (.finished o) => settled o
  | flying t _ k, .powerLost => flying t true k
  | flying t l _, .abortAsked => flying t l true
  | flying _ _ _, .decided _ (.finish o) => settled o
  | flying _ _ _, .timerFailed => settled .aborted
  | _, .collected _ => idle
  | g, _ => g

/-- The stage after some events, newest first. -/
def ofEvents : List MoveEvent → MoveStage
  | [] => idle
  | e :: past => (ofEvents past).next e

/-- Is a move undecided? -/
def isFlying : MoveStage → Bool
  | flying _ _ _ => true
  | _ => false

/-- What the axis knows of a move that is undecided. -/
def Agrees (a : Axis) : MoveStage → Prop
  | flying t l k => a.target = t ∧ a.powerLost = l ∧ a.aborted = k ∧ (a.isOff = true → l = true)
  | _ => True

end MoveStage

end Drive

end SwitchBench
