import SwitchBench.Proofs.Roster
import SwitchBench.Recorder
import SwitchBench.Sync.Semaphore

/-!
# A recorder, its clients and its timer

`Recorder.Crowd` is a recorder with any number of calls in progress, in virtual time. A call is
told by its next action, and each action is one semaphore operation or one critical section of the
recorder: the functions of `Recorder` that do the same in the library. The timer's handler is a call
like the others, and anybody may make it at any time, whether or not an event is pending. The timer
itself only changes its registers: a trigger edge, an edge on a channel, and the end of a period
that is due.

`Crowd.act?` is one action of anybody, and `Crowd.Reaches` is reachability with the trace of the
actions, newest first.
-/

namespace SwitchBench

/-- A client's call on a recorder, told by its next action. -/
inductive CaptureCall where
  /-- Starts a capture: waits for the permit. -/
  | takingPermit (s : CaptureSetup) (d : Directions)
  | arming (s : CaptureSetup) (d : Directions)
  /-- Collects a capture: waits for its end. -/
  | takingEnd (p : Patience)
  | reading
  /-- Gives the permit back, and returns what it read. -/
  | givingPermit (readings : Option (List Reading))
  /-- Aborts a capture. -/
  | cutting
  /-- Handles an event of the timer. -/
  | handling
  /-- Announces the end of the capture that it ended, and returns. -/
  | announcing
  deriving DecidableEq, Repr

namespace CaptureCall

/-- Does the call hold the permit to capture? -/
def holds : CaptureCall → Bool
  | takingPermit _ _ | takingEnd _ | cutting | handling => false
  | _ => true

/-- May a call begin like this? A setup that the recorder does not admit is refused at once. -/
def opens : CaptureCall → Bool
  | takingPermit s _ => (Recorder.admits s).isOk
  | takingEnd _ | cutting | handling => true
  | _ => false

/-- The next action of a call, and the action after it; `none` if it has to wait. -/
def step? (now : Nat) (r : Recorder) : CaptureCall → Option (Recorder × Option CaptureCall)
  | takingPermit s d => r.takePermit?.map (·, some (arming s d))
  | arming s d => some (r.arm s d now, none)
  | takingEnd _ => r.takeDone?.map (·, some reading)
  | reading => some (r.collect.1, some (givingPermit r.collect.2))
  | givingPermit _ => some (r.givePermit, none)
  | cutting => some ((r.cut now).1, if (r.cut now).2 then some announcing else none)
  | handling => some ((r.service now).1, if (r.service now).2 then some announcing else none)
  | announcing => some (r.announce, none)

end CaptureCall

namespace Recorder

/-- A recorder with the calls in progress, at an instant. -/
structure Crowd where
  recorder : Recorder
  now : Nat
  calls : List CaptureCall
  deriving DecidableEq, Repr

/-- One action of a client, of the timer or of its inputs. -/
inductive Action where
  | trigger
  | edge (c : Channel) (e : Edge)
  /-- The timer ends its period, which was due. -/
  | expire
  /-- Time goes by. -/
  | wait (us : Nat)
  /-- A client begins a call. -/
  | enter (k : CaptureCall)
  /-- The call at a place acts. -/
  | proceed (i : Nat)
  /-- The wait of the call at a place is over, and its capture goes on. -/
  | giveUp (i : Nat)
  deriving DecidableEq, Repr

namespace Crowd

/-- One action, if it is possible. -/
def act? (c : Crowd) : Action → Option Crowd
  | .trigger => some { c with recorder.timer := (c.recorder.timer.trigger c.now).1 }
  | .edge ch e => some { c with recorder.timer := (c.recorder.timer.edge ch e c.now).1 }
  | .expire =>
    match c.recorder.timer.expiry with
    | some due =>
      if due ≤ c.now then some { c with recorder.timer := c.recorder.timer.expire due } else none
    | none => none
  | .wait us => some { c with now := c.now + us }
  | .enter k => if k.opens then some { c with calls := c.calls ++ [k] } else none
  | .proceed i => do
    let k ← c.calls[i]?
    let (r, next) ← k.step? c.now c.recorder
    return { c with recorder := r, calls := putAt c.calls i next }
  | .giveUp i =>
    match c.calls[i]? with
    | some (.takingEnd p) =>
      if p ≠ .forever ∧ c.recorder.done.count = 0 then
        some { c with calls := putAt c.calls i none }
      else none
    | _ => none

/-! ### What an action has done -/

variable {c c' : Crowd}

/-- A period ends when it is due. -/
theorem expire_of_act (ha : c.act? .expire = some c') :
    ∃ due, c.recorder.timer.expiry = some due ∧ due ≤ c.now ∧
      c' = { c with recorder.timer := c.recorder.timer.expire due } := by
  simp only [act?] at ha
  split at ha
  · rename_i due hdue
    simp only [Option.ite_none_right_eq_some, Option.some.injEq] at ha
    exact ⟨due, hdue, ha.1, ha.2.symm⟩
  · cases ha

theorem enter_of_act {k : CaptureCall} (ha : c.act? (.enter k) = some c') :
    k.opens = true ∧ c' = { c with calls := c.calls ++ [k] } := by
  simp only [act?, Option.ite_none_right_eq_some, Option.some.injEq] at ha
  exact ⟨ha.1, ha.2.symm⟩

/-- A call that acts takes its next step. -/
theorem proceed_of_act {i : Nat} (ha : c.act? (.proceed i) = some c') :
    ∃ k r next, c.calls[i]? = some k ∧ k.step? c.now c.recorder = some (r, next) ∧
      c' = { c with recorder := r, calls := putAt c.calls i next } := by
  simp only [act?, Option.bind_eq_bind, Option.bind_eq_some_iff, Option.pure_def,
    Option.some.injEq] at ha
  obtain ⟨k, hi, ⟨r, next⟩, hk, rfl⟩ := ha
  exact ⟨k, r, next, hi, hk, rfl⟩

/-- A call gives up when its time is up. -/
theorem giveUp_of_act {i : Nat} (ha : c.act? (.giveUp i) = some c') :
    ∃ p, c.calls[i]? = some (.takingEnd p) ∧ (p ≠ .forever ∧ c.recorder.done.count = 0) ∧
      c' = { c with calls := putAt c.calls i none } := by
  simp only [act?] at ha
  split at ha
  · rename_i p hi
    simp only [Option.ite_none_right_eq_some, Option.some.injEq] at ha
    exact ⟨p, hi, ha.1, ha.2.symm⟩
  · cases ha

/-! ### Runs -/

/-- The actions so far, each with the state it was done in, newest first. -/
abbrev Trace := List (Crowd × Action)

/-- The states that a recorder can come to, from its first one, by any actions in any order. -/
inductive Reaches : Trace → Crowd → Prop
  | start (now : Nat) : Reaches [] ⟨.initial, now, []⟩
  | act {t : Trace} {c c' : Crowd} {a : Action} (h : Reaches t c) (ha : c.act? a = some c') :
      Reaches ((c, a) :: t) c'

end Crowd

end Recorder

end SwitchBench
