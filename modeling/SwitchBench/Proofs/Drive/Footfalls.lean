import SwitchBench.Proofs.Drive.MoveResults
import SwitchBench.Proofs.Drive.Timing

/-!
# The steps of a run

A `Footfall` is one step of a run in time: when the step output rose, which way, in which move and
at what speed, how long the stepper had rested right before it, and when it read the cycle counter
afterwards. `Timed.footfalls` reads the steps off a run, newest first.

A step that comes after a rest falls behind the timer, and the next one of its move may be early
for it. `Footfall.lag` is how far a step is behind: by its rest, if it is the first of its move, and
else by what is left of the lag of the one before it (`caughtUp`).

Results: `footfalls_of_stepper` and `footfalls_of_client` (what an action does to the steps),
`loaded_of_reaches` (the stepper rests and sets its timer as the speed of its move says).
-/

namespace SwitchBench

/-- What is left of the lag of a step at the next one, if the period is spent waiting and the rest
of the lag is caught up with, or given up by a timer that starts anew. -/
def caughtUp (catchup : Catchup) (periodUs lagUs : Nat) : Nat :=
  match catchup with
  | .restart => 0
  | .steady =>
    let late := lagUs + Limits.pulseWidthUs - periodUs
    if 2 * periodUs < late then 0 else late

/-- Without a lag, none comes of a period that is long enough for a pulse. -/
theorem caughtUp_zero {catchup : Catchup} {periodUs : Nat} (h : Limits.pulseWidthUs ≤ periodUs) :
    caughtUp catchup periodUs 0 = 0 := by
  cases catchup with
  | restart => rfl
  | steady =>
    unfold caughtUp
    simp only [Nat.zero_add, Nat.sub_eq_zero_of_le h, ite_self]

/-- Has the stepper read the speed of the move that it has in hand, and is the end open? -/
def StepperPhase.isLoaded : StepperPhase → Bool
  | woken | loading => false
  | p => p.isFlying

/-- A step of a run. -/
structure Footfall where
  /-- The instant at which the step output rose. -/
  rose : Nat
  /-- The level of the direction output then. -/
  up : Bool
  /-- The moves begun until then. -/
  move : Nat
  /-- The speed of the move. -/
  speed : Speed
  /-- The delay right before it. -/
  pause : Nat
  /-- The instant of the reading of the cycle counter after it. -/
  read : Option Nat
  /-- How far it is behind the timer. -/
  lag : Nat
  deriving DecidableEq, Repr

namespace Drive

namespace Timed

/-- The delay that the stepper has just made, if its last action was a rest. -/
def pauseOf : Trace → Nat
  | [] => 0
  | (s, (_, .stepper _)) :: _ =>
    match s.crowd.drive.stepper.phase with
    | .resting _ us => us
    | _ => 0
  | _ :: t => pauseOf t

/-- The moves begun so far. -/
def movesOf (t : Trace) : Nat := (Crowd.begun (crowdTrace t)).length

/-- The speed of the move begun last. -/
def speedOf (t : Trace) : Speed := Crowd.speedOf (crowdTrace t)

/-- The last step, if it is one of a move. -/
def current (move : Nat) (steps : List Footfall) : Option Footfall :=
  steps.head?.filter (·.move = move)

/-- The lag of the next step of a move, after a rest and the last step of the move. -/
def lagAfter (catchup : Catchup) (periodUs pauseUs : Nat) : Option Footfall → Nat
  | none => pauseUs
  | some f => caughtUp catchup periodUs f.lag

/-- The step that rises at an instant, after a trace and the steps in it. -/
def landing (t : Trace) (s : Timed) (instant : Nat) (up : Bool) (before : List Footfall) :
    Footfall where
  rose := instant
  up := up
  move := movesOf t
  speed := speedOf t
  pause := pauseOf t
  read := none
  lag := lagAfter s.pacer.catchup (s.crowd.drive.periods.pace (speedOf t)) (pauseOf t)
    (current (movesOf t) before)

/-- Does the stepper read the cycle counter after a step? -/
def marks (s : Timed) (a : Action) : Bool :=
  match s.crowd.drive.stepper.phase, a with
  | .marking _, .stepper _ => true
  | _, _ => false

/-- The steps of a run, newest first. -/
def footfalls : Trace → Timed → List Footfall
  | [], _ => []
  | (s, (instant, a)) :: t, s' =>
    if rises s.crowd.drive s'.crowd.drive then
      landing t s instant s'.crowd.drive.axis.direction.level (footfalls t s) :: footfalls t s
    else if s.marks a then
      (footfalls t s).modifyHead fun f => { f with read := some instant }
    else footfalls t s

variable {p : StepPeriods} {clock : CycleClock} {catchup : Catchup} {t : Trace} {s s' : Timed}
  {instant : Nat} {a : Action} {r : Reply}

/-! ## What an action does to the steps -/

theorem footfalls_of_step (hs : s'.crowd.drive.step = s.crowd.drive.step)
    (hm : s.marks a = false) : footfalls ((s, (instant, a)) :: t) s' = footfalls t s := by
  rw [footfalls, rises_of_step hs, hm, if_neg Bool.false_ne_true, if_neg Bool.false_ne_true]

/-- Who is not the stepper makes no step. -/
theorem footfalls_of_client (ha : s.ClientActs instant a s') :
    footfalls ((s, (instant, a)) :: t) s' = footfalls t s := by
  refine footfalls_of_step ha.aside.step ?_
  unfold marks
  split
  · exact absurd rfl (ha.other _)
  · rfl

theorem pauseOf_of_client (ha : s.ClientActs instant a s') :
    pauseOf ((s, (instant, a)) :: t) = pauseOf t := by
  cases a with
  | stepper r => exact absurd rfl (ha.other r)
  | _ => rfl

/-- The steps after an action of the stepper: it makes one by raising the step output, and notes the
reading of the cycle counter after it. -/
def nextSteps (t : Trace) (s : Timed) (instant : Nat) : List Footfall :=
  match s.crowd.drive.stepper.phase with
  | .raising up => landing t s instant up (footfalls t s) :: footfalls t s
  | .marking _ => (footfalls t s).modifyHead fun f => { f with read := some instant }
  | _ => footfalls t s

/-- **The stepper makes a step where it raises the step output.** -/
theorem footfalls_of_stepper (h : Reaches p clock catchup t s)
    (ha : s.StepperActs clock instant r s') :
    footfalls ((s, (instant, .stepper r)) :: t) s' = nextSteps t s instant := by
  have hs := Crowd.sound_of_reaches (reaches_crowd h)
  have htracks := Crowd.tracks_of_reaches (reaches_crowd h)
  have hb := ha.beat hs
  have hstill {d : Drive} (hd : s'.crowd.drive = d) (hstep : d.step = s.crowd.drive.step)
      (hm : s.marks (.stepper r) = false) :
      footfalls ((s, (instant, .stepper r)) :: t) s' = footfalls t s :=
    footfalls_of_step (by rw [hd, hstep]) hm
  generalize hd : s'.crowd.drive = d at hb
  unfold nextSteps
  cases hb with
  | @lift up hp =>
    have hdir : s'.crowd.drive.axis.direction.level = up := by
      rw [hd]
      exact htracks.faces up (by rw [hp]; rfl)
    rw [footfalls, (htracks.rises_of_lift hp (by rw [hd])).1, if_pos rfl, hdir, hp]
  | lower hp =>
    have hm : s.marks (.stepper .done) = false := by simp only [marks, hp]
    rw [footfalls, (htracks.falls_of_lower hp (by rw [hd])).1, hm, if_neg Bool.false_ne_true,
      if_neg Bool.false_ne_true, hp]
  | @mark up n hp =>
    have hstep : s'.crowd.drive.step = s.crowd.drive.step := by rw [hd]
    have hm : s.marks (.stepper (.cycles n)) = true := by simp only [marks, hp]
    rw [footfalls, rises_of_step hstep, hm, if_neg Bool.false_ne_true, if_pos rfl, hp]
  | wake hp | enter hp | load hp | start hp | tick hp | fail hp | look hp | finish hp | aim hp
    | gauge hp | rest hp | count hp | hold hp | halt hp | report hp | tell hp =>
    rw [hstill hd rfl (by simp only [marks, hp]), hp]

end Timed

/-! ## What the stepper has loaded -/

namespace Crowd

variable {c c' : Crowd} {a : Action} {p : StepPeriods} {rate : Nat} {t : Trace}

/-- No move begins while the stepper has one in hand. -/
theorem begun?_of_busy {g : MoveStage} (h : Sound g c) (hp : c.drive.stepper.phase ≠ .waiting)
    (a : Action) : (c.event? a).bind MoveEvent.begun? = none := by
  cases he : c.event? a with
  | none => rfl
  | some e =>
    cases e with
    | launched b o l =>
      have hfits := h.stepper
      rw [(h.allows he).1] at hfits
      cases hphase : c.drive.stepper.phase with
      | waiting => exact absurd hphase hp
      | _ =>
        rw [hphase] at hfits
        cases hfits
    | _ => rfl

theorem ne_waiting_of_isLoaded {q : StepperPhase} (h : q.isLoaded = true) : q ≠ .waiting := by
  rintro rfl
  cases h

/-- From the reading of the speed of its move on, the stepper rests as that speed says, and sets the
timer to it. -/
theorem loaded_of_reaches (h : Reaches p rate t c) (hp : c.drive.stepper.phase.isLoaded = true) :
    c.drive.stepper.restUs = p.rest (speedOf t) ∧
      ∀ us, c.drive.stepper.phase = .starting us → us = p.pace (speedOf t) := by
  induction h with
  | @start d h =>
    unfold Drive.ofPeriods at h
    cases hv : p.validate <;> rw [hv] at h <;> cases h
    cases hp
  | @act t c c' a h ha ih =>
    have hs := sound_of_reaches h
    have hspeed (hq : c.drive.stepper.phase ≠ .waiting) : speedOf ((c, a) :: t) = speedOf t := by
      rw [speedOf, speedOf, begun_of_none (begun?_of_busy hs hq a)]
    by_cases hr : ∃ r, a = .stepper r
    · obtain ⟨r, rfl⟩ := hr
      cases ha
      cases hheeds : c.drive.heeds r with
      | false =>
        simp only [resume_of_not_heeds hheeds] at hp ⊢
        rw [hspeed (ne_waiting_of_isLoaded hp)]
        exact ih hp
      | true =>
        have hb := beat_resume hs.running hheeds
        simp only at hp ⊢
        generalize c.drive.resume r = d at hb hp ⊢
        cases hb with
        | wake hq | enter hq | fail hq | finish hq | halt hq | report hq | tell hq => cases hp
        | load hq =>
          obtain ⟨hperiods, -, hpace⟩ := rates_of_reaches h
          rw [hspeed (by rw [hq]; simp), hperiods, hpace]
          refine ⟨rfl, fun us hus => ?_⟩
          cases hus
          rfl
        | @aim a up hq hd =>
          rw [hspeed (by rw [hq]; simp)]
          refine ⟨(ih (by rw [hq]; rfl)).1, fun us hus => ?_⟩
          rcases stepPhase_cases c.drive.stepper.last up with ⟨hphase, -⟩ | ⟨hphase, -⟩ <;>
            simp only [hphase] at hus <;> cases hus
        | @gauge up n hq =>
          rw [hspeed (by rw [hq]; simp)]
          refine ⟨(ih (by rw [hq]; rfl)).1, fun us hus => ?_⟩
          rcases restPhase_cases c.drive up n rfl with ⟨-, hphase⟩ | hphase <;>
            simp only [goto, hphase] at hus <;> cases hus
        | start hq | tick hq | look hq | rest hq | lift hq | count hq | hold hq | lower hq
          | mark hq =>
          rw [hspeed (by rw [hq]; simp)]
          exact ⟨(ih (by rw [hq]; rfl)).1, fun us hus => (by cases hus)⟩
    · have hstepper := (aside_of_act ha fun r h0 => hr ⟨r, h0⟩).stepper
      rw [hstepper] at hp ⊢
      rw [hspeed (ne_waiting_of_isLoaded hp)]
      exact ih hp

end Crowd

end Drive

end SwitchBench
