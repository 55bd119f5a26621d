import SwitchBench.Proofs.Drive.OneMove

/-!
# How a step is made

The stepper decides on a step in one action, makes it in another and counts it in a third, and
anybody may act in between. `StepperPhase.gait` tells how far a step is. To the outputs and the
position an action of the stepper is one of five things (`Drive.Stride`): it aims a step, raises
the step output, counts the step, lowers the output, or leaves all of them alone. Of the other
actions only two kinds touch them, or the target: those that switch the power, and those that begin
a move (`Crowd.Effect`).

Results: `stride_resume` (every action of the stepper is one of the five), `effect_of_act` (what an
action of anybody does to the outputs, the position and the target).
-/

namespace SwitchBench

/-- How far a step is: which way a step goes that is decided on and not yet counted, and whether
the step output is high. -/
structure Gait where
  aim : Option Bool
  lifted : Bool
  deriving DecidableEq, Repr

/-- How far a step is before the stepper's next action. -/
def StepperPhase.gait : StepperPhase → Gait
  | gauging up | resting up _ | raising up => ⟨some up, false⟩
  | advancing up => ⟨some up, true⟩
  | holding _ | lowering _ => ⟨none, true⟩
  | _ => ⟨none, false⟩

/-- A step that is decided on belongs to a move under way. -/
theorem StepperPhase.isFlying_of_aim {p : StepperPhase} {up : Bool}
    (h : p.gait.aim = some up) : p.isFlying = true := by
  cases p <;> first | rfl | cases h

/-- Does an axis have the outputs and the position of another one, and the same move under way? -/
structure Axis.SamePlace (a b : Axis) : Prop where
  disable : a.disable = b.disable
  direction : a.direction = b.direction
  position : a.position = b.position
  target : a.target = b.target
  powerLost : a.powerLost = b.powerLost

namespace Axis

theorem SamePlace.refl (a : Axis) : a.SamePlace a := ⟨rfl, rfl, rfl, rfl, rfl⟩

/-- Does a step in a direction lead towards the target? -/
def Heads (a : Axis) (up : Bool) : Prop :=
  if up then a.target < a.position else a.position < a.target

/-- A decision to stop moves nothing. -/
theorem samePlace_of_decide {a b : Axis} {o : MoveOutcome} (h : a.decide = (b, .finish o)) :
    b.SamePlace a := by
  unfold decide at h
  split_ifs at h <;> cases h <;> exact ⟨rfl, rfl, rfl, rfl, rfl⟩

/-- A decision to step is made with the power on and never lost, and heads for the target. -/
theorem aim_of_decide {a b : Axis} {up : Bool} (h : a.decide = (b, .step up)) :
    a.isOff = false ∧ a.powerLost = false ∧ a.Heads up ∧
      b = { a with direction := a.direction.drive up } := by
  unfold decide at h
  split at h
  · cases h
  rename_i hlost
  rw [Bool.or_eq_true, not_or] at hlost
  split at h
  · cases h
  split at h
  · cases h
  rename_i hat
  cases h
  refine ⟨eq_false_of_ne_true hlost.1, eq_false_of_ne_true hlost.2, ?_, rfl⟩
  unfold Heads
  split <;> rename_i hup
  · exact of_decide_eq_true hup
  · rw [decide_eq_true_eq] at hup
    omega

/-- A step that is counted is one step that way; one after a loss of power is not counted. -/
theorem position_advance (a : Axis) (up : Bool) :
    (a.advance up).position
      = if a.isOff || a.powerLost then a.position
        else if up then a.position - 1 else a.position + 1 := by
  unfold advance
  split <;> rfl

end Axis

namespace Drive

/-- Did the step output rise, with the power on? -/
def pulses (before after : Drive) : Bool :=
  !before.step.level && after.step.level && !after.axis.isOff

/-- What an action of the stepper can do to the outputs and the position. -/
inductive Stride (d : Drive) : Drive → Prop
  | still {d' : Drive} (hg : d'.stepper.phase.gait = d.stepper.phase.gait) (hs : d'.step = d.step)
      (ha : d'.axis.SamePlace d.axis) : Stride d d'
  | aim {up : Bool} {p : StepperPhase} (hp : d.stepper.phase = .deciding)
      (hon : d.axis.isOff = false) (hl : d.axis.powerLost = false) (hh : d.axis.Heads up)
      (hn : p.gait = ⟨some up, false⟩) :
      Stride d { d with
        axis := { d.axis with direction := d.axis.direction.drive up }, stepper.phase := p }
  | lift {up : Bool} (hp : d.stepper.phase = .raising up) :
      Stride d { d with step := d.step.drive true, stepper.phase := .advancing up }
  | count {up : Bool} (hp : d.stepper.phase = .advancing up) :
      Stride d { d with axis := d.axis.advance up, stepper.phase := .holding up }
  | lower {up : Bool} (hp : d.stepper.phase = .lowering up) :
      Stride d { d with step := d.step.drive false, stepper.phase := .marking up }

theorem gait_stepPhase (last : Option LastStep) (up : Bool) :
    (stepPhase last up).gait = ⟨some up, false⟩ := by
  unfold stepPhase
  split
  · split <;> rfl
  · rfl

theorem gait_restPhase (d : Drive) (up : Bool) (n : Nat) :
    (d.restPhase up n).gait = ⟨some up, false⟩ := by
  unfold restPhase
  simp only
  split <;> rfl

/-- **Every action of the stepper is a stride.** -/
theorem stride_resume (d : Drive) (r : Reply) : Stride d (d.resume r) := by
  have hsame : Stride d d := .still rfl rfl (.refl _)
  have hgo {p : StepperPhase} (hg : p.gait = d.stepper.phase.gait) : Stride d (d.goto p) :=
    .still hg rfl (.refl _)
  cases hp : d.stepper.phase with
  | waiting =>
    cases r with
    | done =>
      simp only [resume, hp]
      split
      · exact hsame
      · exact .still (by rw [hp]; rfl) rfl (.refl _)
    | ticked _ | cycles _ => simpa only [resume, hp] using hsame
  | woken | ticked =>
    cases r with
    | done =>
      simp only [resume, hp]
      split
      · exact hgo (by rw [hp]; rfl)
      · exact hgo (by rw [hp]; rfl)
    | ticked _ | cycles _ => simpa only [resume, hp] using hsame
  | loading =>
    cases r with
    | done =>
      simp only [resume, hp]
      exact .still (by rw [hp]; rfl) rfl (.refl _)
    | ticked _ | cycles _ => simpa only [resume, hp] using hsame
  | starting us | resting up us | holding up | stopping o =>
    cases r with
    | done =>
      simp only [resume, hp]
      exact hgo (by rw [hp]; rfl)
    | ticked _ | cycles _ => simpa only [resume, hp] using hsame
  | pacing =>
    cases r with
    | ticked running =>
      simp only [resume, hp]
      split
      · exact hgo (by rw [hp]; rfl)
      · exact hgo (by rw [hp]; rfl)
    | done | cycles _ => simpa only [resume, hp] using hsame
  | deciding =>
    cases r with
    | done =>
      simp only [resume, hp]
      cases hd : d.axis.decide with
      | mk a e =>
        cases e with
        | step up =>
          obtain ⟨hon, hl, hh, rfl⟩ := Axis.aim_of_decide hd
          exact .aim hp hon hl hh (gait_stepPhase _ _)
        | finish o => exact .still (by rw [hp]; rfl) rfl (Axis.samePlace_of_decide hd)
    | ticked _ | cycles _ => simpa only [resume, hp] using hsame
  | gauging up =>
    cases r with
    | cycles n =>
      simp only [resume, hp]
      exact hgo (by rw [hp]; exact gait_restPhase _ _ _)
    | done | ticked _ => simpa only [resume, hp] using hsame
  | raising up =>
    cases r with
    | done =>
      simp only [resume, hp]
      exact .lift hp
    | ticked _ | cycles _ => simpa only [resume, hp] using hsame
  | advancing up =>
    cases r with
    | done =>
      simp only [resume, hp]
      exact .count hp
    | ticked _ | cycles _ => simpa only [resume, hp] using hsame
  | lowering up =>
    cases r with
    | done =>
      simp only [resume, hp]
      exact .lower hp
    | ticked _ | cycles _ => simpa only [resume, hp] using hsame
  | marking up =>
    cases r with
    | cycles n =>
      simp only [resume, hp]
      exact .still (by rw [hp]; rfl) rfl (.refl _)
    | done | ticked _ => simpa only [resume, hp] using hsame
  | reporting o | announcing =>
    cases r with
    | done =>
      simp only [resume, hp]
      exact .still (by rw [hp]; rfl) rfl ⟨rfl, rfl, rfl, rfl, rfl⟩
    | ticked _ | cycles _ => simpa only [resume, hp] using hsame
  | ended => cases r <;> simpa only [resume, hp] using hsame

namespace Crowd

/-- A step that is decided on belongs to a move that knows if the power is off. -/
theorem Sound.powerLost_of_aim {g : MoveStage} {c : Crowd} (h : Sound g c) {up : Bool}
    (hup : c.drive.stepper.phase.gait.aim = some up) (hoff : c.drive.axis.isOff = true) :
    c.drive.axis.powerLost = true := by
  have hfits := h.stepper
  rw [StepperPhase.fits_of_isFlying (StepperPhase.isFlying_of_aim hup)] at hfits
  cases g with
  | idle | settled o => cases hfits
  | flying t lost asked =>
    obtain ⟨-, hl, -, hlost⟩ := h.agrees
    rw [hl]
    exact hlost hoff

/-- Does the action switch the power? -/
def switches (c : Crowd) : Action → Bool
  | .powerOn => c.drive.powerOn.2
  | .powerOff => c.drive.powerOff.2
  | _ => false

/-- What an action can do to the outputs, the position and the target. -/
inductive Effect (c : Crowd) : Action → Crowd → Prop
  | stepper (r : Reply) : Effect c (.stepper r) { c with drive := c.drive.resume r }
  | powerOn (h : c.drive.axis.isOff = true) (hs : c.switches .powerOn = true) :
      Effect c .powerOn { c with drive.axis := { c.drive.axis with
        disable := c.drive.axis.disable.drive false, position := 0 } }
  | powerOff (h : c.drive.axis.isOff = false) (hs : c.switches .powerOff = true) :
      Effect c .powerOff { c with drive.axis := { c.drive.axis with
        disable := c.drive.axis.disable.drive true, position := 0, powerLost := true } }
  | begin {i : Nat} {o : MoveOrder} {t : Int} {calls : List MoveCall}
      (hi : c.calls[i]? = some (.launching o)) (hon : c.drive.axis.isOff = false)
      (hd : c.drive.axis.destination? o = some t)
      (he : c.event? (.proceed i) = some (.launched c.drive.axis o (.began t))) :
      Effect c (.proceed i) ⟨{ c.drive with axis := { c.drive.axis with
        target := t, speed := o.speed, aborted := false, powerLost := false } }, calls⟩
  | other {a : Action} {c' : Crowd} (ha : c'.drive.axis.SamePlace c.drive.axis)
      (hs : c'.drive.step = c.drive.step) (hp : c'.drive.stepper = c.drive.stepper)
      (hw : c.switches a = false) (he : ∀ b o t, c.event? a ≠ some (.launched b o (.began t))) :
      Effect c a c'

/-- A call that does not begin a move leaves outputs, position and target alone. -/
theorem effect_of_step {c : Crowd} {i : Nat} {k : MoveCall} {d : Drive} {next : Option MoveCall}
    (hi : c.calls[i]? = some k) (hs : k.step? c.drive = some (d, next)) :
    Effect c (.proceed i) ⟨d, putAt c.calls i next⟩ := by
  cases k with
  | takingPermit o =>
    simp only [MoveCall.step?, Drive.takePermit?, Option.map_map, Option.map_eq_some_iff] at hs
    obtain ⟨s, -, he⟩ := hs
    cases he
    exact .other (.refl _) rfl rfl rfl (by simp [event?, hi])
  | takingEnd p =>
    simp only [MoveCall.step?, Drive.takeDone?, Option.map_map, Option.map_eq_some_iff] at hs
    obtain ⟨s, -, he⟩ := hs
    cases he
    exact .other (.refl _) rfl rfl rfl (by simp [event?, hi])
  | announcing l =>
    cases hs
    cases l <;> exact .other (.refl _) rfl rfl rfl (by simp [event?, hi])
  | readingOutcome | givingPermit o =>
    cases hs
    exact .other (.refl _) rfl rfl rfl (by simp [event?, hi])
  | launching o =>
    cases hs
    have hev : c.event? (.proceed i)
        = some (.launched c.drive.axis o (c.drive.axis.launch o).2) := by
      simp only [event?, hi, Drive.launch]
    rcases c.drive.axis.launch_cases o with
      ⟨-, he⟩ | ⟨-, -, he⟩ | ⟨-, -, he⟩ | ⟨hon, t, hd, -, he⟩
    · refine .other ?_ rfl rfl rfl (by simp [hev, he])
      simp only [Drive.launch, he]
      exact ⟨rfl, rfl, rfl, rfl, rfl⟩
    · refine .other ?_ rfl rfl rfl (by simp [hev, he])
      simp only [Drive.launch, he]
      exact .refl _
    · refine .other ?_ rfl rfl rfl (by simp [hev, he])
      simp only [Drive.launch, he]
      exact ⟨rfl, rfl, rfl, rfl, rfl⟩
    · rw [he] at hev
      simp only [Drive.launch, he]
      exact .begin hi hon hd hev

/-- **What an action of anybody does to the outputs, the position and the target.** -/
theorem effect_of_act {c c' : Crowd} {a : Action} (ha : c.act? a = some c') : c.Effect a c' := by
  cases a with
  | stepper r =>
    cases ha
    exact .stepper r
  | powerOn =>
    cases ha
    cases hoff : c.drive.axis.isOff with
    | true =>
      have hs : c.switches .powerOn = true := by
        simp [switches, Drive.powerOn, Axis.powerOn, hoff]
      simpa [Drive.powerOn, Axis.powerOn, hoff] using Effect.powerOn hoff hs
    | false =>
      have hs : c.switches .powerOn = false := by
        simp [switches, Drive.powerOn, Axis.powerOn, hoff]
      refine .other ?_ rfl rfl hs (by simp [event?])
      simp only [Drive.powerOn, Axis.powerOn, hoff, Bool.false_eq_true, if_false]
      exact .refl _
  | powerOff =>
    cases ha
    cases hoff : c.drive.axis.isOff with
    | false =>
      have hs : c.switches .powerOff = true := by
        simp [switches, Drive.powerOff, Axis.powerOff, hoff]
      simpa [Drive.powerOff, Axis.powerOff, hoff] using Effect.powerOff hoff hs
    | true =>
      have hs : c.switches .powerOff = false := by
        simp [switches, Drive.powerOff, Axis.powerOff, hoff]
      refine .other ?_ rfl rfl hs (by simp [event?])
      simp only [Drive.powerOff, Axis.powerOff, hoff, if_true]
      exact .refl _
  | abort =>
    cases ha
    refine .other ?_ rfl rfl rfl (by simp [event?])
    simp only [Drive.abort, Axis.abort]
    split <;> exact ⟨rfl, rfl, rfl, rfl, rfl⟩
  | locate =>
    cases ha
    exact .other (.refl _) rfl rfl rfl (by simp [event?])
  | enter k =>
    obtain ⟨-, rfl⟩ := enter_of_act ha
    exact .other (.refl _) rfl rfl rfl (by simp [event?])
  | proceed i =>
    obtain ⟨k, d, next, hi, hs, rfl⟩ := proceed_of_act ha
    exact effect_of_step hi hs
  | giveUp i =>
    obtain ⟨_, -, -, rfl⟩ := giveUp_of_act ha
    exact .other (.refl _) rfl rfl rfl (by simp [event?])

end Crowd

end Drive

end SwitchBench
