import SwitchBench.Proofs.Drive.Leg

/-!
# What the stepper does with an answer

`Drive.heeds` says which replies the stepper has a use for at its next action; any other reply
changes nothing. `Drive.Beat` lists the uses, one for each next action, with all that each of them
changes and what it needs. The clients leave the stepper, its output and the direction alone
(`Drive.Aside`), and the speed of a move is fixed when the move begins.

Results: `beat_resume` (a reply that is heeded makes one beat), `resume_of_not_heeds`,
`aside_of_act` (what the clients leave alone), `speed_of_act`.
-/

namespace SwitchBench

namespace Drive

/-- Is a reply what the stepper asks for? A stepper that waits for a move goes on only if one
begins. -/
def heeds (d : Drive) : Reply → Bool
  | .done =>
    match d.demand with
    | .permit => d.begin.ready
    | .turn | .startTimer _ | .delay _ | .stopTimer => true
    | .tick | .cycles | .nothing => false
  | .ticked _ => d.demand = .tick
  | .cycles _ => d.demand = .cycles

/-- What a reply that the stepper asked for makes of its drive. -/
inductive Beat (d : Drive) : Reply → Drive → Prop
  | wake {b : Semaphore} (hp : d.stepper.phase = .waiting) (hb : d.begin.take? = some b) :
      Beat d .done { d with begin := b, stepper.phase := .woken }
  | enter (hp : d.stepper.phase = .woken) : Beat d .done (d.goto .loading)
  | load (hp : d.stepper.phase = .loading) :
      Beat d .done { d with stepper := { d.stepper with
        phase := .starting (d.periods.pace d.axis.speed)
        restUs := d.periods.rest d.axis.speed } }
  | start {us : Nat} (hp : d.stepper.phase = .starting us) : Beat d .done (d.goto .pacing)
  | tick (hp : d.stepper.phase = .pacing) : Beat d (.ticked true) (d.goto .ticked)
  | fail (hp : d.stepper.phase = .pacing) : Beat d (.ticked false) (d.goto (.stopping .aborted))
  | look (hp : d.stepper.phase = .ticked) : Beat d .done (d.goto .deciding)
  | finish {a : Axis} {o : MoveOutcome} (hp : d.stepper.phase = .deciding)
      (hd : d.axis.decide = (a, .finish o)) :
      Beat d .done { d with axis := a, stepper.phase := .stopping o }
  | aim {a : Axis} {up : Bool} (hp : d.stepper.phase = .deciding)
      (hd : d.axis.decide = (a, .step up)) :
      Beat d .done { d with axis := a, stepper.phase := stepPhase d.stepper.last up }
  | gauge {up : Bool} {n : Nat} (hp : d.stepper.phase = .gauging up) :
      Beat d (.cycles n) (d.goto (d.restPhase up n))
  | rest {up : Bool} {us : Nat} (hp : d.stepper.phase = .resting up us) :
      Beat d .done (d.goto (.raising up))
  | lift {up : Bool} (hp : d.stepper.phase = .raising up) :
      Beat d .done { d with step := d.step.drive true, stepper.phase := .advancing up }
  | count {up : Bool} (hp : d.stepper.phase = .advancing up) :
      Beat d .done { d with axis := d.axis.advance up, stepper.phase := .holding up }
  | hold {up : Bool} (hp : d.stepper.phase = .holding up) : Beat d .done (d.goto (.lowering up))
  | lower {up : Bool} (hp : d.stepper.phase = .lowering up) :
      Beat d .done { d with step := d.step.drive false, stepper.phase := .marking up }
  | mark {up : Bool} {n : Nat} (hp : d.stepper.phase = .marking up) :
      Beat d (.cycles n) { d with stepper := { d.stepper with
        phase := .pacing, last := some ⟨up, n⟩ } }
  | halt {o : MoveOutcome} (hp : d.stepper.phase = .stopping o) :
      Beat d .done (d.goto (.reporting o))
  | report {o : MoveOutcome} (hp : d.stepper.phase = .reporting o) :
      Beat d .done { d with axis := d.axis.report o, stepper.phase := .announcing }
  | tell (hp : d.stepper.phase = .announcing) :
      Beat d .done { d with done := d.done.give, stepper.phase := .waiting }

/-- A reply that the stepper asked for makes one beat, unless it now learns of a shutdown. -/
theorem beat_resume_of_running {d : Drive} {r : Reply} (hr : d.heeds r = true)
    (h : d.stepper.phase = .woken ∨ d.stepper.phase = .ticked → d.shutdown = false) :
    d.Beat r (d.resume r) := by
  cases r with
  | done =>
    cases hp : d.stepper.phase with
    | waiting =>
      simp only [heeds, demand, hp, Semaphore.ready, decide_eq_true_eq] at hr
      obtain ⟨b, hb⟩ : ∃ b, d.begin.take? = some b := by
        rw [← Option.ne_none_iff_exists', Ne, Semaphore.take?_eq_none_iff]
        exact Nat.ne_of_gt hr
      simp only [resume, hp, hb]
      exact .wake hp hb
    | woken =>
      simp only [resume, hp, h (.inl hp), Bool.false_eq_true, if_false]
      exact .enter hp
    | ticked =>
      simp only [resume, hp, h (.inr hp), Bool.false_eq_true, if_false]
      exact .look hp
    | deciding =>
      simp only [resume, hp]
      cases hd : d.axis.decide with
      | mk a e =>
        cases e with
        | step up => exact .aim hp hd
        | finish o => exact .finish hp hd
    | loading =>
      simp only [resume, hp]
      exact .load hp
    | starting us =>
      simp only [resume, hp]
      exact .start hp
    | resting up us =>
      simp only [resume, hp]
      exact .rest hp
    | raising up =>
      simp only [resume, hp]
      exact .lift hp
    | advancing up =>
      simp only [resume, hp]
      exact .count hp
    | holding up =>
      simp only [resume, hp]
      exact .hold hp
    | lowering up =>
      simp only [resume, hp]
      exact .lower hp
    | stopping o =>
      simp only [resume, hp]
      exact .halt hp
    | reporting o =>
      simp only [resume, hp]
      exact .report hp
    | announcing =>
      simp only [resume, hp]
      exact .tell hp
    | pacing | gauging _ | marking _ | ended => simp [heeds, demand, hp] at hr
  | ticked running =>
    have hp : d.stepper.phase = .pacing := by
      cases hp : d.stepper.phase <;> simp [heeds, demand, hp] at hr ⊢
    simp only [resume, hp]
    cases running with
    | true => exact .tick hp
    | false => exact .fail hp
  | cycles n =>
    cases hp : d.stepper.phase with
    | gauging up =>
      simp only [resume, hp]
      exact .gauge hp
    | marking up =>
      simp only [resume, hp]
      exact .mark hp
    | _ => simp [heeds, demand, hp] at hr

/-- **A reply that the stepper asked for makes one beat.** -/
theorem beat_resume {d : Drive} (h : d.shutdown = false) {r : Reply} (hr : d.heeds r = true) :
    d.Beat r (d.resume r) :=
  beat_resume_of_running hr fun _ => h

/-- A reply to something else changes nothing. -/
theorem resume_of_not_heeds {d : Drive} {r : Reply} (hr : d.heeds r = false) : d.resume r = d := by
  cases r with
  | done =>
    cases hp : d.stepper.phase with
    | waiting =>
      simp only [heeds, demand, hp, Semaphore.ready, decide_eq_false_iff_not, Nat.not_lt,
        Nat.le_zero] at hr
      simp only [resume, hp, Semaphore.take?_eq_none_iff.mpr hr]
    | pacing | gauging _ | marking _ | ended => simp only [resume, hp]
    | _ => simp [heeds, demand, hp] at hr
  | ticked running =>
    cases hp : d.stepper.phase with
    | pacing => simp [heeds, demand, hp] at hr
    | _ => simp only [resume, hp]
  | cycles n =>
    cases hp : d.stepper.phase with
    | gauging _ | marking _ => simp [heeds, demand, hp] at hr
    | _ => simp only [resume, hp]

/-! ## Before a step -/

/-- A step the way of the last one is made at once, and so is the first one; any other is gauged
first. -/
theorem stepPhase_cases (last : Option LastStep) (up : Bool) :
    (stepPhase last up = .raising up ∧ ∀ l, last = some l → l.up = up) ∨
      (stepPhase last up = .gauging up ∧ ∃ l, last = some l ∧ l.up ≠ up) := by
  unfold stepPhase
  cases last with
  | none => exact .inl ⟨rfl, fun l h => (by cases h)⟩
  | some l =>
    by_cases hup : l.up = up
    · refine .inl ⟨if_pos hup, fun l' h => ?_⟩
      cases h
      exact hup
    · exact .inr ⟨if_neg hup, l, rfl, hup⟩

/-- A step that was gauged is rested for, if the cycle counter leaves anything of the rest. -/
theorem restPhase_cases (d : Drive) (up : Bool) (n : Nat) {us : Nat}
    (hus : remainingRest d.stepper.restUs
      (d.stepper.last.bind fun l => CycleClock.elapsedUs d.clockRate l.cycles n) = us) :
    (us = 0 ∧ d.restPhase up n = .raising up) ∨ d.restPhase up n = .resting up us := by
  unfold restPhase
  simp only [hus]
  by_cases h : us = 0
  · exact .inl ⟨h, if_pos h⟩
  · exact .inr (if_neg h)

/-! ## What stays as it is -/

theorem speed_decide (a : Axis) : a.decide.1.speed = a.speed := by
  unfold Axis.decide
  split_ifs <;> rfl

/-- The stepper does not change the speed of its move. -/
theorem speed_resume (d : Drive) (r : Reply) : (d.resume r).axis.speed = d.axis.speed := by
  unfold resume
  split
  case h_7 =>
    have h := speed_decide d.axis
    split <;> rename_i hd <;> rw [hd] at h <;> exact h
  case h_11 =>
    simp only [Axis.advance]
    split <;> rfl
  all_goals first | rfl | (split <;> rfl)

/-- Does a drive have the periods and the clock of another one? -/
structure SameRates (d d' : Drive) : Prop where
  periods : d'.periods = d.periods
  clockRate : d'.clockRate = d.clockRate

theorem sameRates_resume (d : Drive) (r : Reply) : d.SameRates (d.resume r) := by
  unfold resume
  split <;> first | exact ⟨rfl, rfl⟩ | (split <;> exact ⟨rfl, rfl⟩)

/-- What the clients leave alone of a drive: the stepper, its output and the direction. -/
structure Aside (d d' : Drive) : Prop where
  stepper : d'.stepper = d.stepper
  step : d'.step = d.step
  direction : d'.axis.direction = d.axis.direction

/-- The order of the move that an event begins. -/
def MoveEvent.begun? : MoveEvent → Option MoveOrder
  | launched _ o (.began _) => some o
  | _ => none

namespace Crowd

variable {c c' : Crowd} {a : Action} {t : Trace} {p : StepPeriods} {rate : Nat}

/-- Nobody but the stepper touches it, its output or the direction. -/
theorem aside_of_act (ha : c.act? a = some c') (hs : ∀ r, a ≠ .stepper r) :
    c.drive.Aside c'.drive := by
  cases effect_of_act ha with
  | stepper r => exact absurd rfl (hs r)
  | powerOn _ _ | powerOff _ _ | begin _ _ _ _ => exact ⟨rfl, rfl, rfl⟩
  | other ha hs hp _ _ => exact ⟨hp, hs, ha.direction⟩

/-- A call changes the speed only where it begins a move, and then to that of its order. -/
theorem speed_of_step {i : Nat} {k : MoveCall} {d : Drive} {next : Option MoveCall}
    (hi : c.calls[i]? = some k) (hs : k.step? c.drive = some (d, next)) :
    c.drive.SameRates d ∧ d.axis.speed
      = ((c.event? (.proceed i)).bind MoveEvent.begun?).elim c.drive.axis.speed
          MoveOrder.speed := by
  cases k with
  | takingPermit o =>
    simp only [MoveCall.step?, takePermit?, Option.map_map, Option.map_eq_some_iff] at hs
    obtain ⟨s, -, he⟩ := hs
    cases he
    simp only [event?, hi]
    exact ⟨⟨rfl, rfl⟩, rfl⟩
  | takingEnd p =>
    simp only [MoveCall.step?, takeDone?, Option.map_map, Option.map_eq_some_iff] at hs
    obtain ⟨s, -, he⟩ := hs
    cases he
    simp only [event?, hi]
    exact ⟨⟨rfl, rfl⟩, rfl⟩
  | announcing l =>
    cases hs
    simp only [event?, hi]
    cases l <;> exact ⟨⟨rfl, rfl⟩, rfl⟩
  | readingOutcome | givingPermit o =>
    cases hs
    simp only [event?, hi]
    exact ⟨⟨rfl, rfl⟩, rfl⟩
  | launching o =>
    cases hs
    simp only [event?, hi, launch]
    rcases c.drive.axis.launch_cases o with
      ⟨-, he⟩ | ⟨-, -, he⟩ | ⟨-, -, he⟩ | ⟨-, t, -, -, he⟩ <;> rw [he] <;> exact ⟨⟨rfl, rfl⟩, rfl⟩

/-- The stepper begins no move. -/
theorem begun?_of_stepper (c : Crowd) (r : Reply) :
    (c.event? (.stepper r)).bind MoveEvent.begun? = none := by
  simp only [event?]
  split <;> rfl

/-- What an action does to the rates of a drive and to the speed of its move. -/
theorem speed_of_act (ha : c.act? a = some c') :
    c.drive.SameRates c'.drive ∧ c'.drive.axis.speed
      = ((c.event? a).bind MoveEvent.begun?).elim c.drive.axis.speed MoveOrder.speed := by
  cases a with
  | stepper r =>
    cases ha
    refine ⟨sameRates_resume _ _, ?_⟩
    rw [begun?_of_stepper]
    exact speed_resume _ _
  | powerOn =>
    cases ha
    refine ⟨⟨rfl, rfl⟩, ?_⟩
    simp only [Drive.powerOn, Axis.powerOn]
    split <;> rfl
  | powerOff =>
    cases ha
    refine ⟨⟨rfl, rfl⟩, ?_⟩
    simp only [event?, Drive.powerOff, Axis.powerOff]
    split <;> rfl
  | abort =>
    cases ha
    refine ⟨⟨rfl, rfl⟩, ?_⟩
    simp only [event?, Drive.abort, Axis.abort]
    split <;> rfl
  | locate =>
    cases ha
    exact ⟨⟨rfl, rfl⟩, rfl⟩
  | enter k =>
    obtain ⟨-, rfl⟩ := enter_of_act ha
    exact ⟨⟨rfl, rfl⟩, rfl⟩
  | proceed i =>
    obtain ⟨k, d, next, hi, hs, rfl⟩ := proceed_of_act ha
    exact speed_of_step hi hs
  | giveUp i =>
    obtain ⟨_, -, -, rfl⟩ := giveUp_of_act ha
    exact ⟨⟨rfl, rfl⟩, rfl⟩

/-- The orders of the moves begun so far, newest first. -/
def begun (t : Trace) : List MoveOrder := (events t).filterMap MoveEvent.begun?

theorem begun_cons (c : Crowd) (a : Action) (t : Trace) :
    begun ((c, a) :: t) = ((c.event? a).bind MoveEvent.begun?).toList ++ begun t := by
  unfold begun
  rw [events_cons, List.filterMap_append]
  cases c.event? a with
  | none => rfl
  | some e => cases h : e.begun? <;> simp [h]

theorem begun_of_none (he : (c.event? a).bind MoveEvent.begun? = none) :
    begun ((c, a) :: t) = begun t := by
  rw [begun_cons, he]
  rfl

/-- The speed of the move begun last. -/
def speedOf (t : Trace) : Speed := (begun t).head?.elim .slowest MoveOrder.speed

/-- A drive is not made with periods that it cannot run with. -/
theorem valid_of_reaches (h : Reaches p rate t c) : p.Valid := by
  induction h with
  | start h =>
    unfold Drive.ofPeriods at h
    cases hv : p.validate with
    | error e =>
      rw [hv] at h
      cases h
    | ok u => exact StepPeriods.validate_eq_ok_iff.mp hv
  | act _ _ ih => exact ih

/-- A drive keeps its periods and its clock, and goes at the speed of the move begun last. -/
theorem rates_of_reaches (h : Reaches p rate t c) :
    c.drive.periods = p ∧ c.drive.clockRate = rate ∧ c.drive.axis.speed = speedOf t := by
  induction h with
  | start h =>
    unfold Drive.ofPeriods at h
    cases hv : p.validate <;> rw [hv] at h <;> cases h
    exact ⟨rfl, rfl, rfl⟩
  | @act t c c' a h ha ih =>
    obtain ⟨hp, hc, hs⟩ := ih
    obtain ⟨hsame, hspeed⟩ := speed_of_act ha
    refine ⟨hsame.periods.trans hp, hsame.clockRate.trans hc, ?_⟩
    rw [hspeed, hs, speedOf, speedOf, begun_cons]
    cases (c.event? a).bind MoveEvent.begun? <;> rfl

end Crowd

end Drive

end SwitchBench
