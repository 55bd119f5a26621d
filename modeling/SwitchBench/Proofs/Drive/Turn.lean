import SwitchBench.Proofs.Drive.Clients

/-!
# What one action does

An order is taken up in one of four ways (`Axis.launch_cases`), and the stepper's actions come in
seven kinds. It wakes up for a move, it goes on with a move whose end
is open, it decides how the move ends, it stops the timer, notes the outcome, announces the end, or
it does nothing. `Drive.Turn` lists them with all that each one changes.

Results: `Axis.launch_cases`, and `turn_resume` (every action of a stepper that is not being shut
down is one of the seven).
-/

namespace SwitchBench

/-- Does the stepper, at this action, have a move in hand whose end is open? -/
def StepperPhase.isFlying : StepperPhase → Bool
  | waiting | stopping _ | reporting _ | announcing | ended => false
  | _ => true

/-- Does an axis tell the same of the move under way as another one, and where it may go? -/
structure Axis.SameMove (a b : Axis) : Prop where
  disable : a.disable = b.disable
  target : a.target = b.target
  aborted : a.aborted = b.aborted
  powerLost : a.powerLost = b.powerLost
  outcome : a.outcome = b.outcome

namespace Axis

theorem SameMove.refl (a : Axis) : a.SameMove a := ⟨rfl, rfl, rfl, rfl, rfl⟩

theorem sameMove_advance (a : Axis) (up : Bool) : (a.advance up).SameMove a := by
  unfold advance
  split <;> exact ⟨rfl, rfl, rfl, rfl, rfl⟩

/-- A decision to step sets the direction only. -/
theorem sameMove_of_decide {a b : Axis} {up : Bool} (h : a.decide = (b, .step up)) :
    b.SameMove a := by
  unfold decide at h
  split at h
  · simp at h
  split at h
  · simp at h
  split at h
  · simp at h
  · simp only [Prod.mk.injEq, Decision.step.injEq] at h
    rw [← h.1]
    exact ⟨rfl, rfl, rfl, rfl, rfl⟩

/-- What becomes of an order: the power is off, it breaks the contract, the plunger is there, or a
move begins. -/
theorem launch_cases (a : Axis) (o : MoveOrder) :
    (a.isOff = true ∧
      a.launch o = ({ a with outcome := .poweredOff }, .finished .poweredOff)) ∨
    (a.isOff = false ∧ a.destination? o = none ∧
      a.launch o = (a, .refused (.moveLeavesRange o.steps a.position))) ∨
    (a.isOff = false ∧ a.destination? o = some a.position ∧
      a.launch o = ({ a with outcome := .ok }, .finished .ok)) ∨
    (a.isOff = false ∧ ∃ t, a.destination? o = some t ∧ t ≠ a.position ∧
      a.launch o =
        ({ a with target := t, speed := o.speed, aborted := false, powerLost := false },
          .began t)) := by
  unfold launch
  cases hoff : a.isOff with
  | true => exact Or.inl ⟨rfl, rfl⟩
  | false =>
    refine Or.inr ?_
    cases hd : a.destination? o with
    | none => exact Or.inl ⟨rfl, rfl, rfl⟩
    | some t =>
      by_cases ht : t = a.position
      · exact Or.inr (Or.inl ⟨rfl, by rw [ht], by simp [ht]⟩)
      · exact Or.inr (Or.inr ⟨rfl, t, rfl, ht, by simp [ht]⟩)

end Axis

namespace Drive

/-- What an action of the stepper can do to its drive, and which event it is. -/
inductive Turn (d : Drive) : Drive → Option MoveEvent → Prop
  | same : Turn d d none
  | wake {b : Semaphore} (hp : d.stepper.phase = .waiting) (hb : d.begin.take? = some b) :
      Turn d { d with begin := b, stepper.phase := .woken } none
  | fly {a : Axis} {pin : Pin} {s : Stepper} {e : Option MoveEvent}
      (hp : d.stepper.phase.isFlying = true) (hs : s.phase.isFlying = true) (ha : a.SameMove d.axis)
      (he : e = none ∨ ∃ up, e = some (.decided d.axis (.step up))) :
      Turn d { d with axis := a, step := pin, stepper := s } e
  | settle {a : Axis} {o : MoveOutcome} (hp : d.stepper.phase = .deciding)
      (ha : d.axis.decide = (a, .finish o)) :
      Turn d { d with axis := a, stepper.phase := .stopping o } (some (.decided d.axis (.finish o)))
  | fail (hp : d.stepper.phase = .pacing) :
      Turn d { d with stepper.phase := .stopping .aborted } (some .timerFailed)
  | rest {o : MoveOutcome} (hp : d.stepper.phase = .stopping o) :
      Turn d { d with stepper.phase := .reporting o } none
  | note {o : MoveOutcome} (hp : d.stepper.phase = .reporting o) :
      Turn d { d with axis := d.axis.report o, stepper.phase := .announcing } none
  | tell (hp : d.stepper.phase = .announcing) :
      Turn d { d with done := d.done.give, stepper.phase := .waiting } none

theorem isFlying_stepPhase (last : Option LastStep) (up : Bool) :
    (stepPhase last up).isFlying = true := by
  unfold stepPhase
  split
  · split <;> rfl
  · rfl

theorem isFlying_restPhase (d : Drive) (up : Bool) (n : Nat) :
    (d.restPhase up n).isFlying = true := by
  unfold restPhase
  simp only
  split <;> rfl

/-- **Every action of the stepper is a turn.** -/
theorem turn_resume {c : Crowd} (h : c.drive.shutdown = false) (r : Reply) :
    Turn c.drive (c.drive.resume r) (c.event? (.stepper r)) := by
  obtain ⟨d, calls⟩ := c
  simp only at h
  cases hp : d.stepper.phase with
  | waiting =>
    cases r with
    | done =>
      cases hb : d.begin.take? <;> simp only [resume, Crowd.event?, hp, hb]
      · exact .same
      · exact .wake hp hb
    | _ => simpa only [resume, Crowd.event?, hp] using .same
  | pacing =>
    cases r with
    | ticked running =>
      cases running <;> simp only [resume, Crowd.event?, hp, goto]
      · exact .fail hp
      · exact .fly (by rw [hp]; rfl) rfl (.refl _) (.inl rfl)
    | _ => simpa only [resume, Crowd.event?, hp] using .same
  | deciding =>
    cases r with
    | done =>
      simp only [resume, Crowd.event?, hp]
      cases hd : d.axis.decide with
      | mk a e =>
        cases e with
        | step up =>
          exact .fly (by rw [hp]; rfl) (isFlying_stepPhase _ _) (Axis.sameMove_of_decide hd)
            (.inr ⟨up, rfl⟩)
        | finish o => exact .settle hp hd
    | _ => simpa only [resume, Crowd.event?, hp] using .same
  | stopping o =>
    cases r <;> simp only [resume, Crowd.event?, hp, goto]
    · exact .rest hp
    · exact .same
    · exact .same
  | reporting o =>
    cases r <;> simp only [resume, Crowd.event?, hp]
    · exact .note hp
    · exact .same
    · exact .same
  | announcing =>
    cases r <;> simp only [resume, Crowd.event?, hp]
    · exact .tell hp
    · exact .same
    · exact .same
  | ended => cases r <;> simpa only [resume, Crowd.event?, hp] using .same
  | gauging up | marking up =>
    cases r <;> simp only [resume, Crowd.event?, hp, goto]
    · exact .same
    · exact .same
    · exact .fly (by rw [hp]; rfl) (by first | rfl | exact isFlying_restPhase ..) (.refl _)
        (.inl rfl)
  | advancing up =>
    cases r <;> simp only [resume, Crowd.event?, hp]
    · exact .fly (by rw [hp]; rfl) rfl (Axis.sameMove_advance ..) (.inl rfl)
    · exact .same
    · exact .same
  | woken | ticked =>
    cases r <;> simp only [resume, Crowd.event?, hp, goto]
    · rw [if_neg (by rw [h]; exact Bool.false_ne_true)]
      exact .fly (by rw [hp]; rfl) rfl (.refl _) (.inl rfl)
    · exact .same
    · exact .same
  | _ =>
    cases r <;> simp only [resume, Crowd.event?, hp, goto]
    · exact .fly (by rw [hp]; rfl) rfl (.refl _) (.inl rfl)
    · exact .same
    · exact .same

end Drive

end SwitchBench
