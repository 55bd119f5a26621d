import SwitchBench.Proofs.Drive.Nearing

/-!
# How a drive is closed

Who drops a drive sets the shutdown flag, gives a unit to `begin` so that a stepper that waits for a
move wakes up, and waits for the stepper to end (`Closing`). The flag and the unit are two actions,
and the stepper may act before, between and after them: it may take the unit of a move that was just
started, be in the middle of a move, or be about to announce an end. It looks at the flag when it
wakes up and on every tick.

Once the flag is set every turn of the stepper brings it nearer to its end
(`StepperPhase.turnsToEnd`), and only a step that is not made yet can still be made
(`StepperPhase.mayLift`). Once the unit is given the stepper cannot wait for it in vain.

Results: `wane_of_heeds` (what a turn does after the flag was set), `Sound.act` (what every action
keeps), `Sound.over` (how a drop ends), and `closing_ends_stepper`.
-/

namespace SwitchBench

namespace StepperPhase

/-- How many turns a stepper has before it at most, if it finds the flag set whenever it looks. -/
def turnsToEnd : StepperPhase → Nat
  | ended => 0
  | woken => 1
  | waiting => 2
  | announcing => 3
  | reporting _ => 4
  | stopping _ => 5
  | ticked => 6
  | pacing => 7
  | starting _ | marking _ => 8
  | loading | lowering _ => 9
  | holding _ => 10
  | advancing _ => 11
  | raising _ => 12
  | resting _ _ => 13
  | gauging _ => 14
  | deciding => 15

/-- May it still raise the step output, if it finds the flag set whenever it looks? -/
def mayLift : StepperPhase → Bool
  | deciding | gauging _ | resting _ _ | raising _ => true
  | _ => false

theorem turnsToEnd_le (p : StepperPhase) : p.turnsToEnd ≤ 15 := by
  cases p <;> simp [turnsToEnd]

end StepperPhase

namespace Drive

/-- How far the drop of a drive has come. -/
inductive DropStage where
  | begun
  /-- The flag is set. -/
  | flagged
  /-- The unit is given, and the stepper is waited for. -/
  | woke
  /-- The stepper has ended. -/
  | joined
  deriving DecidableEq, Repr

/-- A drive that is being dropped. Nobody else has it any more but its stepper. -/
structure Closing where
  drive : Drive
  stage : DropStage
  deriving DecidableEq, Repr

namespace Closing

/-- One action of the stepper, or of who drops the drive. -/
inductive Action where
  /-- The stepper acts, given the reply it asked for. -/
  | stepper (r : Reply)
  | drop
  deriving DecidableEq, Repr

/-- One action, if it is possible. -/
def act? (s : Closing) : Action → Option Closing
  | .stepper r => if s.drive.heeds r then some { s with drive := s.drive.resume r } else none
  | .drop =>
    match s.stage with
    | .begun => some ⟨{ s.drive with shutdown := true }, .flagged⟩
    | .flagged => some ⟨{ s.drive with begin := s.drive.begin.give }, .woke⟩
    | .woke => if s.drive.stepper.phase = .ended then some { s with stage := .joined } else none
    | .joined => none

/-- The actions of a run with the states they were done in, newest first. -/
abbrev Trace := List (Closing × Action)

/-- How many turns the stepper had since the flag was set. -/
def turnsSince : Trace → Nat
  | [] => 0
  | (s, a) :: t => (s.drive.shutdown && a ≠ .drop).toNat + turnsSince t

/-- How often the step output rose since the flag was set, in a run to a state. -/
def risesSince : Trace → Closing → Nat
  | [], _ => 0
  | (s, _) :: u, s' => (s.drive.shutdown && rises s.drive s'.drive).toNat + risesSince u s

end Closing

/-! ## One turn -/

/-- Can the stepper no longer wait in vain for a unit of `begin`? -/
def Roused (d : Drive) : Prop :=
  0 < d.begin.count ∨ d.stepper.phase = .woken ∨ d.stepper.phase = .ended

/-- What a turn of the stepper comes to when the flag is set. -/
structure Wane (d d' : Drive) : Prop where
  shutdown : d'.shutdown = true
  turns : d'.stepper.phase.turnsToEnd < d.stepper.phase.turnsToEnd
  lift : (rises d d').toNat + d'.stepper.phase.mayLift.toNat ≤ d.stepper.phase.mayLift.toNat
  roused : d.Roused → d'.Roused

/-- A turn to another phase that drives no output and takes no unit. -/
theorem Wane.goOn {d d' : Drive} (h : d'.shutdown = true) (hs : d'.step = d.step)
    (hb : d'.begin = d.begin)
    (ht : d'.stepper.phase.turnsToEnd < d.stepper.phase.turnsToEnd)
    (hl : d'.stepper.phase.mayLift = true → d.stepper.phase.mayLift = true)
    (hp : d.stepper.phase ≠ .woken) : Wane d d' := by
  refine ⟨h, ht, ?_, fun hr => ?_⟩
  · rw [rises_of_step hs, Bool.toNat_false, Nat.zero_add]
    cases h1 : d'.stepper.phase.mayLift with
    | false => exact Nat.zero_le _
    | true => exact Nat.le_of_eq (by rw [hl h1])
  · rcases hr with hr | hr | hr
    · exact .inl (by rwa [hb])
    · exact absurd hr hp
    · rw [hr] at ht
      exact absurd ht (Nat.not_lt_zero _)

theorem turnsToEnd_stepPhase_le (last : Option LastStep) (up : Bool) :
    (stepPhase last up).turnsToEnd < 15 := by
  rcases stepPhase_cases last up with ⟨he, -⟩ | ⟨he, -⟩ <;> rw [he] <;>
    simp [StepperPhase.turnsToEnd]

theorem turnsToEnd_restPhase_le (d : Drive) (up : Bool) (n : Nat) :
    (d.restPhase up n).turnsToEnd < 14 := by
  rcases restPhase_cases d up n rfl with ⟨-, he⟩ | he <;> rw [he] <;>
    simp [StepperPhase.turnsToEnd]

/-- **Every turn after the flag was set brings the stepper nearer to its end.** -/
theorem wane_of_heeds {d : Drive} (h : d.shutdown = true) {r : Reply} (hr : d.heeds r = true) :
    Wane d (d.resume r) := by
  by_cases hlook : d.stepper.phase = .woken ∨ d.stepper.phase = .ticked
  · -- it looks at the flag, and sees it
    obtain rfl : r = .done := by
      rcases hlook with hp | hp <;> cases r <;> simp [heeds, demand, hp] at hr ⊢
    rcases hlook with hp | hp <;> simp only [resume, hp, h, if_true]
    · exact ⟨h, by simp [goto, hp, StepperPhase.turnsToEnd],
        by simp [goto, rises, StepperPhase.mayLift], fun _ => .inr (.inr rfl)⟩
    · exact .goOn h rfl rfl (by simp [goto, hp, StepperPhase.turnsToEnd])
        (by simp [goto, StepperPhase.mayLift]) (by simp [hp])
  · have hb := beat_resume_of_running hr fun hp => absurd hp hlook
    generalize d.resume r = d' at hb ⊢
    cases hb with
    | wake hp hb =>
      exact ⟨h, by simp [hp, StepperPhase.turnsToEnd], by simp [rises, StepperPhase.mayLift],
        fun _ => .inr (.inl rfl)⟩
    | enter hp => exact absurd (.inl hp) hlook
    | look hp => exact absurd (.inr hp) hlook
    | aim hp hd =>
      refine .goOn h rfl rfl ?_ (by simp [hp, StepperPhase.mayLift]) (by simp [hp])
      rw [hp]
      exact turnsToEnd_stepPhase_le _ _
    | gauge hp =>
      refine .goOn h rfl rfl ?_ (by simp [hp, StepperPhase.mayLift]) (by simp [hp])
      rw [hp]
      exact turnsToEnd_restPhase_le _ _ _
    | lift hp =>
      refine ⟨h, by simp [hp, StepperPhase.turnsToEnd], ?_, fun hr => ?_⟩
      · rw [hp]
        exact Bool.toNat_le _
      · simpa [Roused, hp] using hr
    | lower hp =>
      refine ⟨h, by simp [hp, StepperPhase.turnsToEnd], ?_, fun hr => ?_⟩
      · rw [rises, Pin.level_drive, Bool.and_false]
        exact Nat.zero_le _
      · simpa [Roused, hp] using hr
    | load hp | start hp | tick hp | fail hp | finish hp _ | rest hp | count hp | hold hp
    | mark hp | halt hp | report hp | tell hp =>
      exact .goOn h rfl rfl (by simp [goto, hp, StepperPhase.turnsToEnd])
        (by simp [goto, hp, StepperPhase.mayLift]) (by simp [hp])

/-! ## A run -/

theorem shutdown_resume (d : Drive) (r : Reply) : (d.resume r).shutdown = d.shutdown := by
  unfold resume
  split <;> first | rfl | (split <;> rfl)

/-- What holds of a drive while it is being dropped, and how much of what the flag allows has
happened: the rises and the turns since it was set make up for those that are not possible any
more. -/
structure Closing.Sound (t : Closing.Trace) (s : Closing) : Prop where
  flag : s.drive.shutdown = true ↔ s.stage ≠ .begun
  turns : s.drive.shutdown = true →
    Closing.turnsSince t + s.drive.stepper.phase.turnsToEnd ≤ 15
  rises : s.drive.shutdown = true →
    Closing.risesSince t s + s.drive.stepper.phase.mayLift.toNat ≤ 1
  before : s.drive.shutdown = false → Closing.turnsSince t = 0 ∧ Closing.risesSince t s = 0
  roused : s.stage = .woke ∨ s.stage = .joined → s.drive.Roused
  joined : s.stage = .joined → s.drive.stepper.phase = .ended

namespace Closing

variable {s s' : Closing} {a : Action} {t : Trace}

theorem sound_start {d : Drive} (h : d.shutdown = false) : Sound [] ⟨d, .begun⟩ :=
  ⟨by simp [h], by simp [h], by simp [h], fun _ => ⟨rfl, rfl⟩, by simp, by simp⟩

/-- The stepper has a turn. -/
theorem Sound.stepper (h : Sound t s) {r : Reply} (hr : s.drive.heeds r = true) :
    Sound ((s, .stepper r) :: t) { s with drive := s.drive.resume r } := by
  cases hflag : s.drive.shutdown with
  | false =>
    have hstage : s.stage = .begun := by
      by_contra hne
      rw [h.flag.mpr hne] at hflag
      cases hflag
    have hkeep : (s.drive.resume r).shutdown = false := by rw [shutdown_resume, hflag]
    refine ⟨by simp [hkeep, hstage], by simp [hkeep], by simp [hkeep], fun _ => ?_,
      by simp [hstage], by simp [hstage]⟩
    simpa [turnsSince, risesSince, hflag] using h.before hflag
  | true =>
    have hw := wane_of_heeds hflag hr
    have hturns := hw.turns
    refine ⟨?_, fun _ => ?_, fun _ => ?_, fun h0 => ?_, fun h0 => hw.roused (h.roused h0),
      fun h0 => ?_⟩
    · simpa only [hw.shutdown, hflag] using h.flag
    · have := h.turns hflag
      have : turnsSince ((s, .stepper r) :: t) = 1 + turnsSince t := by simp [turnsSince, hflag]
      simp only
      omega
    · have := h.rises hflag
      have := hw.lift
      simp only [risesSince, hflag, Bool.true_and]
      omega
    · rw [hw.shutdown] at h0
      cases h0
    · rw [h.joined h0] at hturns
      exact absurd hturns (Nat.not_lt_zero _)

/-- Whoever drops the drive acts. -/
theorem Sound.drop (h : Sound t s) (ha : s.act? .drop = some s') :
    Sound ((s, .drop) :: t) s' := by
  have hturns : turnsSince ((s, .drop) :: t) = turnsSince t := by simp [turnsSince]
  have hstill (s' : Closing) (hs : s'.drive.step = s.drive.step) :
      risesSince ((s, .drop) :: t) s' = risesSince t s := by
    rw [risesSince, rises_of_step hs, Bool.and_false, Bool.toNat_false, Nat.zero_add]
  obtain ⟨d, stage⟩ := s
  cases stage with
  | begun =>
    cases ha
    have hoff : d.shutdown = false := by simpa using h.flag
    obtain ⟨h1, h2⟩ := h.before hoff
    refine ⟨by simp, fun _ => ?_, fun _ => ?_, nofun, nofun, nofun⟩
    · rw [hturns, h1, Nat.zero_add]
      exact StepperPhase.turnsToEnd_le _
    · rw [hstill ⟨{ d with shutdown := true }, .flagged⟩ rfl, h2, Nat.zero_add]
      exact Bool.toNat_le _
  | flagged =>
    cases ha
    have hon : d.shutdown = true := h.flag.mpr nofun
    refine ⟨by simp [hon], fun _ => by rw [hturns]; exact h.turns hon,
      fun _ => ?_, by simp [hon], fun _ => .inl ?_, nofun⟩
    · rw [hstill ⟨{ d with begin := d.begin.give }, .woke⟩ rfl]
      exact h.rises hon
    · have hcount := Semaphore.count_give d.begin
      have hlimit := d.begin.limit_pos
      simp only
      split at hcount <;> omega
  | woke =>
    simp only [act?, Option.ite_none_right_eq_some, Option.some.injEq] at ha
    obtain ⟨hp, rfl⟩ := ha
    have hon : d.shutdown = true := h.flag.mpr nofun
    refine ⟨by simp [hon], fun _ => by rw [hturns]; exact h.turns hon, fun _ => ?_, by simp [hon],
      fun _ => .inr (.inr hp), fun _ => hp⟩
    rw [hstill ⟨d, .joined⟩ rfl]
    exact h.rises hon
  | joined => cases ha

theorem Sound.act (h : Sound t s) (ha : s.act? a = some s') : Sound ((s, a) :: t) s' := by
  cases a with
  | stepper r =>
    simp only [act?, Option.ite_none_right_eq_some, Option.some.injEq] at ha
    obtain ⟨hr, rfl⟩ := ha
    exact h.stepper hr
  | drop => exact h.drop ha

/-- A drive on which nothing is left to do has been dropped, and its stepper has ended. -/
theorem Sound.over (h : Sound t s) (hno : ∀ a, s.act? a = none) :
    s.stage = .joined ∧ s.drive.stepper.phase = .ended := by
  have hdrop := hno .drop
  obtain ⟨d, stage⟩ := s
  cases stage with
  | begun | flagged => cases hdrop
  | joined => exact ⟨rfl, h.joined rfl⟩
  | woke =>
    exfalso
    simp only [act?, ite_eq_right_iff, reduceCtorEq, imp_false] at hdrop
    have hmoving : d.moving = true := by
      have hroused := h.roused (.inl rfl)
      simp only [Roused] at hroused
      simp only [Drive.moving, Semaphore.ready, Bool.or_eq_true, decide_eq_true_eq]
      by_cases hp : d.stepper.phase = .waiting
      · refine .inr (hroused.resolve_right ?_)
        simp [hp]
      · exact .inl hp
    obtain ⟨r, hr, -⟩ := exists_heeds hmoving hdrop
    simpa [act?, hr] using hno (.stepper r)

/-- **Dropping a drive ends its stepper.** Whatever state the clients, the stepper and the hardware
got the drive into before, and however the actions of the drop and of the stepper interleave: when
the unit for the stepper has been given, the stepper does not wait for one that is not there; after
the flag was set it has 15 turns at most, in which it raises the step output once at most; and when
nobody can do anything more, as must come after so many turns, the stepper has ended and the drop
is over. -/
theorem closing_ends_stepper {p : StepPeriods} {rate : Nat} {u : Crowd.Trace} {c : Crowd}
    (h : Crowd.Reaches p rate u c) {as : List Action}
    (hp : play? act? [] ⟨c.drive, .begun⟩ as = some (t, s)) :
    (s.stage = .woke ∨ s.stage = .joined →
      ¬ (s.drive.stepper.phase = .waiting ∧ s.drive.begin.count = 0)) ∧
    (s.drive.shutdown = true → turnsSince t ≤ 15 ∧ risesSince t s ≤ 1) ∧
    ((∀ a, s.act? a = none) → s.stage = .joined ∧ s.drive.stepper.phase = .ended) := by
  have hs : Sound t s := of_play? (fun _ _ _ _ => Sound.act) as
    (sound_start (Crowd.sound_of_reaches h).running) hp
  refine ⟨fun hstage ⟨hw, hb⟩ => ?_, fun hflag => ⟨?_, ?_⟩, hs.over⟩
  · rcases hs.roused hstage with hr | hr | hr
    · exact absurd hb (Nat.ne_of_gt hr)
    · cases hw.symm.trans hr
    · cases hw.symm.trans hr
  · exact Nat.le_of_add_right_le (hs.turns hflag)
  · exact Nat.le_of_add_right_le (hs.rises hflag)

/-- A drive is dropped between the decision to step and the step: the step is made, and at the next
tick the stepper learns that it is to end. -/
def droppedMidStep : List Action :=
  List.flatten [
    [.drop, .drop], List.replicate 4 (.stepper .done),
    [.stepper (.cycles 7), .stepper (.ticked true)], List.replicate 6 (.stepper .done), [.drop]]

theorem closing_ends_stepper_droppedMidStep :
    ∃ d u c t s, Drive.ofPeriods .standard 1 = .ok d ∧
      play? Crowd.act? [] ⟨d, []⟩ Crowd.decidedUp = some (u, c) ∧
      play? act? [] ⟨c.drive, .begun⟩ droppedMidStep = some (t, s) ∧
      s.stage = .joined ∧ turnsSince t = 12 ∧ risesSince t s = 1 ∧
      (s.stage = .woke ∨ s.stage = .joined →
        ¬ (s.drive.stepper.phase = .waiting ∧ s.drive.begin.count = 0)) ∧
      (s.drive.shutdown = true → turnsSince t ≤ 15 ∧ risesSince t s ≤ 1) ∧
      ((∀ a, s.act? a = none) → s.stage = .joined ∧ s.drive.stepper.phase = .ended) := by
  refine ⟨_, _, _, _, _, rfl, rfl, rfl, rfl, by decide, by decide, ?_⟩
  have hr := of_play? (P := Crowd.Reaches .standard 1) (fun _ _ _ _ => .act) Crowd.decidedUp
    (.start rfl) rfl
  exact closing_ends_stepper hr (show play? act? [] _ droppedMidStep = some _ from rfl)

end Closing

end Drive

end SwitchBench
