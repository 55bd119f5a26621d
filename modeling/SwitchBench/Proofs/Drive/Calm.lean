import SwitchBench.Proofs.Drive.Halting
import SwitchBench.Proofs.Drive.MoveResults

/-!
# Stretches without disturbance

A stretch of a run is calm if nobody switches the power or asks for an abort in it and the timer is
never found stopped (`Crowd.Calm`). What happens in one to the moves is one of few things
(`Crowd.CalmEvent`), and the outputs move only as the stepper steps.

Results: `Sound.calmEvent` (what can happen), `Sound.rests_of_act` (with no move under way nothing
moves), `foot_of_act` and `heads_of_rises` (position and outputs go by the rises of the step output,
and each rise heads for the target), `Calm.edges` and `Calm.plunger` (what a whole stretch makes of
the step output and of the plunger).
-/

namespace SwitchBench

namespace Drive

/-- The order that an event takes up, unless it is refused. -/
def MoveEvent.taken? : MoveEvent → Option MoveOrder
  | launched _ o (.began _) | launched _ o (.finished _) => some o
  | _ => none

theorem MoveStage.after_idle {e : Option MoveEvent} (he : e.bind MoveEvent.taken? = none) :
    MoveStage.idle.after e = .idle := by
  cases e with
  | none => rfl
  | some e =>
    cases e with
    | launched b o l => cases l <;> first | rfl | cases he
    | decided b d => cases d <;> rfl
    | _ => rfl

theorem rises_of_outputs {d d' : Drive} (h : d'.outputs = d.outputs) : rises d d' = false := by
  simp only [outputs, List.cons.injEq, and_true] at h
  exact rises_of_step h.2.2

namespace Crowd

/-- Does an action switch the power, ask for an abort, or find the timer stopped? -/
def disturbs (c : Crowd) (a : Action) : Bool :=
  c.switches a || c.event? a = some .abortAsked || c.event? a = some .timerFailed

/-- The stretches of a run, newest action first, in which nobody disturbs a move. -/
inductive Calm (c : Crowd) : Trace → Crowd → Prop
  | start : Calm c [] c
  | act {u : Trace} {c₁ c₂ : Crowd} {a : Action} (h : Calm c u c₁) (hd : c₁.disturbs a = false)
      (ha : c₁.act? a = some c₂) : Calm c ((c₁, a) :: u) c₂

/-- The orders taken up along a stretch, newest first. -/
def taken (u : Trace) : List MoveOrder := (events u).filterMap MoveEvent.taken?

variable {g : MoveStage} {c c' : Crowd} {a : Action} {p : StepPeriods} {rate : Nat} {t u : Trace}

theorem taken_cons (c : Crowd) (a : Action) (u : Trace) :
    taken ((c, a) :: u) = ((c.event? a).bind MoveEvent.taken?).toList ++ taken u := by
  unfold taken
  rw [events_cons, List.filterMap_append]
  cases c.event? a with
  | none => rfl
  | some e => cases h : e.taken? <;> simp [h]

theorem switches_of_calm (hd : c.disturbs a = false) : c.switches a = false := by
  simp only [disturbs, Bool.or_eq_false_iff] at hd
  exact hd.1.1

/-- What happens in a calm stretch is no request to stop and no failure. -/
theorem event_of_calm (hd : c.disturbs a = false) :
    c.event? a ≠ some .powerLost ∧ c.event? a ≠ some .abortAsked ∧
      c.event? a ≠ some .timerFailed := by
  have hw := switches_of_calm hd
  simp only [disturbs, Bool.or_eq_false_iff, decide_eq_false_iff_not] at hd
  refine ⟨fun he => ?_, hd.1.2, hd.2⟩
  cases a with
  | powerOff =>
    have hw : c.drive.powerOff.2 = false := hw
    simp only [event?, hw, Bool.false_eq_true, if_false] at he
    cases he
  | stepper r =>
    simp only [event?] at he
    split at he <;> cases he
  | abort =>
    simp only [event?, Option.ite_none_right_eq_some] at he
    cases he.2
  | proceed i =>
    simp only [event?] at he
    split at he <;> cases he
  | powerOn | locate | enter k | giveUp i => cases he

/-! ## What can happen -/

/-- What can happen in a calm stretch to an order that has been taken up. -/
inductive CalmEvent (g : MoveStage) (c : Crowd) : Action → Option MoveEvent → Prop
  | none {a : Action} : CalmEvent g c a none
  | decided (hp : c.drive.stepper.phase = .deciding) (hg : g.isFlying = true) :
      CalmEvent g c (.stepper .done) (some (.decided c.drive.axis c.drive.axis.decide.2))
  | collected {i : Nat} {o : MoveOutcome} (hg : g = .settled o) :
      CalmEvent g c (.proceed i) (some (.collected o))
  | refused {i : Nat} {o : MoveOrder} {f : Fault} (hg : g = .idle) :
      CalmEvent g c (.proceed i) (some (.launched c.drive.axis o (.refused f)))

theorem Sound.calmEvent (h : Sound g c) (hd : c.disturbs a = false)
    (ht : (c.event? a).bind MoveEvent.taken? = none) : CalmEvent g c a (c.event? a) := by
  obtain ⟨hlost, hasked, hfailed⟩ := event_of_calm hd
  cases a with
  | stepper r =>
    cases he : c.event? (.stepper r) with
    | none => exact .none
    | some e =>
      have hg := h.allows he
      simp only [event?] at he
      split at he
      · rename_i hp
        cases he
        exact .decided hp hg.1
      · rename_i hp
        cases he
        exact absurd (by simp only [event?, hp]) hfailed
      · cases he
  | proceed i =>
    cases he : c.event? (.proceed i) with
    | none => exact .none
    | some e =>
      have hg := h.allows he
      rw [he] at ht
      simp only [event?] at he
      split at he
      · rename_i o hi
        cases he
        cases hl : (c.drive.launch o).2 with
        | refused f => exact .refused hg.1
        | began t | finished r =>
          rw [hl] at ht
          cases ht
      · cases he
        exact .collected hg
      · cases he
  | powerOff =>
    cases he : c.event? .powerOff with
    | none => exact .none
    | some e =>
      simp only [event?, Option.ite_none_right_eq_some, Option.some.injEq] at he
      refine absurd ?_ hlost
      simp only [event?, he.1, if_true]
  | abort =>
    cases he : c.event? .abort with
    | none => exact .none
    | some e =>
      simp only [event?, Option.ite_none_right_eq_some, Option.some.injEq] at he
      refine absurd ?_ hasked
      simp only [event?, he.1, if_true]
  | powerOn | locate | enter k | giveUp i => exact .none

/-- Nobody starts another leg before another order is taken up. -/
theorem leg?_of_calm (hw : c.switches a = false)
    (ht : (c.event? a).bind MoveEvent.taken? = none) : c.leg? a = none := by
  have hbegan : ∀ b o t, c.event? a ≠ some (.launched b o (.began t)) := by
    intro b o t he
    rw [he] at ht
    cases ht
  rcases leg?_cases hw hbegan with hl | ⟨-, b, o, r, he⟩
  · exact hl
  · rw [he] at ht
    cases ht

/-! ## What stays as it is -/

/-- A client that neither switches the power nor has an order taken up moves nothing. -/
theorem samePlace_of_client (ha : c.act? a = some c') (hs : ∀ r, a ≠ .stepper r)
    (hw : c.switches a = false) (ht : (c.event? a).bind MoveEvent.taken? = none) :
    c'.drive.axis.SamePlace c.drive.axis := by
  cases effect_of_act ha with
  | stepper r => exact absurd rfl (hs r)
  | powerOn _ h0 | powerOff _ h0 => cases h0.symm.trans hw
  | begin _ _ _ he =>
    rw [he] at ht
    cases ht
  | other hx _ _ _ _ => exact hx

/-- Only a switch of the power changes whether it is off. -/
theorem disable_of_act (ha : c.act? a = some c') (hw : c.switches a = false) :
    c'.drive.axis.disable = c.drive.axis.disable := by
  cases effect_of_act ha with
  | stepper r =>
    have hd := stride_resume c.drive r
    simp only
    generalize c.drive.resume r = d at hd ⊢
    cases hd with
    | still _ _ hx => exact hx.disable
    | aim _ _ _ _ _ | lift _ | lower _ => rfl
    | count hp => exact (Axis.sameMove_advance _ _).disable
  | powerOn _ hs | powerOff _ hs => cases hs.symm.trans hw
  | begin _ _ _ _ => rfl
  | other hx _ _ _ _ => exact hx.disable

/-- A loss of the power is neither noted nor forgotten meanwhile. -/
theorem powerLost_of_act (ha : c.act? a = some c') (hw : c.switches a = false)
    (ht : (c.event? a).bind MoveEvent.taken? = none) :
    c'.drive.axis.powerLost = c.drive.axis.powerLost := by
  by_cases hs : ∃ r, a = .stepper r
  · obtain ⟨r, rfl⟩ := hs
    cases ha
    have hd := stride_resume c.drive r
    simp only
    generalize c.drive.resume r = d at hd ⊢
    cases hd with
    | still _ _ hx => exact hx.powerLost
    | aim _ _ _ _ _ | lift _ | lower _ => rfl
    | count hp => exact (Axis.sameMove_advance _ _).powerLost
  · exact (samePlace_of_client ha (fun r h0 => hs ⟨r, h0⟩) hw ht).powerLost

/-- With no move under way, only a switch of the power drives an output or moves the position. -/
theorem Sound.rests_of_act (h : Sound g c) (hg : g.isFlying = false) (hw : c.switches a = false)
    (ha : c.act? a = some c') :
    c'.drive.outputs = c.drive.outputs ∧ c'.drive.axis.position = c.drive.axis.position := by
  obtain ⟨hstep, hdir⟩ := h.still_of_act hg ha
  refine ⟨by rw [outputs, outputs, hstep, hdir, disable_of_act ha hw], ?_⟩
  cases effect_of_act ha with
  | stepper r =>
    have hfits := h.stepper
    have hd := stride_resume c.drive r
    simp only
    generalize c.drive.resume r = d at hd ⊢
    cases hd with
    | still _ _ hx => exact hx.position
    | aim _ _ _ _ _ | lift _ | lower _ => rfl
    | count hp =>
      rw [hp] at hfits
      cases hg.symm.trans hfits
  | powerOn _ hs | powerOff _ hs => cases hs.symm.trans hw
  | begin _ _ _ _ => rfl
  | other hx _ _ _ _ => exact hx.position

/-! ## What moves -/

/-- A rise leads towards the target. -/
theorem heads_of_rises (h : Reaches p rate t c) (ha : c.act? a = some c')
    (hr : rises c.drive c'.drive = true) (hl : c.drive.axis.powerLost = false) :
    c.drive.axis.Heads c'.drive.axis.direction.level := by
  have hmoved : c'.drive.step ≠ c.drive.step := fun h0 => by
    rw [rises_of_step h0] at hr
    cases hr
  by_cases hs : ∃ r, a = .stepper r
  · obtain ⟨r, rfl⟩ := hs
    cases ha
    have hd := stride_resume c.drive r
    simp only at hr hmoved ⊢
    generalize c.drive.resume r = d at hd hr hmoved ⊢
    cases hd with
    | still _ hstep _ => exact absurd hstep hmoved
    | aim _ _ _ _ _ | count _ => exact absurd rfl hmoved
    | @lift up hp =>
      have haim : c.drive.stepper.phase.gait.aim = some up := by rw [hp]; rfl
      simp only [(tracks_of_reaches h).faces up haim]
      exact (onLeg_of_reaches h).heads up haim hl
    | lower hp =>
      rw [rises, Pin.level_drive, Bool.and_false] at hr
      cases hr
  · exact absurd (aside_of_act ha fun r h0 => hs ⟨r, h0⟩).step hmoved

/-- Position and step in hand go where the rises lead, unless a move that lost its power makes a
step. -/
theorem foot_of_act (h : Reaches p rate t c) (hon : c.drive.axis.isOff = false)
    (ha : c.act? a = some c') (hw : c.switches a = false)
    (hl : rises c.drive c'.drive = true → c'.drive.axis.powerLost = false) {ups : List Bool}
    (hplace : c.drive.axis.position + c.drive.due = walk ups start) :
    c'.drive.axis.position + c'.drive.due
      = walk (if rises c.drive c'.drive then c'.drive.axis.direction.level :: ups else ups)
          start := by
  have htracks := tracks_of_reaches h
  -- a plunger at this very place would be where the drive thinks it is, and stay so
  have hfoot : Tracks (walk ups start) false c.drive :=
    ⟨htracks.step, htracks.faces, ⟨fun _ => hplace.symm, fun _ => rfl⟩, nofun⟩
  have hnext := tracks_of_act hfoot (sound_of_reaches h) ha
  have hdisable := disable_of_act ha hw
  have hon' : c'.drive.axis.isOff = false := by
    rw [Axis.isOff, hdisable]
    exact hon
  have hstray : leadAstray c.drive c'.drive false = false := by
    have hpulse : pulses c.drive c'.drive = rises c.drive c'.drive := by
      rw [pulses, hon', Bool.not_false, Bool.and_true, rises]
    rw [leadAstray, hpulse, Bool.false_or, Bool.and_eq_false_iff]
    right
    cases hr : rises c.drive c'.drive with
    | false => rfl
    | true => rw [hl hr, Bool.and_false]
  rw [← hnext.agrees.mp hstray, carry_walk (repowered_of_disable hdisable) hon']

/-! ## Whole stretches -/

theorem Calm.reaches (hu : Calm c u c') (h : Reaches p rate t c) : Reaches p rate (u ++ t) c' := by
  induction hu with
  | start => exact h
  | act _ _ ha ih => exact .act ih ha

theorem Calm.disable (hu : Calm c u c') : c'.drive.axis.disable = c.drive.axis.disable := by
  induction hu with
  | start => rfl
  | act _ hd ha ih => exact (disable_of_act ha (switches_of_calm hd)).trans ih

/-- Along any calm stretch the step output falls as often as it rises, but for its level. -/
theorem Calm.edges (hu : Calm c u c') :
    fallsOf u c' + c'.drive.step.level.toNat
      = (risesOf u c').length + c.drive.step.level.toNat := by
  induction hu with
  | start => rfl
  | @act u c₁ c₂ a _ _ _ ih =>
    rw [fallsOf, risesOf, falls, rises]
    cases h1 : c₁.drive.step.level <;> cases h2 : c₂.drive.step.level <;>
      simp [h1] at ih ⊢ <;> omega

/-- A calm stretch with the power on takes the plunger where its rises lead. -/
theorem Calm.plunger (hu : Calm c u c') (hon : c.drive.axis.isOff = false) :
    plunger (u ++ t) c' = walk (risesOf u c') (plunger t c) := by
  induction hu with
  | start => simp [walk, risesOf]
  | @act u c₁ c₂ a hu hd ha ih =>
    have hx := disable_of_act ha (switches_of_calm hd)
    have hon₂ : c₂.drive.axis.isOff = false := by
      rw [Axis.isOff, hx, hu.disable]
      exact hon
    rw [List.cons_append, Crowd.plunger, ih, carry_walk (repowered_of_disable hx) hon₂, risesOf]

end Crowd

end Drive

end SwitchBench
