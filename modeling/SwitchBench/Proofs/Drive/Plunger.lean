import SwitchBench.Proofs.Drive.Leg

/-!
# Where the plunger is

The plunger follows the outputs of the drive: every rise of the step output with the power on moves
it by one, the way the direction output says, and every switch of the power puts the origin where
it is (`Crowd.plunger`). The drive counts in another action than it steps, and does not count a step
of a move that has lost its power. Such a step is made nevertheless if the power is back by then:
it strays (`Crowd.strayed`), and from there on drive and plunger disagree by that step.

Results: `Tracks.act` (one action keeps what the drive and the plunger have to do with each other),
`locate_eq_plunger_iff` (with the power on and no step left to count they agree exactly if no step
has strayed since the power was switched), `exists_astray` (a run in which one has).
-/

namespace SwitchBench

namespace Drive

/-- Was the power switched? -/
def repowered (before after : Drive) : Bool := before.axis.isOff != after.axis.isOff

/-- Where an action takes the plunger. -/
def carry (before after : Drive) (x : Int) : Int :=
  if repowered before after then 0
  else if pulses before after then if after.axis.direction.level then x - 1 else x + 1
  else x

/-- Has a step strayed, after an action? A switch of the power makes good for it. -/
def leadAstray (before after : Drive) (stray : Bool) : Bool :=
  !repowered before after && (stray || (pulses before after && after.axis.powerLost))

/-- What the position has yet to go until the step made last is counted. -/
def due (d : Drive) : Int :=
  match d.stepper.phase.gait with
  | ⟨some up, true⟩ => (d.axis.advance up).position - d.axis.position
  | _ => 0

namespace Crowd

/-- Where the plunger is after the actions so far. -/
def plunger : Trace → Crowd → Int
  | [], _ => 0
  | (c, _) :: t, c' => carry c.drive c'.drive (plunger t c)

/-- Has a move that had lost its power made a step, since the power was last switched? -/
def strayed : Trace → Crowd → Bool
  | [], _ => false
  | (c, _) :: t, c' => leadAstray c.drive c'.drive (strayed t c)

end Crowd

/-- What a drive has to do with a plunger at a place, if a step may have strayed. -/
structure Tracks (x : Int) (stray : Bool) (d : Drive) : Prop where
  step : d.step.level = d.stepper.phase.gait.lifted
  faces : ∀ up, d.stepper.phase.gait.aim = some up → d.axis.direction.level = up
  agrees : stray = false ↔ x = d.axis.position + d.due
  spent : stray = true → d.axis.powerLost = true →
    ∀ up, d.stepper.phase.gait ≠ ⟨some up, false⟩

variable {x : Int} {stray : Bool} {d d' : Drive}

/-! ## Outputs and counts -/

theorem pulses_of_step (hs : d'.step = d.step) : pulses d d' = false := by
  unfold pulses
  rw [hs]
  cases d.step.level <;> rfl

theorem repowered_of_disable (ha : d'.axis.disable = d.axis.disable) :
    repowered d d' = false := by
  unfold repowered Axis.isOff
  rw [ha]
  exact bne_self_eq_false _

/-- What is left to count is one step that a powered move has made, or nothing. -/
theorem due_eq (d : Drive) :
    d.due = match d.stepper.phase.gait with
      | ⟨some up, true⟩ =>
        if d.axis.isOff || d.axis.powerLost then 0 else if up then -1 else 1
      | _ => 0 := by
  unfold due
  split
  · rw [Axis.position_advance]
    split
    · omega
    · split <;> omega
  · rfl

theorem due_of_gait (hg : d.stepper.phase.gait.aim = none ∨ d.stepper.phase.gait.lifted = false) :
    d.due = 0 := by
  unfold due
  split
  · rename_i up h
    rw [h] at hg
    simp at hg
  · rfl

theorem due_of_lost (hl : d.axis.isOff = true ∨ d.axis.powerLost = true) : d.due = 0 := by
  rw [due_eq]
  split
  · rw [if_pos (Bool.or_eq_true_iff.mpr hl)]
  · rfl

theorem due_of_samePlace (hg : d'.stepper.phase.gait = d.stepper.phase.gait)
    (ha : d'.axis.SamePlace d.axis) : d'.due = d.due := by
  rw [due_eq, due_eq, hg, Axis.isOff, Axis.isOff, ha.disable, ha.powerLost]

/-! ## One action -/

/-- Whoever leaves outputs and position alone leaves the plunger where it is to the drive. -/
theorem Tracks.still (h : Tracks x stray d) (hg : d'.stepper.phase.gait = d.stepper.phase.gait)
    (hs : d'.step = d.step) (ha : d'.axis.SamePlace d.axis) : Tracks x stray d' where
  step := by rw [hs, hg]; exact h.step
  faces up hup := by rw [hg] at hup; rw [ha.direction]; exact h.faces up hup
  agrees := by rw [ha.position, due_of_samePlace hg ha]; exact h.agrees
  spent hx hl up := by rw [ha.powerLost] at hl; rw [hg]; exact h.spent hx hl up

/-- After a switch of the power the plunger is at the origin. -/
theorem Tracks.atOrigin (h : Tracks x stray d) (hp : d'.stepper = d.stepper)
    (hs : d'.step = d.step) (hd : d'.axis.direction = d.axis.direction)
    (h0 : d'.axis.position = 0) (hdue : d'.due = 0) : Tracks 0 false d' where
  step := by rw [hs, hp]; exact h.step
  faces up hup := by rw [hp] at hup; rw [hd]; exact h.faces up hup
  agrees := by rw [h0, hdue]; exact ⟨fun _ => rfl, fun _ => rfl⟩
  spent hx := by cases hx

/-- A step that is made moves the plunger if the power is on; it is still to be counted, unless its
move has lost the power. -/
theorem Tracks.lift (h : Tracks x stray d) {up : Bool} (hp : d.stepper.phase = .raising up)
    (hd' : d' = { d with step := d.step.drive true, stepper.phase := .advancing up }) :
    Tracks (carry d d' x) (stray || (pulses d d' && d'.axis.powerLost)) d' := by
  have hdue : d.due = 0 := due_of_gait (.inr (by rw [hp]; rfl))
  have hdown : d.step.level = false := by rw [h.step, hp]; rfl
  have hdir : d.axis.direction.level = up := h.faces up (by rw [hp]; rfl)
  have hpulse : pulses d d' = !d.axis.isOff := by
    rw [hd', pulses, hdown, Pin.level_drive]
    rfl
  have hcarry : carry d d' x = if d.axis.isOff then x else if up then x - 1 else x + 1 := by
    rw [carry, repowered_of_disable (by rw [hd']), hpulse, if_neg Bool.false_ne_true, hd', hdir]
    cases d.axis.isOff <;> rfl
  have hdue' : d'.due = if d.axis.isOff || d.axis.powerLost then 0 else if up then -1 else 1 := by
    rw [due_eq, hd']
    rfl
  have hagrees := h.agrees
  have hspent : stray = true → d.axis.powerLost = true → False :=
    fun hx hl => h.spent hx hl up (by rw [hp]; rfl)
  rw [hdue] at hagrees
  refine ⟨by rw [hd', Pin.level_drive]; rfl, fun u hu => ?_, ?_, fun _ _ u => ?_⟩
  · rw [hd'] at hu ⊢
    cases hu
    exact hdir
  · rw [hcarry, hdue', hpulse, hd']
    cases hoff : d.axis.isOff with
    | true => simpa using hagrees
    | false =>
      cases hl : d.axis.powerLost with
      | true =>
        -- this step strays, and no step has before
        have hx : x = d.axis.position := by
          have hfalse : stray = false := eq_false_of_ne_true fun hx => hspent hx hl
          rw [hagrees.mp hfalse, Int.add_zero]
        simp only [Bool.not_false, Bool.and_true, Bool.or_true, if_true]
        cases up <;> simp
        all_goals omega
      | false =>
        simp only [Bool.and_false, Bool.or_false, hagrees]
        cases up <;> simp
        omega
  · rw [hd']
    nofun

/-- A step that is counted is not left to count anymore. -/
theorem Tracks.count (h : Tracks x stray d) {up : Bool} (hp : d.stepper.phase = .advancing up) :
    Tracks x stray { d with axis := d.axis.advance up, stepper.phase := .holding up } := by
  have hdue : d.due = (d.axis.advance up).position - d.axis.position := by
    simp only [due, hp, StepperPhase.gait]
  refine ⟨by rw [h.step, hp]; rfl, nofun, ?_, nofun⟩
  rw [h.agrees, hdue, due_of_gait (.inl rfl)]
  simp only
  omega

/-- Without a switch of the power and without a pulse nothing comes between drive and plunger. -/
theorem Tracks.keep (h : Tracks x stray d') (ha : d'.axis.disable = d.axis.disable)
    (hq : pulses d d' = false) : Tracks (carry d d' x) (leadAstray d d' stray) d' := by
  rwa [carry, leadAstray, repowered_of_disable ha, hq, if_neg Bool.false_ne_true,
    if_neg Bool.false_ne_true, Bool.false_and, Bool.or_false, Bool.not_false, Bool.true_and]

/-- A switch of the power puts the plunger at the origin, whatever went before. -/
theorem Tracks.reset (h : Tracks 0 false d') (hr : repowered d d' = true) :
    Tracks (carry d d' x) (leadAstray d d' stray) d' := by
  rwa [carry, leadAstray, hr, if_pos rfl, Bool.not_true, Bool.false_and]

theorem Tracks.resume (h : Tracks x stray d) (r : Reply) :
    Tracks (carry d (d.resume r) x) (leadAstray d (d.resume r) stray) (d.resume r) := by
  have hd := stride_resume d r
  generalize d.resume r = d' at hd ⊢
  cases hd with
  | still hg hs ha => exact (h.still hg hs ha).keep ha.disable (pulses_of_step hs)
  | @aim up p hp hon hl hh hn =>
    have hdue : d.due = 0 := due_of_gait (.inl (by rw [hp]; rfl))
    refine Tracks.keep ⟨?_, fun u hu => ?_, ?_, fun _ h0 => ?_⟩ rfl (pulses_of_step rfl)
    · rw [h.step, hp, hn]
      rfl
    · rw [hn] at hu
      cases hu
      exact Pin.level_drive _ _
    · rw [h.agrees, hdue, due_of_gait (.inr (by rw [hn]))]
    · cases hl.symm.trans h0
  | @lift up hp =>
    have hkept : repowered d { d with step := d.step.drive true, stepper.phase := .advancing up }
        = false := repowered_of_disable rfl
    rw [leadAstray, hkept]
    exact h.lift hp rfl
  | count hp => exact (h.count hp).keep (Axis.sameMove_advance _ _).disable (pulses_of_step rfl)
  | lower hp =>
    have hdue : d.due = 0 := due_of_gait (.inl (by rw [hp]; rfl))
    refine Tracks.keep ⟨Pin.level_drive _ _, nofun, ?_, nofun⟩ rfl ?_
    · rw [h.agrees, hdue, due_of_gait (.inl rfl)]
    · rw [pulses, Pin.level_drive, Bool.and_false, Bool.false_and]

namespace Crowd

variable {g : MoveStage} {c c' : Crowd} {a : Action}

/-- **One action of anybody keeps what the drive and the plunger have to do with each other.** -/
theorem tracks_of_act (h : Tracks x stray c.drive) (hs : Sound g c) (ha : c.act? a = some c') :
    Tracks (carry c.drive c'.drive x) (leadAstray c.drive c'.drive stray) c'.drive := by
  cases effect_of_act ha with
  | stepper r => exact h.resume r
  | powerOn hoff _ =>
    refine Tracks.reset (h.atOrigin rfl rfl rfl rfl ?_) ?_
    · -- a step that is not counted yet is one of a move that lost its power when it went off
      rw [due_eq]
      split
      · rename_i up hup
        rw [if_pos]
        rw [Bool.or_eq_true]
        exact .inr (hs.powerLost_of_aim (by rw [hup]) hoff)
      · rfl
    · rw [repowered, hoff, Axis.isOff, Pin.level_drive]
      rfl
  | powerOff hon _ =>
    refine Tracks.reset (h.atOrigin rfl rfl rfl rfl (due_of_lost (.inr rfl))) ?_
    rw [repowered, hon, Axis.isOff, Pin.level_drive]
    rfl
  | begin hi hon hd he =>
    obtain ⟨-, -, -, hwait, -⟩ := hs.only hi rfl
    have hdue : c.drive.due = 0 := due_of_gait (.inl (by rw [hwait]; rfl))
    refine Tracks.keep ⟨h.step, h.faces, ?_, fun _ hl => (by cases hl)⟩ rfl (pulses_of_step rfl)
    rw [h.agrees, hdue, due_of_gait (.inl (by simp only [hwait]; rfl))]
  | other hx hstep hp _ _ =>
    exact (h.still (by rw [hp]) hstep hx).keep hx.disable (pulses_of_step hstep)

/-! ## Every run -/

variable {p : StepPeriods} {rate : Nat} {t : Trace}

theorem tracks_of_reaches (h : Reaches p rate t c) :
    Tracks (plunger t c) (strayed t c) c.drive := by
  induction h with
  | @start d h =>
    have hd : d.axis = .initial ∧ d.stepper.phase = .waiting ∧ d.step = .ofLevel false := by
      unfold Drive.ofPeriods at h
      cases hv : p.validate <;> rw [hv] at h <;> cases h
      exact ⟨rfl, rfl, rfl⟩
    obtain ⟨ha, hp, hs⟩ := hd
    refine ⟨by rw [hs, hp]; rfl, fun up hup => ?_, ?_, nofun⟩
    · rw [hp] at hup
      cases hup
    · rw [due_of_gait (.inl (by rw [hp]; rfl)), ha]
      exact ⟨fun _ => rfl, fun _ => rfl⟩
  | act h ha ih => exact tracks_of_act ih (sound_of_reaches h) ha

/-- **Drive and plunger agree as long as no step has strayed, and no longer.** Whatever the
clients, the stepper and the hardware do, in whatever order: with the power on, and unless the
stepper is between a step and counting it, the position reported is where the plunger is exactly if
no move that had lost its power has made a step since the power was last switched. -/
theorem locate_eq_plunger_iff (h : Reaches p rate t c) (hon : c.drive.axis.disable.level = false)
    (hp : ∀ up, c.drive.stepper.phase ≠ .advancing up) :
    c.drive.locate = plunger t c ↔ strayed t c = false := by
  have hdue : c.drive.due = 0 := by
    refine due_of_gait ?_
    cases hphase : c.drive.stepper.phase with
    | advancing up => exact absurd hphase (hp up)
    | gauging _ | resting _ _ | raising _ => exact .inr rfl
    | _ => exact .inl rfl
  have hlocate : c.drive.locate = c.drive.axis.position := by
    unfold Drive.locate Axis.locate Axis.isOff
    rw [hon, if_neg Bool.false_ne_true]
  rw [(tracks_of_reaches h).agrees, hdue, hlocate, Int.add_zero, eq_comm]

/-- A step is decided on, made and counted. -/
theorem locate_eq_plunger_iff_steppedUp :
    ∃ d t c, Drive.ofPeriods .standard 1 = .ok d ∧
      play? act? [] ⟨d, []⟩ (decidedUp ++ List.replicate 2 (.stepper .done)) = some (t, c) ∧
      c.drive.axis.disable.level = false ∧ (∀ up, c.drive.stepper.phase ≠ .advancing up) ∧
      plunger t c = -1 ∧ strayed t c = false ∧
      (c.drive.locate = plunger t c ↔ strayed t c = false) := by
  refine ⟨_, _, _, rfl, rfl, rfl, nofun, rfl, rfl, ?_⟩
  exact locate_eq_plunger_iff
    (of_play? (P := Reaches .standard 1) (fun _ _ _ _ => .act)
      (decidedUp ++ List.replicate 2 (.stepper .done)) (.start rfl) rfl) rfl nofun

/-- A step strays: its move lost the power, the power is back, and the stepper goes on. -/
theorem exists_astray :
    ∃ t c, Reaches .standard 1 t c ∧ c.drive.axis.disable.level = false ∧
      (∀ up, c.drive.stepper.phase ≠ .advancing up) ∧ c.drive.locate = 0 ∧ plunger t c = -1 :=
  ⟨_, _, of_play? (P := Reaches .standard 1) (fun _ _ _ _ => .act)
    (cycledMidStep ++ [.stepper .done]) (.start rfl) rfl, rfl, nofun, rfl, rfl⟩

end Crowd

end Drive

end SwitchBench
