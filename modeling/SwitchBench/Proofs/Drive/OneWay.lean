import SwitchBench.Proofs.Drive.Halting
import SwitchBench.Proofs.Drive.Reversals

/-!
# The steps of a move go one way

A move does not turn around. Once it has made a step, its target is ahead or reached, as its steps
lead towards the target and stop there, and so the next one goes the same way. A step of a move that
has lost its power was decided on before, and goes the same way as well.

Results: `OneWay.stepper` and `OneWay.client` (one action keeps the steps of a move going one way),
`oneWay_of_reaches` (the steps of a move all go one way, in every run).
-/

namespace SwitchBench

/-- Has the stepper not made any step of its move yet? -/
def StepperPhase.isFresh : StepperPhase → Bool
  | waiting | woken | loading | starting _ => true
  | _ => false

/-- Is the target ahead that way, or reached? -/
def Axis.Short (a : Axis) (up : Bool) : Prop :=
  if up then a.target ≤ a.position else a.position ≤ a.target

namespace Axis

variable {a b : Axis} {up way : Bool}

theorem Heads.short (h : a.Heads up) : a.Short up := by
  unfold Heads Short at *
  split at h <;> split <;> simp_all <;> omega

/-- A step towards the target leads no further than there. -/
theorem Heads.short_advance (h : a.Heads up) (hon : a.isOff = false) (hl : a.powerLost = false) :
    (a.advance up).Short up := by
  unfold Heads Short advance at *
  rw [hon, hl]
  cases up <;> simp at h ⊢ <;> omega

/-- With the target ahead or reached one way, a step towards it goes that way. -/
theorem Short.eq_of_heads (h : a.Short way) (hh : a.Heads up) : way = up := by
  unfold Short Heads at *
  cases way <;> cases up <;> simp at h hh ⊢ <;> omega

theorem Short.of_samePlace (h : b.Short up) (hab : a.SamePlace b) : a.Short up := by
  unfold Short at *
  rwa [hab.target, hab.position]

end Axis

namespace Drive

namespace Timed

variable {p : StepPeriods} {clock : CycleClock} {catchup : Catchup} {t : Trace} {s s' : Timed}
  {instant move : Nat} {a : Action} {r : Reply} {f : Footfall} {steps : List Footfall}

theorem mem_current_iff : f ∈ current move steps ↔ f ∈ steps.head? ∧ f.move = move := by
  rw [current, Option.mem_filter_iff, decide_eq_true_eq]

theorem current_cons : current f.move (f :: steps) = some f := by
  simp [current]

theorem current_modifyHead {g : Footfall → Footfall} (hg : ∀ f, (g f).move = f.move) :
    current move (steps.modifyHead g) = (current move steps).map g := by
  cases steps with
  | nil => rfl
  | cons f l => simp [current, Option.filter_some, hg, apply_ite]

/-- The last step of the move begun last, if it has made one. -/
def latest (t : Trace) (s : Timed) : Option Footfall := current (movesOf t) (footfalls t s)

theorem movesOf_of_none (he : (s.crowd.event? a).bind MoveEvent.begun? = none) :
    movesOf ((s, (instant, a)) :: t) = movesOf t := by
  unfold movesOf crowdTrace
  rw [List.map_cons, Crowd.begun_of_none he]

theorem speedOf_of_none (he : (s.crowd.event? a).bind MoveEvent.begun? = none) :
    speedOf ((s, (instant, a)) :: t) = speedOf t := by
  unfold speedOf crowdTrace Crowd.speedOf
  rw [List.map_cons, Crowd.begun_of_none he]

/-- The last step of the move in hand after an action of the stepper. -/
theorem latest_of_stepper (h : Reaches p clock catchup t s)
    (ha : s.StepperActs clock instant r s') :
    latest ((s, (instant, .stepper r)) :: t) s' = match s.crowd.drive.stepper.phase with
      | .raising up => some (landing t s instant up (footfalls t s))
      | .marking _ => (latest t s).map fun f => { f with read := some instant }
      | _ => latest t s := by
  rw [latest, movesOf_of_none (Crowd.begun?_of_stepper _ _), footfalls_of_stepper h ha, nextSteps]
  cases s.crowd.drive.stepper.phase with
  | raising up => exact current_cons
  | marking up => exact current_modifyHead fun _ => rfl
  | _ => rfl

/-- What is known of the last step of the move in hand, and what holds of the steps so far. -/
structure OneWay (g : MoveStage) (t : Trace) (s : Timed) : Prop where
  move_le : ∀ f ∈ (footfalls t s).head?, f.move ≤ movesOf t
  fresh : g.isFlying = true → s.crowd.drive.stepper.phase.isFresh = true → latest t s = none
  short : s.crowd.drive.stepper.phase.isFlying = true → s.crowd.drive.axis.powerLost = false →
    ∀ f ∈ latest t s, s.crowd.drive.axis.Short f.up
  aimed : ∀ up, s.crowd.drive.stepper.phase.gait.aim = some up → ∀ f ∈ latest t s, f.up = up
  chain : (footfalls t s).IsChain fun later earlier =>
    later.move = earlier.move → later.up = earlier.up

variable {g : MoveStage} {l : Leg}

/-! ## The stepper's actions -/

/-- A move whose end is open after an action of the stepper was so before. -/
theorem isFlying_of_after {c : Crowd}
    (hg : (g.after (c.event? (.stepper r))).isFlying = true) : g.isFlying = true := by
  cases hf : g.isFlying with
  | true => rfl
  | false =>
    rw [MoveStage.not_flying_after hf (Crowd.begun?_of_stepper _ _)] at hg
    cases hg

theorem OneWay.fresh_of_stepper (h : OneWay g t s) (hr : Reaches p clock catchup t s)
    (hs : Crowd.Sound g s.crowd) (ha : s.StepperActs clock instant r s')
    (hg : g.isFlying = true) (hp : s'.crowd.drive.stepper.phase.isFresh = true) :
    latest ((s, (instant, .stepper r)) :: t) s' = none := by
  have hb := ha.beat hs
  generalize s'.crowd.drive = d at hb hp
  rw [latest_of_stepper hr ha]
  cases hb with
  | wake hq | enter hq | load hq =>
    rw [hq]
    exact h.fresh hg (by rw [hq]; rfl)
  | tell hq =>
    have hsettled := hs.stepper
    rw [hq] at hsettled
    cases hsettled
    cases hg
  | @aim a up hq hd =>
    rcases stepPhase_cases s.crowd.drive.stepper.last up with ⟨hphase, -⟩ | ⟨hphase, -⟩ <;>
      simp only [hphase] at hp <;> cases hp
  | @gauge up n hq =>
    rcases restPhase_cases s.crowd.drive up n rfl with ⟨-, hphase⟩ | hphase <;>
      simp only [goto, hphase] at hp <;> cases hp
  | start hq | tick hq | fail hq | look hq | finish hq | rest hq | lift hq | count hq | hold hq
    | lower hq | mark hq | halt hq | report hq => cases hp

/-- The target stays ahead of the last step of a move, or is reached. -/
theorem OneWay.short_of_stepper (h : OneWay g t s) (hr : Reaches p clock catchup t s)
    (hs : Crowd.Sound g s.crowd) (hl : Crowd.OnLeg g l s.crowd)
    (ha : s.StepperActs clock instant r s') (hg : g.isFlying = true)
    (hp : s'.crowd.drive.stepper.phase.isFlying = true)
    (hlost : s'.crowd.drive.axis.powerLost = false) :
    ∀ f ∈ latest ((s, (instant, .stepper r)) :: t) s', s'.crowd.drive.axis.Short f.up := by
  have hb := ha.beat hs
  generalize s'.crowd.drive = d at hb hp hlost ⊢
  rw [latest_of_stepper hr ha]
  intro f hf
  cases hb with
  | wake hq | enter hq | load hq | start hq =>
    rw [hq] at hf
    rw [h.fresh hg (by rw [hq]; rfl)] at hf
    cases hf
  | tick hq | look hq | gauge hq | rest hq | hold hq | lower hq =>
    rw [hq] at hf
    exact h.short (by rw [hq]; rfl) hlost f hf
  | @aim a up hq hd =>
    obtain ⟨-, hl, -, rfl⟩ := Axis.aim_of_decide hd
    rw [hq] at hf
    exact h.short (by rw [hq]; rfl) hl f hf
  | @lift up hq =>
    rw [hq] at hf
    cases hf
    exact (hl.heads up (by rw [hq]; rfl) hlost).short
  | @count up hq =>
    have hkept : s.crowd.drive.axis.powerLost = false :=
      (Axis.sameMove_advance _ _).powerLost.symm.trans hlost
    have haim : s.crowd.drive.stepper.phase.gait.aim = some up := by rw [hq]; rfl
    -- a step in hand knows if the power is off
    have hon : s.crowd.drive.axis.isOff = false := by
      refine eq_false_of_ne_true fun hoff => ?_
      rw [hs.powerLost_of_aim haim hoff] at hkept
      cases hkept
    rw [hq] at hf
    rw [h.aimed up haim f hf]
    exact (hl.heads up haim hkept).short_advance hon hkept
  | mark hq =>
    rw [hq] at hf
    obtain ⟨f', hf', rfl⟩ := Option.map_eq_some_iff.mp hf
    exact h.short (by rw [hq]; rfl) hlost f' hf'
  | fail hq | finish hq | halt hq | report hq | tell hq => cases hp

/-- A step is decided on the way of the last one of its move. -/
theorem OneWay.aimed_of_stepper (h : OneWay g t s) (hr : Reaches p clock catchup t s)
    (hs : Crowd.Sound g s.crowd) (ha : s.StepperActs clock instant r s') {up : Bool}
    (hup : s'.crowd.drive.stepper.phase.gait.aim = some up) :
    ∀ f ∈ latest ((s, (instant, .stepper r)) :: t) s', f.up = up := by
  have hb := ha.beat hs
  generalize s'.crowd.drive = d at hb hup
  rw [latest_of_stepper hr ha]
  intro f hf
  cases hb with
  | @aim a way hq hd =>
    obtain ⟨-, hl, hheads, -⟩ := Axis.aim_of_decide hd
    simp only [gait_stepPhase, Option.some.injEq] at hup
    rw [hq] at hf
    rw [← hup]
    exact (h.short (by rw [hq]; rfl) hl f hf).eq_of_heads hheads
  | @gauge way n hq =>
    simp only [goto, gait_restPhase, Option.some.injEq] at hup
    rw [hq] at hf
    exact h.aimed up (by rw [hq, ← hup]; rfl) f hf
  | rest hq =>
    cases hup
    rw [hq] at hf
    exact h.aimed up (by rw [hq]; rfl) f hf
  | lift hq =>
    cases hup
    rw [hq] at hf
    cases hf
    rfl
  | wake hq | enter hq | load hq | start hq | tick hq | fail hq | look hq | finish hq | count hq
    | hold hq | lower hq | mark hq | halt hq | report hq | tell hq => cases hup

/-- **Whatever the stepper does, the steps of a move go one way.** -/
theorem OneWay.stepper (h : OneWay g t s) (hr : Reaches p clock catchup t s)
    (hs : Crowd.Sound g s.crowd) (hl : Crowd.OnLeg g l s.crowd)
    (ha : s.StepperActs clock instant r s') :
    OneWay (g.after (s.crowd.event? (.stepper r))) ((s, (instant, .stepper r)) :: t) s' := by
  have hact : s.crowd.act? (.stepper r) = some s'.crowd := by
    rw [ha.next]
    rfl
  have hs' := hs.act hact
  refine ⟨?_, fun hg => h.fresh_of_stepper hr hs ha (isFlying_of_after hg), fun hp => ?_,
    fun up => h.aimed_of_stepper hr hs ha, ?_⟩
  · rw [movesOf_of_none (Crowd.begun?_of_stepper _ _), footfalls_of_stepper hr ha, nextSteps]
    intro f hf
    split at hf
    · cases hf
      exact Nat.le_refl _
    · rw [List.head?_modifyHead] at hf
      obtain ⟨f', hf', rfl⟩ := Option.map_eq_some_iff.mp hf
      exact h.move_le f' hf'
    · exact h.move_le f hf
  · have hg := (StepperPhase.fits_of_isFlying hp _ _).mp hs'.stepper
    exact h.short_of_stepper hr hs hl ha (isFlying_of_after hg) hp
  · rw [footfalls_of_stepper hr ha, nextSteps]
    split
    · rename_i up hp
      refine List.isChain_cons.mpr ⟨fun f hf hmove => ?_, h.chain⟩
      exact (h.aimed up (by rw [hp]; rfl) f (mem_current_iff.mpr ⟨hf, hmove.symm⟩)).symm
    · exact isChain_modifyHead h.chain fun _ _ h => h
    · exact h.chain

/-! ## The clients' actions -/

/-- The target stays ahead of the last step of a move whatever the clients do, unless they begin
another one. -/
theorem OneWay.short_of_client (h : OneWay g t s) (hs : Crowd.Sound g s.crowd)
    (ha : s.ClientActs instant a s')
    (he : (s.crowd.event? a).bind MoveEvent.begun? = none)
    (hp : s.crowd.drive.stepper.phase.isFlying = true)
    (hlost : s'.crowd.drive.axis.powerLost = false) :
    ∀ f ∈ latest t s, s'.crowd.drive.axis.Short f.up := by
  intro f hf
  have heffect := Crowd.effect_of_act ha.acts
  generalize s'.crowd = c at heffect hlost ⊢
  cases heffect with
  | stepper r => exact absurd rfl (ha.other r)
  | powerOn hoff =>
    -- a move under way knows that the power was lost
    have hg := (StepperPhase.fits_of_isFlying hp _ _).mp hs.stepper
    cases g with
    | idle | settled o => cases hg
    | flying target lost asked =>
      obtain ⟨-, hl, -, hknown⟩ := hs.agrees
      rw [hl, hknown hoff] at hlost
      cases hlost
  | powerOff hon => cases hlost
  | begin hi hon hd hev =>
    rw [hev] at he
    cases he
  | other hx => exact (h.short hp (hx.powerLost.symm.trans hlost) f hf).of_samePlace hx

/-- **Whatever the clients do, the steps of a move go one way.** -/
theorem OneWay.client (h : OneWay g t s) (hs : Crowd.Sound g s.crowd)
    (ha : s.ClientActs instant a s') :
    OneWay (g.after (s.crowd.event? a)) ((s, (instant, a)) :: t) s' := by
  have hsteps : footfalls ((s, (instant, a)) :: t) s' = footfalls t s := footfalls_of_client ha
  have hstepper := ha.aside.stepper
  cases he : (s.crowd.event? a).bind MoveEvent.begun? with
  | none =>
    have hmoves : movesOf ((s, (instant, a)) :: t) = movesOf t := movesOf_of_none he
    have hlatest : latest ((s, (instant, a)) :: t) s' = latest t s := by
      rw [latest, hmoves, hsteps, latest]
    refine ⟨?_, ?_, ?_, ?_, ?_⟩
    · rw [hmoves, hsteps]
      exact h.move_le
    · rw [hlatest, hstepper]
      intro hg hp
      refine h.fresh (eq_true_of_ne_false fun hf => ?_) hp
      rw [MoveStage.not_flying_after hf he] at hg
      cases hg
    · rw [hlatest, hstepper]
      exact h.short_of_client hs ha he
    · rw [hlatest, hstepper]
      exact h.aimed
    · rw [hsteps]
      exact h.chain
  | some o =>
    -- a move begins while the stepper waits, and no step so far is one of it
    have hwait : s.crowd.drive.stepper.phase = .waiting := by
      by_contra hp
      rw [Crowd.begun?_of_busy hs hp a] at he
      cases he
    have hmoves : movesOf ((s, (instant, a)) :: t) = movesOf t + 1 := by
      unfold movesOf crowdTrace
      rw [List.map_cons, Crowd.begun_cons, he]
      simp [Nat.add_comm]
    have hlatest : latest ((s, (instant, a)) :: t) s' = none := by
      refine Option.eq_none_iff_forall_not_mem.mpr fun f hf => ?_
      rw [latest, hsteps, mem_current_iff, hmoves] at hf
      have := h.move_le f hf.1
      omega
    refine ⟨?_, fun _ _ => hlatest, ?_, ?_, ?_⟩
    · rw [hmoves, hsteps]
      exact fun f hf => Nat.le_succ_of_le (h.move_le f hf)
    · rw [hstepper, hwait]
      exact fun hp => (by cases hp)
    · rw [hstepper, hwait]
      exact fun up hup => (by cases hup)
    · rw [hsteps]
      exact h.chain

/-! ## Every run -/

/-- **The steps of a move all go one way**, whatever the clients ask for meanwhile. -/
theorem oneWay_of_reaches (h : Reaches p clock catchup t s) :
    OneWay (MoveStage.ofEvents (Crowd.events (crowdTrace t))) t s := by
  induction h using Reaches.parties with
  | start h =>
    exact ⟨fun f hf => (by cases hf), fun _ _ => rfl, fun _ _ f hf => (by cases hf),
      fun _ _ f hf => (by cases hf), .nil⟩
  | stepper h _ ha ih =>
    have hcrowd := reaches_crowd h
    rw [crowdTrace, List.map_cons, Crowd.events_cons, MoveStage.ofEvents_append]
    exact ih.stepper h (Crowd.sound_of_reaches hcrowd) (Crowd.onLeg_of_reaches hcrowd) ha
  | client h _ ha ih =>
    rw [crowdTrace, List.map_cons, Crowd.events_cons, MoveStage.ofEvents_append]
    exact ih.client (Crowd.sound_of_reaches (reaches_crowd h)) ha

end Timed

end Drive

end SwitchBench
