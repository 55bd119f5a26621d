import SwitchBench.Proofs.Drive.Edges

/-!
# How fast a move stops

A request to stop does not reach a step that is decided on already, but no step is decided on after
it: the stage of the moves is then halted (`MoveStage.Halted`), and stays so until another move
begins. A step that is decided on and not made yet is pending, and making it is the one rise that
may still come. Once the end of a move is announced, nobody drives the step output or the direction
before another move begins; and with the power off and the stepper idle nobody but whoever switches
the power on drives any output at all.

Results: `Sound.pending_of_act` and `outputs_of_act` (what one action does), and
`stops_within_one_pulse` (what every run does).
-/

namespace SwitchBench

/-- Is a step decided on, and not yet made? -/
def StepperPhase.pends (p : StepperPhase) : Bool := p.gait.aim.isSome && !p.gait.lifted

namespace Drive

namespace MoveStage

/-- Is no move under way that nobody wants to stop? -/
def Halted (g : MoveStage) : Prop := ∀ t, g ≠ flying t false false

theorem halted_of_not_flying {g : MoveStage} (h : g.isFlying = false) : g.Halted := by
  rintro t rfl
  cases h

/-- A request to stop halts the move under way. -/
theorem halted_request (g : MoveStage) :
    (g.next .abortAsked).Halted ∧ (g.next .powerLost).Halted := by
  cases g <;> exact ⟨fun t h => (by cases h), fun t h => (by cases h)⟩

/-- A halted stage stays so until a move begins. -/
theorem Halted.after {g : MoveStage} (h : g.Halted) {e : Option MoveEvent}
    (he : e.bind MoveEvent.begun? = none) : (g.after e).Halted := by
  cases e with
  | none => exact h
  | some e =>
    cases e with
    | launched b o l =>
      cases l with
      | began t => cases he
      | finished r => exact halted_of_not_flying rfl
      | refused f => cases g <;> exact h
    | collected r => exact halted_of_not_flying rfl
    | powerLost => exact (halted_request g).2
    | abortAsked => exact (halted_request g).1
    | timerFailed =>
      cases g with
      | flying t l k => exact halted_of_not_flying rfl
      | idle | settled o => exact h
    | decided b d =>
      cases g with
      | flying t l k =>
        cases d with
        | step up => exact h
        | finish o => exact halted_of_not_flying rfl
      | idle | settled o => cases d <;> exact h

/-- A stage with no move under way stays one until a move begins. -/
theorem not_flying_after {g : MoveStage} (h : g.isFlying = false) {e : Option MoveEvent}
    (he : e.bind MoveEvent.begun? = none) : (g.after e).isFlying = false := by
  cases g with
  | flying t l k => cases h
  | idle | settled o =>
    cases e with
    | none => rfl
    | some e =>
      cases e with
      | launched b r l => cases l <;> first | rfl | cases he
      | decided b d => cases d <;> rfl
      | _ => rfl

end MoveStage

namespace Crowd

variable {g : MoveStage} {c c' : Crowd} {a : Action} {p : StepPeriods} {rate : Nat} {t : Trace}

/-- Does an action announce the end of a move? -/
def announces (c : Crowd) : Action → Bool
  | .stepper .done => c.drive.stepper.phase = .announcing
  | .proceed i =>
    match c.calls[i]? with
    | some (.announcing (.finished _)) => true
    | _ => false
  | _ => false

/-! ## One action -/

/-- At a halted stage no step is decided on. -/
theorem Sound.not_step_of_halted (h : Sound g c) (hg : g.Halted)
    (hp : c.drive.stepper.phase = .deciding) (up : Bool) : c.drive.axis.decide.2 ≠ .step up := by
  intro hd
  have hfits := h.stepper
  rw [hp] at hfits
  cases g with
  | idle | settled o => cases hfits
  | flying t l k =>
    obtain ⟨-, hl, hk, -⟩ := h.agrees
    unfold Axis.decide at hd
    split at hd
    · cases hd
    rename_i hlost
    split at hd
    · cases hd
    rename_i hasked
    rw [Bool.or_eq_true, not_or] at hlost
    refine hg t ?_
    rw [← hl, ← hk, eq_false_of_ne_true hlost.2, eq_false_of_ne_true hasked]

/-- No step is decided on by anybody. -/
theorem Sound.not_decided_of_halted (h : Sound g c) (hg : g.Halted) (a : Action) (b : Axis)
    (up : Bool) : c.event? a ≠ some (.decided b (.step up)) := by
  intro he
  cases a with
  | stepper r =>
    simp only [event?] at he
    split at he
    · rename_i hp
      rw [Option.some.injEq, MoveEvent.decided.injEq] at he
      exact h.not_step_of_halted hg hp up he.2
    · cases he
    · cases he
  | powerOff | abort =>
    simp only [event?, Option.ite_none_right_eq_some] at he
    cases he.2
  | proceed i =>
    simp only [event?] at he
    split at he <;> cases he
  | powerOn | locate | enter k | giveUp i => cases he

/-- **At a halted stage only a pending step is made.** -/
theorem Sound.pending_of_act (h : Sound g c) (hg : g.Halted) (ha : c.act? a = some c') :
    (rises c.drive c'.drive).toNat + c'.drive.stepper.phase.pends.toNat
      ≤ c.drive.stepper.phase.pends.toNat := by
  have hstill {d : Drive} (hs : d.step = c.drive.step)
      (hp : d.stepper.phase.pends.toNat ≤ c.drive.stepper.phase.pends.toNat) :
      (rises c.drive d).toNat + d.stepper.phase.pends.toNat
        ≤ c.drive.stepper.phase.pends.toNat := by
    rw [rises_of_step hs, Bool.toNat_false, Nat.zero_add]
    exact hp
  by_cases hs : ∃ r, a = .stepper r
  · obtain ⟨r, rfl⟩ := hs
    cases ha
    cases hr : c.drive.heeds r with
    | false =>
      simp only [resume_of_not_heeds hr]
      exact hstill rfl (Nat.le_refl _)
    | true =>
      have hb := beat_resume h.running hr
      simp only
      generalize c.drive.resume r = d at hb ⊢
      cases hb with
      | aim hp hd => exact absurd (congrArg Prod.snd hd) (h.not_step_of_halted hg hp _)
      | gauge hp | rest hp => exact hstill rfl (by rw [hp]; exact Bool.toNat_le _)
      | lift hp =>
        rw [hp]
        exact Bool.toNat_le _
      | lower hp =>
        rw [rises, Pin.level_drive, Bool.and_false]
        exact Nat.zero_le _
      | _ => exact hstill rfl (Nat.zero_le _)
  · obtain ⟨hp, hstep, -⟩ := aside_of_act ha fun r h0 => hs ⟨r, h0⟩
    exact hstill hstep (Nat.le_of_eq (by rw [hp]))

/-- With no move under way, nobody drives the step output or the direction. -/
theorem Sound.still_of_act (h : Sound g c) (hg : g.isFlying = false) (ha : c.act? a = some c') :
    c'.drive.step = c.drive.step ∧ c'.drive.axis.direction = c.drive.axis.direction := by
  by_cases hs : ∃ r, a = .stepper r
  · obtain ⟨r, rfl⟩ := hs
    cases ha
    have hfits := h.stepper
    have hfly : c.drive.stepper.phase.isFlying = false := by
      refine eq_false_of_ne_true fun hf => ?_
      rw [StepperPhase.fits_of_isFlying hf, hg] at hfits
      cases hfits
    have hd := stride_resume c.drive r
    simp only
    generalize c.drive.resume r = d at hd ⊢
    cases hd with
    | still _ hstep hx => exact ⟨hstep, hx.direction⟩
    | aim hp _ _ _ _ | lift hp | count hp | lower hp =>
      rw [hp] at hfly
      cases hfly
  · obtain ⟨-, hstep, hdir⟩ := aside_of_act ha fun r h0 => hs ⟨r, h0⟩
    exact ⟨hstep, hdir⟩

/-- With the power off and no move to do, only switching the power on drives an output. -/
theorem outputs_of_act (hoff : c.drive.axis.isOff = true) (hm : c.drive.moving = false)
    (ha : c.act? a = some c') (hp : a ≠ .powerOn) : c'.drive.outputs = c.drive.outputs := by
  cases effect_of_act ha with
  | stepper r =>
    have hr : c.drive.heeds r = false := by
      rw [Drive.moving, Bool.or_eq_false_iff, decide_eq_false_iff_not, not_not] at hm
      obtain ⟨hw, hb⟩ := hm
      cases r with
      | done => simpa only [heeds, demand, hw] using hb
      | ticked _ | cycles _ => simp [heeds, demand, hw]
    simp only [resume_of_not_heeds hr]
  | powerOn _ _ => exact absurd rfl hp
  | powerOff hon _ | begin _ hon _ _ => cases hon.symm.trans hoff
  | other hx hs _ _ _ => rw [outputs, outputs, hx.disable, hx.direction, hs]

/-- An end is announced only when no move is under way, and that is no event of its own. -/
theorem Sound.settled_of_announces (h : Sound g c) (ha : c.announces a = true) :
    (∃ o, g = .settled o) ∧ c.event? a = none := by
  unfold announces at ha
  split at ha
  · have hp := of_decide_eq_true ha
    have hfits := h.stepper
    rw [hp] at hfits
    exact ⟨⟨_, hfits⟩, by simp only [event?, hp]⟩
  · split at ha
    · rename_i o hi
      exact ⟨⟨_, h.calls _ (List.mem_of_getElem? hi)⟩, by simp only [event?, hi]⟩
    · cases ha
  · cases ha

/-- Does an action ask a move to stop, and is it told that the power was on? -/
def asksToStop (c : Crowd) (a : Action) : Prop :=
  c.event? a = some .abortAsked ∨ c.event? a = some .powerLost

/-- Who asks to stop is not the stepper. -/
theorem not_stepper_of_asksToStop (hq : c.asksToStop a) (r : Reply) : a ≠ .stepper r := by
  rintro rfl
  simp only [asksToStop, event?] at hq
  split at hq <;> simp at hq

/-! ## Every run -/

theorem begun_cons_eq_nil_iff :
    begun ((c, a) :: t) = [] ↔ (c.event? a).bind MoveEvent.begun? = none ∧ begun t = [] := by
  rw [begun_cons, List.append_eq_nil_iff, Option.toList_eq_nil_iff]

/-- After a request to stop and before another move begins, the moves are halted, no step is
decided on, and only one that was pending at the request is made. -/
theorem pending_after_request {post pre : Trace} {c₀ : Crowd} (hq : c₀.asksToStop a)
    (h : Reaches p rate (post ++ (c₀, a) :: pre) c) (hb : begun post = []) :
    (MoveStage.ofEvents (events (post ++ (c₀, a) :: pre))).Halted ∧
      (∀ b up, .decided b (.step up) ∉ events post) ∧
      (risesOf post c).length + c.drive.stepper.phase.pends.toNat
        ≤ c₀.drive.stepper.phase.pends.toNat := by
  induction post generalizing c with
  | nil =>
    cases h with
    | act h ha =>
      obtain ⟨hp, -, -⟩ := aside_of_act ha (not_stepper_of_asksToStop hq)
      refine ⟨?_, fun b up he => (List.not_mem_nil he).elim, ?_⟩
      · rw [List.nil_append, events_cons, MoveStage.ofEvents_append]
        rcases hq with hq | hq <;> rw [hq]
        · exact (MoveStage.halted_request _).1
        · exact (MoveStage.halted_request _).2
      · rw [hp]
        exact Nat.le_of_eq (Nat.zero_add _)
  | cons e post ih =>
    obtain ⟨c₁, b⟩ := e
    obtain ⟨hbe, hb⟩ := begun_cons_eq_nil_iff.mp hb
    cases h with
    | act h ha =>
      obtain ⟨hg, hd, hr⟩ := ih h hb
      have hs := sound_of_reaches h
      have hpend := hs.pending_of_act hg ha
      refine ⟨?_, fun x up he => ?_, ?_⟩
      · rw [List.cons_append, events_cons, MoveStage.ofEvents_append]
        exact hg.after hbe
      · rw [events_cons, List.mem_append, Option.mem_toList] at he
        rcases he with he | he
        · exact hs.not_decided_of_halted hg b x up he
        · exact hd x up he
      · rw [risesOf]
        split <;> rename_i hup
        · rw [hup, Bool.toNat_true] at hpend
          rw [List.length_cons]
          omega
        · omega

/-- After the end of a move is announced and before another one begins, none is under way, and
nobody has driven the step output or the direction. -/
theorem still_after_end {post pre : Trace} {c₀ : Crowd} (hq : c₀.announces a = true)
    (h : Reaches p rate (post ++ (c₀, a) :: pre) c) (hb : begun post = []) :
    (MoveStage.ofEvents (events (post ++ (c₀, a) :: pre))).isFlying = false ∧
      c.drive.step = c₀.drive.step ∧ c.drive.axis.direction = c₀.drive.axis.direction := by
  induction post generalizing c with
  | nil =>
    cases h with
    | act h ha =>
      have hs := sound_of_reaches h
      obtain ⟨⟨o, ho⟩, he⟩ := hs.settled_of_announces hq
      have hg : (MoveStage.ofEvents (events pre)).isFlying = false := by rw [ho]; rfl
      refine ⟨?_, hs.still_of_act hg ha⟩
      rw [List.nil_append, events_cons, he]
      exact hg
  | cons e post ih =>
    obtain ⟨c₁, b⟩ := e
    obtain ⟨hbe, hb⟩ := begun_cons_eq_nil_iff.mp hb
    cases h with
    | act h ha =>
      obtain ⟨hg, hstep, hdir⟩ := ih h hb
      obtain ⟨hstep', hdir'⟩ := (sound_of_reaches h).still_of_act hg ha
      refine ⟨?_, hstep'.trans hstep, hdir'.trans hdir⟩
      rw [List.cons_append, events_cons, MoveStage.ofEvents_append]
      exact MoveStage.not_flying_after hg hbe

/-- **Abort and power-off stop a move within one pulse.** Whatever the clients, the stepper and the
hardware do, in whatever order: from a request to stop until another move begins no step is decided
on, and the step output rises once at most, for a step decided on before the request; from the
announcement of an end until another move begins the step output and the direction stay as they
are; and with the power off and no move to do, only switching the power on drives an output. -/
theorem stops_within_one_pulse (h : Reaches p rate t c) :
    (∀ post c₀ a pre, t = post ++ (c₀, a) :: pre → begun post = [] → c₀.asksToStop a →
      (∀ b up, .decided b (.step up) ∉ events post) ∧
        (risesOf post c).length ≤ c₀.drive.stepper.phase.pends.toNat) ∧
    (∀ post c₀ a pre, t = post ++ (c₀, a) :: pre → begun post = [] → c₀.announces a = true →
      c.drive.step = c₀.drive.step ∧ c.drive.axis.direction = c₀.drive.axis.direction) ∧
    (c.drive.axis.isOff = true → c.drive.moving = false → ∀ a c', c.act? a = some c' →
      a ≠ .powerOn → c'.drive.outputs = c.drive.outputs) := by
  refine ⟨?_, ?_, fun hoff hm a c' => outputs_of_act hoff hm⟩
  · rintro post c₀ a pre rfl hb hq
    obtain ⟨-, hd, hr⟩ := pending_after_request hq h hb
    exact ⟨hd, Nat.le_of_add_right_le hr⟩
  · rintro post c₀ a pre rfl hb hq
    exact (still_after_end hq h hb).2

/-- An abort is asked for between the decision to step and the step: the step is made and counted,
and the move ends. -/
def abortedMidStep : List Action :=
  List.flatten [
    decidedUp, [.abort], List.replicate 5 (.stepper .done),
    [.stepper (.cycles 7), .stepper (.ticked true)], List.replicate 5 (.stepper .done)]

theorem stops_within_one_pulse_abortedMidStep :
    ∃ d t c, Drive.ofPeriods .standard 1 = .ok d ∧
      play? act? [] ⟨d, []⟩ abortedMidStep = some (t, c) ∧
      MoveEvent.abortAsked ∈ events t ∧ risesOf t c = [true] ∧ c.drive.axis.outcome = .aborted ∧
      (∀ post c₀ a pre, t = post ++ (c₀, a) :: pre → begun post = [] → c₀.asksToStop a →
        (∀ b up, .decided b (.step up) ∉ events post) ∧
          (risesOf post c).length ≤ c₀.drive.stepper.phase.pends.toNat) ∧
      (∀ post c₀ a pre, t = post ++ (c₀, a) :: pre → begun post = [] → c₀.announces a = true →
        c.drive.step = c₀.drive.step ∧ c.drive.axis.direction = c₀.drive.axis.direction) ∧
      (c.drive.axis.isOff = true → c.drive.moving = false → ∀ a c', c.act? a = some c' →
        a ≠ .powerOn → c'.drive.outputs = c.drive.outputs) := by
  refine ⟨_, _, _, rfl, rfl, by decide, by decide, by decide, ?_⟩
  exact stops_within_one_pulse
    (of_play? (P := Reaches .standard 1) (fun _ _ _ _ => .act) abortedMidStep (.start rfl) rfl)

end Crowd

end Drive

end SwitchBench
