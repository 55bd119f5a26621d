import SwitchBench.Proofs.Drive.Calm

/-!
# How near a move is to its end

A move that nobody disturbs is taken further by the stepper and by the calls that pass on what
became of an order (`Crowd.advances`). How often that can happen until the move is over depends on
the way to go, ten turns of the stepper for each step, and on the stepper's next action
(`MoveStage.left`).

Results: `Sound.left_of_act` (whatever takes a move further brings it nearer to its end, and nothing
else takes it away from it), `Sound.exists_turn` (a move that is not over is taken further by
somebody), `Sound.ended_of_over` (one that is over has been settled).
-/

namespace SwitchBench

/-- Does a call pass on, as its next action, that a move begins or how it ended? -/
def MoveCall.passesOn : MoveCall → Bool
  | announcing (.began _) | announcing (.finished _) => true
  | _ => false

/-- How many turns of the stepper a move takes at most, from an action on and with a way to go. -/
def StepperPhase.left (way : Nat) : StepperPhase → Nat
  | waiting | ended => 0
  | woken => 10 * way + 9
  | loading => 10 * way + 8
  | starting _ => 10 * way + 7
  | pacing => 10 * way + 6
  | ticked => 10 * way + 5
  | deciding => 10 * way + 4
  | gauging _ => 10 * way + 3
  | resting _ _ => 10 * way + 2
  | raising _ => 10 * way + 1
  | advancing _ => 10 * way
  | holding _ => 10 * way + 9
  | lowering _ => 10 * way + 8
  | marking _ => 10 * way + 7
  | stopping _ => 3
  | reporting _ => 2
  | announcing => 1

namespace Drive

theorem pacing_of_demand {d : Drive} (h : d.demand = .tick) : d.stepper.phase = .pacing := by
  unfold demand at h
  split at h <;> first | assumption | cases h

/-- A stepper with a move to do or in hand asks for something, and has a use for an answer. -/
theorem exists_heeds {d : Drive} (hm : d.moving = true) (he : d.stepper.phase ≠ .ended) :
    ∃ r, d.heeds r = true ∧ r ≠ .ticked false := by
  cases hp : d.stepper.phase with
  | waiting =>
    refine ⟨.done, ?_, by simp⟩
    simpa [Drive.moving, heeds, demand, hp] using hm
  | pacing => exact ⟨.ticked true, by simp [heeds, demand, hp], by simp⟩
  | gauging _ | marking _ => exact ⟨.cycles 0, by simp [heeds, demand, hp], by simp⟩
  | ended => exact absurd hp he
  | _ => exact ⟨.done, by simp [heeds, demand, hp], by simp⟩

namespace Crowd

/-- Does an action take a move further? Either the stepper gets what it asks for, or a call passes
on what became of its order. -/
def advances (c : Crowd) : Action → Bool
  | .stepper r => c.drive.heeds r
  | .proceed i => c.calls[i]?.any MoveCall.passesOn
  | _ => false

/-- How often a move was taken further. -/
def turns (u : Trace) : Nat := u.countP fun e => e.1.advances e.2

/-- Is no move under way, from the taking up of its order to the announcement of its end? -/
def isOver (c : Crowd) : Bool := !c.drive.moving && !c.calls.any MoveCall.passesOn

end Crowd

/-- How often a move to a target is taken further at most until it is over. -/
def MoveStage.left (target : Int) (c : Crowd) (g : MoveStage) : Nat :=
  let way := (target - c.drive.axis.position).natAbs
  if c.drive.stepper.phase = .waiting then
    match g with
    | flying _ _ _ => 10 * way + 11 - c.drive.begin.count
    | settled _ => c.calls.countP MoveCall.passesOn
    | idle => 0
  else c.drive.stepper.phase.left way

namespace Crowd

/-- How a move to a target stands if nobody disturbs it: it is under way, or it has ended well. -/
inductive OnCourse (start target : Int) (u : Trace) (c : Crowd) : MoveStage → Prop
  | flying (hn : target ≠ start) : OnCourse start target u c (.flying target false false)
  | settled (ht : c.drive.axis.position = target) : OnCourse start target u c (.settled .ok)
  | idle (ht : c.drive.axis.position = target) (hc : .collected .ok ∈ events u) :
      OnCourse start target u c .idle

variable {g : MoveStage} {c c' : Crowd} {a : Action} {u : Trace} {start target : Int}

theorem turns_cons (c : Crowd) (a : Action) (u : Trace) :
    turns ((c, a) :: u) = turns u + (c.advances a).toNat := by
  unfold turns
  rw [List.countP_cons]
  cases c.advances a <;> rfl

/-! ## Moves that are over -/

theorem waiting_of_over (hover : c.isOver = true) :
    c.drive.stepper.phase = .waiting ∧ c.drive.begin.count = 0 ∧
      ∀ k ∈ c.calls, k.passesOn = false := by
  simp only [isOver, Bool.and_eq_true, Bool.not_eq_true', List.any_eq_false, Drive.moving,
    Bool.or_eq_false_iff, decide_eq_false_iff_not, not_not, Semaphore.ready, Nat.not_lt,
    Nat.le_zero] at hover
  exact ⟨hover.1.1, hover.1.2, fun k hk => eq_false_of_ne_true (hover.2 k hk)⟩

/-- A move that is over is not under way. If it has just been settled, then its outcome is there to
collect, or is being collected. -/
theorem Sound.ended_of_over (h : Sound g c) (hover : c.isOver = true) :
    g.isFlying = false ∧ ∀ o, g = .settled o → c.drive.axis.outcome = o ∧
      (c.drive.done.count = 1 ∨ .readingOutcome ∈ c.calls) := by
  obtain ⟨hwait, hbegin, hcalls⟩ := waiting_of_over hover
  have hone := h.permit
  rw [permits, hbegin, inHand, if_pos hwait] at hone
  by_cases hdone : c.drive.done.count = 1
  · have hg := h.ended hdone
    rw [hg]
    refine ⟨rfl, fun o ho => ⟨?_, .inl hdone⟩⟩
    cases ho
    rfl
  by_cases hfree : c.drive.available.count = 1
  · rw [h.free hfree]
    exact ⟨rfl, fun o ho => (by cases ho)⟩
  obtain ⟨k, hk, hholds⟩ : ∃ k ∈ c.calls, k.holds = true :=
    List.countP_pos_iff.mp (by omega)
  have hfits := h.calls k hk
  have hpass := hcalls k hk
  cases k with
  | takingPermit _ | takingEnd _ => cases hholds
  | launching _ | givingPermit _ =>
    rw [show g = .idle from hfits]
    exact ⟨rfl, fun o ho => (by cases ho)⟩
  | readingOutcome =>
    rw [show g = .settled _ from hfits]
    refine ⟨rfl, fun o ho => ⟨?_, .inr hk⟩⟩
    cases ho
    rfl
  | announcing l =>
    cases l with
    | began _ | finished _ => cases hpass
    | refused f =>
      rw [show g = .idle from hfits]
      exact ⟨rfl, fun o ho => (by cases ho)⟩

/-- A move that is not over is taken further by somebody. -/
theorem Sound.exists_turn (h : Sound g c) (hover : c.isOver = false) :
    ∃ a c', c.act? a = some c' ∧ c.disturbs a = false ∧ c.advances a = true := by
  by_cases hm : c.drive.moving = true
  · have hended : c.drive.stepper.phase ≠ .ended := fun h0 => by
      have hfits := h.stepper
      rw [h0] at hfits
      exact hfits
    obtain ⟨r, hr, hticks⟩ := exists_heeds hm hended
    have hasked : c.event? (.stepper r) ≠ some .abortAsked := by
      intro he
      simp only [event?] at he
      split at he <;> cases he
    have hfailed : c.event? (.stepper r) ≠ some .timerFailed := by
      intro he
      simp only [event?] at he
      split at he
      · cases he
      · exact hticks rfl
      · cases he
    exact ⟨.stepper r, _, rfl, by simp [disturbs, switches, hasked, hfailed], hr⟩
  · rw [isOver, eq_false_of_ne_true hm, Bool.not_false, Bool.true_and, Bool.not_eq_false',
      List.any_eq_true] at hover
    obtain ⟨k, hk, hpass⟩ := hover
    obtain ⟨i, hi⟩ := List.mem_iff_getElem?.mp hk
    cases k with
    | announcing l =>
      refine ⟨.proceed i, ⟨c.drive.announce l, putAt c.calls i none⟩, ?_, ?_, ?_⟩
      · simp [act?, hi, MoveCall.step?]
      · simp [disturbs, switches, event?, hi]
      · simpa [advances, hi] using hpass
    | _ => cases hpass

/-- With no move open, the stepper has nothing to do. -/
theorem Sound.idle (h : Sound .idle c) :
    c.drive.stepper.phase = .waiting ∧ c.drive.begin.count = 0 := by
  have hs := h.stepper
  constructor
  · cases hp : c.drive.stepper.phase with
    | waiting => rfl
    | _ =>
      rw [hp] at hs
      cases hs
  · have hone := h.permit
    unfold permits at hone
    refine Nat.eq_zero_of_not_pos fun hb => ?_
    cases h.begun (by omega)

/-- With no move open, nothing takes one further. -/
theorem Sound.not_advances_of_idle (h : Sound .idle c) (a : Action) : c.advances a = false := by
  obtain ⟨hw, hb⟩ := h.idle
  cases a with
  | stepper r =>
    cases r with
    | done => simp [advances, heeds, demand, hw, Semaphore.ready, hb]
    | ticked _ | cycles _ => simp [advances, heeds, demand, hw]
  | proceed i =>
    simp only [advances]
    cases hi : c.calls[i]? with
    | none => rfl
    | some k =>
      have hk := h.calls k (List.mem_of_getElem? hi)
      cases k with
      | announcing l => cases l <;> first | rfl | cases hk
      | _ => rfl
  | _ => rfl

/-! ## Turns of the stepper -/

theorem left_of_busy {q : StepperPhase} (hp : c.drive.stepper.phase = q) (hq : q ≠ .waiting)
    (g : MoveStage) (target : Int) :
    g.left target c = q.left (target - c.drive.axis.position).natAbs := by
  rw [← hp] at hq ⊢
  exact if_neg hq

theorem left_stepPhase_le (last : Option LastStep) (up : Bool) (way : Nat) :
    (stepPhase last up).left way ≤ 10 * way + 3 ∧ stepPhase last up ≠ .waiting := by
  unfold stepPhase
  split
  · split <;> simp [StepperPhase.left]
  · simp [StepperPhase.left]

theorem left_restPhase_le (d : Drive) (up : Bool) (n way : Nat) :
    (d.restPhase up n).left way ≤ 10 * way + 2 ∧ d.restPhase up n ≠ .waiting := by
  unfold restPhase
  simp only
  split <;> simp [StepperPhase.left]

/-- The stepper goes on with a move, and is nearer to its end. -/
theorem Sound.left_of_beat {target : Int} (h : Sound (.flying target false false) c)
    (hon : c.drive.axis.isOff = false)
    (hh : ∀ up, c.drive.stepper.phase = .advancing up → c.drive.axis.Heads up) {r : Reply}
    {d : Drive} (hb : c.drive.Beat r d) (hr : r ≠ .ticked false) :
    d.stepper.phase ≠ .waiting ∧
      d.stepper.phase.left (target - d.axis.position).natAbs
        < (MoveStage.flying target false false).left target c := by
  have hfits := h.stepper
  obtain ⟨htarget, hlost, -, -⟩ := h.agrees
  cases hb with
  | @wake b hp hb =>
    refine ⟨by simp, ?_⟩
    have h1 := Semaphore.count_of_take? hb
    have h2 := c.drive.begin.count_le
    rw [h.begin_limit] at h2
    simp only [MoveStage.left, hp, if_true, StepperPhase.left]
    omega
  | fail hp => exact absurd rfl hr
  | halt hp | report hp | tell hp =>
    rw [hp] at hfits
    cases hfits
  | finish hp hd =>
    rw [left_of_busy hp (by simp)]
    simp [StepperPhase.left]
  | aim hp hd =>
    obtain ⟨-, -, -, rfl⟩ := Axis.aim_of_decide hd
    obtain ⟨hle, hne⟩ := left_stepPhase_le c.drive.stepper.last _ _
    rw [left_of_busy hp (by simp)]
    exact ⟨hne, Nat.lt_of_le_of_lt hle (Nat.lt_succ_self _)⟩
  | gauge hp =>
    obtain ⟨hle, hne⟩ := left_restPhase_le c.drive _ _ _
    rw [left_of_busy hp (by simp)]
    exact ⟨hne, Nat.lt_of_le_of_lt hle (Nat.lt_succ_self _)⟩
  | @count up hp =>
    -- the one turn that makes the way shorter
    have hheads := hh up hp
    have hpos := Axis.position_advance c.drive.axis up
    rw [hon, hlost, Bool.or_false, if_neg Bool.false_ne_true] at hpos
    rw [left_of_busy hp (by simp)]
    refine ⟨by simp, ?_⟩
    simp only [StepperPhase.left, hpos]
    unfold Axis.Heads at hheads
    rw [htarget] at hheads
    cases up <;> simp only [Bool.false_eq_true, if_false, if_true] at hheads ⊢ <;> omega
  | enter hp | load hp | start hp | tick hp | look hp | rest hp | lift hp | hold hp | lower hp
    | mark hp =>
    rw [left_of_busy hp (by simp)]
    simp [StepperPhase.left, goto]

/-- Nobody passes on what became of an order while the stepper has a move in hand. -/
theorem Sound.countP_passesOn_le (h : Sound g c) :
    c.calls.countP MoveCall.passesOn + c.drive.inHand ≤ 1 := by
  have hle : c.calls.countP MoveCall.passesOn ≤ c.calls.countP MoveCall.holds := by
    refine List.countP_mono_left fun k _ hk => ?_
    cases k with
    | announcing l => rfl
    | _ => cases hk
  have hone := h.permit
  unfold permits at hone
  omega

/-- The stepper brings a move that is settled to its end. -/
theorem Sound.left_of_beat_settled {o : MoveOutcome} {target : Int} (h : Sound (.settled o) c)
    {r : Reply} {d : Drive} (hb : c.drive.Beat r d) :
    (MoveStage.settled o).left target ⟨d, c.calls⟩ < (MoveStage.settled o).left target c := by
  have hfits := h.stepper
  have hcalls := h.countP_passesOn_le
  cases hb with
  | wake hp hb =>
    have h1 := Semaphore.count_of_take? hb
    have h2 := h.permit
    unfold permits at h2
    cases h.begun (by omega)
  | halt hp | report hp =>
    rw [left_of_busy hp (by simp), left_of_busy rfl (by simp [goto])]
    exact Nat.lt_succ_self _
  | tell hp =>
    rw [inHand, if_neg (by rw [hp]; simp)] at hcalls
    rw [left_of_busy hp (by simp)]
    simp only [MoveStage.left, if_true, StepperPhase.left]
    omega
  | enter hp | load hp | start hp | tick hp | fail hp | look hp | finish hp _ | aim hp _ | gauge hp
    | rest hp | lift hp | count hp | hold hp | lower hp | mark hp =>
    rw [hp] at hfits
    cases hfits

/-! ## Turns of the clients -/

/-- What a client's action does to what has yet to be passed on. -/
theorem passing_of_act (ha : c.act? a = some c') (hs : ∀ r, a ≠ .stepper r)
    (ht : (c.event? a).bind MoveEvent.taken? = none) :
    c.advances a = false ∧ c'.drive.begin = c.drive.begin ∧
        c'.calls.countP MoveCall.passesOn ≤ c.calls.countP MoveCall.passesOn ∨
      c.advances a = true ∧ ∃ i l, a = .proceed i ∧ c.calls[i]? = some (.announcing l) ∧
        (MoveCall.announcing l).passesOn = true ∧
          c' = ⟨c.drive.announce l, putAt c.calls i none⟩ := by
  cases a with
  | stepper r => exact absurd rfl (hs r)
  | powerOn | powerOff | abort | locate =>
    cases ha
    exact .inl ⟨rfl, rfl, Nat.le_refl _⟩
  | enter k =>
    obtain ⟨hk, rfl⟩ := enter_of_act ha
    refine .inl ⟨rfl, rfl, ?_⟩
    have hn : k.passesOn = false := by
      cases k with
      | announcing l => cases hk
      | _ => rfl
    rw [List.countP_append, List.countP_singleton, hn]
    exact Nat.le_refl _
  | giveUp i =>
    obtain ⟨q, hi, -, rfl⟩ := giveUp_of_act ha
    have hc := countP_putAt hi MoveCall.passesOn none
    refine .inl ⟨rfl, rfl, ?_⟩
    simp only [List.countP_nil, Option.toList_none] at hc
    simp only
    omega
  | proceed i =>
    obtain ⟨k, d, next, hi, hs, rfl⟩ := proceed_of_act ha
    have hc := countP_putAt hi MoveCall.passesOn next
    have hadv : c.advances (.proceed i) = k.passesOn := by simp [advances, hi]
    simp only [event?, hi] at ht
    cases k with
    | takingPermit o =>
      simp only [MoveCall.step?, takePermit?, Option.map_map, Option.map_eq_some_iff] at hs
      obtain ⟨s, -, he⟩ := hs
      cases he
      exact .inl ⟨hadv, rfl, Nat.le_of_eq hc⟩
    | takingEnd q =>
      simp only [MoveCall.step?, takeDone?, Option.map_map, Option.map_eq_some_iff] at hs
      obtain ⟨s, -, he⟩ := hs
      cases he
      exact .inl ⟨hadv, rfl, Nat.le_of_eq hc⟩
    | readingOutcome | givingPermit o =>
      cases hs
      exact .inl ⟨hadv, rfl, Nat.le_of_eq hc⟩
    | launching o =>
      cases hs
      have hn : (MoveCall.announcing (c.drive.launch o).2).passesOn = false := by
        cases hl : (c.drive.launch o).2 with
        | refused f => rfl
        | began t | finished r =>
          simp only [hl] at ht
          cases ht
      refine .inl ⟨hadv, rfl, Nat.le_of_eq ?_⟩
      rw [Option.toList_some, List.countP_singleton, hn] at hc
      exact hc
    | announcing l =>
      cases hs
      cases l with
      | refused f => exact .inl ⟨hadv, rfl, Nat.le_of_eq hc⟩
      | began t | finished r => exact .inr ⟨hadv, i, _, rfl, hi, rfl, rfl⟩

/-- Passing on what became of an order is a turn of its own. -/
theorem Sound.left_of_announce (h : Sound g c) (hc : OnCourse start target u c g) {i : Nat}
    {l : Launch} (hi : c.calls[i]? = some (.announcing l))
    (hl : (MoveCall.announcing l).passesOn = true) :
    g.left target ⟨c.drive.announce l, putAt c.calls i none⟩ + 1 ≤ g.left target c := by
  obtain ⟨-, -, hbegin, hwait, -⟩ := h.only hi rfl
  have hfits := h.calls _ (List.mem_of_getElem? hi)
  cases l with
  | refused f => cases hl
  | began t =>
    have hgive := Semaphore.count_give_of_empty hbegin
    cases hc with
    | flying hn =>
      simp only [MoveStage.left, announce, hwait, if_true, hgive, hbegin]
      omega
    | settled _ | idle _ _ => cases hfits
  | finished o =>
    have hcount := countP_putAt hi MoveCall.passesOn none
    cases hc with
    | settled _ =>
      simp only [MoveStage.left, announce, hwait, if_true]
      simp only [hl, Bool.toNat_true, Option.toList_none, List.countP_nil] at hcount
      omega
    | flying _ | idle _ _ => cases hfits

/-! ## Every action -/

/-- **Whatever takes a move further brings it nearer to its end, and nothing else takes it away
from it.** -/
theorem Sound.left_of_act (h : Sound g c) (hc : OnCourse start target u c g)
    (hon : c.drive.axis.isOff = false)
    (hh : ∀ up, c.drive.stepper.phase = .advancing up → c.drive.axis.Heads up)
    (hd : c.disturbs a = false) (ha : c.act? a = some c')
    (ht : (c.event? a).bind MoveEvent.taken? = none) :
    (g.after (c.event? a)).left target c' + (c.advances a).toNat ≤ g.left target c := by
  have hev := h.calmEvent hd ht
  by_cases hs : ∃ r, a = .stepper r
  · obtain ⟨r, rfl⟩ := hs
    cases ha
    cases hr : c.drive.heeds r with
    | false =>
      rw [advances, hr, resume_of_not_heeds hr]
      generalize c.event? (.stepper r) = e at hev ⊢
      cases hev with
      | none => exact Nat.le_refl _
      | decided hp hg => simp [heeds, demand, hp] at hr
    | true =>
      have hb := beat_resume h.running hr
      rw [advances, hr, Bool.toNat_true]
      cases hc with
      | flying hn =>
        have hticks : r ≠ .ticked false := by
          rintro rfl
          have hp := pacing_of_demand (of_decide_eq_true hr)
          exact (event_of_calm hd).2.2 (by simp only [event?, hp])
        obtain ⟨hp, hlt⟩ := h.left_of_beat hon hh hb hticks
        rw [left_of_busy rfl hp]
        exact hlt
      | settled htarget =>
        generalize c.event? (.stepper r) = e at hev ⊢
        cases hev with
        | none => exact h.left_of_beat_settled hb
        | decided hp hg => cases hg
      | idle htarget hcoll => cases hr.symm.trans (h.not_advances_of_idle (.stepper r))
  · have hs : ∀ r, a ≠ .stepper r := fun r h0 => hs ⟨r, h0⟩
    have hx := samePlace_of_client ha hs (switches_of_calm hd) ht
    have hp := (aside_of_act ha hs).stepper
    rcases passing_of_act ha hs ht with ⟨hadv, hb, hcount⟩ | ⟨hadv, i, l, rfl, hi, hl, rfl⟩
    · rw [hadv, Bool.toNat_false, Nat.add_zero]
      simp only [MoveStage.left, hp, hx.position, hb]
      split
      · -- the stepper waits, so that the stage tells what is left
        generalize c.event? a = e at hev ⊢
        cases hev with
        | none =>
          cases hc with
          | flying _ | idle _ _ => exact Nat.le_refl _
          | settled _ => exact hcount
        | decided _ _ => exact absurd rfl (hs _)
        | collected hg =>
          rw [hg]
          exact Nat.zero_le _
        | refused hg =>
          rw [hg]
          exact Nat.zero_le _
      · exact Nat.le_refl _
    · have he : c.event? (.proceed i) = none := by simp only [event?, hi]
      rw [hadv, he]
      exact h.left_of_announce hc hi hl

end Crowd

end Drive

end SwitchBench
