import SwitchBench.Proofs.Drive.Stride

/-!
# Where the position may be

The leg of a drive is the stretch that its position may be on: from the start of the move taken up
last to its target, or the origin alone if the power was switched since. `Crowd.legOf` reads it off
the actions so far. A step is decided on in one action and counted in another, so the invariant
`Crowd.OnLeg` says which way a step leads that is not counted yet, and that the leg of a move under
way ends where the drive is to go, unless the move has lost its power.

Results: `OnLeg.act` (one action keeps the invariant), `position_on_leg` (the position is on its
leg, goes towards the end of it, and is never invalid).
-/

namespace SwitchBench

/-- The stretch of a move, from where it starts to where it is to go. -/
structure Leg where
  start : Int
  target : Int
  deriving DecidableEq, Repr

namespace Leg

/-- The place where the plunger is when the power is switched. -/
def origin : Leg := ⟨0, 0⟩

/-- The leg of a drive that stays where it is. -/
def here (p : Int) : Leg := ⟨p, p⟩

/-- Is a position between start and target, both included? -/
def Covers (l : Leg) (p : Int) : Prop :=
  l.start ≤ p ∧ p ≤ l.target ∨ l.target ≤ p ∧ p ≤ l.start

/-- Does one step towards the target lead from a position to another one? -/
def Nears (l : Leg) (p q : Int) : Prop :=
  p < l.target ∧ q = p + 1 ∨ l.target < p ∧ q = p - 1

theorem covers_here (p : Int) : (here p).Covers p := .inl ⟨Int.le_refl p, Int.le_refl p⟩

theorem covers_start (l : Leg) : l.Covers l.start := by
  rcases Int.le_total l.start l.target with h | h
  · exact .inl ⟨Int.le_refl _, h⟩
  · exact .inr ⟨h, Int.le_refl _⟩

theorem eq_of_covers_here {p q : Int} (h : (here p).Covers q) : q = p := by
  simp only [Covers, here] at h
  omega

/-- A step towards the target stays on the leg. -/
theorem Covers.nears {l : Leg} {p q : Int} (h : l.Covers p) (hn : l.Nears p q) : l.Covers q := by
  unfold Covers Nears at *
  omega

/-- A leg between two positions has positions only. -/
theorem Covers.valid {l : Leg} {p : Int} (h : l.Covers p) (hs : Position.Valid l.start)
    (ht : Position.Valid l.target) : Position.Valid p := by
  unfold Covers at h
  unfold Position.Valid at *
  omega

end Leg

/-- Does a call start a move only by an order that the drive admits? -/
def MoveCall.WellAimed : MoveCall → Prop
  | takingPermit o | launching o => (Drive.admits o).isOk = true
  | _ => True

/-- An admitted order leads to a position, if it leads anywhere. -/
theorem Axis.valid_of_destination? {a : Axis} {o : MoveOrder} {t : Int}
    (ho : (Drive.admits o).isOk = true) (h : a.destination? o = some t) : Position.Valid t := by
  unfold destination? at h
  split at h
  · split at h <;> cases h
    assumption
  · rename_i hrel
    cases h
    unfold Drive.admits at ho
    split at ho
    · rename_i hadm
      exact hadm.resolve_left hrel
    · cases ho

namespace Drive

/-- A move that is under way and never lost its power was so before, unless it has just begun. -/
theorem MoveStage.flying_of_after {g : MoveStage} {e : Option MoveEvent} {t : Int} {k : Bool}
    (h : g.after e = .flying t false k) (he : ∀ b o t, e ≠ some (.launched b o (.began t))) :
    (∃ k', g = .flying t false k') ∧ ∀ b o r, e ≠ some (.launched b o (.finished r)) := by
  cases e with
  | none => exact ⟨⟨k, h⟩, fun b o r h0 => Option.some_ne_none _ h0.symm⟩
  | some e =>
    refine ⟨?_, fun b o r h0 => ?_⟩
    · cases e with
      | launched b o l =>
        cases l with
        | began u => exact (he b o u rfl).elim
        | finished r => cases h
        | refused f => cases g <;> cases h; exact ⟨_, rfl⟩
      | decided b d => cases g <;> cases d <;> cases h; exact ⟨_, rfl⟩
      | timerFailed | powerLost | abortAsked => cases g <;> cases h; try exact ⟨_, rfl⟩
      | collected r => cases h
    · cases h0
      cases h

namespace Crowd

/-- The leg that an action starts, if it starts one. -/
def leg? (c : Crowd) (a : Action) : Option Leg :=
  if c.switches a then some .origin
  else match c.event? a with
    | some (.launched b _ (.began t)) => some ⟨b.position, t⟩
    | some (.launched b _ (.finished _)) => some (.here b.position)
    | _ => none

/-- The leg of a drive after the actions so far. -/
def legOf : Trace → Leg
  | [] => .origin
  | (c, a) :: t => (c.leg? a).getD (legOf t)

/-- Does the action begin a move? -/
def begins (c : Crowd) (a : Action) : Bool :=
  match c.event? a with
  | some (.launched _ _ (.began _)) => true
  | _ => false

/-- Has no move begun since the power was last switched? -/
def atOrigin : Trace → Bool
  | [] => true
  | (c, a) :: t => c.switches a || (!c.begins a && atOrigin t)

/-- The position is on a leg, and so is every step that is decided on. -/
structure OnLeg (g : MoveStage) (l : Leg) (c : Crowd) : Prop where
  start : Position.Valid l.start
  target : Position.Valid l.target
  covers : l.Covers c.drive.axis.position
  bound : ∀ t k, g = .flying t false k → l.target = t
  heads : ∀ up, c.drive.stepper.phase.gait.aim = some up → c.drive.axis.powerLost = false →
    c.drive.axis.Heads up
  orders : ∀ k ∈ c.calls, k.WellAimed

variable {g : MoveStage} {l : Leg} {c c' : Crowd} {a : Action}

theorem OnLeg.valid (h : OnLeg g l c) : Position.Valid c.drive.axis.position :=
  h.covers.valid h.start h.target

/-- An action that neither switches the power nor begins a move starts no leg but where it is. -/
theorem leg?_cases (hw : c.switches a = false)
    (he : ∀ b o t, c.event? a ≠ some (.launched b o (.began t))) :
    c.leg? a = none ∨ c.leg? a = some (.here c.drive.axis.position) ∧
      ∃ b o r, c.event? a = some (.launched b o (.finished r)) := by
  unfold leg?
  rw [hw, if_neg Bool.false_ne_true]
  split
  · rename_i b o t hev
    exact absurd hev (he b o t)
  · rename_i b o r hev
    refine .inr ⟨?_, b, o, r, hev⟩
    have hb : b = c.drive.axis := by
      cases a with
      | stepper r =>
        simp only [event?] at hev
        split at hev <;> cases hev
      | powerOff | abort =>
        simp only [event?, Option.ite_none_right_eq_some] at hev
        cases hev.2
      | proceed i =>
        simp only [event?] at hev
        split at hev
        · rw [Option.some.injEq, MoveEvent.launched.injEq] at hev
          exact hev.1.symm
        · cases hev
        · cases hev
      | powerOn | locate | enter k | giveUp i => cases hev
    rw [hb]
  · exact .inl rfl

/-- Nobody comes to give an order that the drive does not admit. -/
theorem wellAimed_of_act (h : ∀ k ∈ c.calls, k.WellAimed) (ha : c.act? a = some c') :
    ∀ k ∈ c'.calls, k.WellAimed := by
  cases a with
  | stepper _ | powerOn | powerOff | abort | locate =>
    cases ha
    exact h
  | enter k =>
    obtain ⟨hk, rfl⟩ := enter_of_act ha
    intro k' hk'
    rcases List.mem_append.mp hk' with hk' | hk'
    · exact h k' hk'
    · rw [List.mem_singleton.mp hk']
      cases k with
      | takingPermit o => exact hk
      | takingEnd p => trivial
      | _ => cases hk
  | proceed i =>
    obtain ⟨k, d, next, hi, hs, rfl⟩ := proceed_of_act ha
    intro k' hk'
    rcases mem_putAt hk' with hk' | rfl
    · exact h k' hk'
    · have hk := h k (List.mem_of_getElem? hi)
      cases k with
      | takingPermit o =>
        simp only [MoveCall.step?, Option.map_eq_some_iff] at hs
        obtain ⟨_, -, hs⟩ := hs
        cases hs
        exact hk
      | takingEnd p =>
        simp only [MoveCall.step?, Option.map_eq_some_iff] at hs
        obtain ⟨_, -, hs⟩ := hs
        cases hs
        trivial
      | launching o | readingOutcome =>
        cases hs
        trivial
      | announcing o | givingPermit o => cases hs
  | giveUp i =>
    obtain ⟨_, -, -, rfl⟩ := giveUp_of_act ha
    intro k' hk'
    rcases mem_putAt hk' with hk' | hk'
    · exact h k' hk'
    · cases hk'

/-! ## One action -/

/-- A step that is counted leads towards the end of the leg. -/
theorem OnLeg.nears (h : OnLeg g l c) (hs : Sound g c) {up : Bool}
    (hp : c.drive.stepper.phase = .advancing up) :
    (c.drive.axis.advance up).position = c.drive.axis.position ∨
      l.Nears c.drive.axis.position (c.drive.axis.advance up).position := by
  rw [Axis.position_advance]
  split
  · exact .inl rfl
  rename_i hlost
  rw [Bool.or_eq_true, not_or] at hlost
  have hl : c.drive.axis.powerLost = false := eq_false_of_ne_true hlost.2
  have hfits := hs.stepper
  rw [hp] at hfits
  cases g with
  | idle | settled o => cases hfits
  | flying t lost asked =>
    obtain ⟨ht, hl', -, -⟩ := hs.agrees
    have hbound := h.bound t asked (by rw [← hl', hl])
    have hheads := h.heads up (by rw [hp]; rfl) hl
    refine .inr ?_
    unfold Axis.Heads at hheads
    unfold Leg.Nears
    cases up <;> simp at hheads ⊢ <;> omega

theorem OnLeg.stepper (h : OnLeg g l c) (hs : Sound g c) (r : Reply) :
    OnLeg (g.after (c.event? (.stepper r))) l { c with drive := c.drive.resume r } := by
  have hbound : ∀ t k, g.after (c.event? (.stepper r)) = .flying t false k → l.target = t := by
    intro t k hg
    have hev : ∀ b o t, c.event? (.stepper r) ≠ some (.launched b o (.began t)) := by
      intro b o t h0
      simp only [event?] at h0
      split at h0 <;> cases h0
    obtain ⟨⟨k', hg⟩, -⟩ := MoveStage.flying_of_after hg hev
    exact h.bound t k' hg
  have hd := stride_resume c.drive r
  generalize c.drive.resume r = d at hd ⊢
  cases hd with
  | still hgait _ ha =>
    refine ⟨h.start, h.target, ?_, hbound, fun up hup hl => ?_, h.orders⟩
    · simp only [ha.position]
      exact h.covers
    · simp only [ha.powerLost, hgait] at hup hl
      have := h.heads up hup hl
      unfold Axis.Heads at this ⊢
      simpa only [ha.target, ha.position] using this
  | @aim up p hp hon hl hh hn =>
    refine ⟨h.start, h.target, h.covers, hbound, fun up' hup _ => ?_, h.orders⟩
    simp only [hn, Option.some.injEq] at hup
    subst hup
    exact hh
  | @lift up hp =>
    refine ⟨h.start, h.target, h.covers, hbound, fun up' hup hl => ?_, h.orders⟩
    exact h.heads up' (by rw [hp]; exact hup) hl
  | @count up hp =>
    refine ⟨h.start, h.target, ?_, hbound, fun up' hup _ => ?_, h.orders⟩
    · rcases h.nears hs hp with hn | hn
      · simp only [hn]
        exact h.covers
      · exact h.covers.nears hn
    · cases hup
  | lower hp =>
    exact ⟨h.start, h.target, h.covers, hbound, fun up' hup _ => (by cases hup), h.orders⟩

/-- **One action of anybody keeps the position on its leg.** -/
theorem OnLeg.act (h : OnLeg g l c) (hs : Sound g c) (ha : c.act? a = some c') :
    OnLeg (g.after (c.event? a)) ((c.leg? a).getD l) c' := by
  have horders := wellAimed_of_act h.orders ha
  cases effect_of_act ha with
  | stepper r =>
    have hleg : c.leg? (.stepper r) = none := by
      simp only [leg?, switches, Bool.false_eq_true, if_false, event?]
      split
      · rename_i hev
        split at hev <;> cases hev
      · rename_i hev
        split at hev <;> cases hev
      · rfl
    rw [hleg]
    exact h.stepper hs r
  | powerOn hoff hw =>
    simp only [leg?, hw, if_true]
    refine ⟨Position.valid_zero, Position.valid_zero, Leg.covers_start _, fun t k hg => ?_,
      fun up hup hl => ?_, horders⟩
    · have hg : g = .flying t false k := hg
      subst hg
      cases hs.agrees.2.2.2 hoff
    · exact absurd ((hs.powerLost_of_aim hup hoff).symm.trans hl) (by simp)
  | powerOff hon hw =>
    simp only [leg?, hw, if_true]
    refine ⟨Position.valid_zero, Position.valid_zero, Leg.covers_start _, fun t k hg => ?_,
      fun up hup hl => (by cases hl), horders⟩
    have hev : c.event? .powerOff = some .powerLost := by
      have hw : c.drive.powerOff.2 = true := hw
      simp only [event?, hw, if_true]
    rw [hev] at hg
    cases g <;> cases hg
  | @begin i o t calls hi hon hd he =>
    obtain ⟨-, -, -, hwait, -⟩ := hs.only hi rfl
    have hleg : c.leg? (.proceed i) = some ⟨c.drive.axis.position, t⟩ := by
      simp only [leg?, switches, Bool.false_eq_true, if_false, he]
    rw [hleg, he]
    have hopen := h.orders _ (List.mem_of_getElem? hi)
    refine ⟨h.valid, Axis.valid_of_destination? hopen hd, Leg.covers_start _, fun u k hg => ?_,
      fun up hup _ => ?_, horders⟩
    · cases hg
      rfl
    · simp only [hwait] at hup
      cases hup
  | other hx _ hp hw he =>
    have hheads : ∀ up, c'.drive.stepper.phase.gait.aim = some up →
        c'.drive.axis.powerLost = false → c'.drive.axis.Heads up := by
      intro up hup hl
      rw [hp] at hup
      rw [hx.powerLost] at hl
      have := h.heads up hup hl
      unfold Axis.Heads at this ⊢
      simpa only [hx.target, hx.position] using this
    rcases leg?_cases hw he with hleg | ⟨hleg, b, o, r, hev⟩ <;> rw [hleg]
    · refine ⟨h.start, h.target, ?_, fun t k hg => ?_, hheads, horders⟩
      · simp only [hx.position]
        exact h.covers
      · obtain ⟨⟨k', hg⟩, -⟩ := MoveStage.flying_of_after hg he
        exact h.bound t k' hg
    · refine ⟨h.valid, h.valid, ?_, fun t k hg => ?_, hheads, horders⟩
      · simp only [hx.position]
        exact Leg.covers_here _
      · obtain ⟨-, hne⟩ := MoveStage.flying_of_after hg he
        exact absurd hev (hne b o r)

/-! ## Every run -/

variable {p : StepPeriods} {rate : Nat} {t : Trace}

theorem onLeg_of_reaches (h : Reaches p rate t c) :
    OnLeg (MoveStage.ofEvents (events t)) (legOf t) c := by
  induction h with
  | @start d h =>
    have hd : d.axis = .initial ∧ d.stepper.phase = .waiting := by
      unfold Drive.ofPeriods at h
      cases hv : p.validate <;> rw [hv] at h <;> cases h
      exact ⟨rfl, rfl⟩
    refine ⟨Position.valid_zero, Position.valid_zero, ?_, nofun, fun up hup _ => ?_, nofun⟩
    · simp only [hd.1]
      exact Leg.covers_start _
    · simp only [hd.2] at hup
      cases hup
  | act h ha ih =>
    rw [events_cons, MoveStage.ofEvents_append]
    exact ih.act (sound_of_reaches h) ha

/-- With no move begun since the power was switched, the leg is the origin. -/
theorem legOf_of_atOrigin (h : Reaches p rate t c) (ho : atOrigin t = true) :
    legOf t = .origin := by
  induction h with
  | start _ => rfl
  | @act t c c' a h ha ih =>
    rw [atOrigin, Bool.or_eq_true] at ho
    rw [legOf]
    rcases ho with hw | ho
    · rw [leg?, if_pos hw]
      rfl
    · rw [Bool.and_eq_true, Bool.not_eq_true'] at ho
      obtain ⟨hb, ho⟩ := ho
      cases hw : c.switches a with
      | true =>
        rw [leg?, if_pos hw]
        rfl
      | false =>
        have hnot : ∀ b o t, c.event? a ≠ some (.launched b o (.began t)) := by
          intro b o t hev
          rw [begins, hev] at hb
          cases hb
        have hhere := (onLeg_of_reaches h).covers
        rw [ih ho] at hhere
        rcases leg?_cases hw hnot with hleg | ⟨hleg, -⟩ <;> rw [hleg]
        · exact ih ho
        · rw [Option.getD_some, Leg.eq_of_covers_here (p := 0) hhere]
          rfl

/-- An action that does not switch the power moves the position by one step at most, towards the
end of its leg. -/
theorem nears_of_act (h : Reaches p rate t c) (ha : c.act? a = some c')
    (hw : c.switches a = false) :
    c'.drive.axis.position = c.drive.axis.position ∨
      (legOf t).Nears c.drive.axis.position c'.drive.axis.position := by
  cases effect_of_act ha with
  | stepper r =>
    have hd := stride_resume c.drive r
    generalize c.drive.resume r = d at hd ⊢
    cases hd with
    | still _ _ ha => exact .inl ha.position
    | aim _ _ _ _ _ | lift _ | lower _ => exact .inl rfl
    | count hp => exact (onLeg_of_reaches h).nears (sound_of_reaches h) hp
  | powerOn _ hs | powerOff _ hs => exact absurd (hs.symm.trans hw) (by simp)
  | begin _ _ _ _ => exact .inl rfl
  | other ha _ _ _ _ => exact .inl ha.position

/-- **The position is between the start and the target of the move, and never invalid.** Whatever
the clients, the stepper and the hardware do, in whatever order: a position is reported exactly
with the power on, and it is a valid one; it lies between the start and the target of the move
taken up last and comes nearer to the target by single steps; from a switch of the power until a
move begins it is zero; and counting a step does not leave the range. -/
theorem position_on_leg (h : Reaches p rate t c) :
    (c.drive.locate = Position.nowhere ↔ c.drive.axis.disable.level = true) ∧
    (c.drive.axis.disable.level = false →
      c.drive.locate = c.drive.axis.position ∧ Position.Valid c.drive.locate) ∧
    (legOf t).Covers c.drive.axis.position ∧
    (∀ a c', c.act? a = some c' → c.switches a = false →
      c'.drive.axis.position = c.drive.axis.position ∨
        (legOf t).Nears c.drive.axis.position c'.drive.axis.position) ∧
    (atOrigin t = true → c.drive.axis.position = 0) ∧
    (∀ up, c.drive.stepper.phase = .advancing up →
      Position.Valid (c.drive.axis.advance up).position) := by
  have hleg := onLeg_of_reaches h
  have hne : c.drive.axis.position ≠ Position.nowhere := by
    intro h0
    exact Position.not_valid_nowhere (h0 ▸ hleg.valid)
  refine ⟨?_, fun hon => ?_, hleg.covers, fun a c' ha hw => nears_of_act h ha hw,
    fun ho => ?_, fun up hp => ?_⟩
  · unfold Drive.locate Axis.locate Axis.isOff
    split
    · simp [*]
    · simp [*]
  · have hl : c.drive.locate = c.drive.axis.position := by
      unfold Drive.locate Axis.locate Axis.isOff
      rw [hon, if_neg Bool.false_ne_true]
    rw [hl]
    exact ⟨rfl, hleg.valid⟩
  · have := hleg.covers
    rw [legOf_of_atOrigin h ho] at this
    exact Leg.eq_of_covers_here (p := 0) this
  · rcases hleg.nears (sound_of_reaches h) hp with hn | hn
    · rw [hn]
      exact hleg.valid
    · exact (hleg.covers.nears hn).valid hleg.start hleg.target

/-- A move by one step up is begun, and the stepper has decided to step. -/
def decidedUp : List Action :=
  List.flatten [
    [.powerOn, .enter (.takingPermit ⟨false, -1, .fastest⟩), .proceed 0, .proceed 0, .proceed 0],
    List.replicate 4 (.stepper .done), [.stepper (.ticked true)],
    List.replicate 2 (.stepper .done)]

/-- The power is switched off and on again between the decision to step and the step: the stepper
goes on, and is about to count its step. -/
def cycledMidStep : List Action := decidedUp ++ [.powerOff, .powerOn, .stepper .done]

theorem position_on_leg_cycledMidStep :
    ∃ d t c, Drive.ofPeriods .standard 1 = .ok d ∧
      play? act? [] ⟨d, []⟩ cycledMidStep = some (t, c) ∧
      c.drive.stepper.phase = .advancing true ∧ atOrigin t = true ∧
      (c.drive.locate = Position.nowhere ↔ c.drive.axis.disable.level = true) ∧
      (c.drive.axis.disable.level = false →
        c.drive.locate = c.drive.axis.position ∧ Position.Valid c.drive.locate) ∧
      (legOf t).Covers c.drive.axis.position ∧
      (∀ a c', c.act? a = some c' → c.switches a = false →
        c'.drive.axis.position = c.drive.axis.position ∨
          (legOf t).Nears c.drive.axis.position c'.drive.axis.position) ∧
      (atOrigin t = true → c.drive.axis.position = 0) ∧
      (∀ up, c.drive.stepper.phase = .advancing up →
        Position.Valid (c.drive.axis.advance up).position) := by
  refine ⟨_, _, _, rfl, rfl, rfl, rfl, ?_⟩
  exact position_on_leg
    (of_play? (P := Reaches .standard 1) (fun _ _ _ _ => .act) cycledMidStep (.start rfl) rfl)

end Crowd

end Drive

end SwitchBench
