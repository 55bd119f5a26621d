import Mathlib.Data.List.Basic
import SwitchBench.Hardware.KeySwitch

/-!
# The key switch and its eager reference

A change of the drive's power is only noted by the switch: what it reports, and what its next
powered step does, depends on the note. The reference has no such note. It knows the impulses that
the switch got, newest first, and finds the plunger by going through the steps since the last
change of power (`plungerAt`). A step crosses if the switch is pressed on one side of it only
(`crosses`).

The reference says of the edges of a transition which edge comes at which place: on a level wiring
they alternate, begin with the edge to the new level and are odd in number, so that they end with
it; on a pulse wiring each pulse is a rising edge and a falling one.

Results: `step_eq` (a powered step sees the plunger where the switch reports it),
`channelEdges_eq` (what a transition sends), `Tracks.after` (what the switch reports, and when it
sends edges).
-/

namespace SwitchBench

/-- The edge that leads to a level. -/
def Edge.toLevel (high : Bool) : Edge := if high then .rising else .falling

namespace KeySwitch

/-! ## Edges -/

theorem pairs_succ (n : Nat) (a b : Edge) : pairs (n + 1) a b = a :: b :: pairs n a b := rfl

/-- In a row of pairs the first edges of the pairs are at the even places. -/
theorem pairs_eq (n : Nat) (a b : Edge) :
    pairs n a b = (List.range (2 * n)).map fun i => if i % 2 = 0 then a else b := by
  induction n with
  | zero => rfl
  | succ n ih =>
    have htwo : List.range (2 * (n + 1)) = 0 :: 1 :: (List.range (2 * n)).map (· + 2) := by
      rw [show 2 * (n + 1) = 2 * n + 1 + 1 from rfl, List.range_succ_eq_map, List.range_succ_eq_map,
        List.map_cons, List.map_map]
      rfl
    rw [pairs_succ, ih, htwo, List.map_cons, List.map_cons, List.map_map]
    simp [Function.comp_def]

/-- The edges of a transition on a channel, each by its place. -/
def edgesByPlace (bounceEdges : Nat) (pressed : Bool) : Wiring → List Edge
  | .level => (List.range (2 * bounceEdges + 1)).map fun i =>
      if i % 2 = 0 then .toLevel pressed else .toLevel !pressed
  | .pulse => (List.range (2 * (bounceEdges + 1))).map fun i =>
      if i % 2 = 0 then .rising else .falling
  | .disconnected => []

/-- On a level wiring the last edge leads to the new level. -/
theorem getLast?_edgesByPlace_level (n : Nat) (pressed : Bool) :
    (edgesByPlace n pressed .level).getLast? = some (.toLevel pressed) := by
  rw [edgesByPlace, List.range_succ, List.map_append, List.map_singleton, List.getLast?_concat,
    Nat.mul_mod_right, if_pos rfl]

/-- **What a transition sends to a channel.** -/
theorem channelEdges_eq (n : Nat) (pressed : Bool) (w : Wiring) :
    channelEdges n pressed w = edgesByPlace n pressed w := by
  cases w with
  | level =>
    have hlevel : channelEdges n pressed .level =
        .toLevel pressed :: pairs n (.toLevel !pressed) (.toLevel pressed) := by
      cases pressed <;> rfl
    rw [hlevel, pairs_eq, edgesByPlace, List.range_succ_eq_map, List.map_cons, List.map_map]
    congr 1
    refine List.map_congr_left fun i _ => ?_
    have hmod : i % 2 = 0 ∨ i % 2 = 1 := Nat.mod_two_eq_zero_or_one i
    rcases hmod with h | h <;> simp [h, Nat.add_mod]
  | pulse => exact pairs_eq _ _ _
  | disconnected => rfl

/-! ## The reference -/

/-- What moves the plunger, or the origin of its positions. -/
inductive Impulse where
  /-- The drive's power changes. -/
  | power
  /-- A powered step. -/
  | step (up : Bool)
  deriving DecidableEq, Repr

/-- The switch after an impulse, and the edges it sends. -/
def after (k : KeySwitch) : Impulse → KeySwitch × List (Channel × Edge)
  | .power => (k.powerChanged, [])
  | .step up => k.step up

/-- The steps since the last change of power, newest first. -/
def strokes : List Impulse → List Bool
  | .step up :: h => up :: strokes h
  | _ => []

/-- Where the plunger is after some impulses, newest first. -/
def plungerAt (h : List Impulse) : Int := (strokes h).foldr (fun up p => Position.nudge p up) 0

/-- Is a switch pressed after some impulses? -/
def pressedAfter (actuation : Int) (h : List Impulse) : Bool := pressedAt actuation (plungerAt h)

/-- Is an impulse a step that presses or releases the switch? -/
def crosses (actuation : Int) (h : List Impulse) : Impulse → Bool
  | .power => false
  | .step up => pressedAfter actuation (.step up :: h) != pressedAfter actuation h

/-- How many of the steps pressed or released the switch. -/
def crossings (actuation : Int) : List Impulse → Nat
  | [] => 0
  | e :: h => crossings actuation h + (crosses actuation h e).toNat

/-! ## The switch and the reference -/

variable {k : KeySwitch} {h : List Impulse}

/-- **A powered step finds the plunger and the switch as they are reported.** -/
theorem step_eq (k : KeySwitch) (up : Bool) :
    k.step up =
      let pressed := pressedAt k.actuation (Position.nudge k.position up)
      ({ k with
          plunger := Position.nudge k.position up
          down := pressed
          originMoved := false
          transitions := k.transitions + (pressed != k.pressed).toNat },
        if pressed = k.pressed then [] else k.edges pressed) := by
  have hsettled : k.settleOrigin =
      { k with plunger := k.position, down := k.pressed, originMoved := false } := by
    obtain ⟨_, _, _, _, _, originMoved, _⟩ := k
    cases originMoved <;> rfl
  simp only [step, hsettled]
  by_cases h : pressedAt k.actuation (Position.nudge k.position up) = k.pressed
  · rw [if_pos h, if_pos h, h, bne_self_eq_false]
    rfl
  · rw [if_neg h, if_neg h, bne_iff_ne.mpr h]
    rfl

/-- The switch reports what the reference finds. -/
structure Tracks (k : KeySwitch) (h : List Impulse) : Prop where
  position : k.position = plungerAt h
  pressed : k.pressed = pressedAfter k.actuation h
  transitions : k.transitions = crossings k.actuation h

/-- **The switch keeps to the reference**, and sends edges exactly when a step crosses. -/
theorem Tracks.after (ht : Tracks k h) (e : Impulse) :
    Tracks (k.after e).1 (e :: h) ∧
      (k.after e).2 = if crosses k.actuation h e then
        k.edges (pressedAfter k.actuation (e :: h)) else [] := by
  cases e with
  | power => exact ⟨⟨rfl, rfl, ht.transitions⟩, rfl⟩
  | step up =>
    have hplunger : Position.nudge k.position up = plungerAt (.step up :: h) := by
      rw [ht.position]
      rfl
    rw [KeySwitch.after, step_eq, hplunger, ht.pressed]
    refine ⟨⟨rfl, rfl, ?_⟩, ?_⟩
    · show k.transitions + _ = _
      rw [ht.transitions]
      rfl
    · show (if pressedAfter k.actuation (.step up :: h) = pressedAfter k.actuation h then _ else _) =
        if pressedAfter k.actuation (.step up :: h) != pressedAfter k.actuation h then _ else _
      by_cases he : pressedAfter k.actuation (.step up :: h) = pressedAfter k.actuation h
      · rw [if_pos he, if_neg (by simp [he])]
      · rw [if_neg he, if_pos (bne_iff_ne.mpr he)]
        rfl

/-- What does not change about a switch. -/
structure SameMake (k k' : KeySwitch) : Prop where
  actuation : k'.actuation = k.actuation
  bounceEdges : k'.bounceEdges = k.bounceEdges
  wiring : k'.wiring = k.wiring

theorem SameMake.trans {k k' k'' : KeySwitch} (h : SameMake k k') (h' : SameMake k' k'') :
    SameMake k k'' :=
  ⟨h'.actuation.trans h.actuation, h'.bounceEdges.trans h.bounceEdges, h'.wiring.trans h.wiring⟩

theorem sameMake_after (k : KeySwitch) (e : Impulse) : SameMake k (k.after e).1 := by
  cases e with
  | power => exact ⟨rfl, rfl, rfl⟩
  | step up =>
    rw [after, step_eq]
    exact ⟨rfl, rfl, rfl⟩

end KeySwitch

end SwitchBench
