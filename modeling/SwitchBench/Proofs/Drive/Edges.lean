import SwitchBench.Proofs.Drive.Beat
import SwitchBench.Proofs.Drive.Plunger

/-!
# The edges of the step output

One rise and one fall of the step output make a step, and the direction output tells at the rise
which way it goes. `Crowd.risesOf` and `Crowd.fallsOf` read the edges off a stretch of a run, given
the state at its end. As long as the power stays on, the plunger goes by the rises alone
(`carry_walk`).
-/

namespace SwitchBench

namespace Drive

/-- The outputs of a drive. -/
def outputs (d : Drive) : List Pin := [d.axis.disable, d.axis.direction, d.step]

/-- Does the step output rise? -/
def rises (before after : Drive) : Bool := !before.step.level && after.step.level

/-- Does the step output fall? -/
def falls (before after : Drive) : Bool := before.step.level && !after.step.level

/-- Where steps with these directions lead from a place. -/
def walk (ups : List Bool) (x : Int) : Int := x + ups.count false - ups.count true

namespace Crowd

/-- The level of the direction output at each rise of the step output, newest first. -/
def risesOf : Trace → Crowd → List Bool
  | [], _ => []
  | (c, _) :: u, c' =>
    if rises c.drive c'.drive then c'.drive.axis.direction.level :: risesOf u c else risesOf u c

/-- How often the step output fell. -/
def fallsOf : Trace → Crowd → Nat
  | [], _ => 0
  | (c, _) :: u, c' => (falls c.drive c'.drive).toNat + fallsOf u c

end Crowd

variable {d d' : Drive} {x : Int} {stray up : Bool}

theorem rises_of_step (hs : d'.step = d.step) : rises d d' = false := by
  rw [rises, hs, Bool.not_and_self]

/-- The step output rises where the stepper raises it. -/
theorem Tracks.rises_of_lift (h : Tracks x stray d) (hp : d.stepper.phase = .raising up)
    (hs : d'.step = d.step.drive true) : rises d d' = true ∧ falls d d' = false := by
  have hdown : d.step.level = false := by rw [h.step, hp]; rfl
  rw [rises, falls, hs, Pin.level_drive, hdown]
  exact ⟨rfl, rfl⟩

/-- It falls where the stepper lowers it. -/
theorem Tracks.falls_of_lower (h : Tracks x stray d) (hp : d.stepper.phase = .lowering up)
    (hs : d'.step = d.step.drive false) : rises d d' = false ∧ falls d d' = true := by
  have hhigh : d.step.level = true := by rw [h.step, hp]; rfl
  rw [rises, falls, hs, Pin.level_drive, hhigh]
  exact ⟨rfl, rfl⟩

theorem walk_cons (ups : List Bool) (x : Int) :
    walk (up :: ups) x = if up then walk ups x - 1 else walk ups x + 1 := by
  cases up <;> simp [walk] <;> omega

/-- Steps the same way lead as far as there are steps. -/
theorem walk_replicate (n : Nat) (x : Int) :
    walk (List.replicate n up) x = if up then x - n else x + n := by
  cases up <;> simp [walk, List.count_replicate]

/-- With the power on and not switched, an action takes the plunger where its rise leads. -/
theorem carry_walk (hr : repowered d d' = false) (hon : d'.axis.isOff = false) (ups : List Bool)
    (x : Int) :
    carry d d' (walk ups x)
      = walk (if rises d d' then d'.axis.direction.level :: ups else ups) x := by
  rw [carry, hr, if_neg Bool.false_ne_true, pulses, hon, Bool.not_false, Bool.and_true, ← rises]
  split
  · rw [walk_cons]
  · rfl

end Drive

end SwitchBench
