import SwitchBench.Fault
import SwitchBench.Limits

/-!
# The cycle clock

A 32-bit counter that runs at a fixed rate from an offset and wraps around, and the rest that is
told by it: of the rest before a reversal only what has not passed since the last step is waited.
Two readings tell a time if the later one is not the lower. If the counter has wrapped around in
between they tell of less than has passed, never of more (`elapsedUs_le`).
-/

namespace SwitchBench

/-- A cycle counter: its rate per microsecond and its value at time zero. -/
structure CycleClock where
  rate : Nat
  offset : Nat
  deriving DecidableEq, Repr

namespace CycleClock

/-- A clock that runs; one that stands still is refused. -/
def ofRate (rate offset : Nat) : Except Fault CycleClock :=
  if rate = 0 then .error .clockRate else .ok ⟨rate, offset⟩

/-- The counter at an instant. -/
def cyclesAt (c : CycleClock) (now : Nat) : Nat := (c.offset + now * c.rate) % (Limits.wordMax + 1)

/-- Whole microseconds in a number of cycles, at a rate of at least one. -/
def usOfCycles (rate cycles : Nat) : Nat := cycles / max rate 1

/-- Microseconds between two readings of the counter; `none` if it wrapped around meanwhile. -/
def elapsedUs (rate before now : Nat) : Option Nat :=
  if before ≤ now then some (usOfCycles rate (now - before)) else none

/-- Two readings of a cycle counter tell of no more time than has passed between them. -/
theorem elapsedUs_le (c : CycleClock) {r g e : Nat} (h : r ≤ g)
    (he : elapsedUs c.rate (c.cyclesAt r) (c.cyclesAt g) = some e) : e ≤ g - r := by
  unfold elapsedUs at he
  split at he
  case isFalse => cases he
  case isTrue hle =>
    have hcycles : c.cyclesAt g ≤ c.cyclesAt r + (g - r) * c.rate := by
      have hg : c.offset + g * c.rate = c.offset + r * c.rate + (g - r) * c.rate := by
        rw [Nat.add_assoc, ← Nat.add_mul, Nat.add_sub_cancel' h]
      unfold cyclesAt
      rw [hg, ← Nat.mod_add_mod]
      exact Nat.mod_le _ _
    cases he
    unfold usOfCycles
    refine Nat.div_le_of_le_mul ?_
    calc c.cyclesAt g - c.cyclesAt r ≤ (g - r) * c.rate := by omega
      _ ≤ (g - r) * max c.rate 1 := Nat.mul_le_mul_left _ (Nat.le_max_left _ _)
      _ = max c.rate 1 * (g - r) := Nat.mul_comm _ _

end CycleClock

/-- What is left to wait of a rest of `restUs` when `elapsedUs` have passed since the last step;
`none` if that cannot be told, and then the whole rest is waited. -/
def remainingRest (restUs : Nat) : Option Nat → Nat
  | some elapsedUs => restUs - elapsedUs
  | none => restUs

theorem remainingRest_le (restUs : Nat) (e : Option Nat) : remainingRest restUs e ≤ restUs := by
  cases e <;> simp [remainingRest]

end SwitchBench
