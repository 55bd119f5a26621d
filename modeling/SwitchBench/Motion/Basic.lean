import SwitchBench.Fault
import SwitchBench.Settings.Problem

/-!
# Positions, speeds and step periods

The vocabulary of moves. A position is a signed step count relative to the place where the drive was
powered on, kept as an `Int`. Positive positions are lower, closer to pressing the switch. Positions
fit a 32-bit word, and the lowest word is no position: it is what an unpowered drive reports.

A speed is a percentage of the drive's full speed. The pace of the drive is its step period at full
and at zero speed; between the two the period falls linearly with the speed, and the rest before a
reversal grows with it, to twice the sum of the shortest period and what the speed takes off the
longest one.

`periodUs` and `turnaroundUs` compute the two in words. A difference of words must not fall below
zero, and what is computed in wider numbers is cut to a word in the end. `pace` and `rest` are what
is meant by it, in numbers without a bound. That the periods and the speed are words themselves is
not assumed here (`InWords`).

Results: with validated periods no step period is below the shortest one (`Valid.minUs_le_pace`),
and neither `periodUs` nor `turnaroundUs` is refused (`periodUs_of_valid`, `turnaroundUs_of_valid`).
-/

namespace SwitchBench

/-! ## Positions -/

namespace Position

/-- What is reported where there is no position. -/
def nowhere : Int := -2147483648

/-- The highest position. -/
def top : Int := -2147483647

/-- The lowest position. -/
def bottom : Int := 2147483647

/-- A number that is a position. -/
def Valid (p : Int) : Prop := top ≤ p ∧ p ≤ bottom

instance (p : Int) : Decidable (Valid p) := inferInstanceAs (Decidable (_ ∧ _))

/-- A number that fits the word of a position. -/
def IsWord (p : Int) : Prop := nowhere ≤ p ∧ p ≤ bottom

instance (p : Int) : Decidable (IsWord p) := inferInstanceAs (Decidable (_ ∧ _))

theorem valid_iff_of_isWord {p : Int} (h : IsWord p) : Valid p ↔ p ≠ nowhere := by
  unfold Valid IsWord nowhere top bottom at *; omega

theorem not_valid_nowhere : ¬ Valid nowhere := by decide

theorem valid_zero : Valid 0 := by decide

/-- One step in a direction, held at the ends of the word. -/
def nudge (p : Int) (up : Bool) : Int :=
  if up then max nowhere (p - 1) else min bottom (p + 1)

end Position

/-! ## Speeds -/

/-- A percentage of full speed. -/
structure Speed where
  percent : Nat
  le_max : percent ≤ Limits.speedMax
  deriving DecidableEq, Repr

namespace Speed

/-- Standing, zero percent: the longest step period. -/
def slowest : Speed := ⟨0, Nat.zero_le _⟩

/-- One hundred percent: the shortest step period. -/
def fastest : Speed := ⟨Limits.speedMax, Nat.le_refl _⟩

/-- The speed of a percentage. -/
def ofPercent (percent : Nat) : Except Problem Speed :=
  if h : percent ≤ Limits.speedMax then .ok ⟨percent, h⟩ else .error (.speedTooHigh percent)

/-- The written form. -/
def text (s : Speed) : String := s!"{s.percent}%"

instance : Inhabited Speed := ⟨slowest⟩

end Speed

/-! ## Step periods -/

namespace Word

/-- What a word keeps of a wider number. -/
def ofWide (n : Nat) : Nat := n % (Limits.wordMax + 1)

theorem ofWide_le (n : Nat) : ofWide n ≤ n := Nat.mod_le _ _

theorem ofWide_of_le {n : Nat} (h : n ≤ Limits.wordMax) : ofWide n = n :=
  Nat.mod_eq_of_lt (Nat.lt_succ_of_le h)

/-- The difference of two words; refused if it falls below zero. -/
def minus (a b : Nat) : Except Fault Nat :=
  if a < b then .error .subtractOverflow else .ok (a - b)

theorem minus_of_le {a b : Nat} (h : b ≤ a) : minus a b = .ok (a - b) := if_neg (Nat.not_lt.2 h)

end Word

/-- The step periods at full and at zero speed. -/
structure StepPeriods where
  minUs : Nat
  maxUs : Nat
  deriving DecidableEq, Repr

namespace StepPeriods

/-- The pace of a drive of which nothing else is said. -/
def standard : StepPeriods := ⟨Limits.defaultPeriodMinUs, Limits.defaultPeriodMaxUs⟩

/-- Periods a drive can run with. -/
structure Valid (p : StepPeriods) : Prop where
  pos : 0 < p.minUs
  le : p.minUs ≤ p.maxUs

/-- Checks the periods, the lower bound first. -/
def validate (p : StepPeriods) : Except Problem Unit :=
  if p.minUs = 0 then .error .zeroStepPeriod
  else if p.maxUs < p.minUs then .error (.stepPeriodsReversed p.minUs p.maxUs)
  else .ok ()

theorem validate_eq_ok_iff {p : StepPeriods} : p.validate = .ok () ↔ p.Valid := by
  unfold validate
  constructor
  · intro h
    split at h
    · cases h
    · split at h
      · cases h
      · exact ⟨by omega, by omega⟩
  · rintro ⟨h₀, h₁⟩
    rw [if_neg (by omega), if_neg (by omega)]

/-- Periods of one word each. -/
def InWords (p : StepPeriods) : Prop := p.minUs ≤ Limits.wordMax ∧ p.maxUs ≤ Limits.wordMax

instance (p : StepPeriods) : Decidable p.InWords := inferInstanceAs (Decidable (_ ∧ _))

/-- What a speed takes off the longest period. -/
def gainUs (p : StepPeriods) (s : Speed) : Nat :=
  (p.maxUs - p.minUs) * s.percent / Limits.speedMax

/-- No speed takes more off the longest period than there is above the shortest one. -/
theorem gainUs_le (p : StepPeriods) (s : Speed) : p.gainUs s ≤ p.maxUs - p.minUs := by
  refine Nat.div_le_of_le_mul ?_
  rw [Nat.mul_comm Limits.speedMax]
  exact Nat.mul_le_mul_left _ s.le_max

theorem gainUs_le_maxUs (p : StepPeriods) (s : Speed) : p.gainUs s ≤ p.maxUs :=
  Nat.le_trans (p.gainUs_le s) (Nat.sub_le _ _)

/-- The step period at a speed, for periods in order. -/
def pace (p : StepPeriods) (s : Speed) : Nat := p.maxUs - p.gainUs s

/-- The rest before a reversal at a speed, for periods in order; it fits a word. -/
def rest (p : StepPeriods) (s : Speed) : Nat := min (2 * (p.minUs + p.gainUs s)) Limits.wordMax

theorem Valid.minUs_le_pace {p : StepPeriods} (h : p.Valid) (s : Speed) : p.minUs ≤ p.pace s := by
  have hgain := p.gainUs_le s
  have hle := h.le
  unfold pace
  omega

/-- The step period at a speed; refused if the periods are out of order. -/
def periodUs (p : StepPeriods) (s : Speed) : Except Fault Nat := do
  let rangeUs ← Word.minus p.maxUs p.minUs
  Word.minus p.maxUs (Word.ofWide (rangeUs * s.percent / Limits.speedMax))

/-- The rest before a reversal at a speed; refused if the periods are out of order. -/
def turnaroundUs (p : StepPeriods) (s : Speed) : Except Fault Nat := do
  let rangeUs ← Word.minus p.maxUs p.minUs
  let halfUs := p.minUs + rangeUs * s.percent / Limits.speedMax
  return Word.ofWide (min (2 * halfUs) Limits.wordMax)

theorem periodUs_of_valid {p : StepPeriods} (h : p.Valid) (s : Speed) :
    p.periodUs s = .ok (p.maxUs - Word.ofWide (p.gainUs s)) := by
  have hgain : Word.ofWide (p.gainUs s) ≤ p.maxUs :=
    Nat.le_trans (Word.ofWide_le _) (p.gainUs_le_maxUs s)
  rw [periodUs, Word.minus_of_le h.le]
  exact Word.minus_of_le hgain

/-- A rest is held within a word, so that nothing of it is cut off. -/
theorem turnaroundUs_of_valid {p : StepPeriods} (h : p.Valid) (s : Speed) :
    p.turnaroundUs s = .ok (p.rest s) := by
  rw [turnaroundUs, Word.minus_of_le h.le]
  exact congrArg Except.ok (Word.ofWide_of_le (Nat.min_le_right _ _))

end StepPeriods

end SwitchBench
