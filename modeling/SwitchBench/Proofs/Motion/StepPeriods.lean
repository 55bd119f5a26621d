import SwitchBench.Motion.Basic

/-!
# Periods and rests in words

The step period and the rest before a reversal are computed apart from each other, each from the two
bounds and the speed, and each in words: a difference below zero is refused, and a number too wide
for a word loses its upper part without a sign of it. Neither happens, up to the largest bounds that
a word can hold (`Exact`); bounds that were read are no larger (`inWords_of_ofToml?`).

What the two have in common is what the speed takes off the longest period. It grows with the speed
(`gainUs_mono`), from nothing (`gainUs_slowest`) to all that is between the bounds
(`gainUs_fastest`). The period is short of it, and half of the rest has it on top of the shortest
period. So the two add up to the sum of the bounds, whatever the division cuts off.

Results: `pace_add_half_fullRest` (the sum), `rest_eq` (the rest told by the period),
`exact_of_valid` (the words hold all that is computed), and `period_and_rest_add_up` (all of it
together).
-/

namespace SwitchBench

namespace StepPeriods

variable {p : StepPeriods} {s s' : Speed}

/-! ## What a speed takes off -/

theorem gainUs_mono (p : StepPeriods) (h : s.percent ≤ s'.percent) : p.gainUs s ≤ p.gainUs s' :=
  Nat.div_le_div_right (Nat.mul_le_mul_left _ h)

theorem gainUs_slowest (p : StepPeriods) : p.gainUs .slowest = 0 := Nat.zero_div _

theorem gainUs_fastest (p : StepPeriods) : p.gainUs .fastest = p.maxUs - p.minUs :=
  Nat.mul_div_cancel _ (by decide)

/-! ## The period -/

theorem pace_add_gainUs (p : StepPeriods) (s : Speed) : p.pace s + p.gainUs s = p.maxUs :=
  Nat.sub_add_cancel (p.gainUs_le_maxUs s)

theorem pace_le (p : StepPeriods) (s : Speed) : p.pace s ≤ p.maxUs := Nat.sub_le _ _

/-- A higher speed has a period that is no longer. -/
theorem pace_anti (p : StepPeriods) (h : s.percent ≤ s'.percent) : p.pace s' ≤ p.pace s :=
  Nat.sub_le_sub_left (p.gainUs_mono h) _

theorem pace_slowest (p : StepPeriods) : p.pace .slowest = p.maxUs := by
  rw [pace, gainUs_slowest, Nat.sub_zero]

theorem Valid.pace_fastest (h : p.Valid) : p.pace .fastest = p.minUs := by
  rw [pace, gainUs_fastest, Nat.sub_sub_self h.le]

/-! ## The rest -/

/-- The rest before a reversal at a speed, were it not held within a word. -/
def fullRest (p : StepPeriods) (s : Speed) : Nat := 2 * (p.minUs + p.gainUs s)

theorem Valid.fullRest_le (h : p.Valid) (s : Speed) : p.fullRest s ≤ 2 * p.maxUs := by
  have hgain := p.gainUs_le s
  have hle := h.le
  unfold fullRest
  omega

/-- A higher speed has a rest that is no shorter. -/
theorem rest_mono (p : StepPeriods) (h : s.percent ≤ s'.percent) : p.rest s ≤ p.rest s' := by
  have hgain := p.gainUs_mono h
  unfold rest
  omega

/-- **A period and half of the rest that goes with it add up to the sum of the bounds.** -/
theorem pace_add_half_fullRest (p : StepPeriods) (s : Speed) :
    p.pace s + p.fullRest s / 2 = p.minUs + p.maxUs := by
  have hpace := p.pace_add_gainUs s
  unfold fullRest
  omega

/-- The rest is told by the period. -/
theorem rest_eq (p : StepPeriods) (s : Speed) :
    p.rest s = min (2 * (p.minUs + p.maxUs - p.pace s)) Limits.wordMax := by
  have hhalf : p.minUs + p.gainUs s = p.minUs + p.maxUs - p.pace s := by
    have hpace := p.pace_add_gainUs s
    omega
  rw [rest, hhalf]

/-- A rest that a word does not cut short makes up, with two periods, for two of both bounds. -/
theorem two_mul_pace_add_rest (h : p.rest s < Limits.wordMax) :
    2 * p.pace s + p.rest s = 2 * (p.minUs + p.maxUs) := by
  have hpace := p.pace_add_gainUs s
  unfold rest at *
  omega

/-! ## In words -/

/-- What is told for a speed is what is meant, and no number on the way is lost or cut off. -/
structure Exact (p : StepPeriods) (s : Speed) : Prop where
  period : p.periodUs s = .ok (p.pace s)
  turnaround : p.turnaroundUs s = .ok (p.rest s)
  /-- No difference that is taken falls below zero. -/
  differences : p.minUs ≤ p.maxUs ∧ p.gainUs s ≤ p.maxUs
  /-- No number that is put into a word loses anything. -/
  conversions : Word.ofWide (p.gainUs s) = p.gainUs s ∧
    Word.ofWide (min (p.fullRest s) Limits.wordMax) = min (p.fullRest s) Limits.wordMax
  /-- The numbers before that are no wider than a count. -/
  products : (p.maxUs - p.minUs) * s.percent ≤ Limits.countMax ∧ p.fullRest s ≤ Limits.countMax
  /-- The period, computed without bounds on either side. -/
  intCast_pace : (p.pace s : Int) =
    p.maxUs - (p.maxUs - p.minUs : Int) * s.percent / Limits.speedMax
  /-- The rest, computed without bounds but the last one. -/
  intCast_rest : (p.rest s : Int) =
    min (2 * (p.minUs + (p.maxUs - p.minUs : Int) * s.percent / Limits.speedMax)) Limits.wordMax

theorem Valid.intCast_gainUs (h : p.Valid) (s : Speed) :
    (p.gainUs s : Int) = (p.maxUs - p.minUs : Int) * s.percent / Limits.speedMax := by
  rw [gainUs, Int.natCast_ediv, Int.natCast_mul, Int.natCast_sub h.le]

/-- The product of a word and a percentage is far from being as wide as a count. -/
theorem InWords.range_mul_percent_le (h : p.InWords) (s : Speed) :
    (p.maxUs - p.minUs) * s.percent ≤ Limits.countMax :=
  calc (p.maxUs - p.minUs) * s.percent
      ≤ Limits.wordMax * Limits.speedMax :=
        Nat.mul_le_mul (Nat.le_trans (Nat.sub_le _ _) h.2) s.le_max
    _ ≤ Limits.countMax := by decide

theorem InWords.fullRest_le (hw : p.InWords) (hv : p.Valid) (s : Speed) :
    p.fullRest s ≤ Limits.countMax :=
  calc p.fullRest s ≤ 2 * p.maxUs := hv.fullRest_le s
    _ ≤ 2 * Limits.wordMax := Nat.mul_le_mul_left _ hw.2
    _ ≤ Limits.countMax := by decide

/-- **Valid periods of words are exact at every speed.** -/
theorem exact_of_valid (hv : p.Valid) (hw : p.InWords) (s : Speed) : p.Exact s := by
  have hle : p.gainUs s ≤ p.maxUs := p.gainUs_le_maxUs s
  have hgain : Word.ofWide (p.gainUs s) = p.gainUs s := Word.ofWide_of_le (Nat.le_trans hle hw.2)
  exact {
    period := by rw [periodUs_of_valid hv, hgain, pace]
    turnaround := turnaroundUs_of_valid hv s
    differences := ⟨hv.le, hle⟩
    conversions := ⟨hgain, Word.ofWide_of_le (Nat.min_le_right _ _)⟩
    products := ⟨hw.range_mul_percent_le s, hw.fullRest_le hv s⟩
    intCast_pace := by rw [← hv.intCast_gainUs s, pace, Int.natCast_sub hle]
    intCast_rest := by
      rw [← hv.intCast_gainUs s, rest]
      omega }

/-- **Step periods and rests add up.** For bounds that are valid, each in a word as those are that
can be read, nothing on the way to a period or a rest is refused or cut off. With the speed the
period does not grow, from the longest one to the shortest one, and the rest does not shrink. The
rest is told by the period: half of it, before it is held within a word, and the period add up to
the sum of the bounds. -/
theorem period_and_rest_add_up (hv : p.validate = .ok ()) (hw : p.InWords) :
    (∀ s, p.Exact s) ∧
    (∀ s s' : Speed, s.percent ≤ s'.percent →
      p.minUs ≤ p.pace s' ∧ p.pace s' ≤ p.pace s ∧ p.pace s ≤ p.maxUs ∧ p.rest s ≤ p.rest s') ∧
    (p.pace .slowest = p.maxUs ∧ p.pace .fastest = p.minUs) ∧
    ∀ s, p.rest s = min (2 * (p.minUs + p.maxUs - p.pace s)) Limits.wordMax ∧
      p.rest s = min (p.fullRest s) Limits.wordMax ∧
      p.pace s + p.fullRest s / 2 = p.minUs + p.maxUs ∧
      (p.rest s < Limits.wordMax → 2 * p.pace s + p.rest s = 2 * (p.minUs + p.maxUs)) := by
  have hvalid := validate_eq_ok_iff.1 hv
  refine ⟨exact_of_valid hvalid hw, fun s s' h => ?_, ⟨p.pace_slowest, hvalid.pace_fastest⟩,
    fun s => ?_⟩
  · exact ⟨hvalid.minUs_le_pace s', p.pace_anti h, p.pace_le s, p.rest_mono h⟩
  · exact ⟨p.rest_eq s, rfl, p.pace_add_half_fullRest s, two_mul_pace_add_rest⟩

/-- Bounds as far apart as words allow. -/
def farthest : StepPeriods := ⟨1, Limits.wordMax⟩

/-- Just below half of full speed. -/
def belowHalf : Speed := ⟨49, by decide⟩

/-- Half of full speed. -/
def half : Speed := ⟨50, by decide⟩

/-- With the farthest bounds, half of full speed is the first at which a word cannot hold the rest,
and it is short of it by one. -/
theorem period_and_rest_add_up_farthest :
    farthest.validate = .ok () ∧ farthest.InWords ∧ belowHalf.percent ≤ half.percent ∧
    (farthest.periodUs belowHalf = .ok 2190433321 ∧
      farthest.turnaroundUs belowHalf = .ok 4209067950 ∧
      2 * farthest.pace belowHalf + farthest.rest belowHalf = 2 * (1 + Limits.wordMax)) ∧
    (farthest.periodUs half = .ok 2147483648 ∧
      farthest.turnaroundUs half = .ok Limits.wordMax ∧
      farthest.fullRest half = Limits.wordMax + 1 ∧
      farthest.pace half + farthest.fullRest half / 2 = 1 + Limits.wordMax) ∧
    farthest.pace half ≤ farthest.pace belowHalf ∧
    farthest.rest belowHalf ≤ farthest.rest half := by
  have hw : farthest.InWords := by decide
  have hspeed : belowHalf.percent ≤ half.percent := by decide
  obtain ⟨hexact, hmono, -, hsum⟩ := period_and_rest_add_up (p := farthest) rfl hw
  obtain ⟨-, hpace, -, hrest⟩ := hmono belowHalf half hspeed
  have hbelow : farthest.rest belowHalf < Limits.wordMax := by decide
  exact ⟨rfl, hw, hspeed,
    ⟨(hexact belowHalf).period, (hexact belowHalf).turnaround, (hsum belowHalf).2.2.2 hbelow⟩,
    ⟨(hexact half).period, (hexact half).turnaround, rfl, (hsum half).2.2.1⟩, hpace, hrest⟩

end StepPeriods

end SwitchBench
