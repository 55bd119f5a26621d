import SwitchBench.Proofs.Capture.DenseSlots

/-!
# How many passes fit a measurement

Whether the readings of a series fit a measurement is asked for any number of passes, and answered
from the slot in which the pass after the last one would begin. The slot is a number in a word, and
so are the numbers on the way to it: a series with more readings than a word can count gets no
answer at all, although it surely does not fit.

Results: `fits_answers_iff` (there is an answer, and it is right, exactly if a word can count the
readings), `exists_unanswered` (a number of passes that gets no answer).
-/

namespace SwitchBench

namespace CaptureSetup

variable (s : CaptureSetup) (evenDown : Bool) (passes : Nat)

/-- **Whether passes fit is answered exactly if a word can count their readings**, and then the
answer is right. So it is for every number of passes up to half of a word. -/
theorem fits_answers_iff :
    ((∃ answer, s.fits evenDown passes = .ok answer ∧
        (answer = true ↔ s.readingsBefore evenDown passes ≤ Limits.readingsMax)) ↔
      s.readingsBefore evenDown passes ≤ Limits.countMax) ∧
    (∀ answer, s.fits evenDown passes = .ok answer →
      (answer = true ↔ s.readingsBefore evenDown passes ≤ Limits.readingsMax)) ∧
    (passes ≤ Limits.countMax / 2 → s.readingsBefore evenDown passes ≤ Limits.countMax) := by
  have hright : ∀ answer, s.fits evenDown passes = .ok answer →
      s.readingsBefore evenDown passes ≤ Limits.countMax ∧
        (answer = true ↔ s.readingsBefore evenDown passes ≤ Limits.readingsMax) := by
    intro answer h
    rw [fits_eq] at h
    split at h
    · rename_i hcount
      cases h
      exact ⟨hcount, decide_eq_true_iff⟩
    · split at h <;> cases h
  refine ⟨⟨fun ⟨answer, h, _⟩ => (hright answer h).1, fun hcount => ⟨_, ?_, decide_eq_true_iff⟩⟩,
    fun answer h => (hright answer h).2, fun hhalf => ?_⟩
  · rw [fits_eq, if_pos hcount]
  · calc s.readingsBefore evenDown passes
        ≤ Limits.channelCount * passes := s.readingsBefore_le evenDown passes
      _ ≤ Limits.channelCount * (Limits.countMax / 2) := Nat.mul_le_mul_left _ hhalf
      _ ≤ Limits.countMax := by decide

/-- Both channels, whichever way the plunger goes. -/
def bothWays : CaptureSetup :=
  ⟨⟨⟨.both, .rising, "a"⟩, ⟨.both, .rising, "b"⟩⟩, 100, 100⟩

theorem fits_answers_iff_bothWays :
    300 ≤ Limits.countMax / 2 ∧ bothWays.readingsBefore true 300 ≤ Limits.countMax ∧
      bothWays.fits true 300 = .ok true ∧ bothWays.fits true 513 = .ok false := by
  refine ⟨by decide, (bothWays.fits_answers_iff true 300).2.2 (by decide), rfl, rfl⟩

/-- A number of passes that a word can hold, far too large to fit, gets no answer. -/
theorem exists_unanswered :
    ∃ (s : CaptureSetup) (passes : Nat), s.Valid ∧ passes ≤ Limits.countMax ∧
      Limits.readingsMax < s.readingsBefore true passes ∧
      s.fits true passes = .error .multiplyOverflow := by
  refine ⟨bothWays, 9223372036854775808, by decide, by decide, ?_, ?_⟩
  · rw [readingsBefore_eq]
    decide
  · rw [fits, slot_zero_eq, if_pos (by decide)]
    rfl

end CaptureSetup

end SwitchBench
