import SwitchBench.Proofs.Capture.Reference

/-!
# The dense layout of a series of passes

The readings of a series are kept pass after pass, and within a pass channel after channel. So the
place of a reading is the number of readings of all earlier passes (`readingsBefore`) and of the
earlier channels of its own pass (`rank`). `CaptureSetup.slot` computes it in closed form, from the
passes two by two.

Results: `readingsBefore_eq` (the closed form is the sum over the earlier passes), `slot_of_lt`
(what a slot is, and when there is none), `slot_eq` (a slot is where the reading is, if it fits a
word), `fits_eq` (whether passes fit, or why that is not answered), `getElem?_rank` (in the readings
of a pass, the one of a channel stands at its rank).
-/

namespace SwitchBench

namespace CaptureSetup

variable (s : CaptureSetup) (evenDown : Bool)

/-- Number of readings of the passes before a pass. -/
def readingsBefore : Nat → Nat
  | 0 => 0
  | pass + 1 => readingsBefore pass + s.channelCount (passDirections evenDown pass)

/-- Number of readings before a channel's among those of a pass. -/
def rank (d : Directions) (channel : Nat) : Nat :=
  Channel.all.countP fun c => c.val < channel && s.enables c d

theorem channelCount_eq (d : Directions) :
    s.channelCount d = (s.enables 0 d).toNat + (s.enables 1 d).toNat := by
  unfold channelCount Channel.all
  rw [List.countP_cons, List.countP_cons, List.countP_nil]
  cases s.enables 0 d <;> cases s.enables 1 d <;> rfl

theorem channelCount_none : s.channelCount .none = 0 :=
  List.countP_eq_zero.mpr fun c _ => by simp [enables]

theorem length_watched (d : Directions) : (s.watched d).length = s.channelCount d :=
  List.countP_eq_length_filter.symm

theorem toNat_enables_ofDown (c : Channel) :
    (s.enables c (.ofDown evenDown)).toNat + (s.enables c (.ofDown !evenDown)).toNat
      = (s.channels.get c).directions.size := by
  unfold enables
  rw [Directions.intersects_ofDown, Directions.intersects_ofDown, Directions.size]
  cases evenDown
  · exact rfl
  · exact Nat.add_comm _ _

/-- Two passes in a row go both ways. -/
theorem roundSize_eq :
    s.roundSize = s.channelCount (.ofDown evenDown) + s.channelCount (.ofDown !evenDown) := by
  have h0 : _ = s.channels.ch0.directions.size := s.toNat_enables_ofDown evenDown 0
  have h1 : _ = s.channels.ch1.directions.size := s.toNat_enables_ofDown evenDown 1
  rw [channelCount_eq, channelCount_eq, roundSize]
  omega

/-- **The closed form of the layout is the sum over the earlier passes.** -/
theorem readingsBefore_eq (pass : Nat) :
    s.readingsBefore evenDown pass
      = s.roundSize * (pass / 2)
        + if pass % 2 = 1 then s.channelCount (.ofDown evenDown) else 0 := by
  induction pass with
  | zero => rfl
  | succ pass ih =>
    rw [readingsBefore, ih, passDirections, passDown]
    rcases Nat.mod_two_eq_zero_or_one pass with h | h
    · have h' : (pass + 1) % 2 = 1 := by omega
      have hd : (pass + 1) / 2 = pass / 2 := by omega
      simp [h, h', hd]
    · have h' : (pass + 1) % 2 = 0 := by omega
      have hd : (pass + 1) / 2 = pass / 2 + 1 := by omega
      have hround := s.roundSize_eq evenDown
      simp only [h, h', hd, if_true, Nat.mul_add, Nat.mul_one, beq_self_eq_true, Bool.xor_true,
        Nat.zero_ne_one, if_false]
      omega

theorem readingsBefore_mono {p q : Nat} (h : p ≤ q) :
    s.readingsBefore evenDown p ≤ s.readingsBefore evenDown q := by
  induction h with
  | refl => exact Nat.le_refl _
  | step _ ih => exact Nat.le_trans ih (Nat.le_add_right _ _)

theorem channelCount_le (d : Directions) : s.channelCount d ≤ Limits.channelCount :=
  List.countP_le_length

/-- A pass has a reading for each channel at most. -/
theorem readingsBefore_le (pass : Nat) :
    s.readingsBefore evenDown pass ≤ Limits.channelCount * pass := by
  induction pass with
  | zero => exact Nat.le_refl _
  | succ pass ih =>
    rw [readingsBefore, Nat.mul_succ]
    exact Nat.add_le_add ih (s.channelCount_le _)

theorem rank_zero (d : Directions) : s.rank d 0 = 0 := by
  unfold rank Channel.all
  rw [List.countP_cons, List.countP_cons, List.countP_nil]
  rfl

theorem rank_one (d : Directions) : s.rank d 1 = (s.enables 0 d).toNat := by
  unfold rank Channel.all
  rw [List.countP_cons, List.countP_cons, List.countP_nil]
  cases s.enables 0 d <;> rfl

theorem rank_le (d : Directions) (channel : Nat) : s.rank d channel ≤ 2 :=
  List.countP_le_length

/-- Number of readings before a channel's in a series. -/
def readingsAhead (pass channel : Nat) : Nat :=
  s.readingsBefore evenDown pass + s.rank (passDirections evenDown pass) channel

theorem readingsAhead_zero (pass : Nat) :
    s.readingsAhead evenDown pass 0 = s.readingsBefore evenDown pass := by
  rw [readingsAhead, rank_zero, Nat.add_zero]

theorem roundSize_mul_le (pass : Nat) :
    s.roundSize * (pass / 2) ≤ s.readingsBefore evenDown pass := by
  rw [readingsBefore_eq]
  exact Nat.le_add_right _ _

/-- A slot is where the reading is, if a word can hold that place and the number of readings in
full rounds before it. -/
theorem slot_of_lt {pass channel : Nat} (hc : channel < 2) :
    s.slot evenDown pass channel =
      if Limits.countMax < s.roundSize * (pass / 2) then .error .multiplyOverflow
      else if Limits.countMax < s.readingsAhead evenDown pass channel then .error .addOverflow
      else .ok (s.readingsAhead evenDown pass channel) := by
  have hplace : s.roundSize * (pass / 2) + s.placeInRound evenDown pass channel
      = s.readingsAhead evenDown pass channel := by
    rw [readingsAhead, readingsBefore_eq, placeInRound, rank, Nat.add_assoc]
  rw [slot, hplace, if_neg (Nat.not_le.mpr hc)]

/-- **A slot is where the reading is**, if it fits a word. -/
theorem slot_eq {pass channel : Nat} (hc : channel < 2)
    (hfit : s.readingsBefore evenDown pass + 2 ≤ Limits.countMax) :
    s.slot evenDown pass channel
      = .ok (s.readingsBefore evenDown pass + s.rank (passDirections evenDown pass) channel) := by
  have hrank := s.rank_le (passDirections evenDown pass) channel
  have hround := s.roundSize_mul_le evenDown pass
  rw [s.slot_of_lt evenDown hc, readingsAhead, if_neg (by omega), if_neg (by omega)]

/-- The slot of the first channel of a pass is at the end of the readings before it, if a word can
hold that place and the number of those in full rounds. -/
theorem slot_zero_eq (pass : Nat) :
    s.slot evenDown pass 0 =
      if Limits.countMax < s.roundSize * (pass / 2) then .error .multiplyOverflow
      else if Limits.countMax < s.readingsBefore evenDown pass then .error .addOverflow
      else .ok (s.readingsBefore evenDown pass) := by
  rw [s.slot_of_lt evenDown (by decide), readingsAhead_zero]

/-- Whether passes fit is answered from the slot after them, or a step of the arithmetic leaves the
word. -/
theorem fits_eq (passes : Nat) :
    s.fits evenDown passes =
      if s.readingsBefore evenDown passes ≤ Limits.countMax then
        .ok (decide (s.readingsBefore evenDown passes ≤ Limits.readingsMax))
      else if Limits.countMax < s.roundSize * (passes / 2) then .error .multiplyOverflow
      else .error .addOverflow := by
  have hround := s.roundSize_mul_le evenDown passes
  rw [fits, slot_zero_eq]
  by_cases hcount : s.readingsBefore evenDown passes ≤ Limits.countMax
  · rw [if_pos hcount, if_neg (Nat.not_lt.mpr (Nat.le_trans hround hcount)),
      if_neg (Nat.not_lt.mpr hcount)]
    rfl
  · rw [if_neg hcount, if_pos (Nat.not_le.mp hcount)]
    split <;> rfl

/-- The readings of passes that fit a measurement fit a word. -/
theorem readingsBefore_le_of_fits {passes : Nat} (h : s.fits evenDown passes = .ok true) :
    s.readingsBefore evenDown passes ≤ Limits.readingsMax := by
  rw [fits_eq] at h
  split at h
  · exact of_decide_eq_true (Except.ok.inj h)
  · split at h <;> cases h

/-- A channel that is captured has a place among those of its pass. -/
theorem rank_lt (d : Directions) (c : Channel) (hc : s.enables c d = true) :
    s.rank d c.val < s.channelCount d := by
  rw [channelCount_eq]
  unfold rank Channel.all
  match c with
  | 0 => cases h1 : s.enables 1 d <;> simp [hc]
  | 1 => cases h0 : s.enables 0 d <;> simp [hc, h0]

/-- **In the readings of a pass, the one of a channel that is captured stands at its rank.** -/
theorem getElem?_rank {α : Type} (d : Directions) (f : Channel → α) (c : Channel)
    (hc : s.enables c d = true) :
    ((s.watched d).map f)[s.rank d c.val]? = some (f c) := by
  unfold rank watched Channel.all
  match c with
  | 0 => simp [hc]
  | 1 => cases h0 : s.enables 0 d <;> simp [hc, h0]

end CaptureSetup

end SwitchBench
