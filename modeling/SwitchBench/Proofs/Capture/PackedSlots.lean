import Mathlib.Algebra.BigOperators.Fin
import Mathlib.Data.Prod.Lex
import SwitchBench.Proofs.Capture.DenseSlots

/-!
# Packed slots

The place of a reading is found from the passes two by two; what it is to be is a count over all of
them. A channel is captured in a pass if it is in the direction of the pass (`Captures`), and the
readings ahead of it are those of the earlier passes and of the earlier channels of its own
(`ahead`).

Results: `readingsAhead_eq_ahead` (the two are the same number), `strictMonoOn_ahead` (later
readings have later places), `exists_ahead_eq` (no place is left out), and `slots_are_packed` (the
slots count exactly as long as a word can hold them, so that the readings are packed in their
order).
-/

namespace SwitchBench

namespace CaptureSetup

variable (s : CaptureSetup) (evenDown : Bool)

/-- Is a channel captured in the direction in which a pass goes? -/
def Captures (pass : Nat) (c : Channel) : Prop :=
  (if passDown evenDown pass then (s.channels.get c).directions.down
    else (s.channels.get c).directions.up) = true

instance (pass : Nat) (c : Channel) : Decidable (s.Captures evenDown pass c) :=
  inferInstanceAs (Decidable (_ = true))

/-- The number of channels captured in a pass. -/
def captureCount (pass : Nat) : Nat := (Finset.univ.filter (s.Captures evenDown pass)).card

/-- The number of readings ahead of a channel's in a pass: those of the passes before it, and of the
channels before it in this one. -/
def ahead (pass : Nat) (channel : Nat) : Nat :=
  ∑ p ∈ Finset.range pass, s.captureCount evenDown p +
    (Finset.univ.filter fun c : Channel => c.val < channel ∧ s.Captures evenDown pass c).card

/-! ## The same number -/

variable {s evenDown}

theorem enables_passDirections {pass : Nat} {c : Channel} :
    s.enables c (passDirections evenDown pass) = true ↔ s.Captures evenDown pass c := by
  rw [enables, passDirections, Directions.intersects_ofDown, Captures]

theorem countP_all (p : Channel → Bool) :
    Channel.all.countP p = (Finset.univ.filter fun c => p c = true).card := by
  rw [Finset.card_filter, Fin.sum_univ_two, Channel.all, List.countP_cons, List.countP_cons,
    List.countP_nil, Nat.zero_add, Nat.add_comm]

theorem channelCount_passDirections (pass : Nat) :
    s.channelCount (passDirections evenDown pass) = s.captureCount evenDown pass := by
  simp only [channelCount, countP_all, enables_passDirections, captureCount]

theorem readingsBefore_eq_sum (pass : Nat) :
    s.readingsBefore evenDown pass = ∑ p ∈ Finset.range pass, s.captureCount evenDown p := by
  induction pass with
  | zero => rfl
  | succ pass ih =>
    rw [readingsBefore, ih, channelCount_passDirections, Finset.sum_range_succ]

/-- **The closed form counts the readings ahead.** -/
theorem readingsAhead_eq_ahead (pass channel : Nat) :
    s.readingsAhead evenDown pass channel = s.ahead evenDown pass channel := by
  rw [readingsAhead, readingsBefore_eq_sum, rank, countP_all, ahead]
  simp only [Bool.and_eq_true, decide_eq_true_eq, enables_passDirections]

/-! ## One place after the other -/

variable {pass passes n : Nat} {c c' : Channel}

theorem rank_lt_rank {d : Directions} (hc : s.enables c d = true) (h : c < c') :
    s.rank d c.val < s.rank d c'.val := by
  match c, c' with
  | 0, 1 =>
    rw [Fin.val_zero, Fin.val_one, rank_zero, rank_one, hc]
    exact Nat.one_pos
  | 0, 0 | 1, 0 | 1, 1 => exact absurd h (by decide)

/-- A reading of one of the first passes has a place before their end. -/
theorem ahead_lt_sum (hc : s.Captures evenDown pass c) (h : pass < passes) :
    s.ahead evenDown pass c.val < ∑ p ∈ Finset.range passes, s.captureCount evenDown p := by
  rw [← readingsAhead_eq_ahead, ← readingsBefore_eq_sum]
  calc s.readingsAhead evenDown pass c.val
      < s.readingsBefore evenDown (pass + 1) :=
        Nat.add_lt_add_left (s.rank_lt _ c (enables_passDirections.mpr hc)) _
    _ ≤ s.readingsBefore evenDown passes := s.readingsBefore_mono evenDown h

/-- **Later readings have later places.** -/
theorem strictMonoOn_ahead :
    StrictMonoOn (fun x : ℕ ×ₗ Channel => s.ahead evenDown (ofLex x).1 (ofLex x).2.val)
      {x | s.Captures evenDown (ofLex x).1 (ofLex x).2} := by
  intro x hx y _ hlt
  rcases Prod.Lex.lt_iff.mp hlt with hpass | ⟨hpass, hchannel⟩
  · exact Nat.lt_of_lt_of_le (ahead_lt_sum hx hpass) (Nat.le_add_right _ _)
  · have hrank := rank_lt_rank (enables_passDirections.mpr hx) hchannel
    simp only [← readingsAhead_eq_ahead, readingsAhead, ← hpass]
    exact Nat.add_lt_add_left hrank _

/-- The places of the channels of a pass are those that its readings have. -/
theorem exists_rank_eq {d : Directions} (h : n < s.channelCount d) :
    ∃ c, s.enables c d = true ∧ s.rank d c.val = n := by
  rw [channelCount_eq] at h
  cases h0 : s.enables 0 d with
  | false =>
    cases h1 : s.enables 1 d with
    | false => rw [h0, h1] at h; exact absurd h (Nat.not_lt_zero n)
    | true =>
      rw [h0, h1, Bool.toNat_false, Bool.toNat_true] at h
      exact ⟨1, h1, by rw [Fin.val_one, rank_one, h0, Bool.toNat_false]; omega⟩
  | true =>
    cases n with
    | zero => exact ⟨0, h0, s.rank_zero d⟩
    | succ n =>
      cases h1 : s.enables 1 d with
      | false => rw [h0, h1, Bool.toNat_false, Bool.toNat_true] at h; omega
      | true =>
        rw [h0, h1, Bool.toNat_true] at h
        exact ⟨1, h1, by rw [Fin.val_one, rank_one, h0, Bool.toNat_true]; omega⟩

/-- **No place is left out.** -/
theorem exists_ahead_eq (h : n < ∑ p ∈ Finset.range passes, s.captureCount evenDown p) :
    ∃ pass < passes, ∃ c : Channel,
      s.Captures evenDown pass c ∧ s.ahead evenDown pass c.val = n := by
  rw [← readingsBefore_eq_sum] at h
  induction passes with
  | zero => exact absurd h (Nat.not_lt_zero n)
  | succ passes ih =>
    by_cases hbefore : n < s.readingsBefore evenDown passes
    · obtain ⟨pass, hpass, hc⟩ := ih hbefore
      exact ⟨pass, Nat.lt_succ_of_lt hpass, hc⟩
    · rw [readingsBefore] at h
      obtain ⟨c, hc, hrank⟩ := exists_rank_eq (s := s) (d := passDirections evenDown passes)
        (n := n - s.readingsBefore evenDown passes) (by omega)
      refine ⟨passes, Nat.lt_succ_self passes, c, enables_passDirections.mp hc, ?_⟩
      rw [← readingsAhead_eq_ahead, readingsAhead, hrank]
      omega

/-! ## Slots -/

/-- A slot is the number of readings ahead, if it fits a word, and an overflow otherwise. -/
theorem slot_eq_ahead (pass : Nat) (c : Channel) :
    (s.ahead evenDown pass c.val ≤ Limits.countMax →
      s.slot evenDown pass c.val = .ok (s.ahead evenDown pass c.val)) ∧
    (Limits.countMax < s.ahead evenDown pass c.val →
      s.slot evenDown pass c.val = .error .multiplyOverflow ∨
        s.slot evenDown pass c.val = .error .addOverflow) := by
  have hround : s.roundSize * (pass / 2) ≤ s.ahead evenDown pass c.val := by
    rw [← readingsAhead_eq_ahead]
    exact Nat.le_trans (s.roundSize_mul_le evenDown pass) (Nat.le_add_right _ _)
  rw [s.slot_of_lt evenDown c.isLt, readingsAhead_eq_ahead]
  refine ⟨fun h => ?_, fun h => ?_⟩
  · rw [if_neg (by omega), if_neg (by omega)]
  · rw [if_pos h]
    exact ite_eq_or_eq _ _ _

/-- **The slots of a series are packed.** A slot is exactly the number of the readings before it, as
long as a word can hold that, and otherwise, and only then, the arithmetic overflows. So of two
channels that are captured in their passes the one of the earlier pass, or of the same pass and
first, has the lower slot, no two have the same one, and those of the first passes have all slots up
to the number of their readings. -/
theorem slots_are_packed (s : CaptureSetup) (evenDown : Bool) :
    (∀ pass (c : Channel),
      (s.ahead evenDown pass c.val ≤ Limits.countMax →
        s.slot evenDown pass c.val = .ok (s.ahead evenDown pass c.val)) ∧
      (Limits.countMax < s.ahead evenDown pass c.val →
        s.slot evenDown pass c.val = .error .multiplyOverflow ∨
          s.slot evenDown pass c.val = .error .addOverflow)) ∧
    (∀ pass c pass' c' n n', s.Captures evenDown pass c → s.Captures evenDown pass' c' →
      s.slot evenDown pass c.val = .ok n → s.slot evenDown pass' c'.val = .ok n' →
      (n < n' ↔ pass < pass' ∨ pass = pass' ∧ c < c') ∧ (n = n' ↔ pass = pass' ∧ c = c')) ∧
    (∀ passes n, n ≤ Limits.countMax →
      (n < ∑ p ∈ Finset.range passes, s.captureCount evenDown p ↔
        ∃ pass < passes, ∃ c : Channel,
          s.Captures evenDown pass c ∧ s.slot evenDown pass c.val = .ok n)) := by
  have hslot {pass n : Nat} {c : Channel} (h : s.slot evenDown pass c.val = .ok n) :
      n = s.ahead evenDown pass c.val := by
    obtain ⟨hfits, hover⟩ := @slot_eq_ahead s evenDown pass c
    by_cases hle : s.ahead evenDown pass c.val ≤ Limits.countMax
    · exact Except.ok.inj (h.symm.trans (hfits hle))
    · rcases hover (Nat.not_le.mp hle) with he | he <;> rw [he] at h <;> cases h
  refine ⟨slot_eq_ahead, fun pass c pass' c' n n' hc hc' h h' => ?_, fun passes n hn => ⟨?_, ?_⟩⟩
  · have hmono := @strictMonoOn_ahead s evenDown
    have hlt := hmono.lt_iff_lt (a := toLex (pass, c)) (b := toLex (pass', c')) hc hc'
    have heq := hmono.eq_iff_eq (a := toLex (pass, c)) (b := toLex (pass', c')) hc hc'
    rw [Prod.Lex.toLex_lt_toLex] at hlt
    rw [toLex_inj, Prod.mk.injEq] at heq
    rw [hslot h, hslot h']
    exact ⟨hlt, heq⟩
  · intro h
    obtain ⟨pass, hpass, c, hc, rfl⟩ := exists_ahead_eq h
    exact ⟨pass, hpass, c, hc, (slot_eq_ahead pass c).1 hn⟩
  · rintro ⟨pass, hpass, c, hc, h⟩
    rw [hslot h]
    exact ahead_lt_sum hc hpass

/-- One channel on the way down only, and one on both ways. -/
def downAndBoth : CaptureSetup := ⟨⟨⟨.downward, .rising, ""⟩, ⟨.both, .falling, ""⟩⟩, 1000, 100⟩

theorem slots_are_packed_downAndBoth :
    downAndBoth.ahead true 3 1 = 5 ∧ 5 ≤ Limits.countMax ∧ downAndBoth.slot true 3 1 = .ok 5 ∧
    downAndBoth.Captures true 2 0 ∧ downAndBoth.Captures true 3 1 ∧
    downAndBoth.slot true 2 0 = .ok 3 ∧
    (3 < 5 ↔ 2 < 3 ∨ 2 = 3 ∧ (0 : Channel) < 1) ∧
    (4 < ∑ p ∈ Finset.range 3, downAndBoth.captureCount true p ↔
      ∃ pass < 3, ∃ c : Channel,
        downAndBoth.Captures true pass c ∧ downAndBoth.slot true pass c.val = .ok 4) := by
  obtain ⟨hcount, horder, hfull⟩ := slots_are_packed downAndBoth true
  have hslot : downAndBoth.slot true 3 1 = .ok 5 := (hcount 3 1).1 (by decide)
  have hfirst : downAndBoth.slot true 2 0 = .ok 3 := (hcount 2 0).1 (by decide)
  exact ⟨by decide, by decide, hslot, by decide, by decide, hfirst,
    (horder 2 0 3 1 3 5 (by decide) (by decide) hfirst hslot).1, hfull 3 4 (by decide)⟩

end CaptureSetup

end SwitchBench
