import SwitchBench.Proofs.Capture.DenseSlots
import SwitchBench.Sampling.Measurement

/-!
# What a measurement stores

A measurement keeps the readings of its passes one after the other, and finds them again by the
dense layout. `Measurement.Stores` says of which slices, one for each pass that was done, its list
is made.

Results: `stores_ofRange` and `Stores.addPass` (a measurement begins without slices, and a pass adds
one), `Stores.passReadings_eq` and `Stores.reading_eq` (a pass is looked up as its slice, and a
channel at its rank in the slice).
-/

namespace SwitchBench

namespace Measurement

/-- The readings of a measurement are these slices, one for each pass, and there is room for the
passes that were asked for. -/
structure Stores (m : Measurement) (slices : List (List Reading)) : Prop where
  passes : slices.length = m.passes
  sizes : ∀ p (hp : p < slices.length),
    slices[p].length = m.setup.channelCount (CaptureSetup.passDirections m.evenDown p)
  readings : m.readings = slices.flatten
  captured : m.capturedPasses = slices.countP (· ≠ [])
  room : m.setup.readingsBefore m.evenDown m.requestedPasses ≤ Limits.readingsMax
  done : m.passes ≤ m.requestedPasses

variable {m : Measurement} {slices : List (List Reading)}

/-- A measurement begins without slices. -/
theorem stores_ofRange {top bottom : Int} {speed : Speed} {passes : Nat} {setup : CaptureSetup}
    {evenDown : Bool} (h : ofRange top bottom speed passes setup evenDown = .ok m) :
    m = ⟨setup, top, bottom, speed, passes, evenDown, 0, 0, []⟩ ∧
      (Position.Valid top ∧ Position.Valid bottom) ∧ setup.Valid ∧ m.Stores [] := by
  simp only [ofRange, bind, Except.bind, throw, throwThe, MonadExceptOf.throw, pure,
    Except.pure] at h
  split at h
  · cases h
  rename_i hrange
  split at h
  · cases h
  split at h
  · cases h
  rename_i hvalid
  split at h
  · cases h
  cases hf : setup.fits evenDown passes with
  | error f =>
    rw [hf] at h
    cases h
  | ok fits =>
    rw [hf] at h
    cases fits with
    | false => cases h
    | true =>
      cases h
      exact ⟨rfl, Decidable.not_not.mp hrange, Decidable.not_not.mp hvalid, rfl, nofun, rfl, rfl,
        setup.readingsBefore_le_of_fits evenDown hf, Nat.zero_le _⟩

/-- The slices of the first passes are as long as the layout says. -/
theorem Stores.length_flatten_take (h : m.Stores slices) {p : Nat} (hp : p ≤ slices.length) :
    (slices.take p).flatten.length = m.setup.readingsBefore m.evenDown p := by
  induction p with
  | zero => rfl
  | succ p ih =>
    have hlt : p < slices.length := hp
    rw [List.take_succ_eq_append_getElem hlt, List.flatten_append, List.flatten_singleton,
      List.length_append, ih (Nat.le_of_lt hlt), CaptureSetup.readingsBefore, ← h.sizes p hlt]

theorem Stores.length_readings (h : m.Stores slices) :
    m.readings.length = m.setup.readingsBefore m.evenDown m.passes := by
  rw [h.readings, ← h.passes, ← h.length_flatten_take (Nat.le_refl _), List.take_length]

/-- There is room for a pass that is yet to be done. -/
theorem Stores.room_for_next (h : m.Stores slices) (hp : m.passes < m.requestedPasses) :
    m.readings.length + m.setup.channelCount m.nextDirections ≤ Limits.readingsMax := by
  rw [h.length_readings]
  exact Nat.le_trans (m.setup.readingsBefore_mono m.evenDown hp) h.room

/-- A pass adds a slice. -/
theorem Stores.addPass (h : m.Stores slices) {readings : List Reading}
    (hn : readings.length = m.setup.channelCount m.nextDirections)
    (hp : m.passes < m.requestedPasses) :
    (m.addPass readings).Stores (slices ++ [readings]) where
  passes := by
    rw [List.length_append, h.passes]
    rfl
  sizes p hlt := by
    rw [List.length_append, List.length_singleton] at hlt
    by_cases hpass : p < slices.length
    · rw [List.getElem_append_left hpass]
      exact h.sizes p hpass
    · have hlast : p = slices.length := by omega
      subst hlast
      rw [List.getElem_concat_length rfl, hn, nextDirections, ← h.passes]
      rfl
  readings := by
    rw [List.flatten_append, List.flatten_singleton, ← h.readings]
    rfl
  captured := by
    rw [List.countP_append, List.countP_singleton, ← h.captured]
    show m.capturedPasses + _ = _
    rw [← hn]
    cases readings <;> rfl
  room := h.room
  done := hp

/-! ## Looking results up -/

/-- The slots of all passes that were asked for fit a word. -/
theorem Stores.readingsBefore_add_two_le (h : m.Stores slices) {p : Nat}
    (hp : p ≤ m.requestedPasses) :
    m.setup.readingsBefore m.evenDown p + 2 ≤ Limits.countMax := by
  have hle := m.setup.readingsBefore_mono m.evenDown hp
  have hroom := h.room
  have hword : Limits.readingsMax + 2 ≤ Limits.countMax := by decide
  omega

/-- A pass begins after the readings of those before it. -/
theorem Stores.slot_zero (h : m.Stores slices) {p : Nat} (hp : p ≤ m.requestedPasses) :
    m.setup.slot m.evenDown p 0 = .ok (m.setup.readingsBefore m.evenDown p) := by
  rw [m.setup.slot_eq m.evenDown (by decide : 0 < 2) (h.readingsBefore_add_two_le hp),
    CaptureSetup.rank_zero, Nat.add_zero]

/-- It can be told whether there is anything to capture at all. -/
theorem Stores.isNull_eq (h : m.Stores slices) :
    m.isNull = .ok (m.setup.readingsBefore m.evenDown m.requestedPasses = 0) := by
  rw [isNull, h.slot_zero (Nat.le_refl _)]
  rfl

/-- Where the layout puts a pass, its slice begins. -/
theorem Stores.drop_readings (h : m.Stores slices) {p : Nat} (hp : p < slices.length) :
    m.readings.drop (m.setup.readingsBefore m.evenDown p)
      = slices[p] ++ (slices.drop (p + 1)).flatten := by
  have hsplit : slices.flatten = (slices.take p).flatten ++ (slices.drop p).flatten := by
    rw [← List.flatten_append, List.take_append_drop]
  rw [← h.length_flatten_take (Nat.le_of_lt hp), h.readings, hsplit, List.drop_left,
    List.drop_eq_getElem_cons hp, List.flatten_cons]

/-- **A pass is looked up as its slice.** -/
theorem Stores.passReadings_eq (h : m.Stores slices) {p : Nat} (hp : p < slices.length) :
    m.passReadings p = .ok slices[p] := by
  have hpass : p < m.passes := h.passes ▸ hp
  have hslot := h.slot_zero (Nat.le_trans (Nat.le_of_lt hpass) h.done)
  have hend : m.setup.readingsBefore m.evenDown p
      + m.setup.channelCount (CaptureSetup.passDirections m.evenDown p) ≤ m.readings.length := by
    rw [h.length_readings]
    exact m.setup.readingsBefore_mono m.evenDown hpass
  simp only [passReadings, passChannels, passDirections, if_pos hpass, Except.map, bind,
    Except.bind, hslot, if_pos hend, pure, Except.pure]
  rw [h.drop_readings hp, List.take_left' (h.sizes p hp)]

/-- **A channel of a pass is looked up at its rank in the slice of the pass.** -/
theorem Stores.reading_eq (h : m.Stores slices) {p : Nat} (hp : p < slices.length) (c : Channel) :
    m.reading p c.val
      = .ok (if m.setup.enables c (CaptureSetup.passDirections m.evenDown p) then
          slices[p][m.setup.rank (CaptureSetup.passDirections m.evenDown p) c.val]? else none) := by
  have hpass : p < m.passes := h.passes ▸ hp
  have hslot := m.setup.slot_eq m.evenDown c.isLt
    (h.readingsBefore_add_two_le (Nat.le_trans (Nat.le_of_lt hpass) h.done))
  have hchannel : Channel.ofNat? c.val = some c := by
    rw [Channel.ofNat?, dif_pos c.isLt]
  simp only [reading, passDirections, if_pos hpass, bind, Except.bind, hchannel, hslot, pure,
    Except.pure]
  split
  · rename_i hon
    have hrank := m.setup.rank_lt _ c hon
    rw [← h.sizes p hp] at hrank
    rw [← List.getElem?_drop, h.drop_readings hp, List.getElem?_append_left hrank]
  · rfl

/-- There is nothing to look up for a channel that does not exist. -/
theorem Stores.reading_eq_none (h : m.Stores slices) {p : Nat} (hp : p < slices.length)
    {channel : Nat} (hc : Channel.ofNat? channel = none) : m.reading p channel = .ok none := by
  simp only [reading, passDirections, if_pos (h.passes ▸ hp : p < m.passes), bind, Except.bind, hc,
    pure, Except.pure]

end Measurement

end SwitchBench
