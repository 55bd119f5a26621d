import Mathlib.Data.Set.Card
import SwitchBench.Proofs.Sampling.Acquire

/-!
# What a measurement announces

From its setup and the number of its passes alone a measurement tells in which directions it
captures, on how many channels, and whether there is anything to capture. It takes a shortcut for
each: no pass, one pass and more passes differ in the directions, the channels are those of these
directions, and nothing is captured if the pass after the last one would begin at the first slot.

The directions that the passes cover are a fold over the passes (`CaptureSetup.coveredBy`), and the
other two are told by it.

Results: `enables_coveredBy` (a channel is captured in the covered directions if a pass captures
it), `readingsBefore_eq_zero_iff` (there are no readings if no channel is captured in the covered
directions), `announces_what_it_acquires` (all three shortcuts agree with what was acquired).
-/

namespace SwitchBench

namespace CaptureSetup

variable (s : CaptureSetup) (evenDown : Bool) {d d' : Directions}

/-- The directions of the first passes of a series, united. -/
def coveredBy (evenDown : Bool) (passes : Nat) : Directions :=
  ((List.range passes).map (passDirections evenDown)).foldl Directions.union .none

theorem coveredBy_succ (n : Nat) :
    coveredBy evenDown (n + 1) = (coveredBy evenDown n).union (passDirections evenDown n) := by
  unfold coveredBy
  rw [List.range_succ, List.map_append, List.foldl_append]
  rfl

/-- Two passes go both ways, and so do more. -/
theorem coveredBy_add_two (n : Nat) : coveredBy evenDown (n + 2) = .both := by
  induction n with
  | zero => cases evenDown <;> rfl
  | succ n ih =>
    rw [coveredBy_succ, ih]
    rfl

theorem enables_union (c : Channel) :
    s.enables c (d.union d') = (s.enables c d || s.enables c d') := by
  unfold enables Directions.intersects Directions.union
  cases (s.channels.get c).directions.up <;> cases (s.channels.get c).directions.down <;>
    cases d.up <;> cases d.down <;> cases d'.up <;> cases d'.down <;> rfl

/-- **A channel is captured in the covered directions if a pass captures it.** -/
theorem enables_coveredBy (n : Nat) (c : Channel) :
    s.enables c (coveredBy evenDown n) = true ↔
      ∃ q < n, s.enables c (passDirections evenDown q) = true := by
  induction n with
  | zero => simp [coveredBy, enables]
  | succ n ih =>
    rw [coveredBy_succ, enables_union, Bool.or_eq_true, ih]
    constructor
    · rintro (⟨q, hq, hc⟩ | hc)
      · exact ⟨q, Nat.lt_succ_of_lt hq, hc⟩
      · exact ⟨n, Nat.lt_succ_self n, hc⟩
    · rintro ⟨q, hq, hc⟩
      rcases Nat.lt_succ_iff_lt_or_eq.mp hq with hlt | rfl
      · exact .inl ⟨q, hlt, hc⟩
      · exact .inr hc

theorem channelCount_eq_zero_iff : s.channelCount d = 0 ↔ ∀ c, s.enables c d = false := by
  unfold channelCount
  rw [List.countP_eq_zero]
  constructor
  · intro h c
    exact eq_false_of_ne_true (h c (Channel.mem_all c))
  · intro h c _
    exact ne_true_of_eq_false (h c)

theorem channelCount_union_eq_zero_iff :
    s.channelCount (d.union d') = 0 ↔ s.channelCount d = 0 ∧ s.channelCount d' = 0 := by
  simp only [channelCount_eq_zero_iff, enables_union, Bool.or_eq_false_iff, forall_and]

/-- **There are no readings if no channel is captured in the covered directions.** -/
theorem readingsBefore_eq_zero_iff (n : Nat) :
    s.readingsBefore evenDown n = 0 ↔ s.channelCount (coveredBy evenDown n) = 0 := by
  induction n with
  | zero => exact iff_of_true rfl s.channelCount_none
  | succ n ih =>
    rw [coveredBy_succ, channelCount_union_eq_zero_iff, ← ih, readingsBefore]
    exact Nat.add_eq_zero_iff

/-- The channels captured in some directions are as many as are counted. -/
theorem ncard_enables (d : Directions) :
    Set.ncard {channel : Nat | ∃ c : Channel, c.val = channel ∧ s.enables c d = true}
      = s.channelCount d := by
  have hwatched : {channel : Nat | ∃ c : Channel, c.val = channel ∧ s.enables c d = true}
      = Fin.val '' ((s.watched d).toFinset : Set Channel) := by
    ext channel
    simp only [Set.mem_ofPred_eq, Set.mem_image, Finset.mem_coe, List.mem_toFinset, mem_watched]
    exact exists_congr fun c => and_comm
  have hnodup : (s.watched d).Nodup := List.Nodup.filter _ (by decide)
  rw [hwatched, Set.ncard_image_of_injective _ Fin.val_injective, Set.ncard_coe_finset,
    List.toFinset_card_of_nodup hnodup, length_watched]

end CaptureSetup

namespace Measurement

variable {m : Measurement} {slices : List (List Reading)} {xs : List PassRecord}

/-- The directions are told by the number of passes. -/
theorem requestedDirections_eq (m : Measurement) :
    m.requestedDirections = CaptureSetup.coveredBy m.evenDown m.requestedPasses := by
  unfold requestedDirections
  match m.requestedPasses with
  | 0 => rfl
  | 1 => cases m.evenDown <;> rfl
  | n + 2 => exact (CaptureSetup.coveredBy_add_two m.evenDown n).symm

/-- Every pass that was done tells its directions. -/
theorem mapM_passDirections {l : List Nat} (hl : ∀ q ∈ l, q < m.passes) :
    l.mapM m.passDirections = .ok (l.map (CaptureSetup.passDirections m.evenDown)) := by
  induction l with
  | nil => rfl
  | cons q l ih =>
    have hq : m.passDirections q = .ok (CaptureSetup.passDirections m.evenDown q) :=
      if_pos (hl q List.mem_cons_self)
    rw [List.mapM_cons, hq, ih fun r hr => hl r (List.mem_cons_of_mem q hr)]
    rfl

/-- A pass that stored no readings was not counted as captured. -/
theorem Stores.capturedPasses_eq_zero_iff (h : m.Stores slices) :
    m.capturedPasses = 0 ↔ m.readings = [] := by
  rw [h.captured, h.readings, List.countP_eq_zero, List.flatten_eq_nil_iff]
  simp

theorem Stores.readings_eq_nil_iff (h : m.Stores slices) :
    m.readings = [] ↔ m.setup.readingsBefore m.evenDown m.passes = 0 := by
  rw [← List.length_eq_zero_iff, h.length_readings]

/-- A channel has a reading in a pass exactly if the pass captures it. -/
theorem Stores.exists_reading_iff (h : m.Stores (m.slices xs)) {q : Nat} (hq : q < xs.length)
    (channel : Nat) :
    (∃ r, m.reading q channel = .ok (some r)) ↔ ∃ c : Channel, c.val = channel ∧
      m.setup.enables c (CaptureSetup.passDirections m.evenDown q) = true := by
  rw [h.reading_slices hq]
  constructor
  · rintro ⟨r, hr⟩
    obtain ⟨c, hc, hr⟩ := Option.bind_eq_some_iff.mp (Except.ok.inj hr)
    rw [Option.ite_none_right_eq_some] at hr
    exact ⟨c, Channel.val_of_ofNat? hc, hr.1⟩
  · rintro ⟨c, rfl, hon⟩
    have hc : Channel.ofNat? c.val = some c := dif_pos c.isLt
    rw [hc, Option.bind_some, if_pos hon]
    exact ⟨_, rfl⟩

/-- A channel has a reading in some pass exactly if it is captured in the directions of the passes
that were done. -/
theorem Stores.exists_pass_iff (h : m.Stores (m.slices xs)) (channel : Nat) :
    (∃ q < m.passes, ∃ r, m.reading q channel = .ok (some r)) ↔ ∃ c : Channel, c.val = channel ∧
      m.setup.enables c (CaptureSetup.coveredBy m.evenDown m.passes) = true := by
  have hlength : xs.length = m.passes := by rw [← h.passes, length_slices]
  constructor
  · rintro ⟨q, hq, hr⟩
    obtain ⟨c, hc, hon⟩ := (h.exists_reading_iff (hlength ▸ hq) channel).mp hr
    exact ⟨c, hc, (m.setup.enables_coveredBy m.evenDown m.passes c).mpr ⟨q, hq, hon⟩⟩
  · rintro ⟨c, hc, hon⟩
    obtain ⟨q, hq, hon⟩ := (m.setup.enables_coveredBy m.evenDown m.passes c).mp hon
    exact ⟨q, hq, (h.exists_reading_iff (hlength ▸ hq) channel).mpr ⟨c, hc, hon⟩⟩

end Measurement

namespace Acquisition

variable {p : StepPeriods} {rate : Nat} {l : List Sampled} {a : Acquisition}

/-- **What a measurement announces is what it acquires.** Once all its passes were done, the
directions it announced are those of its passes, united; the number of channels is that of the
channels that have a reading in some pass; and it announced that there is nothing to capture
exactly if it stored no reading, exactly if that number is zero, and exactly if no pass captured
anything. -/
theorem announces_what_it_acquires (h : Reaches p rate l a) (hok : a.result? = some (.ok .ok)) :
    let m := a.measurement
    m.passes = m.requestedPasses ∧
    (∃ ds, (List.range m.passes).mapM m.passDirections = .ok ds ∧
      m.requestedDirections = ds.foldl Directions.union .none) ∧
    m.requestedChannels
      = Set.ncard {channel | ∃ q < m.passes, ∃ r, m.reading q channel = .ok (some r)} ∧
    ∃ null, m.isNull = .ok null ∧ (null = true ↔ m.readings = []) ∧
      (null = true ↔ m.requestedChannels = 0) ∧ (null = true ↔ m.capturedPasses = 0) := by
  intro m
  have hs := sound_of_reaches h
  have hpasses : m.passes = m.requestedPasses := by
    have hstands := hs.stands
    have hphase : a.phase = .finished .ok := phase_of_result? hok
    simpa only [Stands, hphase] using hstands
  have hdirections : m.requestedDirections = CaptureSetup.coveredBy m.evenDown m.passes := by
    rw [m.requestedDirections_eq, hpasses]
  -- there is nothing to capture if no channel is captured in the announced directions
  have hnull : m.setup.readingsBefore m.evenDown m.passes = 0 ↔ m.requestedChannels = 0 := by
    rw [CaptureSetup.readingsBefore_eq_zero_iff, ← hdirections]
    rfl
  have hempty := hs.stores.readings_eq_nil_iff
  refine ⟨hpasses, ⟨_, Measurement.mapM_passDirections fun q hq => List.mem_range.mp hq,
    hdirections⟩, ?_, _, hs.stores.isNull_eq, ?_, ?_, ?_⟩
  · rw [show m.requestedChannels = m.setup.channelCount m.requestedDirections from rfl, hdirections,
      ← CaptureSetup.ncard_enables]
    exact congrArg Set.ncard (Set.ext fun channel => (hs.stores.exists_pass_iff channel).symm)
  · rw [decide_eq_true_iff, ← hpasses, hempty]
  · rw [decide_eq_true_iff, ← hpasses, hnull]
  · rw [decide_eq_true_iff, ← hpasses, hs.stores.capturedPasses_eq_zero_iff, hempty]

/-- A pass down by one step and one back up; the first channel captures on the way down only. -/
def downAndUp : Measurement :=
  ⟨⟨⟨⟨.downward, .rising, "key"⟩, .unused⟩, 100, 0⟩, 0, 1, .fastest, 2, true, 0, 0, []⟩

/-- The plunger goes up by one step, after a rest, and the window passes with nothing to capture. -/
def release : List Crew.Action :=
  List.flatten [
    List.replicate 6 .sampler,
    List.replicate 4 (.drive (.stepper .done)), [.drive (.stepper (.ticked true))],
    List.replicate 2 (.drive (.stepper .done)), [.drive (.stepper (.cycles 7))],
    List.replicate 5 (.drive (.stepper .done)),
    [.recorder (.enter .handling), .recorder (.proceed 0), .recorder (.wait 100),
      .recorder .expire, .recorder (.enter .handling), .recorder (.proceed 0),
      .recorder (.proceed 0)],
    [.drive (.stepper (.cycles 7)), .drive (.stepper (.ticked true))],
    List.replicate 5 (.drive (.stepper .done)),
    List.replicate 9 .sampler]

theorem announces_what_it_acquires_downAndUp :
    ∃ l a, Reaches .standard 1 l a ∧ a.result? = some (.ok .ok) ∧ a.measurement.passes = 2 ∧
      a.measurement.requestedDirections = .both ∧ a.measurement.requestedChannels = 1 ∧
      a.measurement.isNull = .ok false ∧ a.measurement.readings = [⟨.ok, 20⟩] ∧
      a.measurement.capturedPasses ≠ 0 := by
  have hstart : Reaches .standard 1 [] ⟨downAndUp, .approaching⟩ :=
    .start (show Measurement.ofRange 0 1 .fastest 2 downAndUp.setup true = .ok downAndUp from rfl)
      rfl
  have happroach := of_play?
    (P := Crew.Takes .standard 1 ⟨⟨0, .fastest, downAndUp.setup, .none⟩, 0⟩)
    (fun _ _ _ _ => .act) [.drive .powerOn, .sampler] (Crew.takes_fresh rfl rfl) rfl
  have hready := hstart.sample rfl happroach rfl
  have hdown := of_play?
    (P := Crew.Takes .standard 1 ⟨⟨1, .fastest, downAndUp.setup, .downward⟩, 1⟩)
    (fun _ _ _ _ => .act) press (happroach.next rfl rfl) rfl
  have hturned := hready.sample rfl hdown rfl
  have hup := of_play?
    (P := Crew.Takes .standard 1 ⟨⟨0, .fastest, downAndUp.setup, .upward⟩, 0⟩)
    (fun _ _ _ _ => .act) release (hdown.next rfl rfl) rfl
  have h := hturned.sample rfl hup rfl
  obtain ⟨hpasses, -, -, null, hnull, -, -, hcaptured⟩ := announces_what_it_acquires h rfl
  refine ⟨_, _, h, rfl, hpasses, rfl, rfl, rfl, rfl, fun h0 => ?_⟩
  have htrue := hcaptured.mpr h0
  rw [htrue] at hnull
  cases hnull

end Acquisition

end SwitchBench
