import SwitchBench.Proofs.Sampling.Readout
import SwitchBench.Proofs.Sampling.Storage

/-!
# Acquiring a measurement

An acquisition is told how each of its samples ended, and keeps the readings of those that ended a
pass. `Acquisition.Reaches` are the states that it can come to, with any sample that a crew can take
(`Crew.Takes`) for each that it wants; if it ends before its first pass, the measurement can be
acquired again. The log of an acquisition lists the samples taken for it, newest first, and
`passRecords` is what was read in its passes, first pass first.

Results: `Sound.told` (one sample keeps the invariant), `stored_where_looked_up` (every reading is
found under its pass and its channel, whatever became of the acquisition).
-/

namespace SwitchBench

namespace Measurement

/-- The measurement before anything of it was acquired. -/
def unacquired (m : Measurement) : Measurement :=
  { m with capturedPasses := 0, passes := 0, readings := [] }

/-- The readings of each pass, given its record. -/
def slices (m : Measurement) (xs : List PassRecord) : List (List Reading) :=
  xs.mapIdx fun p x =>
    (m.setup.watched (CaptureSetup.passDirections m.evenDown p)).map x.reading

variable {m : Measurement} {xs : List PassRecord}

@[simp] theorem setup_unacquired : m.unacquired.setup = m.setup := rfl

@[simp] theorem evenDown_unacquired : m.unacquired.evenDown = m.evenDown := rfl

@[simp] theorem length_slices : (m.slices xs).length = xs.length := List.length_mapIdx

theorem slices_concat (x : PassRecord) :
    m.slices (xs ++ [x]) = m.slices xs ++
      [(m.setup.watched (CaptureSetup.passDirections m.evenDown xs.length)).map x.reading] :=
  List.mapIdx_concat

theorem Stores.passReadings_slices (h : m.Stores (m.slices xs)) {p : Nat} (hp : p < xs.length) :
    m.passReadings p = .ok
      ((m.setup.watched (CaptureSetup.passDirections m.evenDown p)).map xs[p].reading) := by
  rw [h.passReadings_eq (by rwa [length_slices])]
  simp only [slices, List.getElem_mapIdx]

/-- A channel that a pass captured is looked up as its reading in the record of the pass. -/
theorem Stores.reading_slices (h : m.Stores (m.slices xs)) {p : Nat} (hp : p < xs.length)
    (channel : Nat) :
    m.reading p channel = .ok ((Channel.ofNat? channel).bind fun c =>
      if m.setup.enables c (CaptureSetup.passDirections m.evenDown p) then some (xs[p].reading c)
      else none) := by
  have hslice : p < (m.slices xs).length := by rwa [length_slices]
  cases hc : Channel.ofNat? channel with
  | none => exact h.reading_eq_none hslice hc
  | some c =>
    rw [← Channel.val_of_ofNat? hc, h.reading_eq hslice c, Option.bind_some]
    split
    · rename_i hon
      simp only [slices, List.getElem_mapIdx]
      rw [CaptureSetup.getElem?_rank _ _ _ _ hon]
    · rfl

end Measurement

namespace Acquisition

/-- A sample that was taken for an acquisition: what the acquisition was like before, what happened
in the sample, and how it ended. -/
structure Sampled where
  before : Acquisition
  trace : Crew.Trace
  outcome : SampleOutcome

/-- What was read in each pass, first pass first, given the samples so far, newest first. -/
def passRecords : List Sampled → List PassRecord
  | [] => []
  | e :: l =>
    passRecords l ++ if e.before.endsPass e.outcome then (Crew.record e.trace).toList else []

/-- The states that an acquisition of a measurement can come to, with any samples. -/
inductive Reaches (p : StepPeriods) (rate : Nat) : List Sampled → Acquisition → Prop
  | start {top bottom : Int} {speed : Speed} {passes : Nat} {setup : CaptureSetup}
      {evenDown : Bool} {m : Measurement} {a : Acquisition}
      (hm : Measurement.ofRange top bottom speed passes setup evenDown = .ok m)
      (ha : start m = .ok a) : Reaches p rate [] a
  | again {l : List Sampled} {a b : Acquisition} (h : Reaches p rate l a)
      (he : a.result?.isSome = true) (hb : start a.measurement = .ok b) : Reaches p rate l b
  | sample {l : List Sampled} {a : Acquisition} {w : Wanted} {t : Crew.Trace} {c : Crew}
      {o : SampleOutcome} (h : Reaches p rate l a) (hw : a.wants? = some w)
      (hc : Crew.Takes p rate w t c) (ho : c.sampler.result? = some (.ok o)) :
      Reaches p rate (⟨a, t, o⟩ :: l) (a.told o c.sampler.buffer)

/-! ## What an acquisition has stored -/

/-- Where an acquisition stands tells how many passes there are. -/
def Stands (a : Acquisition) : Prop :=
  match a.phase with
  | .approaching => a.measurement.passes = 0
  | .passing => a.measurement.passes < a.measurement.requestedPasses
  | .finished .ok => a.measurement.passes = a.measurement.requestedPasses
  | .finished _ =>
    0 < a.measurement.requestedPasses → a.measurement.passes < a.measurement.requestedPasses
  | .refused _ => False

/-- An acquisition has stored what was read in its passes. -/
structure Sound (xs : List PassRecord) (a : Acquisition) : Prop where
  stores : a.measurement.Stores (a.measurement.slices xs)
  stands : a.Stands

variable {a b : Acquisition} {xs : List PassRecord} {p : StepPeriods} {rate : Nat}
  {l : List Sampled}

theorem eq_of_start {m : Measurement} (h : start m = .ok a) :
    a = ⟨m, .approaching⟩ ∧ m.passes = 0 := by
  unfold start at h
  split at h
  · rename_i he
    cases h
    exact ⟨rfl, of_decide_eq_true he⟩
  · cases h

theorem phase_of_result? {x : Except Fault SampleOutcome} (h : a.result? = some x) :
    a.phase = match x with
      | .ok o => .finished o
      | .error f => .refused f := by
  unfold result? at h
  split at h <;> cases h <;> assumption

theorem Sound.length (h : a.Sound xs) : xs.length = a.measurement.passes := by
  rw [← h.stores.passes, Measurement.length_slices]

theorem measurement_proceed (a : Acquisition) :
    a.proceed.measurement = a.measurement := by
  unfold proceed
  dsimp only
  split_ifs <;> rfl

/-- There is room for every pass that is left to do. -/
theorem stands_proceed {slices : List (List Reading)} (h : a.measurement.Stores slices) :
    a.proceed.Stands := by
  unfold proceed
  dsimp only
  split
  · rename_i hdone
    exact Nat.le_antisymm h.done hdone
  · rename_i hleft
    rw [Nat.not_le] at hleft
    rw [if_neg (Nat.not_lt.mpr (h.room_for_next hleft))]
    exact hleft

/-- What a sample is wanted for. -/
theorem wants?_cases {w : Wanted} (h : a.wants? = some w) :
    a.phase = .approaching ∨
    (a.phase = .passing ∧ w.order.setup = a.measurement.setup ∧
      w.order.directions = a.measurement.nextDirections ∧
      w.length = a.measurement.setup.channelCount a.measurement.nextDirections) := by
  unfold wants? at h
  split at h
  · exact .inl ‹_›
  · cases h
    exact .inr ⟨‹_›, rfl, rfl, rfl⟩
  · cases h

/-- An acquisition that goes on keeps what it has stored. -/
theorem sound_proceed (h : a.measurement.Stores (a.measurement.slices xs)) :
    a.proceed.Sound xs :=
  ⟨by rwa [measurement_proceed], stands_proceed h⟩

/-- An acquisition that stops early has passes left to do, if there were any. -/
theorem stands_stop {o : SampleOutcome} (ho : o ≠ .ok)
    (hp : 0 < a.measurement.requestedPasses →
      a.measurement.passes < a.measurement.requestedPasses) :
    Stands { a with phase := .finished o } := by
  cases o with
  | ok => exact absurd rfl ho
  | aborted | poweredOff => exact hp

/-- An acquisition that stops early keeps what it has stored. -/
theorem Sound.stop (h : a.Sound xs) {o : SampleOutcome} (ho : o ≠ .ok)
    (hp : 0 < a.measurement.requestedPasses →
      a.measurement.passes < a.measurement.requestedPasses) :
    Sound xs { a with phase := .finished o } := ⟨h.stores, stands_stop ho hp⟩

/-- A pass is stored as its record says. -/
theorem Sound.addPass (h : a.Sound xs)
    (hp : a.measurement.passes < a.measurement.requestedPasses) (x : PassRecord) :
    let readings := (a.measurement.setup.watched a.measurement.nextDirections).map x.reading
    (a.measurement.addPass readings).Stores
      ((a.measurement.addPass readings).slices (xs ++ [x])) := by
  intro readings
  have hcount : readings.length
      = a.measurement.setup.channelCount a.measurement.nextDirections := by
    rw [List.length_map, CaptureSetup.length_watched]
  have hstores := h.stores.addPass hcount hp
  have hslices : (a.measurement.addPass readings).slices (xs ++ [x])
      = a.measurement.slices xs ++ [readings] := by
    rw [Measurement.slices_concat, h.length]
    rfl
  rwa [hslices]

/-- **A sample that ended a pass adds its record, and any other sample adds nothing.** -/
theorem Sound.told (h : a.Sound xs) {w : Wanted} {t : Crew.Trace} {c : Crew} {o : SampleOutcome}
    (hw : a.wants? = some w) (hc : Crew.Takes p rate w t c)
    (ho : c.sampler.result? = some (.ok o)) :
    (a.told o c.sampler.buffer).Sound
      (xs ++ if a.endsPass o then (Crew.record t).toList else []) := by
  have hstands := h.stands
  rcases wants?_cases hw with hp | ⟨hp, hsetup, hdirections, hlength⟩
  · -- the way to the first end stores nothing, even if it went well
    simp only [Stands, hp] at hstands
    simp only [Acquisition.told, endsPass, hp, reduceCtorEq, decide_false, Bool.false_and,
      Bool.false_eq_true, if_false, List.append_nil]
    split
    · exact sound_proceed h.stores
    · rename_i hok
      exact h.stop hok fun h0 => by omega
  · simp only [Stands, hp] at hstands
    simp only [Acquisition.told, endsPass, hp, decide_true, Bool.true_and, decide_eq_true_eq]
    by_cases hok : o = .ok
    · subst hok
      obtain ⟨x, hx, hb⟩ := hc.readings ho (by rw [hlength, hsetup, hdirections])
      rw [if_pos rfl, if_pos rfl, hx, Option.toList_some, hb, hsetup, hdirections]
      exact sound_proceed (h.addPass hstands x)
    · rw [if_neg hok, if_neg hok, List.append_nil]
      exact h.stop hok fun _ => hstands

/-! ## Every run -/

theorem sound_of_reaches (h : Reaches p rate l a) : a.Sound (passRecords l) := by
  induction h with
  | start hm ha =>
    obtain ⟨rfl, hempty⟩ := eq_of_start ha
    exact ⟨(Measurement.stores_ofRange hm).2.2.2, hempty⟩
  | again _ _ hb ih =>
    obtain ⟨rfl, hempty⟩ := eq_of_start hb
    exact ⟨ih.stores, hempty⟩
  | sample _ hw hc ho ih => exact ih.told hw hc ho

/-- An acquisition changes nothing of what it was asked for. -/
theorem unacquired_told (a : Acquisition) (o : SampleOutcome) (readings : List Reading) :
    (a.told o readings).measurement.unacquired = a.measurement.unacquired := by
  unfold told
  split
  · split
    · rw [measurement_proceed]
    · rfl
  · split
    · rw [measurement_proceed]
      rfl
    · rfl
  · rfl

/-- What was stored before a sample is still there after all that came later. -/
theorem earlier_of_reaches (h : Reaches p rate l a) {e : Sampled} (he : e ∈ l) :
    ∃ xs, e.before.Sound xs ∧ xs <+: passRecords l ∧
      e.before.measurement.unacquired = a.measurement.unacquired := by
  induction h with
  | start _ _ => cases he
  | again _ _ hb ih =>
    obtain ⟨rfl, -⟩ := eq_of_start hb
    exact ih he
  | @sample l a w t c o h _ _ _ ih =>
    rw [unacquired_told]
    rcases List.mem_cons.mp he with rfl | he
    · exact ⟨_, sound_of_reaches h, List.prefix_append _ _, rfl⟩
    · obtain ⟨xs, hx, hxs, hm⟩ := ih he
      exact ⟨xs, hx, hxs.trans (List.prefix_append _ _), hm⟩

/-- What is looked up in a pass is told by the record of the pass alone. -/
theorem Sound.lookup_eq_of_prefix {ys : List PassRecord} (h : a.Sound xs) (hb : b.Sound ys)
    (hxs : xs <+: ys) (hm : a.measurement.unacquired = b.measurement.unacquired) {q : Nat}
    (hq : q < a.measurement.passes) :
    b.measurement.passReadings q = a.measurement.passReadings q ∧
      ∀ channel, b.measurement.reading q channel = a.measurement.reading q channel := by
  have hsetup : a.measurement.setup = b.measurement.setup := by
    rw [← Measurement.setup_unacquired, hm, Measurement.setup_unacquired]
  have hdown : a.measurement.evenDown = b.measurement.evenDown := by
    rw [← Measurement.evenDown_unacquired, hm, Measurement.evenDown_unacquired]
  have hx : q < xs.length := h.length ▸ hq
  have hy : q < ys.length := Nat.lt_of_lt_of_le hx hxs.length_le
  have hsame : ys[q] = xs[q] := (hxs.getElem hx).symm
  refine ⟨?_, fun channel => ?_⟩
  · rw [hb.stores.passReadings_slices hy, h.stores.passReadings_slices hx, hsame, hsetup, hdown]
  · rw [hb.stores.reading_slices hy, h.stores.reading_slices hx, hsame, hsetup, hdown]

/-- **A measurement stores every reading where it is looked up.** However its samples came out, and
even if it had to be acquired again: of every pass that was done, a channel is looked up as what the
engine read for it in the sample of the pass, if the pass captured it; the passes are all that is
stored, one after the other; and what was found before a sample is found after it. -/
theorem stored_where_looked_up (h : Reaches p rate l a) :
    -- every channel of every pass that was done
    ((passRecords l).length = a.measurement.passes ∧
      ∀ q (hq : q < (passRecords l).length) channel,
        a.measurement.reading q channel = .ok ((Channel.ofNat? channel).bind fun c =>
          if a.measurement.setup.enables c
              (CaptureSetup.passDirections a.measurement.evenDown q) then
            some ((passRecords l)[q].reading c)
          else none)) ∧
    -- the passes one after the other
    (∃ slices : List (List Reading), slices.length = a.measurement.passes ∧
      (∀ q (hq : q < slices.length), a.measurement.passReadings q = .ok slices[q]) ∧
      slices.flatten = a.measurement.readings ∧
      a.measurement.capturedPasses = slices.countP (· ≠ [])) ∧
    -- the number of passes, by how the acquisition ended
    (a.measurement.passes ≤ a.measurement.requestedPasses ∧
      (∀ o, a.result? = some (.ok o) → if o = .ok
        then a.measurement.passes = a.measurement.requestedPasses
        else 0 < a.measurement.requestedPasses →
          a.measurement.passes < a.measurement.requestedPasses) ∧
      (∀ f, a.result? ≠ some (.error f)) ∧ ∃ null, a.measurement.isNull = .ok null) ∧
    -- whatever was asked for, and stored before one of the samples
    ∀ e ∈ l, e.before.measurement.unacquired = a.measurement.unacquired ∧
      ∀ q < e.before.measurement.passes,
        a.measurement.passReadings q = e.before.measurement.passReadings q ∧
          ∀ channel, a.measurement.reading q channel = e.before.measurement.reading q channel := by
  have hs := sound_of_reaches h
  have hstands := hs.stands
  refine ⟨⟨hs.length, fun q hq => hs.stores.reading_slices hq⟩, ⟨_, hs.stores.passes,
    fun q hq => hs.stores.passReadings_eq hq, hs.stores.readings.symm, hs.stores.captured⟩,
    ⟨hs.stores.done, fun o ho => ?_, fun f hf => ?_, ?_⟩, fun e he => ?_⟩
  · have hp : a.phase = .finished o := phase_of_result? ho
    simp only [Stands, hp] at hstands
    cases o with
    | ok => exact hstands
    | aborted | poweredOff => exact hstands
  · have hp : a.phase = .refused f := phase_of_result? hf
    simp only [Stands, hp] at hstands
  · exact ⟨_, hs.stores.isNull_eq⟩
  · obtain ⟨xs, hx, hxs, hm⟩ := earlier_of_reaches h he
    exact ⟨hm, fun q hq => hx.lookup_eq_of_prefix hs hxs hm hq⟩

/-- One pass down by one step, in which the first channel captures a rising edge. -/
def onePass : Measurement :=
  ⟨⟨⟨⟨.both, .rising, "key"⟩, .unused⟩, 100, 0⟩, 0, 1, .fastest, 1, true, 0, 0, []⟩

/-- The plunger goes down by one step, and the key is pressed one tick later. -/
def press : List Crew.Action :=
  List.flatten [
    List.replicate 6 .sampler,
    List.replicate 4 (.drive (.stepper .done)), [.drive (.stepper (.ticked true))],
    List.replicate 6 (.drive (.stepper .done)),
    [.recorder (.enter .handling), .recorder (.proceed 0), .recorder (.wait 20),
      .recorder (.edge ⟨0, Nat.zero_lt_two⟩ .rising), .recorder (.enter .handling),
      .recorder (.proceed 0), .recorder .expire, .recorder (.enter .handling),
      .recorder (.proceed 0), .recorder (.proceed 0)],
    [.drive (.stepper (.cycles 7)), .drive (.stepper (.ticked true))],
    List.replicate 5 (.drive (.stepper .done)),
    List.replicate 9 .sampler]

theorem stored_where_looked_up_onePass :
    ∃ l a, Reaches .standard 1 l a ∧ a.result? = some (.ok .ok) ∧
      (passRecords l).length = a.measurement.passes ∧ a.measurement.passes = 1 ∧
      a.measurement.reading 0 0 = .ok (some ⟨.ok, 20⟩) ∧ a.measurement.reading 0 1 = .ok none := by
  have hstart : Reaches .standard 1 [] ⟨onePass, .approaching⟩ :=
    .start (show Measurement.ofRange 0 1 .fastest 1 onePass.setup true = .ok onePass from rfl) rfl
  have happroach := of_play? (P := Crew.Takes .standard 1 ⟨⟨0, .fastest, onePass.setup, .none⟩, 0⟩)
    (fun _ _ _ _ => .act) [.drive .powerOn, .sampler] (Crew.takes_fresh rfl rfl) rfl
  have hready := hstart.sample rfl happroach rfl
  have hpass := of_play?
    (P := Crew.Takes .standard 1 ⟨⟨1, .fastest, onePass.setup, .downward⟩, 1⟩)
    (fun _ _ _ _ => .act) press (happroach.next rfl rfl) rfl
  have h := hready.sample rfl hpass rfl
  obtain ⟨⟨hlength, -⟩, -⟩ := stored_where_looked_up h
  exact ⟨_, _, h, rfl, hlength, rfl, rfl, rfl⟩

end Acquisition

end SwitchBench
