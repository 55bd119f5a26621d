import Mathlib.Algebra.Group.Nat.Defs
import SwitchBench.Program.Entries
import SwitchBench.Proofs.Sampling.Checks
import SwitchBench.Settings.Basic

/-!
# The courses of an exercise

An exercise checks the channels over a range and then, if the check came to its end, acquires a
measurement over it. `Exercise.Courses` are the states that it can come to, with any samples that a
crew can take for it (`Crew.Serves`), and wherever the plunger is when it is asked for. All that the
exercise relies on is that a sample's answer is as long as its buffer.

The settings are validated once, before anything is set up. What the parts of an exercise insist on
later is checked by each of them again: the range and the window for every sample, the room for the
readings for the whole measurement and again for each of its passes. `Exercisable` is what is left
of the validation, and it is enough for all of them.

Results: `fits_of_lt` (whether the passes fit is always told), `Exercise.Sound.told` (one sample
keeps an exercise sound), `acceptable_of_wants` (every sample that it wants may be begun),
`exists_measurement` (a measurement that fits may be begun), `exists_passEntries` (every pass can be
told), `keepsContract_of_courses` (no course of an exercise breaches anything).
-/

namespace SwitchBench

/-! ## What is insisted on -/

/-- What a validated range, setup and number of passes have. -/
structure Exercisable (s : CheckSection) (setup : CaptureSetup) (passes : Nat) : Prop where
  top : Position.Valid s.top
  bottom : Position.Valid s.bottom
  order : s.top < s.bottom
  window : setup.Valid
  channels : setup.channelCount .both ≠ 0
  passes : passes < 2 ^ 61

/-- A sample to which neither the sampler nor the drive nor the recorder objects, and whose buffer
has room for what it reads. -/
structure Wanted.Acceptable (w : Wanted) : Prop where
  target : Position.Valid w.order.target
  window : w.order.setup.Valid
  room : w.order.setup.channelCount w.order.directions ≤ w.length

namespace Wanted.Acceptable

variable {w : Wanted}

theorem exists_start (h : w.Acceptable) (buffer : List Reading) :
    ∃ s, Sampler.start w.order buffer = .ok s := by
  unfold Sampler.start
  rw [if_neg (not_not_intro h.target), if_neg (not_not_intro h.window)]
  exact ⟨_, rfl⟩

theorem admits_move (h : w.Acceptable) :
    Drive.admits ⟨false, w.order.target, w.order.speed⟩ = .ok () :=
  if_pos (.inr h.target)

theorem admits_capture (h : w.Acceptable) : Recorder.admits w.order.setup = .ok () :=
  if_pos h.window

end Wanted.Acceptable

namespace CaptureSetup

variable (s : CaptureSetup) (evenDown : Bool)

/-- **Whether the passes fit is always told**, as long as the readings of twice as many passes can
be counted in a word. -/
theorem fits_of_lt {passes : Nat} (h : passes < 2 ^ 61) :
    s.fits evenDown passes
      = .ok (decide (s.readingsBefore evenDown passes ≤ Limits.readingsMax)) := by
  have hle := s.readingsBefore_le evenDown passes
  have hword : Limits.channelCount * 2 ^ 61 ≤ Limits.countMax := by decide
  have hmul := Nat.mul_le_mul_left Limits.channelCount (Nat.le_of_lt h)
  rw [fits_eq, if_pos (Nat.le_trans hle (Nat.le_trans hmul hword))]

end CaptureSetup

/-! ## Courses -/

/-- Where an exercise stands. -/
inductive Exercise where
  | checking (c : Check)
  | measuring (a : Acquisition)
  deriving DecidableEq, Repr

namespace Exercise

/-- The sample that an exercise wants. -/
def wants? : Exercise → Option Wanted
  | checking c => c.wants?
  | measuring a => a.wants?

/-- The exercise, told how its sample ended. -/
def told (o : SampleOutcome) (readings : List Reading) : Exercise → Exercise
  | checking c => checking (c.told o readings)
  | measuring a => measuring (a.told o readings)

end Exercise

variable {s : CheckSection} {setup : CaptureSetup} {passes : Nat}

/-! ## Where an exercise can come to -/

/-- An acquisition over a range has stored its passes, and has room for those to come. -/
structure Acquisition.Covers (s : CheckSection) (setup : CaptureSetup) (a : Acquisition) :
    Prop where
  stores : ∃ slices, a.measurement.Stores slices
  stands : a.Stands
  top : a.measurement.top = s.top
  bottom : a.measurement.bottom = s.bottom
  setup : a.measurement.setup = setup

namespace Acquisition

variable {a : Acquisition}

theorem Covers.proceed {m : Measurement} {p : AcquisitionPhase} {slices : List (List Reading)}
    (h : m.Stores slices) (ht : m.top = s.top) (hb : m.bottom = s.bottom) (hs : m.setup = setup) :
    (Acquisition.proceed ⟨m, p⟩).Covers s setup := by
  have hm := measurement_proceed ⟨m, p⟩
  exact ⟨⟨slices, hm ▸ h⟩, stands_proceed h, hm ▸ ht, hm ▸ hb, hm ▸ hs⟩

/-- An acquisition that stops early keeps what it has stored. -/
theorem Covers.stop (h : a.Covers s setup) {o : SampleOutcome} (ho : o ≠ .ok)
    (hp : 0 < a.measurement.requestedPasses →
      a.measurement.passes < a.measurement.requestedPasses) :
    Covers s setup { a with phase := .finished o } :=
  ⟨h.stores, stands_stop ho hp, h.top, h.bottom, h.setup⟩

/-- **However a sample ended, an acquisition has stored its passes**, and has room for those to
come. -/
theorem Covers.told (h : a.Covers s setup) {w : Wanted} (hw : a.wants? = some w) (o : SampleOutcome)
    {readings : List Reading} (hr : readings.length = w.length) :
    (a.told o readings).Covers s setup := by
  obtain ⟨slices, hstores⟩ := h.stores
  have hstands := h.stands
  rcases wants?_cases hw with hp | ⟨hp, -, -, hlength⟩
  · simp only [Stands, hp] at hstands
    simp only [Acquisition.told, hp]
    split
    · exact .proceed hstores h.top h.bottom h.setup
    · rename_i hok
      exact h.stop hok fun h0 => by omega
  · simp only [Stands, hp] at hstands
    simp only [Acquisition.told, hp]
    split
    · exact .proceed (hstores.addPass (hr.trans hlength) hstands) h.top h.bottom h.setup
    · rename_i hok
      exact h.stop hok fun _ => hstands

/-- After a sample that ended a pass there is a pass. -/
theorem passes_pos_of_endsPass {o : SampleOutcome} (h : a.endsPass o = true)
    (readings : List Reading) : 0 < (a.told o readings).measurement.passes := by
  unfold endsPass at h
  rw [Bool.and_eq_true, decide_eq_true_eq, decide_eq_true_eq] at h
  simp only [Acquisition.told, h.1, h.2, if_true, measurement_proceed]
  exact Nat.succ_pos _

/-- An acquisition that has room for its passes is not refused. -/
theorem Covers.not_refused (h : a.Covers s setup) (f : Fault) : a.result? ≠ some (.error f) := by
  intro hf
  have hstands := h.stands
  have hp : a.phase = .refused f := phase_of_result? hf
  simp only [Stands, hp] at hstands

end Acquisition

namespace Exercise

variable {x : Exercise} {w : Wanted}

/-- What is known of an exercise wherever it stands. -/
def Sound (s : CheckSection) (setup : CaptureSetup) (passes : Nat) : Exercise → Prop
  | checking c => c.order = ⟨s.top, s.bottom, s.speed, passes, setup⟩
  | measuring a => a.Covers s setup

/-- A measurement that was built from a range may be acquired. -/
theorem covers_of_start {evenDown : Bool} {m : Measurement} {a : Acquisition}
    (hm : Measurement.ofRange s.top s.bottom s.speed passes setup evenDown = .ok m)
    (ha : Acquisition.start m = .ok a) : a.Covers s setup := by
  obtain ⟨rfl, -, -, hstores⟩ := Measurement.stores_ofRange hm
  obtain ⟨rfl, hempty⟩ := Acquisition.eq_of_start ha
  exact ⟨⟨_, hstores⟩, hempty, rfl, rfl, rfl⟩

/-- **Whatever becomes of its sample, an exercise stays sound.** -/
theorem Sound.told (h : x.Sound s setup passes) (hw : x.wants? = some w) (o : SampleOutcome)
    {readings : List Reading} (hr : readings.length = w.length) :
    (x.told o readings).Sound s setup passes := by
  cases x with
  | checking c => exact (c.order_told o readings).trans h
  | measuring a => exact Acquisition.Covers.told h hw o hr

/-- **Every sample that an exercise wants may be begun.** -/
theorem acceptable_of_wants (hv : Exercisable s setup passes) (h : x.Sound s setup passes)
    (hw : x.wants? = some w) : w.Acceptable := by
  have htop (b : Bool) : Position.Valid (if b then s.top else s.bottom) := by
    split
    · exact hv.top
    · exact hv.bottom
  have hbottom (b : Bool) : Position.Valid (if b then s.bottom else s.top) := by
    split
    · exact hv.bottom
    · exact hv.top
  cases x with
  | checking c =>
    have horder : c.order = _ := h
    simp only [wants?, Check.wants?, horder] at hw
    split at hw <;> cases hw
    · exact ⟨htop _, hv.window, (setup.channelCount_none).le⟩
    · exact ⟨hbottom _, hv.window, setup.channelCount_le _⟩
  | measuring a =>
    obtain ⟨-, -, ht, hb, hs⟩ := h
    simp only [wants?, Acquisition.wants?, ht, hb, hs] at hw
    split at hw <;> cases hw
    · exact ⟨htop _, hv.window, (setup.channelCount_none).le⟩
    · exact ⟨hbottom _, hv.window, Nat.le_refl _⟩

end Exercise

/-- A check may be begun. -/
theorem Exercisable.exists_check (hv : Exercisable s setup passes) :
    ∃ c, Check.start ⟨s.top, s.bottom, s.speed, passes, setup⟩ = .ok c := by
  unfold Check.start
  rw [if_neg (not_not_intro ⟨hv.top, hv.bottom⟩), if_neg (not_not_intro hv.window),
    if_neg hv.channels]
  exact ⟨_, rfl⟩

/-- **A measurement that fits may be begun**, and it can be told whether it captures anything. -/
theorem Exercisable.exists_measurement (hv : Exercisable s setup passes) {evenDown : Bool}
    (hf : setup.fits evenDown passes = .ok true) :
    ∃ m a null, Measurement.ofRange s.top s.bottom s.speed passes setup evenDown = .ok m ∧
      m.isNull = .ok null ∧ Acquisition.start m = .ok a := by
  have hm : Measurement.ofRange s.top s.bottom s.speed passes setup evenDown
      = .ok ⟨setup, s.top, s.bottom, s.speed, passes, evenDown, 0, 0, []⟩ := by
    simp only [Measurement.ofRange, bind, Except.bind, pure, Except.pure, hf]
    rw [if_neg (not_not_intro ⟨hv.top, hv.bottom⟩), if_neg (not_not_intro hv.order),
      if_neg (not_not_intro hv.window), if_neg hv.channels]
    rfl
  obtain ⟨-, -, -, hstores⟩ := Measurement.stores_ofRange hm
  exact ⟨_, _, _, hm, hstores.isNull_eq, rfl⟩

namespace Measurement.Stores

variable {m : Measurement} {slices : List (List Reading)}

/-- Every channel of every pass that was done can be looked up. -/
theorem exists_reading (h : m.Stores slices) {pass : Nat} (hp : pass < m.passes) (channel : Nat) :
    ∃ r, m.reading pass channel = .ok r := by
  have hslice : pass < slices.length := h.passes ▸ hp
  cases hc : Channel.ofNat? channel with
  | none => exact ⟨_, h.reading_eq_none hslice hc⟩
  | some c =>
    rw [← Channel.val_of_ofNat? hc]
    exact ⟨_, h.reading_eq hslice c⟩

/-- **Every pass that was done can be told in the journal.** -/
theorem exists_passEntries (h : m.Stores slices) (hp : 0 < m.passes) :
    ∃ l, Program.passEntries m = .ok l := by
  have hlast : m.passes - 1 < slices.length := by
    rw [h.passes]
    omega
  have hdirections : m.passDirections (m.passes - 1)
      = .ok (CaptureSetup.passDirections m.evenDown (m.passes - 1)) := if_pos (by omega)
  have hreading (c : Channel) := h.reading_eq hlast c
  simp only [Program.passEntries, hdirections, bind, Except.bind, Channel.all, List.mapM_cons,
    List.mapM_nil, hreading, pure, Except.pure]
  exact ⟨_, rfl⟩

end Measurement.Stores

/-! ## Every course -/

/-- The states that an exercise can come to. Each of its samples is taken by a crew, in which
everybody else may act at any moment. Between two samples the plunger may get anywhere. -/
inductive Exercise.Courses (p : StepPeriods) (rate : Nat) (s : CheckSection) (setup : CaptureSetup)
    (passes : Nat) : Exercise → Prop
  | start {c : Check} (position : Int)
      (hc : Check.start ⟨s.top, s.bottom, s.speed, passes, setup⟩ = .ok c) :
      Courses p rate s setup passes
        (checking (if c.result?.isSome then c else c.located position))
  | sample {x : Exercise} {w : Wanted} {buffer : List Reading} {c₀ c : Crew} {t : Crew.Trace}
      {o : SampleOutcome} (h : Courses p rate s setup passes x) (hw : x.wants? = some w)
      (hb : buffer.length = w.length) (hs : Sampler.start w.order buffer = .ok c₀.sampler)
      (hc : Crew.Serves p rate c₀ t c) (ho : c.sampler.result? = some (.ok o)) :
      Courses p rate s setup passes (x.told o c.sampler.buffer)
  | measure {c : Check} {m : Measurement} {a : Acquisition} (position : Int)
      (h : Courses p rate s setup passes (checking c)) (hc : c.result? = some .ok)
      (hm : Measurement.ofRange s.top s.bottom s.speed passes setup
        (beginsDown position s.top s.bottom) = .ok m)
      (ha : Acquisition.start m = .ok a) : Courses p rate s setup passes (measuring a)

/-- A sample that is wanted breaches nothing. Neither the drive nor the recorder nor the sampler
objects to it, its buffer has room for what is read in it, and however it goes, it is not refused
later. -/
structure Wanted.KeepsContract (p : StepPeriods) (rate : Nat) (w : Wanted) : Prop where
  move : Drive.admits ⟨false, w.order.target, w.order.speed⟩ = .ok ()
  capture : Recorder.admits w.order.setup = .ok ()
  start : ∀ buffer, ∃ s, Sampler.start w.order buffer = .ok s
  room : w.order.setup.channelCount w.order.directions ≤ w.length
  finish : ∀ c₀ t c, Crew.Serves p rate c₀ t c → c₀.sampler.order = w.order →
    ∀ f, c.sampler.result? ≠ some (.error f)

/-- An exercise breaches nothing where it stands. It may begin the sample that it wants. After a
check that came to its end it can be told whether the passes fit, wherever the plunger is, and if
they do, the measurement may be begun. An acquisition always has room for its next pass, and every
pass that it has done can be looked up and told. -/
structure Exercise.KeepsContract (p : StepPeriods) (rate : Nat) (s : CheckSection)
    (setup : CaptureSetup) (passes : Nat) (x : Exercise) : Prop where
  sample : ∀ w, x.wants? = some w → w.KeepsContract p rate
  fits : ∀ c, x = checking c → c.result? = some .ok → ∀ evenDown,
    setup.fits evenDown passes
      = .ok (decide (setup.readingsBefore evenDown passes ≤ Limits.readingsMax))
  measurement : ∀ c, x = checking c → c.result? = some .ok → ∀ evenDown,
    setup.readingsBefore evenDown passes ≤ Limits.readingsMax → ∃ m a null,
      Measurement.ofRange s.top s.bottom s.speed passes setup evenDown = .ok m ∧
      m.isNull = .ok null ∧ Acquisition.start m = .ok a
  room : ∀ a, x = measuring a → ∀ f, a.result? ≠ some (.error f)
  passes : ∀ a, x = measuring a → ∀ pass < a.measurement.passes,
    (∃ d, a.measurement.passDirections pass = .ok d) ∧
      ∀ channel, ∃ r, a.measurement.reading pass channel = .ok r
  journal : ∀ a, x = measuring a → 0 < a.measurement.passes →
    ∃ l, Program.passEntries a.measurement = .ok l

namespace Exercise

variable {x : Exercise} {p : StepPeriods} {rate : Nat}

/-- **Where an exercise can come to.** -/
theorem sound_of_courses (h : Courses p rate s setup passes x) : x.Sound s setup passes := by
  induction h with
  | start position hc =>
    show Check.order _ = _
    split
    · exact Check.order_of_start hc
    · rw [Check.order_located, Check.order_of_start hc]
  | sample _ hw hb hs hc _ ih =>
    refine ih.told hw _ ?_
    rw [hc.length_buffer, ← hb, Crew.sampler_of_start hs]
  | measure position _ _ hm ha => exact covers_of_start hm ha

/-- **No course of an exercise breaches anything.** -/
theorem keepsContract_of_courses (hv : Exercisable s setup passes)
    (h : Courses p rate s setup passes x) : x.KeepsContract p rate s setup passes := by
  have hsound := sound_of_courses h
  refine ⟨fun w hw => ?_, fun _ _ _ evenDown => setup.fits_of_lt evenDown hv.passes,
    fun _ _ _ evenDown hroom => ?_, ?_, ?_, ?_⟩
  · have haccept := acceptable_of_wants hv hsound hw
    exact ⟨haccept.admits_move, haccept.admits_capture, haccept.exists_start, haccept.room,
      fun _ _ _ hc _ => hc.not_refused⟩
  · refine hv.exists_measurement ?_
    rw [setup.fits_of_lt evenDown hv.passes, decide_eq_true hroom]
  · rintro a rfl
    exact Acquisition.Covers.not_refused hsound
  · rintro a rfl pass hpass
    obtain ⟨_, hstores⟩ := Acquisition.Covers.stores hsound
    exact ⟨⟨_, if_pos hpass⟩, hstores.exists_reading hpass⟩
  · rintro a rfl hpass
    obtain ⟨_, hstores⟩ := Acquisition.Covers.stores hsound
    exact hstores.exists_passEntries hpass

end Exercise

end SwitchBench
