import Mathlib.Algebra.Group.Nat.Defs
import SwitchBench.Proofs.Capture.DenseSlots
import SwitchBench.Proofs.Sampling.Acquire
import SwitchBench.Proofs.Sampling.Landing
import SwitchBench.Workbench.Run

/-!
# The passes of a check

A check goes to the nearer end of its track without capturing, and then back and forth until it has
counted the passes that were ordered. A pass in whose direction no channel is captured does not
count, so it is not the number of passes done that ends a check. But of two passes in a row one
counts, if any channel is ever captured, and that is why a check ends (`Check.Sound`).

`Check.Reaches` are the states that a check can come to, with any samples that a crew can take for
it one after the other (`Crew.Serves`). What it has counted is told by the log of its samples, from
what the engine read of the channels in each of them (`Check.Logged`). The buffer of a pass is as
long as there are channels at all; those of the pass are read from its start. What a bench
answers that runs a check is one of these states (`Workbench.reaches_of_check`).

Results: `Sound.told` and `Logged.told` (one sample keeps the count and the log of a check),
`answers_check` (a bench that runs a check brings it to its end), `lands_of_reaches` (where the
plunger is after a sample), `passes_as_ordered` (a check does the passes that were ordered, and
counts them).
-/

namespace SwitchBench

namespace CaptureSetup

variable {s : CaptureSetup} {evenDown : Bool}

/-- Number of the passes before a pass in which a channel is captured. -/
def capturedBefore (s : CaptureSetup) (evenDown : Bool) : Nat → Nat
  | 0 => 0
  | pass + 1 =>
    capturedBefore s evenDown pass
      + if s.channelCount (passDirections evenDown pass) = 0 then 0 else 1

/-- A channel that is ever captured is captured in one of the two directions. -/
theorem roundSize_ne_zero (h : s.channelCount .both ≠ 0) : s.roundSize ≠ 0 := by
  intro h0
  have hsizes : s.channels.ch0.directions.size = 0 ∧ s.channels.ch1.directions.size = 0 := by
    unfold roundSize at h0
    omega
  have hoff (d : Directions) (hd : d.size = 0) : d.intersects .both = false := by
    rw [Directions.intersects_both, hd]
    rfl
  have hfirst : s.enables 0 .both = false := hoff _ hsizes.1
  have hsecond : s.enables 1 .both = false := hoff _ hsizes.2
  exact h (by rw [channelCount_eq, hfirst, hsecond]; rfl)

/-- Of two passes in a row one captures. -/
theorem capturedBefore_lt (h : s.channelCount .both ≠ 0) (pass : Nat) :
    s.capturedBefore evenDown pass < s.capturedBefore evenDown (pass + 2) := by
  have hround := s.roundSize_eq (passDown evenDown pass)
  have hnext : passDirections evenDown (pass + 1) = .ofDown !passDown evenDown pass := by
    unfold passDirections passDown
    rcases Nat.mod_two_eq_zero_or_one pass with hp | hp <;>
      simp [hp, Nat.add_mod]
  have hne := roundSize_ne_zero h
  simp only [capturedBefore, hnext]
  unfold passDirections
  split_ifs <;> omega

/-- At most every other pass captures nothing. -/
theorem le_capturedBefore (h : s.channelCount .both ≠ 0) (pass : Nat) :
    pass ≤ 2 * s.capturedBefore evenDown pass + 1 := by
  induction pass using Nat.twoStepInduction with
  | zero => exact Nat.zero_le _
  | one => exact Nat.le_add_left _ _
  | more pass ih _ =>
    have hlt := @capturedBefore_lt s evenDown h pass
    omega

end CaptureSetup

/-! ## The count of a check -/

/-- The sample of a check that comes after so many others, if the plunger was at a position when it
began. The first one goes to the nearer end, the bottom if they are equally near, and captures
nothing; then they go to the other end in turn, and capture what is to be captured on the way. -/
def CheckOrder.leg (o : CheckOrder) (position : Int) (i : Nat) : Wanted :=
  let up := beginsDown position o.top o.bottom == (i % 2 == 0)
  ⟨⟨if up then o.top else o.bottom, o.speed, o.setup,
    if i = 0 then .none else if up then .upward else .downward⟩,
    if i = 0 then 0 else Limits.channelCount⟩

/-- A pass of a check goes to the end that lies in its direction. -/
theorem CheckOrder.leg_succ (o : CheckOrder) (position : Int) (pass : Nat) :
    let d := CaptureSetup.passDirections (beginsDown position o.top o.bottom) pass
    o.leg position (pass + 1)
      = ⟨⟨if d.down then o.bottom else o.top, o.speed, o.setup, d⟩, Limits.channelCount⟩ := by
  unfold leg CaptureSetup.passDirections CaptureSetup.passDown
  rcases Nat.mod_two_eq_zero_or_one pass with hp | hp <;>
    cases beginsDown position o.top o.bottom <;>
    simp [hp, Nat.add_mod, Directions.ofDown, Directions.upward, Directions.downward]

namespace Check

variable {k : Check} {o : CheckOrder} {position : Int} {w : Wanted} {x : SampleOutcome}
  {readings : List Reading}

/-- A check has counted the passes it did in which a channel is captured, and is not done before
they are as many as were ordered. -/
structure Sound (k : Check) : Prop where
  captures : k.order.setup.channelCount .both ≠ 0
  captured : k.captured = k.order.setup.capturedBefore k.evenDown k.pass
  bound : k.pass ≤ 2 * k.order.passes
  left : k.phase ≠ .finished .ok → k.captured < k.order.passes
  done : k.phase = .finished .ok → k.captured = k.order.passes
  begun : k.phase = .locating ∨ k.phase = .approaching → k.pass = 0

/-- The most samples that a check has yet to take. -/
def samplesLeft (k : Check) : Nat :=
  match k.phase with
  | .approaching => 2 * k.order.passes + 1
  | .passing => 2 * k.order.passes - k.pass
  | _ => 0

/-- What becomes of a check that wanted a sample. -/
theorem told_cases (hw : k.wants? = some w) (x : SampleOutcome) (readings : List Reading) :
    k.phase = .approaching ∧
      k.told x readings = { k with phase := if x = .ok then .passing else .finished x } ∨
    k.phase = .passing ∧ x = .ok ∧ k.told x readings = k.counted readings ∨
    k.phase = .passing ∧ x ≠ .ok ∧ k.told x readings = { k with phase := .finished x } := by
  unfold wants? at hw
  split at hw
  · rename_i hp
    exact .inl ⟨hp, by simp only [told, hp]⟩
  · rename_i hp
    by_cases hx : x = .ok
    · exact .inr (.inl ⟨hp, hx, by simp only [told, hp, hx, if_true]⟩)
    · exact .inr (.inr ⟨hp, hx, by simp only [told, hp, hx, if_false]⟩)
  · cases hw

/-- A check counts a pass if it captures, and a trigger if all the channels of the pass did. -/
theorem counted_eq (k : Check) (readings : List Reading) :
    let n := k.order.setup.channelCount k.directions
    let captured := k.captured + if n = 0 then 0 else 1
    k.counted readings = { k with
      captured := captured
      triggers := k.triggers
        + if n ≠ 0 ∧ (readings.take n).all Reading.triggered then 1 else 0
      pass := k.pass + 1
      phase := if captured < k.order.passes then .passing else .finished .ok } := by
  unfold counted
  by_cases hn : k.order.setup.channelCount k.directions = 0 <;> simp [hn]

theorem order_located (k : Check) (position : Int) : (k.located position).order = k.order := by
  unfold located
  split <;> rfl

theorem order_told (k : Check) (x : SampleOutcome) (readings : List Reading) :
    (k.told x readings).order = k.order := by
  unfold told
  split
  · rfl
  · split
    · rw [counted_eq]
    · rfl
  · rfl

theorem evenDown_told (k : Check) (x : SampleOutcome) (readings : List Reading) :
    (k.told x readings).evenDown = k.evenDown := by
  unfold told
  split
  · rfl
  · split
    · rw [counted_eq]
    · rfl
  · rfl

/-- **A check wants its legs**: first the one to the nearer end, and then one for each pass. -/
theorem wanted_cases (ho : k.order = o) (hdown : k.evenDown = beginsDown position o.top o.bottom)
    (hw : k.wants? = some w) :
    k.phase = .approaching ∧ w = o.leg position 0 ∨
      k.phase = .passing ∧ w = o.leg position (k.pass + 1) := by
  unfold wants? at hw
  split at hw
  · rename_i hp
    cases hw
    exact .inl ⟨hp, by simp [CheckOrder.leg, ho, hdown]⟩
  · rename_i hp
    cases hw
    exact .inr ⟨hp, by rw [CheckOrder.leg_succ, directions, hdown, ho]⟩
  · cases hw

/-- A check without passes is done when it starts. -/
theorem eq_of_start (h : start o = .ok k) :
    o.setup.channelCount .both ≠ 0 ∧
      (o.passes = 0 ∧ k = ⟨o, .finished .ok, false, 0, 0, 0⟩ ∨
        0 < o.passes ∧ k = ⟨o, .locating, false, 0, 0, 0⟩) := by
  unfold start at h
  split_ifs at h with _ _ hn hp
  · cases h
    exact ⟨hn, .inl ⟨hp, rfl⟩⟩
  · cases h
    exact ⟨hn, .inr ⟨Nat.pos_of_ne_zero hp, rfl⟩⟩

theorem valid_of_start (h : start o = .ok k) :
    (Position.Valid o.top ∧ Position.Valid o.bottom) ∧ o.setup.Valid := by
  unfold start at h
  split_ifs at h with hr hw
  · exact ⟨hr, hw⟩
  · exact ⟨hr, hw⟩

theorem order_of_start (h : start o = .ok k) : k.order = o := by
  obtain ⟨-, ⟨-, rfl⟩ | ⟨-, rfl⟩⟩ := eq_of_start h <;> rfl

theorem sound_of_start (h : start o = .ok k) : k.Sound := by
  obtain ⟨hn, ⟨hp, rfl⟩ | ⟨hp, rfl⟩⟩ := eq_of_start h
  · exact ⟨hn, rfl, Nat.zero_le _, fun h0 => absurd rfl h0, fun _ => hp.symm, fun _ => rfl⟩
  · exact ⟨hn, rfl, Nat.zero_le _, fun _ => hp, fun h0 => (by cases h0), fun _ => rfl⟩

theorem Sound.located (h : k.Sound) (hp : k.phase = .locating) (position : Int) :
    (k.located position).Sound := by
  have hpass := h.begun (.inl hp)
  have hleft := h.left (by simp [hp])
  have hnone (evenDown : Bool) : k.captured = k.order.setup.capturedBefore evenDown k.pass := by
    rw [h.captured, hpass]
    rfl
  unfold Check.located
  split
  · exact ⟨h.captures, hnone _, h.bound, fun _ => hleft, fun h0 => (by cases h0), fun _ => hpass⟩
  · exact ⟨h.captures, hnone _, h.bound, fun _ => hleft, fun h0 => (by cases h0), fun _ => hpass⟩

/-- While a check goes back and forth it may do another pass. -/
theorem Sound.pass_lt (h : k.Sound) (hp : k.phase = .passing) : k.pass < 2 * k.order.passes := by
  have hle := @CaptureSetup.le_capturedBefore k.order.setup k.evenDown h.captures k.pass
  have hleft := h.left (by simp [hp])
  rw [← h.captured] at hle
  omega

/-- A check that has done a pass has counted it. -/
theorem Sound.counted (h : k.Sound) (hp : k.phase = .passing) (readings : List Reading) :
    (k.counted readings).Sound := by
  have hleft := h.left (by simp [hp])
  rw [counted_eq]
  have hnext : k.captured + (if k.order.setup.channelCount k.directions = 0 then 0 else 1)
      = k.order.setup.capturedBefore k.evenDown (k.pass + 1) := by
    rw [h.captured]
    rfl
  have hle : k.captured + (if k.order.setup.channelCount k.directions = 0 then 0 else 1)
      ≤ k.order.passes := by
    split <;> omega
  generalize k.captured + _ = captured at hnext hle
  by_cases hmore : captured < k.order.passes
  · rw [if_pos hmore]
    exact ⟨h.captures, hnext, h.pass_lt hp, fun _ => hmore, fun h0 => (by cases h0), by simp⟩
  · rw [if_neg hmore]
    exact ⟨h.captures, hnext, h.pass_lt hp, fun h0 => absurd rfl h0,
      fun _ => Nat.le_antisymm hle (Nat.not_lt.mp hmore), by simp⟩

/-- **A check keeps its count**, whatever it is told of the sample that it wanted. -/
theorem Sound.told (h : k.Sound) (hw : k.wants? = some w) (x : SampleOutcome)
    (readings : List Reading) : (k.told x readings).Sound := by
  rcases told_cases hw x readings with ⟨hp, he⟩ | ⟨hp, rfl, he⟩ | ⟨hp, hx, he⟩ <;> rw [he]
  · refine ⟨h.captures, h.captured, h.bound, fun _ => h.left (by simp [hp]), ?_,
      fun _ => h.begun (.inr hp)⟩
    dsimp only
    split
    · exact fun h0 => by cases h0
    · exact fun h0 => absurd (CheckPhase.finished.inj h0) ‹_›
  · exact h.counted hp readings
  · exact ⟨h.captures, h.captured, h.bound, fun _ => h.left (by simp [hp]),
      fun h0 => absurd (CheckPhase.finished.inj h0) hx, by simp⟩

/-- Every sample that a check takes leaves it fewer to take. -/
theorem Sound.samplesLeft_told (h : k.Sound) (hw : k.wants? = some w) (x : SampleOutcome)
    (readings : List Reading) : (k.told x readings).samplesLeft < k.samplesLeft := by
  rcases told_cases hw x readings with ⟨hp, he⟩ | ⟨hp, rfl, he⟩ | ⟨hp, hx, he⟩ <;> rw [he] <;>
    simp only [samplesLeft, hp]
  · split_ifs <;> dsimp only <;> omega
  · have hlt := h.pass_lt hp
    rw [counted_eq]
    dsimp only
    split_ifs <;> dsimp only <;> omega
  · have hlt := h.pass_lt hp
    omega

/-! ## Running a check -/

/-- A check that wants no sample, and does not wait to be told where the plunger is, is done. -/
theorem isSome_result?_of_wants? (hp : k.phase ≠ .locating) (hw : k.wants? = none) :
    k.result?.isSome = true := by
  unfold wants? at hw
  unfold result?
  cases hq : k.phase with
  | locating => exact absurd hq hp
  | approaching | passing => simp [hq] at hw
  | finished x => rfl

theorem phase_told_ne_locating (hw : k.wants? = some w) (x : SampleOutcome)
    (readings : List Reading) : (k.told x readings).phase ≠ .locating := by
  rcases told_cases hw x readings with ⟨-, he⟩ | ⟨-, -, he⟩ | ⟨-, -, he⟩ <;> rw [he]
  · dsimp only
    split <;> simp
  · rw [counted_eq]
    split_ifs <;> simp
  · simp

theorem samplesLeft_le (k : Check) : k.samplesLeft ≤ k.samplesMax := by
  unfold samplesLeft samplesMax
  split <;> omega

/-- What a bench answers that runs a check: a check that is done, or why a sample of the check has
no answer. -/
def Answers (draining : Bool) (o : CheckOrder) (position : Int) : Except Refusal Check → Prop
  | .ok k => k.result?.isSome = true
  | .error e => ∃ (v : Workbench) (i : Nat),
    (v.sample draining (o.leg position i).order (Workbench.blanks (o.leg position i).length)).2
      = .error e

/-- **With samples enough a check comes to its end**, unless a sample has no answer. -/
theorem answers_checkFor {draining : Bool} {n : Nat} (h : k.Sound) (ho : k.order = o)
    (hdown : k.wants? ≠ none → k.evenDown = beginsDown position o.top o.bottom)
    (hp : k.phase ≠ .locating) (hn : k.samplesLeft ≤ n) (v : Workbench) :
    Answers draining o position (v.checkFor draining n k).2 := by
  induction n generalizing v k with
  | zero =>
    refine isSome_result?_of_wants? hp ?_
    cases hw : k.wants? with
    | none => rfl
    | some w =>
      have hlt := h.samplesLeft_told hw .ok []
      omega
  | succ n ih =>
    unfold Workbench.checkFor
    cases hw : k.wants? with
    | none => exact isSome_result?_of_wants? hp hw
    | some w =>
      have hsame := hdown (by simp [hw])
      rcases hs : v.sample draining w.order (Workbench.blanks w.length) with ⟨v', e | ⟨x, readings⟩⟩
      · simp only [hs]
        obtain ⟨i, rfl⟩ : ∃ i, w = o.leg position i := by
          rcases wanted_cases ho hsame hw with ⟨-, he⟩ | ⟨-, he⟩
          · exact ⟨_, he⟩
          · exact ⟨_, he⟩
        exact ⟨v, i, congrArg Prod.snd hs⟩
      · simp only [hs]
        have hlt := h.samplesLeft_told hw x readings
        exact ih (h.told hw x readings) ((order_told k x readings).trans ho)
          (fun _ => (evenDown_told k x readings).trans hsame) (phase_told_ne_locating hw x readings)
          (by omega) _

/-- **A bench that runs a check brings it to its end**, unless a sample has no answer. -/
theorem answers_check {draining : Bool} (hk : start o = .ok k) (v : Workbench) :
    Answers draining o v.rig.drive.locate (v.check draining o).2 := by
  have hsound := sound_of_start hk
  unfold Workbench.check
  rw [hk]
  obtain ⟨-, ⟨-, rfl⟩ | ⟨-, rfl⟩⟩ := eq_of_start hk
  · exact answers_checkFor hsound rfl (fun h0 => absurd rfl h0) (by simp) (samplesLeft_le _) v
  · refine answers_checkFor (hsound.located rfl _) (order_located _ _) ?_ ?_ (samplesLeft_le _) v
    · unfold located
      split
      · exact fun _ => rfl
      · exact fun h0 => absurd rfl h0
    · unfold located
      split <;> simp

theorem fst_check_of_no_passes {draining : Bool} {v : Workbench} (hp : o.passes = 0) :
    (v.check draining o).1 = v := by
  unfold Workbench.check
  split
  · rfl
  · rename_i k hs
    obtain ⟨-, ⟨-, rfl⟩ | ⟨hpos, -⟩⟩ := eq_of_start hs
    · rfl
    · omega

/-! ## The samples of a check -/

/-- A sample that was taken for a check: what was wanted, the crew that entered it, what happened in
it, the crew as it was left, and how it ended. -/
structure Sampled where
  wanted : Wanted
  entered : Crew
  trace : Crew.Trace
  left : Crew
  outcome : SampleOutcome

/-- Is it a pass that counts? It ended well, and a channel is captured in its direction. -/
def Sampled.counts (e : Sampled) : Bool :=
  e.outcome = .ok && e.wanted.order.setup.channelCount e.wanted.order.directions ≠ 0

/-- Is it a pass that counts, and did all channels that it captured trigger? -/
def Sampled.triggered (e : Sampled) : Bool :=
  e.counts && (Crew.record e.trace).any fun x =>
    (e.wanted.order.setup.watched e.wanted.order.directions).all fun c => (x.reading c).triggered

/-- The states that a check can come to, with the samples taken for it, newest first. It is told
where the plunger was when it asked. Everybody else may act at any moment, in a sample and between
two of them, but nobody else moves the plunger or captures. -/
inductive Reaches (p : StepPeriods) (rate : Nat) (o : CheckOrder) (position : Int) :
    List Sampled → Check → Prop
  | start {k : Check} (hk : start o = .ok k) : Reaches p rate o position [] k
  | locate {l : List Sampled} {k : Check} (h : Reaches p rate o position l k)
      (hp : k.phase = .locating) : Reaches p rate o position l (k.located position)
  | sample {l : List Sampled} {k : Check} {w : Wanted} {buffer : List Reading} {c₀ c : Crew}
      {t : Crew.Trace} {x : SampleOutcome} (h : Reaches p rate o position l k)
      (hw : k.wants? = some w) (hlast : ∀ e ∈ l.head?, c₀ = { e.left with sampler := c₀.sampler })
      (hb : buffer.length = w.length) (hs : Sampler.start w.order buffer = .ok c₀.sampler)
      (hc : Crew.Serves p rate c₀ t c) (hx : c.sampler.result? = some (.ok x)) :
      Reaches p rate o position (⟨w, c₀, t, c, x⟩ :: l) (k.told x c.sampler.buffer)

/-- Where a check stands tells which samples were taken for it. -/
def Stands (o : CheckOrder) (position : Int) (l : List Sampled) (k : Check) : Prop :=
  match k.phase with
  | .locating => l = []
  | .approaching => l = [] ∧ k.evenDown = beginsDown position o.top o.bottom
  | .passing => l.length = k.pass + 1 ∧ k.evenDown = beginsDown position o.top o.bottom ∧
      ∀ e ∈ l, e.outcome = .ok
  | .finished x =>
    l = [] ∧ (o.passes = 0 ∧ x = .ok ∨ ¬ Position.Valid position ∧ x = .poweredOff) ∨
    ∃ e, l.head? = some e ∧ e.outcome = x ∧ l.length ≤ 2 * o.passes + 1 ∧
      (x = .ok → e.counts = true)

/-- A check has taken the samples that were ordered, and has counted them. -/
structure Logged (o : CheckOrder) (position : Int) (l : List Sampled) (k : Check) : Prop where
  sound : k.Sound
  order : k.order = o
  legs : l.reverse.map Sampled.wanted = (List.range l.length).map (o.leg position)
  earlier : ∀ e ∈ l.tail, e.outcome = .ok
  captured : k.captured = l.countP Sampled.counts
  triggers : k.triggers = l.countP Sampled.triggered
  stands : k.Stands o position l

variable {p : StepPeriods} {rate : Nat} {l : List Sampled} {buffer : List Reading} {c₀ c : Crew}
  {t : Crew.Trace}

theorem logged_of_start (h : start o = .ok k) : k.Logged o position [] := by
  have hs := sound_of_start h
  obtain ⟨-, ⟨hp, rfl⟩ | ⟨-, rfl⟩⟩ := eq_of_start h
  · exact ⟨hs, rfl, rfl, fun e he => (by cases he), rfl, rfl, .inl ⟨rfl, .inl ⟨hp, rfl⟩⟩⟩
  · exact ⟨hs, rfl, rfl, fun e he => (by cases he), rfl, rfl, rfl⟩

theorem Logged.located (h : k.Logged o position l) (hp : k.phase = .locating) :
    (k.located position).Logged o position l := by
  have hstands := h.stands
  simp only [Stands, hp] at hstands
  refine ⟨h.sound.located hp position, (order_located k position).trans h.order, h.legs, h.earlier,
    ?_, ?_, ?_⟩ <;> unfold Check.located <;> split
  · exact h.captured
  · exact h.captured
  · exact h.triggers
  · exact h.triggers
  · exact ⟨hstands, by rw [h.order]⟩
  · exact .inl ⟨hstands, .inr ⟨‹_›, rfl⟩⟩

/-- **A check wants the samples that were ordered**, one after the other. -/
theorem Logged.wanted_eq (h : k.Logged o position l) (hw : k.wants? = some w) :
    w = o.leg position l.length := by
  have hstands := h.stands
  cases hp : k.phase with
  | approaching =>
    simp only [Stands, hp] at hstands
    obtain ⟨rfl, hdown⟩ := hstands
    rcases wanted_cases h.order hdown hw with ⟨-, he⟩ | ⟨hp', -⟩
    · exact he
    · cases hp.symm.trans hp'
  | passing =>
    simp only [Stands, hp] at hstands
    obtain ⟨hlength, hdown, -⟩ := hstands
    rcases wanted_cases h.order hdown hw with ⟨hp', -⟩ | ⟨-, he⟩
    · cases hp.symm.trans hp'
    · rw [hlength, he]
  | locating | finished _ =>
    rw [wants?, hp] at hw
    cases hw

/-- A sample that is taken in its turn is added to the log. -/
theorem Logged.add (h : k.Logged o position l) (hall : ∀ e ∈ l, e.outcome = .ok) {e : Sampled}
    (hw : e.wanted = o.leg position l.length) {k' : Check} (hs : k'.Sound)
    (ho : k'.order = k.order) (hc : k'.captured = k.captured + if e.counts then 1 else 0)
    (ht : k'.triggers = k.triggers + if e.triggered then 1 else 0)
    (hstands : k'.Stands o position (e :: l)) : k'.Logged o position (e :: l) where
  sound := hs
  order := ho.trans h.order
  legs := by
    rw [List.reverse_cons, List.map_append, h.legs, List.length_cons, List.range_succ,
      List.map_append, List.map_cons, hw]
    rfl
  earlier := hall
  captured := by rw [hc, h.captured, List.countP_cons]
  triggers := by rw [ht, h.triggers, List.countP_cons]
  stands := hstands

/-- A sample that captures nothing does not count. -/
theorem Sampled.not_counted {e : Sampled}
    (h : e.outcome ≠ .ok ∨ e.wanted.order.directions = .none) :
    e.counts = false ∧ e.triggered = false := by
  have hc : e.counts = false := by
    unfold counts
    rcases h with h | h
    · simp [h]
    · simp [h, CaptureSetup.channelCount_none]
  exact ⟨hc, by rw [triggered, hc, Bool.false_and]⟩

/-- What a check wants for a pass. -/
theorem wanted_of_passing (hp : k.phase = .passing) (hw : k.wants? = some w) :
    w.order.setup = k.order.setup ∧ w.order.directions = k.directions ∧
      w.length = Limits.channelCount := by
  simp only [wants?, hp] at hw
  cases hw
  exact ⟨rfl, rfl, rfl⟩

/-- **A check counts a pass as its sample was**: it reads the channels of the pass at the start of
the buffer. -/
theorem counted_of_sample (hp : k.phase = .passing) (hw : k.wants? = some w)
    (hb : buffer.length = w.length) (hs : Sampler.start w.order buffer = .ok c₀.sampler)
    (hc : Crew.Serves p rate c₀ t c) (hx : c.sampler.result? = some (.ok .ok)) :
    let e : Sampled := ⟨w, c₀, t, c, .ok⟩
    (k.counted c.sampler.buffer).captured = k.captured + (if e.counts then 1 else 0) ∧
      (k.counted c.sampler.buffer).triggers = k.triggers + if e.triggered then 1 else 0 := by
  obtain ⟨hsetup, hdirections, hlength⟩ := wanted_of_passing hp hw
  have hroom : w.order.setup.channelCount w.order.directions ≤ w.length :=
    hlength ▸ CaptureSetup.channelCount_le _ _
  obtain ⟨y, hy, htake⟩ := (Crew.samples_of_serves hc hb hs).readings hx hroom
  rw [counted_eq]
  simp only [Sampled.triggered, Sampled.counts, hy, Option.any_some, hsetup, hdirections] at htake ⊢
  rw [htake, List.all_map]
  by_cases hn : k.order.setup.channelCount k.directions = 0 <;> simp [hn]

/-- Where a check stands after a pass that was done. -/
theorem Logged.stands_counted (h : k.Logged o position l) (hp : k.phase = .passing) {e : Sampled}
    (he : e.outcome = .ok)
    (hc : (k.counted readings).captured = k.captured + if e.counts then 1 else 0) :
    (k.counted readings).Stands o position (e :: l) := by
  have hleft := h.sound.left (by simp [hp])
  have hlt := h.sound.pass_lt hp
  rw [h.order] at hlt hleft
  have hstands := h.stands
  simp only [Stands, hp] at hstands
  obtain ⟨hlength, hdown, hall⟩ := hstands
  have hphase : (k.counted readings).phase
      = if (k.counted readings).captured < o.passes then .passing else .finished .ok := by
    rw [counted_eq, h.order]
  by_cases hmore : (k.counted readings).captured < o.passes
  · rw [if_pos hmore] at hphase
    simp only [Stands, hphase]
    rw [counted_eq]
    exact ⟨congrArg _ hlength, hdown, List.forall_mem_cons.mpr ⟨he, hall⟩⟩
  · rw [if_neg hmore] at hphase
    simp only [Stands, hphase]
    refine .inr ⟨e, rfl, he, ?_, fun _ => ?_⟩
    · rw [List.length_cons]
      omega
    · -- the last pass has counted, as there was one left to count before it
      by_contra h0
      rw [hc, if_neg h0] at hmore
      exact hmore hleft

/-- **A sample that a check wanted is added to its log**, and counted as it ended. -/
theorem Logged.told (h : k.Logged o position l) (hw : k.wants? = some w)
    (hb : buffer.length = w.length) (hs : Sampler.start w.order buffer = .ok c₀.sampler)
    (hc : Crew.Serves p rate c₀ t c) (hx : c.sampler.result? = some (.ok x)) :
    (k.told x c.sampler.buffer).Logged o position (⟨w, c₀, t, c, x⟩ :: l) := by
  have hleg := h.wanted_eq hw
  have hstands := h.stands
  have hsound := h.sound.told hw x c.sampler.buffer
  rcases told_cases hw x c.sampler.buffer with ⟨hp, he⟩ | ⟨hp, rfl, he⟩ | ⟨hp, hne, he⟩ <;>
    rw [he] at hsound ⊢ <;> simp only [Stands, hp] at hstands
  · -- the way to the nearer end
    obtain ⟨rfl, hdown⟩ := hstands
    obtain ⟨hcounts, htriggered⟩ := @Sampled.not_counted ⟨w, c₀, t, c, x⟩ (.inr (by rw [hleg]; rfl))
    refine h.add (fun e he => by cases he) hleg hsound rfl (by simp [hcounts])
      (by simp [htriggered]) ?_
    have hpass := h.sound.begun (.inr hp)
    by_cases hok : x = .ok
    · simp [Stands, hok, hpass, hdown]
    · simp [Stands, hok]
  · -- a pass that was done
    obtain ⟨hcaptured, htriggers⟩ := counted_of_sample hp hw hb hs hc hx
    refine h.add hstands.2.2 hleg hsound (by rw [counted_eq]) hcaptured htriggers ?_
    exact h.stands_counted hp rfl hcaptured
  · -- a pass that was not done
    obtain ⟨hlength, hdown, hall⟩ := hstands
    obtain ⟨hcounts, htriggered⟩ := @Sampled.not_counted ⟨w, c₀, t, c, x⟩ (.inl hne)
    refine h.add hall hleg hsound rfl (by simp [hcounts]) (by simp [htriggered]) ?_
    have hlt := h.sound.pass_lt hp
    rw [h.order] at hlt
    refine .inr ⟨_, rfl, rfl, ?_, fun h0 => absurd h0 hne⟩
    rw [List.length_cons]
    omega

/-! ## Every check -/

theorem logged_of_reaches (h : Reaches p rate o position l k) : k.Logged o position l := by
  induction h with
  | start hk => exact logged_of_start hk
  | locate _ hp ih => exact ih.located hp
  | sample _ hw _ hb hs hc hx ih => exact ih.told hw hb hs hc hx

/-- **While the power stays on, a sample that ended well has left the plunger at its target.** -/
theorem lands_of_reaches (h : Reaches p rate o position l k)
    (hon : ∀ e ∈ l.getLast?, e.entered.rig.drive.axis.isOff = false)
    (ht : ∀ e ∈ l, Crew.Unswitched e.trace) :
    ∀ e ∈ l.head?, e.left.rig.drive.axis.isOff = false ∧
      (e.outcome = .ok → e.left.rig.drive.locate = e.wanted.order.target) := by
  induction h with
  | start _ => exact fun e he => by cases he
  | locate _ _ ih => exact ih hon ht
  | @sample l k w buffer c₀ c t x _ hw hlast hb hs hc hx ih =>
    rintro e he
    cases he
    have hentered : c₀.rig.drive.axis.isOff = false := by
      cases l with
      | nil => exact hon _ rfl
      | cons e l =>
        rw [hlast e rfl]
        rw [List.getLast?_cons_cons] at hon
        exact (ih hon (fun e he => ht e (List.mem_cons_of_mem _ he)) e rfl).1
    obtain ⟨hleft, hlands⟩ := Crew.lands_of_serves hc hentered (ht _ List.mem_cons_self)
    refine ⟨hleft, ?_⟩
    rintro rfl
    rw [hlands hx, (Crew.samples_of_serves hc hb hs).order]

theorem phase_of_result? (h : k.result? = some x) : k.phase = .finished x := by
  unfold result? at h
  split at h <;> cases h
  assumption

theorem Logged.triggers_le (h : k.Logged o position l) : k.triggers ≤ k.captured := by
  rw [h.captured, h.triggers]
  refine List.countP_mono_left fun e _ ht => ?_
  rw [Sampled.triggered, Bool.and_eq_true] at ht
  exact ht.1

theorem Sound.captured_le (h : k.Sound) : k.captured ≤ k.order.passes := by
  by_cases hp : k.phase = .finished .ok
  · exact Nat.le_of_eq (h.done hp)
  · exact Nat.le_of_lt (h.left hp)

theorem Logged.length_le (h : k.Logged o position l) : l.length ≤ 2 * o.passes + 1 := by
  have hstands := h.stands
  cases hp : k.phase with
  | locating =>
    simp only [Stands, hp] at hstands
    simp [hstands]
  | approaching =>
    simp only [Stands, hp] at hstands
    simp [hstands.1]
  | passing =>
    simp only [Stands, hp] at hstands
    have hlt := h.sound.pass_lt hp
    rw [h.order] at hlt
    omega
  | finished x =>
    simp only [Stands, hp] at hstands
    rcases hstands with ⟨rfl, -⟩ | ⟨e, -, -, hlength, -⟩
    · exact Nat.zero_le _
    · exact hlength

/-- A check that is not done wants its next sample, and has had none but such as ended well. -/
theorem Logged.goes_on (h : k.Logged o position l) (hx : k.result? = none) :
    (∀ e ∈ l, e.outcome = .ok) ∧
      (k.phase = .locating ∨ k.wants? = some (o.leg position l.length)) := by
  have hwants {w : Wanted} (hw : k.wants? = some w) :
      k.wants? = some (o.leg position l.length) := by
    rw [hw, ← h.wanted_eq hw]
  have hstands := h.stands
  cases hp : k.phase with
  | locating =>
    simp only [Stands, hp] at hstands
    subst hstands
    exact ⟨fun e he => (by cases he), .inl rfl⟩
  | approaching =>
    simp only [Stands, hp] at hstands
    obtain ⟨rfl, -⟩ := hstands
    exact ⟨fun e he => (by cases he), .inr (hwants (by rw [wants?, hp]))⟩
  | passing =>
    simp only [Stands, hp] at hstands
    exact ⟨hstands.2.2, .inr (hwants (by rw [wants?, hp]))⟩
  | finished x =>
    rw [result?, hp] at hx
    cases hx

/-- If a check may be begun, so may each of its samples. -/
theorem exists_start_leg (ht : Position.Valid o.top) (hb : Position.Valid o.bottom)
    (hv : o.setup.Valid) (i : Nat) (buffer : List Reading) :
    ∃ s, Sampler.start (o.leg position i).order buffer = .ok s := by
  have hvalid : Position.Valid (o.leg position i).order.target := by
    unfold CheckOrder.leg
    dsimp only
    split
    · exact ht
    · exact hb
  have hwindow : (o.leg position i).order.setup.Valid := hv
  unfold Sampler.start
  rw [if_neg (not_not_intro hvalid), if_neg (not_not_intro hwindow)]
  exact ⟨_, rfl⟩

/-- Without passes a check is done, and has taken no sample. -/
theorem Logged.of_no_passes (h : k.Logged o position l) (hp : o.passes = 0) :
    l = [] ∧ k.result? = some .ok := by
  have hphase : k.phase = .finished .ok := by
    by_contra h0
    have hleft := h.sound.left h0
    rw [h.order] at hleft
    omega
  have hdone := h.sound.done hphase
  have hstands := h.stands
  simp only [Stands, hphase] at hstands
  refine ⟨?_, by rw [result?, hphase]⟩
  rcases hstands with ⟨hl, -⟩ | ⟨e, he, -, -, hcounts⟩
  · exact hl
  · have hpos : 0 < l.countP Sampled.counts :=
      List.countP_pos_iff.mpr ⟨e, List.mem_of_mem_head? he, hcounts trivial⟩
    rw [← h.captured, hdone, h.order] at hpos
    omega

/-- **A check does the passes that were ordered, and counts them.** It may be begun if its ends are
on the track, the window fits the timer and some channel is captured in some direction, and a bench
that runs it brings it to its end, unless a sample has no answer. However its samples go, they are
those that were ordered, one after the other, and never more than two for each pass besides the
first one. The passes that ended well and capture a channel are counted, and so are those among them
in which all channels that were captured have triggered; no counter leaves its word. While a check
is not done it wants its next sample, which may be begun. It is done at once when a sample does not
end well, and it ends as that sample did; or when it has counted the last pass that was ordered, and
then it has ended well, and the plunger is where that pass went, if the power was on when the first
sample was entered and nobody has switched it since. It takes no sample if no passes were ordered,
or if the power was off when it asked for the position. -/
theorem passes_as_ordered (ht : Position.Valid o.top) (hb : Position.Valid o.bottom)
    (hv : o.setup.Valid) (hn : o.setup.channelCount .both ≠ 0) (hpasses : o.passes < 2 ^ 63) :
    -- it may be begun, and a bench that runs it brings it to its end if its samples come to theirs
    ((∃ k, start o = .ok k) ∧
      (∀ v draining, Answers draining o v.rig.drive.locate (Workbench.check v draining o).2) ∧
      (o.passes = 0 → ∀ v draining, (Workbench.check v draining o).1 = v)) ∧
    ∀ p rate position l k, Reaches p rate o position l k →
      -- the samples that were taken, first one first
      (l.reverse.map Sampled.wanted = (List.range l.length).map (o.leg position) ∧
        (∀ e ∈ l.tail, e.outcome = .ok) ∧ l.length ≤ 2 * o.passes + 1 ∧
        (o.passes = 0 → l = [] ∧ k.result? = some .ok)) ∧
      -- the counts
      (k.captured = l.countP Sampled.counts ∧ k.triggers = l.countP Sampled.triggered ∧
        k.triggers ≤ k.captured ∧ k.captured ≤ o.passes ∧ k.pass ≤ Limits.countMax) ∧
      -- a check that is not done
      (k.result? = none → k.captured < o.passes ∧ (∀ e ∈ l, e.outcome = .ok) ∧
        (k.phase = .locating ∨ k.wants? = some (o.leg position l.length)) ∧
        ∀ buffer, ∃ s, Sampler.start (o.leg position l.length).order buffer = .ok s) ∧
      -- a check that is done
      ∀ x, k.result? = some x →
        (o.passes = 0 ∧ x = .ok ∧ l = []) ∨
        (¬ Position.Valid position ∧ x = .poweredOff ∧ l = []) ∨
        ∃ e, l.head? = some e ∧ e.outcome = x ∧
          if x = .ok then
            k.captured = o.passes ∧ e.counts = true ∧
              ((∀ e ∈ l.getLast?, e.entered.rig.drive.axis.isOff = false) →
                (∀ e ∈ l, Crew.Unswitched e.trace) →
                e.left.rig.drive.locate = e.wanted.order.target)
          else k.captured < o.passes := by
  obtain ⟨k₀, hk⟩ : ∃ k, start o = .ok k := by
    unfold start
    rw [if_neg (not_not_intro ⟨ht, hb⟩), if_neg (not_not_intro hv), if_neg hn]
    exact ⟨_, rfl⟩
  refine ⟨⟨⟨k₀, hk⟩, fun v _ => answers_check hk v, fun hp _ _ => fst_check_of_no_passes hp⟩,
    fun p rate position l k h => ?_⟩
  have hl := logged_of_reaches h
  have hcaptured := hl.sound.captured_le
  have hbound := hl.sound.bound
  rw [hl.order] at hcaptured hbound
  refine ⟨⟨hl.legs, hl.earlier, hl.length_le, hl.of_no_passes⟩,
    ⟨hl.captured, hl.triggers, hl.triggers_le, hcaptured, ?_⟩, fun hx => ⟨?_, (hl.goes_on hx).1,
      (hl.goes_on hx).2, exists_start_leg ht hb hv _⟩, fun x hx => ?_⟩
  · have hword : 2 * 2 ^ 63 ≤ Limits.countMax + 1 := by decide
    omega
  · have hleft := hl.sound.left fun hp => by rw [result?, hp] at hx; cases hx
    rwa [hl.order] at hleft
  · have hp := phase_of_result? hx
    have hstands := hl.stands
    simp only [Stands, hp] at hstands
    rcases hstands with ⟨rfl, ⟨hzero, rfl⟩ | ⟨hoff, rfl⟩⟩ | ⟨e, he, ho, -, hcounts⟩
    · exact .inl ⟨hzero, rfl, rfl⟩
    · exact .inr (.inl ⟨hoff, rfl, rfl⟩)
    · refine .inr (.inr ⟨e, he, ho, ?_⟩)
      split
      · rename_i hok
        subst hok
        have hdone := hl.sound.done hp
        rw [hl.order] at hdone
        exact ⟨hdone, hcounts rfl, fun hon hquiet => (lands_of_reaches h hon hquiet e he).2 ho⟩
      · rename_i hne
        have hleft := hl.sound.left (by rw [hp]; simpa using hne)
        rwa [hl.order] at hleft

/-- One pass down by one step, in which the first channel captures a rising edge. -/
def onePass : CheckOrder := ⟨0, 1, .fastest, 1, Acquisition.onePass.setup⟩

theorem passes_as_ordered_onePass :
    ∃ l k, Reaches .standard 1 onePass 0 l k ∧ k.result? = some .ok ∧ k.triggers = 1 ∧
      k.captured = onePass.passes ∧ ∃ e, l.head? = some e ∧ e.left.rig.drive.locate = 1 := by
  obtain ⟨d, hd⟩ : ∃ d, Drive.ofPeriods .standard 1 = .ok d := ⟨_, rfl⟩
  obtain ⟨s, hs⟩ : ∃ s, Sampler.start (onePass.leg 0 0).order [] = .ok s := ⟨_, rfl⟩
  obtain ⟨s', hs'⟩ : ∃ s, Sampler.start (onePass.leg 0 1).order [.blank, .blank] = .ok s := ⟨_, rfl⟩
  obtain ⟨k, hk⟩ : ∃ k, start onePass = .ok k := ⟨_, rfl⟩
  have hon : Drive.Crowd.Reaches .standard 1 [(⟨d, []⟩, .powerOn)] ⟨d.powerOn.1, []⟩ :=
    .act (.start hd) rfl
  have hrest : Rig.AtRest ⟨d.powerOn.1, .initial, .empty⟩ := by
    cases hd
    exact ⟨⟨rfl, rfl, rfl, rfl⟩, rfl, rfl, rfl, rfl, rfl⟩
  have hentered : Crew.Serves .standard 1 ⟨⟨d.powerOn.1, .initial, .empty⟩, 0, s, []⟩ [] _ :=
    .start hon (.start 0) (fun _ h0 => (List.not_mem_nil h0).elim) hrest hs
  have hready : Reaches .standard 1 onePass 0 [] _ := (Reaches.start hk).locate (by cases hk; rfl)
  cases hd
  cases hs
  cases hk
  have happroach := of_play? (P := Crew.Serves .standard 1 _) (fun _ _ _ _ => .act) [.sampler]
    hentered rfl
  have hpassing := hready.sample rfl (fun e he => by cases he) rfl rfl happroach rfl
  have hnext := happroach.next rfl hs'
  cases hs'
  have hpass := of_play? (P := Crew.Serves .standard 1 _) (fun _ _ _ _ => .act) Acquisition.press
    hnext rfl
  have h := hpassing.sample rfl (fun e he => by cases he; rfl) rfl rfl hpass rfl
  obtain ⟨-, hrun⟩ := passes_as_ordered (o := onePass) (by decide) (by decide) (by decide)
    (by decide) (by decide)
  obtain ⟨e, he, -, hdone⟩ := (((hrun _ _ _ _ _ h).2.2.2 .ok rfl).resolve_left fun h0 => by
    cases h0.1).resolve_left fun h0 => by cases h0.2.1
  rw [if_pos rfl] at hdone
  obtain ⟨hcaptured, -, hlands⟩ := hdone
  have hlocate := hlands (fun e he => by cases he; rfl) (List.forall_mem_cons.mpr
    ⟨Crew.unswitched_of_all rfl, List.forall_mem_cons.mpr
      ⟨Crew.unswitched_of_all rfl, fun e he => by cases he⟩⟩)
  have htarget : e.wanted.order.target = 1 :=
    congrArg (fun e => e.wanted.order.target) (Option.some.inj he).symm
  exact ⟨_, _, h, rfl, rfl, hcaptured, e, he, hlocate.trans htarget⟩

end Check

end SwitchBench
