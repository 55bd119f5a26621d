import SwitchBench.Proofs.Sampling.History
import SwitchBench.Proofs.Sampling.Readout

/-!
# A sample leaves its rig at rest

A rig is at rest if both permits are back and nothing is begun, in hand, announced, armed or
counting. A sample that is entered with its rig at rest takes each permit once and gives it back
once, whoever switches the power, asks for aborts or sends messages meanwhile: `Tidy` says, for each
action of the sampler, which permits are back, and that nothing it has collected is unfinished.

`Serves` takes one sample after the other: the first one on a rig at rest, and each later one
wherever the one before it has returned.

Results: `Tidy.act` (one action keeps the invariant), `sample_leaves_rig_at_rest` (a sample that
returns leaves its rig at rest and is never refused, it writes its buffer only if the capture ended
well or nothing had to move, and what it collects is its own).
-/

namespace SwitchBench

open Drive (MoveStage MoveEvent)
open Recorder (CaptureEvent)

/-- No move is begun, in hand, announced or uncollected. -/
structure Drive.AtRest (d : Drive) : Prop where
  available : d.available.count = 1
  begin : d.begin.count = 0
  done : d.done.count = 0
  stepper : d.stepper.phase = .waiting

/-- No capture is armed, announced or uncollected, and the timer neither counts nor calls. -/
structure Recorder.AtRest (r : Recorder) : Prop where
  available : r.available.count = 1
  done : r.done.count = 0
  disarmed : r.timer.armed = false
  stopped : r.timer.since = none
  quiet : r.timer.interrupts = .none

/-- Both halves are at rest. -/
structure Rig.AtRest (r : Rig) : Prop where
  drive : r.drive.AtRest
  recorder : r.recorder.AtRest

/-- A drive that was just taken over is at rest. -/
theorem Drive.atRest_of_ofPeriods {p : StepPeriods} {rate : Nat} {d : Drive}
    (hd : ofPeriods p rate = .ok d) : d.AtRest := by
  unfold ofPeriods at hd
  cases hv : p.validate <;> rw [hv] at hd <;> cases hd
  exact ⟨rfl, rfl, rfl, rfl⟩

/-- Where the permit to move is free, everything else of the drive is at rest. -/
theorem Drive.Crowd.Sound.atRest {g : MoveStage} {c : Drive.Crowd} (h : c.Sound g)
    (ha : c.drive.available.count = 1) : c.drive.AtRest := by
  have hpermit := h.permit
  unfold permits inHand at hpermit
  by_cases hp : c.drive.stepper.phase = .waiting
  · exact ⟨ha, by omega, by omega, hp⟩
  · rw [if_neg hp] at hpermit
    omega

/-- Where the permit to capture is free, everything else of the recorder is at rest. -/
theorem Recorder.Crowd.Sound.atRest {c : Recorder.Crowd} (h : c.Sound)
    (ha : c.recorder.available.count = 1) :
    c.recorder.AtRest ∧ c.calls.countP CaptureCall.holds = 0 := by
  have hpermit := h.permit
  unfold permits at hpermit
  have harmed : c.recorder.timer.armed = false := by
    by_contra h0
    rw [eq_true_of_ne_false h0, Bool.toNat_true] at hpermit
    omega
  obtain ⟨hquiet, hstopped⟩ := h.rests harmed
  exact ⟨⟨ha, by omega, harmed, hstopped, hquiet⟩, by omega⟩

/-- With no capture open and the permit free, nobody needs to know anything. -/
theorem Recorder.Crowd.Sound.knows_nothing {c : Recorder.Crowd} (h : c.Sound)
    (ha : c.recorder.AtRest) : Recorder.Crowd.Knows [] c := by
  obtain ⟨-, hcalls⟩ := h.atRest ha.available
  refine ⟨fun _ => rfl, fun h0 => ?_, fun h0 => ?_, fun k hk => ?_, nofun⟩
  · exact absurd (ha.disarmed.symm.trans h0) Bool.false_ne_true
  · exact absurd (ha.done.symm.trans h0) (by decide)
  · exact CaptureCall.knows_of_not_holds (eq_zero_of_mem_countP hcalls hk) _

/-! ## Nothing is unfinished -/

/-- An absolute order is never refused. -/
theorem Sampler.launch_ne_refused (s : Sampler) (d : Drive) (f : Fault) :
    (d.launch s.moveOrder).2 ≠ .refused f := by
  intro h
  rcases d.axis.launch_cases s.moveOrder with ⟨-, he⟩ | ⟨-, hd, -⟩ | ⟨-, -, he⟩ | ⟨-, t, -, -, he⟩
  · simp [Drive.launch, he] at h
  · cases hd
  · simp [Drive.launch, he] at h
  · simp [Drive.launch, he] at h

/-- No move ends by a wait that gave up. -/
theorem Drive.MoveStage.next_ne_timedOut {g : MoveStage} (h : g ≠ .settled .timedOut)
    {e : MoveEvent} (he : g.Allows e) : g.next e ≠ .settled .timedOut := by
  cases e with
  | launched a o l =>
    obtain ⟨-, rfl⟩ := he
    rcases a.launch_cases o with ⟨-, hl⟩ | ⟨-, -, hl⟩ | ⟨-, -, hl⟩ | ⟨-, t, -, -, hl⟩ <;> rw [hl]
    · simp [next]
    · exact h
    · simp [next]
    · simp [next]
  | decided a d =>
    obtain ⟨hf, -, rfl⟩ := he
    cases g with
    | idle | settled o => cases hf
    | flying t l k =>
      unfold Axis.decide
      split_ifs <;> simp [next]
  | timerFailed =>
    cases g with
    | idle | settled o => cases he
    | flying t l k => simp [next]
  | powerLost | abortAsked =>
    cases g with
    | idle | settled o => exact h
    | flying t l k => simp [next]
  | collected o => simp [next]

/-- Ends that are finished make an outcome. -/
theorem SampleOutcome.exists_reduce {m : MoveOutcome} {k : CaptureOutcome} (hm : m ≠ .timedOut)
    (hk : k ≠ .timedOut) : ∃ o, SampleOutcome.reduce m k = .ok o := by
  cases m <;> cases k <;> first | exact absurd rfl hm | exact absurd rfl hk | exact ⟨_, rfl⟩

theorem Sampler.exists_conclude {m : MoveOutcome} {k : CaptureOutcome} (hm : m ≠ .timedOut)
    (hk : k ≠ .timedOut) (asked : Bool) : ∃ o, Sampler.conclude m k asked = .ok o := by
  unfold Sampler.conclude
  split
  · exact ⟨_, rfl⟩
  · exact SampleOutcome.exists_reduce hm hk

/-! ## The permits of a sample -/

/-- Which permits are back, by what the sampler does next. -/
def Sampler.LeavesPermits (r : Rig) (s : Sampler) : Prop :=
  match s.phase with
  | .locating | .takingRecorder | .finished _ =>
    r.drive.available.count = 1 ∧ r.recorder.available.count = 1
  | .arming | .takingDrive => r.drive.available.count = 1
  | .announcing (.refused _) | .refused _ => False
  | _ => True

/-- A bystander leaves the permit to capture where it is. -/
theorem Recorder.Crowd.available_of_isBystander {a : Recorder.Action} {c x : Recorder.Crowd}
    (ha : a.isBystander = true) (hc : ∀ k ∈ c.calls, k.isBystander = true)
    (hr : c.recorder.timer.Rests) (h : c.act? a = some x) :
    x.recorder.available = c.recorder.available := by
  cases bystanderTurn_of_act ha hc h with
  | edge | wait | expire | enter | announce => rfl
  | cut =>
    simp only [cut]
    split <;> rfl
  | service => rcases service_cases hr c.now with ⟨t, -, -, he⟩ | ⟨-, -, he⟩ <;> rw [he]

namespace Crew

variable {p : StepPeriods} {rate : Nat} {g : MoveStage} {t : Trace} {c c' c₀ : Crew} {a : Action}

/-- A sampler has collected nothing unfinished, and the permits are back that it does not need. -/
structure Tidy (g : MoveStage) (c : Crew) : Prop where
  stage : g ≠ .settled .timedOut
  moveEnd : c.sampler.moveEnd ≠ some .timedOut
  captureEnd : c.sampler.captureEnd ≠ some .timedOut
  collected : c.sampler.captureEnd ≠ none → c.rig.recorder.available.count = 1
  permits : c.sampler.LeavesPermits c.rig

/-- Nobody but the sampler touches the permit to capture. -/
theorem Sound.available_of_act (h : Sound g c) (ha : c.act? a = some c') (hs : a ≠ .sampler) :
    c'.rig.recorder.available = c.rig.recorder.available := by
  cases turn_of_act ha with
  | drive hb hx =>
    simp only [follow]
  | @recorder a x hb hx =>
    exact Recorder.Crowd.available_of_isBystander (c := ⟨c.rig.recorder, c.now, c.others⟩) hb
      h.bystanders h.recorder.rests hx
  | send m => rfl
  | sampler => exact absurd rfl hs

/-- Wherever a sampler goes on to, or ends, the permits are back that it does not need. -/
theorem leavesPermits_of_next {s : Sampler} {q : SamplerPhase} {r : Rig} (hn : s.Next q)
    (hm : s.moveEnd ≠ none → r.drive.available.count = 1)
    (hk : s.captureEnd ≠ none → r.recorder.available.count = 1)
    (hme : s.moveEnd ≠ some .timedOut) (hke : s.captureEnd ≠ some .timedOut) :
    (s.goto q).LeavesPermits r := by
  cases hn with
  | look hq => cases q <;> first | cases hq; done | trivial
  | takeMove _ | takeCapture _ => trivial
  | @conclude m k h1 h2 =>
    rw [h1] at hm hme
    rw [h2] at hk hke
    obtain ⟨o, ho⟩ := Sampler.exists_conclude (m := m) (k := k) (by simpa using hme)
      (by simpa using hke) s.userAborted
    simp only [Sampler.LeavesPermits, Sampler.goto, ho, Sampler.ending]
    exact ⟨hm (Option.some_ne_none m), hk (Option.some_ne_none k)⟩

/-- Where the sampler is in its rounds, the permit to move is back once it has the end of the
move. -/
theorem Sound.available_of_round (h : Sound g c)
    (hp : (c.sampler.phase.isLooking || c.sampler.phase.isCutting ||
      c.sampler.phase.isTelling) = true) (hm : c.sampler.moveEnd ≠ none) :
    c.rig.drive.available.count = 1 :=
  ((Sampler.knowsMove_iff hp).mp h.move).2 hm

/-- Before it collects its capture a sampler has no end of one. -/
theorem Sound.captureEnd_of_phase (h : Sound g c)
    (hp : c.sampler.phase = .takingCapture ∨ c.sampler.phase = .readingChannels ∨
      ∃ l, c.sampler.phase = .freeingRecorder l) : c.sampler.captureEnd = none := by
  have hk := h.capture
  rcases hp with hp | hp | ⟨l, hp⟩ <;> simp only [Sampler.KnowsCapture, hp] at hk
  · exact hk
  · exact hk
  · exact hk.1

/-- The sampler's own action keeps what it has collected, and the permits. -/
theorem Tidy.step (hq : Tidy g c) (h : Sound g c) {r : Rig} {s : Sampler}
    {note : Option SampleNote} (hs : c.sampler.step c.now c.rig = some (r, s, note)) :
    s.moveEnd ≠ some .timedOut ∧ s.captureEnd ≠ some .timedOut ∧
      (s.captureEnd ≠ none → r.recorder.available.count = 1) ∧ s.LeavesPermits r := by
  have hpermits := hq.permits
  have hround : (c.sampler.phase.isLooking || c.sampler.phase.isCutting ||
      c.sampler.phase.isTelling) = true →
      (c.sampler.moveEnd ≠ none → c.rig.drive.available.count = 1) := h.available_of_round
  cases Sampler.turn_of_step hs with
  | leave hp | seek hp =>
    simp only [Sampler.LeavesPermits, hp] at hpermits
    exact ⟨hq.moveEnd, hq.captureEnd, hq.collected, hpermits⟩
  | takeRecorder hp hr =>
    have hk := h.capture
    simp only [Sampler.KnowsCapture, hp] at hk
    simp only [Sampler.LeavesPermits, hp] at hpermits
    exact ⟨hq.moveEnd, hq.captureEnd, fun h0 => absurd hk h0, hpermits.1⟩
  | arm hp =>
    simp only [Sampler.LeavesPermits, hp] at hpermits
    exact ⟨hq.moveEnd, hq.captureEnd, hq.collected, hpermits⟩
  | takeDrive hp _ => exact ⟨hq.moveEnd, hq.captureEnd, hq.collected, trivial⟩
  | launch hp =>
    refine ⟨hq.moveEnd, hq.captureEnd, hq.collected, ?_⟩
    have hne := c.sampler.launch_ne_refused c.rig.drive
    simp only [Sampler.LeavesPermits, Sampler.goto]
    split <;> first | trivial | simp_all
  | @announce l q hp hn =>
    refine ⟨hq.moveEnd, hq.captureEnd, hq.collected, ?_⟩
    simp only [Sampler.LeavesPermits, hp] at hpermits
    rw [hn]
    cases l with
    | refused f => exact hpermits.elim
    | began t | finished o => trivial
  | look hp hn =>
    exact ⟨hq.moveEnd, hq.captureEnd, hq.collected,
      leavesPermits_of_next hn (hround (by rw [hp]; rfl)) hq.collected hq.moveEnd hq.captureEnd⟩
  | hear hp | abortMove hp => exact ⟨hq.moveEnd, hq.captureEnd, hq.collected, trivial⟩
  | @cut q hp hn =>
    have hkeep : (c.rig.recorder.cut c.now).1.available = c.rig.recorder.available := by
      unfold Recorder.cut
      split <;> rfl
    have hcollected : c.sampler.captureEnd ≠ none →
        (c.rig.recorder.cut c.now).1.available.count = 1 := by
      rw [hkeep]
      exact hq.collected
    refine ⟨hq.moveEnd, hq.captureEnd, hcollected, ?_⟩
    split at hn
    · show Sampler.LeavesPermits _ (c.sampler.goto q)
      cases q <;> first | cases hn; done | trivial
    · exact leavesPermits_of_next hn (hround (by simp [hp])) hcollected hq.moveEnd hq.captureEnd
  | tell hp hn =>
    exact ⟨hq.moveEnd, hq.captureEnd, hq.collected,
      leavesPermits_of_next hn (hround (by simp [hp])) hq.collected hq.moveEnd hq.captureEnd⟩
  | takeMove hp _ => exact ⟨hq.moveEnd, hq.captureEnd, hq.collected, trivial⟩
  | readMove hp =>
    refine ⟨fun h0 => hq.stage ?_, hq.captureEnd, hq.collected, trivial⟩
    have hf := h.drive.calls .readingOutcome (by simp [driveCrowd, Sampler.moveCall, hp])
    rw [← Option.some.inj h0]
    exact hf
  | freeDrive hp hn =>
    refine ⟨hq.moveEnd, hq.captureEnd, hq.collected, ?_⟩
    obtain ⟨h0, -⟩ := h.drive.only (i := 0) (k := .givingPermit (c.sampler.moveEnd.getD .ok))
      (by simp [driveCrowd, Sampler.moveCall, hp]) rfl
    have hgiven : c.rig.drive.available.give.count = 1 := Semaphore.count_give_of_empty h0
    split at hn
    · rw [hn]
      trivial
    · exact leavesPermits_of_next hn (fun _ => hgiven) hq.collected hq.moveEnd hq.captureEnd
  | takeCapture hp hr =>
    rw [Recorder.eq_of_takeDone? hr]
    exact ⟨hq.moveEnd, hq.captureEnd, hq.collected, trivial⟩
  | readChannels hp =>
    obtain ⟨f, hf⟩ := Recorder.fst_collect c.rig.recorder
    rw [hf]
    exact ⟨hq.moveEnd, hq.captureEnd, hq.collected, trivial⟩
  | @freeRecorder l k b q hp hl hn =>
    obtain ⟨h0, -⟩ := h.recorder.only (i := 0) (k := .givingPermit l)
      (by simp [recorderCrowd, Sampler.captureCall, hp]) rfl
    have hgiven : c.rig.recorder.available.give.count = 1 := Semaphore.count_give_of_empty h0
    have hend : some k ≠ some CaptureOutcome.timedOut := by
      rw [hl]
      split <;> simp
    have hm := h.move
    simp only [Sampler.KnowsMove, hp] at hm
    exact ⟨hq.moveEnd, hend, fun _ => hgiven,
      leavesPermits_of_next (s := { c.sampler with captureEnd := some k, buffer := b }) hn hm.2
        (fun _ => hgiven) hq.moveEnd hend⟩

/-- **One action of anybody keeps the invariant.** -/
theorem Tidy.act (hq : Tidy g c) (h : Sound g c) (ha : c.act? a = some c') :
    Tidy (g.after (c.event? a)) c' := by
  have hstage : g.after (c.event? a) ≠ .settled .timedOut := by
    cases he : c.event? a with
    | none => exact hq.stage
    | some e => exact MoveStage.next_ne_timedOut hq.stage (allows_of_event? h he)
  by_cases hs : a = .sampler
  · subst hs
    obtain ⟨r, s, n, hs, rfl⟩ := step_of_act ha
    obtain ⟨h1, h2, h3, h4⟩ := hq.step h hs
    exact ⟨hstage, h1, h2, h3, h4⟩
  · obtain ⟨hsame, hdrive, -, -⟩ := h.frame ha hs
    have hrec := h.available_of_act ha hs
    refine ⟨hstage, ?_, ?_, ?_, ?_⟩ <;> rw [hsame]
    · exact hq.moveEnd
    · exact hq.captureEnd
    · rw [hrec]
      exact hq.collected
    · have hp := hq.permits
      unfold Sampler.LeavesPermits at hp ⊢
      rw [hdrive, hrec]
      exact hp

/-! ## One sample after the other -/

/-- The states that a crew can come to in one sample after the other, from the state in which the
last one was entered. The first one finds its rig at rest. -/
inductive Serves (p : StepPeriods) (rate : Nat) : Crew → Trace → Crew → Prop
  | start {t : Drive.Crowd.Trace} {t' : Recorder.Crowd.Trace} {d : Drive} {r : Recorder} {now : Nat}
      {others : List CaptureCall} {inbox : Inbox} {o : SampleOrder} {buffer : List Reading}
      {s : Sampler} (hd : Drive.Crowd.Reaches p rate t ⟨d, []⟩)
      (hr : Recorder.Crowd.Reaches t' ⟨r, now, others⟩) (ho : ∀ k ∈ others, k.isBystander = true)
      (hrest : Rig.AtRest ⟨d, r, inbox⟩) (hs : Sampler.start o buffer = .ok s) :
      Serves p rate ⟨⟨d, r, inbox⟩, now, s, others⟩ [] ⟨⟨d, r, inbox⟩, now, s, others⟩
  | next {c₀ c : Crew} {t : Trace} {x : SampleOutcome} {o : SampleOrder} {buffer : List Reading}
      {s : Sampler} (h : Serves p rate c₀ t c) (hx : c.sampler.result? = some (.ok x))
      (hs : Sampler.start o buffer = .ok s) :
      Serves p rate { c with sampler := s } [] { c with sampler := s }
  | act {c₀ c c' : Crew} {t : Trace} {a : Action} (h : Serves p rate c₀ t c)
      (ha : c.act? a = some c') : Serves p rate c₀ ((c, a) :: t) c'

theorem serves_fresh {d : Drive} {s : Sampler} (o : SampleOrder) (buffer : List Reading)
    (hd : Drive.ofPeriods p rate = .ok d) (hs : Sampler.start o buffer = .ok s) :
    Serves p rate (fresh d s) [] (fresh d s) :=
  .start (.start hd) (.start 0) (fun _ h0 => (List.not_mem_nil h0).elim)
    ⟨Drive.atRest_of_ofPeriods hd, rfl, rfl, rfl, rfl, rfl⟩ hs

/-- A sample's buffer keeps its length. -/
theorem Serves.length_buffer (h : Serves p rate c₀ t c) :
    c.sampler.buffer.length = c₀.sampler.buffer.length := by
  induction h with
  | start => rfl
  | next => rfl
  | act _ ha ih =>
    cases turn_of_act ha with
    | sampler hs => exact (Sampler.length_buffer_of_step hs).trans ih
    | _ => exact ih

/-- Did a sampler leave at once, as there was no position or nothing to move? -/
def LeftAtOnce (t : Trace) (c : Crew) : Prop :=
  c.sampler.moveEnd = none ∧ c.sampler.captureEnd = none ∧
    ∃ e ∈ t, e.2 = .sampler ∧ e.1.sampler.phase = .locating ∧
      (¬ Position.Valid e.1.rig.drive.locate ∨ e.1.sampler.order.target = e.1.rig.drive.locate)

/-- Had the move of a sample nothing to move? -/
def Stayed (t : Trace) : Prop := ∃ e ∈ t, e.1.record? e.2 = some .stayed

/-- What holds of a sample at work since it was entered. -/
structure AtWork (c₀ : Crew) (g : MoveStage) (t : Trace) (c : Crew) : Prop where
  sound : Sound g c
  tidy : Tidy g c
  moves : Drive.InOrder (moves t)
  tells : g.Tells (Crew.moves t)
  captures : Recorder.InOrder (captures t)
  knows : Recorder.Crowd.Knows (Crew.captures t) c.recorderCrowd
  written : c.sampler.buffer = c₀.sampler.buffer ∨ c.sampler.captureEnd = some .ok ∨ Stayed t
  ended : ∀ o, c.sampler.phase = .finished o → LeftAtOnce t c ∨
    ∃ m k, c.sampler.moveEnd = some m ∧ c.sampler.captureEnd = some k ∧
      Sampler.conclude m k c.sampler.userAborted = .ok o

/-- A sampler leaves its buffer alone, or it writes what a capture that ended well has read, or it
blanks it as there is nothing to move. -/
theorem Sound.written_of_step (h : Sound g c) {r : Rig} {s : Sampler} {note : Option SampleNote}
    (hs : c.sampler.step c.now c.rig = some (r, s, note)) :
    (s.buffer = c.sampler.buffer ∧ (c.sampler.captureEnd = some .ok → s.captureEnd = some .ok)) ∨
      s.captureEnd = some .ok ∨ c.record? .sampler = some .stayed := by
  cases Sampler.turn_of_step hs with
  | leave hp =>
    simp only [Sampler.step, hp] at hs
    split_ifs at hs with hv ht <;> cases hs
    · refine .inr (.inr ?_)
      simp only [record?, hp, hv, ht, and_self, if_true]
    · exact .inl ⟨rfl, id⟩
  | @freeRecorder l _ _ _ hp =>
    have hnone := h.captureEnd_of_phase (.inr (.inr ⟨_, hp⟩))
    have hwritten := Sampler.written_of_freeing hp hs
    cases l with
    | none => exact .inl ⟨hwritten.2, fun h0 => absurd (hnone.symm.trans h0) (by simp)⟩
    | some l => exact .inr (.inl hwritten.1)
  | _ => exact .inl ⟨rfl, id⟩

/-- A sampler that ends has left at once, or it has both ends and concludes from them. -/
theorem Sound.ended_of_step (h : Sound g c) {r : Rig} {s : Sampler} {note : Option SampleNote}
    (hs : c.sampler.step c.now c.rig = some (r, s, note)) {o : SampleOutcome}
    (ho : s.phase = .finished o) :
    LeftAtOnce ((c, .sampler) :: t) { c with rig := r, sampler := s } ∨
      ∃ m k, s.moveEnd = some m ∧ s.captureEnd = some k ∧
        Sampler.conclude m k s.userAborted = .ok o := by
  have hnext : ∀ {x : Sampler} {q : SamplerPhase}, x.Next q → q = .finished o →
      ∃ m k, (x.goto q).moveEnd = some m ∧ (x.goto q).captureEnd = some k ∧
        Sampler.conclude m k (x.goto q).userAborted = .ok o := by
    rintro x q hn rfl
    exact hn.ends
  cases Sampler.turn_of_step hs with
  | leave hp =>
    have hm := h.move
    have hk := h.capture
    simp only [Sampler.KnowsMove, hp] at hm
    simp only [Sampler.KnowsCapture, hp] at hk
    refine .inl ⟨hm, hk, _, List.mem_cons_self, rfl, hp, ?_⟩
    simp only [Sampler.step, hp] at hs
    split_ifs at hs with hv ht <;> cases hs
    · exact .inr ht
    · exact .inl hv
  | @announce l q hp hn =>
    rw [show q = .finished o from ho] at hn
    cases l <;> cases hn
  | look hp hn | tell hp hn => exact .inr (hnext hn ho)
  | @freeRecorder l k b q hp hl hn =>
    exact .inr (hnext (x := { c.sampler with captureEnd := some k, buffer := b }) hn ho)
  | @cut q hp hn =>
    split at hn
    · rw [show q = .finished o from ho] at hn
      cases hn
    · exact .inr (hnext hn ho)
  | @freeDrive k q hp hn =>
    split at hn
    · rw [show q = .finished o from ho] at hn
      cases hn
    · exact .inr (hnext hn ho)
  | _ => cases ho

/-- **One action of anybody keeps what holds of a sample at work.** -/
theorem AtWork.act (h : AtWork c₀ g t c) (ha : c.act? a = some c') :
    AtWork c₀ (g.after (c.event? a)) ((c, a) :: t) c' := by
  obtain ⟨hmoves, htells⟩ := h.sound.tells_act h.moves h.tells a
  obtain ⟨hallowed, hknows⟩ := keeps_act h.sound.recorder h.knows ha
  refine ⟨h.sound.act ha, h.tidy.act h.sound ha, ?_, ?_, ?_, ?_, ?_, ?_⟩
  · rwa [moves_cons]
  · rwa [moves_cons]
  · rw [captures_cons]
    cases he : c.captureEvent? a with
    | none => exact h.captures
    | some e => exact ⟨h.captures, hallowed e he⟩
  · rwa [captures_cons]
  · have hstayed : Stayed t → Stayed ((c, a) :: t) := fun ⟨e, he, hx⟩ =>
      ⟨e, List.mem_cons_of_mem _ he, hx⟩
    by_cases hs : a = .sampler
    · subst hs
      obtain ⟨r, s, n, hs, rfl⟩ := step_of_act ha
      rcases h.sound.written_of_step hs with ⟨hb, hk⟩ | hk | hx
      · rw [hb]
        exact h.written.imp id (Or.imp hk hstayed)
      · exact .inr (.inl hk)
      · exact .inr (.inr ⟨_, List.mem_cons_self, hx⟩)
    · rw [(h.sound.frame ha hs).1]
      exact h.written.imp id (Or.imp id hstayed)
  · intro o ho
    by_cases hs : a = .sampler
    · subst hs
      obtain ⟨r, s, n, hs, rfl⟩ := step_of_act ha
      exact h.sound.ended_of_step hs ho
    · unfold LeftAtOnce
      rw [(h.sound.frame ha hs).1] at ho ⊢
      rcases h.ended o ho with ⟨hm, hk, e, he, hx⟩ | hends
      · exact .inl ⟨hm, hk, e, List.mem_cons_of_mem _ he, hx⟩
      · exact .inr hends

/-- A sample that is entered with its rig at rest has done nothing yet. -/
theorem atWork_of_rest {o : SampleOrder} {buffer : List Reading}
    (hs : Sampler.start o buffer = .ok c.sampler) (h : Sound g c) (hrest : c.rig.AtRest) :
    AtWork c g [] c := by
  have hidle : g = .idle := h.drive.free hrest.drive.available
  have hstart := sampler_of_start hs
  refine ⟨h, ⟨?_, ?_, ?_, ?_, ?_⟩, trivial, ?_, trivial, ?_, .inl rfl, ?_⟩
  · rw [hidle]
    simp
  · rw [hstart]
    simp
  · rw [hstart]
    simp
  · rw [hstart]
    exact fun h0 => absurd rfl h0
  · rw [hstart]
    exact ⟨hrest.drive.available, hrest.recorder.available⟩
  · rw [hidle]
    exact rfl
  · exact h.recorder.knows_nothing hrest.recorder
  · rw [hstart]
    nofun

/-- A sample that has returned has left its rig at rest. -/
theorem AtWork.atRest (h : AtWork c₀ g t c) {o : SampleOutcome}
    (ho : c.sampler.phase = .finished o) : c.rig.AtRest := by
  have hp := h.tidy.permits
  simp only [Sampler.LeavesPermits, ho] at hp
  exact ⟨h.sound.drive.atRest hp.1, (h.sound.recorder.atRest hp.2).1⟩

theorem atWork_of_serves (h : Serves p rate c₀ t c) : ∃ g, AtWork c₀ g t c := by
  induction h with
  | start hd hr ho hrest hs => exact ⟨_, atWork_of_rest hs (sound_of_start hd hr ho hs) hrest⟩
  | next _ hx hs ih =>
    obtain ⟨g, hg⟩ := ih
    exact ⟨g, atWork_of_rest hs (hg.sound.next hx hs) (hg.atRest (Sampler.phase_of_result? hx))⟩
  | act _ ha ih =>
    obtain ⟨g, hg⟩ := ih
    exact ⟨_, hg.act ha⟩

/-- What is known of a sample at work, whatever its buffer held when it was entered. -/
theorem samples_of_serves {w : Wanted} {buffer : List Reading} (h : Serves p rate c₀ t c)
    (hb : buffer.length = w.length) (hs : Sampler.start w.order buffer = .ok c₀.sampler) :
    Samples w (record t) c := by
  induction h with
  | start | next => exact samples_of_start hb hs
  | act h ha ih =>
    obtain ⟨g, hg⟩ := atWork_of_serves h
    exact (ih hs).act hg.sound ha

/-- A sample is never refused once it has begun. -/
theorem Serves.not_refused (h : Serves p rate c₀ t c) (f : Fault) :
    c.sampler.result? ≠ some (.error f) := by
  intro hx
  obtain ⟨g, hg⟩ := atWork_of_serves h
  have hp : c.sampler.phase = .refused f := by
    unfold Sampler.result? at hx
    split at hx <;> cases hx
    assumption
  have hpermits := hg.tidy.permits
  simp only [Sampler.LeavesPermits, hp] at hpermits

/-- **A sample leaves its rig at rest, and its outcome is well formed.** However the stepper, the
handler of the timer, other threads' aborts, switches of the power and messages come in between: a
sample that was entered with its rig at rest and has returned has left it at rest, with every move
and every capture of its own collected, and it is never refused. Whenever it has both ends, they
make an outcome, and unless it left at once it returns only with both. It writes its buffer only if
the capture ended well or nothing had to move. And as the histories of moves and captures since it
was entered are in order from the start, whatever it collects was launched or armed in the same
sample, and nothing is left for the next one to collect. -/
theorem sample_leaves_rig_at_rest (h : Serves p rate c₀ t c) :
    (c.sampler.result? ≠ none → c.rig.AtRest ∧
      Drive.uncollected? (moves t) = none ∧ Recorder.uncollected? (captures t) = none) ∧
    (∀ f, c.sampler.result? ≠ some (.error f)) ∧
    (∀ m k, c.sampler.moveEnd = some m → c.sampler.captureEnd = some k →
      ∃ o, SampleOutcome.reduce m k = .ok o) ∧
    (∀ o, c.sampler.result? = some (.ok o) → LeftAtOnce t c ∨
      ∃ m k, c.sampler.moveEnd = some m ∧ c.sampler.captureEnd = some k ∧
        Sampler.conclude m k c.sampler.userAborted = .ok o) ∧
    (c.sampler.buffer ≠ c₀.sampler.buffer → c.sampler.captureEnd = some .ok ∨ Stayed t) ∧
    Drive.InOrder (moves t) ∧ Recorder.InOrder (captures t) := by
  obtain ⟨g, hg⟩ := atWork_of_serves h
  refine ⟨fun hx => ?_, h.not_refused, fun m k hm hk => ?_, fun o ho => ?_, fun hb => ?_,
    hg.moves, hg.captures⟩
  · obtain ⟨o, hp⟩ : ∃ o, c.sampler.phase = .finished o := by
      cases hr : c.sampler.result? with
      | none => exact absurd hr hx
      | some x =>
        cases x with
        | ok o => exact ⟨o, Sampler.phase_of_result? hr⟩
        | error f => exact absurd hr (h.not_refused f)
    have hrest := hg.atRest hp
    have hidle : g = .idle := hg.sound.drive.free hrest.drive.available
    have htells := hg.tells
    rw [hidle] at htells
    exact ⟨hrest, htells, hg.knows.free hrest.recorder.available⟩
  · refine SampleOutcome.exists_reduce ?_ ?_
    · rintro rfl
      exact hg.tidy.moveEnd hm
    · rintro rfl
      exact hg.tidy.captureEnd hk
  · exact hg.ended o (Sampler.phase_of_result? ho)
  · exact hg.written.resolve_left hb

/-- The power goes off before the first step of a step up. -/
def lostPower : List Action :=
  List.flatten [
    [.drive .powerOn], List.replicate 6 .sampler,
    List.replicate 4 (.drive (.stepper .done)), [.drive .powerOff],
    [.drive (.stepper (.ticked true))], List.replicate 5 (.drive (.stepper .done)),
    List.replicate 14 .sampler]

theorem sample_leaves_rig_at_rest_lostPower :
    ∃ c₀ t c u c', Serves .standard 1 c₀ t c ∧ c.sampler.result? = some (.ok .poweredOff) ∧
      Serves .standard 1 { c with sampler := c₀.sampler } u c' ∧
      c'.sampler.result? = some (.ok .ok) ∧
      (c.rig.AtRest ∧ Drive.uncollected? (moves t) = none ∧
        Recorder.uncollected? (captures t) = none) ∧
      (c'.rig.AtRest ∧ Drive.uncollected? (moves u) = none ∧
        Recorder.uncollected? (captures u) = none) ∧
      Drive.InOrder (moves u) ∧ Recorder.InOrder (captures u) := by
  have hs : Sampler.start stepUp [] = .ok ⟨stepUp, .locating, none, none, false, []⟩ := rfl
  have hlost := of_play? (P := Serves .standard 1 _) (fun _ _ _ _ => .act) lostPower
    (serves_fresh stepUp [] rfl hs) rfl
  have hgained := of_play? (P := Serves .standard 1 _) (fun _ _ _ _ => .act) lateAbort
    (hlost.next rfl hs) rfl
  obtain ⟨hrest, -⟩ := sample_leaves_rig_at_rest hlost
  obtain ⟨hrest', -, -, -, -, hmoves, hcaptures⟩ := sample_leaves_rig_at_rest hgained
  exact ⟨_, _, _, _, _, hlost, rfl, hgained, rfl, hrest (Option.some_ne_none _),
    hrest' (Option.some_ne_none _), hmoves, hcaptures⟩

end Crew

end SwitchBench
