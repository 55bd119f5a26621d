import SwitchBench.Proofs.Capture.DenseSlots
import SwitchBench.Proofs.Capture.Latches
import SwitchBench.Proofs.Capture.Window
import SwitchBench.Proofs.Sampling.Aborts
import SwitchBench.Sampling.Check

/-!
# What a sample leaves in its buffer

The channels of a sample are set when its capture is armed, and nobody else sets any until they are
read out. What the recorder was like then is the `PassRecord` of the sample; a sample that finds the
plunger at its target reads nothing. `Crew.Samples` says what the sampler at work on a sample makes
of it.

A crew takes one sample after the other (`Crew.Takes`): each begins on the rig as the last one left
it, or on any rig that was used for something else in between.

Results: `Samples.act` (one action keeps the invariant), `Samples.readings` (after a sample that
ended well the buffer, if it has room for the channels of the sample, begins with what the engine
read for each of them, in channel order), `Takes.readings` (and holds nothing else, if it is as long
as there are channels).
-/

namespace SwitchBench

open Drive (MoveStage)

/-- What was read of the channels in a sample that ended well. -/
inductive PassRecord where
  /-- Nothing: the plunger was there already. -/
  | stayed
  /-- What this recorder had captured. -/
  | read (r : Recorder)
  deriving DecidableEq, Repr

/-- What the engine read for a channel; a blank if it read nothing. -/
def PassRecord.reading : PassRecord → Channel → Reading
  | stayed, _ => .blank
  | read r, c => (Recorder.readChannel r.timer r.timer.status r.timeoutTicks c).2

/-- Has a recorder the channels of a sample on, and no others? -/
def Wanted.WatchedBy (w : Wanted) (r : Recorder) : Prop :=
  r.timer.enabled = Recorder.maskOf w.order.setup w.order.directions

/-- Is the sampler before its capture? -/
def SamplerPhase.isFresh : SamplerPhase → Bool
  | locating | takingRecorder | arming => true
  | _ => false

/-- Is the sampler past its start, with no readings in hand, and not done? -/
def SamplerPhase.isUnderWay : SamplerPhase → Bool
  | locating | takingRecorder | arming | freeingRecorder _ | finished _ => false
  | _ => true

/-- In its rounds a sampler is past its start, and does not read channels out. -/
theorem SamplerPhase.past_of_round {p : SamplerPhase}
    (h : (p.isLooking || p.isCutting || p.isTelling) = true) :
    p.isFresh = false ∧ p ≠ .readingChannels := by
  cases p <;> first | (cases h; done) | exact ⟨rfl, by simp⟩

namespace Sampler

variable {s : Sampler} {p : SamplerPhase}

/-- An outcome is only good if both ends were. -/
theorem eq_ok_of_conclude {m : MoveOutcome} {k : CaptureOutcome} {asked : Bool}
    (h : Sampler.conclude m k asked = .ok .ok) : m = .ok ∧ k = .ok := by
  revert h
  cases m <;> cases k <;> cases asked <;> decide

theorem phase_of_result? {o : SampleOutcome} (h : s.result? = some (.ok o)) :
    s.phase = .finished o := by
  unfold result? at h
  split at h <;> cases h
  assumption

/-- A sampler that acts has no result yet. -/
theorem result?_of_step {now : Nat} {r : Rig} {x : Rig × Sampler × Option SampleNote}
    (h : s.step now r = some x) : s.result? = none := by
  unfold result?
  split
  · rename_i hp
    simp only [step, hp] at h
    cases h
  · rename_i hp
    simp only [step, hp] at h
    cases h
  · rfl

/-- A sampler past its start with nothing in hand, that has only ended well if its capture did. -/
structure Onward (s : Sampler) : Prop where
  begun : s.phase.isFresh = false
  nothing : ∀ l, s.phase ≠ .freeingRecorder l
  ended : s.phase = .finished .ok → s.captureEnd = some .ok

theorem onward_of_next (h : s.Next p) : (s.goto p).Onward := by
  refine ⟨?_, fun l hp => ?_, fun hp => ?_⟩
  · have hearly := h.not_early
    show p.isFresh = false
    cases p <;> first | rfl | cases hearly
  · rw [show p = .freeingRecorder l from hp] at h
    generalize hq : SamplerPhase.freeingRecorder l = q at h
    cases h with
    | look hl =>
      rw [← hq] at hl
      cases hl
    | takeMove _ | takeCapture _ => cases hq
    | @conclude m k _ _ =>
      cases hc : Sampler.conclude m k s.userAborted <;> rw [hc] at hq <;> cases hq
  · rw [show p = .finished .ok from hp] at h
    obtain ⟨m, k, -, hk, hc⟩ := h.ends
    rw [(eq_ok_of_conclude hc).2] at hk
    exact hk

theorem onward_of_isUnderWay (h : s.phase.isUnderWay = true) : s.Onward := by
  refine ⟨?_, fun l hp => ?_, fun hp => ?_⟩
  · cases hp : s.phase <;> first | rfl | (rw [hp] at h; cases h)
  · rw [hp] at h
    cases h
  · rw [hp] at h
    cases h

end Sampler

/-- A buffer that is filled keeps its length. -/
theorem Recorder.length_fill (n : Nat) (l : List Reading) : (fill n l).length = n := by
  unfold fill
  rw [List.length_append, List.length_take, List.length_replicate]
  omega

/-- A buffer that has room for what it is filled with begins with it. -/
theorem Recorder.take_fill {n : Nat} {l : List Reading} (h : l.length ≤ n) :
    (fill n l).take l.length = l := by
  unfold fill
  rw [List.take_of_length_le h, List.take_left]

namespace Sampler

variable {now : Nat} {r r' : Rig} {s s' : Sampler} {note : Option SampleNote}

/-- A sampler that gives the recorder back writes what it has read, and nothing if that was
aborted. -/
theorem written_of_freeing {l : Option (List Reading)} (hp : s.phase = .freeingRecorder l)
    (h : s.step now r = some (r', s', note)) :
    match l with
    | some l => s'.captureEnd = some .ok ∧ s'.buffer = Recorder.fill s.buffer.length l
    | none => s'.captureEnd = some .aborted ∧ s'.buffer = s.buffer := by
  cases l with
  | none =>
    obtain ⟨q, -, he⟩ := next_nextRound { s with captureEnd := some .aborted }
    simp only [step, hp] at h
    rw [← hp, he] at h
    cases h
    exact ⟨rfl, rfl⟩
  | some l =>
    obtain ⟨q, -, he⟩ := next_nextRound
      { s with captureEnd := some .ok, buffer := Recorder.fill s.buffer.length l }
    simp only [step, hp] at h
    rw [← hp, he] at h
    cases h
    exact ⟨rfl, rfl⟩

/-- A buffer keeps its length. -/
theorem length_buffer_of_step (h : s.step now r = some (r', s', note)) :
    s'.buffer.length = s.buffer.length := by
  cases turn_of_step h with
  | leave hp =>
    simp only [step, hp] at h
    split_ifs at h <;> cases h
    · exact List.length_map ..
    · rfl
  | @freeRecorder l _ _ _ hp =>
    have hwritten := written_of_freeing hp h
    cases l with
    | none => exact congrArg _ hwritten.2
    | some l => exact (congrArg _ hwritten.2).trans (Recorder.length_fill _ _)
  | _ => rfl

end Sampler

/-! ## The channels that are on -/

/-- A bystander sets no channels. -/
theorem Recorder.Crowd.enabled_of_isBystander {a : Recorder.Action} {c x : Recorder.Crowd}
    (ha : a.isBystander = true) (hc : ∀ k ∈ c.calls, k.isBystander = true)
    (h : c.act? a = some x) : x.recorder.timer.enabled = c.recorder.timer.enabled := by
  cases bystanderTurn_of_act ha hc h with
  | edge => exact Timer.Registers.enabled_edge _ _ _ _
  | wait | expire | enter | announce => rfl
  | cut => exact (sameLatches_cut _ _).enabled
  | service => exact (sameLatches_service _ _).enabled

namespace Crew

variable {g : MoveStage} {c c' : Crew} {a : Action} {w : Wanted} {x : Option PassRecord}

/-- Nobody but the sampler sets channels. -/
theorem Sound.enabled_of_act (h : Sound g c) (ha : c.act? a = some c') (hs : a ≠ .sampler) :
    c'.rig.recorder.timer.enabled = c.rig.recorder.timer.enabled := by
  cases turn_of_act ha with
  | drive hb hx =>
    simp only [follow]
    split
    · exact (Timer.Registers.sameLatches_trigger _ _).enabled
    · rfl
  | @recorder a x hb hx =>
    exact Recorder.Crowd.enabled_of_isBystander (c := ⟨c.rig.recorder, c.now, c.others⟩) hb
      h.bystanders hx
  | send m => rfl
  | sampler => exact absurd rfl hs

/-- What an action shows of the sample at hand. -/
def record? (c : Crew) : Action → Option PassRecord
  | .sampler =>
    match c.sampler.phase with
    | .locating =>
      if Position.Valid c.rig.drive.locate ∧ c.sampler.order.target = c.rig.drive.locate then
        some .stayed
      else none
    | .readingChannels => some (.read c.rig.recorder)
    | _ => none
  | _ => none

/-- What was read in a sample, given what happened in it. -/
def record : Trace → Option PassRecord
  | [] => none
  | (c, a) :: t => c.record? a <|> record t

/-- The states that a crew can come to in one sample after the other, each with a blank buffer of
its own. -/
inductive Takes (p : StepPeriods) (rate : Nat) : Wanted → Trace → Crew → Prop
  | start {w : Wanted} {t : Drive.Crowd.Trace} {t' : Recorder.Crowd.Trace} {d : Drive}
      {r : Recorder} {now : Nat} {others : List CaptureCall} {inbox : Inbox} {s : Sampler}
      (hd : Drive.Crowd.Reaches p rate t ⟨d, []⟩) (hr : Recorder.Crowd.Reaches t' ⟨r, now, others⟩)
      (ho : ∀ k ∈ others, k.isBystander = true)
      (hs : Sampler.start w.order (List.replicate w.length .blank) = .ok s) :
      Takes p rate w [] ⟨⟨d, r, inbox⟩, now, s, others⟩
  | next {v w : Wanted} {t : Trace} {c : Crew} {s : Sampler} {o : SampleOutcome}
      (h : Takes p rate v t c) (he : c.sampler.result? = some (.ok o))
      (hs : Sampler.start w.order (List.replicate w.length .blank) = .ok s) :
      Takes p rate w [] { c with sampler := s }
  | act {w : Wanted} {t : Trace} {c c' : Crew} {a : Action} (h : Takes p rate w t c)
      (ha : c.act? a = some c') : Takes p rate w ((c, a) :: t) c'

theorem takes_fresh {p : StepPeriods} {rate : Nat} {d : Drive} {s : Sampler}
    (hd : Drive.ofPeriods p rate = .ok d)
    (hs : Sampler.start w.order (List.replicate w.length .blank) = .ok s) :
    Takes p rate w [] (fresh d s) :=
  .start (.start hd) (.start 0) (fun _ h0 => (List.not_mem_nil h0).elim) hs

/-- A sampler that has ended well has nothing in hand, so the next one can take over. -/
theorem Sound.next (h : Sound g c) {o : SampleOutcome} (he : c.sampler.result? = some (.ok o))
    {order : SampleOrder} {buffer : List Reading} {s : Sampler}
    (hs : Sampler.start order buffer = .ok s) : Sound g { c with sampler := s } := by
  have hp : c.sampler.phase = .finished o := Sampler.phase_of_result? he
  have hd := h.drive
  have hr := h.recorder
  simp only [driveCrowd, recorderCrowd, Sampler.moveCall, Sampler.captureCall, hp] at hd hr
  rw [sampler_of_start hs]
  exact ⟨hd, hr, h.bystanders, rfl, rfl, fun h0 => (Option.some_ne_none _ h0.symm).elim⟩

theorem sound_of_takes {p : StepPeriods} {rate : Nat} {t : Trace} (h : Takes p rate w t c) :
    ∃ g, Sound g c := by
  induction h with
  | start hd hr ho hs => exact ⟨_, sound_of_start hd hr ho hs⟩
  | next _ he hs ih =>
    obtain ⟨g, hg⟩ := ih
    exact ⟨g, hg.next he hs⟩
  | act _ ha ih =>
    obtain ⟨g, hg⟩ := ih
    exact ⟨_, hg.act ha⟩

/-! ## A sampler at work on a sample -/

/-- A sampler at work on a sample that was wanted, with what has been read in it. From the start of
its capture until it has read the channels out, the recorder watches those of the sample. -/
structure Samples (w : Wanted) (x : Option PassRecord) (c : Crew) : Prop where
  order : c.sampler.order = w.order
  length : c.sampler.buffer.length = w.length
  fresh : c.sampler.phase.isFresh = true → c.sampler.captureEnd = none
  watched : c.sampler.phase.isFresh = false → c.sampler.captureEnd = none →
    c.sampler.result? = none → w.WatchedBy c.rig.recorder
  freed : ∀ l, c.sampler.phase = .freeingRecorder l →
    ∃ r, x = some (.read r) ∧ w.WatchedBy r ∧ r.collect.2 = l
  kept : c.sampler.captureEnd = some .ok → ∃ r l, x = some (.read r) ∧ w.WatchedBy r ∧
    r.collect.2 = some l ∧ c.sampler.buffer = Recorder.fill w.length l
  done : c.sampler.phase = .finished .ok → c.sampler.captureEnd = some .ok ∨
    x = some .stayed ∧ c.sampler.buffer = List.replicate w.length .blank

/-- Before its capture a sampler has nothing to tell. -/
theorem samples_of_isFresh (ho : c.sampler.order = w.order)
    (hl : c.sampler.buffer.length = w.length) (hk : c.sampler.captureEnd = none)
    (hf : c.sampler.phase.isFresh = true) : Samples w x c where
  order := ho
  length := hl
  fresh _ := hk
  watched h0 := absurd hf (ne_true_of_eq_false h0)
  freed l h0 := by
    rw [h0] at hf
    cases hf
  kept h0 := by
    rw [hk] at h0
    cases h0
  done h0 := by
    rw [h0] at hf
    cases hf

theorem samples_of_start {buffer : List Reading} (hb : buffer.length = w.length)
    (hs : Sampler.start w.order buffer = .ok c.sampler) : Samples w x c := by
  have h := sampler_of_start hs
  refine samples_of_isFresh ?_ ?_ ?_ ?_ <;> rw [h]
  · exact hb
  · rfl

/-- Whatever everybody else does changes nothing of a sample. -/
theorem Samples.frame (h : Samples w x c) (hs : Sound g c) (ha : c.act? a = some c')
    (hne : a ≠ .sampler) : Samples w x c' := by
  obtain ⟨hsame, -, -, -⟩ := hs.frame ha hne
  have hon := hs.enabled_of_act ha hne
  refine ⟨?_, ?_, ?_, ?_, ?_, ?_, ?_⟩ <;> rw [hsame]
  · exact h.order
  · exact h.length
  · exact h.fresh
  · unfold Wanted.WatchedBy
    rw [hon]
    exact h.watched
  · exact h.freed
  · exact h.kept
  · exact h.done

/-- A sampler goes on without touching its buffer. -/
theorem Samples.goOn (h : Samples w x c) (hf : c.sampler.phase.isFresh = false)
    (hn : c.sampler.result? = none) {r : Rig} {s : Sampler} (hs : s.Onward)
    (ho : s.order = c.sampler.order) (hb : s.buffer = c.sampler.buffer)
    (hk : s.captureEnd = c.sampler.captureEnd)
    (he : r.recorder.timer.enabled = c.rig.recorder.timer.enabled) :
    Samples w x { c with rig := r, sampler := s } where
  order := ho.trans h.order
  length := by rw [hb, h.length]
  fresh h0 := absurd (hs.begun.symm.trans h0) (by simp)
  watched _ h0 _ := he.trans (h.watched hf (hk.symm.trans h0) hn)
  freed l h0 := absurd h0 (hs.nothing l)
  kept h0 := by
    rw [hk] at h0
    rw [hb]
    exact h.kept h0
  done h0 := .inl (hs.ended h0)

/-- A sample that ends without a capture has read nothing. -/
theorem samples_of_finished {o : SampleOutcome} (ho : c.sampler.order = w.order)
    (hl : c.sampler.buffer.length = w.length) (hk : c.sampler.captureEnd = none)
    (hp : c.sampler.phase = .finished o)
    (hd : o = .ok → x = some .stayed ∧ c.sampler.buffer = List.replicate w.length .blank) :
    Samples w x c where
  order := ho
  length := hl
  fresh _ := hk
  watched _ _ h0 := by
    rw [Sampler.result?, hp] at h0
    cases h0
  freed l h0 := by
    rw [hp] at h0
    cases h0
  kept h0 := by
    rw [hk] at h0
    cases h0
  done h0 := by
    rw [hp] at h0
    exact .inr (hd (SamplerPhase.finished.inj h0))

/-- A sampler that asks where the plunger is may have nothing to do. -/
theorem Samples.locate (h : Samples w x c) (hp : c.sampler.phase = .locating) {r : Rig}
    {s : Sampler} {note : Option SampleNote}
    (hs : c.sampler.step c.now c.rig = some (r, s, note)) :
    Samples w (c.record? .sampler <|> x) { c with rig := r, sampler := s } := by
  have hk := h.fresh (by rw [hp]; rfl)
  simp only [Sampler.step, hp] at hs
  split_ifs at hs with hv ht <;> cases hs
  · refine samples_of_finished h.order ((List.length_map _).trans h.length) hk rfl
      fun _ => ⟨?_, ?_⟩
    · simp only [record?, hp, hv, ht, and_self, if_true]
      rfl
    · show c.sampler.buffer.map (fun _ => Reading.blank) = _
      rw [List.map_const', h.length]
  · exact samples_of_isFresh h.order h.length hk rfl
  · exact samples_of_finished h.order h.length hk rfl fun h0 => by cases h0

/-- A sampler reads the channels of its sample out, and no others. -/
theorem Samples.readChannels (h : Samples w x c) (hs : Sound g c)
    (hp : c.sampler.phase = .readingChannels) :
    Samples w (c.record? .sampler <|> x)
      { c with
        rig.recorder := c.rig.recorder.collect.1
        sampler := c.sampler.goto (.freeingRecorder c.rig.recorder.collect.2) } := by
  have hk : c.sampler.captureEnd = none := by
    have := hs.capture
    simpa only [Sampler.KnowsCapture, hp] using this
  have hon := h.watched (by rw [hp]; rfl) hk (by rw [Sampler.result?, hp])
  have hx : c.record? .sampler = some (.read c.rig.recorder) := by simp only [record?, hp]
  refine ⟨h.order, h.length, fun _ => hk, fun _ _ _ => ?_, fun l h0 => ?_,
    fun h0 => absurd (hk.symm.trans h0) (by simp), fun h0 => ?_⟩
  · obtain ⟨f, hf⟩ := Recorder.fst_collect c.rig.recorder
    rw [hf]
    exact hon
  · cases h0
    exact ⟨_, by rw [hx]; rfl, hon, rfl⟩
  · cases h0

/-- A sampler that gives the recorder back keeps what it has read. -/
theorem Samples.freeRecorder (h : Samples w x c) {l : Option (List Reading)}
    (hp : c.sampler.phase = .freeingRecorder l) {r : Rig} {s : Sampler} {note : Option SampleNote}
    (hs : c.sampler.step c.now c.rig = some (r, s, note)) :
    Samples w x { c with rig := r, sampler := s } := by
  obtain ⟨q, hx, hon, rfl⟩ := h.freed l hp
  cases hl : q.collect.2 with
  | none =>
    rw [hl] at hp
    obtain ⟨p, hn, he⟩ := Sampler.next_nextRound { c.sampler with captureEnd := some .aborted }
    simp only [Sampler.step, hp] at hs
    rw [← hp, he] at hs
    cases hs
    have ho := Sampler.onward_of_next hn
    refine ⟨h.order, h.length, fun h0 => absurd (ho.begun.symm.trans h0) (by simp),
      fun _ h0 => ?_, fun l h0 => absurd h0 (ho.nothing l), fun h0 => ?_,
      fun h0 => .inl (ho.ended h0)⟩ <;> cases h0
  | some l =>
    rw [hl] at hp
    obtain ⟨p, hn, he⟩ := Sampler.next_nextRound
      { c.sampler with captureEnd := some .ok, buffer := Recorder.fill c.sampler.buffer.length l }
    simp only [Sampler.step, hp] at hs
    rw [← hp, he] at hs
    cases hs
    have ho := Sampler.onward_of_next hn
    refine ⟨h.order, ?_, fun h0 => absurd (ho.begun.symm.trans h0) (by simp), fun _ h0 => ?_,
      fun l h0 => absurd h0 (ho.nothing l), fun _ => ⟨q, l, hx, hon, hl, ?_⟩,
      fun h0 => .inl (ho.ended h0)⟩
    · show (Recorder.fill c.sampler.buffer.length l).length = _
      rw [Recorder.length_fill, h.length]
    · cases h0
    · show Recorder.fill c.sampler.buffer.length l = _
      rw [h.length]

/-- **One action of anybody keeps what is known of a sample.** -/
theorem Samples.act (h : Samples w x c) (hs : Sound g c) (ha : c.act? a = some c') :
    Samples w (c.record? a <|> x) c' := by
  by_cases hne : a = .sampler
  · subst hne
    obtain ⟨r, s, n, hstep, rfl⟩ := step_of_act ha
    have hn := Sampler.result?_of_step hstep
    -- only a sampler that asks for the position or reads channels out has something to tell, and
    -- only one that gives the recorder back fills its buffer
    have hkeep : ∀ {p}, c.sampler.phase = p → p ≠ .locating → p ≠ .readingChannels →
        c.record? .sampler = none := by
      rintro _ rfl h1 h2
      simp only [record?]
    have hpast : ∀ {p}, c.sampler.phase = p → p.isFresh = false → p ≠ .readingChannels →
        s.Onward → s.order = c.sampler.order → s.buffer = c.sampler.buffer →
        s.captureEnd = c.sampler.captureEnd →
        r.recorder.timer.enabled = c.rig.recorder.timer.enabled →
        Samples w (c.record? .sampler <|> x) { c with rig := r, sampler := s } := by
      intro p hp hf hr ho h1 h2 h3 h4
      rw [hkeep hp (by rintro rfl; cases hf) hr]
      exact h.goOn (by rw [hp]; exact hf) hn ho h1 h2 h3 h4
    cases Sampler.turn_of_step hstep with
    | leave hp | seek hp => exact h.locate hp hstep
    | takeRecorder hp _ =>
      rw [hkeep hp (by simp) (by simp)]
      exact samples_of_isFresh h.order h.length (h.fresh (by rw [hp]; rfl)) rfl
    | arm hp =>
      rw [hkeep hp (by simp) (by simp)]
      have hk := h.fresh (by rw [hp]; rfl)
      refine ⟨h.order, h.length, fun _ => hk, fun _ _ _ => ?_, fun l h0 => ?_,
        fun h0 => absurd (hk.symm.trans h0) (by simp), fun h0 => ?_⟩
      · unfold Wanted.WatchedBy
        rw [← h.order]
        exact (Recorder.latches_arm _ _ _ _).1
      · cases h0
      · cases h0
    | takeDrive hp _ | launch hp | hear hp | abortMove hp | takeMove hp _ | readMove hp =>
      exact hpast hp rfl (by simp) (Sampler.onward_of_isUnderWay rfl) rfl rfl rfl rfl
    | @announce l p hp hn =>
      refine hpast hp rfl (by simp) ?_ rfl rfl rfl rfl
      rw [hn]
      cases l <;> exact Sampler.onward_of_isUnderWay rfl
    | look hp hn =>
      obtain ⟨h1, h2⟩ := SamplerPhase.past_of_round (by rw [hp]; rfl)
      exact hpast rfl h1 h2 (Sampler.onward_of_next hn) rfl rfl rfl rfl
    | @cut p hp hn =>
      obtain ⟨h1, h2⟩ := SamplerPhase.past_of_round (p := c.sampler.phase) (by simp [hp])
      have ho : (c.sampler.goto p).Onward := by
        split at hn
        · refine Sampler.onward_of_isUnderWay (s := c.sampler.goto p) ?_
          show p.isUnderWay = true
          cases p <;> first | rfl | cases hn
        · exact Sampler.onward_of_next hn
      exact hpast rfl h1 h2 ho rfl rfl rfl (Recorder.sameLatches_cut _ _).enabled
    | tell hp hn =>
      obtain ⟨h1, h2⟩ := SamplerPhase.past_of_round (p := c.sampler.phase) (by simp [hp])
      exact hpast rfl h1 h2 (Sampler.onward_of_next hn) rfl rfl rfl rfl
    | @freeDrive k p hp hn =>
      have ho : (c.sampler.goto p).Onward := by
        split at hn
        · rw [hn]
          exact Sampler.onward_of_isUnderWay rfl
        · exact Sampler.onward_of_next hn
      exact hpast hp rfl (by simp) ho rfl rfl rfl rfl
    | takeCapture hp hc =>
      exact hpast hp rfl (by simp) (Sampler.onward_of_isUnderWay rfl) rfl rfl rfl
        (by rw [Recorder.eq_of_takeDone? hc])
    | readChannels hp => exact h.readChannels hs hp
    | freeRecorder hp _ _ =>
      rw [hkeep hp (by simp) (by simp)]
      exact h.freeRecorder hp hstep
  · rw [show c.record? a = none by cases a <;> first | rfl | exact absurd rfl hne]
    exact h.frame hs ha hne

/-! ## Samples that were taken -/

theorem samples_of_takes {p : StepPeriods} {rate : Nat} {t : Trace} (h : Takes p rate w t c) :
    Samples w (record t) c := by
  induction h with
  | start _ _ _ hs => exact samples_of_start List.length_replicate hs
  | next _ _ hs => exact samples_of_start List.length_replicate hs
  | act h ha ih =>
    obtain ⟨g, hg⟩ := sound_of_takes h
    exact ih.act hg ha

/-- What a readout gives, if the channels of a sample are on. -/
theorem readings_of_watchedBy {r : Recorder} (hw : w.WatchedBy r) {l : List Reading}
    (hl : r.collect.2 = some l) :
    l = (w.order.setup.watched w.order.directions).map (PassRecord.read r).reading := by
  obtain ⟨f, hf⟩ := Recorder.readOut_eq r.timer r.timeoutTicks
  have hreading : (PassRecord.read r).reading = Recorder.readingAt r.timer r.timeoutTicks := by
    funext k
    obtain ⟨f', hk⟩ := Recorder.readChannel_eq r.timer r.timer.status r.timeoutTicks k
    exact congrArg Prod.snd hk
  have hon : Channel.all.filter r.timer.enabled.get
      = w.order.setup.watched w.order.directions := by
    rw [show r.timer.enabled = _ from hw]
    exact List.filter_congr fun k _ => Recorder.get_maskOf k
  rw [hreading, ← hon]
  unfold Recorder.collect at hl
  split at hl
  · cases hl
  · rw [hf] at hl
    exact (Option.some.inj hl).symm

/-- A sample that ended well left the readings of its channels at the start of its buffer, in
channel order, if there was room for them. -/
theorem Samples.readings (h : Samples w x c) (he : c.sampler.result? = some (.ok .ok))
    (hn : w.order.setup.channelCount w.order.directions ≤ w.length) :
    ∃ y, x = some y ∧ c.sampler.buffer.take (w.order.setup.channelCount w.order.directions)
      = (w.order.setup.watched w.order.directions).map y.reading := by
  have hcount := w.order.setup.length_watched w.order.directions
  rcases h.done (Sampler.phase_of_result? he) with hk | ⟨hx, hb⟩
  · obtain ⟨r, l, hx, hw, hl, hb⟩ := h.kept hk
    have hlen : l.length = w.order.setup.channelCount w.order.directions := by
      rw [readings_of_watchedBy hw hl, List.length_map, hcount]
    refine ⟨_, hx, ?_⟩
    rw [hb, ← hlen, Recorder.take_fill (hlen ▸ hn)]
    exact readings_of_watchedBy hw hl
  · refine ⟨_, hx, ?_⟩
    rw [hb, List.take_replicate, Nat.min_eq_left hn, ← hcount]
    exact (List.map_const' ..).symm

/-- **A sample that ended well left the readings of its channels in its buffer**, in channel order,
if the buffer is as long as there are channels. -/
theorem Takes.readings {p : StepPeriods} {rate : Nat} {t : Trace} (h : Takes p rate w t c)
    (he : c.sampler.result? = some (.ok .ok))
    (hn : w.length = w.order.setup.channelCount w.order.directions) :
    ∃ x, record t = some x ∧
      c.sampler.buffer = (w.order.setup.watched w.order.directions).map x.reading := by
  have hs := samples_of_takes h
  obtain ⟨x, hx, hb⟩ := hs.readings he (Nat.le_of_eq hn.symm)
  rw [List.take_of_length_le (by rw [hs.length, hn])] at hb
  exact ⟨x, hx, hb⟩

end Crew

end SwitchBench
