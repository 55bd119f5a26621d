import SwitchBench.Proofs.Drive.MoveResults
import SwitchBench.Proofs.Runs
import SwitchBench.Proofs.Sampling.Knowledge

/-!
# What becomes of an abort

A sampler that takes an abort asks its move and its capture to stop. A move that was undecided will
not end well any more, and neither will a capture that was armed. But a move that is settled stays
as it is, and so does a capture that has ended: if both have ended well when the sampler gets to
them, the abort comes too late, and the sample ends well.

`Crew.moveFate` and `Crew.captureFate` are the outcomes of the sampler's move and capture as soon
as they are fixed, which may be long before the sampler collects them.

Results: `ok_iff_asked_too_late` (a sample whose sampler has taken an abort ends well exactly if
whatever it asked to stop had ended well by then).
-/

namespace SwitchBench

open Drive (MoveStage MoveEvent)

/-- How the move that was launched last ends, once that is fixed. -/
def Drive.fate? (d : Drive) : Option MoveOutcome :=
  match d.stepper.phase with
  | .stopping o | .reporting o => some o
  | .announcing => some d.axis.outcome
  | .waiting => if d.begin.ready then none else some d.axis.outcome
  | _ => none

/-- How the capture that was armed last ends, once that is fixed. -/
def Recorder.fate? (r : Recorder) : Option CaptureOutcome :=
  if r.timer.armed then none else some (if r.aborted then .aborted else .ok)

namespace Crew

/-- How the sampler's move ends, once that is fixed. -/
def moveFate (c : Crew) : Option MoveOutcome := c.sampler.moveEnd <|> c.rig.drive.fate?

/-- How the sampler's capture ends, once that is fixed. -/
def captureFate (c : Crew) : Option CaptureOutcome :=
  c.sampler.captureEnd <|> c.rig.recorder.fate?

/-- Did the sampler, upon an abort, ask its move to stop? -/
def AsksMove (e : Crew × Action) : Prop :=
  e.2 = .sampler ∧ ∃ moved captured, e.1.sampler.phase = .abortingMove moved captured

/-- Did the sampler, upon an abort, ask its capture to stop? -/
def AsksCapture (e : Crew × Action) : Prop :=
  e.2 = .sampler ∧ ∃ moved captured, e.1.sampler.phase = .abortingCapture moved captured

end Crew

/-! ## The fate of a move -/

namespace Drive

namespace MoveStage

/-- Is it certain that the move will not end well? -/
def Doomed : MoveStage → Prop
  | idle => False
  | flying _ lost asked => lost = true ∨ asked = true
  | settled o => o ≠ .ok

/-- Nothing but its collection changes a move that is settled. -/
theorem next_settled {o : MoveOutcome} {e : MoveEvent} (he : (settled o).Allows e)
    (hc : ∀ r, e ≠ .collected r) : (settled o).next e = settled o := by
  cases e with
  | launched a o l => cases he.1
  | decided a d => cases he.1
  | timerFailed => cases he
  | powerLost | abortAsked => rfl
  | collected r => exact absurd rfl (hc r)

/-- A move that lost its power, or is asked to stop, is decided accordingly. -/
theorem Doomed.next {g : MoveStage} (h : g.Doomed) {e : MoveEvent} (he : g.Allows e)
    (hc : ∀ r, e ≠ .collected r) : (g.next e).Doomed := by
  cases g with
  | idle => exact h.elim
  | settled o =>
    rw [next_settled he hc]
    exact h
  | flying t l k =>
    cases e with
    | launched a o l => cases he.1
    | collected r => exact absurd rfl (hc r)
    | timerFailed =>
      intro h0
      cases h0
    | powerLost => exact .inl rfl
    | abortAsked => exact .inr rfl
    | decided a d =>
      obtain ⟨-, ⟨-, hl, hk, -⟩, hd⟩ := he
      cases d with
      | step up => exact h
      | finish o =>
        show o ≠ .ok
        rintro rfl
        unfold Axis.decide at hd
        split_ifs at hd with h1 h2 h3 <;> cases hd
        rw [Bool.or_eq_true_iff, not_or, hl] at h1
        rw [hk] at h2
        exact h.elim h1.2 h2

end MoveStage

/-- The fate of a move that is out is that it is settled. -/
theorem Crowd.Sound.fate?_eq_some_iff {g : MoveStage} {d : Drive} (h : Crowd.Sound g ⟨d, []⟩)
    (hg : g ≠ .idle) {o : MoveOutcome} : d.fate? = some o ↔ g = .settled o := by
  have hflying : g.isFlying = true → g ≠ .settled o := by
    rintro hf rfl
    cases hf
  have hsettled : ∀ {r}, g = .settled r → (some r = some o ↔ g = .settled o) := by
    rintro r rfl
    simp
  have hfits : d.stepper.phase.Fits g d.axis.outcome := h.stepper
  cases hp : d.stepper.phase with
  | stopping r | reporting r | announcing =>
    rw [hp] at hfits
    rw [fate?, hp]
    exact hsettled hfits
  | waiting =>
    have hpermit := h.permit
    have hfree : d.available.count ≠ 1 := fun h0 => hg (h.free h0)
    have hbegun : d.begin.count = 1 → g.isFlying = true := h.begun
    have hended : d.done.count = 1 → g = .settled d.axis.outcome := h.ended
    simp only [Crowd.permits, inHand, hp, if_true, List.countP_nil] at hpermit
    simp only [fate?, hp, Semaphore.ready, decide_eq_true_eq]
    split
    · have := hflying (hbegun (by omega))
      simpa using this
    · exact hsettled (hended (by omega))
  | ended =>
    rw [hp] at hfits
    exact hfits.elim
  | _ =>
    rw [hp] at hfits
    have := hflying hfits
    simpa [fate?, hp] using this

end Drive

/-! ## What the crew does to the fates -/

namespace Sampler

variable {s : Sampler} {p : SamplerPhase}

/-- Once the move is launched, the sample goes on or ends. -/
theorem Next.not_early (h : s.Next p) : p.isEarly = false := by
  cases h with
  | look hp => cases p <;> first | rfl | cases hp
  | takeMove _ | takeCapture _ => rfl
  | @conclude m k _ _ => cases Sampler.conclude m k s.userAborted <;> rfl

/-- A sample that ends in its rounds has both ends, and the outcome that they make. -/
theorem Next.ends {o : SampleOutcome} (h : s.Next (.finished o)) :
    ∃ m k, s.moveEnd = some m ∧ s.captureEnd = some k ∧
      Sampler.conclude m k s.userAborted = .ok o := by
  generalize hp : SamplerPhase.finished o = p at h
  cases h with
  | look hl =>
    rw [← hp] at hl
    cases hl
  | takeMove _ | takeCapture _ => cases hp
  | @conclude m k hm hk =>
    refine ⟨m, k, hm, hk, ?_⟩
    cases hc : Sampler.conclude m k s.userAborted <;> rw [hc] at hp <;> cases hp
    rfl

/-- After an abort a sample ends well exactly if its move and its capture did. -/
theorem conclude_eq_ok_iff {m : MoveOutcome} {k : CaptureOutcome} :
    Sampler.conclude m k true = .ok .ok ↔ m = .ok ∧ k = .ok := by
  cases m <;> cases k <;> decide

end Sampler

namespace Crew

variable {g : MoveStage} {c c' : Crew} {a : Action}

/-- The stage of the sampler's move: once it is collected, it stays settled. -/
def standing (g : MoveStage) (c : Crew) : MoveStage :=
  match c.sampler.moveEnd with
  | some o => .settled o
  | none => g

/-- A sampler that reads how its move ended learns it, and nothing else tells it. -/
theorem moveEnd_of_act (h : Sound g c) (ha : c.act? a = some c') :
    (c'.sampler.moveEnd = c.sampler.moveEnd ∧ ∀ o, c.event? a ≠ some (.collected o)) ∨
    (c.sampler.moveEnd = none ∧ ∃ o, c'.sampler.moveEnd = some o ∧ g = .settled o) := by
  by_cases hc : ∃ o, c.event? a = some (.collected o)
  · obtain ⟨o, ho⟩ := hc
    obtain ⟨rfl, ⟨k, hp⟩, rfl⟩ := collected_of_event? ho ha
    have hk := h.move
    have hf := h.drive.calls .readingOutcome (by simp [driveCrowd, Sampler.moveCall, hp])
    simp only [Sampler.KnowsMove, hp] at hk
    simp only [act?, Sampler.step, hp] at ha
    cases ha
    exact .inr ⟨hk.1, _, rfl, hf⟩
  · refine .inl ⟨?_, fun o ho => hc ⟨o, ho⟩⟩
    by_cases hs : a = .sampler
    · subst hs
      obtain ⟨r, s, n, hs, rfl⟩ := step_of_act ha
      cases Sampler.turn_of_step hs with
      | readMove hp =>
        refine absurd ⟨c.rig.drive.axis.outcome, ?_⟩ hc
        simp only [event?, driveCrowd, Sampler.moveCall, hp]
        rfl
      | _ => rfl
    · rw [(h.frame ha hs).1]

theorem allows_of_event? (h : Sound g c) {e : MoveEvent} (he : c.event? a = some e) :
    g.Allows e := by
  cases a with
  | drive a => exact h.drive.allows he
  | recorder a | send m => cases he
  | sampler =>
    simp only [event?] at he
    split at he <;> exact h.drive.allows he

/-- **Whatever happens, the sampler's move goes on as its stage allows.** -/
theorem standing_act (h : Sound g c) (ha : c.act? a = some c') :
    standing (g.after (c.event? a)) c' = standing g c ∨
    ∃ e, (standing g c).Allows e ∧ (∀ o, e ≠ .collected o) ∧
      standing (g.after (c.event? a)) c' = (standing g c).next e := by
  rcases moveEnd_of_act h ha with ⟨hm, hc⟩ | ⟨hm, o, hm', rfl⟩
  · unfold standing
    rw [hm]
    cases hq : c.sampler.moveEnd with
    | some o => exact .inl rfl
    | none =>
      cases he : c.event? a with
      | none => exact .inl rfl
      | some e =>
        refine .inr ⟨e, allows_of_event? h he, fun o h0 => ?_, rfl⟩
        rw [h0] at he
        exact hc o he
  · left
    unfold standing
    rw [hm, hm']

/-- A move that is settled stays as it is until the sample is over. -/
theorem standing_of_settled (h : Sound g c) (ha : c.act? a = some c') {o : MoveOutcome}
    (hg : standing g c = .settled o) : standing (g.after (c.event? a)) c' = .settled o := by
  rcases standing_act h ha with hs | ⟨e, he, hc, hs⟩
  · rw [hs, hg]
  · rw [hg] at he hs
    rw [hs, MoveStage.next_settled he hc]

/-- A move that is bound to fail fails. -/
theorem standing_of_doomed (h : Sound g c) (ha : c.act? a = some c')
    (hg : (standing g c).Doomed) : (standing (g.after (c.event? a)) c').Doomed := by
  rcases standing_act h ha with hs | ⟨e, he, hc, hs⟩
  · rwa [hs]
  · rw [hs]
    exact hg.next he hc

/-- A sampler that asks its move to stop knows its fate. -/
theorem moveFate_eq_some_iff (h : Sound g c) {moved captured : Bool}
    (hp : c.sampler.phase = .abortingMove moved captured) {o : MoveOutcome} :
    c.moveFate = some o ↔ standing g c = .settled o := by
  have hk := h.move
  simp only [Sampler.KnowsMove, hp] at hk
  have hd : Drive.Crowd.Sound g ⟨c.rig.drive, []⟩ := by
    simpa [driveCrowd, Sampler.moveCall, hp] using h.drive
  unfold moveFate standing
  cases hm : c.sampler.moveEnd with
  | some m => simp
  | none =>
    show c.rig.drive.fate? = some o ↔ g = .settled o
    exact hd.fate?_eq_some_iff (hk.1 hm)

/-- **A move that is asked to stop before it has ended well is doomed.** -/
theorem doomed_of_abort (h : Sound g c) (ha : c.act? .sampler = some c') {moved captured : Bool}
    (hp : c.sampler.phase = .abortingMove moved captured) (hf : c.moveFate ≠ some .ok) :
    (standing (g.after (c.event? .sampler)) c').Doomed := by
  rw [ne_eq, moveFate_eq_some_iff h hp] at hf
  have hk := h.move
  simp only [Sampler.KnowsMove, hp] at hk
  by_cases hd : (standing g c).Doomed
  · exact standing_of_doomed h ha hd
  · cases hm : c.sampler.moveEnd with
    | some m =>
      simp only [standing, hm] at hf hd
      exact absurd (fun h0 => hf (by rw [h0])) hd
    | none =>
      simp only [standing, hm] at hf hd
      cases g with
      | idle => exact absurd rfl (hk.1 hm)
      | settled o => exact absurd (fun h0 => hf (by rw [h0])) hd
      | flying t l k =>
        -- the power is on, or the move would know that it was lost
        have hon : ¬ c.rig.drive.axis.isOff = true := fun h0 => hd (.inl (h.drive.agrees.2.2.2 h0))
        have hask : c.rig.drive.axis.abort.2 = true := by rw [Axis.abort, if_neg hon]
        have hev : c.event? .sampler = some .abortAsked := by
          simp only [event?, hp, Drive.Crowd.event?, driveCrowd, Drive.abort, hask, if_true]
        simp only [act?, Sampler.step, hp] at ha
        cases ha
        simp only [standing, Sampler.goto, hm, hev, MoveStage.after]
        exact .inr rfl

/-! ## The fate of a capture -/

theorem captureFate_eq_some_iff {k : CaptureOutcome} :
    c.captureFate = some k ↔ c.sampler.captureEnd = some k ∨
      (c.sampler.captureEnd = none ∧ c.rig.recorder.timer.armed = false ∧
        (if c.rig.recorder.aborted then CaptureOutcome.aborted else .ok) = k) := by
  unfold captureFate Recorder.fate?
  cases c.sampler.captureEnd <;> cases c.rig.recorder.timer.armed <;> simp

/-- A capture that is not armed keeps its fate if nobody arms one. -/
theorem captureFate_of_kept {k : CaptureOutcome} (hf : c.captureFate = some k)
    (hs : c'.sampler.captureEnd = c.sampler.captureEnd)
    (hr : c.rig.recorder.timer.armed = false →
      c'.rig.recorder.timer.armed = false ∧ c'.rig.recorder.aborted = c.rig.recorder.aborted) :
    c'.captureFate = some k := by
  rw [captureFate_eq_some_iff] at hf ⊢
  rw [hs]
  rcases hf with hc | ⟨hc, ha, hk⟩
  · exact .inl hc
  · exact .inr ⟨hc, (hr ha).1, by rw [(hr ha).2]; exact hk⟩

/-- How a capture ends stays as it is until the sample is over. -/
theorem captureFate_act (h : Sound g c) (ha : c.act? a = some c')
    (hp : c.sampler.phase.isEarly = false) {k : CaptureOutcome} (hf : c.captureFate = some k) :
    c'.captureFate = some k := by
  have hk := h.capture
  by_cases hs : a = .sampler
  · subst hs
    obtain ⟨r, s, n, hs, rfl⟩ := step_of_act ha
    cases Sampler.turn_of_step hs with
    | leave hq | seek hq | takeRecorder hq _ | arm hq | takeDrive hq _ | launch hq
    | announce hq _ =>
      rw [hq] at hp
      cases hp
    | look hq _ | hear hq | abortMove hq | takeMove hq _ | readMove hq | freeDrive hq _
    | tell hq _ => exact captureFate_of_kept hf rfl fun h0 => ⟨h0, rfl⟩
    | cut hq _ =>
      refine captureFate_of_kept hf rfl fun h0 => ?_
      simp only [Recorder.cut, h0, Bool.false_eq_true, if_false, and_self]
    | takeCapture hq ht =>
      refine captureFate_of_kept hf rfl fun h0 => ?_
      rw [Recorder.eq_of_takeDone? ht]
      exact ⟨h0, rfl⟩
    | readChannels hq =>
      refine captureFate_of_kept hf rfl fun h0 => ?_
      obtain ⟨f, hf⟩ := Recorder.fst_collect c.rig.recorder
      rw [hf]
      exact ⟨h0, rfl⟩
    | @freeRecorder l k' b p hq hl _ =>
      simp only [Sampler.KnowsCapture, hq] at hk
      obtain ⟨hc, hab⟩ := hk
      obtain hf | ⟨-, -, rfl⟩ := captureFate_eq_some_iff.mp hf
      · rw [hc] at hf
        cases hf
      · refine captureFate_eq_some_iff.mpr (.inl ?_)
        rw [hl]
        cases l <;> simp_all
  · obtain ⟨h1, -, -, h4⟩ := h.frame ha hs
    exact captureFate_of_kept hf (by rw [h1]) h4

/-- **A capture that is asked to stop before it has ended is aborted.** -/
theorem captureFate_of_abort (ha : c.act? .sampler = some c') {moved captured : Bool}
    (hp : c.sampler.phase = .abortingCapture moved captured) (hf : c.captureFate ≠ some .ok) :
    ∃ k, k ≠ .ok ∧ c'.captureFate = some k := by
  obtain ⟨r, s, n, hs, rfl⟩ := step_of_act ha
  cases Sampler.turn_of_step hs with
  | cut hq _ =>
    cases hc : c.sampler.captureEnd with
    | some k =>
      refine ⟨k, fun h0 => hf ?_, captureFate_eq_some_iff.mpr (.inl hc)⟩
      rw [← h0]
      exact captureFate_eq_some_iff.mpr (.inl hc)
    | none =>
      refine ⟨.aborted, by simp, captureFate_eq_some_iff.mpr (.inr ⟨hc, ?_, ?_⟩)⟩
      · exact c.rig.recorder.armed_cut c.now
      · have hab : (c.rig.recorder.cut c.now).1.aborted = true := by
          unfold Recorder.cut
          split
          · rfl
          · -- nothing is armed, so only an aborted capture has not ended well
            rename_i harm
            by_contra h0
            refine hf (captureFate_eq_some_iff.mpr (.inr ⟨hc, eq_false_of_ne_true harm, ?_⟩))
            rw [if_neg h0]
        exact if_pos hab
  | look hq _ | tell hq _ =>
    rw [hp] at hq
    cases hq
  | _ hq => cases hp.symm.trans hq

/-! ## What a sampler that has taken an abort did about it -/

/-- What every abort along a trace came to. -/
structure Told (g : MoveStage) (t : Trace) (c : Crew) : Prop where
  launched : ∀ e ∈ t, AsksMove e ∨ AsksCapture e → c.sampler.phase.isEarly = false
  moveSpared : ∀ e ∈ t, AsksMove e → e.1.moveFate = some .ok → standing g c = .settled .ok
  moveDoomed : ∀ e ∈ t, AsksMove e → e.1.moveFate ≠ some .ok → (standing g c).Doomed
  captureSpared : ∀ e ∈ t, AsksCapture e → e.1.captureFate = some .ok → c.captureFate = some .ok
  captureLost : ∀ e ∈ t, AsksCapture e → e.1.captureFate ≠ some .ok →
    ∃ k, k ≠ .ok ∧ c.captureFate = some k

/-- What a sampler did since it took an abort, and what it came to. -/
structure Heard (t : Trace) (s : Sampler) : Prop where
  early : s.phase.isEarly = true → s.userAborted = false
  asked : s.userAborted = true →
    (∃ moved captured, s.phase = .abortingMove moved captured) ∨
    ((∃ e ∈ t, AsksMove e) ∧
      ((∃ moved captured, s.phase = .abortingCapture moved captured) ∨ ∃ e ∈ t, AsksCapture e))
  ended : ∀ o, s.phase = .finished o → s.userAborted = true →
    ∃ m k, s.moveEnd = some m ∧ s.captureEnd = some k ∧ Sampler.conclude m k true = .ok o

/-- A sampler that has launched its move does not launch another one. -/
theorem not_early_of_act (h : Sound g c) (ha : c.act? a = some c')
    (hp : c.sampler.phase.isEarly = false) : c'.sampler.phase.isEarly = false := by
  by_cases hs : a = .sampler
  · subst hs
    obtain ⟨r, s, n, hs, rfl⟩ := step_of_act ha
    cases Sampler.turn_of_step hs with
    | leave hq | seek hq | takeRecorder hq _ | arm hq | takeDrive hq _ | launch hq
    | announce hq _ =>
      rw [hq] at hp
      cases hp
    | look _ hn | tell _ hn | freeRecorder _ _ hn => exact hn.not_early
    | @cut p _ hn =>
      split at hn
      · show p.isEarly = false
        cases p <;> first | rfl | cases hn
      · exact hn.not_early
    | freeDrive _ hn =>
      split at hn
      · rw [hn]
        rfl
      · exact hn.not_early
    | hear _ | abortMove _ | takeMove _ _ | readMove _ | takeCapture _ _ | readChannels _ => rfl
  · rw [(h.frame ha hs).1]
    exact hp

theorem Told.act {t : Trace} (ht : Told g t c) (h : Sound g c) (ha : c.act? a = some c') :
    Told (g.after (c.event? a)) ((c, a) :: t) c' := by
  have hearly : ∀ e ∈ (c, a) :: t, AsksMove e ∨ AsksCapture e →
      c.sampler.phase.isEarly = false := by
    intro e he hasks
    rcases List.mem_cons.mp he with rfl | he
    · rcases hasks with ⟨-, m, k, hp⟩ | ⟨-, m, k, hp⟩ <;> rw [hp] <;> rfl
    · exact ht.launched e he hasks
  refine ⟨fun e he hasks => not_early_of_act h ha (hearly e he hasks), fun e he hasks hf => ?_,
    fun e he hasks hf => ?_, fun e he hasks hf => ?_, fun e he hasks hf => ?_⟩
  · rcases List.mem_cons.mp he with rfl | he
    · obtain ⟨-, m, k, hp⟩ := hasks
      exact standing_of_settled h ha ((moveFate_eq_some_iff h hp).mp hf)
    · exact standing_of_settled h ha (ht.moveSpared e he hasks hf)
  · rcases List.mem_cons.mp he with rfl | he
    · obtain ⟨rfl, m, k, hp⟩ := hasks
      exact doomed_of_abort h ha hp hf
    · exact standing_of_doomed h ha (ht.moveDoomed e he hasks hf)
  · have hp := hearly e he (.inr hasks)
    rcases List.mem_cons.mp he with rfl | he
    · exact captureFate_act h ha hp hf
    · exact captureFate_act h ha hp (ht.captureSpared e he hasks hf)
  · rcases List.mem_cons.mp he with rfl | he
    · obtain ⟨rfl, m, k, hp⟩ := hasks
      exact captureFate_of_abort ha hp hf
    · obtain ⟨k, hk, hf⟩ := ht.captureLost e he hasks hf
      exact ⟨k, hk, captureFate_act h ha (ht.launched e he (.inr hasks)) hf⟩

/-- A sampler that has taken no abort has nothing to tell. -/
theorem heard_of_not_aborted {t : Trace} {s : Sampler} (h : s.userAborted = false) : Heard t s :=
  ⟨fun _ => h, fun h0 => absurd h0 (ne_true_of_eq_false h),
    fun _ _ h0 => absurd h0 (ne_true_of_eq_false h)⟩

/-- A sampler that is under way, and what it did about its abort. -/
theorem heard_of_under_way {t : Trace} {s : Sampler} (hp : s.phase.isEarly = false)
    (hf : ∀ o, s.phase ≠ .finished o)
    (hu : s.userAborted = true →
      (∃ moved captured, s.phase = .abortingMove moved captured) ∨
      ((∃ e ∈ t, AsksMove e) ∧
        ((∃ moved captured, s.phase = .abortingCapture moved captured) ∨
          ∃ e ∈ t, AsksCapture e))) : Heard t s :=
  ⟨fun h0 => absurd h0 (ne_true_of_eq_false hp), hu, fun o h0 => absurd h0 (hf o)⟩

/-- A sampler that is under way after it has passed its abort on. -/
theorem heard_of_both {t : Trace} {s : Sampler} (hp : s.phase.isEarly = false)
    (hf : ∀ o, s.phase ≠ .finished o)
    (hu : s.userAborted = true → (∃ e ∈ t, AsksMove e) ∧ ∃ e ∈ t, AsksCapture e) : Heard t s :=
  heard_of_under_way hp hf fun h0 => .inr ⟨(hu h0).1, .inr (hu h0).2⟩

/-- A sampler that goes on, or ends, after it has passed its abort on. -/
theorem heard_of_next {t : Trace} {s : Sampler} {p : SamplerPhase} (hn : s.Next p)
    (hu : s.userAborted = true → (∃ e ∈ t, AsksMove e) ∧ ∃ e ∈ t, AsksCapture e) :
    Heard t (s.goto p) := by
  refine ⟨fun hp => absurd hp (ne_true_of_eq_false hn.not_early),
    fun h0 => .inr ⟨(hu h0).1, .inr (hu h0).2⟩, fun o hp h0 => ?_⟩
  rw [show p = .finished o from hp] at hn
  obtain ⟨m, k, hm, hk, hc⟩ := hn.ends
  rw [show s.userAborted = true from h0] at hc
  exact ⟨m, k, hm, hk, hc⟩

theorem Heard.act {t : Trace} (ht : Heard t c.sampler) (h : Sound g c) (ha : c.act? a = some c') :
    Heard ((c, a) :: t) c'.sampler := by
  have hmono : ∀ {P : Crew × Action → Prop}, (∃ e ∈ t, P e) → ∃ e ∈ (c, a) :: t, P e := by
    rintro P ⟨e, he, hp⟩
    exact ⟨e, List.mem_cons_of_mem _ he, hp⟩
  by_cases hs : a = .sampler
  · subst hs
    obtain ⟨r, s, n, hs, rfl⟩ := step_of_act ha
    -- whoever has passed the abort on before, or just now to its capture
    have hboth : (∀ m k, c.sampler.phase ≠ .abortingMove m k) → c.sampler.userAborted = true →
        (∃ e ∈ (c, .sampler) :: t, AsksMove e) ∧ ∃ e ∈ (c, .sampler) :: t, AsksCapture e := by
      intro hne hu
      rcases ht.asked hu with ⟨m, k, hp⟩ | ⟨hm, ⟨m, k, hp⟩ | hk⟩
      · exact absurd hp (hne m k)
      · exact ⟨hmono hm, _, List.mem_cons_self, rfl, m, k, hp⟩
      · exact ⟨hmono hm, hmono hk⟩
    cases Sampler.turn_of_step hs with
    | leave hp | seek hp | takeRecorder hp _ | arm hp | takeDrive hp _ | launch hp
    | announce hp _ =>
      exact heard_of_not_aborted (ht.early (by rw [hp]; rfl))
    | look hp hn | tell hp hn =>
      exact heard_of_next hn (hboth fun m k h0 => by rw [h0] at hp; cases hp)
    | freeRecorder hp _ hn =>
      exact heard_of_next hn (hboth fun m k h0 => by rw [h0] at hp; cases hp)
    | hear hp => exact heard_of_under_way rfl (by simp) fun _ => .inl ⟨_, _, rfl⟩
    | abortMove hp =>
      exact heard_of_under_way rfl (by simp [Sampler.goto]) fun _ =>
        .inr ⟨⟨_, List.mem_cons_self, rfl, _, _, hp⟩, .inl ⟨_, _, rfl⟩⟩
    | @cut p hp hn =>
      have hu := hboth fun m k h0 => by rw [h0] at hp; cases hp
      split at hn
      · refine heard_of_both (s := c.sampler.goto p) ?_ (fun o h0 => ?_) hu
        · show p.isEarly = false
          cases p <;> first | rfl | cases hn
        · rw [show p = .finished o from h0] at hn
          cases hn
      · exact heard_of_next hn hu
    | freeDrive hp hn =>
      have hu := hboth fun m k h0 => by rw [h0] at hp; cases hp
      split at hn
      · rw [hn]
        exact heard_of_both rfl (by simp [Sampler.goto]) hu
      · exact heard_of_next hn hu
    | takeMove hp _ | readMove hp | takeCapture hp _ | readChannels hp =>
      exact heard_of_both rfl (by simp [Sampler.goto])
        (hboth fun m k h0 => by rw [h0] at hp; cases hp)
  · rw [(h.frame ha hs).1]
    refine ⟨ht.early, fun hu => ?_, ht.ended⟩
    rcases ht.asked hu with hp | ⟨hm, hp | hk⟩
    · exact .inl hp
    · exact .inr ⟨hmono hm, .inl hp⟩
    · exact .inr ⟨hmono hm, .inr (hmono hk)⟩

theorem told_of_reaches {p : StepPeriods} {rate : Nat} {t : Trace} (h : Reaches p rate t c) :
    ∃ g, Sound g c ∧ Told g t c ∧ Heard t c.sampler := by
  induction h with
  | start hd hr ho hs =>
    have hu := congrArg Sampler.userAborted (sampler_of_start hs)
    refine ⟨_, sound_of_start hd hr ho hs, ?_, heard_of_not_aborted hu⟩
    constructor <;> intro e he <;> cases he
  | act h ha ih =>
    obtain ⟨g, hg, ht, hh⟩ := ih
    exact ⟨_, hg.act ha, ht.act hg ha, hh.act hg ha⟩

/-- **An abort is lost exactly if it comes too late.** However the stepper, the capture timer, the
power and the messages come in between: a sample whose sampler has taken an abort ends well exactly
if, whenever it asked its move to stop, that had ended well already, and whenever it asked its
capture to stop, that had ended well already. -/
theorem ok_iff_asked_too_late {p : StepPeriods} {rate : Nat} {t : Trace} {o : SampleOutcome}
    (h : Reaches p rate t c) (hu : c.sampler.userAborted = true)
    (ho : c.sampler.result? = some (.ok o)) :
    o = .ok ↔
      (∀ e ∈ t, AsksMove e → e.1.moveFate = some .ok) ∧
      (∀ e ∈ t, AsksCapture e → e.1.captureFate = some .ok) := by
  obtain ⟨g, hg, ht, hh⟩ := told_of_reaches h
  have hp : c.sampler.phase = .finished o := by
    unfold Sampler.result? at ho
    split at ho <;> cases ho
    assumption
  obtain ⟨m, k, hm, hk, hc⟩ := hh.ended o hp hu
  have hstanding : standing g c = .settled m := by rw [standing, hm]
  have hfate : c.captureFate = some k := captureFate_eq_some_iff.mpr (.inl hk)
  constructor
  · rintro rfl
    obtain ⟨rfl, rfl⟩ := Sampler.conclude_eq_ok_iff.mp hc
    refine ⟨fun e he hasks => ?_, fun e he hasks => ?_⟩
    · by_contra hf
      have hd := ht.moveDoomed e he hasks hf
      rw [hstanding] at hd
      exact hd rfl
    · by_contra hf
      obtain ⟨k, hne, hf⟩ := ht.captureLost e he hasks hf
      rw [hfate] at hf
      cases hf
      exact hne rfl
  · rintro ⟨hmove, hcapture⟩
    rcases hh.asked hu with ⟨m, k, hp'⟩ | ⟨⟨e, he, hasks⟩, ⟨m, k, hp'⟩ | ⟨e', he', hasks'⟩⟩
    · rw [hp] at hp'
      cases hp'
    · rw [hp] at hp'
      cases hp'
    · have h1 := ht.moveSpared e he hasks (hmove e he hasks)
      have h2 := ht.captureSpared e' he' hasks' (hcapture e' he' hasks')
      rw [hstanding] at h1
      rw [hfate] at h2
      cases h1
      cases h2
      have := Sampler.conclude_eq_ok_iff.mpr ⟨rfl, rfl⟩
      rw [this] at hc
      cases hc
      rfl

/-- The move and the window of a step up both end before the sampler finds the abort. -/
def lateAbort : List Action :=
  List.flatten [
    [.drive .powerOn], List.replicate 6 .sampler,
    List.replicate 4 (.drive (.stepper .done)), [.drive (.stepper (.ticked true))],
    List.replicate 6 (.drive (.stepper .done)),
    [.recorder (.enter .handling), .recorder (.proceed 0), .recorder (.wait 20),
      .recorder .expire, .recorder (.enter .handling), .recorder (.proceed 0),
      .recorder (.proceed 0)],
    [.drive (.stepper (.cycles 7)), .drive (.stepper (.ticked true))],
    List.replicate 5 (.drive (.stepper .done)),
    [.send .abort], List.replicate 12 .sampler]

theorem ok_iff_asked_too_late_lateAbort :
    ∃ d s t c, Drive.ofPeriods .standard 1 = .ok d ∧ Sampler.start stepUp [] = .ok s ∧
      play? act? [] (fresh d s) lateAbort = some (t, c) ∧ c.sampler.userAborted = true ∧
      c.sampler.result? = some (.ok .ok) ∧
      (∀ e ∈ t, AsksMove e → e.1.moveFate = some .ok) ∧
      (∀ e ∈ t, AsksCapture e → e.1.captureFate = some .ok) := by
  refine ⟨_, _, _, _, rfl, rfl, rfl, rfl, rfl, ?_⟩
  have h := of_play? (P := Reaches .standard 1) (fun _ _ _ _ => .act) lateAbort
    (reaches_fresh stepUp [] rfl rfl) rfl
  exact (ok_iff_asked_too_late h rfl rfl).mp rfl

/-- An abort can come too late: its message is taken, and the sample says that all went well. -/
theorem exists_lost_abort :
    ∃ t c, Reaches .standard 1 t c ∧ c.sampler.userAborted = true ∧
      c.sampler.result? = some (.ok .ok) := by
  have h := of_play? (P := Reaches .standard 1) (fun _ _ _ _ => .act) lateAbort
    (reaches_fresh stepUp [] rfl rfl) rfl
  exact ⟨_, _, h, rfl, rfl⟩

end Crew

end SwitchBench
