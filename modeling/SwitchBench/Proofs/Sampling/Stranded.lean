import Mathlib.Logic.Relation
import SwitchBench.Proofs.Capture.Window
import SwitchBench.Proofs.Runs
import SwitchBench.Proofs.Sampling.Knowledge

/-!
# Captures that nothing triggers

A sample arms its capture before it launches its move, and only a step triggers the capture. If a
move ends without a step, somebody has to end the capture. The sampler does so when it finds that
the power was lost, and at no other end: a move that was aborted before its first step, or that
began where it was to go, leaves the capture armed, and the sampler waits for it in vain.

Whether that has happened is a matter of the trace: the capture is `Untouched` as long as there
was neither a step nor an abort of the capture since it was armed.

Results: `stranded_iff_untouched` (a sampler is stranded exactly if it waits with its move
collected and its capture untouched; then the power was not lost, and nothing but an abort ever
helps it).
-/

namespace SwitchBench

open Drive (MoveStage)
open Timer (Registers Flags)

namespace SamplerPhase

/-- Has the sampler armed its capture, and is not done? -/
def hasArmed : SamplerPhase → Bool
  | locating | takingRecorder | arming | finished _ | refused _ => false
  | _ => true

/-- Does the sampler wait, and has seen no end of its capture? -/
def isWaiting : SamplerPhase → Bool
  | asleep | lookingForMessage | lookingAtMove _ | lookingAtCapture _ _ | reading _ false => true
  | _ => false

theorem isLooking_of_isWaiting {p : SamplerPhase} (h : p.isWaiting = true) :
    p.isLooking = true := by
  cases p <;> first | rfl | cases h

theorem hasArmed_of_isWaiting {p : SamplerPhase} (h : p.isWaiting = true) : p.hasArmed = true := by
  cases p <;> first | rfl | cases h

end SamplerPhase

/-- A sampler that waits has no result. -/
theorem Sampler.result?_of_isWaiting {s : Sampler} (h : s.phase.isWaiting = true) :
    s.result? = none := by
  unfold result?
  cases hp : s.phase <;> first | rfl | (rw [hp] at h; cases h)

namespace Recorder

/-- A capture is armed, and nothing has happened to it yet. -/
structure Awaits (r : Recorder) : Prop where
  armed : r.timer.armed = true
  since : r.timer.since = none
  status : r.timer.status = .none

/-- If a capture is armed, its window has been triggered. -/
def Triggered (r : Recorder) : Prop := r.timer.armed = true → r.timer.since ≠ none

end Recorder

namespace Crew

/-- Does the action trigger the capture timer: does the step output rise, with the power on? -/
def pulses (c : Crew) (a : Action) : Bool :=
  (c.act? a).any fun c' => Drive.pulses c.rig.drive c'.rig.drive

/-- Does the action abort the capture, if there is one? -/
def cuts (c : Crew) : Action → Bool
  | .recorder (.proceed i) => c.others[i]? = some .cutting
  | .sampler => c.sampler.phase.isCutting
  | _ => false

/-- Was there neither a trigger nor an abort since the sampler armed its capture? -/
def Untouched : Trace → Prop
  | [] => False
  | (c, a) :: t =>
    (a = .sampler ∧ c.sampler.phase = .arming) ∨
    (Untouched t ∧ c.pulses a = false ∧ c.cuts a = false)

/-- The end of the move has been collected, nothing triggers the capture any more, and nothing is
there or to come that the sampler waits for, but an abort that nobody has asked for yet. -/
structure Stranded (c : Crew) : Prop where
  waiting : c.sampler.phase.isWaiting = true
  collected : c.sampler.moveEnd ≠ none
  uncollected : c.sampler.captureEnd = none
  armed : c.rig.recorder.timer.armed = true
  untriggered : c.rig.recorder.timer.since = none
  moveEnd : c.rig.drive.done.ready = false
  captureEnd : c.rig.recorder.done.ready = false
  unasked : .abort ∉ c.rig.inbox.toList

/-- One action that aborts no capture, and is no message to do so. -/
def Goes (c c' : Crew) : Prop :=
  ∃ a, c.act? a = some c' ∧ a ≠ .send .abort ∧ c.cuts a = false

end Crew

/-! ## What happens to an armed capture -/

namespace Recorder

variable {r : Recorder}

theorem awaits_arm (r : Recorder) (s : CaptureSetup) (d : Directions) (now : Nat) :
    (r.arm s d now).Awaits := by
  unfold arm
  rw [armTimer_eq]
  exact ⟨rfl, rfl, rfl⟩

/-- A trigger starts the window of an armed capture. -/
theorem triggered_trigger (r : Recorder) (now : Nat) :
    Triggered { r with timer := (r.timer.trigger now).1 } := by
  unfold Triggered Registers.trigger Registers.counting
  cases ha : r.timer.armed <;> cases hs : r.timer.since <;> simp [ha, hs]

/-- An abort leaves no capture to be triggered. -/
theorem triggered_cut (r : Recorder) (now : Nat) : (r.cut now).1.Triggered :=
  fun h0 => absurd h0 (ne_true_of_eq_false (r.armed_cut now))

/-- Handling an event keeps a window open, or ends it. -/
theorem Triggered.service (h : r.Triggered) (now : Nat) : (r.service now).1.Triggered := by
  have hs := served_service r now
  generalize r.service now = x at hs ⊢
  cases hs with
  | nothing _ | noteTrigger _ _ => exact h
  | endWindow _ _ _ => exact fun h0 => absurd h0 Bool.false_ne_true
  | noteCaptures _ _ _ _ =>
    simp only [Triggered, Registers.setInterrupts]
    split
    · exact fun _ => by simp [cutWindow, Registers.startCounter]
    · exact h

/-- With nothing noted yet, there is nothing to handle. -/
theorem Awaits.service (h : r.Awaits) (now : Nat) : r.service now = (r, false) := by
  have hnone : r.pendingFlags = .none := by rw [pendingFlags, h.status]; rfl
  exact service_of_quiet hnone now

/-- Nobody but a trigger opens the window of a capture, so it stays open. -/
theorem Triggered.act {a : Recorder.Action} {c x : Recorder.Crowd} (h : c.recorder.Triggered)
    (ha : a.isBystander = true) (hc : ∀ k ∈ c.calls, k.isBystander = true)
    (hx : c.act? a = some x) : x.recorder.Triggered := by
  cases Crowd.bystanderTurn_of_act ha hc hx with
  | edge =>
    unfold Triggered Registers.edge
    split
    · split <;> exact h
    · exact h
  | wait | enter | announce => exact h
  | expire => exact fun _ => Option.some_ne_none _
  | cut => exact triggered_cut _ _
  | service => exact h.service _

/-- Nobody but a trigger or an abort does anything to a capture that was just armed. -/
theorem Awaits.act {a : Recorder.Action} {c x : Recorder.Crowd} (h : c.recorder.Awaits)
    (ha : a.isBystander = true) (hc : ∀ k ∈ c.calls, k.isBystander = true)
    (hcut : ∀ i, a = .proceed i → c.calls[i]? ≠ some .cutting) (hx : c.act? a = some x) :
    x.recorder.Awaits := by
  have hcount : c.recorder.timer.counting = false := by rw [Registers.counting, h.since]; rfl
  cases Crowd.bystanderTurn_of_act ha hc hx with
  | edge =>
    simp only [Registers.edge, hcount, Bool.false_and, Bool.false_eq_true, if_false]
    exact h
  | wait | enter => exact h
  | expire hd =>
    rw [Registers.expiry, h.since] at hd
    cases hd
  | cut hi => exact absurd hi (hcut _ rfl)
  | service =>
    rw [h.service]
    exact h
  | announce => exact ⟨h.armed, h.since, h.status⟩

end Recorder

/-- A stepper that waits for a move does nothing to the step output. -/
theorem Drive.Turn.step_of_waiting {d d' : Drive} {e : Option Drive.MoveEvent}
    (h : Drive.Turn d d' e) (hw : d.stepper.phase = .waiting) : d'.step = d.step := by
  cases h with
  | same | wake _ _ => rfl
  | fly hp _ _ _ =>
    rw [hw] at hp
    cases hp
  | settle hp _ | fail hp | rest hp | note hp | tell hp => rfl

/-- A sampler does nothing to the step output. -/
theorem Sampler.Turn.step {now : Nat} {r r' : Rig} {s s' : Sampler}
    (h : Sampler.Turn now r s r' s') : r'.drive.step = r.drive.step := by
  cases h with
  | takeDrive _ hd =>
    simp only [Drive.takePermit?, Option.map_eq_some_iff] at hd
    obtain ⟨x, -, rfl⟩ := hd
    rfl
  | takeMove _ hd =>
    simp only [Drive.takeDone?, Option.map_eq_some_iff] at hd
    obtain ⟨x, -, rfl⟩ := hd
    rfl
  | @announce l _ _ _ => cases l <;> rfl
  | _ => rfl

namespace Crew

variable {g : MoveStage} {c c' : Crew} {a : Action} {t : Trace}

/-- What the trace tells of the capture. -/
structure Watched (t : Trace) (c : Crew) : Prop where
  awaits : Untouched t → c.rig.recorder.Awaits
  triggered : c.sampler.phase.hasArmed = true → ¬Untouched t → c.rig.recorder.Triggered

/-- An action that neither triggers nor aborts an armed capture leaves it as it is. -/
theorem awaits_of_act (h : Sound g c) (ha : c.act? a = some c')
    (hr : c.rig.recorder.Awaits) (hpulse : c.pulses a = false) (hcut : c.cuts a = false) :
    c'.rig.recorder.Awaits := by
  have hpulse' : Drive.pulses c.rig.drive c'.rig.drive = false := by
    simpa [pulses, ha] using hpulse
  cases turn_of_act ha with
  | @drive a x hb hx =>
    simp only [follow] at hpulse' ⊢
    simp only [hpulse', Bool.false_eq_true, if_false]
    exact hr
  | @recorder a x hb hx =>
    refine Recorder.Awaits.act (c := ⟨c.rig.recorder, c.now, c.others⟩) hr hb h.bystanders ?_ hx
    rintro i rfl h0
    simp [cuts, h0] at hcut
  | send m =>
    exact hr
  | @sampler r s n hs =>
    cases Sampler.turn_of_step hs with
    | arm hp => exact Recorder.awaits_arm _ _ _ _
    | cut hp hn =>
      rw [cuts, hp] at hcut
      cases hcut
    | takeRecorder hp hc =>
      rw [Recorder.eq_of_takePermit? hc]
      exact ⟨hr.armed, hr.since, hr.status⟩
    | takeCapture hp hc =>
      rw [Recorder.eq_of_takeDone? hc]
      exact ⟨hr.armed, hr.since, hr.status⟩
    | readChannels hp =>
      obtain ⟨-, -, h0, -⟩ := h.recorder.only (i := 0) (k := .reading)
        (by simp [recorderCrowd, Sampler.captureCall, hp]) rfl
      cases hr.armed.symm.trans h0
    | tell hp hn | freeRecorder hp _ hn => exact ⟨hr.armed, hr.since, hr.status⟩
    | _ => exact hr

/-- An action of anybody keeps a triggered capture triggered, unless a new one is armed. -/
theorem triggered_of_act (h : Sound g c) (ha : c.act? a = some c')
    (hr : c.rig.recorder.Triggered) (hne : a = .sampler → c.sampler.phase ≠ .arming) :
    c'.rig.recorder.Triggered := by
  cases turn_of_act ha with
  | @drive a x hb hx =>
    simp only [follow]
    split
    · exact Recorder.triggered_trigger _ _
    · exact hr
  | @recorder a x hb hx =>
    exact Recorder.Triggered.act (c := ⟨c.rig.recorder, c.now, c.others⟩) hr hb h.bystanders hx
  | send m =>
    exact hr
  | @sampler r s n hs =>
    cases Sampler.turn_of_step hs with
    | arm hp => exact absurd hp (hne rfl)
    | cut hp hn => exact Recorder.triggered_cut _ _
    | takeRecorder hp hc =>
      rw [Recorder.eq_of_takePermit? hc]
      exact hr
    | takeCapture hp hc =>
      rw [Recorder.eq_of_takeDone? hc]
      exact hr
    | readChannels hp =>
      obtain ⟨f, hf⟩ := Recorder.fst_collect c.rig.recorder
      rw [hf]
      exact hr
    | _ => exact hr

/-- A step or an abort leaves no capture that waits for its trigger. -/
theorem triggered_of_touch (ha : c.act? a = some c') (ht : c.pulses a = true ∨ c.cuts a = true) :
    c'.rig.recorder.Triggered := by
  have hpulse : c.pulses a = true → Drive.pulses c.rig.drive c'.rig.drive = true := by
    intro h0
    simpa [pulses, ha] using h0
  cases turn_of_act ha with
  | @drive a x hb hx =>
    have hp : Drive.pulses c.rig.drive x.drive = true := hpulse (ht.resolve_right (by simp [cuts]))
    simp only [follow, hp, if_true]
    exact Recorder.triggered_trigger _ _
  | @recorder a x hb hx =>
    rcases ht with hp | hk
    · exact absurd (hpulse hp) (by simp [Drive.pulses])
    · cases a with
      | proceed i =>
        have hi : c.others[i]? = some .cutting := by simpa [cuts] using hk
        simp only [Recorder.Crowd.act?, hi, CaptureCall.step?, Option.bind_eq_bind,
          Option.bind_some, Option.pure_def, Option.some.injEq] at hx
        rw [← hx]
        exact Recorder.triggered_cut _ _
      | _ => cases hk
  | send m =>
    exact absurd (hpulse (ht.resolve_right (by simp [cuts]))) (by simp [Drive.pulses])
  | @sampler r s n hs =>
    have hturn := Sampler.turn_of_step hs
    rcases ht with hp | hk
    · have := hpulse hp
      simp [Drive.pulses, hturn.step] at this
    · cases hturn with
      | cut _ _ => exact Recorder.triggered_cut _ _
      | look hp _ | tell hp _ =>
        simp only [cuts] at hk
        cases hq : c.sampler.phase <;> simp [hq, SamplerPhase.isLooking, SamplerPhase.isTelling,
          SamplerPhase.isCutting] at hp hk
      | _ hp =>
        rw [cuts, hp] at hk
        cases hk

/-- A sampler that has armed its capture did so before this action, or with it. -/
theorem hasArmed_of_act (h : Sound g c) (ha : c.act? a = some c')
    (hp : c'.sampler.phase.hasArmed = true) :
    (a = .sampler ∧ c.sampler.phase = .arming) ∨ c.sampler.phase.hasArmed = true := by
  by_cases hs : a = .sampler
  · subst hs
    obtain ⟨r, s, n, hs, rfl⟩ := step_of_act ha
    cases Sampler.turn_of_step hs with
    | leave _ | seek _ | takeRecorder _ _ => cases hp
    | arm hq => exact .inl ⟨rfl, hq⟩
    | look hq _ | cut hq _ | tell hq _ =>
      right
      cases hp : c.sampler.phase <;> first | rfl | (rw [hp] at hq; cases hq)
    | _ hq =>
      right
      rw [hq]
      rfl
  · rw [(h.frame ha hs).1] at hp
    exact .inr hp

theorem Watched.act (hw : Watched t c) (h : Sound g c) (ha : c.act? a = some c') :
    Watched ((c, a) :: t) c' := by
  refine ⟨?_, fun hp hu => ?_⟩
  · rintro (⟨rfl, hp⟩ | ⟨hu, hpulse, hcut⟩)
    · simp only [act?, Sampler.step, hp] at ha
      cases ha
      exact Recorder.awaits_arm _ _ _ _
    · exact awaits_of_act h ha (hw.awaits hu) hpulse hcut
  · rcases hasArmed_of_act h ha hp with harm | hp'
    · exact absurd (.inl harm) hu
    by_cases hut : Untouched t
    · refine triggered_of_touch ha ?_
      by_contra h0
      rw [not_or, Bool.not_eq_true, Bool.not_eq_true] at h0
      exact hu (.inr ⟨hut, h0⟩)
    · refine triggered_of_act h ha (hw.triggered hp' hut) fun h1 h2 => ?_
      exact hu (.inl ⟨h1, h2⟩)

theorem watched_of_reaches {p : StepPeriods} {rate : Nat} (h : Reaches p rate t c) :
    ∃ g, Sound g c ∧ Watched t c := by
  induction h with
  | start hd hr ho hs =>
    have hp := congrArg Sampler.phase (sampler_of_start hs)
    refine ⟨_, sound_of_start hd hr ho hs, False.elim, fun h0 => ?_⟩
    rw [hp] at h0
    cases h0
  | act h ha ih =>
    obtain ⟨g, hg, hw⟩ := ih
    exact ⟨_, hg.act ha, hw.act hg ha⟩

/-! ## Stranded samplers -/

/-- With the move collected, the permit to move is available, and the stepper waits. -/
theorem Sound.parked (h : Sound g c) (hp : c.sampler.phase.isWaiting = true)
    (hm : c.sampler.moveEnd ≠ none) :
    c.rig.drive.stepper.phase = .waiting ∧ c.rig.drive.done.count = 0 := by
  have hlook := SamplerPhase.isLooking_of_isWaiting hp
  have hk := (Sampler.knowsMove_iff (by rw [hlook]; rfl)).mp h.move
  have ha := hk.2 hm
  have hpermit : c.rig.drive.available.count + c.sampler.moveCall.toList.countP MoveCall.holds
      + c.rig.drive.begin.count + c.rig.drive.inHand + c.rig.drive.done.count = 1 :=
    h.drive.permit
  unfold Drive.inHand at hpermit
  by_cases hw : c.rig.drive.stepper.phase = .waiting
  · rw [if_pos hw] at hpermit
    exact ⟨hw, by omega⟩
  · rw [if_neg hw] at hpermit
    omega

/-- A stepper with nothing to do does not step. -/
theorem Sound.not_pulses (h : Sound g c) (hp : c.sampler.phase.isWaiting = true)
    (hm : c.sampler.moveEnd ≠ none) (ha : c.act? a = some c') : c.pulses a = false := by
  obtain ⟨hw, -⟩ := h.parked hp hm
  have hstep : c'.rig.drive.step = c.rig.drive.step := by
    cases turn_of_act ha with
    | @drive a x hbys hx =>
      cases a with
      | stepper r =>
        cases hx
        exact (Drive.turn_resume (c := c.driveCrowd) h.drive.running r).step_of_waiting hw
      | powerOn | powerOff | abort | locate =>
        cases hx
        rfl
      | enter _ | proceed _ | giveUp _ => cases hbys
    | recorder _ _ | send _ => rfl
    | sampler hs => exact (Sampler.turn_of_step hs).step
  simp [pulses, ha, Drive.pulses, hstep]

/-- A sampler is stranded exactly if it waits with its move collected and its capture untouched. -/
theorem stranded_iff {p : StepPeriods} {rate : Nat} (h : Reaches p rate t c) :
    c.Stranded ↔ c.sampler.phase.isWaiting = true ∧ c.sampler.moveEnd ≠ none ∧
      .abort ∉ c.rig.inbox.toList ∧ Untouched t := by
  obtain ⟨g, hg, hw⟩ := watched_of_reaches h
  constructor
  · intro hs
    refine ⟨hs.waiting, hs.collected, hs.unasked, ?_⟩
    by_contra hu
    have harm := SamplerPhase.hasArmed_of_isWaiting hs.waiting
    exact hw.triggered harm hu hs.armed hs.untriggered
  · rintro ⟨hp, hm, hq, hu⟩
    have ha := hw.awaits hu
    obtain ⟨-, hd⟩ := hg.parked hp hm
    have hlook := SamplerPhase.isLooking_of_isWaiting hp
    have hk := (Sampler.knowsCapture_iff (by rw [hlook]; rfl)).mp hg.capture
    have hpermit : c.recorderCrowd.permits = 1 := hg.recorder.permit
    simp only [Recorder.Crowd.permits, recorderCrowd, ha.armed, Bool.toNat_true] at hpermit
    refine ⟨hp, hm, ?_, ha.armed, ha.since, ?_, ?_, hq⟩
    · by_contra hc
      cases (hk hc).symm.trans ha.armed
    · simp [Semaphore.ready, hd]
    · simp only [Semaphore.ready, decide_eq_false_iff_not]
      omega

/-- A stranded sampler goes from one look to the next. -/
theorem Stranded.step (hs : c.Stranded) {r : Rig} {s : Sampler} {note : Option SampleNote}
    (h : c.sampler.step c.now c.rig = some (r, s, note)) :
    s.phase.isWaiting = true ∧ s.moveEnd = c.sampler.moveEnd ∧ .abort ∉ r.inbox.toList := by
  have hm : c.sampler.moveEnd.isNone = false := by
    rw [Option.isNone_eq_false_iff, Option.isSome_iff_ne_none]
    exact hs.collected
  have hround : ∀ moved,
      c.sampler.afterMessage moved false = c.sampler.goto .lookingForMessage := by
    intro moved
    simp only [Sampler.afterMessage, hm, Bool.and_false, Bool.false_eq_true, if_false,
      Sampler.afterMove, Bool.false_and, Sampler.nextRound, hs.uncollected]
    cases c.sampler.moveEnd <;> rfl
  have hw := hs.waiting
  cases hp : c.sampler.phase with
  | asleep =>
    simp only [Sampler.step, hp] at h
    split at h <;> cases h
    exact ⟨rfl, rfl, hs.unasked⟩
  | lookingForMessage | lookingAtMove m =>
    simp only [Sampler.step, hp] at h
    cases h
    exact ⟨rfl, rfl, hs.unasked⟩
  | lookingAtCapture m k =>
    simp only [Sampler.step, hp, hs.captureEnd, hround] at h
    split_ifs at h <;> cases h <;> exact ⟨rfl, rfl, hs.unasked⟩
  | reading m k =>
    cases k with
    | true =>
      rw [hp] at hw
      cases hw
    | false =>
      simp only [Sampler.step, hp, Sampler.read, hround, Option.some.injEq] at h
      split at h
      · cases h
        exact ⟨rfl, rfl, hs.unasked⟩
      · rename_i x q hq
        have hlist := Inbox.pop?_eq_some_iff.mp hq
        have hunasked := hs.unasked
        rw [hlist, List.mem_cons, not_or] at hunasked
        rw [if_neg fun h0 => hunasked.1 h0.symm] at h
        cases h
        exact ⟨rfl, rfl, hunasked.2⟩
  | _ =>
    rw [hp] at hw
    cases hw

/-- **Nothing but an abort helps a stranded sampler.** -/
theorem Stranded.act {p : StepPeriods} {rate : Nat} (hs : c.Stranded) (h : Reaches p rate t c)
    (ha : c.act? a = some c') (hask : a ≠ .send .abort) (hcut : c.cuts a = false) :
    c'.Stranded := by
  obtain ⟨g, hg, -⟩ := watched_of_reaches h
  obtain ⟨hp, hm, hq, hu⟩ := (stranded_iff h).mp hs
  have hpulse := hg.not_pulses hp hm ha
  have hu' : Untouched ((c, a) :: t) := .inr ⟨hu, hpulse, hcut⟩
  by_cases hsampler : a = .sampler
  · subst hsampler
    have h' := h.act ha
    obtain ⟨r, s, n, hstep, rfl⟩ := step_of_act ha
    obtain ⟨hp', hm', hq'⟩ := hs.step hstep
    exact (stranded_iff h').mpr ⟨hp', fun h0 => hm (hm'.symm.trans h0), hq', hu'⟩
  · obtain ⟨h1, -⟩ := hg.frame ha hsampler
    refine (stranded_iff (h.act ha)).mpr ⟨by rw [h1]; exact hp, by rw [h1]; exact hm, ?_, hu'⟩
    cases turn_of_act ha with
    | drive _ _ | recorder _ _ => exact hq
    | send m =>
      by_cases hfull : c.rig.inbox.length < Limits.inboxDepth
      · rw [Inbox.toList_push hfull, List.mem_append, List.mem_singleton, not_or]
        exact ⟨hq, fun h0 => hask (by rw [h0])⟩
      · rw [Inbox.push_of_full hfull]
        exact hq
    | sampler => exact absurd rfl hsampler

/-- **A sample is stuck exactly if its move ended with the capture untouched.** However the
stepper, its timer, the power, the edges and everybody's aborts come in between: a sampler is
stranded exactly if it waits, with its move collected and no abort to take, and there was neither a
step nor an abort of the capture since the capture was armed. Then its move did not end for want of
power, which is where the sampler sees to its capture, and whatever happens, for however long, it
stays stranded until somebody asks for an abort. -/
theorem stranded_iff_untouched {p : StepPeriods} {rate : Nat} (h : Reaches p rate t c) :
    (c.Stranded ↔ c.sampler.phase.isWaiting = true ∧ c.sampler.moveEnd ≠ none ∧
      .abort ∉ c.rig.inbox.toList ∧ Untouched t) ∧
    (c.Stranded → c.sampler.moveEnd ≠ some .poweredOff) ∧
    ∀ c', c.Stranded → Relation.ReflTransGen Goes c c' →
      c'.Stranded ∧ c'.sampler.result? = none := by
  refine ⟨stranded_iff h, fun hs hm => ?_, fun c' hs hgoes => ?_⟩
  · obtain ⟨g, hg, -⟩ := watched_of_reaches h
    have hw := hs.waiting
    rcases hg.lost hm hs.uncollected with ⟨k, hp⟩ | ⟨k, hp⟩ | ha
    · rw [hp] at hw
      cases hw
    · rw [hp] at hw
      cases hw
    · cases ha.symm.trans hs.armed
  · have hstranded : (∃ t', Reaches p rate t' c') ∧ c'.Stranded := by
      induction hgoes with
      | refl => exact ⟨⟨t, h⟩, hs⟩
      | tail _ hstep ih =>
        obtain ⟨⟨t', ht⟩, hs'⟩ := ih
        obtain ⟨a, ha, hask, hcut⟩ := hstep
        exact ⟨⟨_, ht.act ha⟩, hs'.act ht ha hask hcut⟩
    exact ⟨hstranded.2, Sampler.result?_of_isWaiting hstranded.2.waiting⟩

/-- The step timer is found stopped at the first tick of a step up. -/
def stoppedTimer : List Action :=
  List.flatten [
    [.drive .powerOn], List.replicate 6 .sampler,
    List.replicate 4 (.drive (.stepper .done)), [.drive (.stepper (.ticked false))],
    List.replicate 3 (.drive (.stepper .done)), List.replicate 9 .sampler]

/-- After that the sampler sleeps, and has collected a move that took no step. -/
theorem play_stoppedTimer : ∃ d s t c, Drive.ofPeriods .standard 1 = .ok d ∧
    Sampler.start stepUp [] = .ok s ∧ play? act? [] (fresh d s) stoppedTimer = some (t, c) ∧
    c.sampler.moveEnd = some .aborted ∧ c.Stranded := by
  -- field by field, as `Stranded` is slow to check of a state that is not evaluated
  have hfields : ∃ d s t c, Drive.ofPeriods .standard 1 = .ok d ∧ Sampler.start stepUp [] = .ok s ∧
      play? act? [] (fresh d s) stoppedTimer = some (t, c) ∧ c.sampler.phase = .asleep ∧
      c.sampler.moveEnd = some .aborted ∧ c.sampler.captureEnd = none ∧
      c.rig.recorder.timer.armed = true ∧ c.rig.recorder.timer.since = none ∧
      c.rig.drive.done.ready = false ∧ c.rig.recorder.done.ready = false ∧
      c.rig.inbox.toList = [] :=
    ⟨_, _, _, _, rfl, rfl, rfl, rfl, rfl, rfl, rfl, rfl, rfl, rfl, rfl⟩
  obtain ⟨d, s, t, c, hd, hs, hplay, hp, hm, hk, harmed, hsince, hdone, hready, hq⟩ := hfields
  refine ⟨d, s, t, c, hd, hs, hplay, hm, ?_, ?_, hk, harmed, hsince, hdone, hready, ?_⟩
  · rw [hp]
    rfl
  · rw [hm]
    exact Option.some_ne_none _
  · rw [hq]
    exact List.not_mem_nil

theorem stranded_iff_untouched_stoppedTimer :
    ∃ d s t c, Drive.ofPeriods .standard 1 = .ok d ∧ Sampler.start stepUp [] = .ok s ∧
      play? act? [] (fresh d s) stoppedTimer = some (t, c) ∧
      c.sampler.moveEnd = some .aborted ∧ Untouched t ∧
      ∀ c', Relation.ReflTransGen Goes c c' → c'.Stranded ∧ c'.sampler.result? = none := by
  obtain ⟨d, s, t, c, hd, hs, hplay, hm, hstuck⟩ := play_stoppedTimer
  have h := of_play? (P := Reaches .standard 1) (fun _ _ _ _ => .act) stoppedTimer
    (reaches_fresh stepUp [] hd hs) hplay
  obtain ⟨hiff, -, hgoes⟩ := stranded_iff_untouched h
  obtain ⟨-, -, -, hu⟩ := hiff.mp hstuck
  exact ⟨d, s, t, c, hd, hs, hplay, hm, hu, fun c' => hgoes c' hstuck⟩

/-- A sample can get stuck: nothing but an abort ends it any more. -/
theorem exists_stranded : ∃ t c, Reaches .standard 1 t c ∧ c.Stranded := by
  obtain ⟨d, s, t, c, hd, hs, hplay, -, hstuck⟩ := play_stoppedTimer
  have h := of_play? (P := Reaches .standard 1) (fun _ _ _ _ => .act) stoppedTimer
    (reaches_fresh stepUp [] hd hs) hplay
  exact ⟨t, c, h, hstuck⟩

end Crew

end SwitchBench
