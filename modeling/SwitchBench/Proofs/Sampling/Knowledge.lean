import SwitchBench.Proofs.Sampling.Crew

/-!
# What a sampler knows

A sampler that has launched its move and not taken the end of it knows that a move is out, and one
that has given the permit back knows that nobody else has it. A sampler that has collected its
capture knows that the timer is not armed, and so does one that found the power lost, once it has
cut the capture. `Crew.Sound` adds this to what both crowds know.

Results: `Crew.Sound.act` (one action keeps the invariant), `sound_of_reaches` (every reachable
crew is sound, at some stage of the moves).
-/

namespace SwitchBench

open Drive (MoveStage MoveEvent)

namespace Sampler

/-- A sampler with no end of its move has one out, and one that has it has given the permit back. -/
def MoveKnown (g : MoveStage) (d : Drive) (s : Sampler) : Prop :=
  (s.moveEnd = none → g ≠ .idle) ∧ (s.moveEnd ≠ none → d.available.count = 1)

/-- What a sampler's next action tells of its move. -/
def KnowsMove (g : MoveStage) (d : Drive) (s : Sampler) : Prop :=
  match s.phase with
  | .locating | .takingRecorder | .arming | .takingDrive | .launching | .announcing _ =>
    s.moveEnd = none
  | .takingMove _ | .readingMove _ => s.moveEnd = none ∧ g ≠ .idle
  | .freeingDrive _ => s.moveEnd ≠ none
  | .finished _ | .refused _ => True
  | _ => s.MoveKnown g d

/-- What a sampler's next action tells of its capture. -/
def KnowsCapture (r : Recorder) (s : Sampler) : Prop :=
  match s.phase with
  | .locating | .takingRecorder | .arming | .takingDrive | .launching | .announcing _
  | .takingCapture | .readingChannels => s.captureEnd = none
  | .freeingRecorder l => s.captureEnd = none ∧ (l = none ↔ r.aborted = true)
  | .finished _ | .refused _ => True
  | _ => s.captureEnd ≠ none → r.timer.armed = false

variable {g : MoveStage} {d : Drive} {r : Recorder} {s : Sampler} {p : SamplerPhase}

theorem knowsMove_iff (h : (s.phase.isLooking || s.phase.isCutting || s.phase.isTelling) = true) :
    s.KnowsMove g d ↔ s.MoveKnown g d := by
  obtain ⟨_, p, _, _, _, _⟩ := s
  cases p <;> first | exact Iff.rfl | cases h

theorem knowsCapture_iff
    (h : (s.phase.isLooking || s.phase.isCutting || s.phase.isTelling) = true) :
    s.KnowsCapture r ↔ (s.captureEnd ≠ none → r.timer.armed = false) := by
  obtain ⟨_, p, _, _, _, _⟩ := s
  cases p <;> first | exact Iff.rfl | cases h

theorem MoveKnown.next (h : s.MoveKnown g d) (hn : s.Next p) : (s.goto p).KnowsMove g d := by
  cases hn with
  | look hp => exact (knowsMove_iff (s := s.goto p) (by simp [goto, hp])).mpr h
  | takeMove hm => exact ⟨hm, h.1 hm⟩
  | takeCapture _ => exact h
  | @conclude m k _ _ =>
    simp only [KnowsMove, goto]
    cases Sampler.conclude m k s.userAborted <;> trivial

theorem knowsCapture_of_next (h : s.captureEnd ≠ none → r.timer.armed = false) (hn : s.Next p) :
    (s.goto p).KnowsCapture r := by
  cases hn with
  | look hp => exact (knowsCapture_iff (s := s.goto p) (by simp [goto, hp])).mpr h
  | takeMove hm => exact h
  | takeCapture hk => exact hk
  | @conclude m k _ _ =>
    simp only [KnowsCapture, goto]
    cases Sampler.conclude m k s.userAborted <;> trivial

/-- Nothing but the end of the move, or its permit, changes what a sampler knows of it. -/
theorem KnowsMove.mono (h : s.KnowsMove g d) {g' : MoveStage} {d' : Drive}
    (hg : g ≠ .idle → g' ≠ .idle) (hd : d'.available = d.available) : s.KnowsMove g' d' := by
  have hknown : s.MoveKnown g d → s.MoveKnown g' d' := fun h0 =>
    ⟨fun hm => hg (h0.1 hm), fun hm => hd ▸ h0.2 hm⟩
  obtain ⟨_, p, _, _, _, _⟩ := s
  cases p <;> first | exact h | exact ⟨h.1, hg h.2⟩ | exact hknown h

/-- What a sampler knows of its capture lasts while the timer is not armed. -/
theorem KnowsCapture.mono (h : s.KnowsCapture r) {r' : Recorder}
    (hr : r.timer.armed = false → r'.timer.armed = false)
    (ha : ∀ l, s.phase = .freeingRecorder l → r'.aborted = r.aborted) : s.KnowsCapture r' := by
  obtain ⟨_, p, _, _, _, _⟩ := s
  cases p with
  | freeingRecorder l => exact ⟨h.1, by rw [ha l rfl]; exact h.2⟩
  | _ => first | exact h | exact fun h0 => hr (h h0)

end Sampler

/-! ## What everybody else leaves alone -/

theorem Drive.Turn.available {d d' : Drive} {e : Option MoveEvent} (h : Drive.Turn d d' e) :
    d'.available = d.available := by
  cases h <;> rfl

theorem Drive.MoveStage.after_ne_idle {g : MoveStage} (h : g ≠ .idle) {e : Option MoveEvent}
    (he : ∀ o, e ≠ some (.collected o)) : g.after e ≠ .idle := by
  cases e with
  | none => exact h
  | some e =>
    cases e with
    | collected o => exact absurd rfl (he o)
    | launched a o l => cases l <;> simp_all [after, next]
    | decided a d => cases d <;> cases g <;> simp_all [after, next]
    | timerFailed | powerLost | abortAsked => cases g <;> simp_all [after, next]

/-- An abort leaves no capture armed. -/
theorem Recorder.armed_cut (r : Recorder) (now : Nat) : (r.cut now).1.timer.armed = false := by
  unfold cut
  split
  · rfl
  · rename_i ha
    exact eq_false_of_ne_true ha

theorem Recorder.eq_of_takeDone? {r r' : Recorder} (h : r.takeDone? = some r') :
    r' = { r with done := r'.done } := by
  simp only [takeDone?, Option.map_eq_some_iff] at h
  obtain ⟨s, -, rfl⟩ := h
  rfl

theorem Recorder.eq_of_takePermit? {r r' : Recorder} (h : r.takePermit? = some r') :
    r' = { r with available := r'.available } := by
  simp only [takePermit?, Option.map_eq_some_iff] at h
  obtain ⟨s, -, rfl⟩ := h
  rfl

/-- There is nothing to read of an aborted capture only. -/
theorem Recorder.snd_collect_eq_none_iff (r : Recorder) :
    r.collect.2 = none ↔ r.collect.1.aborted = true := by
  unfold collect
  split
  · rename_i ha
    simp [ha]
  · rename_i ha
    simp [ha]

/-- A bystander ends an armed capture at most, and stays one. -/
theorem Recorder.Crowd.frame_of_isBystander {a : Recorder.Action} {c x : Recorder.Crowd}
    (ha : a.isBystander = true) (hc : ∀ k ∈ c.calls, k.isBystander = true)
    (hr : c.recorder.timer.Rests) (h : c.act? a = some x) :
    (∀ k ∈ x.calls, k.isBystander = true) ∧
      (c.recorder.timer.armed = false →
        x.recorder.timer.armed = false ∧ x.recorder.aborted = c.recorder.aborted) := by
  have hput {i : Nat} {next : Option CaptureCall} (hn : ∀ k ∈ next, k.isBystander = true) :
      ∀ k ∈ putAt c.calls i next, k.isBystander = true := fun k hk =>
    (mem_putAt hk).elim (hc k) (hn k)
  have hannounce (b : Bool) :
      ∀ k ∈ (if b then some CaptureCall.announcing else none), k.isBystander = true := by
    cases b with
    | false => exact forall_mem_of_eq_none rfl
    | true =>
      rintro k hk
      cases hk
      rfl
  cases bystanderTurn_of_act ha hc h with
  | edge ch e => exact ⟨hc, fun h0 => ⟨(hr.edge ch e c.now).1.trans h0, rfl⟩⟩
  | wait | expire => exact ⟨hc, fun h0 => ⟨h0, rfl⟩⟩
  | @enter k hk =>
    refine ⟨fun k' hk' => ?_, fun h0 => ⟨h0, rfl⟩⟩
    rcases List.mem_append.mp hk' with hk' | hk'
    · exact hc k' hk'
    · rw [List.mem_singleton.mp hk']
      exact hk
  | cut =>
    refine ⟨hput (hannounce _), fun h0 => ?_⟩
    simp only [cut, h0, Bool.false_eq_true, if_false, and_self]
  | service =>
    refine ⟨hput (hannounce _), fun h0 => ?_⟩
    rcases service_cases hr c.now with ⟨t, ha, -, he⟩ | ⟨ha, -⟩
    · rw [he]
      exact ⟨ha.trans h0, rfl⟩
    · exact absurd (ha.symm.trans h0) (by simp)
  | announce => exact ⟨hput (forall_mem_of_eq_none rfl), fun h0 => ⟨h0, rfl⟩⟩

namespace Crew

variable {g : MoveStage} {c c' : Crew} {a : Action}

/-- Only a sampler that reads how its move ended collects one. -/
theorem collected_of_event? {o : MoveOutcome} (h : c.event? a = some (.collected o))
    (ha : c.act? a = some c') :
    a = .sampler ∧ (∃ captured, c.sampler.phase = .readingMove captured) ∧
      c.rig.drive.axis.outcome = o := by
  cases a with
  | drive a =>
    simp only [act?, Option.ite_none_right_eq_some] at ha
    cases a with
    | stepper r =>
      simp only [event?, Drive.Crowd.event?] at h
      split at h <;> cases h
    | powerOff | abort =>
      simp only [event?, Drive.Crowd.event?, Option.ite_none_right_eq_some] at h
      cases h.2
    | powerOn | locate => cases h
    | enter _ | proceed _ | giveUp _ => cases ha.1
  | recorder a | send m => cases h
  | sampler =>
    simp only [event?] at h
    split at h
    · simp only [Drive.Crowd.event?, Option.ite_none_right_eq_some] at h
      cases h.2
    · simp only [Drive.Crowd.event?, driveCrowd, Sampler.moveCall] at h
      cases hp : c.sampler.phase <;> simp [hp] at h
      exact ⟨rfl, ⟨_, rfl⟩, h⟩

/-- What a crew knows at a stage of the moves. -/
structure Sound (g : MoveStage) (c : Crew) : Prop where
  drive : Drive.Crowd.Sound g c.driveCrowd
  recorder : c.recorderCrowd.Sound
  bystanders : ∀ k ∈ c.others, k.isBystander = true
  move : c.sampler.KnowsMove g c.rig.drive
  capture : c.sampler.KnowsCapture c.rig.recorder
  lost : c.sampler.moveEnd = some .poweredOff → c.sampler.captureEnd = none →
    (∃ captured, c.sampler.phase = .freeingDrive captured) ∨
    (∃ captured, c.sampler.phase = .cuttingCapture captured) ∨
    c.rig.recorder.timer.armed = false

/-- What everybody but the sampler leaves alone. -/
theorem Sound.frame (h : Sound g c) (ha : c.act? a = some c') (hs : a ≠ .sampler) :
    c'.sampler = c.sampler ∧ c'.rig.drive.available = c.rig.drive.available ∧
      (∀ k ∈ c'.others, k.isBystander = true) ∧
      (c.rig.recorder.timer.armed = false →
        c'.rig.recorder.timer.armed = false ∧
          c'.rig.recorder.aborted = c.rig.recorder.aborted) := by
  cases turn_of_act ha with
  | @drive a x hb hx =>
    refine ⟨rfl, ?_, h.bystanders, fun h0 => ⟨?_, rfl⟩⟩
    · cases a with
      | stepper r =>
        cases hx
        exact (Drive.turn_resume (c := c.driveCrowd) h.drive.running r).available
      | powerOn | powerOff | abort | locate =>
        cases hx
        rfl
      | enter _ | proceed _ | giveUp _ => cases hb
    · simp only [follow]
      split
      · exact (h.recorder.rests.trigger c.now).1.trans h0
      · exact h0
  | @recorder a x hb hx =>
    obtain ⟨h1, h2⟩ := Recorder.Crowd.frame_of_isBystander
      (c := ⟨c.rig.recorder, c.now, c.others⟩) hb h.bystanders h.recorder.rests hx
    exact ⟨rfl, rfl, h1, h2⟩
  | send m =>
    exact ⟨rfl, rfl, h.bystanders, fun h0 => ⟨h0, rfl⟩⟩
  | sampler => exact absurd rfl hs

/-- A sampler still knows of its move after its own action. -/
theorem Sound.knowsMove_of_step (h : Sound g c) {r : Rig} {s : Sampler} {note : Option SampleNote}
    (hs : c.sampler.step c.now c.rig = some (r, s, note)) :
    s.KnowsMove (g.after (c.event? .sampler)) r.drive := by
  have hk := h.move
  have hout : g ≠ .idle → (∀ captured, c.sampler.phase ≠ .readingMove captured) →
      g.after (c.event? .sampler) ≠ .idle := by
    intro hg hp
    refine Drive.MoveStage.after_ne_idle hg fun o ho => ?_
    obtain ⟨-, ⟨k, hk⟩, -⟩ := collected_of_event? ho (by simp only [act?, hs]; rfl)
    exact hp k hk
  have hpass : (c.sampler.phase.isLooking || c.sampler.phase.isCutting ||
      c.sampler.phase.isTelling) = true →
      c.sampler.MoveKnown (g.after (c.event? .sampler)) c.rig.drive := by
    intro hp
    rw [Sampler.knowsMove_iff hp] at hk
    refine ⟨fun h0 => hout (hk.1 h0) fun k h1 => ?_, hk.2⟩
    rw [h1] at hp
    cases hp
  cases Sampler.turn_of_step hs with
  | leave hp => trivial
  | seek hp | takeRecorder hp _ | arm hp | takeDrive hp _ | launch hp =>
    simp only [Sampler.KnowsMove, hp] at hk
    exact hk
  | @announce l p hp hn =>
    simp only [Sampler.KnowsMove, hp] at hk
    have hf := h.drive.calls (.announcing l) (by simp [driveCrowd, Sampler.moveCall, hp])
    have hg : (∀ f, l ≠ .refused f) → g ≠ .idle := by
      rintro hl rfl
      cases l with
      | refused f => exact hl f rfl
      | began t | finished o => cases hf
    rw [hn]
    cases l with
    | refused f => trivial
    | began t | finished o =>
      exact ⟨fun _ => hout (hg (by simp)) (by simp [hp]), fun h0 => absurd hk h0⟩
  | look hp hn => exact (hpass (by rw [hp]; rfl)).next hn
  | hear hp => exact hpass (by rw [hp]; rfl)
  | abortMove hp =>
    simp only [Sampler.KnowsMove, hp] at hk
    exact ⟨fun h0 => hout (hk.1 h0) (by simp [hp]), hk.2⟩
  | @cut p hp hn =>
    have hm := hpass (by simp [hp])
    split at hn
    · exact (Sampler.knowsMove_iff (s := c.sampler.goto p) (by simp [Sampler.goto, hn])).mpr hm
    · exact hm.next hn
  | tell hp hn => exact (hpass (by simp [hp])).next hn
  | takeMove hp _ =>
    simp only [Sampler.KnowsMove, hp] at hk
    exact ⟨hk.1, hout hk.2 (by simp [hp])⟩
  | readMove hp => exact Option.some_ne_none _
  | freeDrive hp hn =>
    simp only [Sampler.KnowsMove, hp] at hk
    obtain ⟨h0, -⟩ := h.drive.only (i := 0) (k := .givingPermit (c.sampler.moveEnd.getD .ok))
      (by simp [driveCrowd, Sampler.moveCall, hp]) rfl
    have ha : c.rig.drive.available.give.count = 1 := Semaphore.count_give_of_empty h0
    have hm : c.sampler.MoveKnown (g.after (c.event? .sampler)) c.rig.drive.givePermit :=
      ⟨fun h1 => absurd h1 hk, fun _ => ha⟩
    split at hn
    · rw [hn]
      exact hm
    · exact hm.next hn
  | takeCapture hp _ | readChannels hp =>
    simp only [Sampler.KnowsMove, hp] at hk
    exact ⟨fun h0 => hout (hk.1 h0) (by simp [hp]), hk.2⟩
  | @freeRecorder l k b p hp _ hn =>
    simp only [Sampler.KnowsMove, hp] at hk
    have hm : Sampler.MoveKnown (g.after (c.event? .sampler)) c.rig.drive
        { c.sampler with captureEnd := some k, buffer := b } :=
      ⟨fun h0 => hout (hk.1 h0) (by simp [hp]), hk.2⟩
    exact hm.next hn

/-- A sampler still knows of its capture after its own action. -/
theorem Sound.knowsCapture_of_step (h : Sound g c) {r : Rig} {s : Sampler}
    {note : Option SampleNote} (hs : c.sampler.step c.now c.rig = some (r, s, note)) :
    s.KnowsCapture r.recorder := by
  have hk := h.capture
  have hpass : (c.sampler.phase.isLooking || c.sampler.phase.isCutting ||
      c.sampler.phase.isTelling) = true →
      (c.sampler.captureEnd ≠ none → c.rig.recorder.timer.armed = false) :=
    fun hp => (Sampler.knowsCapture_iff hp).mp hk
  cases Sampler.turn_of_step hs with
  | leave hp => trivial
  | seek hp | takeRecorder hp _ | arm hp | takeDrive hp _ | launch hp =>
    simp only [Sampler.KnowsCapture, hp] at hk
    exact hk
  | @announce l p hp hn =>
    simp only [Sampler.KnowsCapture, hp] at hk
    rw [hn]
    cases l with
    | refused f => trivial
    | began t | finished o => exact fun h0 => absurd hk h0
  | look hp hn => exact Sampler.knowsCapture_of_next (hpass (by rw [hp]; rfl)) hn
  | hear hp => exact hpass (by rw [hp]; rfl)
  | abortMove hp =>
    simp only [Sampler.KnowsCapture, hp] at hk
    exact hk
  | @cut p hp hn =>
    have hm : c.sampler.captureEnd ≠ none → (c.rig.recorder.cut c.now).1.timer.armed = false :=
      fun _ => c.rig.recorder.armed_cut c.now
    split at hn
    · exact (Sampler.knowsCapture_iff (s := c.sampler.goto p) (by simp [Sampler.goto, hn])).mpr hm
    · exact Sampler.knowsCapture_of_next hm hn
  | tell hp hn => exact Sampler.knowsCapture_of_next (hpass (by simp [hp])) hn
  | takeMove hp _ | readMove hp =>
    simp only [Sampler.KnowsCapture, hp] at hk
    exact hk
  | freeDrive hp hn =>
    simp only [Sampler.KnowsCapture, hp] at hk
    split at hn
    · rw [hn]
      exact hk
    · exact Sampler.knowsCapture_of_next hk hn
  | takeCapture hp _ =>
    simp only [Sampler.KnowsCapture, hp] at hk
    exact hk
  | readChannels hp =>
    simp only [Sampler.KnowsCapture, hp] at hk
    exact ⟨hk, c.rig.recorder.snd_collect_eq_none_iff⟩
  | @freeRecorder l k b p hp _ hn =>
    obtain ⟨-, -, ha, -⟩ := h.recorder.only (i := 0) (k := .givingPermit l)
      (by simp [recorderCrowd, Sampler.captureCall, hp]) rfl
    exact Sampler.knowsCapture_of_next (s := { c.sampler with captureEnd := some k, buffer := b })
      (fun _ => ha) hn

/-- A sampler that found the power lost cuts its capture before it goes on. -/
theorem Sound.lost_of_step (h : Sound g c) {r : Rig} {s : Sampler} {note : Option SampleNote}
    (hs : c.sampler.step c.now c.rig = some (r, s, note)) (hm : s.moveEnd = some .poweredOff)
    (hc : s.captureEnd = none) :
    (∃ captured, s.phase = .freeingDrive captured) ∨
    (∃ captured, s.phase = .cuttingCapture captured) ∨ r.recorder.timer.armed = false := by
  have hk := h.move
  have hlost : ∀ {p}, c.sampler.phase = p → (∀ captured, p ≠ .freeingDrive captured) →
      (∀ captured, p ≠ .cuttingCapture captured) → c.sampler.moveEnd = some .poweredOff →
      c.sampler.captureEnd = none → c.rig.recorder.timer.armed = false := by
    rintro _ rfl h1 h2 hm hc
    rcases h.lost hm hc with ⟨k, hp⟩ | ⟨k, hp⟩ | ha
    · exact absurd hp (h1 k)
    · exact absurd hp (h2 k)
    · exact ha
  cases Sampler.turn_of_step hs with
  | leave hp | seek hp | takeRecorder hp _ | arm hp | takeDrive hp _ | launch hp | announce hp hn =>
    simp only [Sampler.KnowsMove, hp] at hk
    cases hk.symm.trans hm
  | look hp hn =>
    refine .inr (.inr (hlost rfl ?_ ?_ hm hc)) <;> intro k h0 <;> rw [h0] at hp <;> cases hp
  | hear hp | abortMove hp | takeMove hp _ => exact .inr (.inr (hlost hp (by simp) (by simp) hm hc))
  | takeCapture hp ht =>
    rw [Recorder.eq_of_takeDone? ht]
    exact .inr (.inr (hlost hp (by simp) (by simp) hm hc))
  | cut hp hn => exact .inr (.inr (c.rig.recorder.armed_cut c.now))
  | tell hp hn =>
    refine .inr (.inr (hlost rfl ?_ ?_ hm hc)) <;> intro k h0 <;> rw [h0] at hp <;> cases hp
  | readMove hp => exact .inl ⟨_, rfl⟩
  | freeDrive hp hn =>
    rw [if_pos ⟨hm, hc⟩] at hn
    exact .inr (.inl ⟨_, hn⟩)
  | readChannels hp =>
    obtain ⟨f, hf⟩ := Recorder.fst_collect c.rig.recorder
    rw [hf]
    exact .inr (.inr (hlost hp (by simp) (by simp) hm hc))
  | freeRecorder hp _ hn => cases hc

/-- **One action of anybody keeps the invariant.** -/
theorem Sound.act (h : Sound g c) (ha : c.act? a = some c') :
    Sound (g.after (c.event? a)) c' := by
  by_cases hs : a = .sampler
  · subst hs
    have hd := drive_of_act h.drive ha
    have hr := recorder_of_act h.recorder ha
    obtain ⟨r, s, n, hs, rfl⟩ := step_of_act ha
    exact ⟨hd, hr, h.bystanders, h.knowsMove_of_step hs, h.knowsCapture_of_step hs,
      h.lost_of_step hs⟩
  · obtain ⟨h1, h2, h3, h4⟩ := h.frame ha hs
    refine ⟨drive_of_act h.drive ha, recorder_of_act h.recorder ha, h3, ?_, ?_, ?_⟩
    · rw [h1]
      refine h.move.mono (fun hg => Drive.MoveStage.after_ne_idle hg fun o ho => ?_) h2
      exact hs (collected_of_event? ho ha).1
    · rw [h1]
      refine h.capture.mono (fun h0 => (h4 h0).1) fun l hl => ?_
      obtain ⟨-, -, h0, -⟩ := h.recorder.only (i := 0) (k := .givingPermit l)
        (by simp [recorderCrowd, Sampler.captureCall, hl]) rfl
      exact (h4 h0).2
    · rw [h1]
      intro hm hc
      rcases h.lost hm hc with hp | hp | hp
      · exact .inl hp
      · exact .inr (.inl hp)
      · exact .inr (.inr (h4 hp).1)

theorem sampler_of_start {o : SampleOrder} {buffer : List Reading} {s : Sampler}
    (h : Sampler.start o buffer = .ok s) : s = ⟨o, .locating, none, none, false, buffer⟩ := by
  unfold Sampler.start at h
  split_ifs at h
  cases h
  rfl

/-- A sample starts in a crew that knows all it needs. -/
theorem sound_of_start {p : StepPeriods} {rate : Nat} {t : Drive.Crowd.Trace}
    {t' : Recorder.Crowd.Trace} {d : Drive} {r : Recorder} {now : Nat} {others : List CaptureCall}
    {inbox : Inbox} {o : SampleOrder} {buffer : List Reading} {s : Sampler}
    (hd : Drive.Crowd.Reaches p rate t ⟨d, []⟩) (hr : Recorder.Crowd.Reaches t' ⟨r, now, others⟩)
    (ho : ∀ k ∈ others, k.isBystander = true) (hs : Sampler.start o buffer = .ok s) :
    Sound (MoveStage.ofEvents (Drive.Crowd.events t)) ⟨⟨d, r, inbox⟩, now, s, others⟩ := by
  rw [sampler_of_start hs]
  exact ⟨Drive.Crowd.sound_of_reaches hd, Recorder.Crowd.sound_of_reaches hr, ho, rfl, rfl, nofun⟩

end Crew

end SwitchBench
