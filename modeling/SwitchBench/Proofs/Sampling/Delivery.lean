import SwitchBench.Proofs.Sampling.Rest

/-!
# What a sample has read, on its way to the buffer

With its capture armed a sampler leaves the recorder alone, or it aborts the capture. Once a capture
has ended its readings stay where they are until the sampler fetches them: with the timer, in the
sampler's hand, or in the buffer (`Delivery`). The sampler arms no second capture, and it has
nothing more to abort.

Results: `Sound.recorder_of_armed` (what a sampler does to a recorder that is armed),
`Sampler.Turn.disarmed` (and to one that is not), `Delivery.step` (its own action loses no
readings).
-/

namespace SwitchBench

open Drive (MoveStage)

namespace Crew

variable {g : MoveStage} {c : Crew}

/-- With its capture armed a sampler is past its start, and has neither announced nor collected an
end. -/
theorem Sound.underWay_of_armed (h : Sound g c) (hq : Tidy g c)
    (ha : c.rig.recorder.timer.armed = true) :
    c.sampler.phase.isUnderWay = true ∧ c.sampler.phase.isTelling = false ∧
      c.sampler.captureEnd = none := by
  obtain ⟨hfree, hcalls, -⟩ := h.recorder.alone_of_armed ha
  have hout : c.rig.recorder.available.count ≠ 1 := by
    rw [show c.rig.recorder.available.count = 0 from hfree]
    decide
  have hcall : ∀ k ∈ c.sampler.captureCall, k.holds = false := fun k hk =>
    eq_zero_of_mem_countP hcalls (List.mem_append_left _ (Option.mem_toList.mpr hk))
  have hp := hq.permits
  have hk := h.capture
  cases hphase : c.sampler.phase with
  | locating | takingRecorder | finished o =>
    simp only [Sampler.LeavesPermits, hphase] at hp
    exact absurd hp.2 hout
  | refused f =>
    simp only [Sampler.LeavesPermits, hphase] at hp
  | arming | announcingAbort _ _ | announcingCut _ | readingChannels | freeingRecorder l =>
    simp only [Sampler.captureCall, hphase] at hcall
    exact absurd (hcall _ rfl) (by simp [CaptureCall.holds])
  | takingDrive | launching | announcing l | takingCapture =>
    simp only [Sampler.KnowsCapture, hphase] at hk
    exact ⟨rfl, rfl, hk⟩
  | _ =>
    simp only [Sampler.KnowsCapture, hphase] at hk
    refine ⟨rfl, rfl, ?_⟩
    by_contra h0
    exact absurd ((hk h0).symm.trans ha) Bool.false_ne_true

/-- With its capture armed a sampler leaves the recorder alone, or it aborts the capture. -/
theorem Sound.recorder_of_armed (h : Sound g c) (hq : Tidy g c)
    (ha : c.rig.recorder.timer.armed = true) {r : Rig} {s : Sampler} {note : Option SampleNote}
    (hs : c.sampler.step c.now c.rig = some (r, s, note)) :
    s.buffer = c.sampler.buffer ∧ (r.recorder = c.rig.recorder ∨
      r.recorder = (c.rig.recorder.cut c.now).1 ∧ s.captureEnd = none ∧
        s.phase.isTelling = true) := by
  obtain ⟨hunder, hquiet, hnone⟩ := h.underWay_of_armed hq ha
  obtain ⟨-, hcalls, hdone⟩ := h.recorder.alone_of_armed ha
  cases Sampler.turn_of_step hs with
  | leave hp | seek hp | takeRecorder hp _ | arm hp | freeRecorder hp _ _ =>
    rw [hp] at hunder
    cases hunder
  | tell hp _ => exact absurd (hquiet.symm.trans hp) Bool.false_ne_true
  | takeCapture hp hd =>
    simp only [Recorder.takeDone?, Option.map_eq_some_iff] at hd
    obtain ⟨x, hx, -⟩ := hd
    have hcount := Semaphore.count_of_take? hx
    have hzero : c.rig.recorder.done.count = 0 := hdone
    omega
  | readChannels hp =>
    have hhold := eq_zero_of_mem_countP hcalls (x := .reading)
      (List.mem_append_left _ (by simp [Sampler.captureCall, hp]))
    cases hhold
  | @cut q hp hn =>
    rw [if_pos ha] at hn
    exact ⟨rfl, .inr ⟨rfl, hnone, hn⟩⟩
  | _ => exact ⟨rfl, .inl rfl⟩

end Crew

/-- There is nothing to abort on a recorder that is not armed. -/
theorem Recorder.cut_of_disarmed {r : Recorder} (ha : r.timer.armed = false) (now : Nat) :
    (r.cut now).1 = r := by
  unfold cut
  rw [ha]
  rfl

/-- Taking the end of a capture leaves its readings. -/
theorem Recorder.snd_collect_takeDone? {r r' : Recorder} (h : r.takeDone? = some r') :
    r'.collect.2 = r.collect.2 := by
  rw [eq_of_takeDone? h]
  unfold collect
  split <;> rfl

namespace Sampler

/-- A sampler that goes on has nothing to announce. -/
theorem Next.not_telling {s : Sampler} {q : SamplerPhase} (h : s.Next q) :
    q.isTelling = false := by
  cases h with
  | look hp => cases q <;> first | rfl | cases hp
  | takeMove _ | takeCapture _ => rfl
  | @conclude m k _ _ => cases Sampler.conclude m k s.userAborted <;> rfl

/-- Past its start a sampler arms no capture, and then it has none to abort. -/
theorem Turn.disarmed {now : Nat} {r r' : Rig} {s s' : Sampler} (h : Turn now r s r' s')
    (hf : s.phase.isFresh = false) (ha : r.recorder.timer.armed = false) :
    s'.phase.isFresh = false ∧ r'.recorder.timer.armed = false ∧
      r'.recorder.aborted = r.recorder.aborted ∧
      (s.phase.isTelling = false → s'.phase.isTelling = false) := by
  cases h with
  | leave hp | seek hp | takeRecorder hp _ | arm hp =>
    rw [hp] at hf
    cases hf
  | takeDrive _ _ | launch _ | hear _ | abortMove _ | takeMove _ _ | readMove _ =>
    exact ⟨rfl, ha, rfl, fun _ => rfl⟩
  | @announce l q hp hn =>
    rw [hn]
    cases l <;> exact ⟨rfl, ha, rfl, fun _ => rfl⟩
  | look _ hn | tell _ hn =>
    exact ⟨(onward_of_next hn).begun, ha, rfl, fun _ => hn.not_telling⟩
  | cut _ hn =>
    rw [ha, if_neg (by simp)] at hn
    rw [Recorder.cut_of_disarmed ha]
    exact ⟨(onward_of_next hn).begun, ha, rfl, fun _ => hn.not_telling⟩
  | @freeDrive k q _ hn =>
    split at hn
    · rw [hn]
      exact ⟨rfl, ha, rfl, fun _ => rfl⟩
    · exact ⟨(onward_of_next hn).begun, ha, rfl, fun _ => hn.not_telling⟩
  | takeCapture _ hd =>
    rw [Recorder.eq_of_takeDone? hd]
    exact ⟨rfl, ha, rfl, fun _ => rfl⟩
  | readChannels _ =>
    obtain ⟨f, hf⟩ := Recorder.fst_collect r.recorder
    rw [hf]
    exact ⟨rfl, ha, rfl, fun _ => rfl⟩
  | @freeRecorder l k b q _ _ hn =>
    have hn' : Next { s with captureEnd := some k, buffer := b } q := hn
    exact ⟨(onward_of_next hn').begun, ha, rfl, fun _ => hn'.not_telling⟩

end Sampler

namespace Crew

variable {n : Nat} {g : MoveStage} {c : Crew}

/-! ## The readings on their way -/

/-- The readings of a closed capture are with the timer, with the sampler, or in its buffer. -/
inductive Delivery (n : Nat) (l : List Reading) (r : Recorder) (s : Sampler) : Prop
  | unread (hk : s.captureEnd = none) (hp : ∀ l, s.phase ≠ .freeingRecorder l)
      (hb : s.buffer.length = n) (hr : r.collect.2 = some l)
  | inHand (hk : s.captureEnd = none) (hp : s.phase = .freeingRecorder (some l))
      (hb : s.buffer.length = n)
  | written (hk : s.captureEnd = some .ok) (hb : s.buffer = Recorder.fill n l)

/-- The sampler's own action loses no readings. -/
theorem Delivery.step {l : List Reading} (hd : Delivery n l c.rig.recorder c.sampler)
    (h : Sound g c) (hf : c.sampler.phase.isFresh = false)
    (ha : c.rig.recorder.timer.armed = false) (hq : c.sampler.phase.isTelling = false) {r : Rig}
    {s : Sampler} {note : Option SampleNote}
    (hs : c.sampler.step c.now c.rig = some (r, s, note)) : Delivery n l r.recorder s := by
  have hturn := Sampler.turn_of_step hs
  cases hd with
  | unread hk hp hb hr =>
    cases hturn with
    | leave hp' | seek hp' | takeRecorder hp' _ | arm hp' =>
      rw [hp'] at hf
      cases hf
    | tell hp' _ => exact absurd (hq.symm.trans hp') Bool.false_ne_true
    | freeRecorder hp' _ _ => exact absurd hp' (hp _)
    | takeDrive _ _ | launch _ | hear _ | abortMove _ | takeMove _ _ | readMove _ =>
      exact .unread hk nofun hb hr
    | @announce l' q _ hn =>
      refine .unread hk (fun l'' => ?_) hb hr
      rw [hn]
      cases l' <;> nofun
    | look _ hn => exact .unread hk (Sampler.onward_of_next hn).nothing hb hr
    | cut _ hn =>
      rw [ha, if_neg (by simp)] at hn
      rw [Recorder.cut_of_disarmed ha]
      exact .unread hk (Sampler.onward_of_next hn).nothing hb hr
    | @freeDrive k q _ hn =>
      refine .unread hk ?_ hb hr
      split at hn
      · rw [hn]
        nofun
      · exact (Sampler.onward_of_next hn).nothing
    | takeCapture _ hd =>
      exact .unread hk nofun hb ((Recorder.snd_collect_takeDone? hd).trans hr)
    | readChannels _ => exact .inHand hk (by rw [hr]; rfl) hb
  | inHand hk hp hb =>
    obtain ⟨hk', hb'⟩ := Sampler.written_of_freeing hp hs
    exact .written hk' (by rw [hb', hb])
  | written hk hb =>
    have hnot : ∀ {q}, c.sampler.phase = q → (q = .takingCapture ∨ q = .readingChannels ∨
        ∃ l, q = .freeingRecorder l) → Delivery n l r.recorder s := by
      rintro _ rfl hp
      exact absurd (hk.symm.trans (h.captureEnd_of_phase hp)) (by simp)
    cases hturn with
    | leave hp | seek hp | takeRecorder hp _ | arm hp =>
      rw [hp] at hf
      cases hf
    | takeCapture hp _ => exact hnot hp (.inl rfl)
    | readChannels hp => exact hnot hp (.inr (.inl rfl))
    | freeRecorder hp _ _ => exact hnot hp (.inr (.inr ⟨_, rfl⟩))
    | _ => exact .written hk hb

end Crew

end SwitchBench
