import Mathlib.Tactic.SplitIfs
import SwitchBench.Sampling.Sampler

/-!
# What one action of a sampler does

A sampler's actions come in a few kinds. Before its rounds it takes both permits, arms the capture
and launches the move; in a round it looks for something to do, and then passes an abort on, takes
an end that has come, or goes to sleep. `Sampler.Turn` lists the kinds with all that each one
changes, and `Sampler.Next` says where a round may lead once the sampler has nothing left to pass
on.

Results: `turn_of_step` (every action of a sampler is one of the kinds).
-/

namespace SwitchBench

namespace SamplerPhase

/-- Is the move of the sample yet to be launched, or just launched? -/
def isEarly : SamplerPhase → Bool
  | locating | takingRecorder | arming | takingDrive | launching | announcing _ => true
  | _ => false

/-- Does the sampler, at this action, only look for something to do? -/
def isLooking : SamplerPhase → Bool
  | asleep | lookingForMessage | lookingAtMove _ | lookingAtCapture _ _ | reading _ _ => true
  | _ => false

/-- Is the action to abort the capture? -/
def isCutting : SamplerPhase → Bool
  | abortingCapture _ _ | cuttingCapture _ => true
  | _ => false

/-- Is the action to announce the end of a capture that the sampler aborted? -/
def isTelling : SamplerPhase → Bool
  | announcingAbort _ _ | announcingCut _ => true
  | _ => false

end SamplerPhase

theorem Recorder.snd_cut (r : Recorder) (now : Nat) : (r.cut now).2 = r.timer.armed := by
  unfold cut
  split <;> simp_all

namespace Sampler

open Recorder (snd_cut)

/-- The order that a sampler gives to the drive. -/
def moveOrder (s : Sampler) : MoveOrder := ⟨false, s.order.target, s.order.speed⟩

/-- Where a sampler may go on when it has nothing to pass on. -/
inductive Next (s : Sampler) : SamplerPhase → Prop
  | look {p : SamplerPhase} (hp : p.isLooking = true) : Next s p
  | takeMove {captured : Bool} (h : s.moveEnd = none) : Next s (.takingMove captured)
  | takeCapture (h : s.captureEnd = none) : Next s .takingCapture
  | conclude {m : MoveOutcome} {k : CaptureOutcome} (hm : s.moveEnd = some m)
      (hk : s.captureEnd = some k) : Next s (ending (Sampler.conclude m k s.userAborted))

/-- What an action of a sampler can do to its rig and to itself. -/
inductive Turn (now : Nat) (r : Rig) (s : Sampler) : Rig → Sampler → Prop
  | leave {o : SampleOutcome} {buffer : List Reading} (hp : s.phase = .locating) :
      Turn now r s r { s with buffer := buffer, phase := .finished o }
  | seek (hp : s.phase = .locating) : Turn now r s r (s.goto .takingRecorder)
  | takeRecorder {c : Recorder} (hp : s.phase = .takingRecorder)
      (hc : r.recorder.takePermit? = some c) :
      Turn now r s { r with recorder := c } (s.goto .arming)
  | arm (hp : s.phase = .arming) :
      Turn now r s { r with recorder := r.recorder.arm s.order.setup s.order.directions now }
        (s.goto .takingDrive)
  | takeDrive {d : Drive} (hp : s.phase = .takingDrive) (hd : r.drive.takePermit? = some d) :
      Turn now r s { r with drive := d } (s.goto .launching)
  | launch (hp : s.phase = .launching) :
      Turn now r s { r with drive := (r.drive.launch s.moveOrder).1 }
        (s.goto (.announcing (r.drive.launch s.moveOrder).2))
  | announce {l : Launch} {p : SamplerPhase} (hp : s.phase = .announcing l)
      (hn : p = match l with
        | .refused f => .refused f
        | _ => .lookingForMessage) :
      Turn now r s { r with drive := r.drive.announce l } (s.goto p)
  | look {q : Inbox} {p : SamplerPhase} (hp : s.phase.isLooking = true) (hn : s.Next p) :
      Turn now r s { r with inbox := q } (s.goto p)
  | hear {q : Inbox} {moved captured : Bool} (hp : s.phase = .reading moved captured) :
      Turn now r s { r with inbox := q }
        { s with userAborted := true, phase := .abortingMove moved captured }
  | abortMove {moved captured : Bool} (hp : s.phase = .abortingMove moved captured) :
      Turn now r s { r with drive := r.drive.abort.1 } (s.goto (.abortingCapture moved captured))
  | cut {p : SamplerPhase} (hp : s.phase.isCutting = true)
      (hn : if r.recorder.timer.armed then p.isTelling = true else s.Next p) :
      Turn now r s { r with recorder := (r.recorder.cut now).1 } (s.goto p)
  | tell {p : SamplerPhase} (hp : s.phase.isTelling = true) (hn : s.Next p) :
      Turn now r s { r with recorder := r.recorder.announce } (s.goto p)
  | takeMove {d : Drive} {captured : Bool} (hp : s.phase = .takingMove captured)
      (hd : r.drive.takeDone? = some d) :
      Turn now r s { r with drive := d } (s.goto (.readingMove captured))
  | readMove {captured : Bool} (hp : s.phase = .readingMove captured) :
      Turn now r s r
        { s with moveEnd := some r.drive.axis.outcome, phase := .freeingDrive captured }
  | freeDrive {captured : Bool} {p : SamplerPhase} (hp : s.phase = .freeingDrive captured)
      (hn : if s.moveEnd = some .poweredOff ∧ s.captureEnd = none then p = .cuttingCapture captured
        else s.Next p) :
      Turn now r s { r with drive := r.drive.givePermit } (s.goto p)
  | takeCapture {c : Recorder} (hp : s.phase = .takingCapture)
      (hc : r.recorder.takeDone? = some c) :
      Turn now r s { r with recorder := c } (s.goto .readingChannels)
  | readChannels (hp : s.phase = .readingChannels) :
      Turn now r s { r with recorder := r.recorder.collect.1 }
        (s.goto (.freeingRecorder r.recorder.collect.2))
  | freeRecorder {l : Option (List Reading)} {k : CaptureOutcome} {buffer : List Reading}
      {p : SamplerPhase} (hp : s.phase = .freeingRecorder l)
      (hk : k = if l.isSome then .ok else .aborted)
      (hn : Next { s with captureEnd := some k, buffer := buffer } p) :
      Turn now r s { r with recorder := r.recorder.givePermit }
        { s with captureEnd := some k, buffer := buffer, phase := p }

theorem next_nextRound (s : Sampler) : ∃ p, s.Next p ∧ s.nextRound = s.goto p := by
  unfold nextRound
  split
  · rename_i m k hm hk
    exact ⟨_, .conclude hm hk, rfl⟩
  · exact ⟨_, .look rfl, rfl⟩

theorem next_afterMove (s : Sampler) (captured : Bool) :
    ∃ p, s.Next p ∧ s.afterMove captured = s.goto p := by
  unfold afterMove
  split
  · rename_i h
    rw [Bool.and_eq_true, Option.isNone_iff_eq_none] at h
    exact ⟨_, .takeCapture h.2, rfl⟩
  · exact s.next_nextRound

theorem next_afterMessage (s : Sampler) (moved captured : Bool) :
    ∃ p, s.Next p ∧ s.afterMessage moved captured = s.goto p := by
  unfold afterMessage
  split
  · rename_i h
    rw [Bool.and_eq_true, Option.isNone_iff_eq_none] at h
    exact ⟨_, .takeMove h.2, rfl⟩
  · exact s.next_afterMove captured

/-- **Every action of a sampler is a turn.** -/
theorem turn_of_step {now : Nat} {r r' : Rig} {s s' : Sampler} {note : Option SampleNote}
    (h : s.step now r = some (r', s', note)) : Turn now r s r' s' := by
  cases hp : s.phase with
  | locating =>
    simp only [step, hp] at h
    split_ifs at h <;> cases h
    · exact .leave hp
    · exact .seek hp
    · exact .leave hp
  | takingRecorder =>
    simp only [step, hp, Option.map_eq_some_iff] at h
    obtain ⟨c, hc, he⟩ := h
    cases he
    exact .takeRecorder hp hc
  | arming =>
    simp only [step, hp] at h
    cases h
    exact .arm hp
  | takingDrive =>
    simp only [step, hp, Option.map_eq_some_iff] at h
    obtain ⟨d, hd, he⟩ := h
    cases he
    exact .takeDrive hp hd
  | launching =>
    simp only [step, hp] at h
    cases h
    exact .launch hp
  | announcing l =>
    simp only [step, hp] at h
    split at h <;> cases h
    · exact .announce hp rfl
    · rename_i hl
      refine .announce hp ?_
      split
      · exact absurd rfl (hl _)
      · rfl
  | asleep =>
    simp only [step, hp] at h
    split_ifs at h
    cases h
    exact .look (by rw [hp]; rfl) (.look rfl)
  | lookingForMessage | lookingAtMove m =>
    simp only [step, hp] at h
    cases h
    exact .look (by rw [hp]; rfl) (.look rfl)
  | lookingAtCapture m k =>
    simp only [step, hp] at h
    split_ifs at h <;> cases h
    · exact .look (by rw [hp]; rfl) (.look rfl)
    · obtain ⟨p, hn, he⟩ := s.next_afterMessage k r.recorder.done.ready
      rw [he]
      exact .look (by rw [hp]; rfl) hn
    · exact .look (by rw [hp]; rfl) (.look rfl)
  | reading m k =>
    simp only [step, hp, read, Option.some.injEq] at h
    obtain ⟨p, hn, he⟩ := s.next_afterMessage m k
    rw [he] at h
    split at h
    · cases h
      exact .look (by rw [hp]; rfl) hn
    · split at h <;> cases h
      · exact .hear hp
      · exact .look (by rw [hp]; rfl) hn
  | abortingMove m k =>
    simp only [step, hp] at h
    cases h
    exact .abortMove hp
  | abortingCapture m k =>
    obtain ⟨p, hn, he⟩ := s.next_afterMessage m k
    simp only [step, hp, snd_cut, he] at h
    split_ifs at h with ha <;> cases h
    · exact .cut (by rw [hp]; rfl) (by rw [if_pos ha]; rfl)
    · exact .cut (by rw [hp]; rfl) (by rwa [if_neg ha])
  | cuttingCapture k =>
    obtain ⟨p, hn, he⟩ := s.next_afterMove k
    simp only [step, hp, snd_cut, he] at h
    split_ifs at h with ha <;> cases h
    · exact .cut (by rw [hp]; rfl) (by rw [if_pos ha]; rfl)
    · exact .cut (by rw [hp]; rfl) (by rwa [if_neg ha])
  | announcingAbort m k =>
    obtain ⟨p, hn, he⟩ := s.next_afterMessage m k
    simp only [step, hp, he] at h
    cases h
    exact .tell (by rw [hp]; rfl) hn
  | announcingCut k =>
    obtain ⟨p, hn, he⟩ := s.next_afterMove k
    simp only [step, hp, he] at h
    cases h
    exact .tell (by rw [hp]; rfl) hn
  | takingMove k =>
    simp only [step, hp, Option.map_eq_some_iff] at h
    obtain ⟨d, hd, he⟩ := h
    cases he
    exact .takeMove hp hd
  | readingMove k =>
    simp only [step, hp] at h
    cases h
    exact .readMove hp
  | freeingDrive k =>
    obtain ⟨p, hn, he⟩ := s.next_afterMove k
    simp only [step, hp, he] at h
    split_ifs at h with hc <;> cases h
    · exact .freeDrive hp (by rw [if_pos hc])
    · exact .freeDrive hp (by rwa [if_neg hc])
  | takingCapture =>
    simp only [step, hp, Option.map_eq_some_iff] at h
    obtain ⟨c, hc, he⟩ := h
    cases he
    exact .takeCapture hp hc
  | readingChannels =>
    simp only [step, hp] at h
    cases h
    exact .readChannels hp
  | freeingRecorder l =>
    simp only [step, hp] at h
    cases l with
    | none =>
      obtain ⟨p, hn, he⟩ := next_nextRound { s with captureEnd := some .aborted }
      rw [← hp, he] at h
      cases h
      exact .freeRecorder hp rfl hn
    | some l =>
      obtain ⟨p, hn, he⟩ := next_nextRound
        { s with captureEnd := some .ok, buffer := Recorder.fill s.buffer.length l }
      rw [← hp] at h
      dsimp only at h
      rw [he] at h
      cases h
      exact .freeRecorder hp rfl hn
  | finished o | refused f =>
    simp only [step, hp] at h
    cases h

end Sampler

end SwitchBench
