import SwitchBench.Proofs.Capture.CaptureResults
import SwitchBench.Proofs.Sampling.Aborts

/-!
# What a crew does to moves and captures

Along a trace of a crew, `Crew.moves` is the history of the moves and `Crew.captures` that of the
captures, newest first: what the crowd around the drive and the crowd around the recorder would
note. A sampler and its bystanders keep both in order, from whatever history they take over.

Results: `Sound.tells_act` (one action keeps the history of the moves in order),
`keeps_act` (one action keeps the history of the captures in order, and whoever has the permit
knows where its capture stands).
-/

namespace SwitchBench

open Drive (MoveStage MoveEvent)
open Recorder (CaptureEvent)

namespace Recorder.Crowd

variable {past : List CaptureEvent} {r : Recorder} {now : Nat} {others : List CaptureCall}

/-- A client with no call may begin to wait in one. -/
theorem Knows.begin (h : Knows past ⟨r, now, others⟩) {k : Option CaptureCall}
    (hk : ∀ x ∈ k, x.holds = false) : Knows past ⟨r, now, k.toList ++ others⟩ := by
  refine ⟨h.free, h.armed, h.announced, fun x hx => ?_, h.kept⟩
  rcases List.mem_append.mp hx with hx | hx
  · exact CaptureCall.knows_of_not_holds (hk x (Option.mem_toList.mp hx)) _
  · exact h.calls x hx

/-- After its call a client may begin to wait in another one. -/
theorem Knows.goOn {next mine : Option CaptureCall} (h : Knows past ⟨r, now, next.toList ++ others⟩)
    (hm : mine = next ∨ next = none ∧ ∀ k ∈ mine, k.holds = false) :
    Knows past ⟨r, now, mine.toList ++ others⟩ := by
  rcases hm with rfl | ⟨rfl, hk⟩
  · exact h
  · exact Knows.begin h hk

end Recorder.Crowd

namespace Crew

variable {g : MoveStage} {t : Trace} {c c' : Crew} {a : Action}

/-- What an action means for the captures. -/
def captureEvent? (c : Crew) : Action → Option CaptureEvent
  | .recorder a => c.recorderCrowd.event? (a.behind c.sampler.captureCall.toList.length)
  | .sampler => c.sampler.captureCall.bind fun _ => c.recorderCrowd.event? (.proceed 0)
  | _ => none

/-- What happened to the moves along a trace, newest first. -/
def moves (t : Trace) : List MoveEvent := t.filterMap fun e => e.1.event? e.2

/-- What happened to the captures along a trace, newest first. -/
def captures (t : Trace) : List CaptureEvent := t.filterMap fun e => e.1.captureEvent? e.2

theorem moves_cons (c : Crew) (a : Action) (t : Trace) :
    moves ((c, a) :: t) = (c.event? a).toList ++ moves t := by
  unfold moves
  rw [List.filterMap_cons]
  cases h : c.event? a <;> simp

theorem captures_cons (c : Crew) (a : Action) (t : Trace) :
    captures ((c, a) :: t) = (c.captureEvent? a).toList ++ captures t := by
  unfold captures
  rw [List.filterMap_cons]
  cases h : c.captureEvent? a <;> simp

/-- One action keeps the history of the moves in order, and the stage tells of it. -/
theorem Sound.tells_act (h : Sound g c) {past : List MoveEvent} (ho : Drive.InOrder past)
    (hg : g.Tells past) (a : Action) :
    Drive.InOrder ((c.event? a).toList ++ past) ∧
      (g.after (c.event? a)).Tells ((c.event? a).toList ++ past) := by
  cases he : c.event? a with
  | none => exact ⟨ho, hg⟩
  | some e => exact Drive.tells_next ho hg (allows_of_event? h he)

/-- **One action keeps the history of the captures in order**, and whoever has the permit then
knows where its capture stands. -/
theorem keeps_act {past : List CaptureEvent} (hs : c.recorderCrowd.Sound)
    (h : Recorder.Crowd.Knows past c.recorderCrowd) (ha : c.act? a = some c') :
    (∀ e, c.captureEvent? a = some e → Recorder.Allowed past e) ∧
      Recorder.Crowd.Knows ((c.captureEvent? a).toList ++ past) c'.recorderCrowd := by
  cases turn_of_act ha with
  | drive hb hx =>
    refine ⟨fun e he => (by cases he), ?_⟩
    simp only [follow, recorderCrowd]
    split
    · exact h.retime (hs.rests.trigger _).1 (Timer.Registers.sameLatches_trigger _ _) c.now
    · exact h
  | recorder hb hx =>
    exact h.act hs (Recorder.Crowd.act?_behind hb hx c.sampler.captureCall.toList)
  | send m => exact ⟨fun e he => (by cases he), h⟩
  | sampler hstep =>
    rcases Sampler.recorder_of_turn (Sampler.turn_of_step hstep) with
      ⟨k, next, hk, hr, hn⟩ | ⟨hk, hr, hn⟩
    · have hcrowd : c.recorderCrowd = ⟨c.rig.recorder, c.now, k :: c.others⟩ := by
        simp only [recorderCrowd, hk]
        rfl
      have he : c.captureEvent? .sampler = c.recorderCrowd.event? (.proceed 0) := by
        simp only [captureEvent?, hk, Option.bind_some]
      rw [he]
      rw [hcrowd] at h hs ⊢
      have hkeeps := h.proceed hs (i := 0) rfl hr
      rw [putAt_cons_zero] at hkeeps
      exact ⟨hkeeps.1, hkeeps.2.goOn hn⟩
    · have he : c.captureEvent? .sampler = none := by
        simp only [captureEvent?, hk, Option.bind_none]
      rw [he]
      refine ⟨fun e he => (by cases he), ?_⟩
      simp only [recorderCrowd, hk, Option.toList_none, List.nil_append] at h
      rw [← hr] at h
      exact h.begin hn

end Crew

end SwitchBench
