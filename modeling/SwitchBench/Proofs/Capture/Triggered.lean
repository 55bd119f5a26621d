import Mathlib.Data.Option.Basic
import SwitchBench.Proofs.Capture.DenseSlots
import SwitchBench.Proofs.Capture.Inputs
import SwitchBench.Sampling.Check

/-!
# Which channels triggered

A channel is to have triggered if it was first hit within the timeout, in ticks (`Prompt`). What it
reads is told by the hits that the window took, and more hits than one are reported as such before
their time is looked at. So a channel that is hit twice in the bounce period, and not before, counts
as triggered. A window without a bounce ends at the last tick of the timeout, so that a first hit in
that tick is not seen. All other channels are judged rightly (`Misjudged`).

Results: `CaptureSetup.triggered_iff_prompt_iff` (a reading tells whether a channel was hit promptly
exactly if the channel is not misjudged), `Workbench.collected_triggered_iff` (the same of every
capture that is collected, and of the pass that a check counts), and `Workbench.exists_misjudged`
(a channel that bounces late counts as triggered).
-/

namespace SwitchBench

namespace CaptureSetup

variable {s : CaptureSetup} {d : Directions} {start : Nat} {l : List Arrival} {c : Channel}

/-- Did a channel's first hit come within the timeout, in ticks? -/
def Prompt (s : CaptureSetup) (start : Nat) (l : List Arrival) (c : Channel) : Prop :=
  ∃ t ∈ (s.hits l c).head?, ticksAt start t ≤ s.timeoutTicks

instance : Decidable (s.Prompt start l c) := inferInstanceAs (Decidable (∃ t ∈ _, _))

/-- Is a channel misjudged? Its first hit came after the timeout and the window took another, or it
came in the last tick of the timeout and there is no bounce after that. -/
def Misjudged (s : CaptureSetup) (d : Directions) (start : Nat) (l : List Arrival) (c : Channel) :
    Prop :=
  ∃ t ∈ (s.hits l c).head?,
    (s.timeoutTicks < ticksAt start t ∧ 1 < (s.hits (s.taken d start l) c).length) ∨
    (0 < s.timeoutTicks ∧ s.bounceTicks = 0 ∧ ticksAt start t = s.timeoutTicks)

instance : Decidable (s.Misjudged d start l c) := inferInstanceAs (Decidable (∃ t ∈ _, _))

/-- A channel that was not hit reads as not triggered, one that was hit once as triggered if that
was within the timeout, and one that was hit again as triggered. -/
theorem triggered_readingOfHits_iff {us : List Nat} :
    (s.readingOfHits start us).triggered = true ↔
      ∃ t more, us = t :: more ∧ (ticksAt start t ≤ s.timeoutTicks ∨ more ≠ []) := by
  match us with
  | [] => simp [readingOfHits, Reading.triggered]
  | t :: [] =>
    by_cases h : s.timeoutTicks < ticksAt start t
    · simp [readingOfHits, Reading.triggered, h]
    · simp [readingOfHits, Reading.triggered, h, Nat.not_lt.mp h]
  | t :: u :: more => simp [readingOfHits, Reading.triggered]

/-- A hit in a tick before the window's last one comes before its planned end. -/
theorem lt_plannedEnd_of_ticksAt_lt {t : Nat} (h : ticksAt start t < s.windowTicks) :
    t < s.plannedEnd start := by
  unfold ticksAt at h
  rw [Nat.div_lt_iff_lt_mul (by decide), Nat.mul_comm] at h
  unfold plannedEnd
  omega

/-- A window is not completed without each of its channels. -/
theorem completed?_of_not_hit (hc : c ∈ s.watched d) (h : s.hits l c = []) :
    s.completed? d l = none := by
  rw [← Option.not_isSome_iff_eq_none, completed?_isSome_iff]
  exact fun h0 => h0.2 c hc h

/-- The first hit of a watched channel that a window takes comes before its planned end. -/
theorem first_hit_lt (hc : c ∈ s.watched d) {t : Nat} {more : List Nat}
    (h : s.hits (s.taken d start l) c = t :: more) : t < s.plannedEnd start := by
  induction l using List.reverseRecOn generalizing more with
  | nil => cases h
  | append_singleton l a ih =>
    rw [taken, List.foldl_append, List.foldl_cons, List.foldl_nil, ← taken, take] at h
    split at h
    · rename_i ha
      rw [hits_append] at h
      cases hbefore : s.hits (s.taken d start l) c with
      | cons u us =>
        rw [hbefore] at h
        cases h
        exact ih hbefore
      | nil =>
        rw [windowEnd_of_none (completed?_of_not_hit hc hbefore)] at ha
        rw [hbefore, List.nil_append] at h
        obtain ⟨b, hb, rfl⟩ := mem_hits (h ▸ List.mem_cons_self)
        rwa [List.mem_singleton.mp hb]
    · exact ih h

/-- The window takes a channel's first hit, or it has ended as planned by then. -/
theorem first_hit_taken (hl : l.Pairwise (·.1 ≤ ·.1)) (hc : c ∈ s.watched d) {t : Nat}
    {more : List Nat} (ht : s.hits l c = t :: more) :
    (∃ more', s.hits (s.taken d start l) c = t :: more') ∨
      (s.hits (s.taken d start l) c = [] ∧ s.plannedEnd start ≤ t) := by
  obtain ⟨late, he, hlate⟩ := @taken_split s d start l hl
  rw [he, hits_append] at ht
  cases htaken : s.hits (s.taken d start l) c with
  | cons u us =>
    rw [htaken] at ht
    cases ht
    exact .inl ⟨us, rfl⟩
  | nil =>
    rw [htaken, List.nil_append] at ht
    obtain ⟨b, hb, rfl⟩ := mem_hits (ht ▸ List.mem_cons_self)
    exact .inr ⟨rfl, windowEnd_of_none (completed?_of_not_hit hc htaken) ▸ hlate b hb⟩

/-- **A reading tells whether a channel was first hit within the timeout exactly if the channel is
not misjudged.** -/
theorem triggered_iff_prompt_iff (hl : l.Pairwise (·.1 ≤ ·.1)) (hc : c ∈ s.watched d) :
    ((s.readingOfHits start (s.hits (s.taken d start l) c)).triggered = true ↔
        s.Prompt start l c) ↔
      ¬ s.Misjudged d start l c := by
  unfold Prompt Misjudged
  rw [triggered_readingOfHits_iff]
  cases ht : s.hits l c with
  | nil =>
    obtain ⟨late, he, -⟩ := @taken_split s d start l hl
    rw [he, hits_append, List.append_eq_nil_iff] at ht
    simp [ht.1]
  | cons t more =>
    rcases @first_hit_taken s d start l c hl hc _ _ ht with ⟨more', htaken⟩ | ⟨htaken, hend⟩
    · -- a first hit that is taken comes before the window's last tick is over
      have hlt : ticksAt start t < s.windowTicks := ticksAt_lt (first_hit_lt hc htaken)
      have hlast : ¬ (0 < s.timeoutTicks ∧ s.bounceTicks = 0 ∧
          ticksAt start t = s.timeoutTicks) := by
        unfold windowTicks at hlt
        omega
      simp only [htaken, List.head?_cons, Option.mem_some_iff, exists_eq_left', hlast, or_false,
        List.length_cons]
      cases more' with
      | nil => simp
      | cons u us => simp
    · have hle : s.windowTicks ≤ ticksAt start t := by
        by_contra h
        exact absurd hend (Nat.not_le.mpr (lt_plannedEnd_of_ticksAt_lt (Nat.not_le.mp h)))
      unfold windowTicks at hle
      simp only [htaken, List.head?_cons, Option.mem_some_iff, exists_eq_left', List.length_nil,
        reduceCtorEq, false_and, exists_false, false_iff]
      omega

end CaptureSetup

/-! ## A pass of a check -/

/-- A check that is told of a pass counts it as triggered if all its channels' readings are. -/
theorem Check.triggers_told {k : Check} (hp : k.phase = .passing)
    (hne : k.order.setup.watched k.directions ≠ []) (f : Channel → Reading)
    {readings : List Reading}
    (hr : readings.take (k.order.setup.channelCount k.directions)
      = (k.order.setup.watched k.directions).map f) :
    (k.told .ok readings).triggers = k.triggers +
      if (k.order.setup.watched k.directions).all fun c => (f c).triggered then 1 else 0 := by
  have hcount : k.order.setup.channelCount k.directions ≠ 0 := by
    rw [← CaptureSetup.length_watched]
    exact fun h => hne (List.length_eq_zero_iff.mp h)
  unfold told counted
  rw [hp]
  simp only [if_true, hcount, if_false, hr, List.all_map]
  rfl

/-! ## What is collected -/

namespace Workbench

open Recorder

variable {s : CaptureSetup} {d : Directions} {w : Workbench}

/-- **A channel that is collected reads as triggered exactly if its first hit came within the
timeout, unless it is misjudged**, whatever comes in at whatever instants. A check counts a pass as
triggered exactly if this is so for all its channels. -/
theorem collected_triggered_iff {t : Recorder.Crowd.Trace} {c : Recorder.Crowd}
    (hc : Recorder.Crowd.Reaches t c) {armedAt : Nat} (hv : s.Valid)
    (hr : c.recorder.start? s d armedAt = some w.rig.recorder) (hq : w.Quiet)
    {l : List (Nat × CaptureInput)} (hl : l.Pairwise (·.1 ≤ ·.1)) (hlater : ∀ x ∈ l, w.now ≤ x.1)
    {start : Nat} {arrivals : List Arrival}
    (ho : CaptureInput.opening? l = some (start, arrivals)) {T : Nat}
    (hT : s.windowEnd d start arrivals ≤ T) {buffer : List Reading}
    (hroom : s.channelCount d ≤ buffer.length) :
    ∃ readings,
      ((w.fedTill l T).rig.recorder.finish? buffer).map (·.2) = some (.ok, readings) ∧
      (∀ c, s.enables c d = true → ∃ x, readings[s.rank d c.val]? = some x ∧
        ((x.triggered = true ↔ s.Prompt start arrivals c) ↔ ¬ s.Misjudged d start arrivals c)) ∧
      ∀ k : Check, k.phase = .passing → k.order.setup = s → k.directions = d → s.watched d ≠ [] →
        ((k.told .ok readings).triggers = k.triggers + 1 ↔
          ∀ c ∈ s.watched d,
            (s.Prompt start arrivals c ↔ ¬ s.Misjudged d start arrivals c)) := by
  have hwait := waiting_of_start? hc hr hq
  obtain ⟨⟨x, hx, hxs⟩, hfrom, hsorted⟩ := CaptureInput.opening?_order hl ho
  have hnow : w.now ≤ T := Nat.le_trans (hxs ▸ hlater x hx)
    (Nat.le_trans (CaptureSetup.start_le_windowEnd hfrom) hT)
  have hended := (recorder_at hwait hv hl hlater ho hnow).1 hT
  have hjudged {c : Channel} (hc : c ∈ s.watched d) :=
    @CaptureSetup.triggered_iff_prompt_iff s d start _ _ hsorted hc
  generalize hf : (fun c => s.readingOfHits start (s.hits (s.taken d start arrivals) c)) = f
    at hended
  have hf' (c : Channel) :
      s.readingOfHits start (s.hits (s.taken d start arrivals) c) = f c := congrFun hf c
  simp only [hf'] at hjudged
  have hlen : ((s.watched d).map f).length = s.channelCount d := by
    rw [List.length_map, CaptureSetup.length_watched]
  have hfront : (((s.watched d).map f ++ List.replicate buffer.length Reading.blank).take
      buffer.length).take (s.channelCount d) = (s.watched d).map f := by
    rw [List.take_take, Nat.min_eq_left hroom,
      List.take_append_of_le_length (Nat.le_of_eq hlen.symm),
      List.take_of_length_le (Nat.le_of_eq hlen)]
  refine ⟨_, hended.finish? buffer, fun c hc => ?_, fun k hp hs hd hne => ?_⟩
  · refine ⟨f c, ?_, hjudged (CaptureSetup.mem_watched.mpr hc)⟩
    have hrank := s.rank_lt d c hc
    rw [List.getElem?_take_of_lt (by omega), List.getElem?_append_left (by omega),
      s.getElem?_rank d f c hc]
  · subst hs hd
    rw [Check.triggers_told hp hne f hfront, Nat.add_left_cancel_iff, ite_eq_left_iff]
    simp only [Nat.zero_ne_one, imp_false, not_not, List.all_eq_true]
    refine forall₂_congr fun c hc => ?_
    have := hjudged hc
    grind

/-- One channel, on rising edges, with a bounce of ten ticks after five of the timeout. -/
def longBounce : CaptureSetup :=
  ⟨⟨⟨.both, .rising, "a"⟩, ⟨.none, .rising, "b"⟩⟩, 100, 200⟩

theorem collected_triggered_iff_longBounce :
    ∃ d r readings, Drive.ofPeriods .standard 1 = .ok d ∧
      Recorder.initial.start? longBounce .both 0 = some r ∧
      (((ofRig ⟨d, r, .empty⟩ ⟨1, 0⟩ .restart (.ruled 0 [])).fedTill
          [(0, .trigger), (50, .edge 0 .rising), (170, .edge 0 .rising)] 260).rig.recorder.finish?
            [.blank]).map (·.2) = some (.ok, readings) ∧
      ∃ x, readings[longBounce.rank .both 0]? = some x ∧ x.triggered = true := by
  obtain ⟨d, r, hd, hr⟩ : ∃ d r, Drive.ofPeriods .standard 1 = .ok d ∧
      Recorder.initial.start? longBounce .both 0 = some r := ⟨_, _, rfl, rfl⟩
  have ho : CaptureInput.opening? [(0, .trigger), (50, .edge 0 .rising), (170, .edge 0 .rising)]
      = some (0, [(50, 0, .rising), (170, 0, .rising)]) := rfl
  have hroom : longBounce.channelCount .both ≤ [Reading.blank].length := by decide
  obtain ⟨readings, hout, hread, -⟩ :=
    collected_triggered_iff (w := ofRig ⟨d, r, .empty⟩ ⟨1, 0⟩ .restart (.ruled 0 [])) (T := 260)
      (.start 0) (by decide) hr ⟨rfl, rfl, rfl⟩ (by decide) (fun x _ => Nat.zero_le x.1) ho
      (by decide) hroom
  obtain ⟨x, hx, hjudged⟩ := hread 0 (by decide)
  exact ⟨d, r, readings, hd, hr, hout, x, hx, (hjudged.mpr (by decide)).mpr (by decide)⟩

/-- A channel that is hit after the timeout only, twice, reads as triggered. -/
theorem exists_misjudged :
    ∃ d r, Drive.ofPeriods .standard 1 = .ok d ∧
      Recorder.initial.start? longBounce .both 0 = some r ∧
      ¬ longBounce.Prompt 0 [(150, 0, .rising), (170, 0, .rising)] 0 ∧
      ((((ofRig ⟨d, r, .empty⟩ ⟨1, 0⟩ .restart (.ruled 0 [])).fedTill
          [(0, .trigger), (150, .edge 0 .rising), (170, .edge 0 .rising)] 1000).rig.recorder.finish?
            [.blank]).map fun x => x.2.2.map (·.triggered)) = some [true] :=
  ⟨_, _, rfl, rfl, by decide, rfl⟩

end Workbench

end SwitchBench
