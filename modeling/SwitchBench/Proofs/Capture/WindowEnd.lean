import SwitchBench.Proofs.Capture.Inputs

/-!
# When a window ends

A window is to end as planned when its capture was armed, or earlier. The hit that completes it
stops the counter and starts it anew, and the part of a tick that had passed by then counts once
more. A window that is cut by a tick or more still ends before its planned end; one that is
completed too late to be cut overruns it by that part of a tick.

Results: `CaptureSetup.windowEnd_le_plannedEnd_iff` (which windows end by their planned end),
`CaptureSetup.windowEnd_of_overruns` (by how much the others overrun it),
`Workbench.ends_as_planned_iff` (the same of the timer of any capture, whatever comes in), and
`Workbench.exists_overrun` (a capture whose window is lengthened).
-/

namespace SwitchBench

namespace CaptureSetup

variable {s : CaptureSetup} {d : Directions} {start : Nat} {l : List Arrival}

/-- Is a window completed in the middle of a tick, and too late to be cut: with the ticks of the
timeout over, or with one tick in all? -/
def Overruns (s : CaptureSetup) (d : Directions) (start : Nat) (l : List Arrival) : Prop :=
  ∃ t, s.completed? d l = some t ∧ t < s.plannedEnd start ∧ ¬ Limits.tickUs ∣ t - start ∧
    (s.timeoutTicks ≤ ticksAt start t ∨ s.timeoutTicks + s.bounceTicks ≤ 1)

/-- A window is not cut if its timeout is over, or if it cannot be any shorter. -/
theorem cutTicks_eq_windowTicks_iff {t : Nat} (ht : t < s.plannedEnd start) :
    s.cutTicks start t = s.windowTicks ↔
      s.timeoutTicks ≤ ticksAt start t ∨ s.timeoutTicks + s.bounceTicks ≤ 1 := by
  have hlt := ticksAt_lt ht
  unfold cutTicks
  unfold windowTicks at hlt ⊢
  omega

/-- A window that is completed ends after its ticks and the part of a tick that is counted twice. -/
theorem windowEnd_of_completed {t : Nat} (h : s.completed? d l = some t) (hs : start ≤ t)
    (ht : t < s.plannedEnd start) :
    s.windowEnd d start l
      = start + Limits.tickUs * s.cutTicks start t + (t - start) % Limits.tickUs := by
  have hlt := ticksAt_lt ht
  obtain ⟨left, hleft⟩ : ∃ left, s.cutTicks start t = ticksAt start t + left :=
    Nat.exists_eq_add_of_le (by unfold cutTicks; omega)
  have hparts : Limits.tickUs * ticksAt start t + (t - start) % Limits.tickUs = t - start :=
    Nat.div_add_mod _ _
  rw [windowEnd_of_some h (Nat.le_of_lt ht), hleft, Nat.add_sub_cancel_left, Nat.mul_add]
  omega

/-- **A window that overruns its planned end does so by the part of a tick in which it was
completed.** -/
theorem windowEnd_of_overruns (hl : ∀ a ∈ l, start ≤ a.1) (h : s.Overruns d start l) :
    ∃ t, s.completed? d l = some t ∧
      s.windowEnd d start l = s.plannedEnd start + (t - start) % Limits.tickUs := by
  obtain ⟨t, hc, ht, -, hlate⟩ := h
  obtain ⟨a, ha, rfl⟩ := List.mem_map.mp (List.mem_of_find?_eq_some hc)
  refine ⟨_, hc, ?_⟩
  rw [windowEnd_of_completed hc (hl a ha) ht, (cutTicks_eq_windowTicks_iff ht).mpr hlate]
  rfl

/-- **A window ends by its planned end unless it is completed too late to be cut, in the middle of a
tick.** -/
theorem windowEnd_le_plannedEnd_iff (hl : ∀ a ∈ l, start ≤ a.1) :
    s.windowEnd d start l ≤ s.plannedEnd start ↔ ¬ s.Overruns d start l := by
  constructor
  · intro hle hover
    obtain ⟨t, hc, hend⟩ := windowEnd_of_overruns hl hover
    obtain ⟨u, hu, -, hpart, -⟩ := hover
    have hsame : u = t := Option.some.inj (hu.symm.trans hc)
    rw [hsame, Nat.dvd_iff_mod_eq_zero] at hpart
    omega
  · intro hover
    cases hc : s.completed? d l with
    | none => exact Nat.le_of_eq (windowEnd_of_none hc)
    | some t =>
      by_cases ht : t < s.plannedEnd start
      case neg =>
        rw [windowEnd, hc]
        exact Nat.le_of_eq (if_neg ht)
      case pos =>
        obtain ⟨a, ha, rfl⟩ := List.mem_map.mp (List.mem_of_find?_eq_some hc)
        have hpart : (a.1 - start) % Limits.tickUs < Limits.tickUs := Nat.mod_lt _ (by decide)
        have hcut : s.cutTicks start a.1 ≤ s.windowTicks := Nat.min_le_left _ _
        rw [windowEnd_of_completed hc (hl a ha) ht, plannedEnd, Nat.add_assoc]
        refine Nat.add_le_add_left ?_ start
        rcases Nat.lt_or_eq_of_le hcut with hlt | heq
        · -- a tick that is cut is longer than any part of one
          have := Nat.mul_le_mul_left Limits.tickUs hlt
          rw [Nat.mul_succ] at this
          omega
        · have hwhole : Limits.tickUs ∣ a.1 - start := by
            by_contra h
            exact hover ⟨_, hc, ht, h, (cutTicks_eq_windowTicks_iff ht).mp heq⟩
          rw [heq, Nat.mod_eq_zero_of_dvd hwhole]
          omega

/-- No window overruns its planned end by a tick. -/
theorem windowEnd_lt (hl : ∀ a ∈ l, start ≤ a.1) :
    s.windowEnd d start l < s.plannedEnd start + Limits.tickUs := by
  have htick : 0 < Limits.tickUs := by decide
  by_cases h : s.Overruns d start l
  · obtain ⟨t, -, hend⟩ := windowEnd_of_overruns hl h
    have := Nat.mod_lt (t - start) htick
    omega
  · have := (windowEnd_le_plannedEnd_iff hl).mpr h
    omega

end CaptureSetup

namespace Workbench

open Recorder

/-- Has the timer of a bench noted the end of its period? -/
def updated (w : Workbench) : Bool := w.rig.recorder.timer.status.update

variable {s : CaptureSetup} {d : Directions} {w : Workbench}

/-- The timer notes the end of its period when the window ends. -/
theorem Waiting.updated_iff (h : Waiting s d w) (hv : s.Valid) {l : List (Nat × CaptureInput)}
    (hl : l.Pairwise (·.1 ≤ ·.1)) (hlater : ∀ x ∈ l, w.now ≤ x.1) {start : Nat}
    {arrivals : List Arrival} (ho : CaptureInput.opening? l = some (start, arrivals)) {T : Nat}
    (hT : w.now ≤ T) :
    (w.fedTill l T).updated = true ↔ s.windowEnd d start arrivals ≤ T := by
  obtain ⟨hafter, hbefore⟩ := recorder_at h hv hl hlater ho hT
  refine ⟨fun hu => ?_, fun hend => (hafter hend).updated⟩
  by_contra hlt
  rcases hbefore (Nat.not_le.mp hlt) with hwait | ⟨seen, hrun⟩
  · obtain ⟨r₀, armedAt, -, -, hr⟩ := hwait.armed
    rw [updated, hr, arm, armTimer_eq] at hu
    cases hu
  · rw [updated, hrun.status] at hu
    cases hu

/-- **The update event of a capture comes by its planned end exactly if the window does not
overrun**, whatever comes in at whatever instants. It comes when the window ends, which is less than
a tick after the planned end in any case. -/
theorem ends_as_planned_iff {t : Recorder.Crowd.Trace} {c : Recorder.Crowd}
    (hc : Recorder.Crowd.Reaches t c) {armedAt : Nat} (hv : s.Valid)
    (hr : c.recorder.start? s d armedAt = some w.rig.recorder) (hq : w.Quiet)
    {l : List (Nat × CaptureInput)} (hl : l.Pairwise (·.1 ≤ ·.1)) (hlater : ∀ x ∈ l, w.now ≤ x.1)
    {start : Nat} {arrivals : List Arrival}
    (ho : CaptureInput.opening? l = some (start, arrivals)) :
    ((∀ T, s.plannedEnd start ≤ T → (w.fedTill l T).updated = true) ↔
      ¬ s.Overruns d start arrivals) ∧
    (∀ T, w.now ≤ T →
      ((w.fedTill l T).updated = true ↔ s.windowEnd d start arrivals ≤ T)) ∧
    s.windowEnd d start arrivals < s.plannedEnd start + Limits.tickUs := by
  have hwait := waiting_of_start? hc hr hq
  obtain ⟨⟨x, hx, hxs⟩, hfrom, -⟩ := CaptureInput.opening?_order hl ho
  have hplanned : w.now ≤ s.plannedEnd start :=
    Nat.le_trans (hxs ▸ hlater x hx) (Nat.le_add_right _ _)
  have hat (T : Nat) (hT : w.now ≤ T) := hwait.updated_iff hv hl hlater ho hT
  refine ⟨?_, hat, CaptureSetup.windowEnd_lt hfrom⟩
  rw [← CaptureSetup.windowEnd_le_plannedEnd_iff hfrom]
  exact ⟨fun h => (hat _ hplanned).mp (h _ (Nat.le_refl _)),
    fun h T hT => (hat T (Nat.le_trans hplanned hT)).mpr (Nat.le_trans h hT)⟩

/-- One channel, on rising edges, for a window of five ticks and a bounce of five more. -/
def oneRising : CaptureSetup :=
  ⟨⟨⟨.both, .rising, "a"⟩, ⟨.none, .rising, "b"⟩⟩, 100, 100⟩

theorem ends_as_planned_iff_oneRising :
    ∃ d r, Drive.ofPeriods .standard 1 = .ok d ∧
      Recorder.initial.start? oneRising .both 0 = some r ∧
      ((ofRig ⟨d, r, .empty⟩ ⟨1, 0⟩ .restart (.ruled 0 [])).fedTill
        [(7, .trigger), (57, .edge 0 .rising), (57, .trigger)] 206).updated = true := by
  refine ⟨_, _, rfl, rfl, ?_⟩
  have ho : CaptureInput.opening? [(7, .trigger), (57, .edge 0 .rising), (57, .trigger)]
      = some (7, [(57, 0, .rising)]) := rfl
  exact ((ends_as_planned_iff (.start 0) (by decide) rfl ⟨rfl, rfl, rfl⟩ (by decide) (by decide)
    ho).2.1 206 (by decide)).mpr (by decide)

/-- A window that is completed late, in the middle of a tick, is lengthened. -/
theorem exists_overrun :
    ∃ d r, Drive.ofPeriods .standard 1 = .ok d ∧
      Recorder.initial.start? oneRising .both 0 = some r ∧ oneRising.plannedEnd 0 = 200 ∧
      ((ofRig ⟨d, r, .empty⟩ ⟨1, 0⟩ .restart (.ruled 0 [])).fedTill
        [(0, .trigger), (150, .edge 0 .rising)] 200).updated = false :=
  ⟨_, _, rfl, rfl, rfl, rfl⟩

end Workbench

end SwitchBench
