import SwitchBench.Proofs.Capture.OneCapture
import SwitchBench.Proofs.Capture.Window
import SwitchBench.Workbench.Basic

/-!
# What a capture reads

A bench on which time goes by lets the end of the timer's period, the edges to come and the
messages happen one after the other, in the order of their time. While the window is open each edge
keeps it so, until the end of the period closes it, and from then on nothing changes the recorder.

Results: `due_cases` (what happens next while the timer runs), `elapseFor_of_open` (what a capture
has come to at any time), and `capture_reads_reference` (the readings of every capture are those
that the formula expects).
-/

namespace SwitchBench

namespace Workbench

open Recorder

/-! ## Things to come -/

/-- The first of things in the order of their time is the head of their list. -/
theorem firstOf_cons_of_pairwise {α : Type} {a : Nat × α} {l : List (Nat × α)}
    (h : (a :: l).Pairwise (·.1 < ·.1)) : firstOf (a :: l) = some a.1 := by
  induction l generalizing a with
  | nil => rfl
  | cons b l ih =>
    obtain ⟨h1, h2⟩ := List.pairwise_cons.mp h
    rw [firstOf, ih h2]
    exact congrArg some (Nat.min_eq_left (Nat.le_of_lt (h1 b List.mem_cons_self)))

/-- What happens first can be taken off its list. -/
theorem takeAt_of_firstOf {α : Type} {t : Nat} {l : List (Nat × α)} (h : firstOf l = some t) :
    ∃ a rest, takeAt t l = some (a, rest) ∧ rest.length + 1 = l.length := by
  induction l with
  | nil => cases h
  | cons x l ih =>
    obtain ⟨u, a⟩ := x
    unfold takeAt
    by_cases hu : u = t
    · exact ⟨a, l, by rw [if_pos hu], rfl⟩
    · rw [if_neg hu]
      have hl : firstOf l = some t := by
        rw [firstOf, Option.some.injEq] at h
        cases hf : firstOf l with
        | none => rw [hf] at h; exact absurd h hu
        | some v =>
          rw [hf] at h
          simp only at h
          congr 1
          omega
      obtain ⟨b, rest, hb, hlen⟩ := ih hl
      exact ⟨b, (u, a) :: rest, by rw [hb]; rfl, by simp only [List.length_cons]; omega⟩

/-- While the timer runs, what happens next is the end of its period, an edge or a message. -/
theorem due_cases {w : Workbench} {e : Nat} (he : w.rig.recorder.timer.expiry = some e)
    (hs : w.edges.Pairwise (·.1 < ·.1)) :
    (w.due = some (e, .expiry) ∧ ∀ a ∈ w.edges, e ≤ a.1) ∨
    (∃ a rest, w.edges = a :: rest ∧ w.due = some (a.1, .edge) ∧ a.1 < e) ∨
    (∃ u, firstOf w.messages = some u ∧ w.due = some (u, .message) ∧ u < e ∧
      ∀ a ∈ w.edges, u ≤ a.1) := by
  unfold due
  rw [he, Option.map_some]
  cases hedges : w.edges with
  | nil =>
    have hnil : ∀ {t : Nat}, ∀ a ∈ ([] : List Arrival), t ≤ a.1 :=
      fun _ h => (List.not_mem_nil h).elim
    cases hm : firstOf w.messages with
    | none => exact Or.inl ⟨rfl, hnil⟩
    | some u =>
      by_cases hu : e ≤ u
      · refine Or.inl ⟨?_, hnil⟩
        simp only [firstOf, Option.map_none, Option.map_some, earlier, if_pos hu]
      · refine Or.inr (Or.inr ⟨u, rfl, ?_, Nat.not_le.mp hu, hnil⟩)
        simp only [firstOf, Option.map_none, Option.map_some, earlier, if_neg hu]
  | cons a rest =>
    rw [hedges] at hs
    have hle : ∀ b ∈ a :: rest, a.1 ≤ b.1 := fun b hb => by
      rcases List.mem_cons.mp hb with rfl | hb
      · exact Nat.le_refl _
      · exact Nat.le_of_lt ((List.pairwise_cons.mp hs).1 b hb)
    rw [firstOf_cons_of_pairwise hs]
    -- an edge goes before a message of the same instant, and after the end of a period
    by_cases hmsg : ∃ u, firstOf w.messages = some u ∧ u < a.1
    · obtain ⟨u, hm, hua⟩ := hmsg
      have hnext : earlier ((some a.1).map (·, Due.edge))
          ((firstOf w.messages).map (·, .message)) = some (u, .message) := by
        simp only [hm, Option.map_some, earlier, if_neg (Nat.not_le.mpr hua)]
      rw [hnext]
      by_cases hu : e ≤ u
      · refine Or.inl ⟨?_, fun b hb => ?_⟩
        · simp only [earlier, if_pos hu]
        · exact Nat.le_trans hu (Nat.le_trans (Nat.le_of_lt hua) (hle b hb))
      · refine Or.inr (Or.inr ⟨u, hm, ?_, Nat.not_le.mp hu, fun b hb => ?_⟩)
        · simp only [earlier, if_neg hu]
        · exact Nat.le_trans (Nat.le_of_lt hua) (hle b hb)
    · have hnext : earlier ((some a.1).map (·, Due.edge))
          ((firstOf w.messages).map (·, .message)) = some (a.1, .edge) := by
        cases hm : firstOf w.messages with
        | none => rfl
        | some u =>
          have hua : a.1 ≤ u := Nat.not_lt.mp fun h0 => hmsg ⟨u, hm, h0⟩
          simp only [Option.map_some, earlier, if_pos hua]
      rw [hnext]
      by_cases hea : e ≤ a.1
      · refine Or.inl ⟨?_, fun b hb => Nat.le_trans hea (hle b hb)⟩
        simp only [earlier, if_pos hea]
      · refine Or.inr (Or.inl ⟨a, rest, rfl, ?_, Nat.not_le.mp hea⟩)
        simp only [earlier, if_neg hea]

/-! ## What happens -/

/-- Without a sampler nobody reacts to what happens. -/
theorem attend_of_no_sampler {w : Workbench} (h : w.sampler = none) : w.attend = w := by
  have hstep : w.sampleStep? = none := by
    unfold sampleStep?
    rw [h]
    rfl
  unfold attend attention
  rw [show 16 * (Limits.inboxDepth + 8) = 383 + 1 from rfl, attendFor, hstep]

theorem happen_expiry {w : Workbench} (h : w.sampler = none) (t : Nat) :
    w.happen t .expiry = { w with
      now := max w.now t
      rig := { w.rig with recorder := w.rig.recorder.expire t (max w.now t) }
      notes := .timerPeriodEnded :: w.notes } :=
  attend_of_no_sampler h

/-- An edge goes to the recorder if there is a channel for it. -/
theorem happen_edge {w : Workbench} (h : w.sampler = none) {a : Arrival} {rest : List Arrival}
    (he : w.edges = a :: rest) :
    w.happen a.1 .edge = { w with
      now := max w.now a.1
      edges := rest
      rig := { w.rig with recorder :=
        match Channel.ofNat? a.2.1 with
        | some c => (w.rig.recorder.edge c a.2.2 (max w.now a.1)).1
        | none => w.rig.recorder } } := by
  obtain ⟨t, n, e⟩ := a
  unfold happen
  simp only [he, takeAt, if_true, injectEdge]
  cases hc : Channel.ofNat? n with
  | none => exact attend_of_no_sampler h
  | some c => exact attend_of_no_sampler h

/-- A message goes to the inbox. -/
theorem happen_message {w : Workbench} (h : w.sampler = none) {t : Nat}
    (ht : firstOf w.messages = some t) :
    ∃ m rest, rest.length + 1 = w.messages.length ∧
      w.happen t .message = { w with
        now := max w.now t
        messages := rest
        rig := { w.rig with inbox := (w.rig.inbox.push m).1 } } := by
  obtain ⟨m, rest, hm, hlen⟩ := takeAt_of_firstOf ht
  refine ⟨m, rest, hlen, ?_⟩
  unfold happen
  simp only [hm]
  exact attend_of_no_sampler h

/-- Nothing that happens changes a recorder whose capture has ended. -/
theorem happen_of_closed {w : Workbench} (h : w.sampler = none) {readings : List Reading}
    (hc : Closed readings w.rig.recorder) {t : Nat} {d : Due} (hd : w.due = some (t, d)) :
    (w.happen t d).rig.recorder = w.rig.recorder ∧ (w.happen t d).sampler = none := by
  have hattend {w' : Workbench} (hr : w'.rig.recorder = w.rig.recorder)
      (hs : w'.sampler = none) :
      w'.attend.rig.recorder = w.rig.recorder ∧ w'.attend.sampler = none := by
    rw [attend_of_no_sampler hs]
    exact ⟨hr, hs⟩
  cases d with
  | expiry =>
    have hnone : w.rig.recorder.timer.expiry = none := by
      rw [Timer.Registers.expiry, hc.since]
    unfold due at hd
    rw [hnone] at hd
    cases he : firstOf w.edges <;> cases hm : firstOf w.messages <;>
      simp only [he, hm, Option.map_none, Option.map_some, earlier, reduceCtorEq] at hd
    · cases hd
    · cases hd
    · split at hd <;> cases hd
  | edge =>
    unfold happen
    simp only
    split
    · exact hattend rfl h
    · rename_i n e rest _
      unfold injectEdge
      cases Channel.ofNat? n with
      | none => exact hattend rfl h
      | some c => exact hattend (hc.edge c e _) h
  | message =>
    unfold happen
    simp only
    split <;> exact hattend rfl h

/-! ## Time goes by -/

theorem elapseFor_of_closed {readings : List Reading} (T : Nat) (n : Nat) {w : Workbench}
    (h : w.sampler = none) (hc : Closed readings w.rig.recorder) :
    Closed readings (elapseFor n T w).rig.recorder := by
  induction n generalizing w with
  | zero => exact hc
  | succ n ih =>
    unfold elapseFor
    split
    · rename_i t d hd
      split
      · obtain ⟨h1, h2⟩ := happen_of_closed h hc hd
        exact ih h2 (by rwa [h1])
      · exact hc
    · exact hc

/-- While edges that are to come arrive in order, a capture whose window has ended has the readings
that the formula expects, and one whose window has not is open. -/
theorem elapseFor_of_open {s : CaptureSetup} {d : Directions} {start T : Nat} (hv : s.Valid)
    (n : Nat) {seen : List Arrival} {w : Workbench} (h : w.sampler = none)
    (ho : Open s d start seen w.rig.recorder) (hs : w.edges.Pairwise (·.1 < ·.1))
    (hl : Earlier seen w.edges) (hstart : start ≤ w.now) (hnow : ∀ a ∈ w.edges, w.now ≤ a.1)
    (hn : w.edges.length + w.messages.length + 1 ≤ n) :
    (s.windowEnd d start (seen ++ w.edges) ≤ T →
      Closed ((s.watched d).map (s.expectedReading d start (seen ++ w.edges)))
        (elapseFor n T w).rig.recorder) ∧
    (T < s.windowEnd d start (seen ++ w.edges) →
      ∃ seen', Open s d start seen' (elapseFor n T w).rig.recorder) := by
  induction n generalizing seen w with
  | zero => omega
  | succ n ih =>
    unfold elapseFor
    rcases due_cases ho.expiry_eq hs with
      ⟨hd, hlate⟩ | ⟨a, rest, he, hd, hlt⟩ | ⟨u, hm, hd, hlt, hle⟩
    · -- the period ends before any edge arrives
      have hwin : s.windowEnd d start (seen ++ w.edges) = s.windowEnd d start seen :=
        CaptureSetup.windowEnd_append_of_late hl.noLater hlate
      rw [hd]
      simp only
      split
      · rename_i hle
        refine ⟨fun _ => ?_, fun h0 => absurd hle (Nat.not_le.mpr (hwin ▸ h0))⟩
        refine elapseFor_of_closed T n ?_ ?_
        · rw [happen_expiry h]
          exact h
        · rw [happen_expiry h]
          have hexp : (s.watched d).map (s.expectedReading d start (seen ++ w.edges))
              = (s.watched d).map fun c => s.readingOfHits start (s.hits seen c) :=
            List.map_congr_left fun c _ =>
              CaptureSetup.expectedReading_append hl ho.inWindow hlate c
          rw [hexp]
          exact ho.expire hv _ _
      · rename_i hle
        exact ⟨fun h0 => absurd (hwin ▸ h0) hle, fun _ => ⟨seen, ho⟩⟩
    · -- an edge arrives
      rw [hd]
      simp only
      have hmem : a ∈ w.edges := he ▸ List.mem_cons_self
      have hfirst : ∀ b ∈ rest, a.1 < b.1 := (List.pairwise_cons.mp (he ▸ hs)).1
      split
      · have hwhen : max w.now a.1 = a.1 := Nat.max_eq_right (hnow a hmem)
        have hla : Earlier seen [a] := fun b hb c hc => by
          rw [List.mem_singleton.mp hc]
          exact hl b hb a hmem
        have hstart' : start ≤ a.1 := Nat.le_trans hstart (hnow a hmem)
        have hopen := ho.arrive hv hla hstart' hlt
        have hhap := happen_edge h he
        rw [hwhen] at hhap
        have hafter := @ih (seen ++ [a]) (w.happen a.1 .edge)
        rw [hhap] at hafter ⊢
        rw [he, List.append_cons]
        rw [he] at hs hl hn
        refine hafter h hopen (List.pairwise_cons.mp hs).2 (fun b hb c hc => ?_) hstart'
          (fun b hb => Nat.le_of_lt (hfirst b hb)) ?_
        · rcases List.mem_append.mp hb with hb | hb
          · exact hl b hb c (List.mem_cons_of_mem _ hc)
          · rw [List.mem_singleton.mp hb]
            exact hfirst c hc
        · simp only [List.length_cons] at hn ⊢
          omega
      · rename_i hgt
        have hT : T < s.windowEnd d start (seen ++ w.edges) :=
          CaptureSetup.lt_windowEnd_append hl.noLater
              (Nat.lt_trans (Nat.not_le.mp hgt) hlt) fun b hb => by
            rw [he] at hb
            rcases List.mem_cons.mp hb with rfl | hb
            · exact Nat.not_le.mp hgt
            · exact Nat.lt_trans (Nat.not_le.mp hgt) (hfirst b hb)
        exact ⟨fun h0 => absurd h0 (Nat.not_le.mpr hT), fun _ => ⟨seen, ho⟩⟩
    · -- a message arrives
      rw [hd]
      simp only
      split
      · rename_i hle'
        obtain ⟨m, rest, hlen, hhap⟩ := happen_message h hm
        have hafter := @ih seen (w.happen u .message)
        rw [hhap] at hafter ⊢
        refine hafter h ho hs hl ?_ (fun a ha => ?_) ?_
        · exact Nat.le_trans hstart (Nat.le_max_left _ _)
        · exact Nat.max_le.mpr ⟨hnow a ha, hle a ha⟩
        · simp only
          omega
      · rename_i hgt
        have hT : T < s.windowEnd d start (seen ++ w.edges) :=
          CaptureSetup.lt_windowEnd_append hl.noLater
              (Nat.lt_trans (Nat.not_le.mp hgt) hlt) fun b hb =>
            Nat.lt_of_lt_of_le (Nat.not_le.mp hgt) (hle b hb)
        exact ⟨fun h0 => absurd h0 (Nat.not_le.mpr hT), fun _ => ⟨seen, ho⟩⟩

/-! ## Every capture -/

/-- A capture that was started has not ended yet. -/
theorem done_of_start? {t : Recorder.Crowd.Trace} {c : Recorder.Crowd}
    (hc : Recorder.Crowd.Reaches t c) {s : CaptureSetup} {d : Directions} {armedAt : Nat}
    {r : Recorder} (hr : c.recorder.start? s d armedAt = some r) :
    ∃ r₀ : Recorder, r = r₀.arm s d armedAt ∧ r₀.done.count = 0 ∧ r₀.done.limit = 1 := by
  have hsound := Recorder.Crowd.sound_of_reaches hc
  unfold start? takePermit? at hr
  rw [Option.map_map, Option.map_eq_some_iff] at hr
  obtain ⟨p, hp, rfl⟩ := hr
  refine ⟨{ c.recorder with available := p }, rfl, ?_, hsound.done_limit⟩
  have hcount := Semaphore.count_of_take? hp
  have hpermit := hsound.permit
  unfold Recorder.Crowd.permits at hpermit
  show c.recorder.done.count = 0
  omega

/-- **Every capture has the readings that the formula expects.** A capture is started in any state
that a recorder can come to, a trigger opens its window, edges come to any channels at later and
later instants, and nobody aborts it. Once its window has ended it can be collected, with the
expected readings, into a buffer of any length; before that it cannot. -/
theorem capture_reads_reference {t : Recorder.Crowd.Trace} {c : Recorder.Crowd}
    (hc : Recorder.Crowd.Reaches t c) {s : CaptureSetup} {d : Directions} {armedAt : Nat}
    (hv : s.Valid) {w : Workbench}
    (hr : c.recorder.start? s d armedAt = some w.rig.recorder) (hn : w.sampler = none)
    (hs : w.edges.Pairwise (·.1 < ·.1)) (hlater : ∀ a ∈ w.edges, w.now < a.1) (T : Nat)
    (buffer : List Reading) :
    w.injectTrigger.2 = true ∧
    (s.windowEnd d w.now w.edges ≤ T →
      ((w.injectTrigger.1.elapse T).rig.recorder.finish? buffer).map (·.2)
        = some (.ok, s.expectedBuffer d w.now w.edges buffer.length)) ∧
    (T < s.windowEnd d w.now w.edges →
      (w.injectTrigger.1.elapse T).rig.recorder.finish? buffer = none) := by
  obtain ⟨r₀, h1, h2, h3⟩ := done_of_start? hc hr
  obtain ⟨hstarted, hopen⟩ := @open_trigger s d w.now r₀ h2 h3 armedAt
  rw [← h1] at hstarted hopen
  have hfuel : w.edges.length + w.messages.length + 1
      ≤ (T - w.now) / Limits.tickUs + 2 * w.edges.length + w.messages.length + 8 := by
    generalize (T - w.now) / Limits.tickUs = periods
    omega
  obtain ⟨hclosed, hstill⟩ := @elapseFor_of_open s d w.now T hv _ [] w.injectTrigger.1 hn hopen hs
    (fun _ h0 => (List.not_mem_nil h0).elim) (Nat.le_refl _)
    (fun a ha => Nat.le_of_lt (hlater a ha)) hfuel
  refine ⟨hstarted, fun hT => ?_, fun hT => ?_⟩
  · exact (hclosed hT).finish? buffer
  · obtain ⟨seen, hseen⟩ := hstill hT
    exact hseen.finish? buffer

/-- Both channels, on rising edges, for a window of a millisecond and a bounce of a tenth of one. -/
def bothRising : CaptureSetup :=
  ⟨⟨⟨.both, .rising, "a"⟩, ⟨.both, .rising, "b"⟩⟩, 1000, 100⟩

/-- A bench at rest with a recorder, and edges to come: one channel is hit twice, then the other,
and once more after the window. -/
def restingBench (d : Drive) (r : Recorder) : Workbench :=
  { ofRig ⟨d, r, .empty⟩ ⟨1, 0⟩ .restart (.ruled 0 []) with
    edges := [(130, 0, .rising), (135, 0, .falling), (170, 0, .rising), (255, 1, .rising),
      (400, 1, .rising)] }

theorem capture_reads_reference_bothRising :
    ∃ d r, Drive.ofPeriods .standard 1 = .ok d ∧
      Recorder.initial.start? bothRising .upward 0 = some r ∧
      (((restingBench d r).injectTrigger.1.elapse 355).rig.recorder.finish?
          (List.replicate 3 .blank)).map (·.2)
        = some (.ok, [⟨.overcapture, 120⟩, ⟨.ok, 240⟩, .blank]) := by
  refine ⟨_, _, rfl, rfl, ?_⟩
  exact (capture_reads_reference (w := restingBench _ _) (.start 0) (by decide) rfl rfl
    (by decide) (by decide) 355 _).2.1 (by decide)

end Workbench

end SwitchBench
