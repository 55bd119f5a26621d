import Mathlib.Data.List.Find
import SwitchBench.Capture.Channel
import SwitchBench.Capture.Setup

/-!
# What a capture is to read

The readings of a capture from the edges that arrived after its trigger, as a formula: which edges
hit which channel, when every watched channel has been hit, when the window ends, and what each
channel reads then. Nothing here knows of a timer.

A window that every watched channel was hit in ends one bounce after the hit that completed it, if
that is earlier than planned. The count of the ticks starts anew at that hit: the part of a tick
that had passed by then does not count.

Results: what the formula says of a list of arrivals that grows (`completed?_append_of_some`,
`windowEnd_append_of_some`, `windowEnd_append_of_late`, `lt_windowEnd_append`).
-/

namespace SwitchBench

/-- An edge that arrives: when, at which input, and which. -/
abbrev Arrival := Nat × Nat × Edge

theorem Channel.mem_all (c : Channel) : c ∈ Channel.all := by
  match c with
  | 0 => exact List.mem_cons_self
  | 1 => exact List.mem_cons_of_mem _ List.mem_cons_self

/-- Do all arrivals of one list come before those of another? -/
def Earlier (l l' : List Arrival) : Prop := ∀ a ∈ l, ∀ b ∈ l', a.1 < b.1

/-- Does no arrival of one list come at a later instant than one of another? -/
def NoLater (l l' : List Arrival) : Prop := ∀ a ∈ l, ∀ b ∈ l', a.1 ≤ b.1

theorem Earlier.noLater {l l' : List Arrival} (h : Earlier l l') : NoLater l l' :=
  fun a ha b hb => Nat.le_of_lt (h a ha b hb)

namespace CaptureSetup

variable (s : CaptureSetup) (d : Directions) (start : Nat) (l : List Arrival)

/-- The channels that a capture in some directions watches, in order. -/
def watched : List Channel := Channel.all.filter (s.enables · d)

/-- When edges of a channel's polarity arrived at it. -/
def hits (c : Channel) : List Nat :=
  (l.filter fun a => a.2.1 = c.val ∧ a.2.2 = (s.channels.get c).edge).map (·.1)

/-- Had every watched channel, if there is one, been hit by some time? -/
def CompleteBy (t : Nat) : Prop :=
  s.watched d ≠ [] ∧ ∀ c ∈ s.watched d, ∃ u ∈ s.hits l c, u ≤ t

instance (t : Nat) : Decidable (s.CompleteBy d l t) := inferInstanceAs (Decidable (_ ∧ _))

/-- When the last of the watched channels was hit for the first time. -/
def completed? : Option Nat := (l.map (·.1)).find? fun t => s.CompleteBy d l t

/-- The count at some time of a window that started at another. -/
def ticksAt (t : Nat) : Nat := (t - start) / Limits.tickUs

/-- When the window is to end. -/
def plannedEnd : Nat := start + Limits.tickUs * s.windowTicks

/-- The ticks of a window that was completed at some time. -/
def cutTicks (t : Nat) : Nat :=
  min s.windowTicks (max 1 (ticksAt start t + s.bounceTicks))

/-- When the window ends: one bounce after it was completed, or as planned. -/
def windowEnd : Nat :=
  match s.completed? d l with
  | some t =>
    if t < s.plannedEnd start then
      t + Limits.tickUs * (s.cutTicks start t - ticksAt start t)
    else s.plannedEnd start
  | none => s.plannedEnd start

/-- Is an instant in the window? The hit that completes it is, even if it ends the window. -/
def InWindow (t : Nat) : Prop :=
  t < s.windowEnd d start l ∨ (t < s.plannedEnd start ∧ s.completed? d l = some t)

instance (t : Nat) : Decidable (s.InWindow d start l t) := inferInstanceAs (Decidable (_ ∨ _))

/-- What a channel reads that was hit in the window at some times. -/
def readingOfHits : List Nat → Reading
  | [] => ⟨.timeout, Limits.noValueUs⟩
  | t :: more =>
    { status :=
        if more ≠ [] then .overcapture
        else if s.timeoutTicks < ticksAt start t then .timeout
        else .ok
      valueUs := Limits.tickUs * ticksAt start t }

/-- What a channel reads. -/
def expectedReading (c : Channel) : Reading :=
  s.readingOfHits start ((s.hits l c).filter (s.InWindow d start l ·))

/-- What a result buffer of some length holds: the readings of the watched channels, densely from
its start, and blanks. -/
def expectedBuffer (length : Nat) : List Reading :=
  ((s.watched d).map (s.expectedReading d start l)
    ++ List.replicate length Reading.blank).take length

/-! ## A list of arrivals that grows -/

variable {s d start l}

theorem mem_watched {c : Channel} : c ∈ s.watched d ↔ s.enables c d = true := by
  unfold watched
  rw [List.mem_filter]
  exact and_iff_right (Channel.mem_all c)

theorem hits_append (l l' : List Arrival) (c : Channel) :
    s.hits (l ++ l') c = s.hits l c ++ s.hits l' c := by
  unfold hits
  rw [List.filter_append, List.map_append]

theorem hits_append_of_hit {a : Arrival} {c : Channel} (hi : a.2.1 = c.val)
    (he : a.2.2 = (s.channels.get c).edge) : s.hits (l ++ [a]) c = s.hits l c ++ [a.1] := by
  rw [hits_append]
  congr 1
  unfold hits
  rw [@List.filter_cons_of_pos _ _ a [] (decide_eq_true ⟨hi, he⟩)]
  rfl

theorem hits_append_of_miss {a : Arrival} {c : Channel}
    (h : ¬(a.2.1 = c.val ∧ a.2.2 = (s.channels.get c).edge)) :
    s.hits (l ++ [a]) c = s.hits l c := by
  rw [hits_append]
  unfold hits
  rw [@List.filter_cons_of_neg _ _ a [] (by simpa using h)]
  exact List.append_nil _

theorem mem_hits {t : Nat} {c : Channel} (h : t ∈ s.hits l c) : ∃ a ∈ l, a.1 = t := by
  obtain ⟨a, ha, rfl⟩ := List.mem_map.mp h
  exact ⟨a, (List.mem_filter.mp ha).1, rfl⟩

theorem completeBy_append {l' : List Arrival} {t : Nat} (h : ∀ b ∈ l', t < b.1) :
    s.CompleteBy d (l ++ l') t ↔ s.CompleteBy d l t := by
  unfold CompleteBy
  refine and_congr_right fun _ => forall₂_congr fun c _ => ?_
  rw [hits_append]
  constructor
  · rintro ⟨u, hu, hut⟩
    rcases List.mem_append.mp hu with hu | hu
    · exact ⟨u, hu, hut⟩
    · obtain ⟨b, hb, rfl⟩ := mem_hits hu
      exact absurd (h b hb) (Nat.not_lt.mpr hut)
  · rintro ⟨u, hu, hut⟩
    exact ⟨u, List.mem_append_left _ hu, hut⟩

/-- The window is completed by arrivals that hit every watched channel. -/
theorem completed?_isSome_iff :
    (s.completed? d l).isSome ↔ s.watched d ≠ [] ∧ ∀ c ∈ s.watched d, s.hits l c ≠ [] := by
  unfold completed?
  rw [List.find?_isSome]
  constructor
  · rintro ⟨t, -, ht⟩
    obtain ⟨h1, h2⟩ := of_decide_eq_true ht
    refine ⟨h1, fun c hc h0 => ?_⟩
    obtain ⟨u, hu, -⟩ := h2 c hc
    rw [h0] at hu
    cases hu
  · rintro ⟨h1, h2⟩
    obtain ⟨c, hc⟩ := List.exists_mem_of_ne_nil _ h1
    obtain ⟨u, hu⟩ := List.exists_mem_of_ne_nil _ (h2 c hc)
    obtain ⟨a, ha, -⟩ := mem_hits hu
    have hne : (l.map (·.1)) ≠ [] := by
      intro h0
      rw [List.map_eq_nil_iff.mp h0] at ha
      cases ha
    -- the latest arrival comes after every hit
    obtain ⟨m, hm⟩ := Option.isSome_iff_exists.mp (List.isSome_max?_of_ne_nil hne)
    obtain ⟨hmem, hle⟩ := List.max?_eq_some_iff.mp hm
    refine ⟨m, hmem, decide_eq_true ⟨h1, fun c hc => ?_⟩⟩
    obtain ⟨u, hu⟩ := List.exists_mem_of_ne_nil _ (h2 c hc)
    obtain ⟨b, hb, rfl⟩ := mem_hits hu
    exact ⟨b.1, hu, hle _ (List.mem_map_of_mem hb)⟩

/-- Arrivals that follow complete a window by an instant of those before them only if one comes at
that very instant. -/
theorem completeBy_of_append {l' : List Arrival} (h : NoLater l l') {a : Arrival} (ha : a ∈ l)
    (hc : s.CompleteBy d (l ++ l') a.1) : s.CompleteBy d l a.1 ∨ ∃ b ∈ l', b.1 = a.1 := by
  by_cases hlater : ∀ b ∈ l', a.1 < b.1
  · exact Or.inl ((completeBy_append hlater).mp hc)
  · push Not at hlater
    obtain ⟨b, hb, hle⟩ := hlater
    exact Or.inr ⟨b, hb, Nat.le_antisymm hle (h a ha b hb)⟩

/-- More arrivals do not undo the completion of a window. -/
theorem completed?_append_of_some {l' : List Arrival} (h : NoLater l l') {t : Nat}
    (ht : s.completed? d l = some t) : s.completed? d (l ++ l') = some t := by
  have hsame : ∀ u ∈ l.map (·.1), (decide (s.CompleteBy d (l ++ l') u)) =
      decide (s.CompleteBy d l u) := by
    intro u hu
    obtain ⟨a, ha, rfl⟩ := List.mem_map.mp hu
    refine decide_eq_decide.mpr ⟨fun hc => ?_, fun hc => ⟨hc.1, fun c hw => ?_⟩⟩
    · rcases completeBy_of_append h ha hc with hc | ⟨b, hb, he⟩
      · exact hc
      · -- then nothing before comes after that instant, and all of it together is complete
        obtain ⟨h1, h2⟩ := completed?_isSome_iff.mp (Option.isSome_of_eq_some ht)
        refine ⟨h1, fun c hw => ?_⟩
        obtain ⟨u, hu⟩ := List.exists_mem_of_ne_nil _ (h2 c hw)
        obtain ⟨x, hx, rfl⟩ := mem_hits hu
        exact ⟨x.1, hu, he ▸ h x hx b hb⟩
    · obtain ⟨u, hu, hle⟩ := hc.2 c hw
      exact ⟨u, by rw [hits_append]; exact List.mem_append_left _ hu, hle⟩
  unfold completed? at ht ⊢
  rw [List.map_append, List.find?_append, List.find?_congr hsame, ht]
  rfl

/-- A window that more arrivals complete is completed by one of them. -/
theorem mem_of_completed?_append {l' : List Arrival} (h : NoLater l l') {t : Nat}
    (hl : s.completed? d l = none) (ht : s.completed? d (l ++ l') = some t) :
    ∃ b ∈ l', b.1 = t := by
  unfold completed? at hl ht
  have hc : s.CompleteBy d (l ++ l') t := by simpa using List.find?_some ht
  obtain ⟨b, hb, rfl⟩ := List.mem_map.mp (List.mem_of_find?_eq_some ht)
  rcases List.mem_append.mp hb with hb | hb
  · rcases completeBy_of_append h hb hc with hc | hlate
    · have hnone := List.find?_eq_none.mp hl b.1 (List.mem_map_of_mem hb)
      exact absurd (decide_eq_true hc) hnone
    · exact hlate
  · exact ⟨b, hb, rfl⟩

theorem windowTicks_pos : 0 < s.windowTicks := by
  unfold windowTicks
  omega

/-- Before the planned end the window has ticks left. -/
theorem ticksAt_lt {t : Nat} (ht : t < s.plannedEnd start) : ticksAt start t < s.windowTicks := by
  unfold plannedEnd at ht
  unfold ticksAt
  rw [Nat.div_lt_iff_lt_mul (by decide), Nat.mul_comm]
  have hpos : 0 < Limits.tickUs * s.windowTicks := Nat.mul_pos (by decide) windowTicks_pos
  omega

/-- At the planned end the ticks of the window have passed. -/
theorem ticksAt_plannedEnd : ticksAt start (s.plannedEnd start) = s.windowTicks := by
  unfold ticksAt plannedEnd
  rw [Nat.add_sub_cancel_left, Nat.mul_div_cancel_left _ (by decide)]

theorem ticksAt_le {t : Nat} (ht : t ≤ s.plannedEnd start) :
    ticksAt start t ≤ s.windowTicks := by
  rcases Nat.lt_or_eq_of_le ht with hlt | rfl
  · exact Nat.le_of_lt (ticksAt_lt hlt)
  · exact Nat.le_of_eq ticksAt_plannedEnd

theorem windowEnd_of_none (h : s.completed? d l = none) :
    s.windowEnd d start l = s.plannedEnd start := by
  rw [windowEnd, h]

theorem windowEnd_of_some {t : Nat} (h : s.completed? d l = some t) (ht : t ≤ s.plannedEnd start) :
    s.windowEnd d start l = t + Limits.tickUs * (s.cutTicks start t - ticksAt start t) := by
  rw [windowEnd, h]
  rcases Nat.lt_or_eq_of_le ht with hlt | rfl
  · exact if_pos hlt
  · -- a window that is completed at its planned end has no ticks left to cut
    have hcut : s.cutTicks start (s.plannedEnd start) ≤ s.windowTicks := Nat.min_le_left _ _
    simp only [Nat.lt_irrefl, if_false, ticksAt_plannedEnd, Nat.sub_eq_zero_of_le hcut,
      Nat.mul_zero, Nat.add_zero]

theorem windowEnd_append_of_some {l' : List Arrival} (h : NoLater l l') {t : Nat}
    (ht : s.completed? d l = some t) :
    s.windowEnd d start (l ++ l') = s.windowEnd d start l := by
  rw [windowEnd, windowEnd, ht, completed?_append_of_some h ht]

/-- Arrivals after the end of a window do not move it. -/
theorem windowEnd_append_of_late {l' : List Arrival} (h : NoLater l l')
    (hlate : ∀ b ∈ l', s.windowEnd d start l ≤ b.1) :
    s.windowEnd d start (l ++ l') = s.windowEnd d start l := by
  cases hl : s.completed? d l with
  | some t => exact windowEnd_append_of_some h hl
  | none =>
    rw [windowEnd_of_none hl] at hlate ⊢
    cases ht : s.completed? d (l ++ l') with
    | none => exact windowEnd_of_none ht
    | some t =>
      obtain ⟨b, hb, rfl⟩ := mem_of_completed?_append h hl ht
      rw [windowEnd, ht]
      exact if_neg (Nat.not_lt.mpr (hlate b hb))

/-- Arrivals after some time do not end a window before it. -/
theorem lt_windowEnd_append {l' : List Arrival} (h : NoLater l l') {T : Nat}
    (hT : T < s.windowEnd d start l) (hlater : ∀ b ∈ l', T < b.1) :
    T < s.windowEnd d start (l ++ l') := by
  cases hl : s.completed? d l with
  | some t => rwa [windowEnd_append_of_some h hl]
  | none =>
    rw [windowEnd_of_none hl] at hT
    cases ht : s.completed? d (l ++ l') with
    | none => rwa [windowEnd_of_none ht]
    | some t =>
      obtain ⟨b, hb, rfl⟩ := mem_of_completed?_append h hl ht
      rw [windowEnd, ht]
      simp only
      split
      · exact Nat.lt_add_right _ (hlater b hb)
      · exact hT

theorem le_windowEnd_of_some {t : Nat} (h : s.completed? d l = some t)
    (ht : t ≤ s.plannedEnd start) : t ≤ s.windowEnd d start l := by
  rw [windowEnd_of_some h ht]
  exact Nat.le_add_right _ _

/-- A window that arrivals up to its end completed was completed by its planned end. -/
theorem le_plannedEnd_of_some (hin : ∀ a ∈ l, a.1 ≤ s.windowEnd d start l) {t : Nat}
    (h : s.completed? d l = some t) : t ≤ s.plannedEnd start := by
  obtain ⟨a, ha, rfl⟩ := List.mem_map.mp (List.mem_of_find?_eq_some h)
  by_contra hlt
  have hle := hin a ha
  rw [windowEnd, h] at hle
  simp only [if_neg (fun h0 => hlt (Nat.le_of_lt h0))] at hle
  exact hlt hle

/-- The timer can count to the end of a window. -/
theorem windowTicks_le_counterMax (hv : s.Valid) : s.windowTicks ≤ Limits.counterMax := by
  unfold Valid Limits.windowMaxUs Limits.tickUs Limits.counterMax at hv
  unfold windowTicks timeoutTicks bounceTicks Limits.tickUs Limits.counterMax
  omega

/-- A window is too short for its ticks to leave a word. -/
theorem windowTicks_le (hv : s.Valid) : s.windowTicks + s.bounceTicks ≤ Limits.wordMax := by
  unfold Valid Limits.windowMaxUs Limits.tickUs Limits.counterMax at hv
  unfold windowTicks timeoutTicks bounceTicks Limits.tickUs Limits.wordMax
  omega

theorem windowEnd_le :
    s.windowEnd d start l ≤ s.plannedEnd start + Limits.tickUs * s.windowTicks := by
  unfold windowEnd
  split
  · split
    · rename_i u _ hu
      have hcut : s.cutTicks start u - ticksAt start u ≤ s.windowTicks :=
        Nat.le_trans (Nat.sub_le _ _) (Nat.min_le_left _ _)
      have := Nat.mul_le_mul_left Limits.tickUs hcut
      omega
    · omega
  · omega

/-- So is the time of an instant up to its end. -/
theorem ticksAt_mul_le (hv : s.Valid) {t : Nat} (h : t ≤ s.windowEnd d start l) :
    ticksAt start t * Limits.tickUs ≤ Limits.wordMax := by
  have hmul : ticksAt start t * Limits.tickUs ≤ t - start := Nat.div_mul_le_self ..
  have hend := @windowEnd_le s d start l
  have hlen : Limits.tickUs * s.windowTicks ≤ Limits.windowMaxUs :=
    Nat.mul_le_mul_left _ (windowTicks_le_counterMax hv)
  have hword : Limits.windowMaxUs + Limits.windowMaxUs ≤ Limits.wordMax := by decide
  unfold plannedEnd at hend
  omega

/-- Arrivals that hit no watched channel for the first time complete no window. -/
theorem completed?_append_of_hit {l' : List Arrival} (h : NoLater l l')
    (hl : ∀ c ∈ s.watched d, s.hits l c = [] → s.hits (l ++ l') c = []) :
    s.completed? d (l ++ l') = s.completed? d l := by
  cases ht : s.completed? d l with
  | some t => exact completed?_append_of_some h ht
  | none =>
    rw [← Option.not_isSome_iff_eq_none, completed?_isSome_iff]
    rintro ⟨h1, h2⟩
    refine Option.not_isSome_iff_eq_none.mpr ht (completed?_isSome_iff.mpr ⟨h1, fun c hc h0 => ?_⟩)
    exact h2 c hc (hl c hc h0)

/-- A window that an arrival completes is completed when it arrives. -/
theorem completed?_append_singleton {a : Arrival} (h : NoLater l [a])
    (hl : s.completed? d l = none) (hs : (s.completed? d (l ++ [a])).isSome) :
    s.completed? d (l ++ [a]) = some a.1 := by
  obtain ⟨t, ht⟩ := Option.isSome_iff_exists.mp hs
  obtain ⟨b, hb, rfl⟩ := mem_of_completed?_append h hl ht
  rwa [List.mem_singleton.mp hb] at ht

/-- An arrival up to the end of a window leaves all arrivals up to its end. -/
theorem le_windowEnd_append_singleton {a : Arrival} (h : NoLater l [a])
    (ha : a.1 ≤ s.windowEnd d start l) :
    ∀ b ∈ l ++ [a], b.1 ≤ s.windowEnd d start (l ++ [a]) := by
  have hlast : ∀ b ∈ l ++ [a], b.1 ≤ a.1 := by
    intro b hb
    rcases List.mem_append.mp hb with hb | hb
    · exact h b hb a (List.mem_singleton_self a)
    · rw [List.mem_singleton.mp hb]
  intro b hb
  refine Nat.le_trans (hlast b hb) ?_
  cases hl : s.completed? d l with
  | some t => rwa [windowEnd_append_of_some h hl]
  | none =>
    rw [windowEnd_of_none hl] at ha
    cases ht : s.completed? d (l ++ [a]) with
    | none => rwa [windowEnd_of_none ht]
    | some t =>
      have hta := completed?_append_singleton h hl (by rw [ht]; rfl)
      exact le_windowEnd_of_some hta ha

/-- An arrival before the end of a window is in it, and those before it stay in it. -/
theorem inWindow_append_singleton {a : Arrival} (h : Earlier l [a])
    (ha : a.1 < s.windowEnd d start l) (hin : ∀ b ∈ l, s.InWindow d start l b.1) :
    ∀ b ∈ l ++ [a], s.InWindow d start (l ++ [a]) b.1 := by
  cases hl : s.completed? d l with
  | some t =>
    intro b hb
    unfold InWindow
    rw [windowEnd_append_of_some h.noLater hl, completed?_append_of_some h.noLater hl]
    rcases List.mem_append.mp hb with hb | hb
    · rw [← hl]
      exact hin b hb
    · rw [List.mem_singleton.mp hb]
      exact Or.inl ha
  | none =>
    rw [windowEnd_of_none hl] at ha
    cases ht : s.completed? d (l ++ [a]) with
    | none =>
      intro b hb
      refine Or.inl ?_
      rw [windowEnd_of_none ht]
      rcases List.mem_append.mp hb with hb | hb
      · exact Nat.lt_trans (h b hb a (List.mem_singleton_self a)) ha
      · rwa [List.mem_singleton.mp hb]
    | some t =>
      have hta : t = a.1 := by
        have := completed?_append_singleton h.noLater hl (by rw [ht]; rfl)
        rwa [ht, Option.some.injEq] at this
      rw [hta] at ht
      intro b hb
      rcases List.mem_append.mp hb with hb | hb
      · exact Or.inl (Nat.lt_of_lt_of_le (h b hb a (List.mem_singleton_self a))
          (le_windowEnd_of_some ht (Nat.le_of_lt ha)))
      · rw [List.mem_singleton.mp hb]
        exact Or.inr ⟨ha, ht⟩

/-! ## The formula at the end of a window -/

/-- The arrivals in a window are those up to its end, and then the readings are those of all
arrivals. -/
theorem expectedReading_append {l' : List Arrival} (h : Earlier l l')
    (hin : ∀ a ∈ l, s.InWindow d start l a.1) (hend : ∀ b ∈ l', s.windowEnd d start l ≤ b.1)
    (c : Channel) :
    s.expectedReading d start (l ++ l') c = s.readingOfHits start (s.hits l c) := by
  have hwin : s.windowEnd d start (l ++ l') = s.windowEnd d start l :=
    windowEnd_append_of_late h.noLater hend
  unfold expectedReading
  congr 1
  rw [hits_append, List.filter_append]
  have hl : (s.hits l c).filter (s.InWindow d start (l ++ l') ·) = s.hits l c := by
    refine List.filter_eq_self.mpr fun t ht => decide_eq_true ?_
    obtain ⟨a, ha, rfl⟩ := mem_hits ht
    rcases hin a ha with hlt | ⟨hlt, hc⟩
    · exact Or.inl (by rwa [hwin])
    · exact Or.inr ⟨hlt, completed?_append_of_some h.noLater hc⟩
  have hl' : (s.hits l' c).filter (s.InWindow d start (l ++ l') ·) = [] := by
    refine List.filter_eq_nil_iff.mpr fun t ht hw => ?_
    obtain ⟨b, hb, rfl⟩ := mem_hits ht
    have hle := hend b hb
    rcases of_decide_eq_true hw with hlt | ⟨hlt, hc⟩
    · rw [hwin] at hlt
      exact absurd hle (Nat.not_le.mpr hlt)
    · -- the hit that completes the window comes after its end only if it is too late anyway
      cases hl : s.completed? d l with
      | none =>
        rw [windowEnd_of_none hl] at hle
        exact absurd hle (Nat.not_le.mpr hlt)
      | some t =>
        rw [completed?_append_of_some h.noLater hl, Option.some.injEq] at hc
        obtain ⟨a, ha, hat⟩ := List.mem_map.mp (List.mem_of_find?_eq_some hl)
        exact absurd (h a ha b hb) (by rw [hat, hc]; exact Nat.lt_irrefl _)
  rw [hl, hl', List.append_nil]

end CaptureSetup

end SwitchBench
