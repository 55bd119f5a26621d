import SwitchBench.Proofs.Capture.Inputs
import SwitchBench.Proofs.Capture.LateEdges

/-!
# A window whose handler comes when it comes

`Recorder.Running` tells what a window is on a timer that calls its handler along with every event.
Here an event and the handler's critical section are two steps, with anything in between: the
trigger, edges, the end of a period (once it is due, or any time later) and calls of the handler in
any order. `Recorder.Ticking` says what holds of a triggered window all the same, until the handler
finds the update event and ends it.

* Every edge of a watched channel is latched or noted again (`Counted.length`), late ones too.
* The first edge of a channel is counted from the trigger if it comes in the window
  (`Counted.first`): as long as a watched channel is waited for, the handler cuts nothing, and the
  counter only starts anew at the planned end (`Ticking.whole`).
* Nothing is said of the counts of late edges but that they are counts (`Counted.small`).

Left out: arming, reading out and giving back, which are the clients' (`Recorder.Crowd`), and an
abort, after which there is nothing to read.

Results: `Ticking.trigger`, `Ticking.edge`, `Ticking.expire`, `Ticking.service` (each event keeps
it), `Ticking.ended` (what the handler leaves when it ends the window), and `reads_reference_iff` (a
channel reads what the formula says exactly if it was given none, one or more edges before the
handler ended the window as well as before the end of the window).
-/

namespace SwitchBench

/-! ## What a window is to read -/

namespace CaptureSetup

variable {s : CaptureSetup} {d : Directions} {start : Nat} {l l' : List Arrival} {a : Arrival}

/-- What a channel is to read of the arrivals since its window started, of which the window takes,
in their order, those before its end. -/
def reference (s : CaptureSetup) (d : Directions) (start : Nat) (l : List Arrival) (c : Channel) :
    Reading :=
  s.readingOfHits start (s.hits (s.taken d start l) c)

/-- An arrival in the window is taken, and so were all before it. -/
theorem taken_append_of_lt (h : (l ++ [a]).Pairwise (·.1 ≤ ·.1))
    (ha : a.1 < s.windowEnd d start (s.taken d start l)) :
    s.taken d start l = l ∧ s.taken d start (l ++ [a]) = l ++ [a] := by
  obtain ⟨hl, -, hla⟩ := List.pairwise_append.mp h
  obtain ⟨late, he, hlate⟩ := @taken_split s d start l hl
  have hnil : late = [] := List.eq_nil_iff_forall_not_mem.mpr fun b hb => by
    have hend := hlate b hb
    have hlast := hla b (he ▸ List.mem_append_right _ hb) a (List.mem_singleton_self a)
    omega
  rw [hnil, List.append_nil] at he
  have hall : s.taken d start (l ++ [a]) = s.take d start (s.taken d start l) a := by
    rw [taken, List.foldl_append, ← taken]
    rfl
  rw [hall, take, if_pos ha, ← he]
  exact ⟨rfl, rfl⟩

/-- A window that has left an arrival out takes none after it. -/
theorem taken_append (h : (l ++ l').Pairwise (·.1 ≤ ·.1)) :
    s.taken d start l = l ∨ s.taken d start (l ++ l') = s.taken d start l := by
  obtain ⟨hl, -, hll⟩ := List.pairwise_append.mp h
  obtain ⟨late, he, hlate⟩ := @taken_split s d start l hl
  cases late with
  | nil => exact .inl (he.trans (List.append_nil _)).symm
  | cons b late =>
    have hb : b ∈ l := by
      rw [he]
      exact List.mem_append_right _ List.mem_cons_self
    exact .inr (taken_append_of_late fun x hx =>
      Nat.le_trans (hlate b List.mem_cons_self) (hll b hb x hx))

/-- What a window has taken it keeps. -/
theorem exists_taken_append : ∃ more, s.taken d start (l ++ l') = s.taken d start l ++ more := by
  rw [taken, List.foldl_append, ← taken]
  generalize s.taken d start l = seen
  induction l' generalizing seen with
  | nil => exact ⟨[], (List.append_nil _).symm⟩
  | cons a l' ih =>
    rw [List.foldl_cons]
    by_cases ha : a.1 < s.windowEnd d start seen
    · obtain ⟨more, hmore⟩ := ih (seen ++ [a])
      rw [take, if_pos ha, hmore]
      exact ⟨a :: more, List.append_assoc _ _ _⟩
    · rw [take, if_neg ha]
      exact ih seen

/-- What a window takes at later and later instants is in it. -/
theorem inWindow_taken (h : l.Pairwise (·.1 < ·.1)) :
    ∀ b ∈ s.taken d start l, s.InWindow d start (s.taken d start l) b.1 := by
  induction l using List.reverseRecOn with
  | nil => exact nofun
  | append_singleton l a ih =>
    obtain ⟨hl, -, hla⟩ := List.pairwise_append.mp h
    by_cases ha : a.1 < s.windowEnd d start (s.taken d start l)
    · obtain ⟨hsame, hmore⟩ := taken_append_of_lt (h.imp Nat.le_of_lt) ha
      have hin := ih hl
      rw [hsame] at hin ha
      rw [hmore]
      exact inWindow_append_singleton hla ha hin
    · rw [taken_append_of_late (List.forall_mem_singleton.mpr (Nat.not_lt.mp ha))]
      exact ih hl

/-- **The readings of what a window takes are those that the formula expects**, if no two edges come
at one instant. -/
theorem expectedReading_eq_reference (h : l.Pairwise (·.1 < ·.1)) (c : Channel) :
    s.expectedReading d start l c = s.reference d start l c := by
  obtain ⟨late, he, hlate⟩ := @taken_split s d start l (h.imp Nat.le_of_lt)
  have hearlier : Earlier (s.taken d start l) late := by
    rw [he] at h
    exact (List.pairwise_append.mp h).2.2
  have hread := expectedReading_append hearlier (inWindow_taken h) hlate c
  rwa [← he] at hread

end CaptureSetup

namespace Recorder

open Timer

variable (s : CaptureSetup) (d : Directions) (start : Nat)

/-- The counts at which a timer took the hits of a window's channels, oldest first. -/
structure Counted (seen : List Arrival) (counts : Channel → List Nat) : Prop where
  length : ∀ c, s.enables c d = true → (counts c).length = (s.hits seen c).length
  unwatched : ∀ c, s.enables c d = false → counts c = []
  first : ∀ c, s.enables c d = true → ∀ t ∈ (s.hits (s.taken d start seen) c).head?,
    (counts c).head? = some (CaptureSetup.ticksAt start t)
  small : ∀ c, ∀ n ∈ counts c, n ≤ Limits.counterMax

/-- A recorder whose window was triggered and has not been ended, at an instant, after the arrivals
that came since. -/
structure Ticking (seen : List Arrival) (now : Nat) (r : Recorder) : Prop where
  aborted : r.aborted = false
  timeoutTicks : r.timeoutTicks = s.timeoutTicks
  mask : r.mask = maskOf s d
  enabled : r.timer.enabled = maskOf s d
  polarity : ∀ c, s.enables c d = true → r.timer.polarity.get c = (s.channels.get c).edge
  armed : r.timer.armed = true
  counting : r.timer.counting = true
  reload : r.timer.reload ≤ Limits.counterMax
  base : r.timer.base ≤ Limits.counterMax
  latches : ∃ counts, Counted s d start seen counts ∧ r.timer.Latches counts
  /-- As long as a watched channel is waited for, the counter runs from the trigger to the planned
  end, unless that is over. -/
  whole : s.completed? d seen = none →
    (r.timer.since = some start ∧ r.timer.base = 0 ∧ r.timer.reload = s.windowTicks ∧
      r.timer.status.update = false) ∨ s.plannedEnd start ≤ now

variable {s d start} {seen : List Arrival} {counts : Channel → List Nat} {now : Nat} {r : Recorder}

/-! ## Counts -/

/-- An arrival that hits no watched channel changes no count. -/
theorem Counted.miss (h : Counted s d start seen counts) {a : Arrival}
    (hs : (seen ++ [a]).Pairwise (·.1 ≤ ·.1))
    (ha : ∀ c, s.enables c d = true → ¬(a.2.1 = c.val ∧ a.2.2 = (s.channels.get c).edge)) :
    Counted s d start (seen ++ [a]) counts where
  length c hc := by
    rw [CaptureSetup.hits_append_of_miss (ha c hc)]
    exact h.length c hc
  unwatched := h.unwatched
  first c hc t ht := by
    by_cases hin : a.1 < s.windowEnd d start (s.taken d start seen)
    · obtain ⟨hsame, hmore⟩ := CaptureSetup.taken_append_of_lt hs hin
      rw [hmore, CaptureSetup.hits_append_of_miss (ha c hc), ← hsame] at ht
      exact h.first c hc t ht
    · rw [CaptureSetup.taken_append_of_late
        (List.forall_mem_singleton.mpr (Nat.not_lt.mp hin))] at ht
      exact h.first c hc t ht
  small := h.small

/-- An arrival that hits a watched channel is counted there. If it is the first one of its channel
and in the window, the count is to be that of the ticks since the trigger. -/
theorem Counted.hit (h : Counted s d start seen counts) {a : Arrival}
    (hs : (seen ++ [a]).Pairwise (·.1 ≤ ·.1)) {c : Channel} (hc : s.enables c d = true)
    (hi : a.2.1 = c.val) (he : a.2.2 = (s.channels.get c).edge) {n : Nat}
    (hn : n ≤ Limits.counterMax)
    (hfirst : s.hits seen c = [] → a.1 < s.windowEnd d start seen →
      n = CaptureSetup.ticksAt start a.1) :
    Counted s d start (seen ++ [a]) (Registers.addHit counts c n) := by
  have hmiss : ∀ {c'}, ¬c = c' → ¬(a.2.1 = c'.val ∧ a.2.2 = (s.channels.get c').edge) :=
    fun hne h0 => hne (Fin.ext (hi.symm.trans h0.1))
  refine ⟨fun c' hc' => ?_, fun c' hc' => ?_, fun c' hc' t ht => ?_, fun c' m hm => ?_⟩
  · unfold Registers.addHit
    split
    · rename_i heq
      subst heq
      rw [CaptureSetup.hits_append_of_hit hi he, List.length_append, List.length_append,
        h.length c hc]
      rfl
    · rename_i hne
      rw [CaptureSetup.hits_append_of_miss (hmiss hne)]
      exact h.length c' hc'
  · rw [Registers.addHit, if_neg fun heq => by rw [heq, hc'] at hc; cases hc]
    exact h.unwatched c' hc'
  · unfold Registers.addHit
    by_cases hin : a.1 < s.windowEnd d start (s.taken d start seen)
    · obtain ⟨hsame, hmore⟩ := CaptureSetup.taken_append_of_lt hs hin
      rw [hmore] at ht
      split
      · rename_i heq
        subst heq
        rw [CaptureSetup.hits_append_of_hit hi he] at ht
        cases hseen : s.hits seen c with
        | nil =>
          have hnone : counts c = [] := by
            rw [← List.length_eq_zero_iff, h.length c hc, hseen]
            rfl
          rw [hseen] at ht
          rw [hsame] at hin
          rw [hnone, ← Option.some.inj ht, ← hfirst hseen hin]
          rfl
        | cons u us =>
          rw [hseen] at ht
          have hold := h.first c hc t (by rw [hsame, hseen]; exact ht)
          rw [List.head?_append, hold]
          rfl
      · rename_i hne
        rw [CaptureSetup.hits_append_of_miss (hmiss hne), ← hsame] at ht
        exact h.first c' hc' t ht
    · -- a late arrival comes after whatever came in the window
      rw [CaptureSetup.taken_append_of_late
        (List.forall_mem_singleton.mpr (Nat.not_lt.mp hin))] at ht
      have hold := h.first c' hc' t ht
      split
      · rw [List.head?_append, hold]
        rfl
      · exact hold
  · unfold Registers.addHit at hm
    split at hm
    · rcases List.mem_append.mp hm with hm | hm
      · exact h.small c' m hm
      · rwa [List.mem_singleton.mp hm]
    · exact h.small c' m hm

/-! ## Events -/

/-- The trigger of an armed capture starts its window. -/
theorem Ticking.trigger (hv : s.Valid) (r : Recorder) (armedAt : Nat) :
    Ticking s d start [] start { r.arm s d armedAt with
      timer := ((r.arm s d armedAt).timer.trigger start).1 } := by
  unfold arm
  rw [armTimer_eq]
  have hstarted (t : Registers) (ha : t.armed = true) (hs : t.since = none) :
      (t.trigger start).1 = { t with since := some start, status.trigger := true } := by
    rw [Registers.trigger, Registers.counting, ha, hs]
    rfl
  rw [hstarted _ rfl rfl]
  have hoff (c : Channel) : (PerChannel.const false).get c = false := PerChannel.get_const _ _
  refine ⟨rfl, rfl, rfl, rfl, fun c hc => polarity_armTimer r.timer armedAt hc, rfl, rfl,
    CaptureSetup.windowTicks_le_counterMax hv, Nat.zero_le _,
    ⟨fun _ => [], ⟨fun c _ => ?_, fun _ _ => rfl, fun c _ t ht => ?_,
      fun _ => List.forall_mem_nil _⟩, fun c => hoff c, fun c => hoff c, fun c n hn => ?_⟩,
    fun _ => .inl ⟨rfl, rfl, rfl, rfl⟩⟩
  · rfl
  · cases ht
  · cases hn

/-- Time goes by. -/
theorem Ticking.wait (h : Ticking s d start seen now r) {later : Nat} (hn : now ≤ later) :
    Ticking s d start seen later r :=
  { h with whole := fun hc => (h.whole hc).imp_right fun hle => Nat.le_trans hle hn }

/-- A trigger finds the window triggered. -/
theorem Ticking.trigger_eq (h : Ticking s d start seen now r) :
    r.timer.trigger now = (r.timer, false) := by
  rw [Registers.trigger, h.counting]
  exact if_neg (by simp)

theorem Ticking.counterAt_le (h : Ticking s d start seen now r) (t : Nat) :
    r.timer.counterAt t ≤ Limits.counterMax :=
  Nat.le_trans (Registers.counterAt_le _ _) (Nat.max_le.mpr ⟨h.reload, h.base⟩)

/-- The first hit of a channel in the window comes at the count of the ticks since the trigger. -/
theorem Ticking.counterAt_eq (h : Ticking s d start seen now r) {c : Channel}
    (hc : s.enables c d = true) (hfirst : s.hits seen c = [])
    (hin : now < s.windowEnd d start seen) :
    r.timer.counterAt now = CaptureSetup.ticksAt start now := by
  have hnone : s.completed? d seen = none := by
    rw [← Option.not_isSome_iff_eq_none, CaptureSetup.completed?_isSome_iff]
    exact fun h0 => h0.2 c (CaptureSetup.mem_watched.mpr hc) hfirst
  rw [CaptureSetup.windowEnd_of_none hnone] at hin
  rcases h.whole hnone with ⟨hsince, hbase, hreload, -⟩ | hover
  · have hlt := CaptureSetup.ticksAt_lt hin
    rw [Registers.counterAt, hsince, hbase, hreload]
    unfold CaptureSetup.ticksAt at hlt ⊢
    simp only
    omega
  · exact absurd hin (Nat.not_lt.mpr hover)

/-- **An edge** is counted if it hits a watched channel, and changes nothing otherwise. -/
theorem Ticking.edge (h : Ticking s d start seen now r) (c : Channel) (e : Edge)
    (hs : (seen ++ [(now, c.val, e)]).Pairwise (·.1 ≤ ·.1)) :
    Ticking s d start (seen ++ [(now, c.val, e)]) now
      { r with timer := (r.timer.edge c e now).1 } := by
  have hon := Registers.onward_edge r.timer c e now
  have hsame : (r.timer.edge c e now).1.since = r.timer.since ∧
      (r.timer.edge c e now).1.base = r.timer.base ∧
      (r.timer.edge c e now).1.reload = r.timer.reload ∧
      (r.timer.edge c e now).1.armed = r.timer.armed := by
    unfold Registers.edge
    split
    · split <;> exact ⟨rfl, rfl, rfl, rfl⟩
    · exact ⟨rfl, rfl, rfl, rfl⟩
  obtain ⟨hsince, hbase, hreload, harmed⟩ := hsame
  obtain ⟨counts, hcounts, hlatches⟩ := h.latches
  have htaken := Crowd.taken_edge r.timer c e now
  rw [h.counting, h.enabled, get_maskOf] at htaken
  refine ⟨h.aborted, h.timeoutTicks, h.mask, (Registers.enabled_edge _ _ _ _).trans h.enabled,
    fun c' hc' => ?_, harmed.trans h.armed, hon.counting (harmed.trans h.armed) h.counting, ?_, ?_,
    ?_, fun hnone => ?_⟩
  · rw [hon.polarity]
    exact h.polarity c' hc'
  · rw [hreload]
    exact h.reload
  · rw [hbase]
    exact h.base
  · by_cases hmine : s.enables c d = true ∧ e = (s.channels.get c).edge
    · obtain ⟨hc, he⟩ := hmine
      rw [hc, h.polarity c hc, he] at htaken
      rcases hlatches.edge c e now with hno | ⟨-, hmore⟩
      · rw [← he, hno] at htaken
        simp at htaken
      · exact ⟨_, hcounts.hit hs hc rfl he (h.counterAt_le now)
          fun hfirst hin => h.counterAt_eq hc hfirst hin, hmore⟩
    · have hnot : (r.timer.edge c e now).2 = false := by
        rw [htaken]
        cases hc : s.enables c d with
        | false => rfl
        | true =>
          rw [h.polarity c hc, Bool.true_and, Bool.true_and, beq_eq_false_iff_ne]
          exact fun he => hmine ⟨hc, he.symm⟩
      have hkeep : r.timer.edge c e now = (r.timer, false) := by
        rcases hlatches.edge c e now with hno | ⟨hyes, -⟩
        · exact hno
        · rw [hnot] at hyes
          cases hyes
      refine ⟨counts, hcounts.miss hs fun c' hc' hit => hmine ?_, by rw [hkeep]; exact hlatches⟩
      have hcc : c = c' := Fin.ext hit.1
      exact ⟨hcc ▸ hc', hcc ▸ hit.2⟩
  · -- what completes no window leaves one that was not complete
    have hbefore : s.completed? d seen = none := by
      cases hsome : s.completed? d seen with
      | none => rfl
      | some t =>
        have := CaptureSetup.completed?_append_of_some (noLater_of_pairwise hs) hsome
        rw [hnone] at this
        cases this
    rw [hsince, hbase, hreload, hon.update]
    exact h.whole hbefore

/-- **The end of a period**, which was due, starts the counter anew. -/
theorem Ticking.expire (h : Ticking s d start seen now r) {due : Nat}
    (hd : r.timer.expiry = some due) (hle : due ≤ now) :
    Ticking s d start seen now { r with timer := r.timer.expire due } := by
  obtain ⟨counts, hcounts, hlatches⟩ := h.latches
  refine ⟨h.aborted, h.timeoutTicks, h.mask, h.enabled, h.polarity, h.armed, rfl, h.reload,
    Nat.zero_le _, ⟨counts, hcounts,
      hlatches.of_sameLatches (Registers.sameLatches_expire _ _)⟩, fun hnone => .inr ?_⟩
  rcases h.whole hnone with ⟨hsince, hbase, hreload, -⟩ | hover
  · rw [Registers.expiry_of_since hsince (hreload ▸ CaptureSetup.windowTicks_pos), hbase,
      hreload] at hd
    cases hd
    exact hle
  · exact hover

/-- With a capture of every watched channel, the window is complete. -/
theorem Ticking.completed?_isSome (h : Ticking s d start seen now r)
    (hp : (r.pendingFlags.capture.ch0 || r.pendingFlags.capture.ch1) = true)
    (hall : r.captured = r.mask) : (s.completed? d seen).isSome := by
  obtain ⟨counts, hcounts, hlatches⟩ := h.latches
  have hhit {c : Channel} (hc : r.timer.status.capture.get c = true) : counts c ≠ [] := by
    rw [hlatches.capture] at hc
    simpa using hc
  rw [CaptureSetup.completed?_isSome_iff]
  constructor
  · -- some capture is pending, and only a watched channel has one
    obtain ⟨c, hc⟩ : ∃ c, r.timer.status.capture.get c = true := by
      obtain ⟨c, hc⟩ := PerChannel.or_eq_true_iff.mp hp
      have hget : r.pendingFlags.capture.get c
          = (r.timer.status.capture.get c && r.timer.interrupts.capture.get c) :=
        PerChannel.get_zipWith _ _ _ _
      rw [hget] at hc
      exact ⟨c, (Bool.and_eq_true_iff.mp hc).1⟩
    have hon : s.enables c d = true := by
      by_contra hoff
      exact hhit hc (hcounts.unwatched c (eq_false_of_ne_true hoff))
    exact List.ne_nil_of_mem (CaptureSetup.mem_watched.mpr hon)
  · intro c hc h0
    have hon := CaptureSetup.mem_watched.mp hc
    have hget := congrArg (·.get c) hall
    simp only [captured, h.mask, PerChannel.get_zipWith, get_maskOf, hon, Bool.and_true] at hget
    have hlen := hcounts.length c hon
    rw [h0] at hlen
    exact hhit hget (List.length_eq_zero_iff.mp hlen)

/-- **A call of the handler that does not end the window** leaves it ticking. -/
theorem Ticking.service (h : Ticking s d start seen now r) (hs : (r.service now).2 = false) :
    Ticking s d start seen now (r.service now).1 := by
  have hon := onward_service r now
  have hlatches := sameLatches_service r now
  obtain ⟨counts, hcounts, hlatched⟩ := h.latches
  have hframe : (r.service now).1.aborted = r.aborted ∧
      (r.service now).1.timeoutTicks = r.timeoutTicks ∧ (r.service now).1.mask = r.mask ∧
      (r.service now).1.timer.armed = true ∧
      (s.completed? d seen = none → (r.service now).1.timer.since = r.timer.since ∧
        (r.service now).1.timer.base = r.timer.base ∧
        (r.service now).1.timer.reload = r.timer.reload) := by
    have hserved := served_service r now
    generalize r.service now = x at hserved hs
    cases hserved with
    | nothing _ | noteTrigger _ _ => exact ⟨rfl, rfl, rfl, h.armed, fun _ => ⟨rfl, rfl, rfl⟩⟩
    | endWindow _ _ _ => cases hs
    | noteCaptures _ _ _ hp =>
      refine ⟨rfl, rfl, rfl, ?_, fun hnone => ?_⟩
      · show (if r.captured = r.mask then cutWindow r.timer r.bounceTicks now
          else r.timer).armed = true
        split
        · rw [armed_cutWindow]
          exact h.armed
        · exact h.armed
      · rw [if_neg fun hall => by
          have hsome := h.completed?_isSome hp hall
          rw [hnone] at hsome
          cases hsome]
        exact ⟨rfl, rfl, rfl⟩
  obtain ⟨haborted, htimeout, hmask, harmed, hcounter⟩ := hframe
  refine ⟨haborted.trans h.aborted, htimeout.trans h.timeoutTicks, hmask.trans h.mask,
    hlatches.enabled.trans h.enabled, fun c hc => ?_, harmed, hon.counting harmed h.counting,
    Nat.le_trans hon.reload h.reload, Nat.le_trans hon.base (Nat.max_le.mpr ⟨h.reload, h.base⟩),
    ⟨counts, hcounts, hlatched.of_sameLatches hlatches⟩, fun hnone => ?_⟩
  · rw [hon.polarity]
    exact h.polarity c hc
  · obtain ⟨hsince, hbase, hreload⟩ := hcounter hnone
    rw [hsince, hbase, hreload, hon.update]
    exact h.whole hnone

/-- **What the handler leaves when it ends the window**: the readings of the edges that were
counted. If a watched channel is still waited for, the window is over. -/
theorem Ticking.ended (h : Ticking s d start seen now r) (hs : (r.service now).2 = true) :
    (r.service now).1.timer.armed = false ∧
    (∃ counts, Counted s d start seen counts ∧ (r.service now).1.collect.2 =
      some ((s.watched d).map fun c => readingOfHits s.timeoutTicks (counts c))) ∧
    (s.completed? d seen = none → s.plannedEnd start ≤ now) := by
  have hlatches := sameLatches_service r now
  obtain ⟨counts, hcounts, hlatched⟩ := h.latches
  have hframe : (r.service now).1.timer.armed = false ∧ (r.service now).1.aborted = r.aborted ∧
      (r.service now).1.timeoutTicks = r.timeoutTicks := by
    have hserved := served_service r now
    generalize r.service now = x at hserved hs
    cases hserved with
    | endWindow _ _ _ => exact ⟨rfl, rfl, rfl⟩
    | nothing | noteTrigger | noteCaptures => cases hs
  obtain ⟨harmed, haborted, htimeout⟩ := hframe
  refine ⟨harmed, ⟨counts, hcounts, ?_⟩, fun hnone => ?_⟩
  · have hfilter : Channel.all.filter (maskOf s d).get = s.watched d :=
      List.filter_congr fun c _ => by rw [get_maskOf]
    rw [collect_of_latches (haborted.trans h.aborted) (hlatched.of_sameLatches hlatches),
      hlatches.enabled, h.enabled, htimeout, h.timeoutTicks, hfilter]
  · rcases h.whole hnone with ⟨-, -, -, hquiet⟩ | hover
    · exact absurd (hquiet.symm.trans (update_of_service hs)) Bool.false_ne_true
    · exact hover

/-! ## Readings -/

/-- Counts and hits of a channel read the same exactly if there were none, one or more of both,
given that the first of them agree. -/
theorem readingOfHits_eq_readingOfHits_iff {ns hits : List Nat}
    (hsmall : ∀ n ∈ ns, n ≤ Limits.counterMax)
    (hfirst : ∀ n ∈ ns.head?, ∀ t ∈ hits.head?, n = CaptureSetup.ticksAt start t) :
    readingOfHits s.timeoutTicks ns = s.readingOfHits start hits ↔
      min 2 ns.length = min 2 hits.length := by
  cases ns with
  | nil =>
    cases hits with
    | nil => exact ⟨fun _ => rfl, fun _ => rfl⟩
    | cons t ts =>
      -- the mark of no value is no multiple of a tick
      refine iff_of_false (fun he => ?_) (by simp only [List.length_cons, List.length_nil]; omega)
      have hvalue : Limits.noValueUs = Limits.tickUs * CaptureSetup.ticksAt start t :=
        congrArg Reading.valueUs he
      unfold Limits.noValueUs Limits.wordMax Limits.tickUs at hvalue
      omega
  | cons n ns =>
    cases hits with
    | nil =>
      refine iff_of_false (fun he => ?_) (by simp only [List.length_cons, List.length_nil]; omega)
      cases (readingOfHits_eq_iff hsmall).mp he
    | cons t ts =>
      have hn : n = CaptureSetup.ticksAt start t := hfirst n rfl t rfl
      have hword : n * Limits.tickUs ≤ Limits.wordMax := by
        have hmax := hsmall n List.mem_cons_self
        unfold Limits.counterMax at hmax
        unfold Limits.tickUs Limits.wordMax
        omega
      simp only [readingOfHits, readingOf, CaptureSetup.readingOfHits, Nat.min_eq_left hword, ← hn,
        Nat.mul_comm Limits.tickUs, Reading.mk.injEq, and_true]
      cases ns <;> cases ts <;> simp <;> split <;> simp

/-- A channel with counts and hits reads the same value, given that the first of them agree. -/
theorem valueUs_readingOfHits {ns hits : List Nat} (hsmall : ∀ n ∈ ns, n ≤ Limits.counterMax)
    (hfirst : ∀ n ∈ ns.head?, ∀ t ∈ hits.head?, n = CaptureSetup.ticksAt start t)
    (hns : ns ≠ []) (hhits : hits ≠ []) :
    (readingOfHits s.timeoutTicks ns).valueUs = (s.readingOfHits start hits).valueUs := by
  obtain ⟨n, ns, rfl⟩ := List.exists_cons_of_ne_nil hns
  obtain ⟨t, ts, rfl⟩ := List.exists_cons_of_ne_nil hhits
  have hn : n = CaptureSetup.ticksAt start t := hfirst n rfl t rfl
  have hmax := hsmall n List.mem_cons_self
  show min (n * Limits.tickUs) Limits.wordMax = Limits.tickUs * CaptureSetup.ticksAt start t
  rw [← hn]
  unfold Limits.counterMax at hmax
  unfold Limits.tickUs Limits.wordMax
  omega

/-- The first count of a channel is that of its first edge in the window, whatever comes later. -/
theorem Counted.first_append (h : Counted s d start seen counts) {later : List Arrival}
    (hs : (seen ++ later).Pairwise (·.1 ≤ ·.1)) {c : Channel} (hc : s.enables c d = true) :
    ∀ n ∈ (counts c).head?, ∀ t ∈ (s.hits (s.taken d start (seen ++ later)) c).head?,
      n = CaptureSetup.ticksAt start t := by
  intro n hn t ht
  suffices t ∈ (s.hits (s.taken d start seen) c).head? from
    Option.some.inj ((Option.mem_def.mp hn).symm.trans (h.first c hc t this))
  rcases CaptureSetup.taken_append hs with hall | hsame
  · -- all edges so far were in the window, and this channel had one
    obtain ⟨more, hmore⟩ := @CaptureSetup.exists_taken_append s d start seen later
    have hhit : s.hits seen c ≠ [] := by
      intro h0
      have hlen := h.length c hc
      rw [h0, List.length_nil, List.length_eq_zero_iff] at hlen
      rw [hlen] at hn
      cases hn
    rw [hmore, hall, CaptureSetup.hits_append, List.head?_append_of_ne_nil _ hhit] at ht
    rwa [hall]
  · rwa [hsame] at ht

/-- A channel that took no edge had none in the window. -/
theorem hits_taken_eq_nil {later : List Arrival} (hs : (seen ++ later).Pairwise (·.1 ≤ ·.1))
    (hover : s.completed? d seen = none → ∀ b ∈ later, s.plannedEnd start ≤ b.1) {c : Channel}
    (hc : s.enables c d = true) (hnone : s.hits seen c = []) :
    s.hits (s.taken d start (seen ++ later)) c = [] := by
  have hopen : s.completed? d seen = none := by
    rw [← Option.not_isSome_iff_eq_none, CaptureSetup.completed?_isSome_iff]
    exact fun h0 => h0.2 c (CaptureSetup.mem_watched.mpr hc) hnone
  have hseen := (List.pairwise_append.mp hs).1
  obtain ⟨late, he, -⟩ := @CaptureSetup.taken_split s d start seen hseen
  rw [CaptureSetup.taken_append_of_late]
  · rw [he, CaptureSetup.hits_append] at hnone
    exact (List.append_eq_nil_iff.mp hnone).1
  · rw [CaptureSetup.windowEnd_taken hseen, CaptureSetup.windowEnd_of_none hopen]
    exact hover hopen

/-- **A channel reads what the formula says** exactly if as many of its edges, none, one or more,
came before the handler ended the window as came before its end. Its first edge in the window is
read at its time, whatever comes later. -/
theorem Counted.reads_reference_iff (h : Counted s d start seen counts) {later : List Arrival}
    (hs : (seen ++ later).Pairwise (·.1 ≤ ·.1))
    (hover : s.completed? d seen = none → ∀ b ∈ later, s.plannedEnd start ≤ b.1) {c : Channel}
    (hc : s.enables c d = true) :
    (readingOfHits s.timeoutTicks (counts c) = s.reference d start (seen ++ later) c ↔
      min 2 (s.hits seen c).length =
        min 2 (s.hits (s.taken d start (seen ++ later)) c).length) ∧
    (s.hits (s.taken d start (seen ++ later)) c ≠ [] →
      (readingOfHits s.timeoutTicks (counts c)).valueUs =
        (s.reference d start (seen ++ later) c).valueUs) := by
  have hfirst := h.first_append hs hc
  rw [← h.length c hc]
  refine ⟨readingOfHits_eq_readingOfHits_iff (h.small c) hfirst, fun hhit =>
    valueUs_readingOfHits (h.small c) hfirst (fun hnone => hhit ?_) hhit⟩
  refine hits_taken_eq_nil hs hover hc (List.length_eq_zero_iff.mp ?_)
  rw [← h.length c hc, hnone, List.length_nil]

end Recorder

end SwitchBench
