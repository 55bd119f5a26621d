import SwitchBench.Proofs.Capture.Handler
import SwitchBench.Proofs.Capture.Reference
import SwitchBench.Proofs.Timer.Counter

/-!
# The window of a capture

While the window of a capture runs, the recorder and its timer are what the arrivals so far make
them: `Recorder.Running` says what every register then holds, in whatever order arrivals of the same
instant came. A trigger starts the window of an armed capture, an arrival up to its end keeps it
running, and the end of the timer's period closes it, at the end that `windowEnd` computes. A closed
capture has the readings of what arrived (`Recorder.Closed`). If arrivals come at later and later
instants, before the end of the window, then all of them are in it (`Recorder.Open`).

Results: `running_trigger`, `Running.arrive`, `Running.expiry_eq`, `Running.expire`, and
`Closed.finish?` (what collecting a closed capture gives).
-/

namespace SwitchBench

namespace PerChannel

/-- The values of a function. -/
def ofFn {α : Type} (f : Channel → α) : PerChannel α :=
  ⟨f ⟨0, Nat.zero_lt_two⟩, f ⟨1, Nat.one_lt_two⟩⟩

@[simp] theorem get_ofFn {α : Type} (f : Channel → α) (c : Channel) : (ofFn f).get c = f c := by
  match c with
  | 0 => rfl
  | 1 => rfl

theorem ext_get {α : Type} {v w : PerChannel α} (h : ∀ c, v.get c = w.get c) : v = w := by
  obtain ⟨a, b⟩ := v
  obtain ⟨a', b'⟩ := w
  exact congrArg₂ PerChannel.mk (h 0) (h 1)

end PerChannel

namespace Recorder

open Timer

variable (s : CaptureSetup) (d : Directions) (start : Nat)

/-- The watched channels that have been hit. -/
def hitChannels (seen : List Arrival) : PerChannel Bool :=
  .ofFn fun c => s.enables c d && (s.hits seen c).head?.isSome

/-- The watched channels that have been hit more than once. -/
def hitAgain (seen : List Arrival) : PerChannel Bool :=
  .ofFn fun c => s.enables c d && decide (1 < (s.hits seen c).length)

/-- When counting began, from where, and how far it is to go, after some arrivals. -/
def counterAfter (seen : List Arrival) : Nat × Nat × Nat :=
  match s.completed? d seen with
  | none => (start, 0, s.windowTicks)
  | some t => (t, CaptureSetup.ticksAt start t, s.cutTicks start t)

/-- A recorder whose window runs, and all that it knows after some arrivals, in the order in which
they came. -/
structure Running (seen : List Arrival) (r : Recorder) : Prop where
  aborted : r.aborted = false
  timeoutTicks : r.timeoutTicks = s.timeoutTicks
  bounceTicks : r.bounceTicks = s.bounceTicks
  mask : r.mask = maskOf s d
  done_count : r.done.count = 0
  done_limit : r.done.limit = 1
  status : r.timer.status = ⟨false, false, hitChannels s d seen, hitAgain s d seen⟩
  interrupts : r.timer.interrupts =
    ⟨true, false, .zipWith (fun m h => m && !h) (maskOf s d) (hitChannels s d seen), .const false⟩
  enabled : r.timer.enabled = maskOf s d
  polarity : ∀ c, s.enables c d = true → r.timer.polarity.get c = (s.channels.get c).edge
  latched : ∀ c, s.enables c d = true → ∀ t ∈ (s.hits seen c).head?,
    r.timer.latched.get c = CaptureSetup.ticksAt start t
  since : r.timer.since = some (counterAfter s d start seen).1
  base : r.timer.base = (counterAfter s d start seen).2.1
  reload : r.timer.reload = (counterAfter s d start seen).2.2
  later : ∀ a ∈ seen, start ≤ a.1
  inTime : ∀ a ∈ seen, a.1 ≤ s.windowEnd d start seen

/-- A recorder whose window runs, with all arrivals so far in the window. -/
structure Open (seen : List Arrival) (r : Recorder) : Prop extends Running s d start seen r where
  inWindow : ∀ a ∈ seen, s.InWindow d start seen a.1

variable {s d start}

@[simp] theorem get_maskOf (c : Channel) : (maskOf s d).get c = s.enables c d := by
  rw [maskOf, PerChannel.get_map]
  rfl

/-! ## The counter -/

/-- The window of a recorder ends when the formula says. -/
theorem Running.expiry_eq {seen : List Arrival} {r : Recorder} (h : Running s d start seen r) :
    r.timer.expiry = some (s.windowEnd d start seen) := by
  have hreload : 0 < r.timer.reload := by
    rw [h.reload, counterAfter]
    split <;> simp only [CaptureSetup.cutTicks, CaptureSetup.windowTicks] <;> omega
  rw [Registers.expiry_of_since h.since hreload, h.reload, h.base, counterAfter]
  cases ht : s.completed? d seen with
  | none => rw [CaptureSetup.windowEnd_of_none ht]; rfl
  | some t =>
    rw [CaptureSetup.windowEnd_of_some ht (CaptureSetup.le_plannedEnd_of_some h.inTime ht)]

/-- Up to the planned end the count is that of the ticks since the start, as long as the window is
not complete. -/
theorem Running.counterAt_eq {seen : List Arrival} {r : Recorder} (h : Running s d start seen r)
    (hc : s.completed? d seen = none) {t : Nat} (ht : t ≤ s.plannedEnd start) :
    r.timer.counterAt t = CaptureSetup.ticksAt start t := by
  have hle := CaptureSetup.ticksAt_le ht
  rw [Registers.counterAt, h.since]
  simp only
  rw [h.base, h.reload, counterAfter, hc]
  simp only [Nat.zero_add]
  show min (CaptureSetup.ticksAt start t) _ = _
  omega

/-! ## The trigger -/

theorem diff_all (f : Flags) : f.diff .all = .none := by
  rcases f with ⟨_ | _, _ | _, ⟨_ | _, _ | _⟩, ⟨_ | _, _ | _⟩⟩ <;> rfl

/-- The registers of an armed capture, field by field. -/
theorem armTimer_eq (t : Registers) (now : Nat) :
    armTimer t s d now =
      { status := .none
        interrupts := ⟨true, true, maskOf s d, .const false⟩
        reload := s.windowTicks
        latched := t.latched
        enabled := maskOf s d
        polarity := ⟨if (maskOf s d).ch0 then s.channels.ch0.edge else t.polarity.ch0,
          if (maskOf s d).ch1 then s.channels.ch1.edge else t.polarity.ch1⟩
        armed := true
        since := none
        base := 0 } := by
  unfold armTimer
  simp only [Registers.stopCounter, Registers.resetCounter, Registers.clear, diff_all,
    Registers.setInterrupts, Registers.setReload, Registers.arm, Option.map_none]

/-- An armed channel waits for the edge that it was set up with. -/
theorem polarity_armTimer (t : Registers) (now : Nat) {c : Channel} (hc : s.enables c d = true) :
    (armTimer t s d now).polarity.get c = (s.channels.get c).edge := by
  have hmask : ∀ c, (maskOf s d).get c = true →
      (armTimer t s d now).polarity.get c = (s.channels.get c).edge := by
    rw [armTimer_eq]
    exact Fin.forall_fin_two.mpr ⟨fun hc => if_pos hc, fun hc => if_pos hc⟩
  exact hmask c ((get_maskOf c).trans hc)

/-- A trigger starts the window of an armed capture. -/
theorem running_trigger {r : Recorder} (hc : r.done.count = 0) (hl : r.done.limit = 1)
    (armedAt : Nat) :
    ((r.arm s d armedAt).trigger start).2 = true ∧
      Running s d start [] ((r.arm s d armedAt).trigger start).1 := by
  unfold arm
  rw [armTimer_eq]
  refine ⟨rfl, ?_⟩
  unfold trigger
  simp only [Registers.trigger, Registers.counting, Option.isSome_none, Bool.not_false,
    Bool.and_self, if_true]
  rw [settle_of_handle rfl (by rw [handle_of_trigger rfl rfl]; rfl), handle_of_trigger rfl rfl]
  have h1 : hitChannels s d [] = .const false := PerChannel.ext_get fun c => by
    simp [hitChannels, CaptureSetup.hits]
  have h2 : hitAgain s d [] = .const false := PerChannel.ext_get fun c => by
    simp [hitAgain, CaptureSetup.hits]
  refine ⟨rfl, rfl, rfl, rfl, hc, hl, ?_, ?_, rfl, fun c h => polarity_armTimer r.timer armedAt h,
    nofun, rfl, rfl, rfl, nofun, nofun⟩
  · rw [h1, h2]
    rfl
  · rw [h1]
    refine congrArg₂ (Flags.mk true false) (PerChannel.ext_get fun c => ?_) rfl
    rw [PerChannel.get_zipWith, PerChannel.get_zipWith]
    rfl

/-- A trigger opens the window of an armed capture. -/
theorem open_trigger {r : Recorder} (hc : r.done.count = 0) (hl : r.done.limit = 1)
    (armedAt : Nat) :
    ((r.arm s d armedAt).trigger start).2 = true ∧
      Open s d start [] ((r.arm s d armedAt).trigger start).1 := by
  obtain ⟨hstarted, hrunning⟩ := running_trigger hc hl armedAt
  exact ⟨hstarted, hrunning, nofun⟩

/-! ## Arrivals -/

/-- No event calls the handler while a window runs. -/
theorem Running.not_pending {seen : List Arrival} {r : Recorder} (h : Running s d start seen r) :
    r.timer.pending = false := by
  rw [Registers.pending, h.status, h.interrupts, Flags.any_eq_false_iff]
  refine congrArg₂ (Flags.mk false false) (PerChannel.ext_get fun c => ?_)
    (PerChannel.ext_get fun c => ?_)
  · rw [PerChannel.get_zipWith, PerChannel.get_zipWith]
    cases (hitChannels s d seen).get c <;> simp
  · rw [PerChannel.get_zipWith]
    simp

/-- An arrival that is no watched channel's first hit changes at most which channels were hit more
than once. -/
theorem Running.repeated {seen : List Arrival} {r : Recorder} (h : Running s d start seen r)
    {a : Arrival} (hl : NoLater seen [a]) (hs : start ≤ a.1) (ha : a.1 ≤ s.windowEnd d start seen)
    (hm : ∀ c, s.enables c d = true →
      (s.hits (seen ++ [a]) c).head? = (s.hits seen c).head?) :
    Running s d start (seen ++ [a]) { r with timer :=
      { r.timer with status.overcapture := hitAgain s d (seen ++ [a]) } } := by
  have hcomp : s.completed? d (seen ++ [a]) = s.completed? d seen :=
    CaptureSetup.completed?_append_of_hit hl fun c hc h0 => by
      rw [← List.head?_eq_none_iff, hm c (CaptureSetup.mem_watched.mp hc), h0]
      rfl
  have hcounter : counterAfter s d start (seen ++ [a]) = counterAfter s d start seen := by
    rw [counterAfter, counterAfter, hcomp]
  have hhit : hitChannels s d (seen ++ [a]) = hitChannels s d seen :=
    PerChannel.ext_get fun c => by
      simp only [hitChannels, PerChannel.get_ofFn]
      cases hc : s.enables c d with
      | false => rfl
      | true => rw [hm c hc]
  exact
    { h with
      status := by simp only [hhit, h.status]
      interrupts := by rw [hhit]; exact h.interrupts
      latched := fun c hc t ht => h.latched c hc t (by rwa [hm c hc] at ht)
      since := by rw [hcounter]; exact h.since
      base := by rw [hcounter]; exact h.base
      reload := by rw [hcounter]; exact h.reload
      later := fun b hb => by
        rcases List.mem_append.mp hb with hb | hb
        · exact h.later b hb
        · rwa [List.mem_singleton.mp hb]
      inTime := CaptureSetup.le_windowEnd_append_singleton hl ha }

/-- Cutting the window, field by field. -/
theorem cutWindow_eq (t : Registers) {bounceTicks now : Nat}
    (h : t.counterAt now + bounceTicks ≤ Limits.wordMax) :
    cutWindow t bounceTicks now =
      { t with
        base := t.counterAt now
        since := some now
        reload := min t.reload (max 1 (t.counterAt now + bounceTicks)) } := by
  unfold cutWindow
  have hstop : (t.stopCounter now).counterAt now = t.counterAt now := rfl
  simp only [hstop]
  rw [Nat.min_eq_left h, Nat.max_comm]
  split
  · rename_i hlt
    simp only [Registers.stopCounter] at hlt
    simp only [Registers.startCounter, Registers.setReload, Registers.stopCounter,
      Option.getD_none, Nat.min_eq_right (Nat.le_of_lt hlt)]
  · rename_i hlt
    simp only [Registers.stopCounter] at hlt
    simp only [Registers.startCounter, Registers.stopCounter, Option.getD_none,
      Nat.min_eq_left (Nat.not_lt.mp hlt)]

theorem hitChannels_append_of_hit {seen : List Arrival} {a : Arrival} {c : Channel}
    (hc : s.enables c d = true) (hi : a.2.1 = c.val) (he : a.2.2 = (s.channels.get c).edge) :
    hitChannels s d (seen ++ [a]) = (hitChannels s d seen).set c true := by
  refine PerChannel.ext_get fun c' => ?_
  rw [PerChannel.get_set]
  simp only [hitChannels, PerChannel.get_ofFn]
  split
  · rename_i hcc
    rw [← hcc, hc, CaptureSetup.hits_append_of_hit hi he]
    simp
  · rename_i hcc
    rw [CaptureSetup.hits_append_of_miss fun h0 => hcc (Fin.ext (hi.symm.trans h0.1))]

theorem hitAgain_append_of_hit {seen : List Arrival} {a : Arrival} {c : Channel}
    (hc : s.enables c d = true) (hi : a.2.1 = c.val) (he : a.2.2 = (s.channels.get c).edge) :
    hitAgain s d (seen ++ [a])
      = (hitAgain s d seen).set c (decide (s.hits seen c ≠ [])) := by
  refine PerChannel.ext_get fun c' => ?_
  rw [PerChannel.get_set]
  simp only [hitAgain, PerChannel.get_ofFn]
  split
  · rename_i hcc
    rw [← hcc, hc, CaptureSetup.hits_append_of_hit hi he, Bool.true_and, List.length_append,
      List.length_singleton, decide_eq_decide, Nat.lt_add_left_iff_pos, List.length_pos_iff]
  · rename_i hcc
    rw [CaptureSetup.hits_append_of_miss fun h0 => hcc (Fin.ext (hi.symm.trans h0.1))]

theorem hitAgain_append_of_miss {seen : List Arrival} {a : Arrival}
    (hm : ∀ c, s.enables c d = true → s.hits (seen ++ [a]) c = s.hits seen c) :
    hitAgain s d (seen ++ [a]) = hitAgain s d seen :=
  PerChannel.ext_get fun c => by
    simp only [hitAgain, PerChannel.get_ofFn]
    cases hc : s.enables c d with
    | false => rfl
    | true => rw [hm c hc]

/-- An arrival that hits no watched channel changes nothing. -/
theorem Running.miss {seen : List Arrival} {r : Recorder} (h : Running s d start seen r)
    {a : Arrival} (hl : NoLater seen [a]) (hs : start ≤ a.1) (ha : a.1 ≤ s.windowEnd d start seen)
    (hm : ∀ c, s.enables c d = true → s.hits (seen ++ [a]) c = s.hits seen c) :
    Running s d start (seen ++ [a]) r := by
  have := h.repeated hl hs ha fun c hc => by rw [hm c hc]
  rw [hitAgain_append_of_miss hm] at this
  have heq : r.timer.status.overcapture = hitAgain s d seen := by rw [h.status]
  rw [← heq] at this
  exact this

/-- A recorder once an edge was latched on a channel. -/
def latch (r : Recorder) (c : Channel) (now : Nat) : Recorder :=
  { r with timer :=
    { r.timer with
      latched := r.timer.latched.set c (r.timer.counterAt now)
      status.capture := r.timer.status.capture.set c true } }

/-- All watched channels have been hit once a recorder has captures of all it masks. -/
theorem hitChannels_eq_mask_iff {seen : List Arrival} (hw : s.watched d ≠ []) :
    hitChannels s d seen = maskOf s d ↔ (s.completed? d seen).isSome := by
  rw [CaptureSetup.completed?_isSome_iff, and_iff_right hw]
  constructor
  · intro h c hc h0
    have hg := congrArg (·.get c) h
    simp [hitChannels, CaptureSetup.mem_watched.mp hc, h0] at hg
  · intro h
    refine PerChannel.ext_get fun c => ?_
    simp only [hitChannels, PerChannel.get_ofFn, get_maskOf]
    cases hc : s.enables c d with
    | false => rfl
    | true =>
      obtain ⟨u, us, hu⟩ := List.exists_cons_of_ne_nil (h c (CaptureSetup.mem_watched.mpr hc))
      rw [hu]
      rfl

/-- The captures of a recorder are the hits of its watched channels. -/
theorem captured_eq {seen : List Arrival} {r : Recorder} (hm : r.mask = maskOf s d)
    (hs : r.timer.status.capture = hitChannels s d seen) : r.captured = hitChannels s d seen := by
  rw [captured, hm, hs]
  refine PerChannel.ext_get fun c => ?_
  simp only [PerChannel.get_zipWith, get_maskOf, hitChannels, PerChannel.get_ofFn]
  cases s.enables c d <;> simp

/-- The first hit of a watched channel calls the handler, for nothing but the capture. -/
theorem Running.pendingFlags_latch {seen : List Arrival} {r : Recorder}
    (h : Running s d start seen r)
    {c : Channel} (hc : s.enables c d = true) (hseen : s.hits seen c = []) (now : Nat) :
    (r.latch c now).pendingFlags.trigger = false ∧ (r.latch c now).pendingFlags.update = false ∧
      ((r.latch c now).pendingFlags.capture.ch0 || (r.latch c now).pendingFlags.capture.ch1)
        = true := by
  have hget : (r.latch c now).pendingFlags.capture.get c = true := by
    simp [pendingFlags, Flags.inter, Flags.zipWith, latch, h.interrupts, hc, hitChannels, hseen]
  refine ⟨?_, ?_, ?_⟩
  · simp [pendingFlags, Flags.inter, Flags.zipWith, latch, h.status]
  · simp [pendingFlags, Flags.inter, Flags.zipWith, latch, h.status]
  · exact PerChannel.or_eq_true_iff.mpr ⟨c, hget⟩

theorem Running.pending_latch {seen : List Arrival} {r : Recorder} (h : Running s d start seen r)
    {c : Channel} (hc : s.enables c d = true) (hseen : s.hits seen c = []) (now : Nat) :
    (r.latch c now).timer.pending = true := by
  show (r.latch c now).pendingFlags.any = true
  rw [Flags.any, (h.pendingFlags_latch hc hseen now).2.2]
  simp

/-- The first hit of a watched channel is latched, and the handler notes it. -/
theorem Running.first {seen : List Arrival} {r : Recorder} (h : Running s d start seen r)
    (hv : s.Valid) {a : Arrival} (hl : NoLater seen [a]) (hs : start ≤ a.1)
    (ha : a.1 ≤ s.windowEnd d start seen)
    {c : Channel} (hc : s.enables c d = true) (hi : a.2.1 = c.val)
    (he : a.2.2 = (s.channels.get c).edge) (hseen : s.hits seen c = []) :
    Running s d start (seen ++ [a]) ((r.latch c a.1).handle a.1) := by
  have hhit : hitChannels s d (seen ++ [a]) = (hitChannels s d seen).set c true :=
    hitChannels_append_of_hit hc hi he
  have hagain : Recorder.hitAgain s d (seen ++ [a]) = Recorder.hitAgain s d seen := by
    rw [hitAgain_append_of_hit hc hi he, hseen]
    refine PerChannel.ext_get fun c' => ?_
    rw [PerChannel.get_set]
    split
    · rename_i hcc
      simp [Recorder.hitAgain, ← hcc, hseen]
    · rfl
  have hnone : s.completed? d seen = none := by
    rw [← Option.not_isSome_iff_eq_none, CaptureSetup.completed?_isSome_iff]
    exact fun h0 => h0.2 c (CaptureSetup.mem_watched.mpr hc) hseen
  have hplanned : a.1 ≤ s.plannedEnd start := by
    rwa [CaptureSetup.windowEnd_of_none hnone] at ha
  have hcount : r.timer.counterAt a.1 = CaptureSetup.ticksAt start a.1 :=
    h.counterAt_eq hnone hplanned
  have hcapture : (r.latch c a.1).timer.status.capture = hitChannels s d (seen ++ [a]) := by
    rw [hhit, latch, h.status]
  obtain ⟨ht, hu, hp⟩ := h.pendingFlags_latch hc hseen a.1
  rw [handle_of_capture (r := r.latch c a.1) h.aborted ht hu hp,
    captured_eq (r := r.latch c a.1) h.mask hcapture]
  -- all but the counter is the same whether or not the window is complete now
  have hopen : ∀ {since base reload},
      since = some (counterAfter s d start (seen ++ [a])).1 →
      base = (counterAfter s d start (seen ++ [a])).2.1 →
      reload = (counterAfter s d start (seen ++ [a])).2.2 →
      Running s d start (seen ++ [a])
        { r with timer :=
          { (r.latch c a.1).timer with
            since := since
            base := base
            reload := reload
            interrupts :=
              r.timer.interrupts.diff (.captures (hitChannels s d (seen ++ [a]))) } } := by
    intro since base reload hsince hbase hreload
    exact
      { aborted := h.aborted
        timeoutTicks := h.timeoutTicks
        bounceTicks := h.bounceTicks
        mask := h.mask
        done_count := h.done_count
        done_limit := h.done_limit
        status := by
          rw [hhit, hagain]
          simp only [latch, h.status]
        interrupts := by
          rw [h.interrupts]
          refine congrArg₂ (Flags.mk true false) (PerChannel.ext_get fun c' => ?_) rfl
          rw [hhit]
          simp only [Flags.captures, PerChannel.get_zipWith, PerChannel.get_set, get_maskOf]
          split <;> simp
        enabled := h.enabled
        polarity := h.polarity
        latched := fun c' hc' t ht => by
          simp only [latch, PerChannel.get_set]
          by_cases hcc : c = c'
          · rw [← hcc, CaptureSetup.hits_append_of_hit hi he, hseen] at ht
            cases ht
            rw [if_pos hcc, hcount]
          · rw [CaptureSetup.hits_append_of_miss fun h0 => hcc (Fin.ext (hi.symm.trans h0.1))] at ht
            rw [if_neg hcc]
            exact h.latched c' hc' t ht
        since := hsince
        base := hbase
        reload := hreload
        later := fun b hb => by
          rcases List.mem_append.mp hb with hb | hb
          · exact h.later b hb
          · rwa [List.mem_singleton.mp hb]
        inTime := CaptureSetup.le_windowEnd_append_singleton hl ha }
  have hw : s.watched d ≠ [] := List.ne_nil_of_mem (CaptureSetup.mem_watched.mpr hc)
  by_cases hall : hitChannels s d (seen ++ [a]) = maskOf s d
  · have hsome := CaptureSetup.completed?_append_singleton hl hnone
      ((hitChannels_eq_mask_iff hw).mp hall)
    have hbound : (r.latch c a.1).timer.counterAt a.1 + (r.latch c a.1).bounceTicks
        ≤ Limits.wordMax := by
      have h1 := CaptureSetup.windowTicks_le hv
      have h2 := CaptureSetup.ticksAt_le hplanned
      show r.timer.counterAt a.1 + r.bounceTicks ≤ _
      rw [hcount, h.bounceTicks]
      omega
    rw [if_pos (show _ = (r.latch c a.1).mask from hall.trans h.mask.symm), cutWindow_eq _ hbound]
    refine hopen ?_ ?_ ?_ <;> rw [counterAfter, hsome]
    · exact hcount
    · show min r.timer.reload (max 1 (r.timer.counterAt a.1 + r.bounceTicks)) = _
      rw [h.reload, hcount, h.bounceTicks, counterAfter, hnone]
      rfl
  · have hnone' : s.completed? d (seen ++ [a]) = none := by
      rw [← Option.not_isSome_iff_eq_none]
      exact fun h0 => hall ((hitChannels_eq_mask_iff hw).mpr h0)
    have hcounter : counterAfter s d start (seen ++ [a]) = counterAfter s d start seen := by
      rw [counterAfter, counterAfter, hnone, hnone']
    rw [if_neg (show ¬_ = (r.latch c a.1).mask from fun h0 => hall (h0.trans h.mask))]
    refine hopen ?_ ?_ ?_ <;> rw [hcounter]
    · exact h.since
    · exact h.base
    · exact h.reload

/-- An arrival up to the end of a window leaves it running. -/
theorem Running.edge {seen : List Arrival} {r : Recorder} (h : Running s d start seen r)
    (hv : s.Valid) {t : Nat} {c : Channel} {e : Edge} (hl : NoLater seen [(t, c.val, e)])
    (hs : start ≤ t) (ht : t ≤ s.windowEnd d start seen) :
    Running s d start (seen ++ [(t, c.val, e)]) (r.edge c e t).1 := by
  have hcounting : r.timer.counting = true := by rw [Registers.counting, h.since]; rfl
  by_cases hmine : s.enables c d = true ∧ e = (s.channels.get c).edge
  case neg =>
    have hnot : r.timer.edge c e t = (r.timer, false) := by
      rw [Registers.edge, if_neg]
      rw [h.enabled, get_maskOf, Bool.and_eq_true, Bool.and_eq_true, beq_iff_eq]
      rintro ⟨⟨-, hc⟩, he⟩
      exact hmine ⟨hc, he.symm.trans (h.polarity c hc)⟩
    have hr : (r.edge c e t).1 = r := by
      unfold Recorder.edge
      rw [hnot]
      rfl
    rw [hr]
    refine h.miss hl hs ht fun c' hc' => CaptureSetup.hits_append_of_miss ?_
    rintro ⟨hi, he⟩
    rw [Fin.ext hi] at hmine
    exact hmine ⟨hc', he⟩
  case pos =>
    obtain ⟨hc, he⟩ := hmine
    have htaken : (r.timer.counting && r.timer.enabled.get c && r.timer.polarity.get c == e)
        = true := by
      rw [hcounting, h.enabled, get_maskOf, hc, h.polarity c hc, he]
      simp
    have hcap : r.timer.status.capture.get c = (s.hits seen c).head?.isSome := by
      rw [h.status]
      simp [hitChannels, hc]
    unfold Recorder.edge
    rw [Registers.edge, if_pos htaken, hcap]
    cases hseen : s.hits seen c with
    | cons u us =>
      have hopen := h.repeated hl hs ht fun c' _ => by
        by_cases hcc : c = c'
        · rw [← hcc, CaptureSetup.hits_append_of_hit rfl he, hseen]
          rfl
        · rw [CaptureSetup.hits_append_of_miss fun h0 => hcc (Fin.ext h0.1)]
      have hover : hitAgain s d (seen ++ [(t, c.val, e)])
          = r.timer.status.overcapture.set c true := by
        rw [hitAgain_append_of_hit hc rfl he, h.status, hseen]
        rfl
      rw [hover] at hopen
      simp only [List.head?_cons, Option.isSome_some, if_true]
      rwa [settle_of_not_pending hopen.not_pending]
    | nil =>
      have hopen := h.first hv hl hs ht hc rfl he hseen
      simp only [List.head?_nil, Option.isSome_none, Bool.false_eq_true, if_false, if_true]
      show Running s d start _ ((r.latch c t).settle t)
      rwa [settle_of_handle (h.pending_latch hc hseen t) hopen.not_pending]

/-- So does an arrival at any input, whether there is a channel for it or not. -/
theorem Running.arrive {seen : List Arrival} {r : Recorder} (h : Running s d start seen r)
    (hv : s.Valid) {a : Arrival} (hl : NoLater seen [a]) (hs : start ≤ a.1)
    (ha : a.1 ≤ s.windowEnd d start seen) :
    Running s d start (seen ++ [a])
      (match Channel.ofNat? a.2.1 with
        | some c => (r.edge c a.2.2 a.1).1
        | none => r) := by
  obtain ⟨t, n, e⟩ := a
  cases hc : Channel.ofNat? n with
  | some c =>
    have hn : n = c.val := by
      unfold Channel.ofNat? at hc
      split at hc <;> cases hc
      rfl
    rw [hn] at hl ⊢
    exact h.edge hv hl hs ha
  | none =>
    refine h.miss hl hs ha fun c _ => CaptureSetup.hits_append_of_miss ?_
    rintro ⟨hi, -⟩
    unfold Channel.ofNat? at hc
    rw [dif_pos (by rw [show n = c.val from hi]; exact c.isLt)] at hc
    cases hc

/-- An arrival before the end of an open window leaves it open. -/
theorem Open.arrive {seen : List Arrival} {r : Recorder} (h : Open s d start seen r) (hv : s.Valid)
    {a : Arrival} (hl : Earlier seen [a]) (hs : start ≤ a.1)
    (ha : a.1 < s.windowEnd d start seen) :
    Open s d start (seen ++ [a])
      (match Channel.ofNat? a.2.1 with
        | some c => (r.edge c a.2.2 a.1).1
        | none => r) :=
  ⟨h.toRunning.arrive hv hl.noLater hs (Nat.le_of_lt ha),
    CaptureSetup.inWindow_append_singleton hl ha h.inWindow⟩

/-! ## The end of the window -/

/-- A recorder whose capture has ended with some readings, and has not been collected. -/
structure Closed (readings : List Reading) (r : Recorder) : Prop where
  aborted : r.aborted = false
  done_count : r.done.count = 1
  since : r.timer.since = none
  readings : (readOut r.timer r.timeoutTicks).2 = readings

/-- The reading of a watched channel is that of its hits. -/
theorem Running.readingAt_eq {seen : List Arrival} {r : Recorder} (h : Running s d start seen r)
    (hv : s.Valid) {t : Registers} (hcap : t.status.capture = r.timer.status.capture)
    (hover : t.status.overcapture = r.timer.status.overcapture)
    (hlatch : t.latched = r.timer.latched) {c : Channel} (hc : s.enables c d = true) :
    readingAt t r.timeoutTicks c = s.readingOfHits start (s.hits seen c) := by
  unfold readingAt
  rw [hcap, hover, hlatch, h.status, h.timeoutTicks]
  simp only [hitChannels, hitAgain, PerChannel.get_ofFn, hc, Bool.true_and]
  cases hseen : s.hits seen c with
  | nil => rfl
  | cons u us =>
    have hu : r.timer.latched.get c = CaptureSetup.ticksAt start u :=
      h.latched c hc u (by rw [hseen]; rfl)
    have hmax : CaptureSetup.ticksAt start u * Limits.tickUs ≤ Limits.wordMax := by
      have hmem : u ∈ s.hits seen c := by rw [hseen]; exact List.mem_cons_self
      obtain ⟨b, hb, rfl⟩ := CaptureSetup.mem_hits hmem
      exact CaptureSetup.ticksAt_mul_le hv (h.inTime b hb)
    simp only [List.head?_cons, Option.isSome_some, if_true, readingOf, CaptureSetup.readingOfHits,
      hu, Nat.min_eq_left hmax]
    rw [Nat.mul_comm]
    cases us with
    | nil => rfl
    | cons v vs => simp

/-- The end of the timer's period puts the timer at rest and announces the end of the capture. -/
theorem Running.expire_eq {seen : List Arrival} {r : Recorder} (h : Running s d start seen r)
    (deadline now : Nat) :
    r.expire deadline now
      = { r with timer := quiesce (r.timer.expire deadline) now, done := r.done.give } := by
  have ht :
      ({ r with timer := r.timer.expire deadline } : Recorder).pendingFlags.trigger = false := by
    simp [pendingFlags, Flags.inter, Flags.zipWith, Registers.expire, h.status]
  have hu :
      ({ r with timer := r.timer.expire deadline } : Recorder).pendingFlags.update = true := by
    simp [pendingFlags, Flags.inter, Flags.zipWith, Registers.expire, h.interrupts]
  have hhandle :=
    handle_of_update (r := { r with timer := r.timer.expire deadline }) h.aborted ht hu now
  unfold Recorder.expire
  rw [settle_of_handle, hhandle]
  · show ({ r with timer := r.timer.expire deadline } : Recorder).pendingFlags.any = true
    rw [Flags.any, hu]
    rfl
  · rw [hhandle]
    simp [Registers.pending, quiesce, Registers.setInterrupts]

/-- The end of the timer's period closes a window. -/
theorem Running.expire {seen : List Arrival} {r : Recorder} (h : Running s d start seen r)
    (hv : s.Valid) (deadline now : Nat) :
    Closed ((s.watched d).map fun c => s.readingOfHits start (s.hits seen c))
      (r.expire deadline now) := by
  rw [h.expire_eq]
  refine ⟨h.aborted, ?_, rfl, ?_⟩
  · rw [Semaphore.count_give, h.done_count, h.done_limit]
    rfl
  · obtain ⟨f, hf⟩ := readOut_eq (quiesce (r.timer.expire deadline) now) r.timeoutTicks
    have henabled : (quiesce (r.timer.expire deadline) now).enabled = maskOf s d := h.enabled
    simp only [hf, henabled]
    have hfilter : Channel.all.filter (maskOf s d).get = s.watched d :=
      List.filter_congr fun c _ => by rw [get_maskOf]
    rw [hfilter]
    exact List.map_congr_left fun c hc =>
      h.readingAt_eq hv rfl rfl rfl (CaptureSetup.mem_watched.mp hc)

/-! ## Collecting -/

/-- A capture whose window runs cannot be collected. -/
theorem Running.finish? {seen : List Arrival} {r : Recorder} (h : Running s d start seen r)
    (buffer : List Reading) : r.finish? buffer = none := by
  unfold Recorder.finish? takeDone?
  rw [Semaphore.take?_eq_none_iff.mpr h.done_count]
  rfl

/-- A closed capture is collected with its readings, cut at the end of the buffer or followed by
blanks. -/
theorem Closed.finish? {readings : List Reading} {r : Recorder} (h : Closed readings r)
    (buffer : List Reading) :
    (r.finish? buffer).map (·.2) = some (.ok,
      (readings ++ List.replicate buffer.length Reading.blank).take buffer.length) := by
  unfold Recorder.finish? takeDone?
  cases ht : r.done.take? with
  | none =>
    rw [Semaphore.take?_eq_none_iff, h.done_count] at ht
    cases ht
  | some p =>
    simp only [Option.map_some, collect, h.aborted, Bool.false_eq_true, if_false, h.readings, fill,
      List.take_append, List.take_replicate]
    rw [Nat.min_eq_left (Nat.sub_le _ _)]

/-- Nothing is latched on a closed recorder. -/
theorem Closed.edge {readings : List Reading} {r : Recorder} (h : Closed readings r) (c : Channel)
    (e : Edge) (now : Nat) : (r.edge c e now).1 = r := by
  have hnot : r.timer.edge c e now = (r.timer, false) := by
    rw [Registers.edge, Registers.counting, h.since]
    rfl
  unfold Recorder.edge
  rw [hnot]
  rfl

end Recorder

end SwitchBench
