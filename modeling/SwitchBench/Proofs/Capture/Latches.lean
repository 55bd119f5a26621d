import SwitchBench.Proofs.Capture.OneCapture

/-!
# What the timer has latched

A channel that is on takes edges while the counter runs. `Registers.Latches` says what the registers
tell of the edges that each channel has taken, given the counts at which it took them: whether there
was one, whether there were more, and the count at the first. Only an edge that is taken and a
readout change it: neither the trigger nor the end of a period nor the handler nor an abort does
(`SameLatches`).

Results: `Latches.edge` (an edge is latched or changes nothing), `Latches.collect` (a readout gives
the reading of the first edge of each channel that is on).
-/

namespace SwitchBench

namespace Timer.Registers

/-- Have two timers the same channels on, and the same edges latched? -/
structure SameLatches (t u : Registers) : Prop where
  enabled : t.enabled = u.enabled
  latched : t.latched = u.latched
  capture : t.status.capture = u.status.capture
  overcapture : t.status.overcapture = u.status.overcapture

theorem SameLatches.refl (t : Registers) : t.SameLatches t := ⟨rfl, rfl, rfl, rfl⟩

theorem sameLatches_trigger (t : Registers) (now : Nat) : (t.trigger now).1.SameLatches t := by
  unfold trigger
  split <;> exact ⟨rfl, rfl, rfl, rfl⟩

theorem sameLatches_expire (t : Registers) (due : Nat) : (t.expire due).SameLatches t :=
  ⟨rfl, rfl, rfl, rfl⟩

/-- An edge leaves the channels on that are. -/
theorem enabled_edge (t : Registers) (c : Channel) (e : Edge) (now : Nat) :
    (t.edge c e now).1.enabled = t.enabled := by
  unfold Registers.edge
  split
  · split <;> rfl
  · rfl

/-- Has a timer latched edges that its channels took at these counts, oldest first? -/
structure Latches (t : Registers) (hits : Channel → List Nat) : Prop where
  capture : ∀ c, t.status.capture.get c = !(hits c).isEmpty
  overcapture : ∀ c, t.status.overcapture.get c = decide (1 < (hits c).length)
  first : ∀ c n, (hits c).head? = some n → t.latched.get c = n

theorem Latches.of_sameLatches {t u : Registers} {hits : Channel → List Nat} (h : u.Latches hits)
    (hs : t.SameLatches u) : t.Latches hits :=
  ⟨fun c => by rw [hs.capture, h.capture], fun c => by rw [hs.overcapture, h.overcapture],
    fun c n hn => by rw [hs.latched, h.first c n hn]⟩

/-- One more edge on a channel, at a count. -/
def addHit (hits : Channel → List Nat) (c : Channel) (ticks : Nat) : Channel → List Nat :=
  fun c' => if c = c' then hits c' ++ [ticks] else hits c'

/-- The first edge of a channel is latched. -/
theorem Latches.latch {t : Registers} {hits : Channel → List Nat} (h : t.Latches hits) {c : Channel}
    (hc : t.status.capture.get c = false) (ticks : Nat) :
    { t with
      latched := t.latched.set c ticks
      status.capture := t.status.capture.set c true }.Latches (addHit hits c ticks) := by
  have hnil : hits c = [] := by
    rw [h.capture] at hc
    simpa using hc
  refine ⟨fun c' => ?_, fun c' => ?_, fun c' n hn => ?_⟩ <;>
    simp only [addHit, PerChannel.get_set] at * <;> split <;> rename_i hcc
  · simp
  · exact h.capture c'
  · subst hcc
    rw [h.overcapture, hnil]
    rfl
  · exact h.overcapture c'
  · subst hcc
    rw [if_pos rfl, hnil] at hn
    exact Option.some.inj hn
  · rw [if_neg hcc] at hn
    exact h.first c' n hn

/-- A further edge of a channel is noted. -/
theorem Latches.again {t : Registers} {hits : Channel → List Nat} (h : t.Latches hits) {c : Channel}
    (hc : t.status.capture.get c = true) (ticks : Nat) :
    { t with status.overcapture := t.status.overcapture.set c true }.Latches
      (addHit hits c ticks) := by
  have hne : hits c ≠ [] := by
    rw [h.capture] at hc
    simpa using hc
  have hlen : 0 < (hits c).length := List.length_pos_iff.mpr hne
  refine ⟨fun c' => ?_, fun c' => ?_, fun c' n hn => ?_⟩ <;>
    simp only [addHit, PerChannel.get_set] at *
  · rw [h.capture]
    split
    · rename_i hcc
      subst hcc
      rw [List.isEmpty_eq_false_iff.mpr hne, List.isEmpty_eq_false_iff.mpr (by simp)]
    · rfl
  · split
    · rename_i hcc
      subst hcc
      rw [List.length_append, List.length_singleton]
      exact (decide_eq_true (by omega)).symm
    · exact h.overcapture c'
  · refine h.first c' n ?_
    split at hn
    · rename_i hcc
      subst hcc
      rwa [List.head?_append_of_ne_nil _ hne] at hn
    · exact hn

/-- **An edge that is taken is the last one of its channel; one that is not changes nothing.** -/
theorem Latches.edge {t : Registers} {hits : Channel → List Nat} (h : t.Latches hits) (c : Channel)
    (e : Edge) (now : Nat) :
    t.edge c e now = (t, false) ∨
      (t.edge c e now).2 = true ∧
        (t.edge c e now).1.Latches (addHit hits c (t.counterAt now)) := by
  unfold Registers.edge
  split
  case isFalse => exact .inl rfl
  split
  · rename_i hc
    exact .inr ⟨rfl, h.again hc _⟩
  · rename_i hc
    exact .inr ⟨rfl, h.latch (eq_false_of_ne_true hc) _⟩

/-- A timer at rest takes no edge. -/
theorem Rests.edge_eq {t : Registers} (h : t.Rests) (ha : t.armed = false) (c : Channel) (e : Edge)
    (now : Nat) : t.edge c e now = (t, false) := by
  unfold Registers.edge counting
  rw [(h ha).2]
  rfl

end Timer.Registers

namespace Recorder

open Timer

theorem sameLatches_quiesce (t : Registers) (now : Nat) : (quiesce t now).SameLatches t :=
  ⟨rfl, rfl, rfl, rfl⟩

theorem sameLatches_cutWindow (t : Registers) (bounceTicks now : Nat) :
    (cutWindow t bounceTicks now).SameLatches t := by
  obtain ⟨_, he, -⟩ := exists_cutWindow_eq t bounceTicks now
  rw [he]
  exact ⟨rfl, rfl, rfl, rfl⟩

/-- Handling an event leaves alone what is latched. -/
theorem sameLatches_service (r : Recorder) (now : Nat) :
    (r.service now).1.timer.SameLatches r.timer := by
  have hs := served_service r now
  generalize r.service now = x at hs ⊢
  cases hs with
  | nothing _ => exact .refl _
  | noteTrigger _ _ =>
    have hdiff (v : PerChannel Bool) : PerChannel.zipWith (fun x y => x && !y) v (.const false)
        = v := by
      rcases v with ⟨_ | _, _ | _⟩ <;> rfl
    exact ⟨rfl, rfl, hdiff _, hdiff _⟩
  | endWindow _ _ _ => exact sameLatches_quiesce _ _
  | noteCaptures _ _ _ _ =>
    have hcut : (if r.captured = r.mask then cutWindow r.timer r.bounceTicks now
        else r.timer).SameLatches r.timer := by
      split
      · exact sameLatches_cutWindow _ _ _
      · exact .refl _
    exact ⟨hcut.enabled, hcut.latched, hcut.capture, hcut.overcapture⟩

theorem sameLatches_cut (r : Recorder) (now : Nat) : (r.cut now).1.timer.SameLatches r.timer := by
  unfold cut
  split
  · exact sameLatches_quiesce _ _
  · exact .refl _

/-- An armed capture has its channels on and nothing latched. -/
theorem latches_arm (r : Recorder) (s : CaptureSetup) (d : Directions) (now : Nat) :
    (r.arm s d now).timer.enabled = maskOf s d ∧ (r.arm s d now).timer.Latches fun _ => [] := by
  have hdiff (v : PerChannel Bool) : PerChannel.zipWith (fun x y => x && !y) v (.const true)
      = .const false := by
    rcases v with ⟨_ | _, _ | _⟩ <;> rfl
  refine ⟨rfl, fun c => ?_, fun c => ?_, nofun⟩
  · show (PerChannel.zipWith _ _ _).get c = _
    rw [show (Flags.all).capture = .const true from rfl, hdiff]
    simp
  · show (PerChannel.zipWith _ _ _).get c = _
    rw [show (Flags.all).overcapture = .const true from rfl, hdiff]
    simp

/-- The reading of a channel that took edges at these counts, oldest first. -/
def readingOfHits (timeoutTicks : Nat) : List Nat → Reading
  | [] => ⟨.timeout, Limits.noValueUs⟩
  | ticks :: more => readingOf timeoutTicks ticks !more.isEmpty

theorem readingAt_of_latches {t : Registers} {hits : Channel → List Nat} (h : t.Latches hits)
    (timeoutTicks : Nat) (c : Channel) :
    readingAt t timeoutTicks c = readingOfHits timeoutTicks (hits c) := by
  unfold readingAt
  rw [h.capture, h.overcapture]
  cases hc : hits c with
  | nil => rfl
  | cons n more =>
    rw [h.first c n (by rw [hc]; rfl)]
    cases more <;> rfl

/-- **A readout gives the reading of the first edge of each channel that is on.** -/
theorem collect_of_latches {r : Recorder} (ha : r.aborted = false) {hits : Channel → List Nat}
    (h : r.timer.Latches hits) :
    r.collect.2 = some ((Channel.all.filter r.timer.enabled.get).map fun c =>
      readingOfHits r.timeoutTicks (hits c)) := by
  obtain ⟨f, hf⟩ := readOut_eq r.timer r.timeoutTicks
  simp only [collect, ha, Bool.false_eq_true, if_false, hf]
  congr 2
  funext c
  exact readingAt_of_latches h _ c

end Recorder

end SwitchBench
