import SwitchBench.Recorder

/-!
# What the recorder does to its timer

Handling an event is one of four things (`Recorder.Served`): nothing, noting the trigger, ending
the window, or noting the captures so far, which cuts the window once every watched channel has
one. Reading out only forgets events.

Results: `exists_cutWindow_eq` (what cutting the window changes), `served_service` (handling is one
of the four), `readOut_eq` (what reading out gives, and that it changes nothing but the events).
-/

namespace SwitchBench

namespace Recorder

open Timer

/-- The events that call the handler, of those that happened. -/
def pendingFlags (r : Recorder) : Flags := r.timer.status.inter r.timer.interrupts

/-- The watched channels that have captured. -/
def captured (r : Recorder) : PerChannel Bool :=
  PerChannel.zipWith (· && ·) r.timer.status.capture r.mask

/-- What handling an event can do, and whether it ends the capture. -/
inductive Served (r : Recorder) (now : Nat) : Recorder × Bool → Prop
  | nothing (h : r.aborted = true ∨
      (r.pendingFlags.trigger = false ∧ r.pendingFlags.update = false ∧
        (r.pendingFlags.capture.ch0 || r.pendingFlags.capture.ch1) = false)) :
      Served r now (r, false)
  | noteTrigger (ha : r.aborted = false) (hp : r.pendingFlags.trigger = true) :
      Served r now
        ({ r with timer :=
            (r.timer.setInterrupts (r.timer.interrupts.diff .triggerOnly)).clear .triggerOnly },
          false)
  | endWindow (ha : r.aborted = false) (ht : r.pendingFlags.trigger = false)
      (hp : r.pendingFlags.update = true) :
      Served r now ({ r with timer := quiesce r.timer now }, true)
  | noteCaptures (ha : r.aborted = false) (ht : r.pendingFlags.trigger = false)
      (hu : r.pendingFlags.update = false)
      (hp : (r.pendingFlags.capture.ch0 || r.pendingFlags.capture.ch1) = true) :
      Served r now
        ({ r with timer :=
          (if r.captured = r.mask then cutWindow r.timer r.bounceTicks now
            else r.timer).setInterrupts (r.timer.interrupts.diff (.captures r.captured)) }, false)

/-- Cutting the window starts the counter again where it stands, and may leave it less to go. -/
theorem exists_cutWindow_eq (t : Registers) (bounceTicks now : Nat) :
    ∃ reload, cutWindow t bounceTicks now =
        { t with base := t.counterAt now, since := some now, reload := reload } ∧
      (reload = t.reload ∨ 1 ≤ reload ∧ reload < t.reload) := by
  unfold cutWindow
  simp only
  split
  · rename_i hless
    exact ⟨_, rfl, .inr ⟨Nat.le_max_right _ _, hless⟩⟩
  · exact ⟨_, rfl, .inl rfl⟩

/-- **Handling an event is one of the four.** -/
theorem served_service (r : Recorder) (now : Nat) :
    Served r now (r.service now) := by
  unfold service
  dsimp only
  split
  · rename_i ha
    exact .nothing (.inl ha)
  rename_i ha
  have ha := eq_false_of_ne_true ha
  split
  · rename_i ht
    exact .noteTrigger ha ht
  rename_i ht
  have ht := eq_false_of_ne_true ht
  split
  · rename_i hu
    exact .endWindow ha ht hu
  rename_i hu
  have hu := eq_false_of_ne_true hu
  split
  · rename_i hc
    exact .noteCaptures ha ht hu hc
  · rename_i hc
    exact .nothing (.inr ⟨ht, hu, eq_false_of_ne_true hc⟩)

theorem pendingFlags_of_interrupts {r : Recorder} (h : r.timer.interrupts = .none) :
    r.pendingFlags = .none := by
  rw [pendingFlags, h, Flags.inter_none]

/-- With no event pending there is nothing to handle. -/
theorem service_of_quiet {r : Recorder} (h : r.pendingFlags = .none) (now : Nat) :
    r.service now = (r, false) := by
  have hs := served_service r now
  generalize r.service now = x at hs ⊢
  cases hs with
  | nothing _ => rfl
  | noteTrigger _ hp | endWindow _ _ hp | noteCaptures _ _ _ hp =>
    rw [h] at hp
    cases hp

theorem handle_of_trigger {r : Recorder} (ha : r.aborted = false)
    (hp : r.pendingFlags.trigger = true) (now : Nat) :
    r.handle now = { r with timer :=
      (r.timer.setInterrupts (r.timer.interrupts.diff .triggerOnly)).clear .triggerOnly } := by
  have hs := served_service r now
  unfold handle
  generalize r.service now = x at hs ⊢
  cases hs with
  | noteTrigger _ _ => rfl
  | nothing h => simp_all
  | endWindow _ ht _ => exact absurd (hp.symm.trans ht) (by simp)
  | noteCaptures _ ht _ _ => exact absurd (hp.symm.trans ht) (by simp)

theorem handle_of_update {r : Recorder} (ha : r.aborted = false)
    (ht : r.pendingFlags.trigger = false) (hp : r.pendingFlags.update = true) (now : Nat) :
    r.handle now = { r with timer := quiesce r.timer now, done := r.done.give } := by
  have hs := served_service r now
  unfold handle
  generalize r.service now = x at hs ⊢
  cases hs with
  | endWindow _ _ _ => rfl
  | nothing h => simp_all
  | noteTrigger _ h => exact absurd (ht.symm.trans h) (by simp)
  | noteCaptures _ _ hu _ => exact absurd (hp.symm.trans hu) (by simp)

theorem handle_of_capture {r : Recorder} (ha : r.aborted = false)
    (ht : r.pendingFlags.trigger = false) (hu : r.pendingFlags.update = false)
    (hp : (r.pendingFlags.capture.ch0 || r.pendingFlags.capture.ch1) = true) (now : Nat) :
    r.handle now = { r with timer :=
      (if r.captured = r.mask then cutWindow r.timer r.bounceTicks now
        else r.timer).setInterrupts (r.timer.interrupts.diff (.captures r.captured)) } := by
  have hs := served_service r now
  unfold handle
  generalize r.service now = x at hs ⊢
  cases hs with
  | noteCaptures _ _ _ _ => rfl
  | nothing h => simp_all
  | noteTrigger _ h => exact absurd (ht.symm.trans h) (by simp)
  | endWindow _ _ h => exact absurd (hu.symm.trans h) (by simp)

/-- Without a pending event the handler is not called. -/
theorem settle_of_not_pending {r : Recorder} (h : r.timer.pending = false) (now : Nat) :
    r.settle now = r :=
  @Timer.settle_of_not_pending _ (fun r : Recorder => r.timer.pending) _ _ h _

/-- An event that one call of the handler deals with. -/
theorem settle_of_handle {r : Recorder} {now : Nat} (hp : r.timer.pending = true)
    (hq : (r.handle now).timer.pending = false) : r.settle now = r.handle now := by
  show Timer.settle _ _ (7 + 1) r = _
  rw [Timer.settle, if_pos hp]
  exact @Timer.settle_of_not_pending _ (fun r : Recorder => r.timer.pending) _ _ hq 7

/-! ## Reading out -/

/-- The reading of a channel, from what the timer latched and the events it noted. -/
def readingAt (t : Registers) (timeoutTicks : Nat) (c : Channel) : Reading :=
  if t.status.capture.get c then
    readingOf timeoutTicks (t.latched.get c) (t.status.overcapture.get c)
  else ⟨.timeout, Limits.noValueUs⟩

/-- Reading a channel out forgets events and nothing else. -/
theorem readChannel_eq (t : Registers) (f : Flags) (timeoutTicks : Nat) (c : Channel) :
    ∃ f', readChannel { t with status := f } t.status timeoutTicks c
      = ({ t with status := f' }, readingAt t timeoutTicks c) := by
  unfold readChannel readingAt
  split
  · simp only [Registers.readLatched, Registers.clear]
    split
    · exact ⟨_, rfl⟩
    · exact ⟨_, rfl⟩
  · exact ⟨_, rfl⟩

/-- Reads one channel out, if it is on, after some readings. -/
def readNext (t : Registers) (timeoutTicks : Nat) (x : Registers × List Reading) (c : Channel) :
    Registers × List Reading :=
  if x.1.enabled.get c then
    ((readChannel x.1 t.status timeoutTicks c).1,
      x.2 ++ [(readChannel x.1 t.status timeoutTicks c).2])
  else x

/-- Reading channels out forgets events and nothing else. -/
theorem foldl_readNext (t : Registers) (timeoutTicks : Nat) (l : List Channel) (f : Flags)
    (acc : List Reading) :
    ∃ f', l.foldl (readNext t timeoutTicks) ({ t with status := f }, acc)
      = ({ t with status := f' },
          acc ++ (l.filter t.enabled.get).map (readingAt t timeoutTicks)) := by
  induction l generalizing f acc with
  | nil => exact ⟨f, by simp⟩
  | cons c l ih =>
    rw [List.foldl_cons, List.filter_cons, readNext]
    split
    · obtain ⟨f', hf⟩ := readChannel_eq t f timeoutTicks c
      obtain ⟨f'', hi⟩ := ih f' (acc ++ [readingAt t timeoutTicks c])
      exact ⟨f'', by simp only [hf, hi, List.map_cons, List.append_assoc, List.singleton_append]⟩
    · exact ih f acc

/-- **Reading out forgets events and nothing else, and gives the readings of the channels that are
on, in channel order.** -/
theorem readOut_eq (t : Registers) (timeoutTicks : Nat) :
    ∃ f, readOut t timeoutTicks
      = ({ t with status := f },
          (Channel.all.filter t.enabled.get).map (readingAt t timeoutTicks)) := by
  obtain ⟨f, hf⟩ := foldl_readNext t timeoutTicks Channel.all t.status []
  exact ⟨f, hf⟩

/-- Collecting a capture changes nothing but the timer's events. -/
theorem fst_collect (r : Recorder) : ∃ f, r.collect.1 = { r with timer.status := f } := by
  unfold collect
  split
  · exact ⟨_, rfl⟩
  · obtain ⟨f, hf⟩ := readOut_eq r.timer r.timeoutTicks
    exact ⟨f, by simp only [hf]⟩

end Recorder

end SwitchBench
