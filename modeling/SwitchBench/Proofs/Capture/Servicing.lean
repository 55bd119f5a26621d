import Mathlib.Logic.Function.Iterate
import SwitchBench.Proofs.Capture.LateEdges
import SwitchBench.Proofs.Capture.Window

/-!
# Servicing settles

The timer calls its handler while an enabled event is pending, but no more than
`Limits.handlerCallsMax` times for one event. A call deals with one kind of event: the trigger
before the end of the period, and that before the captures, which it takes all at once. Two calls
are enough because of which events can call at all. These are the trigger, the end of the period and
the captures of the watched channels, and there are none once a capture was aborted: only arming
enables events, and everything else leaves them or takes some away (`Registers.Quieter`).

Results: `Disciplined.pendingFlags_handle` (what one call leaves pending), `quieter_of_act` (no
action but arming enables an event), and `servicing_settles` (in every reachable state two calls
leave nothing pending, whatever has happened).
-/

namespace SwitchBench

namespace Timer

namespace Flags

/-- Is every event of the first set in the second? -/
structure Within (a b : Flags) : Prop where
  update : a.update = true → b.update = true
  trigger : a.trigger = true → b.trigger = true
  capture : ∀ ch, a.capture.get ch = true → b.capture.get ch = true
  overcapture : ∀ ch, a.overcapture.get ch = true → b.overcapture.get ch = true

variable {a b c : Flags}

theorem Within.refl (a : Flags) : a.Within a := ⟨id, id, fun _ => id, fun _ => id⟩

theorem Within.trans (h : a.Within b) (h' : b.Within c) : a.Within c :=
  ⟨fun hu => h'.update (h.update hu), fun ht => h'.trigger (h.trigger ht),
    fun ch hc => h'.capture ch (h.capture ch hc),
    fun ch ho => h'.overcapture ch (h.overcapture ch ho)⟩

theorem none_within (a : Flags) : none.Within a :=
  ⟨nofun, nofun, fun ch hc => by simp [none] at hc, fun ch ho => by simp [none] at ho⟩

theorem diff_within (a b : Flags) : (a.diff b).Within a := by
  unfold diff zipWith
  constructor <;> simp +contextual

theorem inter_diff (a b c : Flags) : a.inter (b.diff c) = (a.inter b).diff c := by
  simp only [inter, diff, zipWith, PerChannel.zipWith, Bool.and_assoc]

theorem diff_inter_diff (a b c : Flags) : (a.diff c).inter (b.diff c) = (a.inter b).diff c := by
  have hbit (x y z : Bool) : ((x && !z) && (y && !z)) = ((x && y) && !z) := by
    revert x y z
    decide
  simp only [inter, diff, zipWith, PerChannel.zipWith, hbit]

theorem eq_none (hu : a.update = false) (ht : a.trigger = false)
    (hc : ∀ ch, a.capture.get ch = false) (ho : ∀ ch, a.overcapture.get ch = false) :
    a = none := by
  have hcapture : a.capture = .const false :=
    PerChannel.ext_get fun ch => by rw [hc, PerChannel.get_const]
  have hover : a.overcapture = .const false :=
    PerChannel.ext_get fun ch => by rw [ho, PerChannel.get_const]
  obtain ⟨_, _, _, _⟩ := a
  cases hu
  cases ht
  cases hcapture
  cases hover
  rfl

theorem eq_none_of_within (h : a.Within none) : a = none := by
  refine eq_none (eq_false_of_ne_true fun hu => nomatch h.update hu)
    (eq_false_of_ne_true fun ht => nomatch h.trigger ht)
    (fun ch => eq_false_of_ne_true fun hc => ?_) fun ch => eq_false_of_ne_true fun ho => ?_
  · have hc := h.capture ch hc
    simp [none] at hc
  · have ho := h.overcapture ch ho
    simp [none] at ho

end Flags

namespace Registers

/-- A timer that calls its handler for no more events than before, and has not been set up anew. -/
structure Quieter (t u : Registers) : Prop where
  interrupts : u.interrupts.Within t.interrupts
  enabled : u.enabled = t.enabled
  armed : u.armed = true → t.armed = true
  reload : u.reload ≤ t.reload
  reload_pos : 1 ≤ t.reload → 1 ≤ u.reload

theorem Quieter.refl (t : Registers) : t.Quieter t :=
  ⟨.refl _, rfl, id, Nat.le_refl _, id⟩

theorem quieter_trigger (t : Registers) (now : Nat) : t.Quieter (t.trigger now).1 := by
  unfold trigger
  split
  · exact ⟨.refl _, rfl, id, Nat.le_refl _, id⟩
  · exact .refl t

theorem quieter_edge (t : Registers) (ch : Channel) (e : Edge) (now : Nat) :
    t.Quieter (t.edge ch e now).1 := by
  unfold Registers.edge
  split
  · split <;> exact ⟨.refl _, rfl, id, Nat.le_refl _, id⟩
  · exact .refl t

end Registers

variable {σ : Type} {pending : σ → Bool} {handle : σ → σ} {s : σ} {m n : Nat}

/-- Calls that leave nothing pending when all are made do so when they are made as needed. -/
theorem not_pending_settle (h : pending (handle^[n] s) = false) :
    pending (settle pending handle n s) = false := by
  induction n generalizing s with
  | zero => exact h
  | succ n ih =>
    rw [settle]
    split
    · exact ih h
    · exact eq_false_of_ne_true ‹_›

/-- A larger bound allows no more calls once nothing is pending. -/
theorem settle_of_le (hle : n ≤ m) (h : pending (settle pending handle n s) = false) :
    settle pending handle m s = settle pending handle n s := by
  induction n generalizing m s with
  | zero => exact settle_of_not_pending h m
  | succ n ih =>
    cases m with
    | zero => omega
    | succ m =>
      rw [settle] at h
      rw [settle, settle]
      split
      · rename_i hp
        rw [if_pos hp] at h
        exact ih (Nat.le_of_succ_le_succ hle) h
      · rfl

end Timer

namespace Recorder

open Timer Timer.Registers

variable {r : Recorder}

theorem quieter_quiesce (t : Registers) (now : Nat) : t.Quieter (quiesce t now) :=
  ⟨Flags.none_within _, rfl, nofun, Nat.le_refl _, id⟩

theorem quieter_cutWindow (t : Registers) (bounceTicks now : Nat) :
    t.Quieter (cutWindow t bounceTicks now) := by
  obtain ⟨reload, he, hr⟩ := exists_cutWindow_eq t bounceTicks now
  have hle : reload ≤ t.reload := by omega
  have hpos (h : 1 ≤ t.reload) : 1 ≤ reload := by omega
  rw [he]
  exact ⟨.refl _, rfl, id, hle, hpos⟩

theorem quieter_service (r : Recorder) (now : Nat) :
    r.timer.Quieter (r.service now).1.timer := by
  have hs := served_service r now
  generalize r.service now = x at hs ⊢
  cases hs with
  | nothing _ => exact .refl _
  | noteTrigger _ _ => exact ⟨Flags.diff_within _ _, rfl, id, Nat.le_refl _, id⟩
  | endWindow _ _ _ => exact quieter_quiesce _ _
  | noteCaptures _ _ _ _ =>
    have hcut : r.timer.Quieter (if r.captured = r.mask then
        cutWindow r.timer r.bounceTicks now else r.timer) := by
      split
      · exact quieter_cutWindow _ _ _
      · exact .refl _
    exact { hcut with interrupts := Flags.diff_within _ _ }

theorem quieter_cut (r : Recorder) (now : Nat) : r.timer.Quieter (r.cut now).1.timer := by
  unfold cut
  split
  · exact quieter_quiesce _ _
  · exact .refl _

/-! ## The handler -/

/-- The events that may call the handler: the trigger, the end of the period, and the captures of
the watched channels. -/
def awaited (r : Recorder) : Flags := ⟨true, true, r.mask, .const false⟩

/-- Do no other events call the handler, and none at all after an abort? -/
structure Disciplined (r : Recorder) : Prop where
  within : r.timer.interrupts.Within r.awaited
  aborted : r.aborted = true → r.timer.interrupts = .none

theorem Disciplined.overcapture_pending (h : r.Disciplined) (ch : Channel) :
    r.pendingFlags.overcapture.get ch = false := by
  have hover := h.within.overcapture ch
  rw [awaited, PerChannel.get_const] at hover
  have hnone := eq_false_of_ne_true fun ho => Bool.false_ne_true (hover ho)
  simp only [pendingFlags, Flags.inter, Flags.zipWith, PerChannel.get_zipWith, hnone,
    Bool.and_false]

/-- Only watched channels call the handler. -/
theorem Disciplined.captured_of_pending (h : r.Disciplined) {ch : Channel}
    (hp : r.pendingFlags.capture.get ch = true) : r.captured.get ch = true := by
  simp only [pendingFlags, Flags.inter, Flags.zipWith, PerChannel.get_zipWith,
    Bool.and_eq_true] at hp
  simp only [captured, PerChannel.get_zipWith, Bool.and_eq_true]
  exact ⟨hp.1, h.within.capture ch hp.2⟩

/-- Apart from the trigger and the end of the period, nothing is pending but the captures so far. -/
theorem Disciplined.diff_captured (h : r.Disciplined) (hu : r.pendingFlags.update = false)
    (ht : r.pendingFlags.trigger = false) : r.pendingFlags.diff (.captures r.captured) = .none := by
  refine Flags.eq_none ?_ ?_ (fun ch => ?_) fun ch => ?_
  · exact Bool.and_eq_false_iff.mpr (.inl hu)
  · exact Bool.and_eq_false_iff.mpr (.inl ht)
  · simp only [Flags.diff, Flags.zipWith, Flags.captures, PerChannel.get_zipWith]
    cases hp : r.pendingFlags.capture.get ch with
    | false => rfl
    | true => rw [h.captured_of_pending hp]; rfl
  · simp only [Flags.diff, Flags.zipWith, PerChannel.get_zipWith, h.overcapture_pending,
      Bool.false_and]

/-- An announcement is all that a call adds to its critical section. -/
theorem handle_eq (r : Recorder) (now : Nat) :
    ∃ done, r.handle now = { (r.service now).1 with done := done } := by
  unfold handle
  simp only
  split <;> exact ⟨_, rfl⟩

theorem service_keeps (r : Recorder) (now : Nat) :
    (r.service now).1.mask = r.mask ∧ (r.service now).1.aborted = r.aborted := by
  have hs := served_service r now
  generalize r.service now = x at hs ⊢
  cases hs <;> exact ⟨rfl, rfl⟩

theorem Disciplined.handle (h : r.Disciplined) (now : Nat) : (r.handle now).Disciplined := by
  obtain ⟨_, he⟩ := handle_eq r now
  obtain ⟨hmask, haborted⟩ := service_keeps r now
  have hquiet := (quieter_service r now).interrupts
  rw [he]
  refine ⟨?_, fun ha => ?_⟩
  · show (r.service now).1.timer.interrupts.Within ⟨true, true, (r.service now).1.mask, _⟩
    rw [hmask]
    exact hquiet.trans h.within
  · have hnone := h.aborted (haborted.symm.trans ha)
    rw [hnone] at hquiet
    exact Flags.eq_none_of_within hquiet

/-- **A call deals with the trigger, or else with all that is pending.** -/
theorem Disciplined.pendingFlags_handle (h : r.Disciplined) (now : Nat) :
    (r.handle now).pendingFlags =
      if r.pendingFlags.trigger then r.pendingFlags.diff .triggerOnly else .none := by
  obtain ⟨_, he⟩ := handle_eq r now
  rw [he]
  show (r.service now).1.pendingFlags = _
  have hs := served_service r now
  generalize r.service now = x at hs ⊢
  cases hs with
  | nothing hq =>
    have hnone : r.pendingFlags = .none := by
      rcases hq with ha | ⟨ht, hu, hc⟩
      · exact pendingFlags_of_interrupts (h.aborted ha)
      · rw [Bool.or_eq_false_iff] at hc
        refine Flags.eq_none hu ht (fun ch => ?_) h.overcapture_pending
        match ch with
        | 0 => exact hc.1
        | 1 => exact hc.2
    rw [hnone]
    rfl
  | noteTrigger _ hp =>
    rw [if_pos hp]
    exact Flags.diff_inter_diff _ _ _
  | endWindow _ ht _ =>
    rw [ht]
    exact pendingFlags_of_interrupts rfl
  | noteCaptures _ ht hu _ =>
    rw [ht]
    have hstatus : (if r.captured = r.mask then cutWindow r.timer r.bounceTicks now
        else r.timer).status = r.timer.status := by
      split
      · obtain ⟨_, he, -⟩ := exists_cutWindow_eq r.timer r.bounceTicks now
        rw [he]
      · rfl
    refine (congrArg (Flags.inter · _) hstatus).trans ((Flags.inter_diff _ _ _).trans ?_)
    exact h.diff_captured hu ht

/-- A call signals the end of the period, unless it deals with the trigger. -/
theorem Disciplined.ended_service (h : r.Disciplined) (now : Nat) :
    (r.service now).2 = (!r.pendingFlags.trigger && r.pendingFlags.update) := by
  have hs := served_service r now
  generalize r.service now = x at hs ⊢
  cases hs with
  | nothing hq =>
    rcases hq with ha | ⟨-, hu, -⟩
    · rw [pendingFlags_of_interrupts (h.aborted ha)]
      rfl
    · rw [hu, Bool.and_false]
  | noteTrigger _ hp => rw [hp]; rfl
  | endWindow _ ht hp => rw [ht, hp]; rfl
  | noteCaptures _ _ hu _ => rw [hu, Bool.and_false]

theorem trigger_diff_triggerOnly (a : Flags) : (a.diff .triggerOnly).trigger = false :=
  Bool.and_false _

theorem update_diff_triggerOnly (a : Flags) : (a.diff .triggerOnly).update = a.update :=
  Bool.and_true _

/-- **Two calls deal with all that is pending.** -/
theorem Disciplined.pendingFlags_handle_handle (h : r.Disciplined) (first second : Nat) :
    ((r.handle first).handle second).pendingFlags = .none := by
  have htrigger : (r.handle first).pendingFlags.trigger = false := by
    rw [h.pendingFlags_handle]
    split
    · exact trigger_diff_triggerOnly _
    · rfl
  rw [(h.handle first).pendingFlags_handle, htrigger]
  rfl

/-- **One of the two signals if the end of the period was pending, and none otherwise.** -/
theorem Disciplined.signals (h : r.Disciplined) (first second : Nat) :
    (r.service first).2.toNat + ((r.handle first).service second).2.toNat =
      r.pendingFlags.update.toNat := by
  rw [h.ended_service, (h.handle first).ended_service, h.pendingFlags_handle]
  cases r.pendingFlags.trigger with
  | true =>
    rw [if_pos rfl, trigger_diff_triggerOnly, update_diff_triggerOnly]
    exact Nat.zero_add _
  | false => exact Nat.add_zero _

/-- **The timer's bound on the calls is never met.** -/
theorem Disciplined.settle (h : r.Disciplined) (now : Nat) :
    (r.settle now).timer.pending = false ∧
      r.settle now = Timer.settle (·.timer.pending) (·.handle now) 2 r := by
  have htwo : (Timer.settle (·.timer.pending) (·.handle now) 2 r).timer.pending = false :=
    @not_pending_settle _ (fun r : Recorder => r.timer.pending) (·.handle now) r 2
      (Flags.any_eq_false_iff.mpr (h.pendingFlags_handle_handle now now))
  have heq : r.settle now = Timer.settle (·.timer.pending) (·.handle now) 2 r :=
    settle_of_le (by decide) htwo
  exact ⟨by rw [heq]; exact htwo, heq⟩

namespace Crowd

/-! ## Every reachable state -/

variable {t : Trace} {c c' : Crowd} {a : Action}

/-- **No action but arming enables an event**, or touches what is watched. -/
theorem quieter_of_act (ha : c.act? a = some c') (harm : ∀ s d, c.event? a ≠ some (.armed s d)) :
    c'.recorder.mask = c.recorder.mask ∧ c.recorder.timer.Quieter c'.recorder.timer := by
  obtain ⟨r, _, _, hop, hr⟩ := operates_of_act ha
  rw [hr]
  cases hop with
  | nothing => exact ⟨rfl, .refl _⟩
  | trigger => exact ⟨rfl, Registers.quieter_trigger _ _⟩
  | edge => exact ⟨rfl, Registers.quieter_edge _ _ _ _⟩
  | expire => exact ⟨rfl, .refl _, rfl, id, Nat.le_refl _, id⟩
  | arm he => exact absurd he (harm _ _)
  | collect =>
    obtain ⟨f, hf⟩ := fst_collect c.recorder
    rw [hf]
    exact ⟨rfl, .refl _, rfl, id, Nat.le_refl _, id⟩
  | cut =>
    refine ⟨?_, quieter_cut _ _⟩
    show (c.recorder.cut c.now).1.mask = c.recorder.mask
    unfold Recorder.cut
    split <;> rfl
  | service => exact ⟨(service_keeps _ _).1, quieter_service _ _⟩

/-- The events that call the handler, the watched channels and the length of the window agree. -/
structure Consistent (r : Recorder) : Prop where
  within : r.timer.interrupts.Within r.awaited
  watched : r.mask = r.timer.enabled
  reload_pos : 1 ≤ r.timer.reload
  reload_le : r.timer.reload ≤ Limits.counterMax

theorem consistent_arm {s : CaptureSetup} (hv : s.Valid) (d : Directions) (r : Recorder)
    (now : Nat) : Consistent (r.arm s d now) := by
  unfold arm
  rw [armTimer_eq]
  exact ⟨.refl _, rfl, Nat.le_max_right _ _, CaptureSetup.windowTicks_le_counterMax hv⟩

theorem Consistent.of_quieter {r r' : Recorder} (h : Consistent r) (hm : r'.mask = r.mask)
    (hq : r.timer.Quieter r'.timer) : Consistent r' := by
  refine ⟨?_, hm.trans (h.watched.trans hq.enabled.symm), hq.reload_pos h.reload_pos,
    Nat.le_trans hq.reload h.reload_le⟩
  rw [awaited, hm]
  exact hq.interrupts.trans h.within

theorem consistent_of_reaches (h : Reaches t c) : Consistent c.recorder := by
  induction h with
  | start now =>
    have hcount : 1 ≤ Limits.counterMax := by decide
    exact ⟨Flags.none_within _, rfl, hcount, Nat.le_refl _⟩
  | @act t c c' a h ha ih =>
    by_cases harm : ∃ s d, c.event? a = some (.armed s d)
    · obtain ⟨s, d, he⟩ := harm
      obtain ⟨hv, _, rfl⟩ := arm_of_act h ha he
      exact consistent_arm hv d c.recorder c.now
    · obtain ⟨hm, hq⟩ := quieter_of_act ha fun s d he => harm ⟨s, d, he⟩
      exact ih.of_quieter hm hq

theorem armed_of_service {r : Recorder} {now : Nat} (h : (r.service now).2 = true) :
    (r.service now).1.timer.armed = false := by
  have hs := served_service r now
  generalize r.service now = x at hs h
  cases hs with
  | endWindow => rfl
  | nothing | noteTrigger | noteCaptures => cases h

/-- A capture whose window has ended is not armed until the next one is. -/
theorem armed_of_windowEnded (h : Reaches t c)
    (hx : ∃ x ∈ sinceArmed t, x.1.event? x.2 = some .windowEnded) :
    c.recorder.timer.armed = false := by
  induction h with
  | start =>
    obtain ⟨_, hmem, -⟩ := hx
    cases hmem
  | @act t c c' a h ha ih =>
    have harm : ∀ s d, c.event? a ≠ some (.armed s d) := by
      intro s d he
      rw [sinceArmed_of_armed he] at hx
      obtain ⟨_, hmem, -⟩ := hx
      cases hmem
    rw [sinceArmed_cons harm] at hx
    obtain ⟨x, hmem, he⟩ := hx
    rcases List.mem_cons.mp hmem with rfl | hmem
    · cases happens_of_event he with
      | windowEnded hi hend =>
        obtain ⟨r, next, hstep, rfl⟩ := step_of_act hi ha
        cases hstep
        exact armed_of_service hend
    · have hbefore := ih ⟨x, hmem, he⟩
      refine eq_false_of_ne_true fun harmed => ?_
      exact Bool.false_ne_true (hbefore.symm.trans ((quieter_of_act ha harm).2.armed harmed))

/-- After an abort or the end of its window, a capture calls the handler no more. -/
theorem interrupts_of_ended (h : Reaches t c) (hx : c.recorder.aborted = true ∨
      ∃ x ∈ sinceArmed t, x.1.event? x.2 = some .windowEnded) :
    c.recorder.timer.interrupts = .none := by
  have hs := sound_of_reaches h
  rcases hx with hx | hx
  · exact (hs.rests (hs.aborted hx)).1
  · exact (hs.rests (armed_of_windowEnded h hx)).1

/-- **Servicing settles.** Whatever the clients, the timer, its inputs and its handler have done, in
whatever order: only the trigger, the end of the period and the captures of the watched channels
call the handler, these are the channels that are on, none of them calls it after an abort or the
end of the window, and the counter of an armed capture has a window to count. If any events at all
happen in this state, then two calls leave nothing pending, so that the timer does not make all the
calls it may make for one event, and the two signal once if the end of the period was pending, and
never otherwise. -/
theorem servicing_settles (h : Reaches t c) :
    c.recorder.timer.interrupts.Within c.recorder.awaited ∧
    c.recorder.mask = c.recorder.timer.enabled ∧
    (c.recorder.aborted = true ∨
        (∃ x ∈ sinceArmed t, x.1.event? x.2 = some .windowEnded) →
      c.recorder.timer.interrupts = .none) ∧
    (c.recorder.timer.armed = true →
      1 ≤ c.recorder.timer.reload ∧ c.recorder.timer.reload ≤ Limits.counterMax) ∧
    ∀ (events : Flags) (first second now : Nat),
      let r := { c.recorder with timer.status := events }
      ((r.handle first).handle second).timer.pending = false ∧
      (r.service first).2.toNat + ((r.handle first).service second).2.toNat =
        r.pendingFlags.update.toNat ∧
      (r.settle now).timer.pending = false ∧
      r.settle now = Timer.settle (·.timer.pending) (·.handle now) 2 r := by
  have hc := consistent_of_reaches h
  have hended := interrupts_of_ended h
  refine ⟨hc.within, hc.watched, hended, fun _ => ⟨hc.reload_pos, hc.reload_le⟩,
    fun events first second now => ?_⟩
  have hr : Disciplined { c.recorder with timer.status := events } :=
    ⟨hc.within, fun ha => hended (.inl ha)⟩
  exact ⟨Flags.any_eq_false_iff.mpr (hr.pendingFlags_handle_handle first second),
    hr.signals first second, hr.settle now⟩

/-- Both channels, on rising edges, for a window of two ticks. -/
def bothOneTick : CaptureSetup := ⟨⟨⟨.upward, .rising, ""⟩, ⟨.upward, .rising, ""⟩⟩, 20, 20⟩

/-- The second channel. -/
def secondChannel : Channel := ⟨1, Nat.one_lt_two⟩

/-- Two rising edges, and the end of the period, before the handler has noted the trigger. -/
def allAtOnce : List Action :=
  [.enter (.takingPermit bothOneTick .upward), .proceed 0, .proceed 0, .trigger,
    .edge firstChannel .rising, .edge secondChannel .rising, .wait 40, .expire]

theorem servicing_settles_allAtOnce :
    ∃ t c, play? act? [] ⟨.initial, 0, []⟩ allAtOnce = some (t, c) ∧
      c.recorder.pendingFlags = ⟨true, true, .const true, .const false⟩ ∧
      c.recorder.timer.armed = true ∧ 1 ≤ c.recorder.timer.reload ∧
      ((c.recorder.handle 41).handle 42).timer.pending = false ∧
      (c.recorder.service 41).2.toNat + ((c.recorder.handle 41).service 42).2.toNat = 1 ∧
      (c.recorder.settle 41).timer.pending = false ∧
      c.recorder.settle 41 = Timer.settle (·.timer.pending) (·.handle 41) 2 c.recorder := by
  have hreaches := of_play? (P := Reaches) (fun _ _ _ _ => .act) allAtOnce (.start 0) rfl
  obtain ⟨-, -, -, hreload, hsettles⟩ := servicing_settles hreaches
  obtain ⟨htwo, hsignals, hbound⟩ := hsettles _ 41 42 41
  exact ⟨_, _, rfl, by decide, rfl, (hreload rfl).1, htwo, hsignals, hbound⟩

end Crowd

end Recorder

end SwitchBench
