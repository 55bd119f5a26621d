import SwitchBench.Proofs.Capture.Clients
import SwitchBench.Proofs.Capture.Handler

/-!
# One capture at a time

The permit to capture is in one place at a time: with `available`, with one call, with the armed
timer or with `done`. `Crowd.Sound` says so, and that a timer that is not armed is at rest: it does
not count and calls nobody. A handler that is called without need therefore ends no capture.

Results: `Sound.act` (one action keeps the invariant), `sound_of_reaches` (every reachable state is
sound).
-/

namespace SwitchBench

theorem CaptureCall.not_holds_of_opens {k : CaptureCall} (h : k.opens = true) :
    k.holds = false := by
  cases k with
  | takingPermit _ _ | takingEnd _ | cutting | handling => rfl
  | arming _ _ | reading | givingPermit _ | announcing => cases h

namespace Timer.Registers

/-- Is a timer that is not armed at rest: neither counting nor calling its handler? -/
def Rests (t : Registers) : Prop := t.armed = false → t.interrupts = .none ∧ t.since = none

/-- Nothing that an input does changes whether the timer is armed, or wakes one at rest. -/
theorem Rests.trigger {t : Registers} (h : t.Rests) (now : Nat) :
    (t.trigger now).1.armed = t.armed ∧ (t.trigger now).1.Rests := by
  unfold Registers.trigger
  split
  · rename_i ha
    rw [Bool.and_eq_true] at ha
    exact ⟨rfl, fun h0 => absurd (ha.1.symm.trans h0) (by simp)⟩
  · exact ⟨rfl, h⟩

theorem Rests.edge {t : Registers} (h : t.Rests) (c : Channel) (e : Edge) (now : Nat) :
    (t.edge c e now).1.armed = t.armed ∧ (t.edge c e now).1.Rests := by
  unfold Registers.edge
  split
  · split <;> exact ⟨rfl, h⟩
  · exact ⟨rfl, h⟩

theorem Rests.expire {t : Registers} (h : t.Rests) {due : Nat} (he : t.expiry = some due) :
    (t.expire due).armed = t.armed ∧ (t.expire due).Rests := by
  refine ⟨rfl, fun h0 => ?_⟩
  obtain ⟨-, hs⟩ := h h0
  rw [expiry, hs] at he
  cases he

end Timer.Registers

namespace Recorder

open Timer

theorem rests_quiesce (t : Registers) (now : Nat) : (quiesce t now).Rests :=
  fun _ => ⟨rfl, rfl⟩

@[simp] theorem armed_cutWindow (t : Registers) (bounceTicks now : Nat) :
    (cutWindow t bounceTicks now).armed = t.armed := by
  obtain ⟨_, he, -⟩ := exists_cutWindow_eq t bounceTicks now
  rw [he]

/-- Handling an event leaves the capture armed or not, as it is, or it ends an armed one. -/
theorem service_cases {r : Recorder} (h : r.timer.Rests) (now : Nat) :
    (∃ t : Registers, t.armed = r.timer.armed ∧ t.Rests ∧
      r.service now = ({ r with timer := t }, false)) ∨
    (r.timer.armed = true ∧ r.aborted = false ∧
      r.service now = ({ r with timer := quiesce r.timer now }, true)) := by
  cases ha : r.timer.armed with
  | true =>
    have hrests {t : Registers} (ht : t.armed = true) : t.Rests :=
      fun h0 => absurd (ht.symm.trans h0) (by simp)
    have hs := served_service r now
    generalize r.service now = x at hs ⊢
    cases hs with
    | nothing _ => exact Or.inl ⟨r.timer, ha, h, rfl⟩
    | noteTrigger _ _ => refine Or.inl ⟨_, ?_, hrests ?_, rfl⟩ <;> exact ha
    | endWindow hab _ _ => exact Or.inr ⟨rfl, hab, rfl⟩
    | noteCaptures _ _ _ _ =>
      refine Or.inl ⟨_, ?_, hrests ?_, rfl⟩ <;> split <;>
        simp only [Registers.setInterrupts, armed_cutWindow, ha]
  | false =>
    have hnone := pendingFlags_of_interrupts (h ha).1
    exact Or.inl ⟨r.timer, ha, h, service_of_quiet hnone now⟩

namespace Crowd

/-- Everything the permit to capture can be in, counted. -/
def permits (c : Crowd) : Nat :=
  c.recorder.available.count + c.calls.countP CaptureCall.holds + c.recorder.timer.armed.toNat
    + c.recorder.done.count

/-- The permit is in one place, and without it the timer rests. -/
structure Sound (c : Crowd) : Prop where
  available_limit : c.recorder.available.limit = 1
  done_limit : c.recorder.done.limit = 1
  permit : c.permits = 1
  rests : c.recorder.timer.Rests
  aborted : c.recorder.aborted = true → c.recorder.timer.armed = false

variable {c : Crowd}

/-- The registers change, but not whether the timer is armed. -/
theorem Sound.retime (h : Sound c) {t : Registers} (ha : t.armed = c.recorder.timer.armed)
    (ht : t.Rests) (now : Nat) : Sound { c with recorder.timer := t, now := now } := by
  refine ⟨h.available_limit, h.done_limit, ?_, ht, fun h0 => ha.trans (h.aborted h0)⟩
  have := h.permit
  unfold permits at this ⊢
  rwa [ha]

/-- A call that waits leaves, or one that does not hold the permit comes. -/
theorem Sound.waiters (h : Sound c) {calls : List CaptureCall}
    (hc : calls.countP CaptureCall.holds = c.calls.countP CaptureCall.holds) :
    Sound { c with calls := calls } := by
  refine ⟨h.available_limit, h.done_limit, ?_, h.rests, h.aborted⟩
  have := h.permit
  simp only [permits] at this ⊢
  omega

/-- The permit goes from a call to somewhere else, or the other way. -/
theorem Sound.pass (h : Sound c) {i : Nat} {k : CaptureCall} {next : Option CaptureCall}
    (hi : c.calls[i]? = some k) {r : Recorder} (ha : r.available.limit = 1) (hd : r.done.limit = 1)
    (hn : r.available.count + next.toList.countP CaptureCall.holds + r.timer.armed.toNat
        + r.done.count
      = c.recorder.available.count + k.holds.toNat + c.recorder.timer.armed.toNat
        + c.recorder.done.count)
    (hr : r.timer.Rests) (hx : r.aborted = true → r.timer.armed = false) :
    Sound { c with recorder := r, calls := putAt c.calls i next } := by
  refine ⟨ha, hd, ?_, hr, hx⟩
  have hcount := countP_putAt hi CaptureCall.holds next
  have := h.permit
  simp only [permits] at this ⊢
  omega

/-- With a call that holds the permit, nobody else has it. -/
theorem Sound.only (h : Sound c) {i : Nat} {k : CaptureCall} (hi : c.calls[i]? = some k)
    (hk : k.holds = true) :
    c.recorder.available.count = 0 ∧ c.calls.countP CaptureCall.holds = 1 ∧
      c.recorder.timer.armed = false ∧ c.recorder.done.count = 0 := by
  have hpos : 0 < c.calls.countP CaptureCall.holds :=
    List.countP_pos_iff.mpr ⟨k, List.mem_of_getElem? hi, hk⟩
  have := h.permit
  unfold permits at this
  cases ha : c.recorder.timer.armed <;> rw [ha] at this <;> simp at this ⊢ <;> omega

/-- A call that ends an armed capture has the permit, until it has announced the end. -/
theorem Sound.close (h : Sound c) {i : Nat} {k : CaptureCall} (hi : c.calls[i]? = some k)
    (hk : k.holds = false) (ha : c.recorder.timer.armed = true) (wasCut : Bool) :
    Sound { c with
      recorder := { c.recorder with timer := quiesce c.recorder.timer c.now, aborted := wasCut }
      calls := putAt c.calls i (some .announcing) } := by
  refine h.pass hi h.available_limit h.done_limit ?_ (rests_quiesce _ _) fun _ => rfl
  have hquiet : (quiesce c.recorder.timer c.now).armed = false := rfl
  have hnext : CaptureCall.announcing.holds = true := rfl
  simp only [hquiet, hnext, ha, hk, Option.toList_some, List.countP_singleton, Bool.toNat_false,
    Bool.toNat_true, if_true]

theorem Sound.proceed (h : Sound c) {i : Nat} {k : CaptureCall} {r : Recorder}
    {next : Option CaptureCall} (hi : c.calls[i]? = some k)
    (hs : k.step? c.now c.recorder = some (r, next)) :
    Sound { c with recorder := r, calls := putAt c.calls i next } := by
  cases k with
  | takingPermit s d =>
    simp only [CaptureCall.step?, Recorder.takePermit?, Option.map_map,
      Option.map_eq_some_iff] at hs
    obtain ⟨p, hp, he⟩ := hs
    cases he
    have h1 := Semaphore.count_of_take? hp
    have h2 := Semaphore.limit_of_take? hp
    refine h.pass hi (h2.trans h.available_limit) h.done_limit ?_ h.rests h.aborted
    simp only [Option.toList_some, List.countP_singleton, CaptureCall.holds, Bool.toNat_false,
      if_true]
    omega
  | takingEnd p =>
    simp only [CaptureCall.step?, Recorder.takeDone?, Option.map_map, Option.map_eq_some_iff] at hs
    obtain ⟨p, hp, he⟩ := hs
    cases he
    have h1 := Semaphore.count_of_take? hp
    have h2 := Semaphore.limit_of_take? hp
    refine h.pass hi h.available_limit (h2.trans h.done_limit) ?_ h.rests h.aborted
    simp only [Option.toList_some, List.countP_singleton, CaptureCall.holds, Bool.toNat_false,
      if_true]
    omega
  | arming s d =>
    obtain ⟨h1, h2, h3, h4⟩ := h.only hi rfl
    cases hs
    refine h.pass hi h.available_limit h.done_limit ?_ (fun h0 => by cases h0)
      (fun h0 => by cases h0)
    simp only [Recorder.arm, h1, h3, h4]
    rfl
  | reading =>
    cases hs
    obtain ⟨f, hf⟩ := fst_collect c.recorder
    rw [hf]
    exact h.pass hi h.available_limit h.done_limit rfl h.rests h.aborted
  | givingPermit l =>
    obtain ⟨h1, h2, h3, h4⟩ := h.only hi rfl
    cases hs
    have ha : c.recorder.available.give.count = 1 := Semaphore.count_give_of_empty h1
    refine h.pass hi ((Semaphore.limit_give _).trans h.available_limit) h.done_limit ?_ h.rests
      h.aborted
    simp only [Recorder.givePermit, ha, h1, h3, h4]
    rfl
  | announcing =>
    obtain ⟨h1, h2, h3, h4⟩ := h.only hi rfl
    cases hs
    have hd : c.recorder.done.give.count = 1 := Semaphore.count_give_of_empty h4
    refine h.pass hi h.available_limit ((Semaphore.limit_give _).trans h.done_limit) ?_ h.rests
      h.aborted
    simp only [Recorder.announce, hd, h1, h3, h4]
    rfl
  | cutting =>
    cases hs
    cases ha : c.recorder.timer.armed with
    | true =>
      simp only [Recorder.cut, ha, if_true]
      exact h.close hi rfl ha true
    | false =>
      simp only [Recorder.cut, ha, Bool.false_eq_true, if_false]
      exact h.pass hi h.available_limit h.done_limit rfl h.rests h.aborted
  | handling =>
    cases hs
    rcases service_cases h.rests c.now with ⟨t, ha, ht, he⟩ | ⟨ha, hab, he⟩ <;> rw [he]
    · refine h.pass hi h.available_limit h.done_limit ?_ ht fun h0 => ha.trans (h.aborted h0)
      simp only [ha]
      rfl
    · exact h.close hi rfl ha c.recorder.aborted

/-- **One action of anybody keeps the invariant.** -/
theorem Sound.act (h : Sound c) {a : Action} {c' : Crowd} (ha : c.act? a = some c') : Sound c' := by
  cases a with
  | trigger =>
    cases ha
    obtain ⟨h1, h2⟩ := h.rests.trigger c.now
    exact h.retime h1 h2 c.now
  | edge ch e =>
    cases ha
    obtain ⟨h1, h2⟩ := h.rests.edge ch e c.now
    exact h.retime h1 h2 c.now
  | expire =>
    obtain ⟨due, hd, -, rfl⟩ := expire_of_act ha
    obtain ⟨h1, h2⟩ := h.rests.expire hd
    exact h.retime h1 h2 c.now
  | wait us =>
    cases ha
    exact h.retime rfl h.rests _
  | enter k =>
    obtain ⟨hk, rfl⟩ := enter_of_act ha
    refine h.waiters ?_
    rw [List.countP_append, List.countP_singleton, CaptureCall.not_holds_of_opens hk]
    rfl
  | proceed i =>
    obtain ⟨k, r, next, hi, hs, rfl⟩ := proceed_of_act ha
    exact h.proceed hi hs
  | giveUp i =>
    obtain ⟨p, hi, -, rfl⟩ := giveUp_of_act ha
    have hc := countP_putAt hi CaptureCall.holds none
    exact h.waiters (by simpa [CaptureCall.holds] using hc)

/-- **Every reachable state is sound.** -/
theorem sound_of_reaches {t : Trace} (h : Reaches t c) : Sound c := by
  induction h with
  | start now => exact ⟨rfl, rfl, rfl, fun _ => ⟨rfl, rfl⟩, nofun⟩
  | act _ ha ih => exact ih.act ha

end Crowd

end Recorder

end SwitchBench
