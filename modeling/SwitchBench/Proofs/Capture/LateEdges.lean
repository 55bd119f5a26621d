import SwitchBench.Proofs.Capture.CaptureResults
import SwitchBench.Proofs.Capture.Reference
import SwitchBench.Proofs.Timer.Counter

/-!
# Edges after the end of the window

The end of the window is two steps. The timer raises the update event, and starts again from zero in
the same step; the handler stops it, in a critical section of its own, some time later. Between the
two the counter runs and the channels are on.

A trace is cut at the first update event since the capture was armed (`Crowd.sinceArmed`). What each
side adds to a channel's reading is read off the inputs alone: the edges of the channel's polarity
that came while the counter ran (`Crowd.windowHits`). After the update event the counter runs as
long as the timer is armed, which is until the handler has ended the window.

Results: `operates_of_act` (an action is one operation of the recorder or its timer),
`onward_of_act` (what no action but arming does to the timer), `Window.act` (one action),
`window_of_reaches` (every run), `late_edges_lost_iff` (a channel without an edge before the update
event reads as such exactly if the handler was faster than its first edge), `exists_late_reading`
(it need not be).
-/

namespace SwitchBench

namespace Timer.Registers

variable {t u v : Registers}

/-- A timer goes on with the capture it was armed for: it does not arm itself, an armed one does not
stop, and its counter has no more to go. -/
structure Onward (t u : Registers) : Prop where
  polarity : u.polarity = t.polarity
  update : u.status.update = t.status.update
  armed : u.armed = true → t.armed = true
  counting : u.armed = true → t.counting = true → u.counting = true
  reload : u.reload ≤ t.reload
  base : u.base ≤ max t.reload t.base

theorem Onward.refl (t : Registers) : t.Onward t :=
  ⟨rfl, rfl, id, fun _ => id, Nat.le_refl _, Nat.le_max_right _ _⟩

theorem onward_trigger (t : Registers) (now : Nat) : t.Onward (t.trigger now).1 := by
  unfold trigger
  split
  · exact ⟨rfl, rfl, id, fun _ _ => rfl, Nat.le_refl _, Nat.le_max_right _ _⟩
  · exact .refl t

theorem onward_edge (t : Registers) (c : Channel) (e : Edge) (now : Nat) :
    t.Onward (t.edge c e now).1 := by
  unfold Registers.edge
  split
  · split <;> exact ⟨rfl, rfl, id, fun _ => id, Nat.le_refl _, Nat.le_max_right _ _⟩
  · exact .refl t

end Timer.Registers

namespace Recorder

open Timer Timer.Registers

theorem onward_quiesce (t : Registers) (now : Nat) : t.Onward (quiesce t now) :=
  ⟨rfl, rfl, nofun, nofun, Nat.le_refl _, counterAt_le t now⟩

theorem onward_cutWindow (t : Registers) (bounceTicks now : Nat) :
    t.Onward (cutWindow t bounceTicks now) := by
  obtain ⟨reload, he, hr⟩ := exists_cutWindow_eq t bounceTicks now
  have hle : reload ≤ t.reload := by omega
  rw [he]
  exact ⟨rfl, rfl, id, fun _ _ => rfl, hle, counterAt_le t now⟩

theorem onward_service (r : Recorder) (now : Nat) :
    r.timer.Onward (r.service now).1.timer := by
  have hs := served_service r now
  generalize r.service now = x at hs ⊢
  cases hs with
  | nothing _ => exact .refl _
  | noteTrigger _ _ =>
    exact ⟨rfl, Bool.and_true _, id, fun _ => id, Nat.le_refl _, Nat.le_max_right _ _⟩
  | endWindow _ _ _ => exact onward_quiesce _ _
  | noteCaptures _ _ _ _ =>
    have hcut : r.timer.Onward (if r.captured = r.mask then
        cutWindow r.timer r.bounceTicks now else r.timer) := by
      split
      · exact onward_cutWindow _ _ _
      · exact .refl _
    exact ⟨hcut.polarity, hcut.update, hcut.armed, hcut.counting, hcut.reload, hcut.base⟩

theorem onward_cut (r : Recorder) (now : Nat) : r.timer.Onward (r.cut now).1.timer := by
  unfold cut
  split
  · exact onward_quiesce _ _
  · exact .refl _

/-- The handler ends a window only after the update event. -/
theorem update_of_service {r : Recorder} {now : Nat} (h : (r.service now).2 = true) :
    r.timer.status.update = true := by
  have hs := served_service r now
  generalize r.service now = x at hs h
  cases hs with
  | endWindow _ _ hp => exact (Bool.and_eq_true_iff.mp hp).1
  | nothing | noteTrigger | noteCaptures => cases h

/-- A channel that took edges within the range of the counter does not read as if it had none. -/
theorem readingOfHits_eq_iff {timeoutTicks : Nat} {hits : List Nat}
    (h : ∀ n ∈ hits, n ≤ Limits.counterMax) :
    readingOfHits timeoutTicks hits = ⟨.timeout, Limits.noValueUs⟩ ↔ hits = [] := by
  cases hits with
  | nil => exact ⟨fun _ => rfl, fun _ => rfl⟩
  | cons n more =>
    have hn := h n List.mem_cons_self
    refine ⟨fun he => ?_, nofun⟩
    have hvalue : min (n * Limits.tickUs) Limits.wordMax = Limits.noValueUs :=
      congrArg Reading.valueUs he
    unfold Limits.counterMax at hn
    unfold Limits.tickUs Limits.wordMax Limits.noValueUs Limits.wordMax at hvalue
    omega

namespace Crowd

/-! ## What a trace tells -/

/-- What was done since the last capture was armed, newest first. -/
def sinceArmed : Trace → Trace
  | [] => []
  | (c, a) :: t =>
    match c.event? a with
    | some (.armed _ _) => []
    | _ => (c, a) :: sinceArmed t

/-- The counts at which a channel was given edges of a polarity while the counter ran, oldest
first. -/
def windowHits (ch : Channel) (e : Edge) : Trace → List Nat
  | [] => []
  | (c, a) :: t =>
    if a = .edge ch e ∧ c.recorder.timer.counting = true then
      windowHits ch e t ++ [c.recorder.timer.counterAt c.now]
    else windowHits ch e t

variable {t : Trace} {c c' : Crowd} {a : Action} {m : OpenCapture}

theorem windowHits_append (ch : Channel) (e : Edge) (l t : Trace) :
    windowHits ch e (l ++ t) = windowHits ch e t ++ windowHits ch e l := by
  induction l with
  | nil => exact (List.append_nil _).symm
  | cons x l ih =>
    obtain ⟨c, a⟩ := x
    rw [List.cons_append, windowHits, windowHits]
    split
    · rw [ih, List.append_assoc]
    · exact ih

/-- There are none exactly if whenever an edge came the counter stood still. -/
theorem windowHits_eq_nil_iff {ch : Channel} {e : Edge} :
    windowHits ch e t = [] ↔
      ∀ x ∈ t, x.2 = .edge ch e → x.1.recorder.timer.counting = false := by
  induction t with
  | nil => exact ⟨fun _ _ hx => (List.not_mem_nil hx).elim, fun _ => rfl⟩
  | cons x t ih =>
    obtain ⟨c, a⟩ := x
    rw [windowHits, List.forall_mem_cons, ← ih]
    split
    · rename_i hx
      simp [hx.1, hx.2]
    · rename_i hx
      have hx' : a = .edge ch e → c.recorder.timer.counting = false := fun ha =>
        eq_false_of_ne_true fun hc => hx ⟨ha, hc⟩
      exact ⟨fun h => ⟨hx', h⟩, And.right⟩

/-! ## What an action does -/

/-- How an event comes about. -/
inductive Happens (c : Crowd) : Action → CaptureEvent → Prop
  | taken {ch : Channel} {e : Edge} (h : (c.recorder.timer.edge ch e c.now).2 = true) :
      Happens c (.edge ch e) (.taken ch (c.recorder.timer.counterAt c.now))
  | armed {i : Nat} {s : CaptureSetup} {d : Directions} (hi : c.calls[i]? = some (.arming s d)) :
      Happens c (.proceed i) (.armed s d)
  | collected {i : Nat} (hi : c.calls[i]? = some .reading) :
      Happens c (.proceed i) (.collected c.recorder.collect.2)
  | cut {i : Nat} (hi : c.calls[i]? = some .cutting) (h : (c.recorder.cut c.now).2 = true) :
      Happens c (.proceed i) .cut
  | windowEnded {i : Nat} (hi : c.calls[i]? = some .handling)
      (h : (c.recorder.service c.now).2 = true) : Happens c (.proceed i) .windowEnded
  | announced {i : Nat} (hi : c.calls[i]? = some .announcing) :
      Happens c (.proceed i) .announced

theorem happens_of_event {e : CaptureEvent} (he : c.event? a = some e) : Happens c a e := by
  cases a with
  | edge ch pol =>
    simp only [event?, Option.ite_none_right_eq_some, Option.some.injEq] at he
    obtain ⟨htaken, rfl⟩ := he
    exact .taken htaken
  | proceed i =>
    simp only [event?] at he
    split at he <;> simp only [Option.ite_none_right_eq_some, reduceCtorEq,
      Option.some.injEq] at he
    · subst he
      exact .armed ‹_›
    · subst he
      exact .collected ‹_›
    · obtain ⟨hcut, rfl⟩ := he
      exact .cut ‹_› hcut
    · obtain ⟨hended, rfl⟩ := he
      exact .windowEnded ‹_› hended
    · subst he
      exact .announced ‹_›
  | _ => cases he

/-- A call that is known takes its next step. -/
theorem step_of_act {i : Nat} {k : CaptureCall} (hi : c.calls[i]? = some k)
    (ha : c.act? (.proceed i) = some c') :
    ∃ r next, k.step? c.now c.recorder = some (r, next) ∧
      c' = { c with recorder := r, calls := putAt c.calls i next } := by
  obtain ⟨k', r, next, hk', hstep, hc'⟩ := proceed_of_act ha
  obtain rfl := Option.some.inj (hi.symm.trans hk')
  exact ⟨r, next, hstep, hc'⟩

/-- What an action does with the recorder, its semaphores apart. -/
inductive Operates (c : Crowd) : Action → Recorder → Prop
  | nothing (a : Action) : Operates c a c.recorder
  | trigger : Operates c .trigger { c.recorder with timer := (c.recorder.timer.trigger c.now).1 }
  | edge (ch : Channel) (e : Edge) :
      Operates c (.edge ch e) { c.recorder with timer := (c.recorder.timer.edge ch e c.now).1 }
  | expire (due : Nat) :
      Operates c .expire { c.recorder with timer := c.recorder.timer.expire due }
  | arm {a : Action} {s : CaptureSetup} {d : Directions} (he : c.event? a = some (.armed s d)) :
      Operates c a (c.recorder.arm s d c.now)
  | collect {a : Action} (he : c.event? a = some (.collected c.recorder.collect.2)) :
      Operates c a c.recorder.collect.1
  | cut (i : Nat) : Operates c (.proceed i) (c.recorder.cut c.now).1
  | service (i : Nat) : Operates c (.proceed i) (c.recorder.service c.now).1

/-- **An action is one operation of the recorder or its timer**, and what it does to the
semaphores. -/
theorem operates_of_act (ha : c.act? a = some c') :
    ∃ r available done, Operates c a r ∧
      c'.recorder = { r with available := available, done := done } := by
  cases a with
  | trigger =>
    cases ha
    exact ⟨_, _, _, .trigger, rfl⟩
  | edge ch e =>
    cases ha
    exact ⟨_, _, _, .edge ch e, rfl⟩
  | expire =>
    obtain ⟨due, -, -, rfl⟩ := expire_of_act ha
    exact ⟨_, _, _, .expire due, rfl⟩
  | wait us =>
    cases ha
    exact ⟨_, _, _, .nothing _, rfl⟩
  | enter k =>
    obtain ⟨-, rfl⟩ := enter_of_act ha
    exact ⟨_, _, _, .nothing _, rfl⟩
  | proceed i =>
    obtain ⟨k, r, next, hi, hk, rfl⟩ := proceed_of_act ha
    cases k with
    | takingPermit s d =>
      simp only [CaptureCall.step?, takePermit?, Option.map_map, Option.map_eq_some_iff] at hk
      obtain ⟨_, _, he⟩ := hk
      cases he
      exact ⟨_, _, _, .nothing _, rfl⟩
    | takingEnd p =>
      simp only [CaptureCall.step?, takeDone?, Option.map_map, Option.map_eq_some_iff] at hk
      obtain ⟨_, _, he⟩ := hk
      cases he
      exact ⟨_, _, _, .nothing _, rfl⟩
    | arming s d =>
      cases hk
      exact ⟨_, _, _, .arm (by simp only [event?, hi]), rfl⟩
    | reading =>
      cases hk
      exact ⟨_, _, _, .collect (by simp only [event?, hi]), rfl⟩
    | givingPermit l =>
      cases hk
      exact ⟨_, _, _, .nothing _, rfl⟩
    | announcing =>
      cases hk
      exact ⟨_, _, _, .nothing _, rfl⟩
    | cutting =>
      cases hk
      exact ⟨_, _, _, .cut i, rfl⟩
    | handling =>
      cases hk
      exact ⟨_, _, _, .service i, rfl⟩
  | giveUp i =>
    obtain ⟨_, -, -, rfl⟩ := giveUp_of_act ha
    exact ⟨_, _, _, .nothing _, rfl⟩

/-- **No action but an expiry and the arming or reading of a capture does more to the timer than let
it go on.** -/
theorem onward_of_act (ha : c.act? a = some c') (hexpire : a ≠ .expire)
    (harm : ∀ s d, c.event? a ≠ some (.armed s d)) (hread : ∀ l, c.event? a ≠ some (.collected l)) :
    c.recorder.timer.Onward c'.recorder.timer := by
  obtain ⟨r, _, _, hop, hr⟩ := operates_of_act ha
  rw [hr]
  cases hop with
  | nothing => exact .refl _
  | trigger => exact Timer.Registers.onward_trigger _ _
  | edge => exact Timer.Registers.onward_edge _ _ _ _
  | expire => exact absurd rfl hexpire
  | arm he => exact absurd he (harm _ _)
  | collect he => exact absurd he (hread _)
  | cut => exact onward_cut _ _
  | service => exact onward_service _ _

/-! ## The invariant -/

/-- Is an edge taken? -/
theorem taken_edge (t : Timer.Registers) (c : Channel) (e : Edge) (now : Nat) :
    (t.edge c e now).2 = (t.counting && t.enabled.get c && t.polarity.get c == e) := by
  unfold Timer.Registers.edge
  split
  · rename_i h
    rw [h]
    split <;> rfl
  · rename_i h
    exact (eq_false_of_ne_true h).symm

theorem takenOn_cons_of_ne {e : CaptureEvent} (past : List CaptureEvent) {ch : Channel}
    (he : ∀ n, e ≠ .taken ch n) : takenOn ch (e :: past) = takenOn ch past := by
  cases e with
  | taken ch' n =>
    refine if_neg fun hch => ?_
    exact he n (by rw [hch])
  | _ => rfl

/-- What is so while a capture is not collected. -/
structure Window (t : Trace) (c : Crowd) (m : OpenCapture) : Prop where
  polarity : ∀ ch, (maskOf m.setup m.directions).get ch = true →
    c.recorder.timer.polarity.get ch = (m.setup.channels.get ch).edge
  hits : ∀ ch, (maskOf m.setup m.directions).get ch = true →
    takenOn ch m.since = windowHits ch (m.setup.channels.get ch).edge (sinceArmed t)
  /-- Before the update event nothing has raised it, and the handler has not ended the window. -/
  early : (∀ x ∈ sinceArmed t, x.2 ≠ .expire) →
    c.recorder.timer.status.update = false ∧ .windowEnded ∉ m.since
  reload : c.recorder.timer.reload ≤ Limits.counterMax
  base : c.recorder.timer.base ≤ Limits.counterMax
  small : ∀ ch, ∀ n ∈ takenOn ch m.since, n ≤ Limits.counterMax

/-- An edge of the right polarity on a watched channel is taken exactly while the counter runs. -/
theorem Window.takenOn_eq (hw : Window t c m) (hkept : m.KeptBy c.recorder) (a : Action)
    {ch : Channel} (hch : (maskOf m.setup m.directions).get ch = true) :
    takenOn ch ((c.event? a).toList ++ m.since) =
      windowHits ch (m.setup.channels.get ch).edge ((c, a) :: sinceArmed t) := by
  have hsame (hno : ∀ n, c.event? a ≠ some (.taken ch n)) :
      takenOn ch ((c.event? a).toList ++ m.since) = takenOn ch m.since := by
    cases he : c.event? a with
    | none => rfl
    | some e => exact takenOn_cons_of_ne _ fun n hn => hno n (by rw [he, hn])
  by_cases hmine : ∃ e, a = .edge ch e
  · obtain ⟨e, rfl⟩ := hmine
    have htaken := taken_edge c.recorder.timer ch e c.now
    rw [hkept.enabled, hch, hw.polarity ch hch, Bool.and_true] at htaken
    rw [windowHits, ← hw.hits ch hch]
    by_cases hin : c.recorder.timer.counting = true ∧ e = (m.setup.channels.get ch).edge
    · obtain ⟨hcounting, rfl⟩ := hin
      rw [hcounting, beq_self_eq_true] at htaken
      rw [if_pos ⟨rfl, hcounting⟩, event?, htaken, if_pos (show (true && true) = true from rfl)]
      exact if_pos rfl
    · rw [if_neg fun h => hin ⟨h.2, (Action.edge.inj h.1).2⟩]
      refine hsame fun n he => hin ?_
      cases happens_of_event he with
      | taken h =>
        obtain ⟨hcounting, he⟩ := Bool.and_eq_true_iff.mp (htaken.symm.trans h)
        exact ⟨hcounting, (eq_of_beq he).symm⟩
  · have hne : a ≠ .edge ch (m.setup.channels.get ch).edge := fun h => hmine ⟨_, h⟩
    rw [windowHits, if_neg fun h => hne h.1, ← hw.hits ch hch]
    refine hsame fun n he => ?_
    cases happens_of_event he with
    | taken => exact hmine ⟨_, rfl⟩

theorem mem_takenOn_event {past : List CaptureEvent} {ch : Channel} {n : Nat}
    (hn : n ∈ takenOn ch ((c.event? a).toList ++ past)) :
    n = c.recorder.timer.counterAt c.now ∨ n ∈ takenOn ch past := by
  by_cases he : ∃ n', c.event? a = some (.taken ch n')
  · obtain ⟨n', he⟩ := he
    cases happens_of_event he with
    | taken =>
      rw [he, Option.toList_some, List.singleton_append, takenOn, if_pos rfl] at hn
      rcases List.mem_append.mp hn with hn | hn
      · exact .inr hn
      · exact .inl (List.mem_singleton.mp hn)
  · refine .inr ?_
    cases ho : c.event? a with
    | none => rwa [ho] at hn
    | some e =>
      rw [ho, Option.toList_some, List.singleton_append,
        takenOn_cons_of_ne _ fun n' he' => he ⟨n', by rw [ho, he']⟩] at hn
      exact hn

/-- **One action** on a capture that is not collected. -/
theorem Window.act (hw : Window t c m) (hkept : m.KeptBy c.recorder) (ha : c.act? a = some c')
    (harm : ∀ s d, c.event? a ≠ some (.armed s d)) (hread : ∀ l, c.event? a ≠ some (.collected l))
    (hsince : sinceArmed ((c, a) :: t) = (c, a) :: sinceArmed t) :
    Window ((c, a) :: t) c' { m with since := (c.event? a).toList ++ m.since } := by
  have hhits : ∀ ch, (maskOf m.setup m.directions).get ch = true →
      takenOn ch ((c.event? a).toList ++ m.since) =
        windowHits ch (m.setup.channels.get ch).edge (sinceArmed ((c, a) :: t)) := by
    intro ch hch
    rw [hsince]
    exact hw.takenOn_eq hkept a hch
  have hsmall : ∀ ch, ∀ n ∈ takenOn ch ((c.event? a).toList ++ m.since),
      n ≤ Limits.counterMax := by
    intro ch n hn
    rcases mem_takenOn_event hn with rfl | hn
    · exact Nat.le_trans (Timer.Registers.counterAt_le _ _) (Nat.max_le.mpr ⟨hw.reload, hw.base⟩)
    · exact hw.small ch n hn
  by_cases hexpire : a = .expire
  · subst hexpire
    obtain ⟨due, -, -, rfl⟩ := expire_of_act ha
    refine ⟨hw.polarity, hhits, fun hnone => ?_, hw.reload, Nat.zero_le _, hsmall⟩
    rw [hsince] at hnone
    exact absurd rfl (hnone _ List.mem_cons_self)
  · have hon := onward_of_act ha hexpire harm hread
    refine ⟨fun ch hch => ?_, hhits, fun hnone => ?_, Nat.le_trans hon.reload hw.reload,
      Nat.le_trans hon.base (Nat.max_le.mpr ⟨hw.reload, hw.base⟩), hsmall⟩
    · rw [hon.polarity]
      exact hw.polarity ch hch
    · rw [hsince] at hnone
      obtain ⟨hupdate, hended⟩ := hw.early fun x hx => hnone x (List.mem_cons_of_mem _ hx)
      refine ⟨hon.update.trans hupdate, fun hmem => ?_⟩
      rcases List.mem_append.mp hmem with hmem | hmem
      · cases happens_of_event (Option.mem_toList.mp hmem) with
        | windowEnded _ hend =>
          exact Bool.false_ne_true (hupdate.symm.trans (update_of_service hend))
      · exact hended hmem

/-- A capture that has just been armed. -/
theorem window_arm {s : CaptureSetup} {d : Directions} (hv : s.Valid)
    (hsince : sinceArmed t = []) {now : Nat} {r : Recorder} {calls : List CaptureCall} :
    Window t ⟨r.arm s d now, now, calls⟩ ⟨s, d, []⟩ := by
  have hdiff : ∀ v : Bool, (v && !true) = false := fun v => Bool.and_false v
  refine ⟨fun ch hch => ?_, fun ch _ => by rw [hsince]; rfl, fun _ => ⟨hdiff _, nofun⟩,
    CaptureSetup.windowTicks_le_counterMax hv, Nat.zero_le _, nofun⟩
  match ch with
  | 0 => exact if_pos hch
  | 1 => exact if_pos hch

/-- The setup that a call is to arm. -/
def setup? : CaptureCall → Option CaptureSetup
  | .takingPermit s _ | .arming s _ => some s
  | _ => none

/-- A call is to arm the setup that it was to arm from its beginning. -/
theorem setup_of_step {now : Nat} {r r' : Recorder} {k k' : CaptureCall}
    (hk : k.step? now r = some (r', some k')) {s : CaptureSetup} (hs : s ∈ setup? k') :
    s ∈ setup? k := by
  cases k with
  | takingPermit s' d =>
    simp only [CaptureCall.step?, Option.map_eq_some_iff] at hk
    obtain ⟨_, _, he⟩ := hk
    cases he
    exact hs
  | takingEnd p =>
    simp only [CaptureCall.step?, Option.map_eq_some_iff] at hk
    obtain ⟨_, _, he⟩ := hk
    cases he
    cases hs
  | reading =>
    cases hk
    cases hs
  | cutting | handling =>
    simp only [CaptureCall.step?, Option.some.injEq, Prod.mk.injEq,
      Option.ite_none_right_eq_some] at hk
    obtain ⟨-, -, rfl⟩ := hk
    cases hs
  | arming | givingPermit | announcing => cases hk

/-- Nobody is to arm a setup that the recorder does not admit. -/
theorem valid_of_reaches (h : Reaches t c) : ∀ k ∈ c.calls, ∀ s ∈ setup? k, s.Valid := by
  induction h with
  | start => exact fun _ hk => (List.not_mem_nil hk).elim
  | @act t c c' a _ ha ih =>
    cases a with
    | trigger | edge | wait =>
      cases ha
      exact ih
    | expire =>
      obtain ⟨_, -, -, rfl⟩ := expire_of_act ha
      exact ih
    | enter k =>
      simp only [act?, Option.ite_none_right_eq_some, Option.some.injEq] at ha
      obtain ⟨hopens, rfl⟩ := ha
      refine List.forall_mem_append.mpr ⟨ih, List.forall_mem_singleton.mpr fun s hs => ?_⟩
      cases k with
      | takingPermit s' d =>
        cases hs
        have hadmits : (admits s).isOk = true := hopens
        unfold admits at hadmits
        split at hadmits
        · assumption
        · cases hadmits
      | arming => cases hopens
      | _ => cases hs
    | proceed i =>
      obtain ⟨k, r, next, hi, hk, rfl⟩ := proceed_of_act ha
      intro k' hk' s hs
      rcases mem_putAt hk' with hk' | rfl
      · exact ih k' hk' s hs
      · exact ih k (List.mem_of_getElem? hi) s (setup_of_step hk hs)
    | giveUp i =>
      obtain ⟨_, -, -, rfl⟩ := giveUp_of_act ha
      intro k hk
      rcases mem_putAt hk with hk | hk
      · exact ih k hk
      · cases hk

/-- An action that arms a capture arms an admissible one. -/
theorem arm_of_act (h : Reaches t c) (ha : c.act? a = some c') {s : CaptureSetup} {d : Directions}
    (he : c.event? a = some (.armed s d)) :
    s.Valid ∧ ∃ calls, c' = ⟨c.recorder.arm s d c.now, c.now, calls⟩ := by
  cases happens_of_event he with
  | armed hi =>
    obtain ⟨r, next, hstep, rfl⟩ := step_of_act hi ha
    cases hstep
    exact ⟨valid_of_reaches h _ (List.mem_of_getElem? hi) s rfl, _, rfl⟩

/-- A capture that is not collected was armed just now, or goes on. -/
theorem uncollected_cons (hm : uncollected? (events ((c, a) :: t)) = some m) :
    (∃ s d, c.event? a = some (.armed s d) ∧ m = ⟨s, d, []⟩) ∨
    (∀ s d, c.event? a ≠ some (.armed s d)) ∧ (∀ l, c.event? a ≠ some (.collected l)) ∧
      ∃ m₀, uncollected? (events t) = some m₀ ∧
        m = { m₀ with since := (c.event? a).toList ++ m₀.since } := by
  rw [events_cons] at hm
  cases he : c.event? a with
  | none =>
    rw [he] at hm
    exact .inr ⟨by simp, by simp, m, hm, rfl⟩
  | some e =>
    rw [he, Option.toList_some, List.singleton_append] at hm
    cases e with
    | armed s d =>
      cases hm
      exact .inl ⟨s, d, rfl, rfl⟩
    | collected l => cases hm
    | taken | windowEnded | cut | announced =>
      obtain ⟨m₀, hm₀, rfl⟩ := Option.map_eq_some_iff.mp hm
      exact .inr ⟨by simp, by simp, m₀, hm₀, rfl⟩

theorem sinceArmed_cons (harm : ∀ s d, c.event? a ≠ some (.armed s d)) :
    sinceArmed ((c, a) :: t) = (c, a) :: sinceArmed t := by
  rw [sinceArmed]
  split
  · rename_i s d he
    exact absurd he (harm s d)
  · rfl

theorem sinceArmed_of_armed {s : CaptureSetup} {d : Directions}
    (he : c.event? a = some (.armed s d)) : sinceArmed ((c, a) :: t) = [] := by
  rw [sinceArmed, he]

/-- **Every run.** -/
theorem window_of_reaches (h : Reaches t c) :
    ∀ m, uncollected? (events t) = some m → Window t c m := by
  induction h with
  | start => exact nofun
  | @act t c c' a h ha ih =>
    intro m hm
    rcases uncollected_cons hm with ⟨s, d, he, rfl⟩ | ⟨harm, hread, m₀, hm₀, rfl⟩
    · obtain ⟨hv, _, rfl⟩ := arm_of_act h ha he
      exact window_arm hv (sinceArmed_of_armed he)
    · exact (ih m₀ hm₀).act ((inOrder_of_reaches h).2.kept m₀ hm₀) ha harm hread
        (sinceArmed_cons harm)

/-- **After the update event the counter runs until the handler, or an abort, has ended the
capture.** -/
theorem counting_of_reaches (h : Reaches t c) (hx : ∃ x ∈ sinceArmed t, x.2 = .expire) :
    c.recorder.timer.counting = c.recorder.timer.armed := by
  induction h with
  | start => exact absurd hx (by simp [sinceArmed])
  | @act t c c' a h ha ih =>
    have hs := sound_of_reaches h
    have hs' := hs.act ha
    cases harmed' : c'.recorder.timer.armed with
    | false => rw [Timer.Registers.counting, (hs'.rests harmed').2]; rfl
    | true =>
      have harm : ∀ s d, c.event? a ≠ some (.armed s d) := by
        intro s d he
        rw [sinceArmed_of_armed he] at hx
        obtain ⟨_, hmem, -⟩ := hx
        exact List.not_mem_nil hmem
      rw [sinceArmed_cons harm] at hx
      by_cases hexpire : a = .expire
      · subst hexpire
        obtain ⟨due, -, -, rfl⟩ := expire_of_act ha
        rfl
      · obtain ⟨x, hmem, hxe⟩ := hx
        rcases List.mem_cons.mp hmem with rfl | hmem
        · exact absurd hxe hexpire
        have hread : ∀ l, c.event? a ≠ some (.collected l) := by
          intro l he
          cases happens_of_event he with
          | collected hi =>
            -- whoever reads has the permit, so that the timer is not armed
            obtain ⟨r, next, hstep, rfl⟩ := step_of_act hi ha
            obtain ⟨f, hf⟩ := fst_collect c.recorder
            cases hstep
            rw [hf] at harmed'
            exact Bool.false_ne_true ((hs.only hi rfl).2.2.1.symm.trans harmed')
        have hon := onward_of_act ha hexpire harm hread
        have hcounting := (ih ⟨x, hmem, hxe⟩).trans (hon.armed harmed')
        exact hon.counting harmed' hcounting

/-- The same of every moment between the update event and the end of a trace. -/
theorem counting_after (h : Reaches t c) {after before : Trace} {u : Crowd}
    (hcut : sinceArmed t = after ++ (u, .expire) :: before) :
    ∀ x ∈ after, x.1.recorder.timer.counting = x.1.recorder.timer.armed := by
  induction h generalizing after with
  | start => exact absurd hcut.symm (List.append_ne_nil_of_right_ne_nil _ (List.cons_ne_nil _ _))
  | @act t c c' a h ha ih =>
    have harm : ∀ s d, c.event? a ≠ some (.armed s d) := by
      intro s d he
      rw [sinceArmed_of_armed he] at hcut
      exact List.append_ne_nil_of_right_ne_nil _ (List.cons_ne_nil _ _) hcut.symm
    rw [sinceArmed_cons harm] at hcut
    cases after with
    | nil => exact fun _ hx => (List.not_mem_nil hx).elim
    | cons y after =>
      rw [List.cons_append, List.cons.injEq] at hcut
      obtain ⟨rfl, hcut⟩ := hcut
      have hexpire : ∃ x ∈ sinceArmed t, x.2 = .expire :=
        ⟨(u, .expire), by rw [hcut]; exact List.mem_append_right _ List.mem_cons_self, rfl⟩
      exact List.forall_mem_cons.mpr ⟨counting_of_reaches h hexpire, ih hcut⟩

/-- A trace in which something is so is cut where it is first so. -/
theorem exists_first {p : Crowd × Action → Prop} (h : ∃ x ∈ t, p x) :
    ∃ after x before, t = after ++ x :: before ∧ p x ∧ ∀ y ∈ before, ¬ p y := by
  induction t with
  | nil =>
    obtain ⟨_, hx, -⟩ := h
    exact (List.not_mem_nil hx).elim
  | cons y t ih =>
    by_cases hlater : ∃ x ∈ t, p x
    · obtain ⟨after, x, before, rfl, hx, hbefore⟩ := ih hlater
      exact ⟨y :: after, x, before, rfl, hx, hbefore⟩
    · obtain ⟨x, hmem, hx⟩ := h
      rcases List.mem_cons.mp hmem with rfl | hmem
      · exact ⟨[], x, t, rfl, hx, fun z hz hpz => hlater ⟨z, hz, hpz⟩⟩
      · exact absurd ⟨x, hmem, hx⟩ hlater

/-! ## The result -/

/-- **A late edge is lost exactly if the handler was faster.** Whatever the clients, the timer, its
inputs and its handler do, in whatever order: a capture that is about to be read out, and was not
aborted, has had its update event. A watched channel that was given no edge of its polarity between
the trigger and that event reads as one without an edge exactly if every edge of its polarity after
the event came when the handler had ended the window. Otherwise it reads the edges that came before
the handler did, at counts that began at zero with the update event. -/
theorem late_edges_lost_iff (h : Reaches t c) {i : Nat} (hi : c.calls[i]? = some .reading)
    (hx : c.recorder.aborted = false) :
    ∃ m after u before, uncollected? (events t) = some m ∧
      sinceArmed t = after ++ (u, .expire) :: before ∧ (∀ x ∈ before, x.2 ≠ .expire) ∧
      ∃ read : Channel → Reading,
        c.recorder.collect.2 =
          some ((Channel.all.filter (maskOf m.setup m.directions).get).map read) ∧
        ∀ ch, (maskOf m.setup m.directions).get ch = true →
          windowHits ch (m.setup.channels.get ch).edge before = [] →
            read ch = readingOfHits m.setup.timeoutTicks
              (windowHits ch (m.setup.channels.get ch).edge after) ∧
            (read ch = ⟨.timeout, Limits.noValueUs⟩ ↔
              ∀ x ∈ after, x.2 = .edge ch (m.setup.channels.get ch).edge →
                x.1.recorder.timer.armed = false) := by
  have hknows := (inOrder_of_reaches h).2
  obtain ⟨m, hm, hann⟩ := hknows.calls _ (List.mem_of_getElem? hi)
  have hkept := hknows.kept m hm
  have hw := window_of_reaches h m hm
  have hended : m.ends = [.windowEnded] := by
    refine (OpenCapture.ends_eq_of_length hann.1).resolve_left fun hcut => ?_
    have habort := hkept.aborted.mpr (by rw [hcut]; exact List.mem_singleton_self _)
    exact Bool.false_ne_true (hx.symm.trans habort)
  have hmem : .windowEnded ∈ m.since := by
    have hends : .windowEnded ∈ m.ends := by rw [hended]; exact List.mem_singleton_self _
    exact (List.mem_filter.mp hends).1
  have hupdate : ∃ x ∈ sinceArmed t, x.2 = .expire := by
    by_contra! hnone
    exact (hw.early hnone).2 hmem
  obtain ⟨after, ⟨u, _⟩, before, hcut, rfl, hfirst⟩ := exists_first hupdate
  refine ⟨m, after, u, before, hm, hcut, hfirst,
    fun ch => readingOfHits m.setup.timeoutTicks (takenOn ch m.since), ?_, fun ch hch hnone => ?_⟩
  · rw [collect_of_latches hx hkept.latches, hkept.enabled, hkept.timeout]
  · have hhits : takenOn ch m.since = windowHits ch (m.setup.channels.get ch).edge after := by
      have hexpire : ¬ (Action.expire = .edge ch (m.setup.channels.get ch).edge ∧
          u.recorder.timer.counting = true) := fun he => nomatch he.1
      rw [hw.hits ch hch, hcut, windowHits_append, windowHits, if_neg hexpire, hnone,
        List.nil_append]
    have hsmall := hw.small ch
    rw [hhits] at hsmall
    refine ⟨congrArg _ hhits, ?_⟩
    show readingOfHits _ (takenOn ch m.since) = _ ↔ _
    rw [hhits, readingOfHits_eq_iff hsmall, windowHits_eq_nil_iff]
    have hcounting := counting_after h hcut
    refine forall_congr' fun x => forall_congr' fun hmem => ?_
    rw [hcounting x hmem]

/-- The first channel. -/
def firstChannel : Channel := ⟨0, Nat.zero_lt_two⟩

/-- A capture whose window of two ticks ends, with an edge before or after the handler comes. -/
def edgeAtTheEnd (handlerFirst : Bool) : List Action :=
  [.enter (.takingPermit oneTick .upward), .proceed 0, .proceed 0, .trigger, .enter .handling,
    .proceed 0, .wait 40, .expire] ++
  (if handlerFirst then [.enter .handling, .proceed 0, .edge firstChannel .rising]
    else [.edge firstChannel .rising, .enter .handling, .proceed 0]) ++
  [.proceed 0, .enter (.takingEnd .forever), .proceed 0]

theorem late_edges_lost_iff_handlerFirst :
    ∃ t c, play? act? [] ⟨.initial, 0, []⟩ (edgeAtTheEnd true) = some (t, c) ∧
      c.calls[0]? = some .reading ∧ c.recorder.aborted = false ∧
      c.recorder.collect.2 = some [⟨.timeout, Limits.noValueUs⟩] ∧
      ∃ m after u before, uncollected? (events t) = some m ∧
        sinceArmed t = after ++ (u, .expire) :: before ∧ (∀ x ∈ before, x.2 ≠ .expire) ∧
        ∃ read : Channel → Reading,
          c.recorder.collect.2 =
            some ((Channel.all.filter (maskOf m.setup m.directions).get).map read) ∧
          ∀ ch, (maskOf m.setup m.directions).get ch = true →
            windowHits ch (m.setup.channels.get ch).edge before = [] →
              read ch = readingOfHits m.setup.timeoutTicks
                (windowHits ch (m.setup.channels.get ch).edge after) ∧
              (read ch = ⟨.timeout, Limits.noValueUs⟩ ↔
                ∀ x ∈ after, x.2 = .edge ch (m.setup.channels.get ch).edge →
                  x.1.recorder.timer.armed = false) := by
  have hreaches := of_play? (P := Reaches) (fun _ _ _ _ => .act) (edgeAtTheEnd true) (.start 0) rfl
  exact ⟨_, _, rfl, rfl, rfl, by decide, late_edges_lost_iff hreaches (i := 0) rfl rfl⟩

/-- **A late edge need not be lost.** The only edge comes after the update event of its window and
before the handler, and is read out as an edge in time. -/
theorem exists_late_reading :
    ∃ t c, play? act? [] ⟨.initial, 0, []⟩ (edgeAtTheEnd false) = some (t, c) ∧ Reaches t c ∧
      (sinceArmed t).map (·.2) =
        [.proceed 0, .enter (.takingEnd .forever), .proceed 0, .proceed 0, .enter .handling,
          .edge firstChannel .rising, .expire, .wait 40, .proceed 0, .enter .handling, .trigger] ∧
      (oneTick.channels.get firstChannel).edge = .rising ∧
      c.calls[0]? = some .reading ∧ c.recorder.aborted = false ∧
      c.recorder.collect.2 = some [⟨.ok, 0⟩] ∧
      c.recorder.collect.2 ≠ some [⟨.timeout, Limits.noValueUs⟩] := by
  have hreaches := of_play? (P := Reaches) (fun _ _ _ _ => .act) (edgeAtTheEnd false) (.start 0) rfl
  exact ⟨_, _, rfl, hreaches, by decide, rfl, rfl, rfl, by decide, by decide⟩

end Crowd

end Recorder

end SwitchBench
