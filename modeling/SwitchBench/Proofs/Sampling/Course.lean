import SwitchBench.Proofs.Capture.Ticking
import SwitchBench.Proofs.Sampling.Delivery
import SwitchBench.Proofs.Sampling.Heading
import SwitchBench.Proofs.Sampling.Stranded

/-!
# The course of a capture

A sample arms its capture, then launches its move, and from there on every step is a trigger edge.
`Course` follows the capture along the actions: it is to be armed, armed and untouched, running,
closed with its readings on their way to the buffer, or lost. The actions that matter are the one
that armed it, the first step, which starts the window at its instant (`FirstStep`), and the
handler's critical section that ends it (`Windowed`).

Nothing is assumed of when the handler comes. Steps, edges, the end of the timer's period and the
handler's critical sections are separate actions, and a period that is due may end any time later.
So edges that come when the window is over may still be counted, as long as the handler has not
ended it.

Left out: switching the power, with which the step output may move while no move is under way.

Results: `recorderTurn_of_act` (what anybody but the sampler does to the recorder),
`course_of_fresh` to `course_of_closed` (one action from each part of the course), `Course.act` (one
action of anybody follows it).
-/

namespace SwitchBench

open Drive (MoveStage MoveEvent)
open Recorder (Ticking Counted)

namespace Crew

variable {n : Nat} {g : MoveStage} {c c' c₀ : Crew} {a : Action} {t : Trace}

/-! ## What an action means for the capture -/

/-- Does an action start a window: is it a step that the timer takes for its trigger? -/
def triggers (x : Crew × Action) : Bool :=
  x.1.pulses x.2 && (x.1.rig.recorder.timer.trigger x.1.now).2

/-- Does an action arm the capture? -/
def Arms (x : Crew × Action) : Prop := x.2 = .sampler ∧ x.1.sampler.phase = .arming

/-- Is an action a critical section of the handler that ends the window? -/
def Closes (x : Crew × Action) : Prop :=
  ∃ i, x.2 = .recorder (.proceed i) ∧ x.1.others[i]? = some .handling ∧
    (x.1.rig.recorder.service x.1.now).2 = true

/-- The edge that arrives with an action. -/
def arrival? (x : Crew × Action) : Option Arrival :=
  match x.2 with
  | .recorder (.edge ch e) => some (x.1.now, ch.val, e)
  | _ => none

/-- The edges that arrive along a trace, oldest first. -/
def arrivals (t : Trace) : List Arrival := (t.filterMap arrival?).reverse

theorem arrivals_cons (x : Crew × Action) (t : Trace) :
    arrivals (x :: t) = arrivals t ++ (arrival? x).toList := by
  unfold arrivals
  rw [List.filterMap_cons]
  cases h : arrival? x <;> simp

theorem arrivals_append (t t' : Trace) : arrivals (t ++ t') = arrivals t' ++ arrivals t := by
  unfold arrivals
  rw [List.filterMap_append, List.reverse_append]

/-- Nothing arrives with an action that is no edge. -/
theorem arrivals_cons_of_none (h : arrival? (c, a) = none) :
    arrivals ((c, a) :: t) = arrivals t := by
  rw [arrivals_cons, h]
  exact List.append_nil _

theorem arrival?_eq_some {x : Arrival} (h : arrival? (c, a) = some x) : x.1 = c.now := by
  unfold arrival? at h
  split at h <;> cases h
  rfl

/-- The first step of a sample starts the window of a capture that was armed before. -/
structure FirstStep (earlier : Trace) (e : Crew × Action) : Prop where
  step : e.1.pulses e.2 = true
  trigger : triggers e = true
  first : ∀ x ∈ earlier, x.1.pulses x.2 = false
  armed : ∃ x ∈ earlier, Arms x

/-- The first step of a sample starts the only window of its trace, and the handler ends it: what
comes before, the step, what comes while the window runs, its end, and what comes after. -/
structure Windowed (earlier : Trace) (e : Crew × Action) (during : Trace) (w : Crew × Action)
    (after : Trace) : Prop extends FirstStep earlier e where
  once : ∀ x ∈ after ++ w :: during, triggers x = false
  running : ∀ x ∈ w :: during, x.1.rig.recorder.timer.armed = true
  closes : Closes w
  disarmed : ∀ x ∈ after, x.1.rig.recorder.timer.armed = false
  late : ∀ x ∈ arrivals after, w.1.now ≤ x.1

/-! ## Time -/

/-- Time goes by. -/
theorem now_le_of_act (h : Sound g c) (ha : c.act? a = some c') : c.now ≤ c'.now := by
  cases turn_of_act ha with
  | drive | send | sampler => exact Nat.le_refl _
  | recorder hb hx =>
    cases Recorder.Crowd.bystanderTurn_of_act hb h.bystanders hx with
    | wait us => exact Nat.le_add_right _ us
    | edge | expire | enter | cut | service | announce => exact Nat.le_refl _

/-- The edges of a trace came one after the other, and none is to come yet. -/
structure Past (t : Trace) (c : Crew) : Prop where
  sorted : (arrivals t).Pairwise (·.1 ≤ ·.1)
  past : ∀ x ∈ arrivals t, x.1 ≤ c.now

theorem past_nil (c : Crew) : Past [] c := ⟨.nil, nofun⟩

theorem Past.act (hp : Past t c) (h : Sound g c) (ha : c.act? a = some c') :
    Past ((c, a) :: t) c' := by
  have hnow := now_le_of_act h ha
  have hlast : ∀ x ∈ (arrival? (c, a)).toList, x.1 = c.now := fun x hx =>
    arrival?_eq_some (Option.mem_toList.mp hx)
  constructor <;> rw [arrivals_cons]
  · refine List.pairwise_append.mpr ⟨hp.sorted, ?_, fun x hx y hy => ?_⟩
    · cases arrival? (c, a) <;> simp
    · rw [hlast y hy]
      exact hp.past x hx
  · intro x hx
    rcases List.mem_append.mp hx with hx | hx
    · exact Nat.le_trans (hp.past x hx) hnow
    · rw [hlast x hx]
      exact hnow

/-- What came later in a trace came one after the other as well. -/
theorem Past.of_append {t' : Trace} (h : Past (t ++ t') c) : Past t c := by
  obtain ⟨hsorted, hpast⟩ := h
  rw [arrivals_append] at hsorted hpast
  exact ⟨(List.pairwise_append.mp hsorted).2.1,
    fun x hx => hpast x (List.mem_append_right _ hx)⟩

/-! ## What actions do to the recorder -/

theorem pulses_of_act (ha : c.act? a = some c') :
    c.pulses a = Drive.pulses c.rig.drive c'.rig.drive := by
  simp [pulses, ha]

/-- The sampler steps nothing. -/
theorem pulses_sampler (ha : c.act? .sampler = some c') : c.pulses .sampler = false := by
  rw [pulses_of_act ha]
  obtain ⟨r, s, note, hs, rfl⟩ := step_of_act ha
  exact Drive.pulses_of_step (Sampler.turn_of_step hs).step

/-- What an action of anybody but the sampler does to the recorder. -/
inductive RecorderTurn (c : Crew) : Action → Recorder → Prop
  | same {a : Action} (hp : c.pulses a = false) (he : arrival? (c, a) = none) :
      RecorderTurn c a c.rig.recorder
  | step {a : Action} (hp : c.pulses a = true) (he : arrival? (c, a) = none) :
      RecorderTurn c a { c.rig.recorder with
        timer := (c.rig.recorder.timer.trigger c.now).1 }
  | edge (ch : Channel) (e : Edge) :
      RecorderTurn c (.recorder (.edge ch e)) { c.rig.recorder with
        timer := (c.rig.recorder.timer.edge ch e c.now).1 }
  | expire {due : Nat} (hd : c.rig.recorder.timer.expiry = some due) (hle : due ≤ c.now) :
      RecorderTurn c (.recorder .expire) { c.rig.recorder with
        timer := c.rig.recorder.timer.expire due }
  | cut (i : Nat) :
      RecorderTurn c (.recorder (.proceed i)) (c.rig.recorder.cut c.now).1
  | service {i : Nat} (hi : c.others[i]? = some .handling) :
      RecorderTurn c (.recorder (.proceed i)) (c.rig.recorder.service c.now).1
  | announce {i : Nat} (hi : c.others[i]? = some .announcing) :
      RecorderTurn c (.recorder (.proceed i)) c.rig.recorder.announce

/-- Nothing that is done on the recorder is a step. -/
theorem pulses_recorder (c : Crew) (a : Recorder.Action) : c.pulses (.recorder a) = false := by
  cases ha : c.act? (.recorder a) with
  | none => simp [pulses, ha]
  | some c' =>
    rw [pulses_of_act ha]
    cases turn_of_act ha
    exact Drive.pulses_of_step rfl

theorem recorderTurn_of_act (h : Sound g c) (ha : c.act? a = some c') (hne : a ≠ .sampler) :
    c.RecorderTurn a c'.rig.recorder := by
  cases turn_of_act ha with
  | sampler _ => exact absurd rfl hne
  | send m => exact .same ((pulses_of_act ha).trans (Drive.pulses_of_step rfl)) rfl
  | @drive a x hb hx =>
    have hp := pulses_of_act ha
    simp only [follow] at hp ⊢
    split
    · rename_i hyes
      exact .step (hp.trans hyes) rfl
    · rename_i hno
      exact .same (hp.trans (eq_false_of_ne_true hno)) rfl
  | @recorder a x hb hx =>
    have hp := pulses_recorder c a
    cases Recorder.Crowd.bystanderTurn_of_act hb h.bystanders hx with
    | edge ch e => exact .edge ch e
    | expire hd hle => exact .expire hd hle
    | wait | enter => exact .same hp rfl
    | cut => exact .cut _
    | service hi => exact .service hi
    | announce hi => exact .announce hi

/-- An armed timer that stands still takes a trigger, and no other timer does. -/
theorem snd_trigger (r : Timer.Registers) (now : Nat) :
    (r.trigger now).2 = (r.armed && r.since.isNone) := by
  unfold Timer.Registers.trigger Timer.Registers.counting
  cases r.armed <;> cases r.since <;> rfl

/-- A trigger that the timer does not take changes nothing. -/
theorem trigger_of_snd {r : Timer.Registers} {now : Nat} (h : (r.trigger now).2 = false) :
    r.trigger now = (r, false) := by
  unfold Timer.Registers.trigger at h ⊢
  split at h
  · cases h
  · rename_i hnot
    rw [if_neg hnot]

/-- A timer that stands still latches no edge. -/
theorem edge_of_still {r : Timer.Registers} (h : r.since = none) (ch : Channel) (e : Edge)
    (now : Nat) : r.edge ch e now = (r, false) := by
  rw [Timer.Registers.edge, Timer.Registers.counting, h]
  rfl

/-- A disarmed recorder can only be announced: no step triggers it, no edge is latched, no period
ends, and there is nothing to abort or to handle. -/
theorem RecorderTurn.disarmed {r : Recorder} (hr : c.RecorderTurn a r) (h : Sound g c)
    (hd : c.rig.recorder.timer.armed = false) :
    triggers (c, a) = false ∧ (r = c.rig.recorder ∨ r = c.rig.recorder.announce) := by
  obtain ⟨hquiet, hstill⟩ : c.rig.recorder.timer.interrupts = .none ∧
    c.rig.recorder.timer.since = none := h.recorder.rests hd
  have hsnd : (c.rig.recorder.timer.trigger c.now).2 = false := by rw [snd_trigger, hd]; rfl
  refine ⟨by rw [triggers, hsnd, Bool.and_false], ?_⟩
  cases hr with
  | same | cut => exact .inl (by first | rfl | exact Recorder.cut_of_disarmed hd _)
  | step => exact .inl (by rw [trigger_of_snd hsnd])
  | edge ch e => exact .inl (by rw [edge_of_still hstill])
  | expire hdue =>
    rw [Timer.Registers.expiry, hstill] at hdue
    cases hdue
  | service hi =>
    have hnone := Recorder.pendingFlags_of_interrupts hquiet
    exact .inl (congrArg Prod.fst (Recorder.service_of_quiet hnone _))
  | announce => exact .inr rfl

/-- With a capture armed, no end of it is being announced. -/
theorem Sound.not_announcing (h : Sound g c) (ha : c.rig.recorder.timer.armed = true) (i : Nat) :
    c.others[i]? ≠ some .announcing := by
  intro hi
  obtain ⟨-, hcalls, -⟩ := h.recorder.alone_of_armed ha
  have hhold := eq_zero_of_mem_countP hcalls (x := .announcing)
    (List.mem_append_right _ (List.mem_of_getElem? hi))
  cases hhold

/-- A capture that was just armed changes with a step, which triggers it, or when it is aborted. -/
theorem RecorderTurn.awaits {r : Recorder} (hr : c.RecorderTurn a r) (h : Sound g c)
    (hw : c.rig.recorder.Awaits) :
    (c.pulses a = false ∧ (r = c.rig.recorder ∨ r = (c.rig.recorder.cut c.now).1)) ∨
    (c.pulses a = true ∧ r = { c.rig.recorder with
      timer := (c.rig.recorder.timer.trigger c.now).1 }) := by
  cases hr with
  | same hp => exact .inl ⟨hp, .inl rfl⟩
  | step hp => exact .inr ⟨hp, rfl⟩
  | edge ch e => exact .inl ⟨pulses_recorder c _, .inl (by rw [edge_of_still hw.since])⟩
  | expire hdue =>
    rw [Timer.Registers.expiry, hw.since] at hdue
    cases hdue
  | cut i => exact .inl ⟨pulses_recorder c _, .inr rfl⟩
  | service hi => exact .inl ⟨pulses_recorder c _, .inl (congrArg Prod.fst (hw.service _))⟩
  | announce hi => exact absurd hi (h.not_announcing hw.armed _)

end Crew

/-- To announce an end changes nothing that is read. -/
theorem Recorder.snd_collect_announce (r : Recorder) : r.announce.collect.2 = r.collect.2 := by
  unfold collect announce
  split <;> rfl

namespace Crew

variable {n : Nat} {g : MoveStage} {c c' c₀ : Crew} {a : Action} {t : Trace}

/-! ## The course of a capture -/

/-- What the watched channels read, in channel order, if they took edges at these counts. -/
def readings (o : SampleOrder) (counts : Channel → List Nat) : List Reading :=
  (o.setup.watched o.directions).map fun ch =>
    Recorder.readingOfHits o.setup.timeoutTicks (counts ch)

/-- Where the capture of a sample stands after some actions, if its buffer is so long. -/
inductive Course (n : Nat) : Trace → Crew → Prop
  | fresh {t : Trace} {c : Crew} (hp : c.sampler.phase.isFresh = true)
      (hk : c.sampler.captureEnd = none) (hb : c.sampler.buffer.length = n)
      (ha : c.rig.recorder.timer.armed = false) (hs : ∀ x ∈ t, x.1.pulses x.2 = false) :
      Course n t c
  | armed {t : Trace} {c : Crew} {r : Recorder} {since : Nat}
      (hr : c.rig.recorder = r.arm c.sampler.order.setup c.sampler.order.directions since)
      (hb : c.sampler.buffer.length = n) (hs : ∀ x ∈ t, x.1.pulses x.2 = false)
      (ha : ∃ x ∈ t, Arms x) : Course n t c
  | running {during earlier : Trace} {e : Crew × Action} {c : Crew} (hf : FirstStep earlier e)
      (ho : ∀ x ∈ during, triggers x = false)
      (hm : ∀ x ∈ during, x.1.rig.recorder.timer.armed = true)
      (hr : Ticking c.sampler.order.setup c.sampler.order.directions e.1.now (arrivals during)
        c.now c.rig.recorder)
      (hb : c.sampler.buffer.length = n) : Course n (during ++ e :: earlier) c
  | closed {after during earlier : Trace} {e w : Crew × Action} {c : Crew}
      {counts : Channel → List Nat} (hw : Windowed earlier e during w after)
      (hc : Counted c.sampler.order.setup c.sampler.order.directions e.1.now (arrivals during)
        counts)
      (hend : c.sampler.order.setup.completed? c.sampler.order.directions (arrivals during) = none →
        c.sampler.order.setup.plannedEnd e.1.now ≤ w.1.now)
      (hd : Delivery n (readings c.sampler.order counts) c.rig.recorder c.sampler)
      (hf : c.sampler.phase.isFresh = false) (ha : c.rig.recorder.timer.armed = false)
      (hq : c.sampler.phase.isTelling = false) (hn : w.1.now ≤ c.now) :
      Course n (after ++ w :: (during ++ e :: earlier)) c
  | lost {t : Trace} {c : Crew} (hf : c.sampler.phase.isFresh = false)
      (ha : c.rig.recorder.timer.armed = false) (hx : c.rig.recorder.aborted = true)
      (hk : c.sampler.captureEnd ≠ some .ok) : Course n t c
  | left {t : Trace} {c : Crew} {o : SampleOutcome} (hp : c.sampler.phase = .finished o)
      (ho : o ≠ .ok) : Course n t c

/-- With no move under way nobody steps. -/
theorem Sound.pulses_eq_false_of_idle (h : Sound g c) (hg : g = .idle) (ha : c.act? a = some c')
    (hp : a.isSwitch = false) : c.pulses a = false := by
  have hpulse := pulses_of_act ha
  cases turn_of_act ha with
  | recorder _ _ => exact pulses_recorder c _
  | send _ => exact hpulse.trans (Drive.pulses_of_step rfl)
  | sampler _ => exact pulses_sampler ha
  | @drive a x hb hx =>
    rw [hpulse]
    cases a with
    | stepper r =>
      cases hx
      exact h.pulses_eq_false (hg ▸ rfl) r
    | abort | locate =>
      cases hx
      exact Drive.pulses_of_step rfl
    | powerOn | powerOff => cases hp
    | enter _ | proceed _ | giveUp _ => cases hb

/-- A sample before its capture. -/
theorem course_of_fresh (h : Sound g c) (hq : Tidy g c) (hh : Headed g c.rig.drive c.sampler)
    (hp : c.sampler.phase.isFresh = true) (hk : c.sampler.captureEnd = none)
    (hb : c.sampler.buffer.length = n) (hd : c.rig.recorder.timer.armed = false)
    (hs : ∀ x ∈ t, x.1.pulses x.2 = false) (ha : c.act? a = some c') (hsw : a.isSwitch = false) :
    Course n ((c, a) :: t) c' := by
  have hidle : g = .idle := by
    refine h.idle hq (.inl ?_)
    cases hphase : c.sampler.phase <;> first | rfl | (rw [hphase] at hp; cases hp)
  have hs' : ∀ x ∈ (c, a) :: t, x.1.pulses x.2 = false :=
    List.forall_mem_cons.mpr ⟨h.pulses_eq_false_of_idle hidle ha hsw, hs⟩
  by_cases hne : a = .sampler
  · subst hne
    obtain ⟨r, s, note, hstep, rfl⟩ := step_of_act ha
    have hnot : ∀ {q}, c.sampler.phase = q → q.isFresh = false →
        Course n ((c, .sampler) :: t) { c with rig := r, sampler := s } := by
      rintro _ rfl h0
      exact absurd (h0.symm.trans hp) Bool.false_ne_true
    cases Sampler.turn_of_step hstep with
    | @leave o b hp' =>
      refine .left rfl ?_
      rintro rfl
      exact hh.not_ok_of_locating hp' hstep rfl
    | seek hp' => exact .fresh rfl hk hb hd hs'
    | takeRecorder hp' hr =>
      rw [Recorder.eq_of_takePermit? hr]
      exact .fresh rfl hk hb hd hs'
    | arm hp' => exact .armed rfl hb hs' ⟨_, List.mem_cons_self, rfl, hp'⟩
    | takeDrive hp' _ | launch hp' | announce hp' _ | hear hp' | abortMove hp' | takeMove hp' _
    | readMove hp' | freeDrive hp' _ | takeCapture hp' _ | readChannels hp'
    | freeRecorder hp' _ _ =>
      exact hnot hp' rfl
    | look hp' _ => exact hnot rfl (SamplerPhase.past_of_round (by rw [hp']; rfl)).1
    | cut hp' _ | tell hp' _ => exact hnot rfl (SamplerPhase.past_of_round (by simp [hp'])).1
  · obtain ⟨hsame, -, -, hdisarmed⟩ := h.frame ha hne
    refine .fresh ?_ ?_ ?_ (hdisarmed hd).1 hs'
    · rwa [hsame]
    · rwa [hsame]
    · rwa [hsame]

/-- A sample whose capture is lost. -/
theorem course_of_lost (h : Sound g c) (hf : c.sampler.phase.isFresh = false)
    (hd : c.rig.recorder.timer.armed = false) (hx : c.rig.recorder.aborted = true)
    (hk : c.sampler.captureEnd ≠ some .ok) (ha : c.act? a = some c') :
    Course n ((c, a) :: t) c' := by
  by_cases hne : a = .sampler
  · subst hne
    obtain ⟨r, s, note, hstep, rfl⟩ := step_of_act ha
    have hturn := Sampler.turn_of_step hstep
    obtain ⟨hf', hd', hx', -⟩ := hturn.disarmed hf hd
    refine .lost hf' hd' (hx'.trans hx) ?_
    cases hturn with
    | freeRecorder hp _ _ =>
      have hnone := h.capture
      simp only [Sampler.KnowsCapture, hp] at hnone
      have hl := hnone.2.mpr hx
      rw [hl] at hp
      rw [(Sampler.written_of_freeing hp hstep).1]
      simp
    | _ => exact hk
  · obtain ⟨hsame, -, -, hdisarmed⟩ := h.frame ha hne
    obtain ⟨hd', hx'⟩ := hdisarmed hd
    refine .lost ?_ hd' (hx'.trans hx) ?_
    · rwa [hsame]
    · rwa [hsame]

/-- Whoever aborts an armed capture, it is lost. -/
theorem course_of_cut (ha : c.rig.recorder.timer.armed = true)
    (hr : c'.rig.recorder = (c.rig.recorder.cut c.now).1) (hk : c'.sampler.captureEnd = none)
    (hf : c'.sampler.phase.isFresh = false) : Course n t c' := by
  refine .lost hf ?_ ?_ (by simp [hk])
  · rw [hr]
    exact c.rig.recorder.armed_cut c.now
  · rw [hr]
    unfold Recorder.cut
    rw [if_pos ha]

/-- A sample whose capture is armed and untouched. -/
theorem course_of_armed (h : Sound g c) (hq : Tidy g c) (hv : c.sampler.order.setup.Valid)
    {r : Recorder} {since : Nat}
    (hr : c.rig.recorder = r.arm c.sampler.order.setup c.sampler.order.directions since)
    (hb : c.sampler.buffer.length = n) (hs : ∀ x ∈ t, x.1.pulses x.2 = false)
    (harms : ∃ x ∈ t, Arms x) (ha : c.act? a = some c') : Course n ((c, a) :: t) c' := by
  have hawaits : c.rig.recorder.Awaits := hr ▸ Recorder.awaits_arm _ _ _ _
  obtain ⟨hunder, -, hk⟩ := h.underWay_of_armed hq hawaits.armed
  have harms' : ∃ x ∈ (c, a) :: t, Arms x := by
    obtain ⟨x, hx, hax⟩ := harms
    exact ⟨x, List.mem_cons_of_mem _ hx, hax⟩
  by_cases hne : a = .sampler
  · subst hne
    have hs' : ∀ x ∈ (c, .sampler) :: t, x.1.pulses x.2 = false :=
      List.forall_mem_cons.mpr ⟨pulses_sampler ha, hs⟩
    obtain ⟨q, s, note, hstep, rfl⟩ := step_of_act ha
    have horder := (Sampler.turn_of_step hstep).order
    obtain ⟨hbuf, hrec | ⟨hcut, hk', htell⟩⟩ := h.recorder_of_armed hq hawaits.armed hstep
    · have hr' : q.recorder = r.arm s.order.setup s.order.directions since := by
        rw [hrec, hr, horder]
      have hb' : s.buffer.length = n := by rw [hbuf, hb]
      exact .armed hr' hb' hs' harms'
    · exact course_of_cut hawaits.armed hcut hk'
        (SamplerPhase.past_of_round (by simp [htell])).1
  · have hsame := (h.frame ha hne).1
    rcases (recorderTurn_of_act h ha hne).awaits h hawaits with
      ⟨hpulse, hrec | hcut⟩ | ⟨hpulse, hrec⟩
    · have hr' : c'.rig.recorder
          = r.arm c'.sampler.order.setup c'.sampler.order.directions since := by
        rw [hrec, hsame, hr]
      have hb' : c'.sampler.buffer.length = n := by rw [hsame, hb]
      exact .armed hr' hb' (List.forall_mem_cons.mpr ⟨hpulse, hs⟩) harms'
    · refine course_of_cut hawaits.armed hcut ?_ ?_ <;> rw [hsame]
      · exact hk
      · exact (Sampler.onward_of_isUnderWay hunder).begun
    · -- the first step after the capture was armed starts its window
      have htrigger : triggers (c, a) = true := by
        rw [triggers, hpulse, snd_trigger, hawaits.armed, hawaits.since]
        rfl
      have hticks : Ticking c.sampler.order.setup c.sampler.order.directions c.now [] c.now
          c'.rig.recorder := by
        rw [hrec, hr]
        exact Ticking.trigger hv r since
      refine @Course.running n [] t (c, a) c' ⟨hpulse, htrigger, hs, harms⟩ (List.forall_mem_nil _)
        (List.forall_mem_nil _) ?_ ?_ <;> rw [hsame]
      · exact hticks.wait (now_le_of_act h ha)
      · exact hb

/-- A sample whose window runs. -/
theorem course_of_running (h : Sound g c) (hq : Tidy g c) {during earlier : Trace}
    {e : Crew × Action} (hpast : Past during c) (hf : FirstStep earlier e)
    (honce : ∀ x ∈ during, triggers x = false)
    (hm : ∀ x ∈ during, x.1.rig.recorder.timer.armed = true)
    (hr : Ticking c.sampler.order.setup c.sampler.order.directions e.1.now (arrivals during)
      c.now c.rig.recorder)
    (hb : c.sampler.buffer.length = n) (ha : c.act? a = some c') :
    Course n ((c, a) :: (during ++ e :: earlier)) c' := by
  obtain ⟨hunder, htell, hk⟩ := h.underWay_of_armed hq hr.armed
  have hon := Sampler.onward_of_isUnderWay hunder
  have hnow := now_le_of_act h ha
  have hnot : triggers (c, a) = false := by
    rw [triggers, hr.trigger_eq, Bool.and_false]
  have honce' : ∀ x ∈ (c, a) :: during, triggers x = false :=
    List.forall_mem_cons.mpr ⟨hnot, honce⟩
  have hm' : ∀ x ∈ (c, a) :: during, x.1.rig.recorder.timer.armed = true :=
    List.forall_mem_cons.mpr ⟨hr.armed, hm⟩
  -- whatever leaves the window ticking and the sample as it is leaves the window running
  have hkeep (horder : c'.sampler.order = c.sampler.order)
      (hbuf : c'.sampler.buffer = c.sampler.buffer)
      (hr' : Ticking c.sampler.order.setup c.sampler.order.directions e.1.now
        (arrivals ((c, a) :: during)) c.now c'.rig.recorder) :
      Course n ((c, a) :: (during ++ e :: earlier)) c' := by
    refine @Course.running n ((c, a) :: during) earlier e c' hf honce' hm' ?_ ?_
    · rw [horder]
      exact hr'.wait hnow
    · rw [hbuf, hb]
  by_cases hne : a = .sampler
  · subst hne
    obtain ⟨q, s, note, hstep, rfl⟩ := step_of_act ha
    have horder := (Sampler.turn_of_step hstep).order
    obtain ⟨hbuf, hrec | ⟨hcut, hk', htell'⟩⟩ := h.recorder_of_armed hq hr.armed hstep
    · refine hkeep horder hbuf ?_
      rw [arrivals_cons_of_none rfl]
      exact hrec ▸ hr
    · exact course_of_cut hr.armed hcut hk' (SamplerPhase.past_of_round (by simp [htell'])).1
  · have hsame := (h.frame ha hne).1
    have hkeep' := hkeep (by rw [hsame]) (by rw [hsame])
    have hturn := recorderTurn_of_act h ha hne
    generalize hr' : c'.rig.recorder = r' at hturn hkeep'
    cases hturn with
    | same _ hnone =>
      refine hkeep' ?_
      rw [arrivals_cons_of_none hnone]
      exact hr
    | step _ hnone =>
      refine hkeep' ?_
      rw [arrivals_cons_of_none hnone, hr.trigger_eq]
      exact hr
    | edge ch x =>
      refine hkeep' ?_
      have hsorted := (hpast.act h ha).sorted
      rw [arrivals_cons] at hsorted ⊢
      exact hr.edge ch x hsorted
    | expire hd hle =>
      refine hkeep' ?_
      rw [arrivals_cons_of_none rfl]
      exact hr.expire hd hle
    | cut i =>
      refine course_of_cut hr.armed hr' ?_ ?_ <;> rw [hsame]
      · exact hk
      · exact hon.begun
    | announce hi => exact absurd hi (h.not_announcing hr.armed _)
    | @service i hi =>
      cases hend : (c.rig.recorder.service c.now).2 with
      | false =>
        refine hkeep' ?_
        rw [arrivals_cons_of_none rfl]
        exact hr.service hend
      | true =>
        obtain ⟨hoff, ⟨counts, hcounts, hread⟩, hover⟩ := hr.ended hend
        refine @Course.closed n [] during earlier e (c, .recorder (.proceed i)) c' counts
          ⟨hf, honce', hm', ⟨i, rfl, hi, hend⟩, List.forall_mem_nil _, List.forall_mem_nil _⟩
          ?_ ?_ ?_ ?_ ?_ ?_ hnow
        · rwa [hsame]
        · rwa [hsame]
        · rw [hsame, hr']
          exact .unread hk hon.nothing hb hread
        · rw [hsame]
          exact hon.begun
        · rwa [hr']
        · rwa [hsame]

/-- A sample whose window has ended. -/
theorem course_of_closed (h : Sound g c) {after during earlier : Trace} {e w : Crew × Action}
    {counts : Channel → List Nat} (hw : Windowed earlier e during w after)
    (hc : Counted c.sampler.order.setup c.sampler.order.directions e.1.now (arrivals during) counts)
    (hend : c.sampler.order.setup.completed? c.sampler.order.directions (arrivals during) = none →
      c.sampler.order.setup.plannedEnd e.1.now ≤ w.1.now)
    (hd : Delivery n (readings c.sampler.order counts) c.rig.recorder c.sampler)
    (hf : c.sampler.phase.isFresh = false) (hoff : c.rig.recorder.timer.armed = false)
    (hq : c.sampler.phase.isTelling = false) (hn : w.1.now ≤ c.now) (ha : c.act? a = some c') :
    Course n ((c, a) :: (after ++ w :: (during ++ e :: earlier))) c' := by
  have hn' := Nat.le_trans hn (now_le_of_act h ha)
  have hnot : triggers (c, a) = false := by rw [triggers, snd_trigger, hoff]; simp
  have hw' : Windowed earlier e during w ((c, a) :: after) := by
    refine ⟨hw.toFirstStep, List.forall_mem_cons.mpr ⟨hnot, hw.once⟩, hw.running, hw.closes,
      List.forall_mem_cons.mpr ⟨hoff, hw.disarmed⟩, fun x hx => ?_⟩
    rw [arrivals_cons] at hx
    rcases List.mem_append.mp hx with hx | hx
    · exact hw.late x hx
    · rw [arrival?_eq_some (Option.mem_toList.mp hx)]
      exact hn
  by_cases hne : a = .sampler
  · subst hne
    obtain ⟨r, s, note, hstep, rfl⟩ := step_of_act ha
    have hturn := Sampler.turn_of_step hstep
    obtain ⟨hf', hoff', -, hq'⟩ := hturn.disarmed hf hoff
    have hd' := hd.step h hf hoff hq hstep
    rw [← hturn.order] at hc hend hd'
    exact @Course.closed n ((c, .sampler) :: after) during earlier e w
      { c with rig := r, sampler := s } counts hw' hc hend hd' hf' hoff' (hq' hq) hn'
  · obtain ⟨hsame, -, -, hdisarmed⟩ := h.frame ha hne
    have hcollect : c'.rig.recorder.collect.2 = c.rig.recorder.collect.2 := by
      rcases ((recorderTurn_of_act h ha hne).disarmed h hoff).2 with hrec | hrec <;> rw [hrec]
      exact c.rig.recorder.snd_collect_announce
    refine @Course.closed n ((c, a) :: after) during earlier e w c' counts hw' ?_ ?_ ?_ ?_
      (hdisarmed hoff).1 ?_ hn'
    · rwa [hsame]
    · rwa [hsame]
    · rw [hsame]
      cases hd with
      | unread hk hp hb hr => exact .unread hk hp hb (hcollect.trans hr)
      | inHand hk hp hb => exact .inHand hk hp hb
      | written hk hb => exact .written hk hb
    · rwa [hsame]
    · rwa [hsame]

/-- **One action of anybody follows the course of the capture**, unless it switches the power. -/
theorem Course.act (hc : Course n t c) (h : Sound g c) (hq : Tidy g c)
    (hh : Headed g c.rig.drive c.sampler) (hv : c.sampler.order.setup.Valid) (hp : Past t c)
    (ha : c.act? a = some c') (hsw : a.isSwitch = false) : Course n ((c, a) :: t) c' := by
  cases hc with
  | fresh hf hk hb hd hs => exact course_of_fresh h hq hh hf hk hb hd hs ha hsw
  | armed hr hb hs harms => exact course_of_armed h hq hv hr hb hs harms ha
  | running hf honce hm hr hb => exact course_of_running h hq hp.of_append hf honce hm hr hb ha
  | closed hw hc hend hd hf hoff htell hn =>
    exact course_of_closed h hw hc hend hd hf hoff htell hn ha
  | lost hf hd hx hk => exact course_of_lost h hf hd hx hk ha
  | @left _ _ o hf hbad =>
    by_cases hne : a = .sampler
    · subst hne
      obtain ⟨r, s, note, hstep, rfl⟩ := step_of_act ha
      have hnone := Sampler.result?_of_step hstep
      simp only [Sampler.result?, hf] at hnone
      cases hnone
    · refine .left ?_ hbad
      rwa [(h.frame ha hne).1]

end Crew

end SwitchBench
