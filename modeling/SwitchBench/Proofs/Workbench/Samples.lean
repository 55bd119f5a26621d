import Mathlib.Logic.Relation
import SwitchBench.Proofs.Sampling.Checks

/-!
# A bench is a crew

On a workbench everything has its order: the sampler acts as soon as it can, the timer calls its
handler along with the event, and everything that is due happens before the stepper goes on. A crew
leaves all that open. So what a bench does in a sample is something that its crew can do, action
after action, and whatever holds of the samples of every crew holds of those that a bench takes.

`Crewed` says of a bench that its rig and its sampler are where a crew has come since it entered the
sample. Each operation of the bench keeps it, in the order in which they are defined. Two of them do
not begin and end where the crew is between two actions: a call of the handler is up to three
actions in a row (`Crew.Handled`), and the stepper's action with the trigger it causes is one.

The clock, the pacer, the plunger, the script and what is yet to come are no part of a crew. They
only choose which of its actions comes next.

Results: `Crewed.stepperTurn` and `Crewed.runFor` (one action of the stepper, and any run of a
bench), `serves_of_sample` (a sample on a bench is one of its crew), `reaches_of_check` (a check on
a bench is where the samples lead that the bench took for it).
-/

namespace SwitchBench

namespace Crew

variable {p : StepPeriods} {rate : Nat} {c₀ c c' : Crew} {t : Trace}

/-! ## The handler's calls -/

/-- Some actions around the recorder lead from one state to another. -/
def Handled : Crew → Crew → Prop :=
  Relation.ReflTransGen fun c c' => ∃ a, c.act? (.recorder a) = some c'

theorem Serves.handled (h : Serves p rate c₀ t c) (hc : Handled c c') :
    ∃ u, Serves p rate c₀ u c' := by
  induction hc with
  | refl => exact ⟨t, h⟩
  | tail _ ha ih =>
    obtain ⟨u, hu⟩ := ih
    obtain ⟨a, ha⟩ := ha
    exact ⟨_, hu.act ha⟩

/-- Nobody else is in the middle of a call, and the recorder is where one action has brought it. -/
theorem handled_single {r : Recorder} {now : Nat} {a : Recorder.Action} (hb : a.isBystander = true)
    (ho : c.others = [])
    (ha : Recorder.Crowd.act? ⟨c.rig.recorder, c.now, []⟩ a = some ⟨r, now, []⟩) :
    Handled c { c with rig.recorder := r, now := now } := by
  refine .single ⟨a, ?_⟩
  simp only [act?, hb, if_true, ho, ha, Option.map_some]

/-- A call that acts, and then perhaps announces the end of the capture that it has ended. -/
theorem handled_call (ho : c.others = []) {k : CaptureCall} {r : Recorder} {ended : Bool}
    (hk : k.opens = true) (hb : k.isBystander = true)
    (hs : k.step? c.now c.rig.recorder
      = some (r, if ended then some CaptureCall.announcing else none)) :
    Handled c { c with rig.recorder := if ended then r.announce else r } := by
  obtain ⟨⟨d, r₀, q⟩, now, s, others⟩ := c
  obtain rfl : others = [] := ho
  have henter : Handled ⟨⟨d, r₀, q⟩, now, s, []⟩ ⟨⟨d, r₀, q⟩, now, s, [k]⟩ := by
    refine .single ⟨.enter k, ?_⟩
    simp only [act?, Recorder.Action.isBystander, hb, Recorder.Crowd.act?, hk, if_true,
      Option.map_some, List.nil_append]
  have hact : Crew.act? ⟨⟨d, r₀, q⟩, now, s, [k]⟩ (.recorder (.proceed 0))
      = some ⟨⟨d, r, q⟩, now, s, (if ended then some CaptureCall.announcing else none).toList⟩ := by
    simp only [act?, Recorder.Action.isBystander, Recorder.Crowd.act?, hs, if_true,
      List.getElem?_cons_zero, Option.bind_eq_bind, Option.bind_some, Option.pure_def,
      Option.map_some, putAt_cons_zero, List.append_nil]
  cases ended with
  | false => exact henter.tail ⟨_, hact⟩
  | true => exact (henter.tail ⟨_, hact⟩).tail ⟨.proceed 0, rfl⟩

theorem handled_handle (ho : c.others = []) :
    Handled c { c with rig.recorder := c.rig.recorder.handle c.now } :=
  handled_call ho (k := .handling) rfl rfl rfl

theorem handled_abort (ho : c.others = []) :
    Handled c { c with rig.recorder := (c.rig.recorder.abort c.now).1 } :=
  handled_call ho (k := .cutting) rfl rfl rfl

/-- So is calling the handler while an event is pending. -/
theorem handled_settle (ho : c.others = []) :
    Handled c { c with rig.recorder := c.rig.recorder.settle c.now } := by
  unfold Recorder.settle
  generalize Limits.handlerCallsMax = calls
  induction calls generalizing c with
  | zero => exact .refl
  | succ n ih =>
    unfold Timer.settle
    split
    · have hrest := @ih { c with rig.recorder := c.rig.recorder.handle c.now } ho
      exact (handled_handle ho).trans hrest
    · exact .refl

/-- A trigger that the timer has seen is noted by its handler. -/
theorem handled_trigger (ho : c.others = []) :
    Handled { c with rig.recorder.timer := (c.rig.recorder.timer.trigger c.now).1 }
      { c with rig.recorder := (c.rig.recorder.trigger c.now).1 } := by
  unfold Recorder.trigger
  dsimp only
  split
  · exact handled_settle (c := { c with
      rig.recorder.timer := (c.rig.recorder.timer.trigger c.now).1 }) ho
  · exact .refl

theorem handled_edge (ho : c.others = []) (ch : Channel) (e : Edge) :
    Handled c { c with rig.recorder := (c.rig.recorder.edge ch e c.now).1 } := by
  have hedge : Handled c
      { c with rig.recorder.timer := (c.rig.recorder.timer.edge ch e c.now).1 } :=
    handled_single (a := .edge ch e) rfl ho rfl
  unfold Recorder.edge
  dsimp only
  split
  · exact hedge.trans (handled_settle (c := { c with
      rig.recorder.timer := (c.rig.recorder.timer.edge ch e c.now).1 }) ho)
  · exact hedge

theorem handled_expire (ho : c.others = []) {due : Nat}
    (hd : c.rig.recorder.timer.expiry = some due) (hle : due ≤ c.now) :
    Handled c { c with rig.recorder := c.rig.recorder.expire due c.now } := by
  have hexpire : Handled c { c with rig.recorder.timer := c.rig.recorder.timer.expire due } :=
    handled_single (a := .expire) rfl ho (by simp only [Recorder.Crowd.act?, hd, hle, if_true])
  exact hexpire.trans (handled_settle (c := { c with
    rig.recorder.timer := c.rig.recorder.timer.expire due }) ho)

end Crew

namespace Workbench

variable {p : StepPeriods} {rate : Nat} {c₀ : Crew} {w w' : Workbench}

/-! ## A bench in the middle of a sample -/

/-- The bench's rig and its sampler are where a crew has come since it entered the sample. -/
def Crewed (p : StepPeriods) (rate : Nat) (c₀ : Crew) (w : Workbench) : Prop :=
  ∃ s t, w.sampler = some s ∧ Crew.Serves p rate c₀ t ⟨w.rig, w.now, s, []⟩

/-- What is no part of a crew may change. -/
theorem Crewed.frame (h : w.Crewed p rate c₀) (hr : w'.rig = w.rig) (hn : w'.now = w.now)
    (hs : w'.sampler = w.sampler) : w'.Crewed p rate c₀ := by
  obtain ⟨s, t, hw, h⟩ := h
  exact ⟨s, t, hs.trans hw, by rw [hr, hn]; exact h⟩

/-- An action of the crew that is none of the sampler's. -/
theorem Crewed.act (h : w.Crewed p rate c₀) {a : Crew.Action} (hs : w'.sampler = w.sampler)
    (ha : ∀ s, Crew.act? ⟨w.rig, w.now, s, []⟩ a = some ⟨w'.rig, w'.now, s, []⟩) :
    w'.Crewed p rate c₀ := by
  obtain ⟨s, t, hw, h⟩ := h
  exact ⟨s, _, hs.trans hw, h.act (ha s)⟩

theorem Crewed.handled (h : w.Crewed p rate c₀) (hs : w'.sampler = w.sampler)
    (hc : ∀ s, Crew.Handled ⟨w.rig, w.now, s, []⟩ ⟨w'.rig, w'.now, s, []⟩) :
    w'.Crewed p rate c₀ := by
  obtain ⟨s, t, hw, h⟩ := h
  obtain ⟨u, hu⟩ := h.handled (hc s)
  exact ⟨s, u, hs.trans hw, hu⟩

theorem Crewed.wait (h : w.Crewed p rate c₀) (t : Nat) :
    Crewed p rate c₀ { w with now := max w.now t } := by
  refine h.act (a := .recorder (.wait (t - w.now))) rfl fun s => ?_
  have hnow : w.now + (t - w.now) = max w.now t := by omega
  simp only [Crew.act?, Recorder.Action.isBystander, Recorder.Crowd.act?, if_true, Option.map_some,
    hnow]

/-! ### The sampler's turns -/

theorem Crewed.sampleStep (h : w.Crewed p rate c₀) (hs : w.sampleStep? = some w') :
    w'.Crewed p rate c₀ := by
  obtain ⟨s, t, hw, h⟩ := h
  simp only [sampleStep?, hw, Option.bind_eq_bind, Option.bind_some, Option.bind_eq_some_iff,
    Option.pure_def, Option.some.injEq, Prod.exists] at hs
  obtain ⟨r, s', note, hstep, rfl⟩ := hs
  have ha : Crew.act? ⟨w.rig, w.now, s, []⟩ .sampler = some ⟨r, w.now, s', []⟩ := by
    simp only [Crew.act?, hstep, Option.map_some]
  exact ⟨s', _, rfl, h.act ha⟩

theorem Crewed.attendFor (h : w.Crewed p rate c₀) (n : Nat) :
    (w.attendFor n).Crewed p rate c₀ := by
  induction n generalizing w with
  | zero => exact h
  | succ n ih =>
    unfold Workbench.attendFor
    split
    · exact h
    · exact ih (h.sampleStep ‹_›)

theorem Crewed.attend (h : w.Crewed p rate c₀) : w.attend.Crewed p rate c₀ :=
  h.attendFor attention

/-! ### Hardware that follows the rig -/

theorem Crewed.injectEdge (h : w.Crewed p rate c₀) (channel : Nat) (e : Edge) :
    (w.injectEdge channel e).1.Crewed p rate c₀ := by
  unfold Workbench.injectEdge
  split
  · exact h
  · exact h.handled rfl fun s => Crew.handled_edge (c := ⟨w.rig, w.now, s, []⟩) rfl _ _

theorem Crewed.causeEdge (h : w.Crewed p rate c₀) (e : Nat × Nat × Edge) :
    (w.causeEdge e).Crewed p rate c₀ := by
  unfold Workbench.causeEdge
  split
  · exact h.injectEdge _ _
  · exact h.frame rfl rfl rfl

theorem Crewed.foldl_causeEdge (h : w.Crewed p rate c₀) (l : List (Nat × Nat × Edge)) :
    (l.foldl Workbench.causeEdge w).Crewed p rate c₀ := by
  induction l generalizing w with
  | nil => exact h
  | cons e l ih => exact ih (h.causeEdge e)

/-- A powered step is the trigger, and then the plunger moves. -/
theorem Crewed.follow (hoff : w.rig.drive.axis.isOff = true → w.Crewed p rate c₀)
    (hon : w.rig.drive.axis.isOff = false → w.injectTrigger.1.Crewed p rate c₀) :
    w.follow.Crewed p rate c₀ := by
  unfold Workbench.follow
  split
  · exact hoff ‹_›
  · have htriggered := hon (Bool.eq_false_of_not_eq_true ‹_›)
    have hplunger (q : Plunger) (n : Option BenchNote) :
        Crewed p rate c₀ ({ w.injectTrigger.1 with plunger := q }.note n) :=
      htriggered.frame rfl rfl rfl
    exact (hplunger _ _).foldl_causeEdge _

theorem followAxis_same (w : Workbench) (before : Axis) :
    (w.followAxis before).rig = w.rig ∧ (w.followAxis before).now = w.now ∧
      (w.followAxis before).sampler = w.sampler := by
  unfold Workbench.followAxis
  dsimp only
  split <;> split <;> exact ⟨rfl, rfl, rfl⟩

theorem Crewed.followAxis (h : w.Crewed p rate c₀) (before : Axis) :
    (w.followAxis before).Crewed p rate c₀ := by
  obtain ⟨hr, hn, hs⟩ := w.followAxis_same before
  exact h.frame hr hn hs

/-- A client acts on the drive, which does not step. -/
theorem Crewed.withDrive (h : w.Crewed p rate c₀) {d : Drive} {a : Drive.Action}
    (hb : a.isBystander = true) (ha : Drive.Crowd.act? ⟨w.rig.drive, []⟩ a = some ⟨d, []⟩)
    (hp : d.step = w.rig.drive.step) : (w.withDrive d).Crewed p rate c₀ := by
  have hstill : Drive.pulses w.rig.drive d = false := by
    unfold Drive.pulses
    rw [hp]
    cases w.rig.drive.step.level <;> rfl
  have hdrive : Crewed p rate c₀ { w with rig := { w.rig with drive := d } } := by
    refine h.act (a := .drive a) rfl fun s => ?_
    simp only [Crew.act?, hb, ha, Crew.follow, hstill, if_true, Option.map_some,
      Bool.false_eq_true, if_false]
  exact hdrive.followAxis _

theorem Crewed.intervene (h : w.Crewed p rate c₀) (i : Intervention) :
    (w.intervene i).Crewed p rate c₀ := by
  refine Crewed.attend ?_
  cases i with
  | abortMove => exact h.withDrive (a := .abort) rfl rfl rfl
  | powerOff => exact h.withDrive (a := .powerOff) rfl rfl rfl
  | powerOn => exact h.withDrive (a := .powerOn) rfl rfl rfl
  | abortCapture =>
    exact h.handled rfl fun s => Crew.handled_abort (c := ⟨w.rig, w.now, s, []⟩) rfl
  | failTimer => exact h.frame rfl rfl rfl
  | send m => exact h.act (a := .send m) rfl fun s => rfl

theorem Crewed.interveneAll (h : w.Crewed p rate c₀) (l : List Intervention) :
    (w.interveneAll l).Crewed p rate c₀ := by
  unfold Workbench.interveneAll
  induction l generalizing w with
  | nil => exact h
  | cons i l ih => exact ih (h.intervene i)

/-- The hardware follows the step output. What the crew did is the stepper's action together with
the trigger, if the drive has stepped. -/
theorem Crewed.followStep {d : Drive}
    (hstill : Drive.pulses d w.rig.drive = false → w.Crewed p rate c₀)
    (hpulse : Drive.pulses d w.rig.drive = true → w.injectTrigger.1.Crewed p rate c₀) :
    (w.followStep d.step).Crewed p rate c₀ := by
  unfold Workbench.followStep
  dsimp only
  split
  · refine hstill ?_
    unfold Drive.pulses
    rw [‹w.rig.drive.step.level = d.step.level›]
    cases d.step.level <;> rfl
  · rename_i hne
    split
    · rename_i hhigh
      have hrise : Drive.pulses d w.rig.drive = !w.rig.drive.axis.isOff := by
        unfold Drive.pulses
        have hlow : d.step.level = false := by
          rw [hhigh] at hne
          simpa using Ne.symm hne
        rw [hhigh, hlow]
        rfl
      have hfollow : (w.log (.step w.rig.drive.step.level)).follow.Crewed p rate c₀ := by
        refine Crewed.follow (fun hoff => ?_) fun hon => ?_
        · exact (hstill (by rw [hrise]; exact congrArg _ hoff)).frame rfl rfl rfl
        · exact (hpulse (by rw [hrise]; exact congrArg _ hon)).frame rfl rfl rfl
      have hscript (s : Script) : Crewed p rate c₀
          { (w.log (.step w.rig.drive.step.level)).follow with script := s } :=
        hfollow.frame rfl rfl rfl
      exact (hscript _).interveneAll _
    · rename_i hlow
      refine (hstill ?_).frame rfl rfl rfl
      unfold Drive.pulses
      rw [Bool.eq_false_of_not_eq_true hlow]
      cases d.step.level <;> rfl

/-! ### Time -/

theorem earlier_cases {a b : Option (Nat × Due)} {x : Nat × Due} (h : earlier a b = some x) :
    a = some x ∨ b = some x := by
  unfold earlier at h
  split at h
  · exact .inr h
  · exact .inl h
  · split at h
    · exact .inl h
    · exact .inr h

/-- A period ends when the timer says so. -/
theorem expiry_of_due {t : Nat} (h : w.due = some (t, .expiry)) :
    w.rig.recorder.timer.expiry = some t := by
  rcases earlier_cases h with h | h
  · simpa using h
  · rcases earlier_cases h with h | h <;> simp at h

theorem Crewed.happen (h : w.Crewed p rate c₀) {t : Nat} {d : Due} (hd : w.due = some (t, d)) :
    (w.happen t d).Crewed p rate c₀ := by
  refine Crewed.attend ?_
  have hwait := h.wait t
  cases d with
  | expiry =>
    refine hwait.handled rfl fun s => ?_
    exact Crew.handled_expire (c := ⟨w.rig, max w.now t, s, []⟩) rfl (expiry_of_due hd)
      (Nat.le_max_right _ _)
  | edge =>
    dsimp only
    split
    · exact hwait
    · have hedges (l : List (Nat × Nat × Edge)) :
          Crewed p rate c₀ { w with now := max w.now t, edges := l } := hwait.frame rfl rfl rfl
      exact (hedges _).injectEdge _ _
  | message =>
    dsimp only
    split
    · exact hwait
    · exact hwait.act (a := .send _) rfl fun s => rfl

theorem Crewed.elapseFor (h : w.Crewed p rate c₀) (n target : Nat) :
    (w.elapseFor n target).Crewed p rate c₀ := by
  induction n generalizing w with
  | zero => exact h.wait target
  | succ n ih =>
    unfold Workbench.elapseFor
    split
    · split
      · exact ih (h.happen ‹_›)
      · exact h.wait target
    · exact h.wait target

theorem Crewed.elapse (h : w.Crewed p rate c₀) (target : Nat) :
    (w.elapse target).Crewed p rate c₀ :=
  h.elapseFor _ target

/-! ### The stepper's turns -/

theorem Crewed.resume (h : w.Crewed p rate c₀) (r : Reply) : (w.resume r).Crewed p rate c₀ := by
  let d := w.rig.drive.resume r
  let v : Workbench := { w with rig := { w.rig with drive := d } }
  have hact (s : Sampler) : Crew.act? ⟨w.rig, w.now, s, []⟩ (.drive (.stepper r))
      = some (Crew.follow ⟨w.rig, w.now, s, []⟩ d) := rfl
  obtain ⟨hrig, hnow, hsampler⟩ := v.followAxis_same w.rig.drive.axis
  refine Crewed.followStep (w := v.followAxis w.rig.drive.axis) (fun hp => ?_) fun hp => ?_
  · rw [hrig] at hp
    have hstepped : v.Crewed p rate c₀ := by
      refine h.act (a := .drive (.stepper r)) rfl fun s => ?_
      rw [hact, Crew.follow, if_neg (ne_true_of_eq_false hp)]
    exact hstepped.followAxis _
  · rw [hrig] at hp
    obtain ⟨s, t, hw, h⟩ := h
    have hstepped := h.act (hact s)
    rw [Crew.follow, if_pos hp] at hstepped
    obtain ⟨u, hu⟩ := hstepped.handled (Crew.handled_trigger (c := ⟨v.rig, w.now, s, []⟩) rfl)
    refine ⟨s, u, hsampler.trans hw, ?_⟩
    unfold injectTrigger
    dsimp only
    rw [hrig, hnow]
    exact hu

theorem Crewed.drainFor (h : w.Crewed p rate c₀) (n : Nat) : (w.drainFor n).Crewed p rate c₀ := by
  induction n generalizing w with
  | zero => exact h
  | succ n ih =>
    unfold Workbench.drainFor
    split
    · split
      · exact ih (h.elapse _)
      · exact h.intervene _
    · exact h

/-- **One action of the stepper is something that the crew can do**, with everything that happens on
the bench meanwhile. -/
theorem Crewed.stepperTurn (h : w.Crewed p rate c₀) (draining : Bool) :
    (w.stepperTurn draining).Crewed p rate c₀ := by
  unfold Workbench.stepperTurn
  refine Crewed.attend ?_
  split
  · exact h.resume _
  · exact h.resume _
  · refine Crewed.resume ?_ _
    exact h.frame rfl rfl rfl
  · split
    · exact h.resume _
    · rename_i due _
      have hscript (s : Script) : Crewed p rate c₀
          { w.elapse (max due w.now) with pacer := w.pacer.waited (max due w.now), script := s } :=
        (h.elapse _).frame rfl rfl rfl
      have hticked (b : Bool) (s : Script) (l : List Intervention) : Crewed p rate c₀
          { Workbench.interveneAll { w.elapse (max due w.now) with
            pacer := w.pacer.waited (max due w.now), script := s } l with timerFails := b } :=
        ((hscript s).interveneAll l).frame rfl rfl rfl
      exact (hticked _ _ _).resume _
  · exact h.resume _
  · split
    · exact h.frame rfl rfl rfl
    · refine Crewed.resume ?_ _
      exact (h.elapse _).frame rfl rfl rfl
  · have hscript (s : Script) : Crewed p rate c₀
        { w.log .stopTimer with pacer := w.pacer.stop, script := s } := h.frame rfl rfl rfl
    have hstopped := (hscript w.script.stop.1).interveneAll w.script.stop.2
    refine Crewed.resume ?_ _
    dsimp only
    split
    · exact hstopped.drainFor _
    · exact hstopped
  · exact h

theorem nextMove_due {t : Nat} {d : Due} (h : w.nextMove? = some (t, some d)) :
    w.due = some (t, d) := by
  unfold nextMove? at h
  split at h
  · cases h
  · cases h
  · cases h
    assumption
  · split at h <;> cases h
    assumption

/-- **Any run of a bench is something that its crew can do.** -/
theorem Crewed.runFor (h : w.Crewed p rate c₀) (draining : Bool) (goal : Workbench → Bool)
    (n : Nat) : (w.runFor draining goal none n).Crewed p rate c₀ := by
  induction n generalizing w with
  | zero => exact h
  | succ n ih =>
    unfold Workbench.runFor
    split
    · exact h
    · split
      · exact h.frame rfl (Nat.max_self _) rfl
      · rename_i t d hnext
        refine ih ?_
        split
        · exact h.happen (nextMove_due hnext)
        · exact h.stepperTurn _

/-! ## Samples -/

variable {v u : Workbench} {draining : Bool} {o : SampleOrder} {buffer : List Reading} {s : Sampler}

/-- A sample may be entered on the bench: its rig is at rest, or a sample has just left it. -/
def Ready (p : StepPeriods) (rate : Nat) (v : Workbench) : Prop :=
  ∀ o buffer s, Sampler.start o buffer = .ok s →
    Crew.Serves p rate ⟨v.rig, v.now, s, []⟩ [] ⟨v.rig, v.now, s, []⟩

theorem ready_of_atRest {t : Drive.Crowd.Trace} {t' : Recorder.Crowd.Trace}
    (hd : Drive.Crowd.Reaches p rate t ⟨v.rig.drive, []⟩)
    (hr : Recorder.Crowd.Reaches t' ⟨v.rig.recorder, v.now, []⟩) (hrest : v.rig.AtRest) :
    v.Ready p rate :=
  fun _ _ _ hs => .start hd hr (fun _ h0 => (List.not_mem_nil h0).elim) hrest hs

/-- A bench that was just set up is ready. -/
theorem ready_ofRig {r : Rig} (h : Rig.ofPeriods p rate = .ok r) (clock : CycleClock)
    (catchup : Catchup) (plunger : Plunger) : (ofRig r clock catchup plunger).Ready p rate := by
  unfold Rig.ofPeriods at h
  cases hd : Drive.ofPeriods p rate <;> rw [hd] at h <;> cases h
  exact ready_of_atRest (.start hd) (.start 0)
    ⟨Drive.atRest_of_ofPeriods hd, rfl, rfl, rfl, rfl, rfl⟩

theorem ready_of_serves {t : Crew.Trace} {s : Sampler} {x : SampleOutcome}
    (h : Crew.Serves p rate c₀ t ⟨u.rig, u.now, s, []⟩) (hx : s.result? = some (.ok x)) :
    u.Ready p rate :=
  fun _ _ _ hs => h.next hx hs

/-- **A sample on a bench is one of its crew**, and the bench answers what the sampler has come to:
its outcome and its buffer. If it gives no answer, the sampler has not returned. -/
theorem serves_of_sample (hv : v.Ready p rate) (hs : Sampler.start o buffer = .ok s)
    {a : Except Refusal (SampleOutcome × List Reading)}
    (ha : v.sample draining o buffer = (u, a)) :
    ∃ t s', Crew.Serves p rate ⟨v.rig, v.now, s, []⟩ t ⟨u.rig, u.now, s', []⟩ ∧
      ((∃ x, s'.result? = some (.ok x) ∧ a = .ok (x, s'.buffer)) ∨
        s'.result? = none ∧ a = .error .endless) := by
  have hentered : Crewed p rate ⟨v.rig, v.now, s, []⟩ { v with sampler := some s } :=
    ⟨s, [], rfl, hv _ _ _ hs⟩
  unfold Workbench.sample at ha
  rw [hs] at ha
  dsimp only at ha
  have hrun := hentered.attend.runFor draining sampled
    ((attend { v with sampler := some s }).budget
      (distance o.target (attend { v with sampler := some s }).rig.drive.axis.position) 0)
  generalize runFor draining sampled none _ _ = x at ha hrun
  cases ha
  obtain ⟨s', t, hx, h⟩ := hrun
  refine ⟨t, s', h, ?_⟩
  unfold answer
  rw [hx]
  cases hresult : s'.result? with
  | none => exact .inr ⟨rfl, by simp only [hresult]⟩
  | some y =>
    cases y with
    | ok y => exact .inl ⟨y, rfl, by simp only [hresult]⟩
    | error f => exact absurd hresult (h.not_refused f)

/-- The samples that a bench took in a row, newest first. Each was entered on the bench as the one
before has left it, and what it has answered is what its crew has come to. -/
inductive Took (draining : Bool) (v : Workbench) : List Check.Sampled → Workbench → Prop
  | none : Took draining v [] v
  | sample {l : List Check.Sampled} {u u' : Workbench} {e : Check.Sampled} (n : Option BenchNote)
      (h : Took draining v l u)
      (hentered : e.entered = ⟨u.rig, u.now, e.entered.sampler, []⟩)
      (hleft : e.left = ⟨u'.rig, u'.now, e.left.sampler, []⟩)
      (hs : u.sample draining e.wanted.order (blanks e.wanted.length)
        = (u', .ok (e.outcome, e.left.sampler.buffer))) : Took draining v (e :: l) (u'.note n)

theorem Took.left {l : List Check.Sampled} (h : Took draining v l u) :
    ∀ e ∈ l.head?, e.left = ⟨u.rig, u.now, e.left.sampler, []⟩ := by
  cases h with
  | none => exact fun e he => by cases he
  | sample n _ _ hleft _ =>
    intro e he
    cases he
    exact hleft

/-! ## Checks -/

variable {k : Check} {order : CheckOrder} {position : Int} {l : List Check.Sampled}

/-- A bench that goes on with a check goes on with the log of its samples. -/
theorem reaches_of_checkFor
    (hleg : ∀ i buffer, ∃ s, Sampler.start (order.leg position i).order buffer = .ok s)
    (h : Check.Reaches p rate order position l k) (ht : Took draining v l u) (hu : u.Ready p rate)
    (n : Nat) :
    ∃ l' k' u', Check.Reaches p rate order position l' k' ∧ Took draining v l' u' ∧
      (u.checkFor draining n k = (u', .ok k') ∨
        ∃ w x, k'.wants? = some w ∧
          u'.sample draining w.order (blanks w.length) = (x, .error .endless) ∧
          u.checkFor draining n k = (x, .error .endless)) := by
  induction n generalizing l k u with
  | zero => exact ⟨l, k, u, h, ht, .inl rfl⟩
  | succ n ih =>
    unfold Workbench.checkFor
    cases hw : k.wants? with
    | none => exact ⟨l, k, u, h, ht, .inl rfl⟩
    | some w =>
      obtain ⟨s, hs⟩ := hleg l.length (blanks w.length)
      rw [← (Check.logged_of_reaches h).wanted_eq hw] at hs
      rcases hx : u.sample draining w.order (blanks w.length) with ⟨x, a⟩
      obtain ⟨t, s', hserves, ⟨y, hy, rfl⟩ | ⟨-, rfl⟩⟩ := serves_of_sample hu hs hx
      · let e : Check.Sampled := ⟨w, ⟨u.rig, u.now, s, []⟩, t, ⟨x.rig, x.now, s', []⟩, y⟩
        have hlast : ∀ e ∈ l.head?, (⟨u.rig, u.now, s, []⟩ : Crew) = { e.left with sampler := s } :=
          fun e he => by rw [ht.left e he]
        have hnext := h.sample hw hlast List.length_replicate hs hserves hy
        have htook := ht.sample (e := e) (Workbench.checkNote? k (k.told y s'.buffer)) rfl rfl hx
        simp only [hx]
        exact ih hnext htook (ready_of_serves hserves hy)
      · refine ⟨l, k, u, h, ht, .inr ⟨w, x, hw, hx, ?_⟩⟩
        simp only [hx]

/-- **What a bench answers of a check is where its own samples lead.** On a bench that is ready for
a sample, a check that may be begun takes one sample after the other, each of them one of the crew
of the bench, and is told of each what its crew has come to. Either it is done after the last of
them; or it wants another one, and the bench gives no answer of the check as it gives none of that
sample. -/
theorem reaches_of_check (hk : Check.start order = .ok k) (hv : v.Ready p rate) (draining : Bool) :
    ∃ l k' u, Check.Reaches p rate order v.rig.drive.locate l k' ∧ Took draining v l u ∧
      (k'.result?.isSome = true ∧ v.check draining order = (u, .ok k') ∨
        ∃ w x, k'.wants? = some w ∧
          u.sample draining w.order (blanks w.length) = (x, .error .endless) ∧
          v.check draining order = (x, .error .endless)) := by
  have hdone : Check.Answers draining order v.rig.drive.locate (v.check draining order).2 :=
    Check.answers_check hk v
  obtain ⟨⟨htop, hbottom⟩, hwindow⟩ := Check.valid_of_start hk
  have hleg (i : Nat) (buffer : List Reading) :
      ∃ s, Sampler.start (order.leg v.rig.drive.locate i).order buffer = .ok s :=
    Check.exists_start_leg htop hbottom hwindow i buffer
  have hbegun : Check.Reaches p rate order v.rig.drive.locate [] k := .start hk
  have hlocated : Check.Reaches p rate order v.rig.drive.locate []
      (if k.result?.isSome then k else k.located v.rig.drive.locate) := by
    split
    · exact hbegun
    · obtain ⟨-, ⟨-, rfl⟩ | ⟨-, rfl⟩⟩ := Check.eq_of_start hk
      · exact absurd rfl ‹_›
      · exact hbegun.locate rfl
  unfold Workbench.check at hdone ⊢
  rw [hk] at hdone ⊢
  dsimp only at hdone ⊢
  generalize (if k.result?.isSome then k else k.located v.rig.drive.locate) = k₀ at hdone hlocated ⊢
  have hnone : Took draining v [] v := .none
  obtain ⟨l, k', u, h, ht, hend⟩ := reaches_of_checkFor hleg hlocated hnone hv k₀.samplesMax
  refine ⟨l, k', u, h, ht, ?_⟩
  rcases hend with he | hend
  · rw [he] at hdone ⊢
    exact .inl ⟨hdone, rfl⟩
  · exact .inr hend

end Workbench

end SwitchBench
