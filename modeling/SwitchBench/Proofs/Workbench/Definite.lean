import SwitchBench.Program.Entries
import SwitchBench.Proofs.Sampling.Rest
import SwitchBench.Workbench.Run

/-!
# Nothing on a workbench is left unfinished

Waits of the drive's and the recorder's clients can give up, and what such a wait answers is no
outcome of a move or of a capture. A sampler never gives up, so nothing on its bench notes that
answer: not the drive, not its stepper and not the sampler (`Definite`). Therefore the ends it has
collected always make an outcome, and its absolute orders are never refused. That holds whatever
else is done to the bench: edges and messages that come, a script with its aborts, switches of the
power and failures of the timer.

Results: `Drive.Definite.resume` and `Sampler.definite_of_step` (one action of the stepper and one
of the sampler), `Workbench.Definite.runFor` (any run of a bench), `Workbench.Definite.sample`
(a sample is never refused, and its buffer keeps its length).
-/

namespace SwitchBench

/-! ## The drive -/

namespace Axis

variable (a : Axis)

theorem outcome_powerOff : a.powerOff.1.outcome = a.outcome := by
  rw [powerOff]
  split <;> rfl

theorem outcome_abort : a.abort.1.outcome = a.outcome := by
  rw [abort]
  split <;> rfl

end Axis

/-- No move of a drive ends by a wait that gave up, and the drive is not being shut down. -/
structure Drive.Definite (d : Drive) : Prop where
  running : d.shutdown = false
  outcome : d.axis.outcome ≠ .timedOut
  stopping : d.stepper.phase ≠ .stopping .timedOut
  reporting : d.stepper.phase ≠ .reporting .timedOut

namespace Drive

variable {d : Drive}

/-- Clients act on the shared state only. -/
theorem Definite.withAxis (h : d.Definite) {a : Axis} (ha : a.outcome ≠ .timedOut) :
    Definite { d with axis := a } :=
  ⟨h.running, ha, h.stopping, h.reporting⟩

theorem Definite.powerOn (h : d.Definite) : d.powerOn.1.Definite :=
  h.withAxis (a := d.axis.powerOn.1) (by rw [Axis.outcome_powerOn]; exact h.outcome)

theorem Definite.powerOff (h : d.Definite) : d.powerOff.1.Definite :=
  h.withAxis (a := d.axis.powerOff.1) (by rw [Axis.outcome_powerOff]; exact h.outcome)

theorem Definite.abort (h : d.Definite) : d.abort.1.Definite :=
  h.withAxis (a := d.axis.abort.1) (by rw [Axis.outcome_abort]; exact h.outcome)

theorem Definite.launch (h : d.Definite) (o : MoveOrder) : (d.launch o).1.Definite := by
  refine h.withAxis (a := (d.axis.launch o).1) ?_
  rcases d.axis.launch_cases o with ⟨-, he⟩ | ⟨-, -, he⟩ | ⟨-, -, he⟩ | ⟨-, t, -, -, he⟩ <;> rw [he]
  · exact nofun
  · exact h.outcome
  · exact nofun
  · exact h.outcome

theorem Definite.announce (h : d.Definite) (l : Launch) : (d.announce l).Definite := by
  cases l <;> exact ⟨h.running, h.outcome, h.stopping, h.reporting⟩

/-- A stepper with a move in hand has not noted how it ended. -/
theorem Definite.ofFlying {s : Stepper} {a : Axis} {pin : Pin} (h : d.Definite)
    (ha : a.outcome = d.axis.outcome) (hs : s.phase.isFlying = true) :
    Definite { d with axis := a, step := pin, stepper := s } := by
  refine ⟨h.running, fun he => h.outcome (ha ▸ he), fun he => ?_, fun he => ?_⟩
  · rw [show s.phase = .stopping .timedOut from he] at hs
    cases hs
  · rw [show s.phase = .reporting .timedOut from he] at hs
    cases hs

/-- A decision to end a move says how. -/
theorem outcome_of_decide {a b : Axis} {o : MoveOutcome} (h : a.decide = (b, .finish o)) :
    b.outcome = a.outcome ∧ o ≠ .timedOut := by
  unfold Axis.decide at h
  split_ifs at h <;> cases h <;> exact ⟨rfl, nofun⟩

theorem Definite.turn (h : d.Definite) {d' : Drive} {e : Option MoveEvent} (ht : Turn d d' e) :
    d'.Definite := by
  cases ht with
  | same => exact h
  | wake => exact ⟨h.running, h.outcome, nofun, nofun⟩
  | fly _ hs ha => exact h.ofFlying ha.outcome hs
  | settle _ ha =>
    obtain ⟨hb, ho⟩ := outcome_of_decide ha
    exact ⟨h.running, fun he => h.outcome (hb ▸ he), fun he => ho (StepperPhase.stopping.inj he),
      nofun⟩
  | fail => exact ⟨h.running, h.outcome, nofun, nofun⟩
  | rest hp =>
    exact ⟨h.running, h.outcome, nofun,
      fun he => h.stopping (hp.trans (congrArg _ (StepperPhase.reporting.inj he)))⟩
  | note hp =>
    exact ⟨h.running, fun he => h.reporting (hp.trans (congrArg _ he)), nofun, nofun⟩
  | tell => exact ⟨h.running, h.outcome, nofun, nofun⟩

/-- **One action of the stepper notes no wait that gave up.** -/
theorem Definite.resume (h : d.Definite) (r : Reply) : (d.resume r).Definite :=
  h.turn (turn_resume (c := ⟨d, []⟩) h.running r)

theorem definite_of_ofPeriods {p : StepPeriods} {rate : Nat} (h : ofPeriods p rate = .ok d) :
    d.Definite := by
  unfold ofPeriods at h
  cases hv : p.validate <;> rw [hv] at h <;> cases h
  exact ⟨rfl, nofun, nofun, nofun⟩

end Drive

/-! ## The sampler -/

theorem SamplerPhase.accepted_of_isTelling {p : SamplerPhase} (h : p.isTelling = true) :
    (∀ f, p ≠ .announcing (.refused f)) ∧ ∀ f, p ≠ .refused f := by
  constructor <;> rintro f rfl <;> cases h

namespace Sampler

/-- A sampler has collected no answer of a wait that gave up, it was not refused and will not be,
and its buffer has some length. -/
structure Definite (length : Nat) (s : Sampler) : Prop where
  moveEnd : s.moveEnd ≠ some .timedOut
  captureEnd : s.captureEnd ≠ some .timedOut
  launched : ∀ f, s.phase ≠ .announcing (.refused f)
  accepted : ∀ f, s.phase ≠ .refused f
  length : s.buffer.length = length

variable {s s' : Sampler} {r r' : Rig} {now n : Nat} {note : Option SampleNote}

/-- A sampler begins with nothing collected. -/
theorem definite_of_start {o : SampleOrder} {buffer : List Reading} (h : start o buffer = .ok s) :
    s.Definite buffer.length := by
  unfold start at h
  split_ifs at h
  cases h
  exact ⟨nofun, nofun, nofun, nofun, rfl⟩

/-- With both ends definite, what comes next is no refusal. -/
theorem Next.accepted {p : SamplerPhase} (h : s.Next p) (hm : s.moveEnd ≠ some .timedOut)
    (hk : s.captureEnd ≠ some .timedOut) :
    (∀ f, p ≠ .announcing (.refused f)) ∧ ∀ f, p ≠ .refused f := by
  cases h with
  | look hp =>
    constructor <;> rintro f rfl <;> cases hp
  | takeMove | takeCapture => exact ⟨nofun, nofun⟩
  | @conclude m k hm' hk' =>
    obtain ⟨o, ho⟩ := exists_conclude (fun he => hm (he ▸ hm')) (fun he => hk (he ▸ hk'))
      s.userAborted
    rw [ho]
    exact ⟨nofun, nofun⟩

/-- **One action of a sampler collects no wait that gave up**, and is not refused. -/
theorem Definite.step (h : s.Definite n) (hd : r.drive.Definite)
    (hs : s.step now r = some (r', s', note)) : s'.Definite n ∧ r'.drive.Definite := by
  have hlength := (length_buffer_of_step hs).trans h.length
  have hgo {p : SamplerPhase} (hp : (∀ f, p ≠ .announcing (.refused f)) ∧ ∀ f, p ≠ .refused f) :
      (s.goto p).Definite n := ⟨h.moveEnd, h.captureEnd, hp.1, hp.2, h.length⟩
  have hnext {p : SamplerPhase} (hn : s.Next p) := hgo (hn.accepted h.moveEnd h.captureEnd)
  cases turn_of_step hs with
  | leave => exact ⟨⟨h.moveEnd, h.captureEnd, nofun, nofun, hlength⟩, hd⟩
  | seek | takeRecorder | arm | takeCapture | readChannels => exact ⟨hgo ⟨nofun, nofun⟩, hd⟩
  | takeDrive _ hdrive =>
    obtain ⟨_, -, rfl⟩ := Option.map_eq_some_iff.mp hdrive
    exact ⟨hgo ⟨nofun, nofun⟩, hd.running, hd.outcome, hd.stopping, hd.reporting⟩
  | launch =>
    refine ⟨hgo ⟨fun f hp => ?_, nofun⟩, hd.launch s.moveOrder⟩
    exact launch_ne_refused s r.drive f (SamplerPhase.announcing.inj hp)
  | @announce l p hp hn =>
    refine ⟨hgo ?_, hd.announce l⟩
    cases l with
    | refused f => exact absurd hp (h.launched f)
    | began _ | finished _ =>
      rw [hn]
      exact ⟨nofun, nofun⟩
  | look _ hn => exact ⟨hnext hn, hd⟩
  | hear => exact ⟨⟨h.moveEnd, h.captureEnd, nofun, nofun, h.length⟩, hd⟩
  | abortMove => exact ⟨hgo ⟨nofun, nofun⟩, hd.abort⟩
  | @cut p _ hn =>
    refine ⟨?_, hd⟩
    split at hn
    · exact hgo (SamplerPhase.accepted_of_isTelling hn)
    · exact hnext hn
  | tell _ hn => exact ⟨hnext hn, hd⟩
  | takeMove _ hdrive =>
    obtain ⟨_, -, rfl⟩ := Option.map_eq_some_iff.mp hdrive
    exact ⟨hgo ⟨nofun, nofun⟩, hd.running, hd.outcome, hd.stopping, hd.reporting⟩
  | readMove =>
    exact ⟨⟨fun he => hd.outcome (Option.some.inj he), h.captureEnd, nofun, nofun, h.length⟩, hd⟩
  | freeDrive _ hn =>
    refine ⟨?_, hd.running, hd.outcome, hd.stopping, hd.reporting⟩
    split at hn
    · rw [hn]
      exact hgo ⟨nofun, nofun⟩
    · exact hnext hn
  | @freeRecorder l k _ _ _ hk hn =>
    have hcapture : some k ≠ some .timedOut := by
      rw [hk]
      split <;> nofun
    obtain ⟨hlaunched, haccepted⟩ := hn.accepted h.moveEnd hcapture
    exact ⟨⟨h.moveEnd, hcapture, hlaunched, haccepted, hlength⟩, hd⟩

end Sampler

/-! ## The bench -/

/-- What was noted on a bench can be told in the journal. -/
def BenchNote.Tellable (x : BenchNote) : Prop := ∃ l, Program.noteEntries x = .ok l

namespace Workbench

/-- Nothing on a bench is left unfinished, and all its notes can be told. -/
structure Definite (length : Nat) (w : Workbench) : Prop where
  drive : w.rig.drive.Definite
  sampler : ∀ s, w.sampler = some s → s.Definite length
  notes : ∀ x ∈ w.notes, x.Tellable

variable {w : Workbench} {n : Nat}

/-- What nobody here looks at may change. -/
theorem Definite.frame (h : w.Definite n) {w' : Workbench} (hd : w'.rig.drive = w.rig.drive)
    (hs : w'.sampler = w.sampler) (hn : w'.notes = w.notes) : w'.Definite n := by
  refine ⟨?_, ?_, ?_⟩
  · rw [hd]
    exact h.drive
  · rw [hs]
    exact h.sampler
  · rw [hn]
    exact h.notes

theorem Definite.note (h : w.Definite n) {x : Option BenchNote}
    (hx : ∀ y, x = some y → y.Tellable) : (w.note x).Definite n := by
  refine ⟨h.drive, h.sampler, fun y hy => ?_⟩
  rcases List.mem_append.mp hy with hy | hy
  · exact hx y (Option.mem_toList.mp hy)
  · exact h.notes y hy

theorem Definite.log (h : w.Definite n) (e : HardwareEvent) : (w.log e).Definite n :=
  h.frame rfl rfl rfl

/-! ### The sampler's turns -/

theorem Definite.sampleStep (h : w.Definite n) {w' : Workbench} (hs : w.sampleStep? = some w') :
    w'.Definite n := by
  simp only [sampleStep?, Option.bind_eq_bind, Option.bind_eq_some_iff, Option.pure_def,
    Option.some.injEq, Prod.exists] at hs
  obtain ⟨s, hw, r, s', note, hstep, rfl⟩ := hs
  obtain ⟨hs', hd⟩ := (h.sampler s hw).step h.drive hstep
  have hnext : Definite n { w with rig := r, sampler := some s' } :=
    ⟨hd, fun _ he => Option.some.inj he ▸ hs', h.notes⟩
  refine hnext.note fun y hy => ?_
  · obtain ⟨x, -, rfl⟩ := Option.map_eq_some_iff.mp hy
    exact ⟨_, rfl⟩

theorem Definite.attendFor (h : w.Definite n) (k : Nat) : (w.attendFor k).Definite n := by
  induction k generalizing w with
  | zero => exact h
  | succ k ih =>
    unfold Workbench.attendFor
    split
    · exact h
    · exact ih (h.sampleStep ‹_›)

theorem Definite.attend (h : w.Definite n) : w.attend.Definite n := h.attendFor attention

/-! ### Hardware that follows the rig -/

theorem Definite.injectEdge (h : w.Definite n) (channel : Nat) (e : Edge) :
    (w.injectEdge channel e).1.Definite n := by
  unfold Workbench.injectEdge
  split
  · exact h
  · exact h.frame rfl rfl rfl

theorem Definite.causeEdge (h : w.Definite n) (e : Nat × Nat × Edge) :
    (w.causeEdge e).Definite n := by
  unfold Workbench.causeEdge
  split
  · exact h.injectEdge _ _
  · exact h.frame rfl rfl rfl

theorem Definite.foldl_causeEdge (h : w.Definite n) (l : List (Nat × Nat × Edge)) :
    (l.foldl Workbench.causeEdge w).Definite n := by
  induction l generalizing w with
  | nil => exact h
  | cons e l ih => exact ih (h.causeEdge e)

theorem tellable_of_turn? {p q : Plunger} {x : BenchNote} (h : turn? p q = some x) :
    x.Tellable := by
  unfold turn? at h
  split at h
  · split at h <;> cases h
    exact ⟨_, rfl⟩
  · cases h

theorem Definite.follow (h : w.Definite n) : w.follow.Definite n := by
  unfold Workbench.follow
  split
  · exact h
  · have hplunger (p : Plunger) : Definite n { w.injectTrigger.1 with plunger := p } :=
      h.frame rfl rfl rfl
    exact ((hplunger _).note fun y hy => tellable_of_turn? hy).foldl_causeEdge _

theorem Definite.followAxis (h : w.Definite n) (before : Axis) :
    (w.followAxis before).Definite n := by
  unfold Workbench.followAxis
  dsimp only
  split <;> split <;> exact h.frame rfl rfl rfl

theorem Definite.withDrive (h : w.Definite n) {d : Drive} (hd : d.Definite) :
    (w.withDrive d).Definite n := by
  have hdrive : Definite n { w with rig := { w.rig with drive := d } } := ⟨hd, h.sampler, h.notes⟩
  exact hdrive.followAxis _

theorem Definite.intervene (h : w.Definite n) (i : Intervention) : (w.intervene i).Definite n := by
  refine Definite.attend ?_
  cases i with
  | abortMove => exact h.withDrive h.drive.abort
  | powerOff => exact h.withDrive h.drive.powerOff
  | powerOn => exact h.withDrive h.drive.powerOn
  | abortCapture | failTimer | send _ => exact h.frame rfl rfl rfl

theorem Definite.interveneAll (h : w.Definite n) (l : List Intervention) :
    (w.interveneAll l).Definite n := by
  unfold Workbench.interveneAll
  induction l generalizing w with
  | nil => exact h
  | cons i l ih => exact ih (h.intervene i)

theorem Definite.followStep (h : w.Definite n) (before : Pin) :
    (w.followStep before).Definite n := by
  unfold Workbench.followStep
  dsimp only
  split
  · exact h
  · split
    · have hfollow := (h.log (.step w.rig.drive.step.level)).follow
      have hscript (s : Script) :
          Definite n { (w.log (.step w.rig.drive.step.level)).follow with script := s } :=
        hfollow.frame rfl rfl rfl
      exact (hscript _).interveneAll _
    · exact h.log _

/-! ### Time -/

theorem Definite.happen (h : w.Definite n) (t : Nat) (d : Due) : (w.happen t d).Definite n := by
  refine Definite.attend ?_
  cases d with
  | expiry =>
    have hexpire (r : Recorder) : Definite n
        { w with now := max w.now t, rig := { w.rig with recorder := r } } := h.frame rfl rfl rfl
    exact (hexpire _).note fun y hy => by
      cases hy
      exact ⟨_, rfl⟩
  | edge =>
    dsimp only
    split
    · exact h.frame rfl rfl rfl
    · have hedges (l : List (Nat × Nat × Edge)) :
          Definite n { w with now := max w.now t, edges := l } := h.frame rfl rfl rfl
      exact (hedges _).injectEdge _ _
  | message =>
    dsimp only
    split <;> exact h.frame rfl rfl rfl

theorem Definite.elapseFor (h : w.Definite n) (k target : Nat) :
    (w.elapseFor k target).Definite n := by
  induction k generalizing w with
  | zero => exact h.frame rfl rfl rfl
  | succ k ih =>
    unfold Workbench.elapseFor
    split
    · split
      · exact ih (h.happen _ _)
      · exact h.frame rfl rfl rfl
    · exact h.frame rfl rfl rfl

theorem Definite.elapse (h : w.Definite n) (target : Nat) : (w.elapse target).Definite n :=
  h.elapseFor _ target

/-! ### The stepper's turns -/

theorem Definite.resume (h : w.Definite n) (r : Reply) : (w.resume r).Definite n := by
  have hdrive : Definite n { w with rig := { w.rig with drive := w.rig.drive.resume r } } :=
    ⟨h.drive.resume r, h.sampler, h.notes⟩
  exact (hdrive.followAxis _).followStep _

theorem Definite.drainFor (h : w.Definite n) (k : Nat) : (w.drainFor k).Definite n := by
  induction k generalizing w with
  | zero => exact h
  | succ k ih =>
    unfold Workbench.drainFor
    split
    · split
      · exact ih (h.elapse _)
      · exact h.intervene _
    · exact h

/-- **One action of the stepper leaves nothing unfinished**, whatever happens on the bench
meanwhile. -/
theorem Definite.stepperTurn (h : w.Definite n) (draining : Bool) :
    (w.stepperTurn draining).Definite n := by
  unfold Workbench.stepperTurn
  refine Definite.attend ?_
  split
  · exact h.resume _
  · exact h.resume _
  · refine Definite.resume ?_ _
    exact h.frame rfl rfl rfl
  · split
    · exact h.resume _
    · rename_i due _
      have hscript (s : Script) : Definite n
          { w.elapse (max due w.now) with pacer := w.pacer.waited (max due w.now), script := s } :=
        (h.elapse _).frame rfl rfl rfl
      have hticked (b : Bool) (s : Script) (l : List Intervention) : Definite n
          { Workbench.interveneAll { w.elapse (max due w.now) with
            pacer := w.pacer.waited (max due w.now), script := s } l with timerFails := b } :=
        ((hscript s).interveneAll l).frame rfl rfl rfl
      exact (hticked _ _ _).resume _
  · exact h.resume _
  · split
    · exact h.frame rfl rfl rfl
    · refine Definite.resume ?_ _
      exact (h.elapse _).frame rfl rfl rfl
  · have hscript (s : Script) : Definite n
        { w.log .stopTimer with pacer := w.pacer.stop, script := s } := h.frame rfl rfl rfl
    have hstopped := (hscript w.script.stop.1).interveneAll w.script.stop.2
    refine Definite.resume ?_ _
    dsimp only
    split
    · exact hstopped.drainFor _
    · exact hstopped
  · exact h

/-- **Any run of a bench leaves nothing unfinished.** -/
theorem Definite.runFor (h : w.Definite n) (draining : Bool) (goal : Workbench → Bool)
    (deadline : Option Nat) (k : Nat) : (w.runFor draining goal deadline k).Definite n := by
  induction k generalizing w with
  | zero => exact h
  | succ k ih =>
    unfold Workbench.runFor
    split
    · exact h
    · split
      · exact h.frame rfl rfl rfl
      · split
        · refine ih ?_
          split
          · exact h.happen _ _
          · exact h.stepperTurn _
        · exact h.frame rfl rfl rfl

/-! ### Samples -/

/-- A bench on which no sampler is left. -/
theorem Definite.withoutSampler (h : w.Definite n) (k : Nat) :
    Definite k { w with sampler := none } := by
  refine ⟨h.drive, fun s hs => ?_, h.notes⟩
  cases hs

theorem Definite.answer (h : w.Definite n) :
    (∀ f, w.answer ≠ .error (.breach f)) ∧ ∀ x, w.answer = .ok x → x.2.length = n := by
  unfold Workbench.answer
  split
  · exact ⟨nofun, nofun⟩
  · rename_i s hs
    have hsampler := h.sampler s hs
    split
    · exact ⟨nofun, nofun⟩
    · rename_i f hf
      unfold Sampler.result? at hf
      split at hf <;> cases hf
      exact absurd ‹_› (hsampler.accepted f)
    · exact ⟨nofun, fun x hx => Except.ok.inj hx ▸ hsampler.length⟩

/-- **A sample that may begin is never refused**, and what it answers is as long as its buffer. -/
theorem Definite.sample (h : w.Definite n) (draining : Bool) {o : SampleOrder}
    {buffer : List Reading} {s : Sampler} (hs : Sampler.start o buffer = .ok s) (k : Nat) :
    (w.sample draining o buffer).1.Definite k ∧
      (∀ f, (w.sample draining o buffer).2 ≠ .error (.breach f)) ∧
      ∀ x, (w.sample draining o buffer).2 = .ok x → x.2.length = buffer.length := by
  have hstart : Definite buffer.length { w with sampler := some s } :=
    ⟨h.drive, fun _ he => Option.some.inj he ▸ Sampler.definite_of_start hs, h.notes⟩
  have hrun (m : Nat) := hstart.attend.runFor draining sampled none m
  unfold Workbench.sample
  rw [hs]
  exact ⟨(hrun _).withoutSampler k, (hrun _).answer⟩

end Workbench

end SwitchBench
