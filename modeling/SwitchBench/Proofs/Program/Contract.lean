import Mathlib
import SwitchBench.Program.Run
import SwitchBench.Proofs.Program.Courses
import SwitchBench.Proofs.Workbench.Definite

/-!
# Validated settings keep the contract

The settings of a run are validated once. Every part of the program checks again what it is given,
and takes a mistake there for a breach of the contract. The two were written apart from each other;
here they are shown to agree.

A bench on which nothing is left unfinished (`Workbench.Definite`) stays so through every sample of
a check and of a measurement, whatever its script, its edges and its messages do in between. For the
jobs of a run this is a triple (`keeping`): a job leaves its desk in order (`Desk.InOrder`), and if
it stops, it is not for a breach (`Stop.Expected`).

Results: `Workbench.Definite.check` and `Workbench.Definite.acquire` (series of samples on a bench),
`powered_spec` (the exercise with the drive powered on), `run_measure_of_oversized` (too many passes
are a failure of the exercise), `validated_run_keeps_contract` (no course of a run breaches
anything).
-/

namespace SwitchBench

open Std.Do

set_option mvcgen.warning false

variable {s : CheckSection} {setup : CaptureSetup} {passes : Nat}

/-! ## Series of samples on a bench -/

namespace Workbench

variable {w : Workbench}

/-- A sample that an exercise wants is not refused on any bench, and the exercise stays sound. -/
theorem Definite.exercise (h : w.Definite 0) (hv : Exercisable s setup passes) {x : Exercise}
    (hx : x.Sound s setup passes) {wanted : Wanted} (hw : x.wants? = some wanted)
    (draining : Bool) :
    (w.sample draining wanted.order (blanks wanted.length)).1.Definite 0 ∧
      (∀ f, (w.sample draining wanted.order (blanks wanted.length)).2 ≠ .error (.breach f)) ∧
      ∀ o readings, (w.sample draining wanted.order (blanks wanted.length)).2 = .ok (o, readings) →
        (x.told o readings).Sound s setup passes := by
  obtain ⟨_, hs⟩ := (Exercise.acceptable_of_wants hv hx hw).exists_start (blanks wanted.length)
  obtain ⟨hdefinite, hbreach, hlength⟩ := h.sample draining hs 0
  refine ⟨hdefinite, hbreach, fun o readings ho => hx.told hw o ?_⟩
  rw [hlength _ ho]
  exact List.length_replicate

theorem tellable_of_checkNote? {c d : Check} {x : BenchNote} (h : checkNote? c d = some x) :
    x.Tellable := by
  unfold checkNote? at h
  split at h <;> cases h <;> exact ⟨_, rfl⟩

theorem tellable_of_acquisitionNote? {a b : Acquisition} {x : BenchNote}
    (h : acquisitionNote? a b = some x) : x.Tellable := by
  unfold acquisitionNote? at h
  split at h <;> cases h
  exact ⟨_, rfl⟩

/-- The samples of a check, one after the other: each leaves the exercise sound. -/
theorem Definite.checkFor (h : w.Definite 0) (hv : Exercisable s setup passes) (draining : Bool)
    (n : Nat) {c : Check} (hc : (Exercise.checking c).Sound s setup passes) :
    (w.checkFor draining n c).1.Definite 0 ∧
      ∀ f, (w.checkFor draining n c).2 ≠ .error (.breach f) := by
  induction n generalizing w c with
  | zero => exact ⟨h, nofun⟩
  | succ n ih =>
    unfold Workbench.checkFor
    cases hw : c.wants? with
    | none => exact ⟨h, fun f hf => by cases hf⟩
    | some wanted =>
      obtain ⟨hdefinite, hbreach, hsound⟩ := h.exercise hv hc hw draining
      dsimp only
      split
      · rename_i e he
        rw [he] at hdefinite hbreach
        exact ⟨hdefinite, fun f hf => hbreach f (congrArg _ (Except.error.inj hf))⟩
      · rename_i o readings he
        rw [he] at hdefinite hsound
        exact ih (hdefinite.note fun _ hy => tellable_of_checkNote? hy) (hsound o readings rfl)

/-- **A check of a validated range is not refused**, on any bench. -/
theorem Definite.check (h : w.Definite 0) (hv : Exercisable s setup passes) (draining : Bool) :
    (w.check draining ⟨s.top, s.bottom, s.speed, passes, setup⟩).1.Definite 0 ∧
      ∀ f, (w.check draining ⟨s.top, s.bottom, s.speed, passes, setup⟩).2
        ≠ .error (.breach f) := by
  obtain ⟨c, hc⟩ := hv.exists_check
  have horder := Check.order_of_start hc
  simp only [Workbench.check, hc]
  refine h.checkFor hv draining _ ?_
  show Check.order _ = _
  split
  · exact horder
  · rw [Check.order_located, horder]

/-- The samples of an acquisition, one after the other: each leaves the exercise sound, and a pass
that was done can be told. -/
theorem Definite.acquireFor (h : w.Definite 0) (hv : Exercisable s setup passes) (draining : Bool)
    (afterPass : Nat → List Intervention) (n : Nat) {a : Acquisition} (ha : a.Covers s setup) :
    (w.acquireFor draining afterPass n a).1.Definite 0 ∧
      (w.acquireFor draining afterPass n a).2.1.Covers s setup ∧
      ∀ f, (w.acquireFor draining afterPass n a).2.2.2 ≠ some (.breach f) := by
  induction n generalizing w a with
  | zero => exact ⟨h, ha, nofun⟩
  | succ n ih =>
    unfold Workbench.acquireFor
    cases hw : a.wants? with
    | none => exact ⟨h, ha, nofun⟩
    | some wanted =>
      obtain ⟨hdefinite, hbreach, hsound⟩ :=
        h.exercise hv (x := .measuring a) ha hw draining
      dsimp only
      split
      · rename_i e he
        rw [he] at hdefinite hbreach
        exact ⟨hdefinite, ha, fun f hf => hbreach f (congrArg _ (Option.some.inj hf))⟩
      · rename_i o readings he
        rw [he] at hdefinite hsound
        have htold : (a.told o readings).Covers s setup := hsound o readings rfl
        split
        · rename_i hpass
          obtain ⟨_, hstores⟩ := htold.stores
          have hnote := hdefinite.note (x := some (.passAcquired (a.told o readings).measurement))
            fun y hy => Option.some.inj hy ▸
              hstores.exists_passEntries (Acquisition.passes_pos_of_endsPass hpass readings)
          exact ih (hnote.interveneAll _) htold
        · exact ih (hdefinite.note fun _ hy => tellable_of_acquisitionNote? hy) htold

/-- **A measurement of a validated range is not refused**, on any bench. -/
theorem Definite.acquire (h : w.Definite 0) (hv : Exercisable s setup passes) (draining : Bool)
    (afterPass : Nat → List Intervention) {evenDown : Bool} {m : Measurement}
    (hm : Measurement.ofRange s.top s.bottom s.speed passes setup evenDown = .ok m) :
    (w.acquire draining afterPass m).1.Definite 0 ∧
      ∀ f, (w.acquire draining afterPass m).2.2.result ≠ .error (.breach f) := by
  have ha : Acquisition.start m = .ok ⟨m, .approaching⟩ := by
    obtain ⟨rfl, -⟩ := Measurement.stores_ofRange hm
    rfl
  obtain ⟨hdefinite, hcovers, hbreach⟩ := h.acquireFor hv draining afterPass
    (Acquisition.samplesMax ⟨m, .approaching⟩) (Exercise.covers_of_start hm ha)
  simp only [Workbench.acquire, ha]
  refine ⟨hdefinite, fun f hf => ?_⟩
  split at hf <;> cases hf
  · exact hbreach f ‹_›
  · exact hcovers.not_refused f ‹_›

end Workbench

/-! ## Jobs -/

namespace Program

/-- Nothing is left unfinished on the bench of a desk. -/
def Desk.InOrder (d : Desk) : Prop := d.bench.Definite 0

/-- How a run over a validated range may stop: it would wait forever, the power went off before the
measurement, or the passes are too many to be kept. -/
def Stop.Expected (setup : CaptureSetup) (passes : Nat) (e : Stop) : Prop :=
  e = .refused .endless ∨ e = .failed .poweredOff ∨ e = .failed (.tooManyPasses passes) ∧
    ∃ evenDown, Limits.readingsMax < setup.readingsBefore evenDown passes

theorem Stop.Expected.ne_breach {e : Stop} (h : e.Expected setup passes) (f : Fault) :
    e ≠ .refused (.breach f) := by
  rintro rfl
  rcases h with h | h | ⟨h, -⟩ <;> cases h

/-- A job leaves its desk in order, also if it stops, and then it stops as it may. -/
abbrev keeping {α : Type} (E : Stop → Prop) : PostCond α (.except Stop (.arg Desk .pure)) :=
  post⟨fun _ d => ⌜d.InOrder⌝, fun e d => ⌜E e ∧ d.InOrder⌝⟩

/-- What is kept by a job holds of its runs. -/
theorem run_of_keeping {α : Type} {E : Stop → Prop} {j : Job α}
    (h : ⦃fun d => ⌜d.InOrder⌝⦄ j ⦃keeping E⦄) {d : Desk} (hd : d.InOrder) :
    match j.run d with
    | (.ok _, d') => d'.InOrder
    | (.error e, d') => E e ∧ d'.InOrder := by
  have hpost := h d hd
  simp only [wp, PredTrans.apply_pushExcept, PredTrans.apply_pushArg,
    PredTrans.apply_Pure_pure] at hpost
  revert hpost
  change _ → match (StateT.run j.run d).run with
    | (.ok _, d') => d'.InOrder
    | (.error e, d') => E e ∧ d'.InOrder
  rcases (StateT.run j.run d).run with ⟨_ | _, d'⟩ <;> exact id

namespace Job

/-- Making entries does not touch the bench. -/
@[spec]
theorem tell_spec (l : List Entry) : ⦃fun d => ⌜d.InOrder⌝⦄ tell l ⦃⇓ _ d => ⌜d.InOrder⌝⦄ := by
  mvcgen [tell]

/-- What is not refused goes on. -/
@[spec]
theorem ofFault_spec {α : Type} {x : Except Fault α} (h : ∃ a, x = .ok a) :
    ⦃fun d => ⌜d.InOrder⌝⦄ ofFault x ⦃⇓ a d => ⌜x = .ok a ∧ d.InOrder⌝⦄ := by
  obtain ⟨a, rfl⟩ := h
  mvcgen [ofFault]

/-- Notes that can be told are told. -/
theorem tellOf_spec (l : List BenchNote) (hl : ∀ x ∈ l, x.Tellable) :
    ⦃fun d => ⌜d.InOrder⌝⦄ tellOf l ⦃⇓ _ d => ⌜d.InOrder⌝⦄ := by
  induction l with
  | nil => mvcgen [tellOf]
  | cons x l ih =>
    have hx := hl x List.mem_cons_self
    have hrest := ih fun y hy => hl y (List.mem_cons_of_mem _ hy)
    mvcgen [tellOf, hrest]
    rename_i h
    exact h.2

@[spec]
theorem tellNotes_spec : ⦃fun d => ⌜d.InOrder⌝⦄ tellNotes ⦃⇓ _ d => ⌜d.InOrder⌝⦄ := by
  mvcgen [tellNotes, tellOf_spec]
  · rename_i d hd notes _
    exact fun x hx => hd.notes x (List.mem_reverse.mp hx)
  · rename_i d hd _ _
    exact ⟨hd.drive, hd.sampler, nofun⟩

/-- An operation that leaves nothing unfinished and breaches nothing on any bench. -/
theorem onBench_spec (setup : CaptureSetup) (passes : Nat) {α : Type}
    {f : Workbench → Workbench × Except Refusal α}
    (hf : ∀ w, w.Definite 0 → (f w).1.Definite 0 ∧ ∀ b, (f w).2 ≠ .error (.breach b)) :
    ⦃fun d => ⌜d.InOrder⌝⦄ onBench f ⦃keeping (Stop.Expected setup passes)⦄ := by
  mvcgen [onBench]
  · rename_i d hd _
    exact (hf _ hd).1
  · rename_i d hd _ _ e he _ hd'
    cases e with
    | breach b => exact absurd he ((hf _ hd).2 b)
    | endless => exact ⟨.inl rfl, hd'⟩

@[spec]
theorem switchPower_spec (on : Bool) :
    ⦃fun d => ⌜d.InOrder⌝⦄ switchPower on ⦃⇓ _ d => ⌜d.InOrder⌝⦄ := by
  have hpower (d : Desk) (hd : d.InOrder) : (d.bench.withDrive (if on = true
      then d.bench.rig.drive.powerOn else d.bench.rig.drive.powerOff).1).Definite 0 := by
    refine hd.withDrive ?_
    split
    · exact hd.drive.powerOn
    · exact hd.drive.powerOff
  mvcgen [switchPower]
  · exact hpower _ ‹_›
  · exact hpower _ ‹_›

end Job

/-- **The check breaches nothing.** -/
theorem check_spec (hv : Exercisable s setup passes) :
    ⦃fun d => ⌜d.InOrder⌝⦄ check s setup passes ⦃keeping (Stop.Expected setup passes)⦄ := by
  have hcheck := Job.onBench_spec setup passes fun w hw => hw.check hv false
  mvcgen [check, hcheck]
  exact ⟨.inl rfl, ‹_›⟩

theorem map_ne_breach {α β : Type} {r : Except Refusal α} (g : α → β)
    (h : ∀ f, r ≠ .error (.breach f)) (f : Fault) : r.map g ≠ .error (.breach f) := by
  cases r with
  | ok a => nofun
  | error e =>
    intro hf
    exact h f (congrArg _ (Except.error.inj hf))

/-- **The measurement breaches nothing.** If the passes do not fit it fails before one is built. -/
theorem measure_spec (hv : Exercisable s setup passes) :
    ⦃fun d => ⌜d.InOrder⌝⦄ measure s setup passes ⦃keeping (Stop.Expected setup passes)⦄ := by
  have hacquire {evenDown : Bool} {m : Measurement}
      (hm : Measurement.ofRange s.top s.bottom s.speed passes setup evenDown = .ok m)
      (w : Workbench) (hw : w.Definite 0) :
      (w.acquire false (fun _ => []) m).1.Definite 0 ∧ ∀ f,
        (w.acquire false (fun _ => []) m).2.2.result.map
          ((w.acquire false (fun _ => []) m).2.1, ·) ≠ .error (.breach f) := by
    obtain ⟨hdefinite, hbreach⟩ := hw.acquire hv false (fun _ => []) hm
    exact ⟨hdefinite, map_ne_breach _ hbreach⟩
  have honBench {α : Type} {f : Workbench → Workbench × Except Refusal α} :=
    Job.onBench_spec setup passes (f := f)
  mvcgen [measure, Job.fail, honBench]
  -- the power went off
  · exact ⟨.inr (.inl rfl), ‹_›⟩
  -- whether the passes fit, and the failure if they do not
  · exact ⟨_, setup.fits_of_lt _ hv.passes⟩
  · rename_i evenDown fits _ hfits _ h
    refine ⟨.inr (.inr ⟨rfl, evenDown, ?_⟩), h.2⟩
    rw [setup.fits_of_lt _ hv.passes, Except.ok.injEq] at h
    rw [← h.1, decide_eq_true_eq] at hfits
    exact Nat.not_le.mp hfits
  -- the measurement is built
  · rename_i hfits _ h
    rw [Decidable.not_not] at hfits
    obtain ⟨m, -, -, hm, -⟩ := hv.exists_measurement (hfits ▸ h.1)
    exact ⟨m, hm⟩
  · exact And.right ‹_›
  -- whether it captures anything
  · rename_i hm
    obtain ⟨-, -, -, hstores⟩ := Measurement.stores_ofRange hm.1
    exact ⟨_, hstores.isNull_eq⟩
  · exact And.right ‹_›
  · exact And.right ‹_›
  -- it is acquired, with a warning before or without
  · exact hacquire (And.left ‹_›)
  · exact hacquire (And.left ‹_›)
  · exact And.right ‹_›

/-- **The check and the measurement breach nothing**, one after the other. -/
theorem exercise_spec (hv : Exercisable s setup passes) :
    ⦃fun d => ⌜d.InOrder⌝⦄ exercise s setup passes ⦃keeping (Stop.Expected setup passes)⦄ := by
  have hcheck := check_spec hv
  have hmeasure := measure_spec hv
  mvcgen [exercise, hcheck, hmeasure]
  exact id

/-- **The exercise between powering on and off breaches nothing**, also if it fails. -/
theorem powered_spec (hv : Exercisable s setup passes) :
    ⦃fun d => ⌜d.InOrder⌝⦄ powered s setup passes ⦃keeping (Stop.Expected setup passes)⦄ := by
  have h := exercise_spec hv
  mvcgen [powered, Job.fail, h]
  · exact And.right ‹_›
  · rename_i hfailed _ _ _ _ _ _ hd
    exact ⟨hfailed.1, hd⟩

/-! ## Too many passes -/

namespace Job

variable {α β : Type}

theorem run_bind (j : Job α) (k : α → Job β) (d : Desk) :
    (j >>= k).run d = match j.run d with
      | (.ok a, d') => (k a).run d'
      | (.error e, d') => (.error e, d') := by
  rw [ExceptT.run_bind]
  show StateT.bind j.run _ d = _
  unfold StateT.bind
  show (match j.run d with | (r, d') => _) = _
  rcases j.run d with ⟨_ | _, d'⟩ <;> rfl

theorem run_tryCatch (j : Job α) (k : Stop → Job α) (d : Desk) :
    (tryCatch j k).run d = match j.run d with
      | (.ok a, d') => (.ok a, d')
      | (.error e, d') => (k e).run d' := by
  rw [ExceptT.run_tryCatch]
  show StateT.bind j.run _ d = _
  unfold StateT.bind
  show (match j.run d with | (r, d') => _) = _
  rcases j.run d with ⟨_ | _, d'⟩ <;> rfl

/-- Power is always switched. -/
theorem fst_run_switchPower (on : Bool) (d : Desk) : ((switchPower on).run d).1 = .ok () := by
  unfold switchPower
  rw [run_bind]
  change (((modify _ : Job Unit) >>= _ : Job Unit).run d).1 = .ok ()
  rw [run_bind]
  change ((if _ then tell _ else pure () : Job Unit).run _).1 = .ok ()
  split
  · rfl
  · rfl

end Job

/-- With too many passes a measurement is not even built. -/
theorem run_measure_of_oversized {d : Desk} (hp : passes < 2 ^ 61)
    (hposition : Position.Valid d.bench.rig.drive.locate)
    (hsize : Limits.readingsMax
      < setup.readingsBefore (beginsDown d.bench.rig.drive.locate s.top s.bottom) passes) :
    (measure s setup passes).run d = (.error (.failed (.tooManyPasses passes)), d) := by
  have hfits : setup.fits (beginsDown d.bench.rig.drive.locate s.top s.bottom) passes
      = .ok false := by
    rw [setup.fits_of_lt _ hp, decide_eq_false (Nat.not_le.mpr hsize)]
  unfold measure
  rw [Job.run_bind]
  change (if ¬ Position.Valid d.bench.rig.drive.locate then _ else _ : Job Unit).run d = _
  rw [if_neg (not_not_intro hposition)]
  change (Job.ofFault (setup.fits (beginsDown d.bench.rig.drive.locate s.top s.bottom) passes)
    >>= _ : Job Unit).run d = _
  rw [Job.run_bind, hfits]
  rfl

/-- After a check that came to its end, the exercise ends as the measurement does. -/
theorem run_exercise_of_checked {d d' : Desk}
    (h : (check s setup passes).run d = (.ok .ok, d')) :
    (exercise s setup passes).run d = (measure s setup passes).run d' := by
  unfold exercise
  rw [Job.run_bind, h]
  rfl

/-- A failure of the exercise is passed on once the drive is off. -/
theorem fst_run_powered_of_failed {d d' : Desk} {f : Failure}
    (h : (exercise s setup passes).run ((Job.switchPower true).run d).2
      = (.error (.failed f), d')) :
    ((powered s setup passes).run d).1 = .error (.failed f) := by
  have hon := Job.fst_run_switchPower true d
  have hoff := Job.fst_run_switchPower false d'
  unfold powered
  rw [Job.run_bind]
  generalize (Job.switchPower true).run d = x at h hon
  obtain ⟨_, d₁⟩ := x
  subst hon
  dsimp only at h ⊢
  rw [Job.run_bind, Job.run_tryCatch, Job.run_bind, h]
  change ((Job.switchPower false >>= _ : Job Unit).run d').1 = _
  rw [Job.run_bind]
  generalize (Job.switchPower false).run d' = x at hoff
  obtain ⟨_, d₂⟩ := x
  subst hoff
  rfl

end Program

/-! ## Validated settings -/

/-- The sections of validated settings are valid. -/
theorem Settings.of_validate {s : Settings} (h : s.validate = .ok ()) :
    s.periods.validate = .ok () ∧ s.check.validate = .ok () ∧ s.simulation.validate = .ok () := by
  simp only [Settings.validate, bind, Except.bind] at h
  split at h
  · cases h
  split at h
  · cases h
  rename_i hperiods
  split at h
  · cases h
  split at h
  · cases h
  rename_i hcheck
  exact ⟨hperiods, hcheck, h⟩

/-- The setup that a section makes has a window that fits. -/
theorem CaptureSection.valid_of_setup {c : CaptureSection} (h : c.setup = .ok setup) :
    setup.Valid := by
  simp only [CaptureSection.setup, CaptureSetup.validate] at h
  split at h
  · cases h
  split at h
  · cases h
    assumption
  · cases h

/-- What validated settings leave to insist on. -/
theorem exercisable_of_validate {s : Settings} (h : s.validate = .ok ())
    (hs : s.capture.setup = .ok setup) (hc : setup.channelCount .both ≠ 0)
    (hp : passes < 2 ^ 61) : Exercisable s.check setup passes := by
  have hcheck := (Settings.of_validate h).2.1
  unfold CheckSection.validate at hcheck
  split at hcheck
  · cases hcheck
  rename_i hrange
  rw [Decidable.not_not] at hrange
  split at hcheck
  · rename_i horder
    exact ⟨hrange.1, hrange.2, horder, CaptureSection.valid_of_setup hs, hc, hp⟩
  · cases hcheck

/-- A rig that is at hand from the start, with nothing noted, leaves nothing unfinished. -/
theorem Workbench.definite_of_ofPeriods {w : Workbench} {p : StepPeriods} {rate : Nat}
    (hr : Rig.ofPeriods p rate = .ok w.rig) (hs : w.sampler = none) (hn : w.notes = []) :
    w.Definite 0 := by
  refine ⟨?_, fun s h => ?_, fun x hx => ?_⟩
  · unfold Rig.ofPeriods at hr
    cases hd : Drive.ofPeriods p rate with
    | error e =>
      rw [hd] at hr
      cases hr
    | ok d =>
      rw [hd] at hr
      have hrig : _ = w.rig := Except.ok.inj hr
      rw [← hrig]
      exact Drive.definite_of_ofPeriods hd
  · rw [hs] at h
    cases h
  · rw [hn] at hx
    cases hx

namespace Program

/-- The bench of validated settings is built. -/
theorem exists_bench {s : Settings} (h : s.validate = .ok ()) (messages : List (Nat × Message)) :
    ∃ w, bench s messages = .ok w ∧
      CycleClock.ofRate s.simulation.cyclesPerUs s.simulation.clockOffset = .ok w.clock ∧
      Rig.ofPeriods s.periods s.simulation.cyclesPerUs = .ok w.rig ∧
      w.sampler = none ∧ w.notes = [] := by
  obtain ⟨hperiods, -, hsimulation⟩ := Settings.of_validate h
  have hrate : s.simulation.cyclesPerUs ≠ 0 := by
    intro h0
    rw [SimulationSettings.validate, if_pos h0] at hsimulation
    cases hsimulation
  obtain ⟨rig, hrig⟩ : ∃ rig, Rig.ofPeriods s.periods s.simulation.cyclesPerUs = .ok rig := by
    rw [Rig.ofPeriods, Drive.ofPeriods, hperiods]
    exact ⟨_, rfl⟩
  simp only [bench, hsimulation, hrig, bind, Except.bind]
  exact ⟨_, rfl, if_neg hrate, rfl, rfl, rfl⟩

/-- On a bench with nothing unfinished the exercise stops as it may. -/
theorem expected_of_run_powered (hv : Exercisable s setup passes) {w : Workbench}
    (hw : w.Definite 0) {entries : List Entry} {e : Stop}
    (he : ((powered s setup passes).run ⟨w, entries⟩).1 = .error e) :
    e.Expected setup passes := by
  have hrun := run_of_keeping (powered_spec hv) (d := ⟨w, entries⟩) hw
  generalize (powered s setup passes).run ⟨w, entries⟩ = x at hrun he
  obtain ⟨_, d⟩ := x
  subst he
  exact hrun.1

theorem stop_ofJob (entries : List Entry) (w : Workbench) (job : Job Unit) (e : Stop) :
    (Course.ofJob entries w job).stop = some e ↔ (job.run ⟨w, entries⟩).1 = .error e := by
  unfold Course.ofJob
  rcases job.run ⟨w, entries⟩ with ⟨_ | _, d⟩
  · simp
  · simp

/-- **Validated settings never breach the contract.** Let the settings be valid, and capture
something in at least one direction; let the passes be fewer than `2 ^ 61`. Then the bench and the
rig are built, and the pace is told for every speed. However the samples of the exercise come out,
no part of it objects to what it is given, and no pass is without room or without a reading. The
exercise on such a rig stops for no breach on any bench, whatever lies under the drive, whatever
edges and messages are to come and whatever the script does; it stops only if the power is off
before the measurement, if the passes are too many, or if it would wait forever. If they are too
many, it fails after the check and says so, and is not refused for want of room. And all of this
holds of the whole run. -/
theorem validated_run_keeps_contract {s : Settings} {setup : CaptureSetup} {passes : Nat}
    (hv : s.validate = .ok ()) (hs : s.capture.setup = .ok setup)
    (hc : setup.channelCount .both ≠ 0) (hp : passes < 2 ^ 61) :
    -- the bench and the rig are built, and the pace can be told for every speed
    ((∀ messages, ∃ w, bench s messages = .ok w ∧
        CycleClock.ofRate s.simulation.cyclesPerUs s.simulation.clockOffset = .ok w.clock ∧
        Rig.ofPeriods s.periods s.simulation.cyclesPerUs = .ok w.rig) ∧
      ∀ v, (∃ us, s.periods.periodUs v = .ok us) ∧ ∃ us, s.periods.turnaroundUs v = .ok us) ∧
    -- every course of the exercise, whoever else acts on the rig
    ((∃ c, Check.start ⟨s.check.top, s.check.bottom, s.check.speed, passes, setup⟩ = .ok c) ∧
      ∀ x, Exercise.Courses s.periods s.simulation.cyclesPerUs s.check setup passes x →
        x.KeepsContract s.periods s.simulation.cyclesPerUs s.check setup passes) ∧
    -- the exercise with such a rig, on any bench
    (∀ w entries, Rig.ofPeriods s.periods s.simulation.cyclesPerUs = .ok w.rig →
      w.sampler = none → w.notes = [] →
      (∀ f, ((powered s.check setup passes).run ⟨w, entries⟩).1 ≠ .error (.refused (.breach f))) ∧
        ∀ e, ((powered s.check setup passes).run ⟨w, entries⟩).1 = .error e →
          e.Expected setup passes) ∧
    -- too many passes
    (∀ d d', (check s.check setup passes).run ((Job.switchPower true).run d).2 = (.ok .ok, d') →
      Position.Valid d'.bench.rig.drive.locate →
      Limits.readingsMax < setup.readingsBefore
        (beginsDown d'.bench.rig.drive.locate s.check.top s.check.bottom) passes →
      (exercise s.check setup passes).run ((Job.switchPower true).run d).2
          = (.error (.failed (.tooManyPasses passes)), d') ∧
        ((powered s.check setup passes).run d).1 = .error (.failed (.tooManyPasses passes))) ∧
    -- the whole run
    ∀ override messages, override.getD s.check.passes = passes →
      (∀ f, (run s override messages).stop ≠ some (.refused (.breach f))) ∧
        ∀ e, (run s override messages).stop = some e → e.Expected setup passes := by
  have hexercise := exercisable_of_validate hv hs hc hp
  have hperiods := StepPeriods.validate_eq_ok_iff.mp (Settings.of_validate hv).1
  refine ⟨⟨fun messages => ?_, fun v => ?_⟩, ⟨hexercise.exists_check, fun x hx => ?_⟩,
    fun w entries hr hsampler hnotes => ?_, fun d d' hcheck hposition hsize => ?_,
    fun override messages hpasses => ?_⟩
  · obtain ⟨w, hw, hclock, hrig, -, -⟩ := exists_bench hv messages
    exact ⟨w, hw, hclock, hrig⟩
  · exact ⟨⟨_, StepPeriods.periodUs_of_valid hperiods v⟩,
      _, StepPeriods.turnaroundUs_of_valid hperiods v⟩
  · exact Exercise.keepsContract_of_courses hexercise hx
  · have hstop {e : Stop} (he : ((powered s.check setup passes).run ⟨w, entries⟩).1 = .error e) :=
      expected_of_run_powered hexercise (Workbench.definite_of_ofPeriods hr hsampler hnotes) he
    exact ⟨fun f hf => (hstop hf).ne_breach f rfl, fun e he => hstop he⟩
  · have hrun : (exercise s.check setup passes).run ((Job.switchPower true).run d).2
        = (.error (.failed (.tooManyPasses passes)), d') := by
      rw [run_exercise_of_checked hcheck, run_measure_of_oversized hp hposition hsize]
    exact ⟨hrun, fst_run_powered_of_failed hrun⟩
  · obtain ⟨w, hw, -, hrig, hsampler, hnotes⟩ := exists_bench hv messages
    have hstop {e : Stop} (he : (run s override messages).stop = some e) :
        e.Expected setup passes := by
      simp only [run, hv, hs, if_neg hc, course, hw, hpasses, stop_ofJob] at he
      exact expected_of_run_powered hexercise
        (Workbench.definite_of_ofPeriods hrig hsampler hnotes) he
    exact ⟨fun f hf => (hstop hf).ne_breach f rfl, fun e he => hstop he⟩

/-- Both channels in both directions, in the shortest window. -/
def widest : CaptureSetup where
  channels := ⟨⟨.both, .rising, "a"⟩, ⟨.both, .falling, "b"⟩⟩
  timeoutUs := Limits.tickUs
  bounceUs := 0

/-- The shortest range, with all that can be captured. -/
def shortest : Settings where
  shared := ⟨.info, name⟩
  periods := .standard
  capture := ⟨widest.timeoutUs, widest.bounceUs, [widest.channels.ch0, widest.channels.ch1]⟩
  check := ⟨0, 1, .fastest, 1⟩
  simulation := .standard

theorem validated_run_keeps_contract_shortest :
    shortest.validate = .ok () ∧ shortest.capture.setup = .ok widest ∧
      widest.channelCount .both ≠ 0 ∧ (∀ evenDown, widest.fits evenDown 513 = .ok false) ∧
      (∃ x w, Exercise.Courses shortest.periods 1 shortest.check widest 513 x ∧
        x.wants? = some w ∧ w.KeepsContract shortest.periods 1) ∧
      ∀ messages f, (run shortest (some 513) messages).stop ≠ some (.refused (.breach f)) := by
  have hchannels : widest.channelCount .both ≠ 0 := by decide
  have hpasses : 513 < 2 ^ 61 := by decide
  obtain ⟨-, ⟨-, hcourses⟩, -, -, hrun⟩ :=
    validated_run_keeps_contract (s := shortest) rfl rfl hchannels hpasses
  have hstart : Exercise.Courses shortest.periods 1 shortest.check widest 513
      (.checking (Check.located ⟨⟨0, 1, .fastest, 513, widest⟩, .locating, false, 0, 0, 0⟩ 0)) :=
    .start (c := ⟨⟨0, 1, .fastest, 513, widest⟩, .locating, false, 0, 0, 0⟩) 0 rfl
  exact ⟨rfl, rfl, hchannels, by decide,
    ⟨_, _, hstart, rfl, (hcourses _ hstart).sample _ rfl⟩,
    fun messages f => (hrun (some 513) messages rfl).1 f⟩

/-- A run over it comes to its end. -/
example : (run shortest none []).stop = none := by decide +kernel

end Program

end SwitchBench
