import SwitchBench.Proofs.Sampling.Course

/-!
# The first step triggers the window

If a sample ends well then its first step started the window of its capture, at its instant, and
none of the others did anything to it, and the plunger is where it was to go.

Edges that come when the window is over may still be latched, as long as the handler has not ended
it. So a channel reads what the formula says exactly if they make no difference to it. Where they
do, a sample that ends well holds a reading that the formula does not give.

Left out: switching the power, which leaves no sample to end well at its target (`Unswitched`).

Results: `Performing.act` (one action keeps what holds of such a sample),
`ok_sample_reads_reference_iff`, `exists_ok_sample_reading_late`.
-/

namespace SwitchBench

open Drive (MoveStage MoveEvent)

namespace Crew

variable {g : MoveStage} {c c' c₀ : Crew} {a : Action} {t : Trace}

/-! ## A sample that ends well -/

/-- A sample that ends well has good ends of its move and of its capture. -/
theorem Sound.ends_of_step (h : Sound g c) (hh : Headed g c.rig.drive c.sampler) {r : Rig}
    {s : Sampler} {note : Option SampleNote}
    (hs : c.sampler.step c.now c.rig = some (r, s, note)) (hp : s.phase = .finished .ok) :
    s.moveEnd = some .ok ∧ s.captureEnd = some .ok := by
  rcases @Sound.ended_of_step g [] c h r s note hs .ok hp with
    ⟨-, -, x, hx, -, hlocating, -⟩ | ⟨m, k, hm, hk, hc⟩
  · rw [List.mem_singleton.mp hx] at hlocating
    exact absurd hp (hh.not_ok_of_locating hlocating hs)
  · obtain ⟨rfl, rfl⟩ := Sampler.eq_ok_of_conclude hc
    exact ⟨hm, hk⟩

/-- What holds of a sample that was entered with its rig at rest, the power on and the plunger
elsewhere than at its target, as long as nobody switches the power. -/
structure Performing (c₀ : Crew) (g : MoveStage) (t : Trace) (c : Crew) : Prop where
  sound : Sound g c
  tidy : Tidy g c
  headed : Headed g c.rig.drive c.sampler
  order : c.sampler.order = c₀.sampler.order
  valid : c.sampler.order.setup.Valid
  past : Past t c
  course : Course c₀.sampler.buffer.length t c
  landed : g = .settled .ok ∨ c.sampler.moveEnd = some .ok →
    ∃ x ∈ t, Lands c.sampler.order.target x
  ended : c.sampler.phase = .finished .ok →
    c.sampler.moveEnd = some .ok ∧ c.sampler.captureEnd = some .ok

/-- **One action of anybody keeps what holds of a sample**, unless it switches the power. -/
theorem Performing.act (h : Performing c₀ g t c) (ha : c.act? a = some c')
    (hsw : a.isSwitch = false) : Performing c₀ (g.after (c.event? a)) ((c, a) :: t) c' := by
  have horder : c'.sampler.order = c.sampler.order := by
    by_cases hne : a = .sampler
    · subst hne
      obtain ⟨r, s, note, hs, rfl⟩ := step_of_act ha
      exact (Sampler.turn_of_step hs).order
    · rw [(h.sound.frame ha hne).1]
  refine ⟨h.sound.act ha, h.tidy.act h.sound ha, h.headed.act h.sound h.tidy ha hsw,
    horder.trans h.order, horder ▸ h.valid, h.past.act h.sound ha,
    h.course.act h.sound h.tidy h.headed h.valid h.past ha hsw, fun hend => ?_, fun hp => ?_⟩
  · have hbefore : (g = .settled .ok ∨ c.sampler.moveEnd = some .ok) ∨
        Lands c.sampler.order.target (c, a) := by
      rcases hend with hend | hend
      · exact (h.headed.lands h.sound ha hend).imp .inl id
      · exact .inl ((h.sound.settled_of_moveEnd ha hend).symm)
    rw [horder]
    rcases hbefore with hbefore | hlands
    · obtain ⟨x, hx, hlands⟩ := h.landed hbefore
      exact ⟨x, List.mem_cons_of_mem _ hx, hlands⟩
    · exact ⟨_, List.mem_cons_self, hlands⟩
  · by_cases hne : a = .sampler
    · subst hne
      obtain ⟨r, s, note, hs, rfl⟩ := step_of_act ha
      exact h.sound.ends_of_step h.headed hs hp
    · rw [(h.sound.frame ha hne).1] at hp ⊢
      exact h.ended hp

/-- A sample that is entered away from its target, with the power on, has done nothing yet. -/
theorem performing_of_start {o : SampleOrder} {buffer : List Reading} (h : Sound g c)
    (hq : Tidy g c) (hs : Sampler.start o buffer = .ok c.sampler)
    (hon : c.rig.drive.axis.isOff = false)
    (haway : c.sampler.order.target ≠ c.rig.drive.axis.position) : Performing c g [] c := by
  have hstart := sampler_of_start hs
  have hidle : g = .idle := h.idle hq (.inl (by rw [hstart]; rfl))
  have hvalid : o.setup.Valid := by
    unfold Sampler.start at hs
    split_ifs at hs with h1 h2
    exact h2
  have hpermits := hq.permits
  simp only [Sampler.LeavesPermits, hstart] at hpermits
  refine ⟨h, hq, ⟨bound_of_start h hq hs hon, fun _ => haway⟩, rfl, ?_, past_nil c,
    .fresh ?_ ?_ rfl (h.recorder.atRest hpermits.2).1.disarmed (List.forall_mem_nil _), ?_, ?_⟩
  · rw [hstart]
    exact hvalid
  · rw [hstart]
    rfl
  · rw [hstart]
  · rw [hidle, hstart]
    rintro (h0 | h0) <;> cases h0
  · rw [hstart]
    exact fun h0 => by cases h0

variable {p : StepPeriods} {rate : Nat}

/-- **What holds of every sample** that was entered away from its target, with the power on. -/
theorem performing_of_serves (h : Serves p rate c₀ t c) (hon : c₀.rig.drive.axis.isOff = false)
    (haway : c₀.sampler.order.target ≠ c₀.rig.drive.axis.position) (ht : Unswitched t) :
    ∃ g, Performing c₀ g t c := by
  have hstart {c : Crew} {o : SampleOrder} {buffer : List Reading} (h : Serves p rate c [] c)
      (hs : Sampler.start o buffer = .ok c.sampler) (hon : c.rig.drive.axis.isOff = false)
      (haway : c.sampler.order.target ≠ c.rig.drive.axis.position) :
      ∃ g, Performing c g [] c := by
    obtain ⟨g, hg⟩ := atWork_of_serves h
    exact ⟨g, performing_of_start hg.sound hg.tidy hs hon haway⟩
  induction h with
  | start hd hr ho hrest hs => exact hstart (.start hd hr ho hrest hs) hs hon haway
  | next h hx hs => exact hstart (.next h hx hs) hs hon haway
  | act _ ha ih =>
    obtain ⟨g, hg⟩ := ih hon haway fun e he => ht e (List.mem_cons_of_mem _ he)
    exact ⟨_, hg.act ha (ht _ List.mem_cons_self)⟩

/-- **A sample that ends well has landed, and reads what the formula says unless late edges count.**
It was entered with its rig at rest, the power on and the plunger elsewhere, and nobody switches the
power; all others, the timer and its handler act in any order. Then the move has landed at its
target, and the plunger is there. The first step came after the capture was armed and started its
window, no other step started one, and the handler ended it.

Each watched channel reads what the formula gives for all its edges since that step exactly if those
that came until the handler ended the window are none, one, or more, as those in the window are. One
with an edge in the window reads its time in any case, so that late edges can only make an
overcapture of it, or a reading where there is none to be. If no two edges come at one instant, the
formula is that of a capture alone. -/
theorem ok_sample_reads_reference_iff (h : Serves p rate c₀ t c)
    (hon : c₀.rig.drive.axis.isOff = false)
    (haway : c₀.sampler.order.target ≠ c₀.rig.drive.axis.position) (ht : Unswitched t)
    (ho : c.sampler.result? = some (.ok .ok)) :
    c.sampler.moveEnd = some .ok ∧ (∃ x ∈ t, Lands c₀.sampler.order.target x) ∧
    c.rig.drive.locate = c₀.sampler.order.target ∧
    ∃ earlier e during w after, t = after ++ w :: (during ++ e :: earlier) ∧
      Windowed earlier e during w after ∧
      ∃ read : Channel → Reading,
        c.sampler.buffer = Recorder.fill c₀.sampler.buffer.length
          ((c₀.sampler.order.setup.watched c₀.sampler.order.directions).map read) ∧
        ∀ ch, c₀.sampler.order.setup.enables ch c₀.sampler.order.directions = true →
          (read ch = c₀.sampler.order.setup.reference c₀.sampler.order.directions e.1.now
              (arrivals during ++ arrivals after) ch ↔
            min 2 (c₀.sampler.order.setup.hits (arrivals during) ch).length =
              min 2 (c₀.sampler.order.setup.hits
                (c₀.sampler.order.setup.taken c₀.sampler.order.directions e.1.now
                  (arrivals during ++ arrivals after)) ch).length) ∧
          (c₀.sampler.order.setup.hits
              (c₀.sampler.order.setup.taken c₀.sampler.order.directions e.1.now
                (arrivals during ++ arrivals after)) ch ≠ [] →
            (read ch).valueUs = (c₀.sampler.order.setup.reference c₀.sampler.order.directions
              e.1.now (arrivals during ++ arrivals after) ch).valueUs) ∧
          ((arrivals during ++ arrivals after).Pairwise (·.1 < ·.1) →
            c₀.sampler.order.setup.expectedReading c₀.sampler.order.directions e.1.now
                (arrivals during ++ arrivals after) ch =
              c₀.sampler.order.setup.reference c₀.sampler.order.directions e.1.now
                (arrivals during ++ arrivals after) ch) := by
  obtain ⟨g, hg⟩ := performing_of_serves h hon haway ht
  have hp := Sampler.phase_of_result? ho
  obtain ⟨hm, hk⟩ := hg.ended hp
  have hlocate : c.rig.drive.locate = c₀.sampler.order.target := by
    rw [hg.headed.locate_eq, ← hg.order]
    exact hg.headed.collected hm
  refine ⟨hm, by rw [← hg.order]; exact hg.landed (.inr hm), hlocate, ?_⟩
  have hnot_armed : c.rig.recorder.timer.armed ≠ true := by
    intro ha
    obtain ⟨-, -, hnone⟩ := hg.sound.underWay_of_armed hg.tidy ha
    exact absurd (hnone.symm.trans hk) (by simp)
  have hpast := hg.past
  cases hg.course with
  | fresh hf =>
    rw [hp] at hf
    cases hf
  | armed hr =>
    refine absurd ?_ hnot_armed
    rw [hr]
    exact (Recorder.awaits_arm _ _ _ _).armed
  | running _ _ _ hr => exact absurd hr.armed hnot_armed
  | lost _ _ _ hbad => exact absurd hk hbad
  | left hq hbad =>
    rw [hp] at hq
    exact absurd (SamplerPhase.finished.inj hq).symm hbad
  | @closed after during earlier e w _ counts hw hc hend hd =>
    rw [hg.order] at hc hend hd
    have hbuffer : c.sampler.buffer = Recorder.fill c₀.sampler.buffer.length
        (readings c₀.sampler.order counts) := by
      cases hd with
      | unread hnone => exact absurd (hnone.symm.trans hk) (by simp)
      | inHand hnone => exact absurd (hnone.symm.trans hk) (by simp)
      | written _ hb => exact hb
    have hsorted : (arrivals during ++ arrivals after).Pairwise (·.1 ≤ ·.1) := by
      have hmore := hpast.sorted
      refine hmore.sublist ?_
      rw [arrivals_append, arrivals_cons, arrivals_append]
      exact ((List.sublist_append_right _ _).trans (List.sublist_append_left _ _)).append_right _
    have hlate (hnone : c₀.sampler.order.setup.completed? c₀.sampler.order.directions
        (arrivals during) = none) (b : Arrival) (hb : b ∈ arrivals after) :
        c₀.sampler.order.setup.plannedEnd e.1.now ≤ b.1 :=
      Nat.le_trans (hend hnone) (hw.late b hb)
    refine ⟨earlier, e, during, w, after, rfl, hw, _, hbuffer, fun ch hch => ?_⟩
    obtain ⟨hread, hvalue⟩ := hc.reads_reference_iff hsorted hlate hch
    exact ⟨hread, hvalue, fun hstrict => CaptureSetup.expectedReading_eq_reference hstrict ch⟩

/-- A sample of two steps up that waits for a rising edge on the first channel. -/
def twoUp : SampleOrder := ⟨-2, .fastest, ⟨⟨⟨.upward, .rising, ""⟩, .unused⟩, 40, 20⟩, .upward⟩

/-- A rig that was just taken over and powered, with a sampler on it, is one to take samples on. -/
theorem serves_powered {d : Drive} {s : Sampler} (o : SampleOrder) (buffer : List Reading)
    (hd : Drive.ofPeriods p rate = .ok d) (hs : Sampler.start o buffer = .ok s) :
    Serves p rate (fresh d.powerOn.1 s) [] (fresh d.powerOn.1 s) := by
  have hrest := Drive.atRest_of_ofPeriods hd
  have hpowered : Drive.Crowd.Reaches p rate [(⟨d, []⟩, .powerOn)] ⟨d.powerOn.1, []⟩ :=
    .act (.start hd) rfl
  exact .start hpowered (.start 0) (List.forall_mem_nil _)
    ⟨⟨hrest.available, hrest.begin, hrest.done, hrest.stepper⟩, rfl, rfl, rfl, rfl, rfl⟩ hs

/-- The handler comes and handles one event. -/
def handlerCall : List Action := [.recorder (.enter .handling), .recorder (.proceed 0)]

/-- The sampler starts, and the stepper makes the first step, which the handler notes. -/
def firstStepUp : List Action :=
  List.flatten [
    List.replicate 6 .sampler, List.replicate 4 (.drive (.stepper .done)),
    [.drive (.stepper (.ticked true))], List.replicate 6 (.drive (.stepper .done)),
    [.drive (.stepper (.cycles 7))], handlerCall]

/-- The stepper makes the second step. -/
def secondStepUp : List Action :=
  [.drive (.stepper (.ticked true))] ++ List.replicate 6 (.drive (.stepper .done)) ++
    [.drive (.stepper (.cycles 9))]

/-- The handler ends the window, the stepper the move, and the sampler collects both. -/
def bothCollected : List Action :=
  List.flatten [
    handlerCall, [.recorder (.proceed 0), .drive (.stepper (.ticked true))],
    List.replicate 5 (.drive (.stepper .done)), List.replicate 9 .sampler]

/-- An edge comes one tick after the first step, and the second step while the window runs. -/
def caughtEdge : List Action :=
  List.flatten [
    firstStepUp, [.recorder (.wait 25), .recorder (.edge ⟨0, Nat.zero_lt_two⟩ .rising)],
    handlerCall, secondStepUp, [.recorder (.wait 20), .recorder .expire], bothCollected]

theorem ok_sample_reads_reference_iff_caughtEdge :
    ∃ c₀ t c, Serves .standard 1 c₀ t c ∧ c₀.rig.drive.axis.isOff = false ∧
      c₀.sampler.order.target ≠ c₀.rig.drive.axis.position ∧ Unswitched t ∧
      c.sampler.result? = some (.ok .ok) ∧ (t.filter fun x => x.1.pulses x.2).length = 2 ∧
      c.sampler.buffer = [⟨.ok, 20⟩] ∧ (∃ x ∈ t, Lands (-2) x) ∧ c.rig.drive.locate = -2 ∧
      ∃ earlier e during w after, t = after ++ w :: (during ++ e :: earlier) ∧
        Windowed earlier e during w after := by
  have hs : Sampler.start twoUp [.blank] = .ok ⟨twoUp, .locating, none, none, false, [.blank]⟩ :=
    rfl
  have h := of_play? (P := Serves .standard 1 _) (fun _ _ _ _ => .act) caughtEdge
    (serves_powered twoUp [.blank] rfl hs) rfl
  obtain ⟨-, hland, hlocate, earlier, e, during, w, after, ht, hw, -⟩ :=
    ok_sample_reads_reference_iff h rfl (by decide) (unswitched_of_all rfl) rfl
  exact ⟨_, _, _, h, rfl, by decide, unswitched_of_all rfl, rfl, rfl, rfl, hland, hlocate, earlier,
    e, during, w, after, ht, hw⟩

/-- Is it an action of the sampler, the stepper, or the timer with its inputs and its handler? -/
def Action.isOwn : Action → Bool
  | .sampler | .drive (.stepper _) => true
  | .recorder (.edge _ _) | .recorder .expire | .recorder (.wait _) => true
  | .recorder (.enter .handling) | .recorder (.proceed _) => true
  | _ => false

/-- An edge comes after the end of the window, and before the handler has ended it. -/
def lateEdge : List Action :=
  List.flatten [
    firstStepUp, secondStepUp,
    [.recorder (.wait 60), .recorder .expire, .recorder (.wait 25),
      .recorder (.edge ⟨0, Nat.zero_lt_two⟩ .rising)],
    bothCollected]

/-- **A sample that ends well may have read an edge after its window.** Nobody else uses the drive
or the recorder. The window started at 0us and ended at 60us, and the only edge came at 85us, when
the counter had started anew and the handler had not come. It is read as if it came one tick after
the first step, where the formula says that there was none in time. -/
theorem exists_ok_sample_reading_late :
    ∃ c₀ t c, Serves .standard 1 c₀ t c ∧ c₀.rig.AtRest ∧ c₀.others = [] ∧
      c₀.sampler.order = twoUp ∧ c₀.sampler.buffer.length = 1 ∧
      c₀.rig.drive.axis.isOff = false ∧ c₀.rig.drive.axis.position = 0 ∧
      (∀ x ∈ t, x.2.isOwn = true) ∧ c.sampler.result? = some (.ok .ok) ∧
      (t.filter triggers).map (·.1.now) = [0] ∧ arrivals t = [(85, 0, .rising)] ∧
      twoUp.setup.windowEnd twoUp.directions 0 [] = 60 ∧
      twoUp.setup.expectedBuffer twoUp.directions 0 [(85, 0, .rising)] 1 =
        [⟨.timeout, Limits.noValueUs⟩] ∧
      c.sampler.buffer = [⟨.ok, 20⟩] := by
  have hs : Sampler.start twoUp [.blank] = .ok ⟨twoUp, .locating, none, none, false, [.blank]⟩ :=
    rfl
  have h := of_play? (P := Serves .standard 1 _) (fun _ _ _ _ => .act) lateEdge
    (serves_powered twoUp [.blank] rfl hs) rfl
  have hown {t : Trace} (ht : t.all (·.2.isOwn) = true) : ∀ x ∈ t, x.2.isOwn = true :=
    List.all_eq_true.mp ht
  exact ⟨_, _, _, h, ⟨⟨rfl, rfl, rfl, rfl⟩, rfl, rfl, rfl, rfl, rfl⟩, rfl, rfl, rfl, rfl, rfl,
    hown rfl, rfl, rfl, rfl, rfl, rfl, rfl⟩

end Crew

end SwitchBench
