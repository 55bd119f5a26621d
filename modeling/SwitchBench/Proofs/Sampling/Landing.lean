import SwitchBench.Proofs.Drive.Plunger
import SwitchBench.Proofs.Sampling.Rest

/-!
# Where a sample ends

A sample that is entered with the power on launches its move to its target, unless the plunger is
there already. The stepper decides that a move has ended well only where it was to go, and from then
on nobody moves the plunger: `Bound` says so, of every action of a crew but a switch of the power.
So a sample that ends well has left the plunger at its target.

Results: `Bound.act` (one action keeps where the sample goes), `lands_of_serves` (a sample that ends
well with the power untouched ends at its target).
-/

namespace SwitchBench

open Drive (MoveStage MoveEvent)

/-- What a sampler's action means for the move. -/
theorem Crew.event?_sampler (c : Crew) :
    c.event? .sampler = match c.sampler.phase with
      | .launching =>
        some (.launched c.rig.drive.axis c.sampler.moveOrder
          (c.rig.drive.launch c.sampler.moveOrder).2)
      | .readingMove _ => some (.collected c.rig.drive.axis.outcome)
      | .abortingMove _ _ => if c.rig.drive.abort.2 then some .abortAsked else none
      | _ => none := by
  simp only [event?, driveCrowd, Sampler.moveCall]
  cases hp : c.sampler.phase <;> simp [Drive.Crowd.event?]

namespace SamplerPhase

/-- Is the move of the sample yet to be launched? -/
def isUnlaunched : SamplerPhase → Bool
  | locating | takingRecorder | arming | takingDrive | launching => true
  | _ => false

end SamplerPhase

/-- An action of the stepper leaves the power alone, and the position unless it counts a step. -/
theorem Drive.Stride.samePlace {d d' : Drive} (h : Drive.Stride d d') :
    d'.axis.isOff = d.axis.isOff ∧
      (d.stepper.phase.isFlying = false → d'.axis.position = d.axis.position) := by
  cases h with
  | still hg hs ha =>
    refine ⟨?_, fun _ => ha.position⟩
    rw [Axis.isOff, ha.disable]
    rfl
  | aim hp hon hl hh hn => exact ⟨rfl, fun _ => rfl⟩
  | lift hp | lower hp => exact ⟨rfl, fun _ => rfl⟩
  | count hp =>
    refine ⟨?_, fun h0 => ?_⟩
    · unfold Axis.advance
      split <;> rfl
    · rw [hp] at h0
      cases h0

/-- Only a move under way steps. -/
theorem Drive.Stride.pulses_eq_false {d d' : Drive} (h : Drive.Stride d d')
    (hp : d.stepper.phase.isFlying = false) : Drive.pulses d d' = false := by
  cases h with
  | still _ hs _ => exact Drive.pulses_of_step hs
  | aim _ _ _ _ _ | count _ => exact Drive.pulses_of_step rfl
  | lift hq =>
    rw [hq] at hp
    cases hp
  | lower _ => simp [Drive.pulses]

/-- A sampler leaves power and position alone. -/
theorem Sampler.Turn.samePlace {now : Nat} {r r' : Rig} {s s' : Sampler}
    (h : Sampler.Turn now r s r' s') :
    r'.drive.axis.isOff = r.drive.axis.isOff ∧
      r'.drive.axis.position = r.drive.axis.position := by
  cases h with
  | launch hp =>
    rcases r.drive.axis.launch_cases s.moveOrder with
      ⟨-, he⟩ | ⟨-, -, he⟩ | ⟨-, -, he⟩ | ⟨-, t, -, -, he⟩ <;>
      rw [show (r.drive.launch s.moveOrder).1.axis = _ from congrArg Prod.fst he] <;>
      exact ⟨rfl, rfl⟩
  | abortMove hp =>
    simp only [Drive.abort, Axis.abort]
    split <;> exact ⟨rfl, rfl⟩
  | announce hp hn =>
    rename_i l q
    cases l <;> exact ⟨rfl, rfl⟩
  | takeDrive _ hd =>
    simp only [Drive.takePermit?, Option.map_eq_some_iff] at hd
    obtain ⟨x, -, rfl⟩ := hd
    exact ⟨rfl, rfl⟩
  | takeMove _ hd =>
    simp only [Drive.takeDone?, Option.map_eq_some_iff] at hd
    obtain ⟨x, -, rfl⟩ := hd
    exact ⟨rfl, rfl⟩
  | _ => exact ⟨rfl, rfl⟩

theorem Sampler.Turn.order {now : Nat} {r r' : Rig} {s s' : Sampler}
    (h : Sampler.Turn now r s r' s') : s'.order = s.order := by
  cases h <;> rfl

namespace Crew

variable {g : MoveStage} {c c' : Crew} {a : Action}

/-- A sample that has returned has no move out. -/
theorem Sound.idle_of_finished (h : Sound g c) (hq : Tidy g c) {o : SampleOutcome}
    (hp : c.sampler.phase = .finished o) : g = .idle := by
  have hl := hq.permits
  simp only [Sampler.LeavesPermits, hp] at hl
  exact h.drive.free hl.1

/-- Before its move is launched and after it was collected, a sample has no move out. -/
theorem Sound.idle (h : Sound g c) (hq : Tidy g c)
    (hp : c.sampler.phase.isUnlaunched = true ∨ c.sampler.moveEnd ≠ none) : g = .idle := by
  have hk := h.move
  have hl := hq.permits
  have hfree : c.rig.drive.available.count = 1 → g = .idle := h.drive.free
  have hcall : ∀ k ∈ c.sampler.moveCall.toList, k.Fits g c.rig.drive.axis.outcome := h.drive.calls
  cases hphase : c.sampler.phase with
  | locating | takingRecorder =>
    simp only [Sampler.LeavesPermits, hphase] at hl
    exact hfree hl.1
  | arming | takingDrive =>
    simp only [Sampler.LeavesPermits, hphase] at hl
    exact hfree hl
  | launching =>
    exact hcall (.launching c.sampler.moveOrder) (by simp [Sampler.moveCall, hphase])
  | freeingDrive k =>
    exact hcall (.givingPermit (c.sampler.moveEnd.getD .ok)) (by simp [Sampler.moveCall, hphase])
  | finished o => exact h.idle_of_finished hq hphase
  | refused f =>
    simp only [Sampler.LeavesPermits, hphase] at hl
  | announcing _ | takingMove _ | readingMove _ =>
    simp only [Sampler.KnowsMove, hphase] at hk
    rw [hphase] at hp
    simp_all [SamplerPhase.isUnlaunched]
  | _ =>
    simp only [Sampler.KnowsMove, hphase] at hk
    rw [hphase] at hp
    exact hfree (hk.2 (hp.resolve_left Bool.false_ne_true))

/-- While no move is under way the stepper has none in hand. -/
theorem Sound.not_flying (h : Sound g c) (hg : g.isFlying = false) :
    c.rig.drive.stepper.phase.isFlying = false := by
  have hfits : c.rig.drive.stepper.phase.Fits g c.rig.drive.axis.outcome := h.drive.stepper
  by_contra h0
  rw [StepperPhase.fits_of_isFlying (eq_true_of_ne_false h0)] at hfits
  exact absurd (hg.symm.trans hfits) Bool.false_ne_true

/-- While no move is under way the stepper moves nothing, and nothing happens to the moves. -/
theorem Sound.still (h : Sound g c) (hg : g.isFlying = false) (r : Reply) :
    c.event? (.drive (.stepper r)) = none ∧
      (c.rig.drive.resume r).axis.position = c.rig.drive.axis.position := by
  constructor
  · cases he : c.event? (.drive (.stepper r)) with
    | none => rfl
    | some e =>
      have ha := allows_of_event? h he
      simp only [event?, Drive.Crowd.event?] at he
      split at he <;> cases he
      · exact absurd (hg.symm.trans ha.1) Bool.false_ne_true
      · exact absurd (hg.symm.trans ha) Bool.false_ne_true
  · exact (Drive.stride_resume c.rig.drive r).samePlace.2 (h.not_flying hg)

/-- A move that the stepper decides to be well is at its target. -/
theorem position_of_turn {d d' : Drive} {e : Option MoveEvent} (ht : Drive.Turn d d' e)
    {x : Int} {l k : Bool} (ha : (MoveStage.flying x l k).Agrees d.axis) :
    (∃ l' k', (MoveStage.flying x l k).after e = .flying x l' k') ∨
    ∃ o, (MoveStage.flying x l k).after e = .settled o ∧ (o = .ok → d'.axis.position = x) := by
  cases ht with
  | same | wake _ _ | rest _ | note _ | tell _ => exact .inl ⟨l, k, rfl⟩
  | fly hp hs hsame he =>
    rcases he with rfl | ⟨up, rfl⟩
    · exact .inl ⟨l, k, rfl⟩
    · exact .inl ⟨l, k, rfl⟩
  | fail hp => exact .inr ⟨.aborted, rfl, nofun⟩
  | @settle b o hp hd =>
    refine .inr ⟨o, rfl, ?_⟩
    rintro rfl
    have hplace := Axis.samePlace_of_decide hd
    show b.position = x
    rw [hplace.position, ← ha.1]
    unfold Axis.decide at hd
    split_ifs at hd with h1 h2 h3 <;> cases hd
    exact h3

/-- The power is on, the move of a sample goes to its target, and one that ends well is there. -/
structure Bound (g : MoveStage) (d : Drive) (s : Sampler) : Prop where
  on : d.axis.isOff = false
  flying : ∀ t l k, g = .flying t l k → t = s.order.target
  settled : g = .settled .ok → d.axis.position = s.order.target
  collected : s.moveEnd = some .ok → d.axis.position = s.order.target
  done : s.phase = .finished .ok → d.axis.position = s.order.target

/-- With the power on, the plunger is found where it is. -/
theorem Bound.locate_eq {d : Drive} {s : Sampler} (hb : Bound g d s) :
    d.locate = d.axis.position := by
  rw [Drive.locate, Axis.locate, hb.on]
  rfl

/-- Does an action switch the power? -/
def Action.isSwitch : Action → Bool
  | .drive .powerOn | .drive .powerOff => true
  | _ => false

/-- Does nobody switch the power along a trace? -/
def Unswitched (t : Trace) : Prop := ∀ e ∈ t, e.2.isSwitch = false

theorem unswitched_of_all {t : Trace} (h : t.all (!·.2.isSwitch) = true) : Unswitched t :=
  fun e he => by simpa using List.all_eq_true.mp h e he

/-- Nothing that leaves power and position alone, and the sample, changes where it goes. -/
theorem Bound.frame {g' : MoveStage} {d d' : Drive} {s : Sampler} (hb : Bound g d s)
    (hon : d'.axis.isOff = d.axis.isOff) (hx : d'.axis.position = d.axis.position)
    (hfly : ∀ t l k, g' = .flying t l k → ∃ l' k', g = .flying t l' k')
    (hset : ∀ o, g' = .settled o → g = .settled o) : Bound g' d' s where
  on := hon.trans hb.on
  flying t l k hg := by
    obtain ⟨l', k', hg⟩ := hfly t l k hg
    exact hb.flying t l' k' hg
  settled hg := hx.trans (hb.settled (hset _ hg))
  collected hm := hx.trans (hb.collected hm)
  done hp := hx.trans (hb.done hp)

/-- The stepper leaves a sample bound for its target. -/
theorem Bound.resume (hb : Bound g c.rig.drive c.sampler) (h : Sound g c) (hq : Tidy g c)
    (r : Reply) :
    Bound (g.after (c.event? (.drive (.stepper r)))) (c.rig.drive.resume r) c.sampler := by
  have hon : (c.rig.drive.resume r).axis.isOff = c.rig.drive.axis.isOff :=
    (Drive.stride_resume c.rig.drive r).samePlace.1
  by_cases hg : g.isFlying = false
  · obtain ⟨he, hx⟩ := h.still hg r
    rw [he]
    exact hb.frame hon hx (fun t l k hg => ⟨l, k, hg⟩) fun o hg => hg
  · obtain ⟨x, l, k, rfl⟩ : ∃ x l k, g = .flying x l k := by
      cases g with
      | idle | settled o => exact absurd rfl hg
      | flying x l k => exact ⟨x, l, k, rfl⟩
    have haim := hb.flying x l k rfl
    have hturn : (∃ l' k', MoveStage.after (.flying x l k) (c.event? (.drive (.stepper r)))
          = .flying x l' k') ∨
        ∃ o, MoveStage.after (.flying x l k) (c.event? (.drive (.stepper r))) = .settled o ∧
          (o = .ok → (c.rig.drive.resume r).axis.position = x) :=
      position_of_turn (Drive.turn_resume (c := c.driveCrowd) h.drive.running r) h.drive.agrees
    refine ⟨hon.trans hb.on, fun x' l' k' he => ?_, fun he => ?_, fun hm => ?_, fun hp => ?_⟩
    · rcases hturn with ⟨l₁, k₁, hs⟩ | ⟨o, hs, -⟩
      · rw [hs] at he
        cases he
        exact haim
      · rw [hs] at he
        cases he
    · rcases hturn with ⟨l₁, k₁, hs⟩ | ⟨o, hs, hx⟩
      · rw [hs] at he
        cases he
      · rw [hs] at he
        cases he
        exact (hx rfl).trans haim
    · -- with a move under way the sample has neither collected it nor returned
      cases h.idle hq (.inr (by rw [hm]; simp))
    · cases h.idle_of_finished hq hp

/-- To ask for an abort leaves a sample bound for its target. -/
theorem Bound.abort {d d' : Drive} {s : Sampler} (hb : Bound g d s)
    (hon : d'.axis.isOff = d.axis.isOff) (hx : d'.axis.position = d.axis.position) (asked : Bool) :
    Bound (g.after (if asked then some .abortAsked else none)) d' s := by
  have hstage : (∀ t l k, g.after (if asked then some .abortAsked else none) = .flying t l k →
        ∃ l' k', g = .flying t l' k') ∧
      ∀ o, g.after (if asked then some .abortAsked else none) = .settled o → g = .settled o := by
    cases asked with
    | false => exact ⟨fun t l k hg => ⟨l, k, hg⟩, fun o hg => hg⟩
    | true => cases g <;> simp [MoveStage.after, MoveStage.next]
  exact hb.frame hon hx hstage.1 hstage.2

/-- With the power on, the move of a sample goes to its target, or the plunger is there already. -/
theorem Bound.launch {d : Drive} {s : Sampler} (hb : Bound g d s) :
    (d.launch s.moveOrder).2 = .began s.order.target ∨
      (d.launch s.moveOrder).2 = .finished .ok ∧ d.axis.position = s.order.target := by
  rcases d.axis.launch_cases s.moveOrder with
    ⟨hoff, -⟩ | ⟨-, hd, -⟩ | ⟨-, hd, he⟩ | ⟨-, t, hd, -, he⟩
  · exact absurd (hoff.symm.trans hb.on) (by simp)
  · cases hd
  · exact .inr ⟨congrArg Prod.snd he, (Option.some.inj hd).symm⟩
  · cases hd
    exact .inl (congrArg Prod.snd he)

/-- The sampler's own action leaves its sample bound for its target. -/
theorem Bound.step (hb : Bound g c.rig.drive c.sampler) (h : Sound g c) {r : Rig} {s : Sampler}
    {note : Option SampleNote} (hs : c.sampler.step c.now c.rig = some (r, s, note)) :
    Bound (g.after (c.event? .sampler)) r.drive s := by
  have hturn := Sampler.turn_of_step hs
  obtain ⟨hon, hx⟩ := hturn.samePlace
  -- most actions say nothing of the move, and end nothing
  have hkeep : c.event? .sampler = none → s.moveEnd = c.sampler.moveEnd →
      (s.phase = .finished .ok → c.rig.drive.axis.position = c.sampler.order.target) →
      Bound (g.after (c.event? .sampler)) r.drive s := by
    intro he hm hp
    rw [he]
    refine ⟨hon.trans hb.on, fun t l k hg => ?_, fun hg => ?_, fun h0 => ?_, fun h0 => ?_⟩ <;>
      rw [hturn.order]
    · exact hb.flying t l k hg
    · exact hx.trans (hb.settled hg)
    · exact hx.trans (hb.collected (hm.symm.trans h0))
    · exact hx.trans (hp h0)
  -- a sample that ends well in its rounds has collected a move that did
  have hends : ∀ {x : Sampler} {q : SamplerPhase}, x.Next q → x.moveEnd = c.sampler.moveEnd →
      q = .finished .ok → c.rig.drive.axis.position = c.sampler.order.target := by
    rintro x q hn hm rfl
    obtain ⟨m, k, hm', -, hc⟩ := hn.ends
    rw [hm, (Sampler.eq_ok_of_conclude hc).1] at hm'
    exact hb.collected hm'
  rw [event?_sampler] at hkeep ⊢
  cases hturn with
  | @leave o buffer hp =>
    refine hkeep (by rw [hp]) rfl fun h0 => ?_
    simp only [Sampler.step, hp] at hs
    split_ifs at hs with hv ht <;> cases hs
    · exact (ht.trans hb.locate_eq).symm
    · cases h0
  | seek hp | takeRecorder hp _ | arm hp | takeDrive hp _ | hear hp | takeMove hp _
  | takeCapture hp _ | readChannels hp => exact hkeep (by rw [hp]) rfl fun h0 => by cases h0
  | launch hp =>
    have hnone := h.move
    simp only [Sampler.KnowsMove, hp] at hnone
    have hout (x : Prop) (hm : c.sampler.moveEnd = some .ok) : x := by
      cases hnone.symm.trans hm
    rw [hp]
    rcases hb.launch with hl | ⟨hl, hat⟩ <;> simp only [hl]
    · exact ⟨hon.trans hb.on, fun t l k hg => (by cases hg; rfl), fun hg => (by cases hg), hout _,
        fun h0 => by cases h0⟩
    · exact ⟨hon.trans hb.on, fun t l k hg => (by cases hg), fun _ => hx.trans hat, hout _,
        fun h0 => by cases h0⟩
  | @announce l q hp hn =>
    refine hkeep (by rw [hp]) rfl fun h0 => ?_
    rw [show q = .finished .ok from h0] at hn
    cases l <;> cases hn
  | @look i q hp hn =>
    refine hkeep ?_ rfl (hends hn rfl)
    cases hq : c.sampler.phase <;> first | rfl | (rw [hq] at hp; cases hp)
  | abortMove hp =>
    rw [hp]
    exact ⟨hon.trans hb.on, (hb.abort hon hx _).flying, (hb.abort hon hx _).settled,
      fun hm => hx.trans (hb.collected hm), fun h0 => by cases h0⟩
  | @cut q hp hn =>
    refine hkeep ?_ rfl fun h0 => ?_
    · cases hq : c.sampler.phase <;> first | rfl | (rw [hq] at hp; cases hp)
    · split at hn
      · rw [show q = .finished .ok from h0] at hn
        cases hn
      · exact hends hn rfl h0
  | tell hp hn =>
    refine hkeep ?_ rfl (hends hn rfl)
    cases hq : c.sampler.phase <;> first | rfl | (rw [hq] at hp; cases hp)
  | readMove hp =>
    rw [hp]
    refine ⟨hb.on, fun t l k hg => (by cases hg), fun hg => (by cases hg),
      fun hm => hb.settled ?_, fun h0 => by cases h0⟩
    have hfits := h.drive.calls .readingOutcome (by simp [driveCrowd, Sampler.moveCall, hp])
    rw [← Option.some.inj hm]
    exact hfits
  | @freeDrive k q hp hn =>
    refine hkeep (by rw [hp]) rfl fun h0 => ?_
    split at hn
    · rw [show q = .finished .ok from h0] at hn
      cases hn
    · exact hends hn rfl h0
  | freeRecorder hp _ hn => exact hkeep (by rw [hp]) rfl (hends hn rfl)

/-- **One action of anybody leaves a sample bound for its target**, unless it switches the power. -/
theorem Bound.act (hb : Bound g c.rig.drive c.sampler) (h : Sound g c) (hq : Tidy g c)
    (ha : c.act? a = some c') (hp : a.isSwitch = false) :
    Bound (g.after (c.event? a)) c'.rig.drive c'.sampler := by
  cases turn_of_act ha with
  | @drive a x hk hx =>
    cases a with
    | stepper r =>
      cases hx
      exact hb.resume h hq r
    | abort =>
      cases hx
      refine hb.abort ?_ ?_ c.rig.drive.abort.2 <;> simp only [Drive.abort, Axis.abort, follow] <;>
        split <;> rfl
    | locate =>
      cases hx
      exact hb
    | powerOn | powerOff => cases hp
    | enter _ | proceed _ | giveUp _ => cases hk
  | recorder _ _ => exact hb
  | send _ => exact hb
  | sampler hs => exact hb.step h hs

/-! ## Every sample -/

/-- A sample that is entered with the power on is bound for its target. -/
theorem bound_of_start {o : SampleOrder} {buffer : List Reading} (h : Sound g c) (hq : Tidy g c)
    (hs : Sampler.start o buffer = .ok c.sampler) (hon : c.rig.drive.axis.isOff = false) :
    Bound g c.rig.drive c.sampler := by
  have hstart := sampler_of_start hs
  have hidle : g = .idle := h.idle hq (.inl (by rw [hstart]; rfl))
  refine ⟨hon, fun t l k hg => ?_, fun hg => ?_, fun hm => ?_, fun hp => ?_⟩
  · cases hidle.symm.trans hg
  · cases hidle.symm.trans hg
  · rw [hstart] at hm
    cases hm
  · rw [hstart] at hp
    cases hp

variable {p : StepPeriods} {rate : Nat} {c₀ : Crew} {t : Trace}

theorem bound_of_serves (h : Serves p rate c₀ t c) (hon : c₀.rig.drive.axis.isOff = false)
    (ht : Unswitched t) : ∃ g, AtWork c₀ g t c ∧ Bound g c.rig.drive c.sampler := by
  have hstart {c : Crew} {o : SampleOrder} {buffer : List Reading} (h : Serves p rate c [] c)
      (hs : Sampler.start o buffer = .ok c.sampler) (hon : c.rig.drive.axis.isOff = false) :
      ∃ g, AtWork c g [] c ∧ Bound g c.rig.drive c.sampler := by
    obtain ⟨g, hg⟩ := atWork_of_serves h
    exact ⟨g, hg, bound_of_start hg.sound hg.tidy hs hon⟩
  induction h with
  | start hd hr ho hrest hs => exact hstart (.start hd hr ho hrest hs) hs hon
  | next h hx hs => exact hstart (.next h hx hs) hs hon
  | act _ ha ih =>
    obtain ⟨g, hg, hb⟩ := ih hon fun e he => ht e (List.mem_cons_of_mem _ he)
    exact ⟨_, hg.act ha, hb.act hg.sound hg.tidy ha (ht _ List.mem_cons_self)⟩

/-- **A sample that ends well leaves the plunger at its target**, with the power on, if it was
entered with the power on and nobody switches it. However it ends, the power stays on. -/
theorem lands_of_serves (h : Serves p rate c₀ t c) (hon : c₀.rig.drive.axis.isOff = false)
    (ht : Unswitched t) :
    c.rig.drive.axis.isOff = false ∧
      (c.sampler.result? = some (.ok .ok) → c.rig.drive.locate = c.sampler.order.target) := by
  obtain ⟨g, -, hb⟩ := bound_of_serves h hon ht
  refine ⟨hb.on, fun hx => ?_⟩
  exact hb.locate_eq.trans (hb.done (Sampler.phase_of_result? hx))

end Crew

end SwitchBench
