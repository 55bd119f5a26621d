import SwitchBench.Proofs.Drive.Nearing

/-!
# A move that nobody disturbs

Until an order is taken up on a calm stretch, nothing moves (`Crowd.Ahead`). From then on the
position goes by the rises of the step output, every rise leads to the target, and there is less and
less left to do: `Crowd.Course` says so, and every action of a calm stretch keeps it.

Results: `course_of_calm` (what a calm stretch keeps), `Course.arrival` (a move on its course that
is over has arrived), and `undisturbed_move_arrives` (a move that nobody disturbs takes exactly the
steps it needs, ends well, and can be taken back).
-/

namespace SwitchBench

namespace Drive

namespace Crowd

variable {g : MoveStage} {c c' c₁ : Crowd} {a : Action} {p : StepPeriods} {rate : Nat} {t u : Trace}
  {start target : Int}

/-! ## Before the order is taken up -/

/-- Nothing has moved on a calm stretch. -/
structure Ahead (t u : Trace) (c c' : Crowd) : Prop where
  stage : MoveStage.ofEvents (events (u ++ t)) = .idle
  position : c'.drive.axis.position = c.drive.axis.position
  outputs : c'.drive.outputs = c.drive.outputs
  rises : risesOf u c' = []
  turns : turns u = 0
  collected : ∀ r, .collected r ∉ events u

theorem Ahead.act (h : Ahead t u c c₁) (hr : Reaches p rate (u ++ t) c₁)
    (hd : c₁.disturbs a = false) (ha : c₁.act? a = some c')
    (ht : (c₁.event? a).bind MoveEvent.taken? = none) : Ahead t ((c₁, a) :: u) c c' := by
  have hs := sound_of_reaches hr
  rw [h.stage] at hs
  obtain ⟨hout, hpos⟩ := hs.rests_of_act rfl (switches_of_calm hd) ha
  refine ⟨?_, hpos.trans h.position, hout.trans h.outputs, ?_, ?_, fun r he => ?_⟩
  · rw [List.cons_append, events_cons, MoveStage.ofEvents_append, h.stage]
    exact MoveStage.after_idle ht
  · rw [risesOf, rises_of_outputs hout, if_neg Bool.false_ne_true]
    exact h.rises
  · rw [turns_cons, h.turns, hs.not_advances_of_idle]
    rfl
  · rw [events_cons, List.mem_append, Option.mem_toList] at he
    rcases he with he | he
    · cases hs.allows he
    · exact h.collected r he

/-! ## From the taking up of the order on -/

/-- How a calm stretch stands from the taking up of an order on: where the rises lead, how much is
left to do, and what has come of it. -/
structure Course (start target : Int) (t u : Trace) (c c' : Crowd) : Prop where
  stage : OnCourse start target u c' (MoveStage.ofEvents (events (u ++ t)))
  leg : legOf (u ++ t) = ⟨start, target⟩
  place : c'.drive.axis.position + c'.drive.due = walk (risesOf u c') start
  ways : ∀ up ∈ risesOf u c', up = decide (target < start)
  turns : turns u + (MoveStage.ofEvents (events (u ++ t))).left target c'
    ≤ 10 * (target - start).natAbs + 11
  collected : ∀ r, .collected r ∈ events u → r = .ok
  still : target = start → c'.drive.outputs = c.drive.outputs

/-- Where an order leads depends on the position alone. -/
theorem destination?_of_position {b b' : Axis} (hp : b'.position = b.position) (o : MoveOrder) :
    b'.destination? o = b.destination? o := by
  unfold Axis.destination?
  rw [hp]

/-- An order is taken up by the call that launches it. -/
theorem launching_of_taken {o : MoveOrder} (ht : (c.event? a).bind MoveEvent.taken? = some o) :
    ∃ i, a = .proceed i ∧ c.calls[i]? = some (.launching o) := by
  cases a with
  | stepper r =>
    simp only [event?] at ht
    split at ht <;> cases ht
  | proceed i =>
    cases hi : c.calls[i]? with
    | none =>
      simp only [event?, hi] at ht
      cases ht
    | some k =>
      cases k with
      | launching o' =>
        simp only [event?, hi, Option.bind_some] at ht
        refine ⟨i, rfl, ?_⟩
        cases hl : (c.drive.launch o').2 <;> rw [hl] at ht <;> cases ht <;> exact hi
      | _ =>
        simp only [event?, hi] at ht
        cases ht
  | powerOff | abort =>
    simp only [event?] at ht
    split at ht <;> cases ht
  | powerOn | locate | enter k | giveUp i => cases ht

/-- An order that is taken up begins a move to its target, or ends well if that is here. -/
theorem Sound.onCourse_of_launch (h : Sound .idle c) (hon : c.drive.axis.isOff = false)
    {o : MoveOrder} (hdest : c.drive.axis.destination? o = some target) {i : Nat}
    (hi : c.calls[i]? = some (.launching o)) (ha : c.act? (.proceed i) = some c') :
    OnCourse c.drive.axis.position target u c' (MoveStage.idle.after (c.event? (.proceed i))) ∧
      c.leg? (.proceed i) = some ⟨c.drive.axis.position, target⟩ ∧
      (MoveStage.idle.after (c.event? (.proceed i))).left target c'
        ≤ 10 * (target - c.drive.axis.position).natAbs + 11 := by
  have hpos := (h.rests_of_act rfl rfl ha).2
  have hwait : c'.drive.stepper.phase = .waiting := by
    rw [(aside_of_act ha (by simp)).stepper, h.idle.1]
  have he : c.event? (.proceed i) = some (.launched c.drive.axis o (c.drive.axis.launch o).2) := by
    simp only [event?, hi, Drive.launch]
  have hcalls := (h.act ha).countP_passesOn_le
  simp only [leg?, switches, Bool.false_eq_true, if_false, he]
  rcases c.drive.axis.launch_cases o with
    ⟨hoff, -⟩ | ⟨-, hnone, -⟩ | ⟨-, hsame, hl⟩ | ⟨-, t, hfar, hne, hl⟩
  · cases hoff.symm.trans hon
  · cases hnone.symm.trans hdest
  · cases hsame.symm.trans hdest
    rw [hl]
    refine ⟨.settled hpos, rfl, ?_⟩
    simp only [MoveStage.after, MoveStage.next, MoveStage.left, hwait, if_true]
    omega
  · cases hfar.symm.trans hdest
    rw [hl]
    refine ⟨.flying hne, rfl, ?_⟩
    simp only [MoveStage.after, MoveStage.next, MoveStage.left, hwait, if_true, hpos]
    exact Nat.sub_le _ _

/-- An order that is taken up sets the course. -/
theorem Ahead.launch (h : Ahead t u c c₁) (hr : Reaches p rate (u ++ t) c₁)
    (hon : c₁.drive.axis.isOff = false) {o : MoveOrder}
    (hdest : c.drive.axis.destination? o = some target) (ha : c₁.act? a = some c')
    (ht : (c₁.event? a).bind MoveEvent.taken? = some o) :
    Course c.drive.axis.position target t ((c₁, a) :: u) c c' := by
  obtain ⟨i, rfl, hi⟩ := launching_of_taken ht
  have hs : Sound .idle c₁ := h.stage ▸ sound_of_reaches hr
  obtain ⟨hout, hpos⟩ := hs.rests_of_act rfl rfl ha
  rw [← destination?_of_position h.position] at hdest
  obtain ⟨hcourse, hleg, hleft⟩ :=
    hs.onCourse_of_launch (u := (c₁, .proceed i) :: u) hon hdest hi ha
  rw [h.position] at hcourse hleg hleft
  have hrises : risesOf ((c₁, .proceed i) :: u) c' = [] := by
    rw [risesOf, rises_of_outputs hout, if_neg Bool.false_ne_true, h.rises]
  have hturns : Crowd.turns ((c₁, .proceed i) :: u) = 0 := by
    rw [turns_cons, h.turns, hs.not_advances_of_idle]
    rfl
  have hstage : MoveStage.ofEvents (events ((c₁, .proceed i) :: u ++ t))
      = MoveStage.idle.after (c₁.event? (.proceed i)) := by
    rw [List.cons_append, events_cons, MoveStage.ofEvents_append, h.stage]
  refine ⟨hstage ▸ hcourse, ?_, ?_, ?_, ?_, fun r hc => ?_, fun _ => hout.trans h.outputs⟩
  · rw [List.cons_append, legOf, hleg]
    rfl
  · have hphase : c'.drive.stepper.phase = .waiting := by
      rw [(aside_of_act ha (by simp)).stepper, hs.idle.1]
    rw [due_of_gait (.inl (by rw [hphase]; rfl)), hrises, hpos, h.position]
    simp [walk]
  · rw [hrises]
    exact fun up hup => (List.not_mem_nil hup).elim
  · rw [hturns, hstage, Nat.zero_add]
    exact hleft
  · rw [events_cons, List.mem_append, Option.mem_toList] at hc
    rcases hc with hc | hc
    · rw [hc] at ht
      cases ht
    · exact absurd hc (h.collected r)

/-- A decision about a move that nobody wants to stop is to step, or that it is there. -/
theorem decide_of_undisturbed {b : Axis} (hoff : b.isOff = false) (hlost : b.powerLost = false)
    (hasked : b.aborted = false) :
    (∃ up, b.decide.2 = .step up) ∨ b.decide.2 = .finish .ok ∧ b.position = b.target := by
  unfold Axis.decide
  rw [hoff, hlost, hasked, Bool.or_false, if_neg Bool.false_ne_true, if_neg Bool.false_ne_true]
  split
  · exact .inr ⟨rfl, ‹_›⟩
  · exact .inl ⟨_, rfl⟩

/-- Whatever happens in a calm stretch, the move stays on its course. -/
theorem OnCourse.act (h : OnCourse start target u c g) (hs : Sound g c)
    (hev : CalmEvent g c a (c.event? a))
    (hstay : c.drive.axis.position = target → c'.drive.axis.position = target) :
    OnCourse start target ((c, a) :: u) c' (g.after (c.event? a)) := by
  have hkept : .collected .ok ∈ events u → .collected .ok ∈ events ((c, a) :: u) := by
    intro hc
    rw [events_cons]
    exact List.mem_append_right _ hc
  generalize he : c.event? a = e at hev ⊢
  cases hev with
  | none =>
    cases h with
    | flying hn => exact .flying hn
    | settled ht => exact .settled (hstay ht)
    | idle ht hc => exact .idle (hstay ht) (hkept hc)
  | decided hp hg =>
    cases h with
    | flying hn =>
      obtain ⟨htarget, hlost, hasked, hoff⟩ := hs.agrees
      have hon : c.drive.axis.isOff = false := eq_false_of_ne_true fun h0 => by cases hoff h0
      rcases decide_of_undisturbed hon hlost hasked with ⟨up, hd⟩ | ⟨hd, hthere⟩
      · rw [hd]
        exact .flying hn
      · rw [hd]
        exact .settled (hstay (hthere.trans htarget))
    | settled _ | idle _ _ => cases hg
  | collected hg =>
    cases h with
    | settled ht =>
      cases hg
      refine .idle (hstay ht) ?_
      rw [events_cons, he]
      exact List.mem_append_left _ (Option.mem_toList.mpr rfl)
    | flying _ | idle _ _ => cases hg
  | refused hg =>
    cases h with
    | idle ht hc => exact .idle (hstay ht) (hkept hc)
    | flying _ | settled _ => cases hg

/-- A move under way on its course heads for its target with the power on. -/
theorem OnCourse.powered (h : OnCourse start target u c g) (hs : Sound g c)
    (hg : g.isFlying = true) : c.drive.axis.powerLost = false ∧ c.drive.axis.target = target := by
  cases h with
  | flying hn => exact ⟨hs.agrees.2.1, hs.agrees.1⟩
  | settled _ | idle _ _ => cases hg

/-- To where the plunger is, no move is ever under way. -/
theorem OnCourse.not_flying (h : OnCourse start target u c g) (hsame : target = start) :
    g.isFlying = false := by
  cases h with
  | flying hn => exact absurd hsame hn
  | settled _ | idle _ _ => rfl

/-- A move on its course that is not under way is where it was to go, and has ended well. -/
theorem OnCourse.there (h : OnCourse start target u c g) (hg : g.isFlying = false) :
    c.drive.axis.position = target ∧ (g = .settled .ok ∨ .collected .ok ∈ events u) := by
  cases h with
  | flying hn => cases hg
  | settled ht => exact ⟨ht, .inl rfl⟩
  | idle ht hc => exact ⟨ht, .inr hc⟩

/-- Towards the target is the same way all along the leg. -/
theorem eq_of_heads {b : Axis} {up : Bool} (h : b.Heads up) (ht : b.target = target)
    (hc : (Leg.mk start target).Covers b.position) : up = decide (target < start) := by
  unfold Axis.Heads at h
  simp only [Leg.Covers] at hc
  rw [ht] at h
  cases up
  · have hpos : b.position < target := h
    exact (decide_eq_false (by omega)).symm
  · have hpos : target < b.position := h
    exact (decide_eq_true (by omega)).symm

/-- **Whatever anybody does in a calm stretch keeps the course.** -/
theorem Course.act (h : Course start target t u c c₁) (hr : Reaches p rate (u ++ t) c₁)
    (hon : c₁.drive.axis.isOff = false) (hd : c₁.disturbs a = false) (ha : c₁.act? a = some c')
    (ht : (c₁.event? a).bind MoveEvent.taken? = none) :
    Course start target t ((c₁, a) :: u) c c' := by
  have hs := sound_of_reaches hr
  have hw := switches_of_calm hd
  have hleg := onLeg_of_reaches hr
  have hev := hs.calmEvent hd ht
  rw [h.leg] at hleg
  have hflies : rises c₁.drive c'.drive = true →
      (MoveStage.ofEvents (events (u ++ t))).isFlying = true := by
    intro hrise
    refine eq_true_of_ne_false fun hg => ?_
    rw [rises_of_outputs (hs.rests_of_act hg hw ha).1] at hrise
    cases hrise
  have hstay : c₁.drive.axis.position = target → c'.drive.axis.position = target := by
    intro hthere
    rcases nears_of_act hr ha hw with hpos | hpos
    · exact hpos.trans hthere
    · rw [h.leg] at hpos
      simp only [Leg.Nears] at hpos
      omega
  refine ⟨?_, ?_, ?_, ?_, ?_, fun r hc => ?_, fun hsame => ?_⟩
  · rw [List.cons_append, events_cons, MoveStage.ofEvents_append]
    exact h.stage.act hs hev hstay
  · rw [List.cons_append, legOf, leg?_of_calm hw ht]
    exact h.leg
  · rw [risesOf]
    refine foot_of_act hr hon ha hw (fun hrise => ?_) h.place
    rw [powerLost_of_act ha hw ht]
    exact (h.stage.powered hs (hflies hrise)).1
  · rw [risesOf]
    split
    · rename_i hrise
      obtain ⟨hlost, htarget⟩ := h.stage.powered hs (hflies hrise)
      intro up hup
      rcases List.mem_cons.mp hup with rfl | hup
      · exact eq_of_heads (heads_of_rises hr ha hrise hlost) htarget hleg.covers
      · exact h.ways up hup
    · exact h.ways
  · have hleft := hs.left_of_act h.stage hon (fun up hp => ?_) hd ha ht
    · have hturns := h.turns
      rw [turns_cons, List.cons_append, events_cons, MoveStage.ofEvents_append]
      omega
    · have hfits := hs.stepper
      rw [hp] at hfits
      exact hleg.heads up (by rw [hp]; rfl) (h.stage.powered hs hfits).1
  · rw [events_cons, List.mem_append, Option.mem_toList] at hc
    rcases hc with hc | hc
    · rw [hc] at hev
      cases hev with
      | collected hg =>
        have hstage := h.stage
        rw [hg] at hstage
        cases hstage
        rfl
    · exact h.collected r hc
  · have hg := h.stage.not_flying hsame
    exact (hs.rests_of_act hg hw ha).1.trans (h.still hsame)

/-- **A calm stretch is ahead of the order taken up in it, or on its course.** -/
theorem course_of_calm (h : Reaches p rate t c) (hidle : c.drive.available.count = 1)
    (hon : c.drive.axis.isOff = false) (hu : Calm c u c') :
    (taken u = [] → Ahead t u c c') ∧
      ∀ o target, taken u = [o] → c.drive.axis.destination? o = some target →
        Course c.drive.axis.position target t u c c' := by
  induction hu with
  | start =>
    refine ⟨fun _ => ⟨(sound_of_reaches h).free hidle, rfl, rfl, rfl, rfl, fun r hc => ?_⟩,
      fun o target ho => (by cases ho)⟩
    cases hc
  | @act u c₁ c₂ a hu hd ha ih =>
    obtain ⟨hahead, hcourse⟩ := ih
    have hr := hu.reaches h
    have hon₁ : c₁.drive.axis.isOff = false := by
      rw [Axis.isOff, hu.disable]
      exact hon
    rw [taken_cons]
    cases ht : (c₁.event? a).bind MoveEvent.taken? with
    | none =>
      exact ⟨fun h0 => (hahead h0).act hr hd ha ht,
        fun o target ho hdest => (hcourse o target ho hdest).act hr hon₁ hd ha ht⟩
    | some o' =>
      refine ⟨fun h0 => (by cases h0), fun o target ho hdest => ?_⟩
      obtain ⟨rfl, h0⟩ : o' = o ∧ taken u = [] := by simpa using ho
      exact (hahead h0).launch hr hon₁ hdest ha ht

/-! ## The end of the move -/

/-- What has come of a move that nobody disturbed, when it is over. -/
structure Arrival (start target : Int) (t u : Trace) (c c' : Crowd) : Prop where
  /-- Its outcome is there to collect, or has been collected. -/
  ended : c'.drive.axis.outcome = .ok ∧ (c'.drive.done.count = 1 ∨ .readingOutcome ∈ c'.calls) ∨
    .collected .ok ∈ events u
  collected : ∀ r, .collected r ∈ events u → r = .ok
  located : c'.drive.locate = target
  rises : risesOf u c' = List.replicate (target - start).natAbs (decide (target < start))
  falls : fallsOf u c' = (target - start).natAbs
  low : c'.drive.step.level = false
  still : target = start → c'.drive.outputs = c.drive.outputs
  plunger : Crowd.plunger t c = start → Crowd.plunger (u ++ t) c' = target

/-- Steps that all go one way and lead to a target are as many as it is away. -/
theorem eq_replicate_of_walk {ups : List Bool} (hw : ∀ up ∈ ups, up = decide (target < start))
    (hp : target = walk ups start) :
    ups = List.replicate (target - start).natAbs (decide (target < start)) := by
  have hrep : ups = List.replicate ups.length (decide (target < start)) :=
    List.eq_replicate_iff.mpr ⟨rfl, hw⟩
  have hlength : ups.length = (target - start).natAbs := by
    rw [hrep, walk_replicate] at hp
    simp only [decide_eq_true_eq] at hp
    split at hp <;> omega
  rw [← hlength]
  exact hrep

/-- A move on its course that is over has arrived. -/
theorem Course.arrival (h : Course start target t u c c') (hr : Reaches p rate t c)
    (hu : Calm c u c') (hidle : c.drive.available.count = 1) (hon : c.drive.axis.isOff = false)
    (hover : c'.isOver = true) : Arrival start target t u c c' := by
  have hs := sound_of_reaches (hu.reaches hr)
  obtain ⟨hfly, hended⟩ := hs.ended_of_over hover
  obtain ⟨hwait, -, -⟩ := waiting_of_over hover
  have hon' : c'.drive.axis.isOff = false := by
    rw [Axis.isOff, hu.disable]
    exact hon
  obtain ⟨hthere, hwell⟩ := h.stage.there hfly
  have hplace := h.place
  rw [hthere, due_of_gait (.inl (by rw [hwait]; rfl)), Int.add_zero] at hplace
  have hlow : c'.drive.step.level = false := by
    rw [(tracks_of_reaches (hu.reaches hr)).step, hwait]
    rfl
  have hlow₀ : c.drive.step.level = false := by
    have hs₀ := sound_of_reaches hr
    rw [hs₀.free hidle] at hs₀
    rw [(tracks_of_reaches hr).step, hs₀.idle.1]
    rfl
  have hrises := eq_replicate_of_walk h.ways hplace
  refine ⟨?_, h.collected, ?_, hrises, ?_, hlow, h.still, fun hstart => ?_⟩
  · rcases hwell with hok | hc
    · exact .inl (hended .ok hok)
    · exact .inr hc
  · rw [Drive.locate, Axis.locate, hon', if_neg Bool.false_ne_true, hthere]
  · have hedges := hu.edges
    rwa [hlow, hlow₀, hrises, List.length_replicate] at hedges
  · rw [hu.plunger hon, hstart, ← hplace]

/-- **A move that nobody disturbs takes exactly the steps it needs.** From any state in which the
power is on and every move has been collected, on any stretch of a run on which nobody switches the
power or asks for an abort, the timer keeps ticking, and one order is taken up: the move is taken
further a bounded number of times; until it is over somebody can take it further; and once it is
over it has ended well, the position reported is its target, the step output has risen and fallen
once for each step on the way, always with the direction of the target, and is low, nothing has
changed if there was nowhere to go, and a plunger that was where the drive started is where it
ended. The opposite move, undisturbed too, leads back with as many steps. -/
theorem undisturbed_move_arrives (h : Reaches p rate t c) (hidle : c.drive.available.count = 1)
    (hon : c.drive.axis.isOff = false) {o : MoveOrder}
    (hdest : c.drive.axis.destination? o = some target) (hu : Calm c u c') (ho : taken u = [o]) :
    turns u ≤ 10 * (target - c.drive.axis.position).natAbs + 11 ∧
    (c'.isOver = false → ∃ a c₁, c'.act? a = some c₁ ∧ c'.disturbs a = false ∧
      c'.advances a = true) ∧
    (c'.isOver = true →
      Arrival c.drive.axis.position target t u c c' ∧
      ∀ v u₁ c₁, c'.drive.available.count = 1 → Calm c' u₁ c₁ →
        taken u₁ = [⟨true, -(target - c.drive.axis.position), v⟩] → c₁.isOver = true →
        Arrival target c.drive.axis.position (u ++ t) u₁ c' c₁) := by
  have hcourse := (course_of_calm h hidle hon hu).2 o target ho hdest
  have hr := hu.reaches h
  refine ⟨Nat.le_of_add_right_le hcourse.turns, (sound_of_reaches hr).exists_turn, fun hover => ?_⟩
  have harrival := hcourse.arrival h hu hidle hon hover
  refine ⟨harrival, fun v u₁ c₁ hidle₁ hu₁ ho₁ hover₁ => ?_⟩
  have hon' : c'.drive.axis.isOff = false := by
    rw [Axis.isOff, hu.disable]
    exact hon
  have hpos : c'.drive.axis.position = target := by
    have hlocated := harrival.located
    rwa [Drive.locate, Axis.locate, hon', if_neg Bool.false_ne_true] at hlocated
  have hback : c'.drive.axis.destination? ⟨true, -(target - c.drive.axis.position), v⟩
      = some c.drive.axis.position := by
    have hsum : target + -(target - c.drive.axis.position) = c.drive.axis.position := by omega
    simp only [Axis.destination?, if_true, hpos, hsum]
    exact if_pos (onLeg_of_reaches h).valid
  have hcourse₁ := (course_of_calm hr hidle₁ hon' hu₁).2 _ _ ho₁ hback
  rw [hpos] at hcourse₁
  exact hcourse₁.arrival hr hu₁ hidle₁ hon' hover₁

/-- Actions none of which disturbs a move make a calm stretch. -/
theorem calm_of_play? (as : List Action) (hp : play? act? [] c as = some (u, c'))
    (hd : ∀ e ∈ u, e.1.disturbs e.2 = false) : Calm c u c' := by
  refine of_play? (P := fun u c' => (∀ e ∈ u, e.1.disturbs e.2 = false) → Calm c u c')
    (fun u c₁ a c₂ h ha hd => ?_) as (fun _ => .start) hp hd
  exact .act (h fun e he => hd e (List.mem_cons_of_mem _ he)) (hd _ List.mem_cons_self) ha

/-- One step up with the power on already, and its outcome collected. -/
theorem undisturbed_move_arrives_oneStepUp :
    ∃ t c u c', Reaches .standard 1 t c ∧ c.drive.available.count = 1 ∧
      c.drive.axis.isOff = false ∧
      c.drive.axis.destination? ⟨false, -1, .fastest⟩ = some (-1) ∧ Calm c u c' ∧
      taken u = [⟨false, -1, .fastest⟩] ∧ c'.isOver = true ∧
      turns u ≤ 21 ∧
      (c'.isOver = false → ∃ a c₁, c'.act? a = some c₁ ∧ c'.disturbs a = false ∧
        c'.advances a = true) ∧
      (c'.isOver = true →
        Arrival 0 (-1) t u c c' ∧
        ∀ v u₁ c₁, c'.drive.available.count = 1 → Calm c' u₁ c₁ →
          taken u₁ = [⟨true, 1, v⟩] → c₁.isOver = true → Arrival (-1) 0 (u ++ t) u₁ c' c₁) := by
  refine ⟨_, _, _, _, of_play? (P := Reaches .standard 1) (fun _ _ _ _ => .act) [.powerOn]
    (.start rfl) rfl, rfl, rfl, rfl, calm_of_play? oneStepUp.tail rfl (by decide), rfl, rfl, ?_⟩
  exact undisturbed_move_arrives
    (of_play? (P := Reaches .standard 1) (fun _ _ _ _ => .act) [.powerOn] (.start rfl) rfl) rfl rfl
    rfl (calm_of_play? oneStepUp.tail rfl (by decide)) rfl

end Crowd

end Drive

end SwitchBench
