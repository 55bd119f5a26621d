import SwitchBench.Proofs.Drive.OneWay

/-!
# How far steps are apart

The stepper waits for a tick, and rests before a step that turns around. The rest comes after the
tick, so the step after it falls behind the timer, by its `Footfall.lag`. The next tick of the same
move does not wait for that: the next step comes as soon as the timer fires, or the last pulse is
over (`Punctual`), and that is earlier than a period after the late step. Between moves this cannot
happen, as every move starts the timer anew (`Apart`).

Results: `apart_of_reaches` (the last step of a move and the first one of the next are a period
apart), `punctual_of_reaches` (how far two steps of a move are apart if the stepper is prompt),
`keeps_pace_iff` (which steps are a period apart), `exists_hasty` (steps two microseconds apart).
-/

namespace SwitchBench

/-- Does the timer run, and fire a period after an instant, less a lag? -/
def Pacer.Lags (pacer : Pacer) (periodUs instant lagUs : Nat) : Prop :=
  ∃ due, pacer.running = some (periodUs, due) ∧ due + lagUs = instant + periodUs

namespace Pacer

variable {periodUs due rose lagUs instant : Nat}

theorem lags_start (pacer : Pacer) (now periodUs : Nat) :
    (pacer.start now periodUs).Lags periodUs now 0 :=
  ⟨now + periodUs, rfl, rfl⟩

/-- A timer that is waited for in time stays in time. -/
theorem nextFiring_due (catchup : Catchup) (periodUs due : Nat) :
    nextFiring catchup periodUs due due = due + periodUs := by
  unfold nextFiring
  cases catchup
  · rfl
  · exact if_neg (by omega)

/-- A timer that is waited for after a step with a lag fires when the step's pulse is over, if not
later, and is then ahead of the step by what is left of the lag. -/
theorem nextFiring_lags (catchup : Catchup) (hdue : due + lagUs = rose + periodUs)
    (hi : instant = max (rose + Limits.pulseWidthUs) due) :
    instant = rose + max (periodUs - lagUs) Limits.pulseWidthUs ∧
      nextFiring catchup periodUs due instant + caughtUp catchup periodUs lagUs
        = instant + periodUs := by
  unfold nextFiring caughtUp
  cases catchup with
  | restart =>
    simp only
    omega
  | steady =>
    simp only
    split <;> split <;> omega

end Pacer

namespace Drive

namespace Timed

variable {p : StepPeriods} {clock : CycleClock} {catchup : Catchup} {t : Trace} {s s' : Timed}
  {instant : Nat} {a : Action} {r : Reply}

/-! ## Between two moves -/

/-- What the timer and the stepper's last action tell of the last step, if it is one of an earlier
move. -/
def Clear (periodUs since : Nat) (pacer : Pacer) (earlier : Footfall) : StepperPhase → Prop
  | .pacing => ∀ due ∈ pacer.next?, earlier.rose + periodUs ≤ due
  | .ticked | .deciding | .gauging _ | .resting _ _ | .raising _ =>
    earlier.rose + periodUs ≤ since
  | .advancing _ | .holding _ | .lowering _ | .marking _ => False
  | _ => True

/-- Are the steps of different moves a period apart, and will the next one be? -/
structure Apart (p : StepPeriods) (t : Trace) (s : Timed) : Prop where
  chain : (footfalls t s).IsChain fun later earlier =>
    later.move ≠ earlier.move → earlier.rose + p.pace later.speed ≤ later.rose
  rose_le : ∀ f ∈ (footfalls t s).head?, f.rose ≤ s.since
  clear : ∀ f ∈ (footfalls t s).head?, f.move ≠ movesOf t →
    Clear (p.pace (speedOf t)) s.since s.pacer f s.crowd.drive.stepper.phase

/-- A move starts the timer anew, and makes no step before it fires. -/
theorem clear_of_stepper (hr : Reaches p clock catchup t s) (ha : s.StepperActs clock instant r s')
    {f : Footfall} (hrose : f.rose ≤ s.since)
    (hclear : Clear (p.pace (speedOf t)) s.since s.pacer f s.crowd.drive.stepper.phase)
    (hlift : ∀ up, s.crowd.drive.stepper.phase ≠ .raising up) :
    Clear (p.pace (speedOf t)) s'.since s'.pacer f s'.crowd.drive.stepper.phase := by
  have hs := Crowd.sound_of_reaches (reaches_crowd hr)
  have hloaded := Crowd.loaded_of_reaches (reaches_crowd hr)
  have hsince := ha.since_le
  have hb := beat_resume hs.running ha.heeds
  obtain ⟨hready, -, hgives, rfl⟩ := ha
  simp only
  generalize s.crowd.drive.resume r = d at hb ⊢
  cases hb with
  | wake hp | enter hp | load hp | fail hp | finish hp | halt hp | report hp | tell hp => trivial
  | @start us hp =>
    have hus : us = p.pace (speedOf t) := (hloaded (by rw [hp]; rfl)).2 us hp
    simp only [pacerAfter, demand, hp]
    intro due hdue
    cases hdue
    rw [← hus]
    exact Nat.add_le_add_right (Nat.le_trans hrose hsince) us
  | tick hp =>
    rw [hp] at hclear
    obtain ⟨⟨period, due⟩, hrun⟩ : ∃ x, s.pacer.running = some x :=
      Option.isSome_iff_exists.mp hgives
    have hnext : s.pacer.next? = some due := by rw [Pacer.next?, hrun]; rfl
    simp only [readyAt, demand, hp, hnext, Option.getD_some] at hready
    exact Nat.le_trans (hclear due hnext) (Nat.le_trans (Nat.le_max_right _ _) hready)
  | look hp | rest hp =>
    rw [hp] at hclear
    exact Nat.le_trans hclear hsince
  | @aim b up hp hd =>
    rw [hp] at hclear
    rcases stepPhase_cases s.crowd.drive.stepper.last up with ⟨hphase, -⟩ | ⟨hphase, -⟩ <;>
      rw [hphase] <;> exact Nat.le_trans hclear hsince
  | @gauge up n hp =>
    rw [hp] at hclear
    rcases restPhase_cases s.crowd.drive up n rfl with ⟨-, hphase⟩ | hphase <;>
      simp only [goto, hphase] <;> exact Nat.le_trans hclear hsince
  | @lift up hp => exact absurd hp (hlift up)
  | count hp | hold hp | lower hp | mark hp =>
    -- here the last step is one of the move in hand
    rw [hp] at hclear
    exact hclear.elim

/-- **Whatever the stepper does, the steps of different moves are a period apart.** -/
theorem Apart.stepper (h : Apart p t s) (hr : Reaches p clock catchup t s)
    (ha : s.StepperActs clock instant r s') :
    Apart p ((s, (instant, .stepper r)) :: t) s' := by
  have hsince : s.since ≤ s'.since := by
    rw [ha.next]
    exact ha.since_le
  have hkept (f : Footfall) (hf : f ∈ (footfalls t s).head?) (hmove : f.move ≠ movesOf t) :=
    clear_of_stepper hr ha (h.rose_le f hf) (h.clear f hf hmove)
  have hquiet := s.crowd.begun?_of_stepper r
  refine ⟨?_, ?_, ?_⟩ <;> rw [footfalls_of_stepper hr ha, nextSteps]
  · split
    · rename_i up hp
      refine List.isChain_cons.mpr ⟨fun f hf hmove => ?_, h.chain⟩
      have hclear := h.clear f hf (Ne.symm hmove)
      rw [hp] at hclear
      exact Nat.le_trans hclear ha.since_le
    · exact isChain_modifyHead h.chain fun _ _ h => h
    · exact h.chain
  · intro f hf
    split at hf
    · cases hf
      rw [ha.next]
      exact Nat.le_refl _
    · rw [List.head?_modifyHead] at hf
      obtain ⟨f', hf', rfl⟩ := Option.map_eq_some_iff.mp hf
      exact Nat.le_trans (h.rose_le f' hf') hsince
    · exact Nat.le_trans (h.rose_le f hf) hsince
  · rw [movesOf_of_none hquiet, speedOf_of_none hquiet]
    intro f hf hmove
    split at hf
    · cases hf
      exact absurd rfl hmove
    · rename_i up hp
      rw [List.head?_modifyHead] at hf
      obtain ⟨f', hf', rfl⟩ := Option.map_eq_some_iff.mp hf
      exact hkept f' hf' hmove (by rw [hp]; simp)
    · rename_i hlift hmark
      exact hkept f hf hmove hlift

/-- **The last step of a move and the first one of the next are a period apart**, however late
anybody acts. -/
theorem apart_of_reaches (h : Reaches p clock catchup t s) : Apart p t s := by
  induction h using Reaches.parties with
  | start h => exact ⟨.nil, fun f hf => (by cases hf), fun f hf => (by cases hf)⟩
  | stepper h _ ha ih => exact ih.stepper h ha
  | @client t s s' instant a h _ ha ih =>
    have hs := Crowd.sound_of_reaches (reaches_crowd h)
    refine ⟨?_, ?_, ?_⟩ <;> rw [footfalls_of_client ha]
    · exact ih.chain
    · rw [ha.next]
      exact ih.rose_le
    · rw [ha.aside.stepper, ha.next]
      intro f hf hmove
      by_cases hp : s.crowd.drive.stepper.phase = .waiting
      · rw [hp]
        trivial
      · have hquiet := Crowd.begun?_of_busy hs hp a
        rw [movesOf_of_none hquiet] at hmove
        rw [speedOf_of_none hquiet]
        exact ih.clear f hf hmove

/-! ## In one move -/

/-- Is the next step due, after a rest, at the pace that the timer keeps? -/
structure Due (periodUs since pauseUs : Nat) (pacer : Pacer) (last : Option Footfall) :
    Prop where
  lags : pacer.Lags periodUs since (lagAfter pacer.catchup periodUs pauseUs last)
  spaced : ∀ f ∈ last, since = f.rose + max (periodUs - f.lag) Limits.pulseWidthUs

/-- What a prompt stepper's last action and the timer tell of the last step of its move. Only the
first step of a move is gauged and rested for. -/
def InTime (periodUs since pauseUs : Nat) (pacer : Pacer) (last : Option Footfall) :
    StepperPhase → Prop
  | .pacing =>
    (last = none → pacer.Lags periodUs since 0) ∧
      ∀ f ∈ last, f.rose + Limits.pulseWidthUs = since ∧ pacer.Lags periodUs f.rose f.lag
  | .ticked | .deciding => Due periodUs since 0 pacer last
  | .gauging _ | .resting _ _ => last = none ∧ Due periodUs since 0 pacer last
  | .raising _ => Due periodUs since pauseUs pacer last
  | .advancing _ | .holding _ => ∃ f ∈ last, f.rose = since ∧ pacer.Lags periodUs f.rose f.lag
  | .lowering _ | .marking _ =>
    ∃ f ∈ last, f.rose + Limits.pulseWidthUs = since ∧ pacer.Lags periodUs f.rose f.lag
  | _ => True

/-- Do the steps of a move keep the pace of the timer, less their lags, and will the next one? -/
structure Punctual (p : StepPeriods) (t : Trace) (s : Timed) : Prop where
  chain : (footfalls t s).IsChain fun later earlier => later.move = earlier.move →
    later.rose = earlier.rose + max (p.pace later.speed - earlier.lag) Limits.pulseWidthUs
  inTime : InTime (p.pace (speedOf t)) s.since (pauseOf t) s.pacer (latest t s)
    s.crowd.drive.stepper.phase

/-- A tick makes the next step due. -/
theorem due_of_tick {periodUs since instant : Nat} {pacer : Pacer} {last : Option Footfall}
    (hfirst : last = none → pacer.Lags periodUs since 0)
    (hnext : ∀ f ∈ last, f.rose + Limits.pulseWidthUs = since ∧ pacer.Lags periodUs f.rose f.lag)
    (hi : instant = max since (pacer.next?.getD since)) :
    Due periodUs instant 0 (pacer.waited instant) last := by
  cases last with
  | none =>
    obtain ⟨due, hrun, hdue⟩ := hfirst rfl
    simp only [Pacer.next?, hrun, Option.map_some, Option.getD_some] at hi
    obtain rfl : instant = due := by omega
    refine ⟨⟨_, by rw [Pacer.waited, hrun]; rfl, ?_⟩, fun f hf => (by cases hf)⟩
    rw [Pacer.nextFiring_due]
    rfl
  | some f =>
    obtain ⟨rfl, due, hrun, hdue⟩ := hnext f rfl
    simp only [Pacer.next?, hrun, Option.map_some, Option.getD_some] at hi
    obtain ⟨hinstant, hlags⟩ := Pacer.nextFiring_lags pacer.catchup hdue hi
    refine ⟨⟨_, by rw [Pacer.waited, hrun]; rfl, hlags⟩, fun f' hf => ?_⟩
    cases hf
    exact hinstant

/-- A move turns around before its first step only. -/
theorem OneWay.latest_of_turn {g : MoveStage} (h : OneWay g t s) (ht : Turned p clock t s)
    (hp : s.crowd.drive.stepper.phase = .deciding) {b : Axis} {up : Bool}
    (hd : s.crowd.drive.axis.decide = (b, .step up)) {l : LastStep}
    (hl : s.crowd.drive.stepper.last = some l) (hne : l.up ≠ up) : latest t s = none := by
  refine Option.eq_none_iff_forall_not_mem.mpr fun f hf => hne ?_
  obtain ⟨-, hlost, hheads, -⟩ := Axis.aim_of_decide hd
  have hway : f.up = up := (h.short (by rw [hp]; rfl) hlost f hf).eq_of_heads hheads
  have hmarked := ht.rested
  rw [Stepper.Rested, hp] at hmarked
  obtain ⟨r, -, -, hlast⟩ := Stepper.Marked.of_head hmarked (mem_current_iff.mp hf).1
  rw [hl] at hlast
  cases hlast
  exact hway

/-- **A prompt stepper keeps the pace of the timer.** -/
theorem inTime_of_stepper (hr : Reaches p clock catchup t s)
    (h : InTime (p.pace (speedOf t)) s.since (pauseOf t) s.pacer (latest t s)
      s.crowd.drive.stepper.phase)
    (ha : s.StepperActs clock instant r s')
    (hprompt : s.crowd.drive.demand ≠ .permit → instant = s.readyAt r) :
    InTime (p.pace (speedOf t)) s'.since (pauseOf ((s, (instant, .stepper r)) :: t)) s'.pacer
      (latest ((s, (instant, .stepper r)) :: t) s') s'.crowd.drive.stepper.phase := by
  have hs := Crowd.sound_of_reaches (reaches_crowd hr)
  have hloaded := Crowd.loaded_of_reaches (reaches_crowd hr)
  have hperiods := (Crowd.rates_of_reaches (reaches_crowd hr)).1
  have hb := beat_resume hs.running ha.heeds
  rw [latest_of_stepper hr ha]
  obtain ⟨-, -, -, rfl⟩ := ha
  simp only [pauseOf]
  -- a prompt stepper acts at once, unless it waits for a tick, rests or holds a pulse
  generalize s.crowd.drive.resume r = d at hb ⊢
  cases hb with
  | wake hp | enter hp | load hp | fail hp | finish hp | halt hp | report hp | tell hp => trivial
  | @start us hp =>
    have hus : us = p.pace (speedOf t) := (hloaded (by rw [hp]; rfl)).2 us hp
    have hg := (StepperPhase.fits_of_isFlying (by rw [hp]; rfl) _ _).mp hs.stepper
    have hnone := (oneWay_of_reaches hr).fresh hg (by rw [hp]; rfl)
    simp only [hp, hnone, pacerAfter, demand, ← hus]
    exact ⟨fun _ => Pacer.lags_start _ _ _, fun f hf => (by cases hf)⟩
  | tick hp =>
    simp only [readyAt, demand, hp] at hprompt
    simp only [hp, pacerAfter, demand] at h ⊢
    exact due_of_tick h.1 h.2 (hprompt (by simp))
  | look hp | count hp | lower hp =>
    simp only [readyAt, demand, hp] at hprompt
    simp only [hp, pacerAfter, demand, hprompt (by simp)] at h ⊢
    exact h
  | @aim b up hp hd =>
    simp only [readyAt, demand, hp] at hprompt
    simp only [hp, pacerAfter, demand, hprompt (by simp)] at h ⊢
    rcases stepPhase_cases s.crowd.drive.stepper.last up with ⟨hphase, -⟩ | ⟨hphase, l, hl, hne⟩
    · rw [hphase]
      exact h
    · -- the stepper gauges a reversal, so that its move has not made a step
      rw [hphase]
      exact ⟨(oneWay_of_reaches hr).latest_of_turn (turned_of_reaches hr) hp hd hl hne, h⟩
  | @gauge up n hp =>
    simp only [readyAt, demand, hp] at hprompt
    simp only [hp, pacerAfter, demand, hprompt (by simp)] at h ⊢
    rcases restPhase_cases s.crowd.drive up n rfl with ⟨-, hphase⟩ | hphase
    · simp only [goto, hphase]
      exact h.2
    · simp only [goto, hphase]
      exact h
  | @rest up us hp =>
    simp only [readyAt, demand, hp] at hprompt
    simp only [hp, pacerAfter, demand, hprompt (by simp)] at h ⊢
    obtain ⟨hnone, ⟨due, hrun, hdue⟩, -⟩ := h
    rw [hnone] at hdue ⊢
    refine ⟨⟨due, hrun, ?_⟩, fun f hf => (by cases hf)⟩
    simp only [lagAfter] at hdue ⊢
    omega
  | @lift up hp =>
    simp only [readyAt, demand, hp] at hprompt
    simp only [hp, pacerAfter, demand, hprompt (by simp)] at h ⊢
    refine ⟨_, rfl, rfl, ?_⟩
    simp only [landing, hperiods]
    exact h.lags
  | hold hp =>
    simp only [readyAt, demand, hp] at hprompt
    simp only [hp, pacerAfter, demand, hprompt (by simp)] at h ⊢
    obtain ⟨f, hf, hrose, hlags⟩ := h
    exact ⟨f, hf, by rw [hrose], hlags⟩
  | mark hp =>
    simp only [readyAt, demand, hp] at hprompt
    simp only [hp, pacerAfter, demand, hprompt (by simp)] at h ⊢
    obtain ⟨f, hf, hrose, hlags⟩ := h
    rw [hf]
    refine ⟨fun hnone => (by cases hnone), fun f' hf' => ?_⟩
    cases hf'
    exact ⟨hrose, hlags⟩

/-- **Whatever a prompt stepper does, the steps of a move keep the pace of the timer.** -/
theorem Punctual.stepper (h : Punctual p t s) (hr : Reaches p clock catchup t s)
    (ha : s.StepperActs clock instant r s')
    (hprompt : s.crowd.drive.demand ≠ .permit → instant = s.readyAt r) :
    Punctual p ((s, (instant, .stepper r)) :: t) s' := by
  refine ⟨?_, ?_⟩
  · rw [footfalls_of_stepper hr ha, nextSteps]
    split
    · rename_i up hp
      refine List.isChain_cons.mpr ⟨fun f hf hmove => ?_, h.chain⟩
      have hdue := h.inTime
      rw [hp] at hdue
      simp only [readyAt, demand, hp] at hprompt
      simp only [landing, hprompt (by simp)]
      exact hdue.spaced f (mem_current_iff.mpr ⟨hf, hmove.symm⟩)
    · exact isChain_modifyHead h.chain fun _ _ h => h
    · exact h.chain
  · rw [speedOf_of_none (s.crowd.begun?_of_stepper r)]
    exact inTime_of_stepper hr h.inTime ha hprompt

/-- **Two steps of a move are the period apart, less what the first one is behind the timer**, but
at least a pulse, if the stepper is prompt. -/
theorem punctual_of_reaches (h : Reaches p clock catchup t s) (hprompt : Prompt t) :
    Punctual p t s := by
  induction h using Reaches.parties with
  | start h =>
    unfold Drive.ofPeriods at h
    cases hv : p.validate <;> rw [hv] at h <;> cases h
    exact ⟨.nil, trivial⟩
  | stepper h _ ha ih =>
    obtain ⟨hlast, hbefore⟩ := List.forall_mem_cons.mp hprompt
    refine (ih hbefore).stepper h ha fun hdemand => ?_
    simp only [isPrompt, Bool.or_eq_true, decide_eq_true_eq] at hlast
    exact hlast.resolve_left hdemand
  | @client t s s' instant a h _ ha ih =>
    have ih := ih (List.forall_mem_cons.mp hprompt).2
    have hs := Crowd.sound_of_reaches (reaches_crowd h)
    refine ⟨?_, ?_⟩
    · rw [footfalls_of_client ha]
      exact ih.chain
    · rw [latest, footfalls_of_client ha, ha.aside.stepper, pauseOf_of_client ha, ha.next]
      by_cases hp : s.crowd.drive.stepper.phase = .waiting
      · rw [hp]
        trivial
      · have hquiet := Crowd.begun?_of_busy hs hp a
        rw [movesOf_of_none hquiet, speedOf_of_none hquiet]
        exact ih.inTime

/-! ## The pace -/

/-- **Which steps are a period apart.** The last step of a move and the first one of the next always
are, whoever comes how late. In one move, if the stepper is prompt, two steps in a row are a period
apart exactly if the first one is not behind the timer, or a pulse takes that long. -/
theorem keeps_pace_iff (h : Reaches p clock catchup t s) :
    (footfalls t s).IsChain (fun later earlier => later.move ≠ earlier.move →
      earlier.rose + p.pace later.speed ≤ later.rose) ∧
    (Prompt t → (footfalls t s).IsChain fun later earlier => later.move = earlier.move →
      (earlier.rose + p.pace later.speed ≤ later.rose ↔
        earlier.lag = 0 ∨ p.pace later.speed ≤ Limits.pulseWidthUs)) := by
  refine ⟨(apart_of_reaches h).chain, fun hprompt => ?_⟩
  refine (punctual_of_reaches h hprompt).chain.imp fun later earlier hspace hmove => ?_
  have hspace := hspace hmove
  omega

/-- No step lags in a move that does not rest, if a period is long enough for a pulse. -/
theorem lag_of_unrested (h : Reaches p clock catchup t s)
    (hpace : ∀ v, Limits.pulseWidthUs ≤ p.pace v) {move : Nat}
    (hrest : ∀ f ∈ footfalls t s, f.move = move → f.pause = 0) :
    ∀ f ∈ footfalls t s, f.move = move → f.lag = 0 := by
  induction h using Reaches.parties with
  | start h => exact fun f hf => (by cases hf)
  | @stepper t s s' instant r h _ ha ih =>
    rw [footfalls_of_stepper h ha, nextSteps] at hrest ⊢
    split at hrest
    · obtain ⟨hfirst, hrest⟩ := List.forall_mem_cons.mp hrest
      refine List.forall_mem_cons.mpr ⟨fun hmove => ?_, ih hrest⟩
      cases hlast : current (movesOf t) (footfalls t s) with
      | none =>
        simp only [landing, hlast]
        exact hfirst hmove
      | some f =>
        obtain ⟨hf, hfmove⟩ := mem_current_iff.mp hlast
        have hlag := ih hrest f (List.mem_of_mem_head? hf) (hfmove.trans hmove)
        have hpace := hpace (speedOf t)
        rw [← (Crowd.rates_of_reaches (reaches_crowd h)).1] at hpace
        simp only [landing, hlast, lagAfter, hlag]
        exact caughtUp_zero hpace
    · have hrest := (forall_mem_modifyHead_iff fun f => by rfl).mp hrest
      refine (forall_mem_modifyHead_iff fun f => ?_).mpr (ih hrest)
      exact Iff.rfl
    · exact ih hrest
  | client h _ ha ih =>
    rw [footfalls_of_client ha] at hrest ⊢
    exact ih hrest

/-- **A move that does not rest keeps the pace**, if the stepper is prompt, and a period is long
enough for a pulse. -/
theorem keeps_pace_of_unrested (h : Reaches p clock catchup t s) (hprompt : Prompt t)
    (hmin : Limits.pulseWidthUs ≤ p.minUs) {move : Nat}
    (hrest : ∀ f ∈ footfalls t s, f.move = move → f.pause = 0) :
    (footfalls t s).IsChain fun later earlier =>
      later.move = move → earlier.rose + p.pace later.speed ≤ later.rose := by
  have hpace (v : Speed) : Limits.pulseWidthUs ≤ p.pace v :=
    Nat.le_trans hmin ((Crowd.valid_of_reaches (reaches_crowd h)).minUs_le_pace v)
  have hlag := lag_of_unrested h hpace hrest
  have hsame := (punctual_of_reaches h hprompt).chain
  have hother := (apart_of_reaches h).chain
  rw [List.isChain_iff_getElem] at hsame hother ⊢
  intro i hi hmove
  by_cases hearlier : (footfalls t s)[i + 1].move = move
  · have hspaced := hsame i hi (hmove.trans hearlier.symm)
    rw [hlag _ (List.getElem_mem _) hearlier, Nat.sub_zero] at hspaced
    omega
  · exact hother i hi fun heq => hearlier (heq.symm.trans hmove)

/-- The first step of a move down rests for 7502 microseconds after its tick, and the second one
follows as soon as the pulse is over. -/
def hurried : List (Nat × Action) :=
  thereAndBack ⟨1, 0⟩ 7502 ++ List.flatten [
    [(8252, .stepper .done)], List.replicate 2 (8254, .stepper .done),
    [(8254, .stepper (.cycles 8254)), (8254, .stepper (.ticked true))],
    List.replicate 3 (8254, .stepper .done)]

theorem steps_of_hurried :
    ∃ d t s, Drive.ofPeriods .standard 1 = .ok d ∧
      play? (act? ⟨1, 0⟩) [] ⟨⟨d, []⟩, 0, 0, .stopped .steady⟩ hurried = some (t, s) ∧
      Prompt t ∧
      footfalls t s = [⟨8254, false, 2, .fastest, 0, none, 0⟩,
        ⟨8252, false, 2, .fastest, 7502, some 8254, 7502⟩,
        ⟨250, true, 1, .fastest, 0, some 252, 0⟩] :=
  ⟨_, _, _, rfl, rfl, by decide, rfl⟩

theorem keeps_pace_iff_hurried :
    ∃ d t s, Drive.ofPeriods .standard 1 = .ok d ∧
      play? (act? ⟨1, 0⟩) [] ⟨⟨d, []⟩, 0, 0, .stopped .steady⟩ hurried = some (t, s) ∧
      Prompt t ∧ (footfalls t s).length = 3 ∧
      (footfalls t s).IsChain (fun later earlier => later.move ≠ earlier.move →
        earlier.rose + StepPeriods.standard.pace later.speed ≤ later.rose) ∧
      (footfalls t s).IsChain fun later earlier => later.move = earlier.move →
        (earlier.rose + StepPeriods.standard.pace later.speed ≤ later.rose ↔
          earlier.lag = 0 ∨ StepPeriods.standard.pace later.speed ≤ Limits.pulseWidthUs) := by
  obtain ⟨d, t, s, hd, hplay, hprompt, hsteps⟩ := steps_of_hurried
  have h := keeps_pace_iff
    (of_play? (P := Reaches .standard ⟨1, 0⟩ .steady) (fun _ _ _ _ => .act) hurried (.start hd)
      hplay)
  exact ⟨d, t, s, hd, hplay, hprompt, by rw [hsteps]; rfl, h.1, h.2 hprompt⟩

/-- A prompt stepper makes two steps of a move two microseconds apart, with a period of 250. -/
theorem exists_hasty :
    ∃ t s later earlier, Reaches .standard ⟨1, 0⟩ .steady t s ∧ Prompt t ∧
      (footfalls t s).take 2 = [later, earlier] ∧ later.move = earlier.move ∧
      later.rose = earlier.rose + 2 ∧ StepPeriods.standard.pace later.speed = 250 := by
  obtain ⟨d, t, s, hd, hplay, hprompt, hsteps⟩ := steps_of_hurried
  refine ⟨t, s, _, _, of_play? (fun _ _ _ _ => .act) hurried (.start hd) hplay, hprompt,
    by rw [hsteps]; rfl, ?_⟩
  exact ⟨rfl, rfl, rfl⟩

end Timed

end Drive

end SwitchBench
