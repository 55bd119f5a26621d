import SwitchBench.Proofs.Sampling.Landing

/-!
# Where the move of a sample goes

A sample that is entered with the power on and the plunger elsewhere launches a move to its target,
as nobody else moves the plunger before that. The stepper decides that a move has ended well only
where it was to go, and the plunger stays there until the sample has collected the move: `Headed`
says so, of a sample that is bound for its target and away from it. Only a drive with a move under
way steps.

Results: `Headed.act` (one action keeps where the move goes, unless it switches the power),
`Headed.lands` (a move comes to a good end where it was to go), `Sound.pulses_eq_false` (with no
move under way nothing steps).
-/

namespace SwitchBench

open Drive (MoveStage MoveEvent)

/-- A sampler whose move is unlaunched has not launched it before. -/
theorem Sampler.Turn.isUnlaunched {now : Nat} {r r' : Rig} {s s' : Sampler}
    (h : Sampler.Turn now r s r' s') (hu : s'.phase.isUnlaunched = true) :
    s.phase.isUnlaunched = true := by
  have hnext : ∀ {x : Sampler} {q : SamplerPhase}, x.Next q → q.isUnlaunched = false := by
    intro x q hn
    have hearly := hn.not_early
    cases q <;> first | rfl | cases hearly
  cases h with
  | seek hp | takeRecorder hp _ | arm hp | takeDrive hp _ => rw [hp]; rfl
  | @announce l q hp hn =>
    rw [hn] at hu
    cases l <;> cases hu
  | look hp hn | tell hp hn | freeRecorder hp _ hn =>
    exact absurd ((hnext hn).symm.trans hu) (by simp)
  | @cut q hp hn =>
    split at hn
    · have hu' : q.isUnlaunched = true := hu
      cases q <;> first | (cases hn; done) | cases hu'
    · exact absurd ((hnext hn).symm.trans hu) (by simp)
  | @freeDrive k q hp hn =>
    split at hn
    · rw [hn] at hu
      cases hu
    · exact absurd ((hnext hn).symm.trans hu) (by simp)
  | _ => cases hu

namespace Crew

variable {g : MoveStage} {c c' : Crew} {a : Action}

/-- A sample that is bound for its target launches a move there, as the plunger is elsewhere. -/
structure Headed (g : MoveStage) (d : Drive) (s : Sampler) : Prop extends Bound g d s where
  away : s.phase.isUnlaunched = true → s.order.target ≠ d.axis.position

/-- The stepper leaves a sample headed for its target. -/
theorem Headed.resume (hh : Headed g c.rig.drive c.sampler) (h : Sound g c) (hq : Tidy g c)
    (r : Reply) :
    Headed (g.after (c.event? (.drive (.stepper r)))) (c.rig.drive.resume r) c.sampler where
  toBound := hh.toBound.resume h hq r
  away hp := by
    have hidle := h.idle hq (.inl hp)
    rw [(h.still (hidle ▸ rfl) r).2]
    exact hh.away hp

/-- A sample that is away from its target does not end well at once. -/
theorem Headed.not_ok_of_locating (hh : Headed g c.rig.drive c.sampler)
    (hp : c.sampler.phase = .locating) {r : Rig} {s : Sampler} {note : Option SampleNote}
    (hs : c.sampler.step c.now c.rig = some (r, s, note)) : s.phase ≠ .finished .ok := by
  have haway := hh.away (by rw [hp]; rfl)
  simp only [Sampler.step, hp] at hs
  split_ifs at hs with hv ht <;> cases hs
  · exact absurd (ht.trans hh.locate_eq) haway
  · simp [Sampler.goto]
  · simp [Sampler.goto]

/-- The order of a sample that is away from its target begins a move there. -/
theorem Headed.launch (hh : Headed g c.rig.drive c.sampler) (hp : c.sampler.phase = .launching) :
    (c.rig.drive.launch c.sampler.moveOrder).2 = .began c.sampler.order.target :=
  hh.toBound.launch.resolve_right fun h => hh.away (by rw [hp]; rfl) h.2.symm

/-- The sampler's own action leaves its sample headed for its target. -/
theorem Headed.step (hh : Headed g c.rig.drive c.sampler) (h : Sound g c) {r : Rig} {s : Sampler}
    {note : Option SampleNote} (hs : c.sampler.step c.now c.rig = some (r, s, note)) :
    Headed (g.after (c.event? .sampler)) r.drive s where
  toBound := hh.toBound.step h hs
  away hp := by
    have hturn := Sampler.turn_of_step hs
    rw [hturn.order, hturn.samePlace.2]
    exact hh.away (hturn.isUnlaunched hp)

/-- **One action of anybody leaves a sample headed for its target**, unless it switches the power.
-/
theorem Headed.act (hh : Headed g c.rig.drive c.sampler) (h : Sound g c) (hq : Tidy g c)
    (ha : c.act? a = some c') (hp : a.isSwitch = false) :
    Headed (g.after (c.event? a)) c'.rig.drive c'.sampler where
  toBound := hh.toBound.act h hq ha hp
  away hu := by
    cases turn_of_act ha with
    | @drive a x hk hx =>
      cases a with
      | stepper r =>
        cases hx
        exact (hh.resume h hq r).away hu
      | abort =>
        cases hx
        have hsame : (c.rig.drive.abort.1).axis.position = c.rig.drive.axis.position := by
          simp only [Drive.abort, Axis.abort]
          split <;> rfl
        show c.sampler.order.target ≠ (c.rig.drive.abort.1).axis.position
        rw [hsame]
        exact hh.away hu
      | locate =>
        cases hx
        exact hh.away hu
      | powerOn | powerOff => cases hp
      | enter _ | proceed _ | giveUp _ => cases hk
    | recorder _ _ | send _ => exact hh.away hu
    | sampler hs => exact (hh.step h hs).away hu

/-- Does an action decide that a move has ended well, with the power on and the plunger at a place?
-/
def Lands (place : Int) (x : Crew × Action) : Prop :=
  ∃ b, x.1.event? x.2 = some (.decided b (.finish .ok)) ∧ b.position = place ∧ b.isOff = false

/-- The sampler does not end a move well. -/
theorem Headed.not_settled_of_sampler (hh : Headed g c.rig.drive c.sampler)
    (hend : g.after (c.event? .sampler) = .settled .ok) : g = .settled .ok := by
  simp only [event?_sampler] at hend
  split at hend
  · rename_i hp
    rw [hh.launch hp] at hend
    cases hend
  · cases hend
  · split at hend
    · cases g <;> first | exact hend | cases hend
    · exact hend
  · exact hend

/-- The stepper ends one well only where it was to go. -/
theorem Headed.lands_of_decide (hh : Headed g c.rig.drive c.sampler) {r : Reply} {b : Axis}
    {d : Decision} (ha : g.Allows (.decided b d))
    (he : c.event? (.drive (.stepper r)) = some (.decided b d))
    (hend : g.next (.decided b d) = .settled .ok) :
    Lands c.sampler.order.target (c, .drive (.stepper r)) := by
  obtain ⟨hf, hagrees, hd⟩ := ha
  obtain ⟨x, l, k, rfl⟩ : ∃ x l k, g = .flying x l k := by
    cases g with
    | idle | settled o => cases hf
    | flying x l k => exact ⟨x, l, k, rfl⟩
  cases d with
  | step up => cases hend
  | finish o =>
    cases hend
    refine ⟨b, he, ?_⟩
    unfold Axis.decide at hd
    split_ifs at hd with h1 h2 h3 <;> cases hd
    rw [Bool.or_eq_true_iff, not_or] at h1
    exact ⟨h3.trans (hagrees.1.trans (hh.flying x l k rfl)), eq_false_of_ne_true h1.1⟩

/-- **A move to the target of a sample only comes to a good end where it lands.** -/
theorem Headed.lands (hh : Headed g c.rig.drive c.sampler) (h : Sound g c)
    (ha : c.act? a = some c') (hend : g.after (c.event? a) = .settled .ok) :
    g = .settled .ok ∨ Lands c.sampler.order.target (c, a) := by
  cases turn_of_act ha with
  | recorder _ _ | send _ => exact .inl hend
  | sampler _ => exact .inl (hh.not_settled_of_sampler hend)
  | @drive a x hb _ =>
    cases a with
    | powerOn | locate => exact .inl hend
    | powerOff | abort =>
      refine .inl ?_
      simp only [event?, Drive.Crowd.event?] at hend
      split at hend
      · cases g <;> first | exact hend | cases hend
      · exact hend
    | enter _ | proceed _ | giveUp _ => cases hb
    | stepper r =>
      cases he : c.event? (.drive (.stepper r)) with
      | none =>
        rw [he] at hend
        exact .inl hend
      | some e =>
        have hallows := allows_of_event? h he
        rw [he] at hend
        cases e with
        | decided b d => exact .inr (hh.lands_of_decide hallows he hend)
        | timerFailed => cases g <;> first | exact .inl hend | cases hend
        | launched _ _ _ | powerLost | abortAsked | collected _ =>
          simp only [event?, Drive.Crowd.event?] at he
          split at he <;> cases he

/-- A sample only collects the good end of a move that has come to one. -/
theorem Sound.settled_of_moveEnd (h : Sound g c) (ha : c.act? a = some c')
    (hm : c'.sampler.moveEnd = some .ok) : c.sampler.moveEnd = some .ok ∨ g = .settled .ok := by
  by_cases hne : a = .sampler
  · subst hne
    obtain ⟨r, s, note, hs, rfl⟩ := step_of_act ha
    cases Sampler.turn_of_step hs with
    | readMove hp =>
      refine .inr ?_
      have hfits := h.drive.calls .readingOutcome (by simp [driveCrowd, Sampler.moveCall, hp])
      rw [← Option.some.inj hm]
      exact hfits
    | _ => exact .inl hm
  · rw [(h.frame ha hne).1] at hm
    exact .inl hm

/-- With no move under way nothing steps. -/
theorem Sound.pulses_eq_false (h : Sound g c) (hg : g.isFlying = false) (r : Reply) :
    Drive.pulses c.rig.drive (c.rig.drive.resume r) = false :=
  (Drive.stride_resume c.rig.drive r).pulses_eq_false (h.not_flying hg)

end Crew

end SwitchBench
