import SwitchBench.Proofs.Drive.Turn

/-!
# One move at a time

The permit to move is in one place at a time: with `available`, with one call, with `begin`, with
the stepper or with `done`. Whoever has it knows the stage of the moves: a call that took it finds
no move open, the stepper has one under way or settled, and whoever reads the outcome reads that
of the settled move. `Crowd.Sound` says so, and every action of anybody keeps it.

Results: `Sound.act` (one action keeps the invariant), `sound_of_reaches` (every reachable state is
sound, at the stage its events come to) and `not_swallowed` (no semaphore is given a unit at its
limit).
-/

namespace SwitchBench

open Drive (MoveStage MoveEvent)

/-- What a call knows of the stage of the moves and of the outcome noted in the axis. -/
def MoveCall.Fits (g : MoveStage) (noted : MoveOutcome) : MoveCall → Prop
  | takingPermit _ | takingEnd _ => True
  | launching _ | announcing (.refused _) | givingPermit _ => g = .idle
  | announcing (.began _) => g.isFlying = true
  | announcing (.finished _) | readingOutcome => g = .settled noted

/-- What the stepper's next action tells of the stage and of the outcome noted in the axis. -/
def StepperPhase.Fits (g : MoveStage) (noted : MoveOutcome) : StepperPhase → Prop
  | waiting => True
  | stopping o | reporting o => g = .settled o
  | announcing => g = .settled noted
  | ended => False
  | _ => g.isFlying = true

theorem StepperPhase.fits_of_isFlying {p : StepperPhase} (h : p.isFlying = true) (g : MoveStage)
    (noted : MoveOutcome) : p.Fits g noted ↔ g.isFlying = true := by
  cases p <;> first | exact Iff.rfl | cases h

theorem StepperPhase.ne_waiting_of_isFlying {p : StepperPhase} (h : p.isFlying = true) :
    p ≠ .waiting := by
  rintro rfl
  cases h

theorem MoveCall.fits_of_not_holds {k : MoveCall} (h : k.holds = false) (g : MoveStage)
    (noted : MoveOutcome) : k.Fits g noted := by
  cases k with
  | takingPermit _ | takingEnd _ => trivial
  | _ => cases h

theorem MoveCall.not_holds_of_opens {k : MoveCall} (h : k.opens = true) : k.holds = false := by
  cases k with
  | takingPermit _ | takingEnd _ => rfl
  | _ => cases h

theorem Axis.outcome_powerOn (a : Axis) : a.powerOn.1.outcome = a.outcome := by
  rw [powerOn]
  split <;> rfl

namespace Drive

/-- One if the stepper has a move in hand. -/
def inHand (d : Drive) : Nat := if d.stepper.phase = .waiting then 0 else 1

namespace MoveStage

/-- The stage after an action that may have been an event. -/
def after (g : MoveStage) : Option MoveEvent → MoveStage
  | none => g
  | some e => g.next e

theorem ofEvents_append (e : Option MoveEvent) (past : List MoveEvent) :
    ofEvents (e.toList ++ past) = (ofEvents past).after e := by
  cases e <;> rfl

/-- Two stages between which nothing happened to a move but requests. -/
def Similar (g g' : MoveStage) : Prop := g' = g ∨ (g.isFlying = true ∧ g'.isFlying = true)

theorem Agrees.of_sameMove {g : MoveStage} {a b : Axis} (h : g.Agrees b) (ha : a.SameMove b) :
    g.Agrees a := by
  cases g with
  | idle | settled o => trivial
  | flying t l k =>
    obtain ⟨h1, h2, h3, h4⟩ := h
    refine ⟨ha.target.trans h1, ha.powerLost.trans h2, ha.aborted.trans h3, fun h0 => h4 ?_⟩
    rwa [Axis.isOff, ha.disable] at h0

theorem Agrees.powerOn {g : MoveStage} {a : Axis} (h : g.Agrees a) : g.Agrees a.powerOn.1 := by
  cases g with
  | idle | settled o => trivial
  | flying t l k =>
    obtain ⟨h1, h2, h3, h4⟩ := h
    rw [Axis.powerOn]
    split
    · exact ⟨h1, h2, h3, fun _ => h4 ‹_›⟩
    · exact ⟨h1, h2, h3, h4⟩

theorem similar_powerLost (g : MoveStage) : g.Similar (g.next .powerLost) := by
  cases g with
  | idle | settled o => exact .inl rfl
  | flying t l k => exact .inr ⟨rfl, rfl⟩

theorem similar_abortAsked (g : MoveStage) : g.Similar (g.next .abortAsked) := by
  cases g with
  | idle | settled o => exact .inl rfl
  | flying t l k => exact .inr ⟨rfl, rfl⟩

theorem Agrees.powerOff {g : MoveStage} {a : Axis} (h : g.Agrees a) (ha : ¬a.isOff = true) :
    (g.next .powerLost).Agrees a.powerOff.1 := by
  rw [Axis.powerOff, if_neg ha]
  cases g with
  | idle | settled o => trivial
  | flying t l k => exact ⟨h.1, rfl, h.2.2.1, fun _ => rfl⟩

theorem Agrees.abort {g : MoveStage} {a : Axis} (h : g.Agrees a) (ha : ¬a.isOff = true) :
    (g.next .abortAsked).Agrees a.abort.1 := by
  rw [Axis.abort, if_neg ha]
  cases g with
  | idle | settled o => trivial
  | flying t l k => exact ⟨h.1, h.2.1, rfl, fun h0 => absurd h0 ha⟩

/-- An order taken up with no move open fixes what the call that took it knows. -/
theorem fits_launch (a : Axis) (o : MoveOrder) :
    (idle.next (.launched a o (a.launch o).2)).Agrees (a.launch o).1 ∧
      (MoveCall.announcing (a.launch o).2).Fits (idle.next (.launched a o (a.launch o).2))
        (a.launch o).1.outcome := by
  rcases a.launch_cases o with ⟨-, he⟩ | ⟨-, -, he⟩ | ⟨-, -, he⟩ | ⟨hoff, t, -, -, he⟩ <;> rw [he]
  · exact ⟨trivial, rfl⟩
  · exact ⟨trivial, rfl⟩
  · exact ⟨trivial, rfl⟩
  · exact ⟨⟨rfl, rfl, rfl, fun h0 => absurd (hoff.symm.trans h0) Bool.false_ne_true⟩, rfl⟩

end MoveStage

namespace Crowd

/-- Everything the permit to move can be in, counted. -/
def permits (c : Crowd) : Nat :=
  c.drive.available.count + c.calls.countP MoveCall.holds + c.drive.begin.count + c.drive.inHand
    + c.drive.done.count

/-- The stage of the moves is known to whoever has the permit. -/
structure Sound (g : MoveStage) (c : Crowd) : Prop where
  running : c.drive.shutdown = false
  available_limit : c.drive.available.limit = 1
  begin_limit : c.drive.begin.limit = 1
  done_limit : c.drive.done.limit = 1
  permit : c.permits = 1
  agrees : g.Agrees c.drive.axis
  free : c.drive.available.count = 1 → g = .idle
  calls : ∀ k ∈ c.calls, k.Fits g c.drive.axis.outcome
  begun : c.drive.begin.count = 1 → g.isFlying = true
  stepper : c.drive.stepper.phase.Fits g c.drive.axis.outcome
  ended : c.drive.done.count = 1 → g = .settled c.drive.axis.outcome

variable {g : MoveStage} {c : Crowd}

/-! ## The stepper's actions -/

/-- With the stepper at work, the permit is nowhere else. -/
theorem Sound.alone (h : Sound g c) (hp : c.drive.stepper.phase ≠ .waiting) :
    c.drive.available.count = 0 ∧ c.calls.countP MoveCall.holds = 0 ∧ c.drive.begin.count = 0 ∧
      c.drive.done.count = 0 := by
  have := h.permit
  unfold permits inHand at this
  rw [if_neg hp] at this
  omega

/-- The stepper goes on with its move. -/
theorem Sound.onward (h : Sound g c) (hp : c.drive.stepper.phase ≠ .waiting) {g' : MoveStage}
    {d : Drive} (hr : d.shutdown = c.drive.shutdown) (ha : d.available = c.drive.available)
    (hb : d.begin = c.drive.begin) (hd : d.done = c.drive.done)
    (hp' : d.stepper.phase ≠ .waiting) (hg : g'.Agrees d.axis)
    (hf : d.stepper.phase.Fits g' d.axis.outcome) : Sound g' ⟨d, c.calls⟩ := by
  obtain ⟨h1, h2, h3, h4⟩ := h.alone hp
  refine ⟨hr.trans h.running, ?_, ?_, ?_, ?_, hg, ?_, ?_, ?_, hf, ?_⟩
  · rw [ha]; exact h.available_limit
  · rw [hb]; exact h.begin_limit
  · rw [hd]; exact h.done_limit
  · unfold permits inHand
    rw [if_neg hp', ha, hb, hd, h1, h2, h3, h4]
  · intro h0; rw [ha, h1] at h0; cases h0
  · intro k hk
    exact MoveCall.fits_of_not_holds (eq_zero_of_mem_countP h2 hk) _ _
  · intro h0; rw [hb, h3] at h0; cases h0
  · intro h0; rw [hd, h4] at h0; cases h0

/-- The stepper begins the move that it was given. -/
theorem Sound.wake (h : Sound g c) (hp : c.drive.stepper.phase = .waiting) {b : Semaphore}
    (hb : c.drive.begin.take? = some b) :
    Sound g { c with drive := { c.drive with begin := b, stepper.phase := .woken } } := by
  have h1 := Semaphore.count_of_take? hb
  have h2 := Semaphore.limit_of_take? hb
  have hw := h.permit
  simp only [permits, inHand, hp, if_true] at hw
  have hg := h.begun (by omega)
  refine ⟨h.running, h.available_limit, h2.trans h.begin_limit, h.done_limit, ?_, h.agrees,
    fun h0 => ?_, h.calls, fun _ => hg, hg, fun h0 => ?_⟩
  · simp only [permits, inHand]
    rw [if_neg (by simp)]
    omega
  · simp only at h0; omega
  · simp only at h0; omega

/-- The stepper announces the end of its move and waits for the next one. -/
theorem Sound.tell (h : Sound g c) (hp : c.drive.stepper.phase = .announcing) :
    Sound g { c with
      drive := { c.drive with done := c.drive.done.give, stepper.phase := .waiting } } := by
  obtain ⟨h1, h2, h3, h4⟩ := h.alone (by rw [hp]; simp)
  have hg := h.stepper
  rw [hp] at hg
  have hd : c.drive.done.give.count = 1 := Semaphore.count_give_of_empty h4
  refine ⟨h.running, h.available_limit, h.begin_limit, (Semaphore.limit_give _).trans h.done_limit,
    ?_, h.agrees, h.free, h.calls, h.begun, trivial, fun _ => hg⟩
  simp only [permits, inHand, if_true]
  omega

/-- Whatever the stepper does keeps the invariant. -/
theorem Sound.turn (h : Sound g c) {d : Drive} {e : Option MoveEvent} (ht : Turn c.drive d e) :
    Sound (g.after e) ⟨d, c.calls⟩ := by
  have hf := h.stepper
  cases ht with
  | same => exact h
  | wake hp hb => exact h.wake hp hb
  | fly hp hs ha he =>
    have hg : g.after e = g := by
      rcases he with rfl | ⟨up, rfl⟩
      · rfl
      · cases g <;> rfl
    rw [StepperPhase.fits_of_isFlying hp] at hf
    rw [hg]
    exact h.onward (StepperPhase.ne_waiting_of_isFlying hp) rfl rfl rfl rfl
      (StepperPhase.ne_waiting_of_isFlying hs) (h.agrees.of_sameMove ha)
      ((StepperPhase.fits_of_isFlying hs _ _).mpr hf)
  | @settle a o hp ha =>
    rw [hp] at hf
    have hg : g.after (some (.decided c.drive.axis (.finish o))) = .settled o := by
      cases g with
      | flying t l k => rfl
      | idle | settled o => cases hf
    rw [hg]
    exact h.onward (by rw [hp]; simp) rfl rfl rfl rfl (by simp) trivial rfl
  | fail hp =>
    rw [hp] at hf
    have hg : g.after (some .timerFailed) = .settled .aborted := by
      cases g with
      | flying t l k => rfl
      | idle | settled o => cases hf
    rw [hg]
    exact h.onward (by rw [hp]; simp) rfl rfl rfl rfl (by simp) trivial rfl
  | rest hp =>
    rw [hp] at hf
    exact h.onward (by rw [hp]; simp) rfl rfl rfl rfl (by simp) h.agrees hf
  | note hp =>
    rw [hp] at hf
    refine h.onward (by rw [hp]; simp) rfl rfl rfl rfl (by simp) ?_ hf
    rw [show g = .settled _ from hf]
    trivial
  | tell hp => exact h.tell hp

/-! ## Requests -/

/-- A request, to switch the power or to stop, changes no more than what is known of a move that
is under way. -/
theorem Sound.request (h : Sound g c) {g' : MoveStage} {a : Axis} (hg : g.Similar g')
    (ho : a.outcome = c.drive.axis.outcome) (ha : g'.Agrees a) :
    Sound g' { c with drive := { c.drive with axis := a } } := by
  rcases hg with rfl | ⟨hg, hg'⟩
  · exact ⟨h.running, h.available_limit, h.begin_limit, h.done_limit, h.permit, ha, h.free,
      by simpa only [ho] using h.calls, h.begun, by simpa only [ho] using h.stepper,
      by simpa only [ho] using h.ended⟩
  have hi : ∀ {o}, g ≠ .idle ∧ g ≠ .settled o := by
    intro o
    constructor <;> rintro rfl <;> cases hg
  refine ⟨h.running, h.available_limit, h.begin_limit, h.done_limit, h.permit, ha,
    fun h0 => absurd (h.free h0) (hi (o := .ok)).1, fun k hk => ?_, fun _ => hg', ?_,
    fun h0 => absurd (h.ended h0) hi.2⟩
  · have hk := h.calls k hk
    cases k with
    | takingPermit _ | takingEnd _ => trivial
    | launching _ | givingPermit _ => exact absurd hk (hi (o := .ok)).1
    | readingOutcome => exact absurd hk hi.2
    | announcing l =>
      cases l with
      | began t => exact hg'
      | finished o => exact absurd hk hi.2
      | refused f => exact absurd hk (hi (o := .ok)).1
  · have hs := h.stepper
    cases hp : c.drive.stepper.phase <;> rw [hp] at hs <;>
      first | trivial | exact hg' | exact absurd hs hi.2

theorem Sound.powerOn (h : Sound g c) : Sound g { c with drive := c.drive.powerOn.1 } :=
  h.request (.inl rfl) (Axis.outcome_powerOn _) h.agrees.powerOn

theorem Sound.powerOff (h : Sound g c) :
    Sound (g.after (c.event? .powerOff)) { c with drive := c.drive.powerOff.1 } := by
  by_cases hoff : c.drive.axis.isOff = true
  · have h1 : c.drive.axis.powerOff = (c.drive.axis, false) := by
      rw [Axis.powerOff, if_pos hoff]
    simp only [event?, Drive.powerOff, h1, Bool.false_eq_true, if_false]
    exact h
  · have h1 : c.drive.axis.powerOff.2 = true := by rw [Axis.powerOff, if_neg hoff]
    simp only [event?, Drive.powerOff, h1, if_true]
    exact h.request (MoveStage.similar_powerLost g) (by rw [Axis.powerOff, if_neg hoff])
      (h.agrees.powerOff hoff)

theorem Sound.abort (h : Sound g c) :
    Sound (g.after (c.event? .abort)) { c with drive := c.drive.abort.1 } := by
  by_cases hoff : c.drive.axis.isOff = true
  · have h1 : c.drive.axis.abort = (c.drive.axis, false) := by rw [Axis.abort, if_pos hoff]
    simp only [event?, Drive.abort, h1, Bool.false_eq_true, if_false]
    exact h
  · have h1 : c.drive.axis.abort.2 = true := by rw [Axis.abort, if_neg hoff]
    simp only [event?, Drive.abort, h1, if_true]
    exact h.request (MoveStage.similar_abortAsked g) (by rw [Axis.abort, if_neg hoff])
      (h.agrees.abort hoff)

/-! ## Calls -/

/-- A call that waits leaves, or one that will have to wait comes. -/
theorem Sound.waiters (h : Sound g c) {calls : List MoveCall}
    (hc : calls.countP MoveCall.holds = c.calls.countP MoveCall.holds)
    (hk : ∀ k ∈ calls, k ∈ c.calls ∨ k.holds = false) : Sound g { c with calls := calls } := by
  refine ⟨h.running, h.available_limit, h.begin_limit, h.done_limit, ?_, h.agrees, h.free,
    fun k hm => ?_, h.begun, h.stepper, h.ended⟩
  · have := h.permit
    simp only [permits] at this ⊢
    omega
  · rcases hk k hm with hm | hw
    · exact h.calls k hm
    · exact MoveCall.fits_of_not_holds hw _ _

/-- The permit goes to or comes from a call: nobody else has it before or after. -/
theorem Sound.pass (h : Sound g c) {i : Nat} {k : MoveCall} {next : Option MoveCall}
    (hi : c.calls[i]? = some k) {d : Drive} {g' : MoveStage}
    (hone : c.calls.countP MoveCall.holds = k.holds.toNat)
    (hp : c.drive.stepper.phase = .waiting) (hs : d.stepper = c.drive.stepper)
    (hr : d.shutdown = c.drive.shutdown) (ha : d.available.limit = c.drive.available.limit)
    (hb : d.begin.limit = c.drive.begin.limit) (hd : d.done.limit = c.drive.done.limit)
    (hn : d.available.count + next.toList.countP MoveCall.holds + d.begin.count + d.done.count = 1)
    (hg : g'.Agrees d.axis) (hfree : d.available.count = 1 → g' = .idle)
    (hnext : ∀ k' ∈ next, k'.Fits g' d.axis.outcome)
    (hbegun : d.begin.count = 1 → g'.isFlying = true)
    (hended : d.done.count = 1 → g' = .settled d.axis.outcome) :
    Sound g' ⟨d, putAt c.calls i next⟩ := by
  have hcount := countP_putAt hi MoveCall.holds next
  refine ⟨hr.trans h.running, ha.trans h.available_limit, hb.trans h.begin_limit,
    hd.trans h.done_limit, ?_, hg, hfree, fun k' hk' => ?_, hbegun, ?_, hended⟩
  · simp only [permits, inHand, hs, hp, if_true]
    omega
  · rcases mem_putAt_of_alone hi hone hk' with hk' | hk'
    · exact hnext k' hk'
    · exact MoveCall.fits_of_not_holds hk' _ _
  · rw [hs, hp]
    trivial

/-- With a call that has the permit, nobody else has it. -/
theorem Sound.only (h : Sound g c) {i : Nat} {k : MoveCall} (hi : c.calls[i]? = some k)
    (hk : k.holds = true) :
    c.drive.available.count = 0 ∧ c.calls.countP MoveCall.holds = 1 ∧ c.drive.begin.count = 0 ∧
      c.drive.stepper.phase = .waiting ∧ c.drive.done.count = 0 := by
  have hpos : 0 < c.calls.countP MoveCall.holds :=
    List.countP_pos_iff.mpr ⟨k, List.mem_of_getElem? hi, hk⟩
  have := h.permit
  unfold permits inHand at this
  by_cases hp : c.drive.stepper.phase = .waiting
  · rw [if_pos hp] at this
    exact ⟨by omega, by omega, by omega, hp, by omega⟩
  · rw [if_neg hp] at this
    omega

/-- The permit, the order or the end of a move is taken. -/
theorem Sound.take (h : Sound g c) {i : Nat} {k k' : MoveCall} (hi : c.calls[i]? = some k)
    (hk : k.holds = false) (hk' : k'.holds = true) {d : Drive} (hs : d.stepper = c.drive.stepper)
    (hr : d.shutdown = c.drive.shutdown) (hx : d.axis = c.drive.axis)
    (ha : d.available.limit = c.drive.available.limit) (hb : d.begin = c.drive.begin)
    (hd : d.done.limit = c.drive.done.limit)
    (hn : d.available.count + d.done.count + 1 = c.drive.available.count + c.drive.done.count)
    (hf : k'.Fits g c.drive.axis.outcome) : Sound g ⟨d, putAt c.calls i (some k')⟩ := by
  have hpermit := h.permit
  unfold permits inHand at hpermit
  split at hpermit
  case isFalse => omega
  case isTrue hp =>
    have hone : c.calls.countP MoveCall.holds = k.holds.toNat := by rw [hk, Bool.toNat_false]; omega
    refine h.pass hi hone hp hs hr ha (by rw [hb]) hd ?_ (by rw [hx]; exact h.agrees)
      (fun h0 => by omega) (fun k'' hk'' => ?_) (fun h0 => ?_) (fun h0 => by omega)
    · rw [Option.toList_some, List.countP_singleton, if_pos hk', hb]; omega
    · cases hk''; rw [hx]; exact hf
    · rw [hb] at h0; omega

theorem Sound.giveBegin (h : Sound g c) {i : Nat} {k : MoveCall} (hi : c.calls[i]? = some k)
    (hk : k.holds = true) (hg : g.isFlying = true) :
    Sound g ⟨{ c.drive with begin := c.drive.begin.give }, putAt c.calls i none⟩ := by
  obtain ⟨h1, h2, h3, h4, h5⟩ := h.only hi hk
  have hb : c.drive.begin.give.count = 1 := Semaphore.count_give_of_empty h3
  refine h.pass hi (by rw [h2, hk]; rfl) h4 rfl rfl rfl (Semaphore.limit_give _) rfl ?_ h.agrees
    h.free (fun k hk => by cases hk) (fun _ => hg) h.ended
  simp only [h1, hb, h5]
  rfl

theorem Sound.giveDone (h : Sound g c) {i : Nat} {k : MoveCall} (hi : c.calls[i]? = some k)
    (hk : k.holds = true) (hg : g = .settled c.drive.axis.outcome) :
    Sound g ⟨{ c.drive with done := c.drive.done.give }, putAt c.calls i none⟩ := by
  obtain ⟨h1, h2, h3, h4, h5⟩ := h.only hi hk
  have hd : c.drive.done.give.count = 1 := Semaphore.count_give_of_empty h5
  refine h.pass hi (by rw [h2, hk]; rfl) h4 rfl rfl rfl rfl (Semaphore.limit_give _) ?_ h.agrees
    h.free (fun k hk => by cases hk) h.begun (fun _ => hg)
  simp only [h1, h3, hd]
  rfl

theorem Sound.giveAvailable (h : Sound g c) {i : Nat} {k : MoveCall} (hi : c.calls[i]? = some k)
    (hk : k.holds = true) (hg : g = .idle) :
    Sound g ⟨{ c.drive with available := c.drive.available.give }, putAt c.calls i none⟩ := by
  obtain ⟨h1, h2, h3, h4, h5⟩ := h.only hi hk
  have ha : c.drive.available.give.count = 1 := Semaphore.count_give_of_empty h1
  refine h.pass hi (by rw [h2, hk]; rfl) h4 rfl rfl (Semaphore.limit_give _) rfl rfl ?_ h.agrees
    (fun _ => hg) (fun k hk => by cases hk) h.begun h.ended
  simp only [ha, h3, h5]
  rfl

theorem Sound.proceed (h : Sound g c) {i : Nat} {k : MoveCall} {d : Drive} {next : Option MoveCall}
    (hi : c.calls[i]? = some k) (hs : k.step? c.drive = some (d, next)) :
    Sound (g.after (c.event? (.proceed i))) ⟨d, putAt c.calls i next⟩ := by
  have hfits := h.calls k (List.mem_of_getElem? hi)
  cases k with
  | takingPermit o =>
    simp only [MoveCall.step?, Drive.takePermit?, Option.map_map, Option.map_eq_some_iff] at hs
    obtain ⟨s, hs, he⟩ := hs
    cases he
    have h1 := Semaphore.count_of_take? hs
    have h2 := Semaphore.limit_of_take? hs
    have hg : g = .idle := by
      have := h.permit
      unfold permits at this
      exact h.free (by omega)
    simp only [event?, hi, MoveStage.after]
    exact h.take hi rfl rfl rfl rfl rfl h2 rfl rfl (by simp only; omega) hg
  | takingEnd p =>
    simp only [MoveCall.step?, Drive.takeDone?, Option.map_map, Option.map_eq_some_iff] at hs
    obtain ⟨s, hs, he⟩ := hs
    cases he
    have h1 := Semaphore.count_of_take? hs
    have h2 := Semaphore.limit_of_take? hs
    have hg : g = .settled c.drive.axis.outcome := by
      have := h.permit
      unfold permits at this
      exact h.ended (by omega)
    simp only [event?, hi, MoveStage.after]
    exact h.take hi rfl rfl rfl rfl rfl rfl rfl h2 (by simp only; omega) hg
  | launching o =>
    cases hs
    obtain ⟨h1, h2, h3, h4, h5⟩ := h.only hi rfl
    rw [show g = .idle from hfits]
    obtain ⟨hg, hf⟩ := MoveStage.fits_launch c.drive.axis o
    simp only [event?, hi, MoveStage.after]
    refine h.pass hi h2 h4 rfl rfl rfl rfl rfl ?_ hg (fun h0 => ?_) (fun k hk => ?_)
      (fun h0 => ?_) (fun h0 => ?_)
    · simp only [launch, h1, h3, h5]; rfl
    · simp only [launch] at h0; omega
    · cases hk; exact hf
    · simp only [launch] at h0; omega
    · simp only [launch] at h0; omega
  | announcing l =>
    cases hs
    simp only [event?, hi, MoveStage.after]
    cases l with
    | began t => exact h.giveBegin hi rfl hfits
    | finished o => exact h.giveDone hi rfl hfits
    | refused f => exact h.giveAvailable hi rfl hfits
  | readingOutcome =>
    cases hs
    obtain ⟨h1, h2, h3, h4, h5⟩ := h.only hi rfl
    simp only [event?, hi, MoveStage.after]
    refine h.pass hi h2 h4 rfl rfl rfl rfl rfl ?_ trivial (fun _ => rfl) (fun k hk => ?_)
      (fun h0 => by omega) (fun h0 => by omega)
    · simp [MoveCall.holds, h1, h3, h5]
    · cases hk; rfl
  | givingPermit o =>
    cases hs
    simp only [event?, hi, MoveStage.after]
    exact h.giveAvailable hi rfl hfits

/-! ## Every action -/

/-- **One action of anybody keeps the invariant.** -/
theorem Sound.act (h : Sound g c) {a : Action} {c' : Crowd} (ha : c.act? a = some c') :
    Sound (g.after (c.event? a)) c' := by
  cases a with
  | stepper r =>
    cases ha
    exact h.turn (turn_resume h.running r)
  | powerOn =>
    cases ha
    exact h.powerOn
  | powerOff =>
    cases ha
    exact h.powerOff
  | abort =>
    cases ha
    exact h.abort
  | locate =>
    cases ha
    exact h
  | enter k =>
    obtain ⟨hk, rfl⟩ := enter_of_act ha
    have hw := MoveCall.not_holds_of_opens hk
    refine h.waiters ?_ fun k' hk' => ?_
    · rw [List.countP_append, List.countP_singleton, hw]
      rfl
    · rcases List.mem_append.mp hk' with hk' | hk'
      · exact Or.inl hk'
      · rw [List.mem_singleton.mp hk']
        exact Or.inr hw
  | proceed i =>
    obtain ⟨k, d, next, hi, hs, rfl⟩ := proceed_of_act ha
    exact h.proceed hi hs
  | giveUp i =>
    obtain ⟨p, hi, -, rfl⟩ := giveUp_of_act ha
    have hc := countP_putAt hi MoveCall.holds none
    refine h.waiters ?_ fun k hk => ?_
    · simpa [MoveCall.holds] using hc
    · rcases mem_putAt hk with hk | hk
      · exact Or.inl hk
      · cases hk

theorem sound_start {p : StepPeriods} {rate : Nat} {d : Drive}
    (h : Drive.ofPeriods p rate = .ok d) : Sound .idle ⟨d, []⟩ := by
  unfold Drive.ofPeriods at h
  cases hv : p.validate <;> rw [hv] at h
  · cases h
  · cases h
    exact ⟨rfl, rfl, rfl, rfl, rfl, trivial, fun _ => rfl, fun k hk => (List.not_mem_nil hk).elim,
      nofun, trivial, nofun⟩

/-- **Every reachable state is sound, at the stage that its events come to.** -/
theorem sound_of_reaches {p : StepPeriods} {rate : Nat} {t : Trace} {c : Crowd}
    (h : Reaches p rate t c) : Sound (MoveStage.ofEvents (events t)) c := by
  induction h with
  | start h => exact sound_start h
  | act h ha ih =>
    rw [events_cons, MoveStage.ofEvents_append]
    exact ih.act ha

/-- Nobody gives a unit to a semaphore at its limit. -/
theorem Sound.not_swallowed (h : Sound g c) {a : Action} {s : Semaphore}
    (hs : s ∈ c.receivers a) : s.count < s.limit := by
  cases a with
  | stepper r =>
    cases r with
    | done =>
      simp only [receivers, List.mem_ite_nil_right, List.mem_singleton] at hs
      obtain ⟨hp, rfl⟩ := hs
      obtain ⟨-, -, -, h4⟩ := h.alone (by rw [hp]; simp)
      rw [h4, h.done_limit]
      decide
    | ticked _ | cycles _ => exact (List.not_mem_nil hs).elim
  | proceed i =>
    simp only [receivers] at hs
    split at hs
    case h_5 => exact (List.not_mem_nil hs).elim
    all_goals
      rename_i hi
      obtain ⟨h1, h2, h3, h4, h5⟩ := h.only hi rfl
      rw [List.mem_singleton.mp hs]
      first
        | (rw [h3, h.begin_limit]; decide)
        | (rw [h5, h.done_limit]; decide)
        | (rw [h1, h.available_limit]; decide)
  | _ => exact (List.not_mem_nil hs).elim

end Crowd

end Drive

end SwitchBench
