import Mathlib.Data.List.Chain
import SwitchBench.Proofs.Drive.Footfalls

/-!
# Reversals

Before a step that goes the other way than the last one the stepper reads the cycle counter, and
rests for what is left of the turnaround of its move. What it knows of the last step at each of its
actions is `Stepper.Rested`: the reading after it is remembered until the next step, and once the
rest is over, the turnaround has passed since that reading. The counter may have wrapped around any
number of times, as it tells of too little time then, or of none.

Results: `Rested.beat` (what the stepper does keeps what it knows), `reversals_rest` (any two steps
in opposite directions are the turnaround apart, and no rest is longer than it).
-/

namespace SwitchBench

/-- Is the rest before a step that way over at an instant? -/
def RestedBy (instant restUs : Nat) (up : Bool) (steps : List Footfall) : Prop :=
  ∀ f ∈ steps.head?, f.up ≠ up → ∃ r, f.read = some r ∧ r + restUs ≤ instant

namespace Stepper

/-- Does the stepper remember the last step, and the cycle counter after it? -/
def Marked (clock : CycleClock) (since : Nat) (st : Stepper) : List Footfall → Prop
  | [] => st.last = none
  | f :: _ => ∃ r, f.read = some r ∧ r ≤ since ∧ st.last = some ⟨f.up, clock.cyclesAt r⟩

/-- What the stepper knows of the steps so far, and of the rest it made last. -/
def Rested (clock : CycleClock) (steps : List Footfall) (pause since : Nat) (st : Stepper) :
    Prop :=
  match st.phase with
  | .advancing up | .holding up | .lowering up | .marking up => ∃ f ∈ steps.head?, f.up = up
  | .resting up us =>
    st.Marked clock since steps ∧ us ≤ st.restUs ∧ RestedBy (since + us) st.restUs up steps
  | .raising up =>
    st.Marked clock since steps ∧ pause ≤ st.restUs ∧ RestedBy since st.restUs up steps
  | _ => st.Marked clock since steps

variable {clock : CycleClock} {steps : List Footfall} {st st' : Stepper}
  {since since' instant restUs : Nat} {up : Bool}

theorem Marked.mono (h : st.Marked clock since steps) (hl : st'.last = st.last)
    (hs : since ≤ since') : st'.Marked clock since' steps := by
  cases steps with
  | nil => exact hl.trans h
  | cons f l =>
    obtain ⟨r, hr, hle, hlast⟩ := h
    exact ⟨r, hr, Nat.le_trans hle hs, hl.trans hlast⟩

/-- The stepper remembers a step that was made. -/
theorem Marked.of_head (h : st.Marked clock since steps) {f : Footfall} (hf : f ∈ steps.head?) :
    ∃ r, f.read = some r ∧ r ≤ since ∧ st.last = some ⟨f.up, clock.cyclesAt r⟩ := by
  cases steps with
  | nil => cases hf
  | cons f' l =>
    cases hf
    exact h

/-- A step the way of the last one needs no rest, nor does the first one. -/
theorem Marked.restedBy_of_last (h : st.Marked clock since steps)
    (hl : ∀ l, st.last = some l → l.up = up) : RestedBy instant restUs up steps := by
  intro f hf hne
  obtain ⟨r, -, -, hlast⟩ := h.of_head hf
  exact absurd (hl _ hlast) hne

/-- Resting for what the cycle counter leaves of the rest is resting long enough. -/
theorem Marked.restedBy_of_gauge (h : st.Marked clock since steps) (hs : since ≤ instant) :
    RestedBy (instant + remainingRest restUs (st.last.bind fun l =>
      CycleClock.elapsedUs clock.rate l.cycles (clock.cyclesAt instant))) restUs up steps := by
  intro f hf hne
  obtain ⟨r, hr, hle, hlast⟩ := h.of_head hf
  refine ⟨r, hr, ?_⟩
  rw [hlast, Option.bind_some]
  cases he : CycleClock.elapsedUs clock.rate (clock.cyclesAt r) (clock.cyclesAt instant) with
  | none =>
    simp only [remainingRest]
    omega
  | some e =>
    have hpassed := clock.elapsedUs_le (Nat.le_trans hle hs) he
    simp only [remainingRest]
    omega

end Stepper

namespace Drive

namespace Timed

variable {p : StepPeriods} {clock : CycleClock} {catchup : Catchup} {t : Trace} {s s' : Timed}
  {instant : Nat} {a : Action} {r : Reply}

/-- **Whatever the stepper does keeps what it knows of the steps so far.** -/
theorem rested_of_stepper (hr : Reaches p clock catchup t s)
    (h : s.crowd.drive.stepper.Rested clock (footfalls t s) (pauseOf t) s.since)
    (ha : s.StepperActs clock instant r s') :
    s'.crowd.drive.stepper.Rested clock (footfalls ((s, (instant, .stepper r)) :: t) s')
      (pauseOf ((s, (instant, .stepper r)) :: t)) s'.since := by
  have hs := Crowd.sound_of_reaches (reaches_crowd hr)
  obtain ⟨-, hrate, -⟩ := Crowd.rates_of_reaches (reaches_crowd hr)
  have hsince := ha.since_le
  have hb := beat_resume hs.running ha.heeds
  rw [footfalls_of_stepper hr ha]
  obtain ⟨hready, -, hgives, rfl⟩ := ha
  simp only [nextSteps, pauseOf]
  generalize s.crowd.drive.resume r = d at hb ⊢
  unfold Stepper.Rested at h
  cases hb with
  | wake hp | enter hp | load hp | start hp | tick hp | fail hp | look hp | finish hp | halt hp
    | report hp | tell hp =>
    rw [hp] at h ⊢
    exact h.mono rfl hsince
  | @aim b up hp hd =>
    rw [hp] at h ⊢
    have hmarked : s.crowd.drive.stepper.Marked clock instant (footfalls t s) := h.mono rfl hsince
    rcases stepPhase_cases s.crowd.drive.stepper.last up with ⟨hphase, hlast⟩ | ⟨hphase, -⟩
    · simp only [Stepper.Rested, hphase]
      exact ⟨hmarked, Nat.zero_le _, hmarked.restedBy_of_last hlast⟩
    · simp only [Stepper.Rested, hphase]
      exact hmarked
  | @gauge up n hp =>
    rw [hp] at h ⊢
    have hmarked : s.crowd.drive.stepper.Marked clock instant (footfalls t s) := h.mono rfl hsince
    have hn : n = clock.cyclesAt instant := of_decide_eq_true hgives
    have hrested : RestedBy _ s.crowd.drive.stepper.restUs up _ := h.restedBy_of_gauge hsince
    rw [← hrate, ← hn] at hrested
    rcases restPhase_cases s.crowd.drive up n rfl with ⟨hus, hphase⟩ | hphase
    · rw [hus] at hrested
      simp only [Stepper.Rested, goto, hphase]
      exact ⟨hmarked, Nat.zero_le _, hrested⟩
    · simp only [Stepper.Rested, goto, hphase]
      exact ⟨hmarked, remainingRest_le _ _, hrested⟩
  | @rest up us hp =>
    rw [hp] at h ⊢
    obtain ⟨hmarked, hus, hrested⟩ := h
    have hover : s.since + us ≤ instant := by simpa only [readyAt, demand, hp] using hready
    refine ⟨hmarked.mono rfl hsince, hus, fun f hf hne => ?_⟩
    obtain ⟨r, hread, hle⟩ := hrested f hf hne
    exact ⟨r, hread, Nat.le_trans hle hover⟩
  | @lift up hp =>
    rw [hp] at h ⊢
    exact ⟨_, rfl, rfl⟩
  | count hp | hold hp | lower hp =>
    rw [hp] at h ⊢
    exact h
  | @mark up n hp =>
    rw [hp] at h ⊢
    obtain ⟨f, hf, rfl⟩ := h
    have hn : n = clock.cyclesAt instant := of_decide_eq_true hgives
    cases hsteps : footfalls t s with
    | nil =>
      rw [hsteps] at hf
      cases hf
    | cons f' l =>
      rw [hsteps] at hf
      cases hf
      exact ⟨instant, rfl, Nat.le_refl _, by rw [hn]⟩

/-- Are two steps in a row the turnaround apart, if they go in opposite directions? -/
def TurnsAround (p : StepPeriods) (later earlier : Footfall) : Prop :=
  later.up ≠ earlier.up → ∃ r, earlier.read = some r ∧ r + p.rest later.speed ≤ later.rose

theorem isChain_modifyHead {α : Type} {R : α → α → Prop} {g : α → α} {l : List α}
    (h : l.IsChain R) (hg : ∀ x y, R x y → R (g x) y) : (l.modifyHead g).IsChain R := by
  cases l with
  | nil => exact h
  | cons x l =>
    rw [List.isChain_cons] at h
    rw [List.modifyHead_cons, List.isChain_cons]
    exact ⟨fun y hy => hg x y (h.1 y hy), h.2⟩

theorem forall_mem_modifyHead_iff {α : Type} {P : α → Prop} {g : α → α} {l : List α}
    (hg : ∀ x, P (g x) ↔ P x) : (∀ x ∈ l.modifyHead g, P x) ↔ ∀ x ∈ l, P x := by
  cases l with
  | nil => exact Iff.rfl
  | cons x l => rw [List.modifyHead_cons, List.forall_mem_cons, List.forall_mem_cons, hg]

/-- What holds of the steps so far, and what the stepper knows of them. -/
structure Turned (p : StepPeriods) (clock : CycleClock) (t : Trace) (s : Timed) : Prop where
  chain : (footfalls t s).IsChain (TurnsAround p)
  pauses : ∀ f ∈ footfalls t s, f.pause ≤ p.rest f.speed
  rested : s.crowd.drive.stepper.Rested clock (footfalls t s) (pauseOf t) s.since

/-- Before the stepper raises a step, it has rested for it, and no longer than it has to. -/
theorem Turned.restedBy (h : Turned p clock t s) (hr : Reaches p clock catchup t s) {up : Bool}
    (hp : s.crowd.drive.stepper.phase = .raising up) :
    pauseOf t ≤ p.rest (speedOf t) ∧ RestedBy s.since (p.rest (speedOf t)) up (footfalls t s) := by
  have hrested := h.rested
  rw [Stepper.Rested, hp] at hrested
  rw [speedOf, ← (Crowd.loaded_of_reaches (reaches_crowd hr) (by rw [hp]; rfl)).1]
  exact hrested.2

/-- **Whatever the stepper does, its steps are rested for.** -/
theorem Turned.stepper (h : Turned p clock t s) (hr : Reaches p clock catchup t s)
    (ha : s.StepperActs clock instant r s') :
    Turned p clock ((s, (instant, .stepper r)) :: t) s' := by
  have hsince := ha.since_le
  refine ⟨?_, ?_, rested_of_stepper hr h.rested ha⟩ <;> rw [footfalls_of_stepper hr ha, nextSteps]
  · split
    · rename_i up hp
      refine List.isChain_cons.mpr ⟨fun f hf hne => ?_, h.chain⟩
      obtain ⟨r, hread, hle⟩ := (h.restedBy hr hp).2 f hf (Ne.symm hne)
      exact ⟨r, hread, Nat.le_trans hle hsince⟩
    · exact isChain_modifyHead h.chain fun _ _ h => h
    · exact h.chain
  · split
    · rename_i up hp
      exact List.forall_mem_cons.mpr ⟨(h.restedBy hr hp).1, h.pauses⟩
    · refine (forall_mem_modifyHead_iff fun f => ?_).mpr h.pauses
      exact Iff.rfl
    · exact h.pauses

theorem turned_of_reaches (h : Reaches p clock catchup t s) : Turned p clock t s := by
  induction h using Reaches.parties with
  | start h =>
    unfold Drive.ofPeriods at h
    cases hv : p.validate <;> rw [hv] at h <;> cases h
    exact ⟨.nil, fun f hf => (by cases hf), rfl⟩
  | stepper h _ ha ih => exact ih.stepper h ha
  | client h _ ha ih =>
    refine ⟨?_, ?_, ?_⟩ <;> rw [footfalls_of_client ha]
    · exact ih.chain
    · exact ih.pauses
    · rw [pauseOf_of_client ha, ha.aside.stepper, ha.next]
      exact ih.rested

/-- **Reversals always rest for the full turnaround.** Whatever the clients ask for, whatever
switches of the power and waits come between, however late anybody acts, and however often the cycle
counter wraps around: from the reading of the cycle counter after a step to the next step, if that
goes the other way, the turnaround of its move passes; and no rest before a step is longer than
that. -/
theorem reversals_rest (h : Reaches p clock catchup t s) :
    (footfalls t s).IsChain (fun later earlier => later.up ≠ earlier.up →
      ∃ r, earlier.read = some r ∧ r + p.rest later.speed ≤ later.rose) ∧
    ∀ f ∈ footfalls t s, f.pause ≤ p.rest f.speed :=
  ⟨(turned_of_reaches h).chain, (turned_of_reaches h).pauses⟩

/-- The power is switched on, a client moves the drive up by one step and collects the outcome, and
another move down begins; the stepper has made its rest and raises its first step. -/
def thereAndBack (clock : CycleClock) (restUs : Nat) : List (Nat × Action) :=
  let call (k : MoveCall) := [.enter k, .proceed 0, .proceed 0, .proceed 0]
  List.flatten [
    [(0, .powerOn)], (call (.takingPermit ⟨false, -1, .fastest⟩)).map (0, ·),
    List.replicate 4 (0, .stepper .done), [(250, .stepper (.ticked true))],
    List.replicate 4 (250, .stepper .done), List.replicate 2 (252, .stepper .done),
    [(252, .stepper (.cycles (clock.cyclesAt 252))), (500, .stepper (.ticked true))],
    List.replicate 5 (500, .stepper .done), (call (.takingEnd .forever)).map (500, ·),
    (call (.takingPermit ⟨false, 1, .fastest⟩)).map (500, ·),
    List.replicate 4 (500, .stepper .done), [(750, .stepper (.ticked true))],
    List.replicate 2 (750, .stepper .done),
    [(750, .stepper (.cycles (clock.cyclesAt 750)))],
    List.replicate 2 (750 + restUs, .stepper .done)]

/-- The counter wraps around between two steps in opposite directions, so that the whole turnaround
is rested. -/
theorem reversals_rest_wrappedAround :
    ∃ d t s, Drive.ofPeriods .standard 1 = .ok d ∧
      play? (act? ⟨1, 4294966696⟩) [] ⟨⟨d, []⟩, 0, 0, .stopped .steady⟩
        (thereAndBack ⟨1, 4294966696⟩ 8000) = some (t, s) ∧
      footfalls t s = [⟨8750, false, 2, .fastest, 8000, none, 8000⟩,
        ⟨250, true, 1, .fastest, 0, some 252, 0⟩] ∧
      (footfalls t s).IsChain (fun later earlier => later.up ≠ earlier.up →
        ∃ r, earlier.read = some r ∧ r + StepPeriods.standard.rest later.speed ≤ later.rose) ∧
      ∀ f ∈ footfalls t s, f.pause ≤ StepPeriods.standard.rest f.speed := by
  refine ⟨_, _, _, rfl, rfl, rfl, ?_⟩
  exact reversals_rest
    (of_play? (P := Reaches .standard ⟨1, 4294966696⟩ .steady) (fun _ _ _ _ => .act)
      (thereAndBack ⟨1, 4294966696⟩ 8000) (.start rfl) rfl)

end Timed

end Drive

end SwitchBench
