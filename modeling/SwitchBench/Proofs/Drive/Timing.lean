import SwitchBench.Hardware.Pacer
import SwitchBench.Proofs.Drive.Edges

/-!
# A drive in time

`Drive.Timed` puts a drive with its clients on a clock: every action happens at an instant, no
earlier than the one before, and the stepper's actions wait for what they ask of the hardware. A
delay lasts at least as long as it is to last, a wait for a tick ends no earlier than the timer
fires, and the cycle counter is read as it stands at that instant (`Timed.act?`). How late an action
comes is left open. A run is `Prompt` if the stepper never comes later than it has to, but for its
wait for a move.

Results: `act_cases` (what an action in time is), `Reaches.parties` (what the stepper and the
clients keep is kept by every run), and `reaches_crowd` (a run in time is a run of the drive and its
clients).
-/

namespace SwitchBench

namespace Drive

/-- A drive with its clients in time: the instant of the last action, and of the stepper's last. -/
structure Timed where
  crowd : Crowd
  now : Nat
  since : Nat
  pacer : Pacer
  deriving DecidableEq, Repr

namespace Timed

/-- When the stepper can have a reply at the earliest. -/
def readyAt (s : Timed) (r : Reply) : Nat :=
  match s.crowd.drive.demand, r with
  | .delay us, _ => s.since + us
  | .tick, .ticked true => max s.since (s.pacer.next?.getD s.since)
  | _, _ => s.since

theorem since_le_readyAt (s : Timed) (r : Reply) : s.since ≤ s.readyAt r := by
  unfold readyAt
  split
  · exact Nat.le_add_right _ _
  · exact Nat.le_max_left _ _
  · exact Nat.le_refl _

/-- Is a reply what the hardware gives at an instant? -/
def gives (clock : CycleClock) (s : Timed) (instant : Nat) : Reply → Bool
  | .done => true
  | .ticked running => !running || s.pacer.isRunning
  | .cycles n => n = clock.cyclesAt instant

/-- The step timer after the stepper's action at an instant. -/
def pacerAfter (s : Timed) (instant : Nat) : Pacer :=
  match s.crowd.drive.demand with
  | .startTimer us => s.pacer.start instant us
  | .tick => s.pacer.waited instant
  | .stopTimer => s.pacer.stop
  | _ => s.pacer

/-- An action of anybody at an instant, if it is possible then. -/
def act? (clock : CycleClock) (s : Timed) (e : Nat × Action) : Option Timed :=
  if s.now ≤ e.1 then
    match e.2 with
    | .stepper r =>
      if s.readyAt r ≤ e.1 ∧ s.crowd.drive.heeds r ∧ s.gives clock e.1 r then
        some ⟨{ s.crowd with drive := s.crowd.drive.resume r }, e.1, e.1, s.pacerAfter e.1⟩
      else none
    | a => (s.crowd.act? a).map fun c => { s with crowd := c, now := e.1 }
  else none

/-- The actions so far with their instants, each with the state it was done in, newest first. -/
abbrev Trace := List (Timed × (Nat × Action))

/-- The states that a drive can come to in time, with a stopped timer at first. -/
inductive Reaches (p : StepPeriods) (clock : CycleClock) (catchup : Catchup) :
    Trace → Timed → Prop
  | start {d : Drive} (h : Drive.ofPeriods p clock.rate = .ok d) :
      Reaches p clock catchup [] ⟨⟨d, []⟩, 0, 0, .stopped catchup⟩
  | act {t : Trace} {s s' : Timed} {e : Nat × Action} (h : Reaches p clock catchup t s)
      (ha : s.act? clock e = some s') : Reaches p clock catchup ((s, e) :: t) s'

/-- Does the stepper come no later than it has to? How long it waits for a move is not its own
doing. -/
def isPrompt : Timed × (Nat × Action) → Bool
  | (s, (instant, .stepper r)) => s.crowd.drive.demand = .permit || instant = s.readyAt r
  | _ => true

/-- Does the stepper never come later than it has to? -/
def Prompt (t : Trace) : Prop := ∀ e ∈ t, isPrompt e = true

instance (t : Trace) : Decidable (Prompt t) := inferInstanceAs (Decidable (∀ e ∈ t, _))

/-- The trace without the instants. -/
def crowdTrace (t : Trace) : Crowd.Trace := t.map fun e => (e.1.crowd, e.2.2)

variable {p : StepPeriods} {clock : CycleClock} {catchup : Catchup} {t : Trace} {s s' : Timed}
  {instant : Nat} {a : Action}

/-- The stepper acts at an instant, with a reply that the hardware gives then. -/
structure StepperActs (clock : CycleClock) (s : Timed) (instant : Nat) (r : Reply) (s' : Timed) :
    Prop where
  ready : s.readyAt r ≤ instant
  heeds : s.crowd.drive.heeds r = true
  gives : s.gives clock instant r = true
  next : s' =
    ⟨{ s.crowd with drive := s.crowd.drive.resume r }, instant, instant, s.pacerAfter instant⟩

theorem StepperActs.since_le {r : Reply} (h : s.StepperActs clock instant r s') :
    s.since ≤ instant := Nat.le_trans (s.since_le_readyAt r) h.ready

/-- The stepper's action is a beat, as nobody shuts the drive down. -/
theorem StepperActs.beat {r : Reply} (h : s.StepperActs clock instant r s') {g : MoveStage}
    (hs : Crowd.Sound g s.crowd) : Beat s.crowd.drive r s'.crowd.drive := by
  rw [h.next]
  exact beat_resume hs.running h.heeds

/-- A client acts at an instant; the stepper and its timer go on. -/
structure ClientActs (s : Timed) (instant : Nat) (a : Action) (s' : Timed) : Prop where
  acts : s.crowd.act? a = some s'.crowd
  other : ∀ r, a ≠ .stepper r
  next : s' = { s with crowd := s'.crowd, now := instant }

theorem ClientActs.aside (h : s.ClientActs instant a s') : s.crowd.drive.Aside s'.crowd.drive :=
  Crowd.aside_of_act h.acts h.other

/-- **An action in time is one of the stepper, which has what it asked for, or one of a client.** -/
theorem act_cases (ha : s.act? clock (instant, a) = some s') :
    (∃ r, a = .stepper r ∧ s.StepperActs clock instant r s') ∨ s.ClientActs instant a s' := by
  unfold act? at ha
  simp only [Option.ite_none_right_eq_some] at ha
  obtain ⟨-, ha⟩ := ha
  cases a with
  | stepper r =>
    simp only [Option.ite_none_right_eq_some, Option.some.injEq] at ha
    obtain ⟨⟨hready, hheeds, hgives⟩, rfl⟩ := ha
    exact .inl ⟨r, rfl, hready, hheeds, hgives, rfl⟩
  | _ =>
    simp only [Option.map_eq_some_iff] at ha
    obtain ⟨c, hc, rfl⟩ := ha
    exact .inr ⟨hc, by simp, rfl⟩

/-- **What the stepper and the clients keep is kept by every run.** -/
@[elab_as_elim]
theorem Reaches.parties
    {motive : ∀ (t : Trace) (s : Timed), Reaches p clock catchup t s → Prop}
    (start : ∀ {d : Drive} (h : Drive.ofPeriods p clock.rate = .ok d), motive [] _ (.start h))
    (stepper : ∀ {t : Trace} {s s' : Timed} {instant : Nat} {r : Reply}
      (h : Reaches p clock catchup t s) (ha : s.act? clock (instant, .stepper r) = some s'),
      s.StepperActs clock instant r s' → motive t s h → motive _ s' (.act h ha))
    (client : ∀ {t : Trace} {s s' : Timed} {instant : Nat} {a : Action}
      (h : Reaches p clock catchup t s) (ha : s.act? clock (instant, a) = some s'),
      s.ClientActs instant a s' → motive t s h → motive _ s' (.act h ha))
    {t : Trace} {s : Timed} (h : Reaches p clock catchup t s) : motive t s h := by
  induction h with
  | start h => exact start h
  | @act t s s' e h ha ih =>
    obtain ⟨instant, a⟩ := e
    rcases act_cases ha with ⟨r, rfl, hr⟩ | hc
    · exact stepper h ha hr ih
    · exact client h ha hc ih

/-- **A run in time is a run of the drive and its clients.** -/
theorem reaches_crowd (h : Reaches p clock catchup t s) :
    Crowd.Reaches p clock.rate (crowdTrace t) s.crowd := by
  induction h using Reaches.parties with
  | start h => exact .start h
  | stepper h _ ha ih =>
    rw [ha.next]
    exact .act ih rfl
  | client h _ ha ih => exact .act ih ha.acts

end Timed

end Drive

end SwitchBench
