import SwitchBench.Proofs.Drive.OneMove

/-!
# One truthful result for each move

A history of the moves is the list of their events, newest first. `uncollected?` reads off it the
move whose outcome nobody has collected, with everything that happened since its order was taken
up. `InOrder` says that an order is taken up only when there is no such move, and that an outcome
that is collected is the one of that move and tells the truth about it (`OpenMove.Truthful`).

Results: `one_move_one_result` (the permit is conserved, no semaphore is given a unit at its limit,
the history is in order, and the permit is available only when every move has been collected).
-/

namespace SwitchBench

namespace Drive

/-- A move that was taken up, and what happened since, newest first. -/
structure OpenMove where
  before : Axis
  order : MoveOrder
  launch : Launch
  since : List MoveEvent
  deriving DecidableEq, Repr

namespace MoveEvent

/-- Does the event fix how the move under way ends? -/
def isVerdict : MoveEvent → Bool
  | decided _ (.finish _) | timerFailed => true
  | _ => false

/-- Does the event fix that a move to a target, with what happened during it, ends like this, and
may it? A move that ends well is where it was to go, and nobody wanted otherwise. -/
def Decides (target : Int) (during : List MoveEvent) (outcome : MoveOutcome) : MoveEvent → Prop
  | timerFailed => outcome = .aborted
  | decided a (.finish o) =>
    o = outcome ∧
      match outcome with
      | .ok => a.position = target ∧ a.isOff = false ∧ .powerLost ∉ during ∧ .abortAsked ∉ during
      | .poweredOff => .powerLost ∈ during
      | .aborted => .abortAsked ∈ during ∧ .powerLost ∉ during
      | .timedOut => False
  | _ => False

end MoveEvent

namespace OpenMove

/-- Adds what happened next. -/
def add (e : MoveEvent) (m : OpenMove) : OpenMove := { m with since := e :: m.since }

/-- Is this how the move ended? -/
def Truthful (m : OpenMove) (outcome : MoveOutcome) : Prop :=
  match m.launch with
  | .refused _ => False
  | .finished o =>
    o = outcome ∧
      match outcome with
      | .ok => m.before.isOff = false ∧ m.before.destination? m.order = some m.before.position
      | .poweredOff => m.before.isOff = true
      | .aborted | .timedOut => False
  | .began target =>
    m.before.isOff = false ∧ m.before.destination? m.order = some target ∧
      ∃ after verdict during, m.since = after ++ verdict :: during ∧
        verdict.Decides target during outcome ∧
        (∀ e ∈ after, e.isVerdict = false) ∧ ∀ e ∈ during, e.isVerdict = false

end OpenMove

/-- The move whose outcome has not been collected, if there is one. -/
def uncollected? : List MoveEvent → Option OpenMove
  | [] => none
  | .collected _ :: _ => none
  | .launched a o (.began t) :: _ => some ⟨a, o, .began t, []⟩
  | .launched a o (.finished r) :: _ => some ⟨a, o, .finished r, []⟩
  | e :: past => (uncollected? past).map (·.add e)

/-- Is each order taken up when every earlier move has been collected, and each outcome collected
that of a move not collected before, and true of it? -/
def InOrder : List MoveEvent → Prop
  | [] => True
  | e :: past =>
    InOrder past ∧
      match e with
      | .launched _ _ (.began _) | .launched _ _ (.finished _) => uncollected? past = none
      | .collected o => ∃ m, uncollected? past = some m ∧ m.Truthful o
      | _ => True

/-! ## What the stage tells of the history -/

/-- What a stage tells of the move that has not been collected. -/
def MoveStage.Tells (past : List MoveEvent) : MoveStage → Prop
  | .idle => uncollected? past = none
  | .flying t l k =>
    ∃ m, uncollected? past = some m ∧ m.launch = .began t ∧ m.before.isOff = false ∧
      m.before.destination? m.order = some t ∧ (∀ e ∈ m.since, e.isVerdict = false) ∧
      (.powerLost ∈ m.since ↔ l = true) ∧ (.abortAsked ∈ m.since ↔ k = true)
  | .settled o => ∃ m, uncollected? past = some m ∧ m.Truthful o

/-- May an event come at a stage? -/
def MoveStage.Allows (g : MoveStage) : MoveEvent → Prop
  | .launched a o l => g = .idle ∧ l = (a.launch o).2
  | .decided a d => g.isFlying = true ∧ g.Agrees a ∧ d = a.decide.2
  | .timerFailed => g.isFlying = true
  | .collected o => g = .settled o
  | .powerLost | .abortAsked => True

/-- An order that is taken up and does not begin a move says truly how the move ended. -/
theorem truthful_of_finished {a : Axis} {o : MoveOrder} {r : MoveOutcome}
    (h : .finished r = (a.launch o).2) : OpenMove.Truthful ⟨a, o, .finished r, []⟩ r := by
  rcases a.launch_cases o with ⟨hoff, he⟩ | ⟨-, -, he⟩ | ⟨hoff, hd, he⟩ | ⟨-, t, -, -, he⟩ <;>
    rw [he] at h <;> cases h
  · exact ⟨rfl, hoff⟩
  · exact ⟨rfl, hoff, hd⟩

/-- An order that begins a move is one to go there, with the power on. -/
theorem destination_of_began {a : Axis} {o : MoveOrder} {t : Int}
    (h : .began t = (a.launch o).2) : a.isOff = false ∧ a.destination? o = some t := by
  rcases a.launch_cases o with ⟨-, he⟩ | ⟨-, -, he⟩ | ⟨-, -, he⟩ | ⟨hoff, t', hd, -, he⟩ <;>
    rw [he] at h <;> cases h
  exact ⟨hoff, hd⟩

/-- A decision to end a move is one that it deserves. -/
theorem decides_of_finish {t : Int} {l k : Bool} {a : Axis} {o : MoveOutcome}
    {during : List MoveEvent} (hg : (MoveStage.flying t l k).Agrees a)
    (hl : .powerLost ∈ during ↔ l = true) (hk : .abortAsked ∈ during ↔ k = true)
    (h : .finish o = a.decide.2) : MoveEvent.Decides t during o (.decided a (.finish o)) := by
  obtain ⟨rfl, rfl, rfl, hoff⟩ := hg
  unfold Axis.decide at h
  split_ifs at h with h1 h2 h3 <;> cases h
  · refine ⟨rfl, hl.mpr ?_⟩
    rcases Bool.or_eq_true_iff.mp h1 with h1 | h1
    · exact hoff h1
    · exact h1
  · rw [Bool.or_eq_true_iff, not_or] at h1
    exact ⟨rfl, hk.mpr h2, fun h0 => h1.2 (hl.mp h0)⟩
  · rw [Bool.or_eq_true_iff, not_or] at h1
    exact ⟨rfl, h3, by simpa using h1.1, fun h0 => h1.2 (hl.mp h0), fun h0 => h2 (hk.mp h0)⟩

/-- More happens, but nothing to the end of the move. -/
theorem OpenMove.Truthful.add {m : OpenMove} {r : MoveOutcome} (h : m.Truthful r)
    {e : MoveEvent} (he : e.isVerdict = false) : (m.add e).Truthful r := by
  obtain ⟨a, o, l, since⟩ := m
  cases l with
  | refused f => exact h
  | finished r' => exact h
  | began t =>
    obtain ⟨h1, h2, after, v, during, rfl, h3, h4, h5⟩ := h
    refine ⟨h1, h2, e :: after, v, during, rfl, h3, fun e' he' => ?_, h5⟩
    rcases List.mem_cons.mp he' with rfl | he'
    · exact he
    · exact h4 e' he'

namespace Crowd

/-- Whoever acts in a sound state does what the stage allows. -/
theorem Sound.allows {g : MoveStage} {c : Crowd} (h : Sound g c) {a : Action} {e : MoveEvent}
    (he : c.event? a = some e) : g.Allows e := by
  cases a with
  | stepper r =>
    have hs := h.stepper
    simp only [event?] at he
    split at he
    · rename_i hp
      cases he
      rw [hp] at hs
      exact ⟨hs, h.agrees, rfl⟩
    · rename_i hp
      cases he
      rw [hp] at hs
      exact hs
    · cases he
  | powerOff | abort =>
    simp only [event?, Option.ite_none_right_eq_some, Option.some.injEq] at he
    rw [← he.2]
    trivial
  | proceed i =>
    simp only [event?] at he
    split at he
    · rename_i o hi
      cases he
      exact ⟨h.calls _ (List.mem_of_getElem? hi), rfl⟩
    · rename_i hi
      cases he
      exact h.calls _ (List.mem_of_getElem? hi)
    · cases he
  | powerOn | locate | enter k | giveUp i => cases he

end Crowd

/-! ## The history -/

/-- A verdict settles the move that is under way. -/
theorem tells_verdict {past : List MoveEvent} {t : Int} {l k : Bool} {e : MoveEvent}
    {o : MoveOutcome} (hg : (MoveStage.flying t l k).Tells past)
    (hu : uncollected? (e :: past) = (uncollected? past).map (·.add e))
    (he : ∀ during, (.powerLost ∈ during ↔ l = true) → (.abortAsked ∈ during ↔ k = true) →
      e.Decides t during o) : (MoveStage.settled o).Tells (e :: past) := by
  obtain ⟨⟨a, r, _, since⟩, hm, rfl, h1, h2, h3, h4, h5⟩ := hg
  refine ⟨⟨a, r, .began t, e :: since⟩, by rw [hu, hm]; rfl, h1, h2, [], e, since, rfl,
    he since h4 h5, fun _ h0 => (List.not_mem_nil h0).elim, h3⟩

/-- Whatever else happens is noted with the move that is open. -/
theorem tells_passing {past : List MoveEvent} {g : MoveStage} {e : MoveEvent} (hg : g.Tells past)
    (hu : uncollected? (e :: past) = (uncollected? past).map (·.add e)) (hv : e.isVerdict = false)
    (hn : ∀ {t l k}, g = .flying t l k →
      g.next e = .flying t (l || e = .powerLost) (k || e = .abortAsked))
    (hs : g.isFlying = false → g.next e = g) : (g.next e).Tells (e :: past) := by
  cases g with
  | idle =>
    rw [hs rfl]
    show uncollected? _ = none
    rw [hu, show uncollected? past = none from hg]
    rfl
  | settled o =>
    obtain ⟨m, hm, ho⟩ := hg
    rw [hs rfl]
    exact ⟨m.add e, by rw [hu, hm]; rfl, ho.add hv⟩
  | flying t l k =>
    obtain ⟨m, hm, h1, h2, h3, h4, h5, h6⟩ := hg
    rw [hn rfl]
    refine ⟨m.add e, by rw [hu, hm]; rfl, h1, h2, h3, fun e' he' => ?_, ?_, ?_⟩
    · rcases List.mem_cons.mp he' with rfl | he'
      · exact hv
      · exact h4 e' he'
    · rw [OpenMove.add, List.mem_cons, h5, Bool.or_eq_true, decide_eq_true_iff, eq_comm, or_comm]
    · rw [OpenMove.add, List.mem_cons, h6, Bool.or_eq_true, decide_eq_true_iff, eq_comm, or_comm]

/-- One event that the stage allows keeps the history in order, and the stage tells of it. -/
theorem tells_next {past : List MoveEvent} {g : MoveStage} {e : MoveEvent} (hp : InOrder past)
    (hg : g.Tells past) (he : g.Allows e) : InOrder (e :: past) ∧ (g.next e).Tells (e :: past) := by
  cases e with
  | launched a o l =>
    obtain ⟨rfl, hl⟩ := he
    cases l with
    | refused f => exact ⟨⟨hp, trivial⟩, tells_passing hg rfl rfl nofun fun _ => rfl⟩
    | finished r => exact ⟨⟨hp, hg⟩, _, rfl, truthful_of_finished hl⟩
    | began t =>
      obtain ⟨h1, h2⟩ := destination_of_began hl
      exact ⟨⟨hp, hg⟩, _, rfl, rfl, h1, h2, fun _ h0 => (List.not_mem_nil h0).elim,
        ⟨nofun, nofun⟩, ⟨nofun, nofun⟩⟩
  | collected o =>
    rw [show g = .settled o from he] at hg ⊢
    exact ⟨⟨hp, hg⟩, rfl⟩
  | decided a d =>
    obtain ⟨h1, h2, h3⟩ := he
    cases g with
    | idle | settled o => cases h1
    | flying t l k =>
      cases d with
      | step up =>
        refine ⟨⟨hp, trivial⟩, tells_passing hg rfl rfl (fun h0 => ?_) nofun⟩
        cases h0
        simp [MoveStage.next]
      | finish o =>
        exact ⟨⟨hp, trivial⟩, tells_verdict hg rfl fun _ hl hk => decides_of_finish h2 hl hk h3⟩
  | timerFailed =>
    cases g with
    | idle | settled o => cases he
    | flying t l k => exact ⟨⟨hp, trivial⟩, tells_verdict hg rfl fun _ _ _ => rfl⟩
  | powerLost | abortAsked =>
    refine ⟨⟨hp, trivial⟩, tells_passing hg rfl rfl (fun h0 => ?_) fun h0 => ?_⟩
    · cases h0
      simp [MoveStage.next]
    · cases g with
      | idle | settled o => rfl
      | flying t l k => cases h0

namespace Crowd

/-- Along every run the history is in order, and the stage tells of it. -/
theorem inOrder_of_reaches {p : StepPeriods} {rate : Nat} {t : Trace} {c : Crowd}
    (h : Reaches p rate t c) :
    InOrder (events t) ∧ (MoveStage.ofEvents (events t)).Tells (events t) := by
  induction h with
  | start _ => exact ⟨trivial, rfl⟩
  | @act t c c' a h ha ih =>
    rw [events_cons]
    cases he : c.event? a with
    | none => exact ih
    | some e => exact tells_next ih.1 ih.2 ((sound_of_reaches h).allows he)

/-- **Exactly one move at a time, and exactly one truthful result for each.** Whatever the clients,
the stepper and the hardware do, in whatever order: the permit to move is in exactly one place, no
semaphore is given a unit at its limit, an order is taken up only when every earlier move has been
collected, an outcome that is collected is that of the one move not collected before and true of
it, and the permit is available again only when every move has been collected. -/
theorem one_move_one_result {p : StepPeriods} {rate : Nat} {t : Trace} {c : Crowd}
    (h : Reaches p rate t c) :
    c.permits = 1 ∧
    (∀ e ∈ t, ∀ s ∈ e.1.receivers e.2, s.count < s.limit) ∧
    InOrder (events t) ∧
    (c.drive.available.count = 1 → uncollected? (events t) = none) := by
  have hsound := sound_of_reaches h
  obtain ⟨horder, htells⟩ := inOrder_of_reaches h
  refine ⟨hsound.permit, ?_, horder, fun h0 => ?_⟩
  · clear hsound horder htells
    induction h with
    | start _ => exact fun _ h0 => (List.not_mem_nil h0).elim
    | act h ha ih =>
      intro e he s hs
      rcases List.mem_cons.mp he with rfl | he
      · exact (sound_of_reaches h).not_swallowed hs
      · exact ih e he s hs
  · rw [hsound.free h0] at htells
    exact htells

/-- A client powers the drive, moves it up by one step and collects the outcome. -/
def oneStepUp : List Action :=
  List.flatten [
    [.powerOn, .enter (.takingPermit ⟨false, -1, .fastest⟩), .proceed 0, .proceed 0, .proceed 0],
    List.replicate 4 (.stepper .done), [.stepper (.ticked true)],
    List.replicate 6 (.stepper .done), [.stepper (.cycles 7), .stepper (.ticked true)],
    List.replicate 5 (.stepper .done),
    [.enter (.takingEnd .forever), .proceed 0, .proceed 0, .proceed 0]]

theorem one_move_one_result_oneStepUp :
    ∃ d t c, Drive.ofPeriods .standard 1 = .ok d ∧ play? act? [] ⟨d, []⟩ oneStepUp = some (t, c) ∧
      c.drive.axis.position = -1 ∧ MoveEvent.collected .ok ∈ events t ∧ c.permits = 1 ∧
      (∀ e ∈ t, ∀ s ∈ e.1.receivers e.2, s.count < s.limit) ∧ InOrder (events t) ∧
      (c.drive.available.count = 1 → uncollected? (events t) = none) := by
  refine ⟨_, _, _, rfl, rfl, by decide, by decide, ?_⟩
  exact one_move_one_result
    (of_play? (P := Reaches .standard 1) (fun _ _ _ _ => .act) oneStepUp (.start rfl) rfl)

end Crowd

end Drive

end SwitchBench
