import SwitchBench.Proofs.Hardware.KeySwitch
import SwitchBench.Session.HandBench

/-!
# The switch of a bench that is driven by hand

Calls drive the three lines of the bench, or they are about the timer. Of the former only two kinds
of level change reach the switch: every change of the power line, and a rising edge of the step line
while the power is on. `Wires` goes through the line calls with nothing but the levels, and lists
the impulses that the switch gets. What the timer gets from a line call is a trigger for every
powered step, and after it the edges if the step presses or releases the switch (`Wires.emits`).

Calls about the timer neither see nor touch the lines and the switch (`call_withLines`). So a run
of calls leaves the timer where the same run leaves it with a trigger and edges by hand in place of
each line call (`Wires.timerCalls`).

Results: `follows_driveLine` (one line call), `follows_callAll` (any run),
`switch_is_as_if_eager` (switch and timer of a bench, from the calls alone).
-/

namespace SwitchBench

/-- Calls of a handler do not depend on what neither the handler nor the question whether to call
it looks at. -/
theorem Timer.settle_comm {σ : Type} {pending : σ → Bool} {handle f : σ → σ}
    (hp : ∀ s, pending (f s) = pending s) (hh : ∀ s, handle (f s) = f (handle s)) (n : Nat)
    (s : σ) : settle pending handle n (f s) = f (settle pending handle n s) := by
  induction n generalizing s with
  | zero => rfl
  | succ n ih =>
    rw [settle, settle, hp, hh, ih]
    split <;> rfl

namespace HandBench

open KeySwitch

/-- One call after the other. -/
def callAll (b : HandBench) (calls : List HandCall) : HandBench :=
  calls.foldl (fun b c => (b.call c).1) b

@[simp] theorem callAll_cons (b : HandBench) (c : HandCall) (calls : List HandCall) :
    b.callAll (c :: calls) = (b.call c).1.callAll calls := rfl

theorem callAll_append (b : HandBench) (l m : List HandCall) :
    b.callAll (l ++ m) = (b.callAll l).callAll m := List.foldl_append

/-! ## Calls about the timer -/

/-- A bench with the lines and the switch of another one. -/
def withLines (b d : HandBench) : HandBench :=
  { b with
      disable := d.disable
      direction := d.direction
      step := d.step
      keySwitch := d.keySwitch }

variable (b d : HandBench)

theorem settle_withLines : (b.withLines d).settle = b.settle.withLines d := by
  unfold settle
  rw [show (b.withLines d).acknowledges = b.acknowledges from rfl]
  cases b.acknowledges with
  | none => rfl
  | some ack =>
    exact @Timer.settle_comm _ (·.timer.pending) (handle ack) (withLines · d) (fun _ => rfl)
      (fun _ => rfl) _ b

theorem trigger_withLines :
    (b.withLines d).trigger = (b.trigger.1.withLines d, b.trigger.2) := by
  have hsettle := settle_withLines { b with timer := (b.timer.trigger b.now).1 } d
  unfold trigger
  rw [show (b.withLines d).timer.trigger (b.withLines d).now = b.timer.trigger b.now from rfl]
  cases hstarted : (b.timer.trigger b.now).2 with
  | false => simp only [hstarted]; rfl
  | true =>
    simp only [hstarted, if_true]
    exact Prod.ext hsettle rfl

theorem edge_withLines (c : Channel) (e : Edge) :
    (b.withLines d).edge c e = ((b.edge c e).1.withLines d, (b.edge c e).2) := by
  have hsettle := settle_withLines { b with timer := (b.timer.edge c e b.now).1 } d
  unfold edge
  rw [show (b.withLines d).timer.edge c e (b.withLines d).now = b.timer.edge c e b.now from rfl]
  cases htaken : (b.timer.edge c e b.now).2 with
  | false => simp only [htaken]; rfl
  | true =>
    simp only [htaken, if_true]
    exact Prod.ext hsettle rfl

theorem expire_withLines (deadline : Nat) :
    (b.withLines d).expire deadline = (b.expire deadline).withLines d :=
  settle_withLines { b with now := max b.now deadline, timer := b.timer.expire deadline } d

theorem awaitCounter_withLines (n ticks : Nat) :
    awaitCounter n ticks (b.withLines d) =
      ((awaitCounter n ticks b).1.withLines d, (awaitCounter n ticks b).2) := by
  induction n generalizing b with
  | zero => rfl
  | succ n ih =>
    unfold awaitCounter
    rw [show (b.withLines d).counterInstant? ticks = b.counterInstant? ticks from rfl,
      show (b.withLines d).timer.expiry = b.timer.expiry from rfl]
    cases b.counterInstant? ticks with
    | some t => rfl
    | none =>
      cases b.timer.expiry with
      | none => rfl
      | some deadline =>
        simp only [expire_withLines]
        exact ih _

theorem awaitUpdate_withLines (n : Nat) :
    awaitUpdate n (b.withLines d) =
      ((awaitUpdate n b).1.withLines d, (awaitUpdate n b).2) := by
  induction n generalizing b with
  | zero => rfl
  | succ n ih =>
    unfold awaitUpdate
    rw [show (b.withLines d).timer = b.timer from rfl]
    split
    · rfl
    · cases b.timer.expiry with
      | none => rfl
      | some deadline =>
        simp only [expire_withLines]
        exact ih _

end HandBench

/-- A change of a line by hand. -/
inductive LineCall where
  | disable (high : Bool)
  | direction (high : Bool)
  | step (high : Bool)
  deriving DecidableEq, Repr

namespace HandCall

/-- Does a call drive the lines? -/
def drivesLines : HandCall → Bool
  | .disable _ | .direction _ | .step _ | .pulse _ => true
  | _ => false

/-- How a call drives the lines. -/
def lines : HandCall → List LineCall
  | .disable high => [.disable high]
  | .direction high => [.direction high]
  | .step high => [.step high]
  | .pulse n => (List.replicate n [.step true, .step false]).flatten
  | _ => []

end HandCall

namespace HandBench

open KeySwitch

variable {b d : HandBench}

/-- **Calls about the timer neither see nor touch lines and switch.** -/
theorem call_withLines {c : HandCall} (hc : c.drivesLines = false) (b d : HandBench) :
    (b.withLines d).call c = ((b.call c).1.withLines d, (b.call c).2) := by
  have hchannel : ∀ (n : Nat) (f : Fault)
      (act act' : Channel → HandBench × Except Refusal HandAnswer),
      (∀ c, act' c = ((act c).1.withLines d, (act c).2)) →
        (b.withLines d).onChannel n f act' =
          ((b.onChannel n f act).1.withLines d, (b.onChannel n f act).2) := by
    intro n f act act' hact
    unfold onChannel
    cases Channel.ofNat? n with
    | none => rfl
    | some c => exact hact c
  cases c with
  | disable | direction | step | pulse => cases hc
  | connect => rfl
  | setPolarity => exact hchannel _ _ _ _ fun _ => rfl
  | setEnabled => exact hchannel _ _ _ _ fun _ => rfl
  | isEnabled => exact hchannel _ _ _ _ fun _ => rfl
  | clear => rfl
  | setInterrupts => rfl
  | setReload => rfl
  | arm => rfl
  | disarm => rfl
  | startCounter => rfl
  | stopCounter => rfl
  | resetCounter => rfl
  | counterAtLeast => rfl
  | counterIsZero => rfl
  | awaitCounter ticks => exact awaitCounter_withLines b d 2 ticks
  | latchedAtLeast => exact hchannel _ _ _ _ fun _ => rfl
  | latchedAtMostCounter => exact hchannel _ _ _ _ fun _ => rfl
  | trigger =>
    simp only [call, trigger_withLines]
  | edge n e =>
    simp only [call]
    cases Channel.ofNat? n with
    | none => rfl
    | some c => simp only [edge_withLines]
  | awaitUpdate => exact awaitUpdate_withLines b d 2

theorem callAll_withLines {calls : List HandCall} (hc : ∀ c ∈ calls, c.drivesLines = false)
    (b d : HandBench) : (b.withLines d).callAll calls = (b.callAll calls).withLines d := by
  induction calls generalizing b with
  | nil => rfl
  | cons c calls ih =>
    rw [callAll_cons, callAll_cons, call_withLines (hc c List.mem_cons_self)]
    exact ih (fun c' hc' => hc c' (List.mem_cons_of_mem _ hc')) _

/-- Two benches that differ in the lines and the switch only. -/
theorem same_timer_of_eq {b b' d : HandBench} (h : b = b'.withLines d) :
    b.timer = b'.timer ∧ b.handled = b'.handled ∧ b.now = b'.now := by
  subst h
  exact ⟨rfl, rfl, rfl⟩

end HandBench

/-! ## Line calls -/

/-- The levels of the lines, and the impulses that the switch got, newest first. -/
structure Wires where
  disable : Bool
  direction : Bool
  step : Bool
  impulses : List KeySwitch.Impulse
  deriving DecidableEq, Repr

namespace Wires

open KeySwitch

/-- The lines of a bench without power. -/
def start : Wires := ⟨true, false, false, []⟩

/-- The impulse that the switch gets from a line call. -/
def impulse? (w : Wires) : LineCall → Option Impulse
  | .disable high => if w.disable = high then none else some .power
  | .direction _ => none
  | .step high => if high && !w.step && !w.disable then some (.step w.direction) else none

/-- The lines after a line call. -/
def drive (w : Wires) (l : LineCall) : Wires :=
  let w' := { w with impulses := (w.impulse? l).toList ++ w.impulses }
  match l with
  | .disable high => { w' with disable := high }
  | .direction high => { w' with direction := high }
  | .step high => { w' with step := high }

/-- The edges at the timer when the switch is pressed or released, channel after channel. -/
def edgeCalls (s : SimulationSettings) (pressed : Bool) : List HandCall :=
  Channel.all.flatMap fun c =>
    (edgesByPlace s.bounceEdges pressed (s.wiring.get c)).map (HandCall.edge c.val)

/-- What the timer gets from a line call. -/
def emits (s : SimulationSettings) (w : Wires) (l : LineCall) : List HandCall :=
  match w.impulse? l with
  | some (.step up) =>
    .trigger :: if crosses s.actuation w.impulses (.step up) then
      edgeCalls s (pressedAfter s.actuation (.step up :: w.impulses)) else []
  | _ => []

/-- The lines after some line calls. -/
def driveAll (w : Wires) (l : List LineCall) : Wires := l.foldl drive w

/-- What the timer gets from some line calls. -/
def emitsAll (s : SimulationSettings) : Wires → List LineCall → List HandCall
  | _, [] => []
  | w, l :: ls => w.emits s l ++ emitsAll s (w.drive l) ls

/-- Some calls with what the timer gets in place of those that drive the lines. -/
def timerCalls (s : SimulationSettings) : Wires → List HandCall → List HandCall
  | _, [] => []
  | w, c :: cs =>
    (if c.drivesLines then w.emitsAll s c.lines else [c]) ++ timerCalls s (w.driveAll c.lines) cs

theorem not_drivesLines_of_mem_emits {s : SimulationSettings} {w : Wires} {l : LineCall}
    {c : HandCall} (hc : c ∈ w.emits s l) : c.drivesLines = false := by
  unfold emits at hc
  split at hc
  · rcases List.mem_cons.mp hc with rfl | hc
    · rfl
    · split at hc
      · simp only [edgeCalls, List.mem_flatMap, List.mem_map] at hc
        obtain ⟨_, _, _, _, rfl⟩ := hc
        rfl
      · cases hc
  · cases hc

theorem not_drivesLines_of_mem_emitsAll {s : SimulationSettings} {w : Wires} {ls : List LineCall}
    {c : HandCall} (hc : c ∈ w.emitsAll s ls) : c.drivesLines = false := by
  induction ls generalizing w with
  | nil => cases hc
  | cons l ls ih =>
    rcases List.mem_append.mp hc with hc | hc
    · exact not_drivesLines_of_mem_emits hc
    · exact ih hc

theorem not_drivesLines_of_mem_timerCalls {s : SimulationSettings} {w : Wires}
    {calls : List HandCall} {c : HandCall} (hc : c ∈ w.timerCalls s calls) :
    c.drivesLines = false := by
  induction calls generalizing w with
  | nil => cases hc
  | cons c' calls ih =>
    rcases List.mem_append.mp hc with hc | hc
    · split at hc
      · exact not_drivesLines_of_mem_emitsAll hc
      · rename_i hc'
        obtain rfl := List.mem_singleton.mp hc
        exact Bool.eq_false_iff.mpr hc'
    · exact ih hc

end Wires

namespace HandBench

open KeySwitch

variable {s : SimulationSettings} {b : HandBench} {w : Wires}

/-- A line call on the bench. -/
def driveLine (b : HandBench) : LineCall → HandBench
  | .disable high => b.driveDisable high
  | .direction high => { b with direction := b.direction.drive high }
  | .step high => b.driveStep high

/-- The lines of the bench have their levels, and the switch keeps to the reference. -/
structure Follows (s : SimulationSettings) (b : HandBench) (w : Wires) : Prop where
  disable : b.disable.level = w.disable
  direction : b.direction.level = w.direction
  step : b.step.level = w.step
  make : SameMake (.ofSettings s) b.keySwitch
  tracks : Tracks b.keySwitch w.impulses

/-- The edges of a transition reach the timer as edges by hand. -/
theorem foldl_edge_eq (edges : List (Channel × Edge)) (b : HandBench) :
    edges.foldl (fun b (c, e) => (b.edge c e).1) b =
      b.callAll (edges.map fun ce => .edge ce.1.val ce.2) := by
  induction edges generalizing b with
  | nil => rfl
  | cons ce edges ih =>
    obtain ⟨c, e⟩ := ce
    rw [List.foldl_cons, ih, List.map_cons, callAll_cons]
    have hcall : (b.call (.edge c.val e)).1 = (b.edge c e).1 := by
      match c with
      | 0 => rfl
      | 1 => rfl
    rw [hcall]

theorem edges_eq {k : KeySwitch} (hk : SameMake (.ofSettings s) k) (pressed : Bool) :
    (k.edges pressed).map (fun ce => HandCall.edge ce.1.val ce.2) = Wires.edgeCalls s pressed := by
  unfold edges Wires.edgeCalls
  rw [List.map_flatMap]
  refine List.flatMap_congr fun c _ => ?_
  rw [List.map_map, channelEdges_eq, hk.bounceEdges, hk.wiring]
  rfl

theorem not_drivesLines_of_mem_map_edge {edges : List (Channel × Edge)} {c : HandCall}
    (hc : c ∈ edges.map fun ce => HandCall.edge ce.1.val ce.2) : c.drivesLines = false := by
  obtain ⟨_, _, rfl⟩ := List.mem_map.mp hc
  rfl

/-- **A powered step** is a trigger at the timer, and then the edges that the switch sends. -/
theorem follow_eq (b : HandBench) (hpower : b.disable.level = false) :
    b.follow =
      (b.callAll (.trigger :: (b.keySwitch.step b.direction.level).2.map fun ce =>
        .edge ce.1.val ce.2)).withLines
          { b with keySwitch := (b.keySwitch.step b.direction.level).1 } := by
  have hlines : b.trigger.1 = b.trigger.1.withLines b := congrArg Prod.fst (trigger_withLines b b)
  have hswitch : b.trigger.1.keySwitch = b.keySwitch := by
    rw [hlines]
    rfl
  have hdirection : b.trigger.1.direction = b.direction := by
    rw [hlines]
    rfl
  have hstepped : { b.trigger.1 with keySwitch := (b.keySwitch.step b.direction.level).1 } =
      b.trigger.1.withLines { b with keySwitch := (b.keySwitch.step b.direction.level).1 } := by
    rw [hlines]
    rfl
  unfold follow
  rw [hpower, if_neg Bool.false_ne_true]
  show (b.trigger.1.keySwitch.step b.trigger.1.direction.level).2.foldl _
    { b.trigger.1 with
        keySwitch := (b.trigger.1.keySwitch.step b.trigger.1.direction.level).1 } = _
  rw [hswitch, hdirection, hstepped, foldl_edge_eq,
    callAll_withLines fun c hc => not_drivesLines_of_mem_map_edge hc]
  rfl

theorem Follows.actuation (h : Follows s b w) : b.keySwitch.actuation = s.actuation :=
  h.make.actuation

/-- The edges that a powered step sends are those of the reference. -/
theorem Follows.emits_step (h : Follows s b w) {l : LineCall}
    (himpulse : w.impulse? l = some (.step w.direction)) :
    w.emits s l = .trigger :: (b.keySwitch.step w.direction).2.map fun ce =>
      .edge ce.1.val ce.2 := by
  have hedges : (b.keySwitch.step w.direction).2 = _ := (h.tracks.after (.step w.direction)).2
  rw [h.actuation] at hedges
  simp only [Wires.emits, himpulse, hedges]
  split
  · rw [edges_eq h.make]
  · rfl

/-- The lines after a line call, and what it sends to the timer. -/
theorem follows_driveLine (h : Follows s b w) (l : LineCall) :
    Follows s (b.driveLine l) (w.drive l) ∧
      b.driveLine l = (b.callAll (w.emits s l)).withLines (b.driveLine l) := by
  cases l with
  | direction high =>
    exact ⟨⟨h.disable, Pin.level_drive _ _, h.step, h.make, h.tracks⟩, rfl⟩
  | disable high =>
    by_cases hsame : b.disable.level = high
    · have hb : b.driveLine (.disable high) = b := if_pos hsame
      have hw : w.drive (.disable high) = w := by
        rw [h.disable] at hsame
        simp [Wires.drive, Wires.impulse?, ← hsame]
      have hemits : w.emits s (.disable high) = [] := by
        simp [Wires.emits, Wires.impulse?, ← h.disable, hsame]
      rw [hb, hw, hemits]
      exact ⟨h, rfl⟩
    · have hb : b.driveLine (.disable high) =
          { b with disable := b.disable.drive high, keySwitch := b.keySwitch.powerChanged } :=
        if_neg hsame
      have himpulse : w.impulse? (.disable high) = some .power := by
        simp [Wires.impulse?, ← h.disable, hsame]
      have hemits : w.emits s (.disable high) = [] := by simp [Wires.emits, himpulse]
      rw [hb, hemits]
      have hmake := h.make.trans (sameMake_after _ .power)
      refine ⟨⟨Pin.level_drive _ _, h.direction, h.step, hmake, ?_⟩, rfl⟩
      simp only [Wires.drive, himpulse]
      exact (h.tracks.after .power).1
  | step high =>
    by_cases hmoves : (high && !w.step && !w.disable) = true
    · have himpulse : w.impulse? (.step high) = some (.step w.direction) := if_pos hmoves
      simp only [Bool.and_eq_true, Bool.not_eq_true'] at hmoves
      obtain ⟨⟨rfl, hlow⟩, hpower⟩ := hmoves
      have hb : b.driveLine (.step true) = { b with step := b.step.drive true }.follow := by
        simp [driveLine, driveStep, h.step, hlow]
      have hstep : b.driveLine (.step true) = (b.callAll (w.emits s (.step true))).withLines
          { b with
              step := b.step.drive true
              keySwitch := (b.keySwitch.after (.step w.direction)).1 } := by
        rw [hb, follow_eq { b with step := b.step.drive true } (h.disable.trans hpower)]
        show (HandBench.callAll (b.withLines { b with step := b.step.drive true })
          (.trigger :: (b.keySwitch.step b.direction.level).2.map fun ce =>
            .edge ce.1.val ce.2)).withLines _ = _
        rw [h.direction, ← h.emits_step himpulse, callAll_withLines
          fun c hc => Wires.not_drivesLines_of_mem_emits hc]
        rfl
      rw [hstep]
      refine ⟨⟨h.disable, h.direction, Pin.level_drive _ _, ?_, ?_⟩, rfl⟩
      · exact h.make.trans (sameMake_after _ (.step w.direction))
      · simp only [Wires.drive, himpulse]
        exact (h.tracks.after (.step w.direction)).1
    · have himpulse : w.impulse? (.step high) = none := if_neg hmoves
      have hb : b.driveLine (.step high) = { b with step := b.step.drive high } := by
        simp only [driveLine, driveStep, h.step]
        split
        · rename_i hrise
          have hoff : b.disable.level = true := by
            rw [h.disable]
            simpa [hrise] using hmoves
          exact if_pos hoff
        · rfl
      have hemits : w.emits s (.step high) = [] := by simp [Wires.emits, himpulse]
      rw [hb, hemits]
      refine ⟨⟨h.disable, h.direction, Pin.level_drive _ _, h.make, ?_⟩, rfl⟩
      simp only [Wires.drive, himpulse]
      exact h.tracks

theorem follows_foldl (h : Follows s b w) (ls : List LineCall) :
    Follows s (ls.foldl driveLine b) (w.driveAll ls) ∧
      ls.foldl driveLine b = (b.callAll (w.emitsAll s ls)).withLines (ls.foldl driveLine b) := by
  induction ls generalizing b w with
  | nil => exact ⟨h, rfl⟩
  | cons l ls ih =>
    obtain ⟨hfollows, htimer⟩ := follows_driveLine h l
    obtain ⟨hrest, hcalls⟩ := ih hfollows
    refine ⟨hrest, ?_⟩
    rw [List.foldl_cons, Wires.emitsAll, callAll_append]
    rw [htimer, callAll_withLines fun c hc => Wires.not_drivesLines_of_mem_emitsAll hc] at hcalls
    rw [htimer]
    exact hcalls

/-- A call that drives the lines does so one change after the other. -/
theorem call_eq_foldl {c : HandCall} (hc : c.drivesLines = true) (b : HandBench) :
    (b.call c).1 = c.lines.foldl driveLine b := by
  cases c with
  | disable => rfl
  | direction => rfl
  | step => rfl
  | pulse n =>
    show pulse n b = (List.replicate n [LineCall.step true, .step false]).flatten.foldl driveLine b
    clear hc
    induction n generalizing b with
    | zero => rfl
    | succ n ih =>
      rw [pulse, ih]
      rfl
  | _ => cases hc

/-- What a call leaves behind: the lines as they are driven, and the timer as if by hand. -/
theorem follows_call (h : Follows s b w) (c : HandCall) :
    Follows s (b.call c).1 (w.driveAll c.lines) ∧
      (b.call c).1 = (b.callAll (if c.drivesLines then w.emitsAll s c.lines else [c])).withLines
        (b.call c).1 := by
  cases hc : c.drivesLines with
  | true =>
    rw [call_eq_foldl hc]
    exact follows_foldl h c.lines
  | false =>
    have hkeep : (b.call c).1 = (b.call c).1.withLines b :=
      congrArg Prod.fst (call_withLines hc b b)
    have hnone : c.lines = [] := by cases c <;> first | rfl | cases hc
    rw [hnone]
    refine ⟨?_, rfl⟩
    rw [hkeep]
    exact ⟨h.disable, h.direction, h.step, h.make, h.tracks⟩

/-- **Any run of calls.** The timer is as after the run that has a trigger and edges by hand in
place of the line calls. -/
theorem follows_callAll (h : Follows s b w) (calls : List HandCall) :
    Follows s (b.callAll calls) (w.driveAll (calls.flatMap HandCall.lines)) ∧
      b.callAll calls = (b.callAll (w.timerCalls s calls)).withLines (b.callAll calls) := by
  induction calls generalizing b w with
  | nil => exact ⟨h, rfl⟩
  | cons c calls ih =>
    obtain ⟨hfollows, htimer⟩ := follows_call h c
    obtain ⟨hrest, hcalls⟩ := ih hfollows
    have htimerCalls : ∀ c' ∈ (w.driveAll c.lines).timerCalls s calls, c'.drivesLines = false :=
      fun c' hc' => Wires.not_drivesLines_of_mem_timerCalls hc'
    rw [htimer, callAll_withLines htimerCalls] at hcalls
    rw [List.flatMap_cons, callAll_cons, Wires.timerCalls, callAll_append]
    refine ⟨?_, ?_⟩
    · rwa [Wires.driveAll, List.foldl_append]
    · rw [htimer]
      exact hcalls

theorem follows_ofSettings (h : ofSettings s = .ok b) : Follows s b .start := by
  unfold ofSettings at h
  cases hv : s.validate with
  | error p =>
    rw [hv] at h
    cases h
  | ok =>
    rw [hv] at h
    cases h
    exact ⟨rfl, rfl, rfl, ⟨rfl, rfl, rfl⟩, ⟨rfl, rfl, rfl⟩⟩

/-- **The switch is as if it knew of every change of power at once.** Whatever calls drive the lines
of a bench, with any calls about the timer among them:

* the plunger is where the powered steps since the last change of power lead, one after the other
  and each held at the ends of the word; the switch is pressed if that is at or below the actuation
  position; and the transitions are the powered steps that pressed or released it;
* the timer is, and its handler was called, as if by hand it had been given a trigger for every
  powered step and the edges of the reference for those that pressed or released the switch, and
  nothing for any other change of a line;
* the edges that a level wiring sends end with the one to the new level. -/
theorem switch_is_as_if_eager (h : ofSettings s = .ok b) (calls : List HandCall) :
    let e := b.callAll calls
    let byHand := b.callAll (Wires.start.timerCalls s calls)
    let impulses := (Wires.start.driveAll (calls.flatMap HandCall.lines)).impulses
    e.keySwitch.position = plungerAt impulses ∧
    e.keySwitch.pressed = decide (s.actuation ≤ e.keySwitch.position) ∧
    e.keySwitch.transitions = crossings s.actuation impulses ∧
    (e.timer = byHand.timer ∧ e.handled = byHand.handled ∧ e.now = byHand.now) ∧
    (∀ c ∈ Wires.start.timerCalls s calls, c.drivesLines = false) ∧
    ∀ n pressed, (edgesByPlace n pressed .level).getLast? = some (.toLevel pressed) := by
  obtain ⟨hfollows, htimer⟩ := follows_callAll (follows_ofSettings h) calls
  refine ⟨hfollows.tracks.position, ?_, ?_, same_timer_of_eq htimer, fun c hc => ?_,
    getLast?_edgesByPlace_level⟩
  · have hpressed := hfollows.tracks.pressed
    rw [hfollows.actuation] at hpressed
    rw [hfollows.tracks.position]
    exact hpressed
  · have htransitions := hfollows.tracks.transitions
    rwa [hfollows.actuation] at htransitions
  · exact Wires.not_drivesLines_of_mem_timerCalls hc

/-- A switch two steps below the origin that bounces once, on a channel of either kind. -/
def bouncing : SimulationSettings :=
  { SimulationSettings.standard with actuation := 2, bounceEdges := 1, wiring := ⟨.level, .pulse⟩ }

/-- The switch is pressed, the power fails and comes back, and the plunger goes up. -/
def powerFails : List HandCall :=
  [.setEnabled 0 true, .setPolarity 0 .rising, .setReload 100, .startCounter, .disable false,
    .pulse 3, .disable true, .step true, .step false, .disable false, .direction true, .pulse 1]

theorem switch_is_as_if_eager_powerFails :
    ∃ b, ofSettings bouncing = .ok b ∧
      (b.callAll powerFails).keySwitch.position = -1 ∧
      (b.callAll powerFails).keySwitch.pressed = decide (2 ≤ (-1 : Int)) ∧
      (b.callAll powerFails).keySwitch.transitions = 1 ∧
      (b.callAll powerFails).timer =
        (b.callAll (Wires.start.timerCalls bouncing powerFails)).timer ∧
      (Wires.start.timerCalls bouncing powerFails).drop 4 =
        [.trigger, .trigger, .edge 0 .rising, .edge 0 .falling, .edge 0 .rising,
          .edge 1 .rising, .edge 1 .falling, .edge 1 .rising, .edge 1 .falling,
          .trigger, .trigger] := by
  have hb : ∃ b, ofSettings bouncing = .ok b := ⟨_, rfl⟩
  obtain ⟨b, hb⟩ := hb
  obtain ⟨hposition, hpressed, htransitions, ⟨htimer, -, -⟩, -, -⟩ :=
    switch_is_as_if_eager hb powerFails
  have hplunger : (b.callAll powerFails).keySwitch.position = -1 := hposition.trans (by decide)
  exact ⟨b, hb, hplunger, hplunger ▸ hpressed, htransitions.trans (by decide), htimer, rfl⟩

end HandBench

end SwitchBench
