import SwitchBench.Hardware.KeySwitch
import SwitchBench.Hardware.Pin
import SwitchBench.Timer.Registers

/-!
# The simulated bench driven by hand

The output lines, the key switch and the capture timer without a rig: calls drive the lines and
set the timer's registers one by one, and a handler of the timer, if one is connected, notes the
events and the enabled events that it is called with. A handler that acknowledges disables the
events that happened.

Calls take no time. Only the calls that wait let time go by, up to what they wait for.
-/

namespace SwitchBench

open Timer

/-- The bench: lines, switch, timer, handler and the handler's calls, newest first. -/
structure HandBench where
  now : Nat
  disable : Pin
  direction : Pin
  step : Pin
  keySwitch : KeySwitch
  timer : Registers
  /-- Is a handler connected, and does it acknowledge? -/
  acknowledges : Option Bool
  handled : List (Flags × Flags)
  deriving Repr

/-- A call. -/
inductive HandCall where
  | disable (high : Bool)
  | direction (high : Bool)
  | step (high : Bool)
  /-- Raises and lowers the step line so many times. -/
  | pulse (n : Nat)
  | connect (acknowledges : Bool)
  | setPolarity (channel : Nat) (e : Edge)
  | setEnabled (channel : Nat) (on : Bool)
  | isEnabled (channel : Nat)
  | clear (f : Flags)
  | setInterrupts (f : Flags)
  | setReload (ticks : Nat)
  | arm
  | disarm
  | startCounter
  | stopCounter
  | resetCounter
  | counterAtLeast (ticks : Nat)
  | counterIsZero
  /-- Waits until the counter is there. -/
  | awaitCounter (ticks : Nat)
  | latchedAtLeast (channel ticks : Nat)
  | latchedAtMostCounter (channel : Nat)
  | trigger
  | edge (channel : Nat) (e : Edge)
  /-- Waits until a period has ended and its event is disabled. -/
  | awaitUpdate
  deriving Repr

/-- What a call answers. -/
inductive HandAnswer where
  | done
  | flag (b : Bool)
  deriving DecidableEq, Repr

namespace HandBench

/-- A bench without power; refused if the settings are. -/
def ofSettings (s : SimulationSettings) : Except Problem HandBench :=
  s.validate.map fun _ => {
    now := 0
    disable := .ofLevel true
    direction := .ofLevel false
    step := .ofLevel false
    keySwitch := .ofSettings s
    timer := .initial
    acknowledges := none
    handled := [] }

/-- The handler, called once. -/
def handle (acknowledges : Bool) (b : HandBench) : HandBench :=
  let t := b.timer
  { b with
      handled := (t.status, t.interrupts) :: b.handled
      timer := if acknowledges then t.setInterrupts (t.interrupts.diff t.status) else t }

/-- Calls the handler, if one is connected, while an enabled event is pending. -/
def settle (b : HandBench) : HandBench :=
  match b.acknowledges with
  | none => b
  | some ack => Timer.settle (·.timer.pending) (handle ack) Limits.handlerCallsMax b

/-- A trigger edge at the timer. -/
def trigger (b : HandBench) : HandBench × Bool :=
  let (t, started) := b.timer.trigger b.now
  let b := { b with timer := t }
  (if started then b.settle else b, started)

/-- An edge at a channel of the timer. -/
def edge (b : HandBench) (c : Channel) (e : Edge) : HandBench × Bool :=
  let (t, taken) := b.timer.edge c e b.now
  let b := { b with timer := t }
  (if taken then b.settle else b, taken)

/-- The timer and the switch follow a rising edge of the step line, if the power is on. -/
def follow (b : HandBench) : HandBench :=
  if b.disable.level then b
  else
    let b := b.trigger.1
    let (k, edges) := b.keySwitch.step b.direction.level
    edges.foldl (fun b (c, e) => (b.edge c e).1) { b with keySwitch := k }

/-- Drives the power line; the switch follows a change. -/
def driveDisable (b : HandBench) (high : Bool) : HandBench :=
  if b.disable.level = high then b
  else { b with disable := b.disable.drive high, keySwitch := b.keySwitch.powerChanged }

/-- Drives the step line. -/
def driveStep (b : HandBench) (high : Bool) : HandBench :=
  let c := { b with step := b.step.drive high }
  if high && !b.step.level then c.follow else c

/-- Pulses on the step line. -/
def pulse : Nat → HandBench → HandBench
  | 0, b => b
  | n + 1, b => pulse n ((b.driveStep true).driveStep false)

/-! ## Waiting -/

/-- Lets time go by to the end of the timer's period. -/
def expire (b : HandBench) (deadline : Nat) : HandBench :=
  { b with now := max b.now deadline, timer := b.timer.expire deadline }.settle

/-- When the counter is at a value, if it gets there in this period. -/
def counterInstant? (b : HandBench) (ticks : Nat) : Option Nat :=
  if ticks ≤ b.timer.counterAt b.now then some b.now
  else b.timer.since.bind fun start =>
    if ticks ≤ max b.timer.reload b.timer.base then
      some (max b.now (start + Limits.tickUs * (ticks - b.timer.base)))
    else none

/-- Waits until the counter is at a value; a wait over more than so many ends of a period is given
up. -/
def awaitCounter : Nat → Nat → HandBench → HandBench × Except Refusal HandAnswer
  | 0, _, b => (b, .error .endless)
  | n + 1, ticks, b =>
    match b.counterInstant? ticks with
    | some t => ({ b with now := t }, .ok .done)
    | none =>
      match b.timer.expiry with
      | none => (b, .error .endless)
      | some deadline => awaitCounter n ticks (b.expire deadline)

/-- Waits until a period has ended and its event is disabled; a wait over more than so many ends
of a period is given up. -/
def awaitUpdate : Nat → HandBench → HandBench × Except Refusal HandAnswer
  | 0, b => (b, .error .endless)
  | n + 1, b =>
    if b.timer.status.update && !b.timer.interrupts.update then (b, .ok (.flag true))
    else
      match b.timer.expiry with
      | none => (b, .error .endless)
      | some deadline => awaitUpdate n (b.expire deadline)

/-! ## Calls -/

/-- A call on a channel of the timer, if there is one. -/
def onChannel (b : HandBench) (channel : Nat) (f : Fault)
    (act : Channel → HandBench × Except Refusal HandAnswer) :
    HandBench × Except Refusal HandAnswer :=
  match Channel.ofNat? channel with
  | none => (b, .error (.breach f))
  | some c => act c

def withTimer (b : HandBench) (t : Registers) : HandBench × Except Refusal HandAnswer :=
  ({ b with timer := t }, .ok .done)

/-- A call, and the bench after it. -/
def call (b : HandBench) (c : HandCall) : HandBench × Except Refusal HandAnswer :=
  let t := b.timer
  match c with
  | .disable high => (b.driveDisable high, .ok .done)
  | .direction high => ({ b with direction := b.direction.drive high }, .ok .done)
  | .step high => (b.driveStep high, .ok .done)
  | .pulse n => (pulse n b, .ok .done)
  | .connect ack => ({ b with acknowledges := some ack }, .ok .done)
  | .setPolarity n e =>
    b.onChannel n (.channelIndex n) fun c => b.withTimer (t.setPolarity c e)
  | .setEnabled n on =>
    b.onChannel n (.channelIndex n) fun c => b.withTimer (t.setEnabled c on)
  | .isEnabled n => b.onChannel n (.channelIndex n) fun c => (b, .ok (.flag (t.enabled.get c)))
  | .clear f => b.withTimer (t.clear f)
  | .setInterrupts f => b.withTimer (t.setInterrupts f)
  | .setReload ticks => b.withTimer (t.setReload ticks)
  | .arm => b.withTimer t.arm
  | .disarm => b.withTimer t.disarm
  | .startCounter => b.withTimer (t.startCounter b.now)
  | .stopCounter => b.withTimer (t.stopCounter b.now)
  | .resetCounter => b.withTimer (t.resetCounter b.now)
  | .counterAtLeast ticks => (b, .ok (.flag (ticks ≤ t.counterAt b.now)))
  | .counterIsZero => (b, .ok (.flag (t.counterAt b.now = 0)))
  | .awaitCounter ticks => awaitCounter 2 ticks b
  | .latchedAtLeast n ticks =>
    b.onChannel n .noCaptureChannel fun c =>
      let (t, v) := t.readLatched c
      ({ b with timer := t }, .ok (.flag (ticks ≤ v)))
  | .latchedAtMostCounter n =>
    b.onChannel n .noCaptureChannel fun c =>
      let (t, v) := t.readLatched c
      ({ b with timer := t }, .ok (.flag (v ≤ t.counterAt b.now)))
  | .trigger =>
    let (b, started) := b.trigger
    (b, .ok (.flag started))
  | .edge n e =>
    match Channel.ofNat? n with
    | none => (b, .ok (.flag false))
    | some c =>
      let (b, taken) := b.edge c e
      (b, .ok (.flag taken))
  | .awaitUpdate => awaitUpdate 2 b

/-- The handler's calls since it was last asked, oldest first, and the bench with them forgotten. -/
def takeHandled (b : HandBench) : HandBench × List (Flags × Flags) :=
  ({ b with handled := [] }, b.handled.reverse)

end HandBench

end SwitchBench
