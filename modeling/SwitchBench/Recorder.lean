import SwitchBench.Capture.Setup
import SwitchBench.Outcome
import SwitchBench.Sync.Semaphore
import SwitchBench.Timer.Registers

/-!
# The recorder

The capture engine. A recorder times the edges of one capture after the other, on the capture timer
that it has taken over. A client takes the permit `available` and arms the capture; the trigger
starts its window; the timer's handler reacts to the events of the window and announces its end
(`done`); whoever waits takes `done`, reads the channels out and gives the permit back. Aborting a
capture ends it as well.

The window is as long as timeout and bounce. Once every enabled channel has an edge it is cut to
end one bounce after the last of them, if that is earlier.

* **Start**: `admits` refuses a window that the timer cannot count, then `takePermit?` and `arm`;
  `start?` is all of it where nobody comes in between.
* **Interrupt** (`service`): one event of those that are pending and enabled, the trigger before the
  end of the window before the edges. `handle` announces the end with it, and `settle` is what the
  timer makes of an interrupt: it calls while an event is pending.
* **Finish**: `takeDone?`, `collect` and `givePermit`; `finish?` in a row, into a buffer (`fill`).
* **Abort**: `cut` and, if there was a capture, `announce`; `abort` in a row.

`arm`, `service`, `collect` and `cut` are one critical section each, in which the recorder alone has
the timer's registers and which takes no time; every other action is one operation on a semaphore.
Who comes in between any two of them is left to whoever puts them in a row.

Left out: the clients' waits, which are semaphore operations that are not possible yet, and what is
logged. The registers come from `Timer.Registers.initial`, as nothing is armed before the takeover.
-/

namespace SwitchBench

/-- A recorder with its timer. -/
structure Recorder where
  timer : Timer.Registers
  aborted : Bool
  timeoutTicks : Nat
  bounceTicks : Nat
  mask : PerChannel Bool
  available : Semaphore
  done : Semaphore
  deriving DecidableEq, Repr

namespace Recorder

open Timer

/-- A recorder that has just taken over its timer. -/
def initial : Recorder where
  timer := .initial
  aborted := false
  timeoutTicks := 0
  bounceTicks := 0
  mask := .const false
  available := .permit
  done := .flag

instance : Inhabited Recorder := ⟨initial⟩

/-! ## Handling events -/

/-- The timer at rest: not armed, not counting, no event enabled. -/
def quiesce (t : Registers) (now : Nat) : Registers :=
  (t.disarm.stopCounter now).setInterrupts .none

/-- Cuts the window to end one bounce from now, if that is earlier than its end. -/
def cutWindow (t : Registers) (bounceTicks now : Nat) : Registers :=
  let t := t.stopCounter now
  let ticks := max (min (t.counterAt now + bounceTicks) Limits.wordMax) 1
  (if ticks < t.reload then t.setReload ticks else t).startCounter now

/-- Handles one pending event; says whether it was the end of the window. -/
def service (r : Recorder) (now : Nat) : Recorder × Bool :=
  let t := r.timer
  let pending := t.status.inter t.interrupts
  if r.aborted then (r, false)
  else if pending.trigger then
    ({ r with timer :=
        (t.setInterrupts (t.interrupts.diff .triggerOnly)).clear .triggerOnly }, false)
  else if pending.update then ({ r with timer := quiesce t now }, true)
  else if pending.capture.ch0 || pending.capture.ch1 then
    let captured := PerChannel.zipWith (· && ·) t.status.capture r.mask
    let u := if captured = r.mask then cutWindow t r.bounceTicks now else t
    ({ r with timer := u.setInterrupts (t.interrupts.diff (.captures captured)) }, false)
  else (r, false)

/-- Announces the end of a capture. -/
def announce (r : Recorder) : Recorder := { r with done := r.done.give }

/-- The timer's handler: one event, and the announcement if it was the last one. -/
def handle (r : Recorder) (now : Nat) : Recorder :=
  let (r, ended) := r.service now
  if ended then r.announce else r

/-- Calls the handler while an enabled event is pending. -/
def settle (r : Recorder) (now : Nat) : Recorder :=
  Timer.settle (·.timer.pending) (·.handle now) Limits.handlerCallsMax r

/-! ## Events at the inputs of the timer -/

/-- A trigger edge; says whether it started the counter. -/
def trigger (r : Recorder) (now : Nat) : Recorder × Bool :=
  let (t, started) := r.timer.trigger now
  let r := { r with timer := t }
  (if started then r.settle now else r, started)

/-- An edge on a channel; says whether it was taken. -/
def edge (r : Recorder) (c : Channel) (e : Edge) (now : Nat) : Recorder × Bool :=
  let (t, taken) := r.timer.edge c e now
  let r := { r with timer := t }
  (if taken then r.settle now else r, taken)

/-- The end of the timer's period at its instant. -/
def expire (r : Recorder) (deadline now : Nat) : Recorder :=
  { r with timer := r.timer.expire deadline }.settle now

/-! ## What clients do -/

/-- The channels that a capture in some directions is to watch. -/
def maskOf (s : CaptureSetup) (d : Directions) : PerChannel Bool :=
  s.channels.map (·.directions.intersects d)

/-- May a setup be used at all? -/
def admits (s : CaptureSetup) : Except Fault Unit :=
  if s.Valid then .ok () else .error .windowTooLong

/-- Takes the permit to capture, if the last capture has been collected. -/
def takePermit? (r : Recorder) : Option Recorder :=
  r.available.take?.map fun s => { r with available := s }

/-- The registers of an armed capture: the watched channels are set up and on, nothing has
happened yet, and the counter stands at zero and waits for the trigger. -/
def armTimer (t : Registers) (s : CaptureSetup) (d : Directions) (now : Nat) : Registers :=
  let mask := maskOf s d
  let t := { t with
    enabled := mask
    polarity := ⟨if mask.ch0 then s.channels.ch0.edge else t.polarity.ch0,
      if mask.ch1 then s.channels.ch1.edge else t.polarity.ch1⟩ }
  let t := ((t.stopCounter now).resetCounter now).clear .all
  let t := t.setInterrupts ⟨true, true, mask, .const false⟩
  (t.setReload s.windowTicks).arm

/-- Arms a capture, in one critical section. -/
def arm (r : Recorder) (s : CaptureSetup) (d : Directions) (now : Nat) : Recorder :=
  { r with
      timer := armTimer r.timer s d now
      aborted := false
      timeoutTicks := s.timeoutTicks
      bounceTicks := s.bounceTicks
      mask := maskOf s d }

/-- Starts a capture, unless the last one has not been collected. -/
def start? (r : Recorder) (s : CaptureSetup) (d : Directions) (now : Nat) : Option Recorder :=
  r.takePermit?.map (·.arm s d now)

/-- The reading of a latched edge: one that came after the timeout came too late. -/
def readingOf (timeoutTicks ticks : Nat) (again : Bool) : Reading where
  status := if again then .overcapture else if timeoutTicks < ticks then .timeout else .ok
  valueUs := min (ticks * Limits.tickUs) Limits.wordMax

/-- Reads one enabled channel out of the timer, given the events at the start of the readout. -/
def readChannel (t : Registers) (events : Flags) (timeoutTicks : Nat) (c : Channel) :
    Registers × Reading :=
  if events.capture.get c then
    let (t, ticks) := t.readLatched c
    let again := events.overcapture.get c
    (if again then t.clear (.overcaptureOf c) else t, readingOf timeoutTicks ticks again)
  else (t, ⟨.timeout, Limits.noValueUs⟩)

/-- Reads the enabled channels out of the timer, in channel order. -/
def readOut (t : Registers) (timeoutTicks : Nat) : Registers × List Reading :=
  Channel.all.foldl (fun (u, readings) c =>
    if u.enabled.get c then
      let (u, reading) := readChannel u t.status timeoutTicks c
      (u, readings ++ [reading])
    else (u, readings)) (t, [])

/-- Takes the end of a capture, if it has been announced. -/
def takeDone? (r : Recorder) : Option Recorder :=
  r.done.take?.map fun s => { r with done := s }

/-- Reads out a capture that has ended, in one critical section; `none` if it was aborted. -/
def collect (r : Recorder) : Recorder × Option (List Reading) :=
  if r.aborted then (r, none)
  else
    let (t, readings) := readOut r.timer r.timeoutTicks
    ({ r with timer := t }, some readings)

/-- Gives the permit to capture back. -/
def givePermit (r : Recorder) : Recorder := { r with available := r.available.give }

/-- A result buffer of some length filled with readings from its start, the rest blank. -/
def fill (length : Nat) (readings : List Reading) : List Reading :=
  readings.take length ++ List.replicate (length - readings.length) .blank

/-- Collects a capture that has ended into a buffer; an aborted one leaves the buffer as it is. -/
def finish? (r : Recorder) (buffer : List Reading) :
    Option (Recorder × CaptureOutcome × List Reading) :=
  r.takeDone?.map fun r =>
    let (r, collected) := r.collect
    (r.givePermit, match collected with
      | some readings => (.ok, fill buffer.length readings)
      | none => (.aborted, buffer))

/-- Aborts a capture that is armed or running, in one critical section; says whether there was
one. -/
def cut (r : Recorder) (now : Nat) : Recorder × Bool :=
  if r.timer.armed then ({ r with timer := quiesce r.timer now, aborted := true }, true)
  else (r, false)

/-- Aborts a capture and announces its end. -/
def abort (r : Recorder) (now : Nat) : Recorder × Bool :=
  let (r, was) := r.cut now
  (if was then r.announce else r, was)

end Recorder

end SwitchBench
