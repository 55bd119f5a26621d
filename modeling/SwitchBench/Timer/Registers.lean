import SwitchBench.Timer.Flags

/-!
# The capture timer

An up-counter with a trigger input and two capture channels. Once armed, the next trigger starts
the counter; an enabled channel latches the count on its edge; and when the count reaches the
reload value the period ends, an update event is raised and counting starts again from zero.

Every function is one access to the registers of the simulated timer, under their lock: a setting
(`setPolarity`, `setInterrupts`, `clear` and so on), an input (`trigger`, `edge`), or what the
thread that watches for the end of a period does to them when it comes (`expire`). What it does
late it does as of the instant that was due.

The counter is not kept but computed: it remembers when counting began and from where, and gains
one for every whole tick since. `counterAt` and `expiry` are the two views of that.

Handlers are no part of the registers. `settle` is how the timer calls one: again and again while
an enabled event is pending, and at most `Limits.handlerCallsMax` times for one event.

Assumed: instants are microseconds of one clock that does not go back. Left out: the bound of a
word, as a count is held at the reload value, and inputs that are no channel, which the timer turns
down before it looks at a register.
-/

namespace SwitchBench.Timer

/-- The state of the capture timer. -/
structure Registers where
  status : Flags
  interrupts : Flags
  reload : Nat
  latched : PerChannel Nat
  enabled : PerChannel Bool
  polarity : PerChannel Edge
  armed : Bool
  since : Option Nat
  base : Nat
  deriving DecidableEq, Repr

namespace Registers

/-- A stopped timer with its channels off. -/
def initial : Registers where
  status := .none
  interrupts := .none
  reload := Limits.counterMax
  latched := .const 0
  enabled := .const false
  polarity := .const .rising
  armed := false
  since := none
  base := 0

instance : Inhabited Registers := ⟨initial⟩

/-! ## The counter -/

/-- Is the counter running? -/
def counting (r : Registers) : Bool := r.since.isSome

/-- The count at an instant: whole ticks since counting began, held at the reload value. -/
def counterAt (r : Registers) (now : Nat) : Nat :=
  match r.since with
  | none => r.base
  | some start => min (r.base + (now - start) / Limits.tickUs) (max r.reload r.base)

/-- When the count reaches the reload value; a zero reload value stalls the counter. -/
def expiry (r : Registers) : Option Nat :=
  match r.since with
  | none => none
  | some start =>
    if r.reload = 0 then none else some (start + Limits.tickUs * (r.reload - r.base))

/-- Is an event pending that calls the handler? -/
def pending (r : Registers) : Bool := (r.status.inter r.interrupts).any

/-- Back to zero; a running counter goes on from now. -/
def resetCounter (r : Registers) (now : Nat) : Registers :=
  { r with base := 0, since := r.since.map fun _ => now }

/-- Starts the counter where it stands. -/
def startCounter (r : Registers) (now : Nat) : Registers :=
  { r with since := some (r.since.getD now) }

/-- Stops the counter, which keeps its count. -/
def stopCounter (r : Registers) (now : Nat) : Registers :=
  { r with base := r.counterAt now, since := none }

/-! ## Settings -/

def setPolarity (r : Registers) (c : Channel) (e : Edge) : Registers :=
  { r with polarity := r.polarity.set c e }

def setEnabled (r : Registers) (c : Channel) (on : Bool) : Registers :=
  { r with enabled := r.enabled.set c on }

/-- Forgets the given events. -/
def clear (r : Registers) (f : Flags) : Registers := { r with status := r.status.diff f }

/-- Notes the given events without calling the handler. -/
def raise (r : Registers) (f : Flags) : Registers := { r with status := r.status.union f }

def setInterrupts (r : Registers) (f : Flags) : Registers := { r with interrupts := f }

def setReload (r : Registers) (ticks : Nat) : Registers := { r with reload := ticks }

def arm (r : Registers) : Registers := { r with armed := true }

def disarm (r : Registers) : Registers := { r with armed := false }

/-- Reads what a channel latched, which frees the channel for the next edge. -/
def readLatched (r : Registers) (c : Channel) : Registers × Nat :=
  (r.clear (.captureOf c), r.latched.get c)

/-! ## Events -/

/-- A trigger edge. It starts the counter if the trigger is armed and the counter stands still. -/
def trigger (r : Registers) (now : Nat) : Registers × Bool :=
  if r.armed && !r.counting then
    ({ r with since := some now, status := { r.status with trigger := true } }, true)
  else (r, false)

/-- An edge on a channel. It is taken if the counter runs and the channel is on and waits for this
polarity: the first such edge latches the count, and one that finds the latch unread is noted. -/
def edge (r : Registers) (c : Channel) (e : Edge) (now : Nat) : Registers × Bool :=
  if r.counting && r.enabled.get c && r.polarity.get c == e then
    if r.status.capture.get c then
      ({ r with status.overcapture := r.status.overcapture.set c true }, true)
    else
      ({ r with
          latched := r.latched.set c (r.counterAt now)
          status.capture := r.status.capture.set c true }, true)
  else (r, false)

/-- The end of a period at its instant. -/
def expire (r : Registers) (deadline : Nat) : Registers :=
  { r with status.update := true, base := 0, since := some deadline }

end Registers

/-- Calls a handler while something is pending, at most the given number of times. -/
def settle {σ : Type} (pending : σ → Bool) (handle : σ → σ) : Nat → σ → σ
  | 0, s => s
  | calls + 1, s => if pending s then settle pending handle calls (handle s) else s

theorem settle_of_not_pending {σ : Type} {pending : σ → Bool} {handle : σ → σ} {s : σ}
    (h : pending s = false) (n : Nat) : settle pending handle n s = s := by
  cases n <;> simp [settle, h]

end SwitchBench.Timer
