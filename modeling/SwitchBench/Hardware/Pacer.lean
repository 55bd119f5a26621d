/-!
# Step timers

A step timer fires at a fixed period from the moment it is started, and whoever waits for it gets
the later of its next firing and the present. What it does after a late wait is its `Catchup`:

* `restart`: the next firing is one period after the wait ended;
* `steady`: firings stay on their grid, unless the wait ended more than a period after the next
  firing; then the grid restarts, so that missed firings come as no burst.

Assumed: a wait ends no earlier than the firing it waits for. How much later it ends is left open:
`waited` is told the instant.
-/

namespace SwitchBench

/-- What a timer does after a late wait. -/
inductive Catchup where
  | restart
  | steady
  deriving DecidableEq, Repr

/-- A step timer; its period and next firing while it runs. -/
structure Pacer where
  catchup : Catchup
  running : Option (Nat × Nat)
  deriving DecidableEq, Repr

namespace Pacer

/-- A stopped timer. -/
def stopped (catchup : Catchup) : Pacer := ⟨catchup, none⟩

def isRunning (p : Pacer) : Bool := p.running.isSome

/-- Starts the timer; it first fires one period from now. -/
def start (p : Pacer) (now periodUs : Nat) : Pacer :=
  { p with running := some (periodUs, now + periodUs) }

def stop (p : Pacer) : Pacer := { p with running := none }

/-- When the timer fires next. -/
def next? (p : Pacer) : Option Nat := p.running.map (·.2)

/-- The firing after one at `due` for which the wait ended at `ended`. -/
def nextFiring (catchup : Catchup) (periodUs due ended : Nat) : Nat :=
  match catchup with
  | .restart => ended + periodUs
  | .steady => if due + periodUs + periodUs < ended then ended + periodUs else due + periodUs

/-- The timer after a wait that ended at an instant. -/
def waited (p : Pacer) (ended : Nat) : Pacer :=
  { p with
      running := p.running.map fun (periodUs, due) =>
        (periodUs, nextFiring p.catchup periodUs due ended) }

end Pacer

/-- What can be asked of a step timer on its own. -/
inductive PacerCall where
  | start (us : Nat)
  | stop
  | sync
  | sleep (us : Nat)
  deriving DecidableEq, Repr

/-- A call at an instant: the instant after it, the timer, and for a wait whether it ran. -/
def Pacer.call (p : Pacer) (now : Nat) : PacerCall → Nat × Pacer × Option Bool
  | .start us => (now, p.start now us, none)
  | .stop => (now, p.stop, none)
  | .sleep us => (now + us, p, none)
  | .sync =>
    match p.next? with
    | none => (now, p, some false)
    | some due => (max now due, p.waited (max now due), some true)

end SwitchBench
