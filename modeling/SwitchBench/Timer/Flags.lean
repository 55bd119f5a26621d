import SwitchBench.Capture.Channel
import SwitchBench.Fault

/-!
# Events of the capture timer

The capture timer reports six events: the end of its period, a trigger, and for each channel a
captured edge and an edge that came while the capture was still unread. `Flags` is a set of them;
the timer keeps one such set of events that happened and one of events that call its handler.

Each event has a place in a status word. Results: `ofBits_bits` (a set is told by its word).
-/

namespace SwitchBench.Timer

/-- A set of timer events. -/
structure Flags where
  update : Bool
  trigger : Bool
  capture : PerChannel Bool
  overcapture : PerChannel Bool
  deriving DecidableEq, Repr

namespace Flags

/-- No event. -/
def none : Flags := ⟨false, false, .const false, .const false⟩

/-- Every event. -/
def all : Flags := ⟨true, true, .const true, .const true⟩

/-- The trigger alone. -/
def triggerOnly : Flags := { none with trigger := true }

/-- The captures of the given channels. -/
def captures (c : PerChannel Bool) : Flags := { none with capture := c }

/-- The overcaptures of the given channels. -/
def overcaptures (c : PerChannel Bool) : Flags := { none with overcapture := c }

/-- The capture of one channel. -/
def captureOf (c : Channel) : Flags := captures ((PerChannel.const false).set c true)

/-- The overcapture of one channel. -/
def overcaptureOf (c : Channel) : Flags := overcaptures ((PerChannel.const false).set c true)

instance : Inhabited Flags := ⟨none⟩

def zipWith (f : Bool → Bool → Bool) (a b : Flags) : Flags :=
  ⟨f a.update b.update, f a.trigger b.trigger, .zipWith f a.capture b.capture,
    .zipWith f a.overcapture b.overcapture⟩

/-- The events of either set. -/
def union (a b : Flags) : Flags := zipWith (· || ·) a b

/-- The events of both sets. -/
def inter (a b : Flags) : Flags := zipWith (· && ·) a b

/-- The events of the first set that are not in the second. -/
def diff (a b : Flags) : Flags := zipWith (fun x y => x && !y) a b

/-- Is there an event in the set? -/
def any (a : Flags) : Bool :=
  a.update || a.trigger || (a.capture.ch0 || a.capture.ch1)
    || (a.overcapture.ch0 || a.overcapture.ch1)

/-! ## The status word -/

/-- Each event with its bit and its name, lowest bit first. -/
def layout : List (Nat × String × (Flags → Bool)) :=
  [(0, "UPDATE", (·.update)), (1, "CC0", (·.capture.ch0)), (2, "CC1", (·.capture.ch1)),
    (6, "TRIGGER", (·.trigger)), (9, "CC0_OVER", (·.overcapture.ch0)),
    (10, "CC1_OVER", (·.overcapture.ch1))]

/-- The set as a status word. -/
def bits (a : Flags) : Nat :=
  layout.foldl (fun n e => if e.2.2 a then n + Nat.pow 2 e.1 else n) 0

/-- The names of the events in the set, lowest bit first. -/
def names (a : Flags) : List String :=
  layout.filterMap fun e => if e.2.2 a then some e.2.1 else Option.none

/-- The set of a status word, unused bits left out. -/
def ofBits (n : Nat) : Flags :=
  ⟨n.testBit 0, n.testBit 6, ⟨n.testBit 1, n.testBit 2⟩, ⟨n.testBit 9, n.testBit 10⟩⟩

/-- Does a status word use no other bits? -/
def known (n : Nat) : Bool := (ofBits n).bits == n

/-- The capture of the channel with an index. -/
def captureAt (index : Nat) : Except Fault Flags :=
  match Channel.ofNat? index with
  | some c => .ok (captureOf c)
  | Option.none => .error .noCaptureChannel

/-- The overcapture of the channel with an index. -/
def overcaptureAt (index : Nat) : Except Fault Flags :=
  match Channel.ofNat? index with
  | some c => .ok (overcaptureOf c)
  | Option.none => .error .noCaptureChannel

theorem ofBits_bits (a : Flags) : ofBits a.bits = a := by
  rcases a with ⟨_ | _, _ | _, ⟨_ | _, _ | _⟩, ⟨_ | _, _ | _⟩⟩ <;> decide

/-! ## The sets event by event -/

@[simp] theorem any_eq_false_iff {a : Flags} : a.any = false ↔ a = none := by
  rcases a with ⟨_ | _, _ | _, ⟨_ | _, _ | _⟩, ⟨_ | _, _ | _⟩⟩ <;> decide

@[simp] theorem inter_none (a : Flags) : a.inter none = none := by
  rcases a with ⟨_ | _, _ | _, ⟨_ | _, _ | _⟩, ⟨_ | _, _ | _⟩⟩ <;> rfl

end Flags

end SwitchBench.Timer
