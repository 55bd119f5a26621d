import SwitchBench.Capture.Directions
import SwitchBench.Settings.Problem

/-!
# Capture channels

The bench has two capture channels. `PerChannel` holds one value for each of them; `ChannelSetup` is
what a channel is told to capture, and a `Reading` what a capture reports for one: whether and how
it triggered, and the time from the trigger of the window to its first edge.
-/

namespace SwitchBench

/-- One of the two capture channels. -/
abbrev Channel := Fin 2

/-- The polarity of an edge. -/
inductive Edge where
  | rising
  | falling
  deriving DecidableEq, Repr

namespace Edge

/-- The written form. -/
def text : Edge → String
  | rising => "rising"
  | falling => "falling"

/-- The edge of a written form. -/
def ofText? (word : String) : Option Edge := [rising, falling].find? (·.text == word)

instance : Inhabited Edge := ⟨rising⟩

end Edge

/-- A value for each channel. -/
structure PerChannel (α : Type) where
  ch0 : α
  ch1 : α
  deriving DecidableEq, Repr

namespace PerChannel

variable {α β : Type}

instance [Inhabited α] : Inhabited (PerChannel α) := ⟨⟨default, default⟩⟩

/-- The same value for both channels. -/
def const (a : α) : PerChannel α := ⟨a, a⟩

/-- The value for one channel. -/
def get (v : PerChannel α) (c : Channel) : α := if c = 0 then v.ch0 else v.ch1

/-- The values with another one for one channel. -/
def set (v : PerChannel α) (c : Channel) (a : α) : PerChannel α :=
  if c = 0 then { v with ch0 := a } else { v with ch1 := a }

def map (f : α → β) (v : PerChannel α) : PerChannel β := ⟨f v.ch0, f v.ch1⟩

def zipWith (f : α → α → β) (v w : PerChannel α) : PerChannel β := ⟨f v.ch0 w.ch0, f v.ch1 w.ch1⟩

/-- The values in channel order. -/
def toList (v : PerChannel α) : List α := [v.ch0, v.ch1]

@[simp] theorem get_const (a : α) (c : Channel) : (const a).get c = a := by
  unfold get const; split <;> rfl

@[simp] theorem get_set (v : PerChannel α) (c d : Channel) (a : α) :
    (v.set c a).get d = if c = d then a else v.get d := by
  match c, d with
  | 0, 0 => rfl
  | 0, 1 => rfl
  | 1, 0 => rfl
  | 1, 1 => rfl

@[simp] theorem get_map (f : α → β) (v : PerChannel α) (c : Channel) :
    (v.map f).get c = f (v.get c) := by
  unfold get map; split <;> rfl

@[simp] theorem get_zipWith (f : α → α → β) (v w : PerChannel α) (c : Channel) :
    (zipWith f v w).get c = f (v.get c) (w.get c) := by
  unfold get zipWith; split <;> rfl

theorem or_eq_true_iff {v : PerChannel Bool} : (v.ch0 || v.ch1) = true ↔ ∃ c, v.get c = true := by
  rw [Bool.or_eq_true_iff, Fin.exists_fin_two]
  exact Iff.rfl

end PerChannel

/-- Both channels, in order. -/
def Channel.all : List Channel := [0, 1]

/-- The channel of an index. -/
def Channel.ofNat? (n : Nat) : Option Channel := if h : n < 2 then some ⟨n, h⟩ else none

theorem Channel.val_of_ofNat? {n : Nat} {c : Channel} (h : ofNat? n = some c) : c.val = n := by
  unfold ofNat? at h
  split at h <;> cases h
  rfl

/-- What one channel captures: for which directions, on which edge, and under which name. -/
structure ChannelSetup where
  directions : Directions
  edge : Edge
  name : String
  deriving DecidableEq, Repr

namespace ChannelSetup

/-- A nameless channel that captures nothing. -/
def unused : ChannelSetup := ⟨.none, .rising, ""⟩

instance : Inhabited ChannelSetup := ⟨unused⟩

/-- A name short enough for a channel. -/
def FitsName (name : String) : Prop := name.utf8ByteSize ≤ Limits.channelNameMax

instance (name : String) : Decidable (FitsName name) := inferInstanceAs (Decidable (_ ≤ _))

/-- A channel under a name, if the name is short enough. -/
def named (directions : Directions) (edge : Edge) (name : String) : Except Problem ChannelSetup :=
  if FitsName name then .ok ⟨directions, edge, name⟩ else .error (.channelNameTooLong name)

end ChannelSetup

/-- How a channel fared in a capture. -/
inductive ReadingStatus where
  | timeout
  | ok
  | overcapture
  deriving DecidableEq, Repr

/-- The written form. -/
def ReadingStatus.text : ReadingStatus → String
  | timeout => "TIMEOUT"
  | ok => "OK"
  | overcapture => "OVERCAPTURE"

/-- The status of a written form. -/
def ReadingStatus.ofText? (word : String) : Option ReadingStatus :=
  [timeout, ok, overcapture].find? (·.text == word)

/-- The reading of one channel. -/
structure Reading where
  status : ReadingStatus
  valueUs : Nat
  deriving DecidableEq, Repr

namespace Reading

/-- The reading of a slot that no channel fills. -/
def blank : Reading := ⟨.timeout, 0⟩

instance : Inhabited Reading := ⟨blank⟩

/-- Did the channel see an edge in time? -/
def triggered (r : Reading) : Bool := r.status != .timeout

end Reading

end SwitchBench
