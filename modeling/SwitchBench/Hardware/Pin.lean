/-!
# Output pins

An output line has a level and counts its changes. Driving it to the level it has is no change.
`PinBoard` is one named line with several handles on it, all of which drive the same line, and
with listeners that are told of every change.
-/

namespace SwitchBench

/-- An output line. -/
structure Pin where
  level : Bool
  toggles : Nat
  deriving DecidableEq, Repr

namespace Pin

/-- A line at its first level. -/
def ofLevel (level : Bool) : Pin := ⟨level, 0⟩

instance : Inhabited Pin := ⟨ofLevel false⟩

/-- Drives the line to a level. -/
def drive (p : Pin) (high : Bool) : Pin :=
  if p.level = high then p else ⟨high, p.toggles + 1⟩

@[simp] theorem level_drive (p : Pin) (high : Bool) : (p.drive high).level = high := by
  unfold drive; split <;> simp_all

theorem toggles_drive (p : Pin) (high : Bool) :
    (p.drive high).toggles = if p.level = high then p.toggles else p.toggles + 1 := by
  unfold drive; split <;> rfl

end Pin

/-- A named line with handles and listeners. -/
structure PinBoard where
  name : String
  pin : Pin
  handles : Nat
  listeners : Nat
  deriving DecidableEq, Repr

/-- What can be done through a handle. -/
inductive PinCall where
  | set (high : Bool)
  | addHandle
  | addListener
  deriving DecidableEq, Repr

namespace PinBoard

/-- A line with one handle and no listener. -/
def ofLevel (name : String) (level : Bool) : PinBoard := ⟨name, .ofLevel level, 1, 0⟩

/-- A call, and what the listeners hear: each its number and the new level. -/
def call (b : PinBoard) : PinCall → PinBoard × List (Nat × Bool)
  | .set high =>
    ({ b with pin := b.pin.drive high },
      if b.pin.level = high then [] else (List.range b.listeners).map (·, high))
  | .addHandle => ({ b with handles := b.handles + 1 }, [])
  | .addListener => ({ b with listeners := b.listeners + 1 }, [])

/-- A character of a name in quotes: a control that has no sign of its own is written by its
number. -/
def quoteChar (c : Char) : String :=
  if c = '"' then "\\\""
  else if c = '\\' then "\\\\"
  else if c = '\n' then "\\n"
  else if c = '\r' then "\\r"
  else if c = '\t' then "\\t"
  else if c = '\x00' then "\\0"
  else if c.toNat < 32 ∨ (127 ≤ c.toNat ∧ c.toNat < 160) then
    "\\u\x7b" ++ String.ofList (Nat.toDigits 16 c.toNat) ++ "\x7d"
  else c.toString

/-- The line in one row of text. -/
def text (b : PinBoard) : String :=
  "SimPin \x7b name: \"" ++ String.join (b.name.toList.map quoteChar) ++ "\", level: "
    ++ toString b.pin.level ++ ", toggles: " ++ toString b.pin.toggles ++ " \x7d"

end PinBoard

end SwitchBench
