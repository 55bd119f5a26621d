/-!
# Capture directions

For which directions of movement a channel is captured: any set of up and down. Sets have a
written keyword, read without regard to the case of ASCII letters, and a title.

Results: a set is told by its bits (`ofBits_bits`).
-/

namespace SwitchBench

/-- A set of movement directions. -/
structure Directions where
  up : Bool
  down : Bool
  deriving DecidableEq, Repr

namespace Directions

def none : Directions := ⟨false, false⟩
def upward : Directions := ⟨true, false⟩
def downward : Directions := ⟨false, true⟩
def both : Directions := ⟨true, true⟩

instance : Inhabited Directions := ⟨none⟩

/-- All four sets, in the order of their bits. -/
def all : List Directions := [none, upward, downward, both]

/-- The direction of a movement. -/
def ofDown (down : Bool) : Directions := if down then downward else upward

def union (a b : Directions) : Directions := ⟨a.up || b.up, a.down || b.down⟩

/-- Do the sets share a direction? -/
def intersects (a b : Directions) : Bool := (a.up && b.up) || (a.down && b.down)

/-- Is every direction of the second set in the first? -/
def contains (a b : Directions) : Bool := (!b.up || a.up) && (!b.down || a.down)

/-- Number of directions in the set. -/
def size (d : Directions) : Nat := d.up.toNat + d.down.toNat

/-- The set as a number: one for up, two for down. -/
def bits (d : Directions) : Nat := d.up.toNat + 2 * d.down.toNat

/-- The set of a number's two low bits. -/
def ofBits (n : Nat) : Directions := ⟨n.testBit 0, n.testBit 1⟩

/-- The set of a number that has no other bits. -/
def ofBits? (n : Nat) : Option Directions := if n ≤ 3 then some (ofBits n) else Option.none

/-- The written keyword. -/
def keyword : Directions → String
  | ⟨false, false⟩ => "none"
  | ⟨true, false⟩ => "up"
  | ⟨false, true⟩ => "down"
  | ⟨true, true⟩ => "both"

/-- The name of the set at the start of a line. -/
def title : Directions → String
  | ⟨false, false⟩ => "None"
  | ⟨true, false⟩ => "Up"
  | ⟨false, true⟩ => "Down"
  | ⟨true, true⟩ => "Both"

/-- An ASCII capital as the small letter, any other character as it is. -/
def foldCase (c : Char) : Char :=
  if 'A' ≤ c ∧ c ≤ 'Z' then Char.ofNat (c.toNat + 32) else c

/-- The set with a keyword, in whatever case its ASCII letters are. -/
def ofKeyword? (word : String) : Option Directions :=
  all.find? fun d => d.keyword.toList == word.toList.map foldCase

/-- The complaint about a word that is no keyword. -/
def unknownKeyword (word : String) : String :=
  s!"invalid capture direction '{word}', expected none/up/down/both"

theorem ofBits_bits (d : Directions) : ofBits d.bits = d := by
  rcases d with ⟨_ | _, _ | _⟩ <;> decide

theorem intersects_both (d : Directions) : d.intersects both = decide (0 < d.size) := by
  rcases d with ⟨_ | _, _ | _⟩ <;> rfl

@[simp] theorem intersects_none (d : Directions) : d.intersects none = false := by
  rcases d with ⟨_ | _, _ | _⟩ <;> rfl

theorem intersects_ofDown (d : Directions) (down : Bool) :
    d.intersects (ofDown down) = if down then d.down else d.up := by
  rcases d with ⟨_ | _, _ | _⟩ <;> cases down <;> rfl

end Directions

end SwitchBench
