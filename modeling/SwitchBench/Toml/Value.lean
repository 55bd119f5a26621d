/-!
# TOML values

What a TOML document can hold, and a few ways to look at a value: as a word of an enumeration, as
a sequence, and as a record whose fields are known (`Value.fields?`).

A table or an array remembers how it came about (`Origin`), since that decides what a document may
still add to it. Readers of settings do not look at it.
-/

namespace SwitchBench.Toml

/-- A calendar date. -/
structure Date where
  year : Nat
  month : Nat
  day : Nat
  deriving DecidableEq, Repr

/-- A time of day. -/
structure Time where
  hour : Nat
  minute : Nat
  second : Nat
  nanosecond : Nat
  deriving DecidableEq, Repr

/-- A date, a time of day, or both, and then perhaps with an offset from universal time. -/
structure DateTime where
  date : Option Date
  time : Option Time
  offsetMinutes : Option Int
  deriving DecidableEq, Repr

/-- A real number as it is written. -/
inductive Real where
  /-- A mantissa times a power of ten. -/
  | finite (mantissa exponent : Int)
  | infinite (negative : Bool)
  | notANumber
  deriving DecidableEq, Repr

namespace Real

/-- From here on a magnitude is rounded to infinity: halfway between the largest double and the
next power of two. -/
def overflow : Nat := Nat.pow 2 1024 - Nat.pow 2 970

/-- Does the number round to a finite double, unless it is written as infinite? -/
def representable : Real → Bool
  | finite m e =>
    if m = 0 then true
    else if 0 ≤ e then e ≤ 400 && m.natAbs * Nat.pow 10 e.toNat < overflow
    else m.natAbs.log2 < (-e).toNat || m.natAbs < overflow * Nat.pow 10 (-e).toNat
  | _ => true

end Real

/-- How a table or an array came about. -/
inductive Origin where
  /-- It was written out as a value, and is complete. -/
  | written
  /-- It has a header of its own. -/
  | headed
  /-- A header below it named it. -/
  | implied
  /-- A dotted key named it. -/
  | dotted
  deriving DecidableEq, Repr

/-- A value. The keys of a table differ, and its entries are in the order they were written. -/
inductive Value where
  | text (s : String)
  | integer (n : Int)
  | real (x : Real)
  | boolean (b : Bool)
  | dateTime (d : DateTime)
  | array (origin : Origin) (items : List Value)
  | table (origin : Origin) (entries : List (String × Value))
  deriving Inhabited

/-- The entries of a table. -/
abbrev Entries := List (String × Value)

namespace Value

/-- The smallest and the largest integer that any reader can take. -/
def integerMin : Int := -Int.pow 2 127
def integerMax : Int := Int.pow 2 128 - 1

mutual

/-- Are all numbers in the value within what a reader can take? -/
def representable : Value → Bool
  | integer n => integerMin ≤ n && n ≤ integerMax
  | real x => x.representable
  | array _ items => allRepresentable items
  | table _ entries => entriesRepresentable entries
  | _ => true

def allRepresentable : List Value → Bool
  | [] => true
  | v :: rest => v.representable && allRepresentable rest

def entriesRepresentable : List (String × Value) → Bool
  | [] => true
  | (_, v) :: rest => v.representable && entriesRepresentable rest

end

/-- The text, if it is one. -/
def text? : Value → Option String
  | text s => some s
  | _ => none

/-- The integer, if it is one within bounds. -/
def integerIn? (lo hi : Int) : Value → Option Int
  | integer n => if lo ≤ n ∧ n ≤ hi then some n else none
  | _ => none

/-- The natural number, if it is one up to a bound. -/
def naturalUpTo? (hi : Nat) (v : Value) : Option Nat := (v.integerIn? 0 hi).map Int.toNat

theorem le_of_naturalUpTo? {hi n : Nat} {v : Value} (h : v.naturalUpTo? hi = some n) : n ≤ hi := by
  obtain ⟨i, hv, rfl⟩ := Option.map_eq_some_iff.1 h
  cases v with
  | integer m =>
    obtain ⟨⟨-, hle⟩, hm⟩ := Option.ite_none_right_eq_some.1 hv
    cases hm
    exact Int.toNat_le.2 hle
  | _ => cases hv

/-- The items, if it is an array. -/
def items? : Value → Option (List Value)
  | array _ items => some items
  | _ => none

/-- A word of an enumeration: a text, or a table that has the word as its only key and nothing
under it. -/
def word? : Value → Option String
  | text s => some s
  | table _ [(s, table _ [])] => some s
  | table _ [(s, array _ [])] => some s
  | _ => none

/-- The fields of a record, each of them if it is there. They are found by their keys in a table,
and by their places in an array. Other entries of a table are not looked at, except that their
numbers must be representable; a date-time is a record without fields. -/
def fields? (names : List String) : Value → Option (List (Option Value))
  | table _ entries =>
    if entriesRepresentable (entries.filter (!names.contains ·.1)) then
      some (names.map (List.lookup · entries))
    else none
  | array _ items => some ((List.range names.length).map (items[·]?))
  | dateTime _ => some (names.map fun _ => none)
  | _ => none

end Value

end SwitchBench.Toml
