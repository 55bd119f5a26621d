import SwitchBench.Toml.Text
import SwitchBench.Toml.Value

/-!
# Values without quotation marks

Booleans, integers, real numbers, and dates and times, each read from the whole of a word.

Digits may be grouped by single underscores. A decimal number has no leading zeros, and only it has
a sign. A date and a time of day are joined by a letter or by one space, the seconds of a time can
be left out, and an offset from universal time needs both a date and a time.
-/

namespace SwitchBench.Toml

/-- The digits of a word of digits, in which single underscores may stand between two digits. -/
def digits? (isDigit : Char → Bool) : List Char → Option (List Char)
  | [] => none
  | [c] => if isDigit c then some [c] else none
  | c :: '_' :: rest => if isDigit c then (digits? isDigit rest).map (c :: ·) else none
  | c :: rest => if isDigit c then (digits? isDigit rest).map (c :: ·) else none

/-- Decimal digits without leading zeros. -/
def plainDigits? (word : List Char) : Option (List Char) := do
  let digits ← digits? Char.isDigit word
  if digits.head? = some '0' ∧ 1 < digits.length then none else some digits

/-- Splits a sign off a word; says whether it was a minus. -/
def sign : List Char → Bool × List Char
  | '-' :: rest => (true, rest)
  | '+' :: rest => (false, rest)
  | word => (false, word)

/-- A number with a sign. -/
def signed (negative : Bool) (n : Nat) : Int := if negative then -n else n

/-- Is the character a digit in a base? -/
def isDigitIn (base : Nat) (c : Char) : Bool := isHexDigit c && digitValue c < base

namespace Value

/-- The integer that a word writes. -/
def integerOfWord? (word : List Char) : Option Int :=
  let inBase (base : Nat) (rest : List Char) : Option Int :=
    (digits? (isDigitIn base) rest).map fun d => (numberOf base d : Int)
  match word with
  | '0' :: 'x' :: rest => inBase 16 rest
  | '0' :: 'o' :: rest => inBase 8 rest
  | '0' :: 'b' :: rest => inBase 2 rest
  | word =>
    let (negative, rest) := sign word
    (plainDigits? rest).map fun d => signed negative (numberOf 10 d)

/-- The exponent at the end of a real number, if there is one. -/
def exponentOfWord? : List Char → Option Int
  | [] => some 0
  | c :: rest =>
    if c = 'e' ∨ c = 'E' then
      let (negative, rest) := sign rest
      (digits? Char.isDigit rest).map fun d => signed negative (numberOf 10 d)
    else none

/-- The real number that a word writes: with a fraction, an exponent, or both. -/
def realOfWord? (word : List Char) : Option Real := do
  let (negative, rest) := sign word
  if rest = ['i', 'n', 'f'] then return .infinite negative
  if rest = ['n', 'a', 'n'] then return .notANumber
  let isPart (c : Char) : Bool := c.isDigit || c = '_'
  let (wholePart, rest) := rest.span isPart
  let wholePart ← plainDigits? wholePart
  match rest with
  | [] => none
  | '.' :: rest =>
    let (fraction, rest) := rest.span isPart
    let fraction ← digits? Char.isDigit fraction
    let e ← exponentOfWord? rest
    return .finite (signed negative (numberOf 10 (wholePart ++ fraction))) (e - fraction.length)
  | rest => return .finite (signed negative (numberOf 10 wholePart)) (← exponentOfWord? rest)

end Value

/-! ## Dates and times -/

/-- Number of days in a month. -/
def daysInMonth (year month : Nat) : Nat :=
  if month = 2 then
    if year % 4 = 0 ∧ (year % 100 ≠ 0 ∨ year % 400 = 0) then 29 else 28
  else if month = 4 ∨ month = 6 ∨ month = 9 ∨ month = 11 then 30
  else 31

/-- A date of the calendar. -/
def Date.Valid (d : Date) : Prop :=
  1 ≤ d.month ∧ d.month ≤ 12 ∧ 1 ≤ d.day ∧ d.day ≤ daysInMonth d.year d.month

instance (d : Date) : Decidable d.Valid := inferInstanceAs (Decidable (_ ∧ _))

/-- A time of a day; a leap second may be added to any minute. -/
def Time.Valid (t : Time) : Prop := t.hour ≤ 23 ∧ t.minute ≤ 59 ∧ t.second ≤ 60

instance (t : Time) : Decidable t.Valid := inferInstanceAs (Decidable (_ ∧ _))

namespace Reader

/-- A number of so many decimal digits. -/
def decimal (n : Nat) : Reader Nat := numberOf 10 <$> exactly n Char.isDigit

/-- A date. -/
def date : Reader Date := do
  let year ← decimal 4
  expect ['-']
  let month ← decimal 2
  expect ['-']
  let d : Date := ⟨year, month, ← decimal 2⟩
  if d.Valid then return d else failure

/-- Nanoseconds, from the digits of a fraction of a second; further digits are dropped. -/
def nanoseconds (fraction : List Char) : Nat :=
  numberOf 10 ((fraction ++ List.replicate 9 '0').take 9)

/-- A time of day. -/
def time : Reader Time := do
  let hour ← decimal 2
  expect [':']
  let minute ← decimal 2
  let t : Time ←
    if ← accept [':'] then
      let second ← decimal 2
      if ← accept ['.'] then pure ⟨hour, minute, second, nanoseconds (← run1 Char.isDigit)⟩
      else pure ⟨hour, minute, second, 0⟩
    else pure ⟨hour, minute, 0, 0⟩
  if t.Valid then return t else failure

/-- An offset from universal time in minutes, if there is one. -/
def offset? : Reader (Option Int) := do
  match ← peek? with
  | none => return none
  | some c =>
    let _ ← anyChar
    if c = 'Z' ∨ c = 'z' then return some 0
    else if c = '+' ∨ c = '-' then
      let hours ← decimal 2
      expect [':']
      let minutes ← decimal 2
      if hours ≤ 23 ∧ minutes ≤ 59 then return some (signed (c = '-') (hours * 60 + minutes))
      else failure
    else failure

/-- A date and time, of which either part can be missing. -/
def dateTime : Reader DateTime := do
  if ((← get)[2]?) = some ':' then return ⟨none, some (← time), none⟩
  let d ← date
  match ← peek? with
  | none => return ⟨some d, none, none⟩
  | some c =>
    let _ ← anyChar
    if c = 'T' ∨ c = 't' ∨ c = ' ' then
      let t ← time
      return ⟨some d, some t, ← offset?⟩
    else failure

/-- A character that can stand in a word without quotation marks. -/
def isWordChar (c : Char) : Bool :=
  !(['=', ',', '[', ']', '\x7b', '\x7d', ' ', '\t', '#', '\r', '\n'].contains c)

/-- A word without quotation marks. A space is part of it if a digit follows, for the sake of a
date and a time. -/
def word : Reader (List Char) := do
  let w ← run1 isWordChar
  match ← get with
  | ' ' :: c :: _ =>
    if c.isDigit then
      let _ ← anyChar
      return w ++ ' ' :: (← run isWordChar)
    else return w
  | _ => return w

end Reader

namespace Value

/-- The value that a word without quotation marks writes. -/
def ofWord? (word : List Char) : Option Value :=
  if word = ['t', 'r', 'u', 'e'] then some (boolean true)
  else if word = ['f', 'a', 'l', 's', 'e'] then some (boolean false)
  else (integerOfWord? word).map integer
    <|> (realOfWord? word).map real
    <|> (Reader.dateTime.whole word).map dateTime

end Value

end SwitchBench.Toml
