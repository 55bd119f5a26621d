import SwitchBench.Toml.Reader

/-!
# Text in a TOML document

Blanks, line ends and comments, the four kinds of quoted text, and keys.

In basic text a backslash escapes; literal text has no escapes. Either kind can be of several
lines, between three quotation marks: then a line end right after the opening marks is dropped,
one or two marks are part of the text, and a line end is kept as it stands. A backslash at the end
of a line drops all blanks and line ends up to the next character.
-/

namespace SwitchBench.Toml

/-- A space or a tab. -/
def isBlank (c : Char) : Bool := c = ' ' || c = '\t'

/-- A character that can stand in text of one line: no control character but the tab. -/
def isText (c : Char) : Bool := c = '\t' || (' ' ≤ c && c ≠ '\x7f')

def isHexDigit (c : Char) : Bool :=
  c.isDigit || ('a' ≤ c && c ≤ 'f') || ('A' ≤ c && c ≤ 'F')

/-- The value of a digit in any base up to sixteen. -/
def digitValue (c : Char) : Nat :=
  if c.isDigit then c.toNat - '0'.toNat
  else if c ≤ 'F' then c.toNat - 'A'.toNat + 10
  else c.toNat - 'a'.toNat + 10

/-- The number that digits write in a base. -/
def numberOf (base : Nat) (digits : List Char) : Nat :=
  digits.foldl (fun n c => base * n + digitValue c) 0

namespace Reader

/-- Skips spaces and tabs. -/
def blanks : Reader Unit := do let _ ← run isBlank

/-- Takes a line end if one comes next; says what it was made of. -/
def lineEnd? : Reader (Option (List Char)) := do
  if ← accept ['\n'] then return some ['\n']
  if ← accept ['\r', '\n'] then return some ['\r', '\n']
  return none

/-- Skips a comment, if one comes next, up to the end of its line. -/
def comment : Reader Unit := do
  if ← accept ['#'] then let _ ← run isText

/-- Skips blanks and a comment; then the line or the text must end. -/
def restOfLine : Reader Unit := do
  blanks
  comment
  if (← lineEnd?).isNone && (← peek?).isSome then failure

/-- Skips blanks, comments and line ends. -/
def space : Reader Unit :=
  loop (fun _ : Unit => do
    blanks
    comment
    if (← lineEnd?).isSome then return .inl () else return .inr ()) ()

/-! ## Quoted text -/

/-- The character that hexadecimal digits write. -/
def codePoint (digits : Nat) : Reader Char := do
  let n := numberOf 16 (← exactly digits isHexDigit)
  if n.isValidChar then return Char.ofNat n else failure

/-- What stands after a backslash. -/
def escape : Reader Char := do
  match ← anyChar with
  | 'b' => return '\x08'
  | 't' => return '\t'
  | 'n' => return '\n'
  | 'f' => return '\x0c'
  | 'r' => return '\r'
  | 'e' => return '\x1b'
  | '\x22' => return '\x22'
  | '\\' => return '\\'
  | 'x' => codePoint 2
  | 'u' => codePoint 4
  | 'U' => codePoint 8
  | _ => failure

/-- A round of basic text of one line. The text so far is held in reverse. -/
def basicRound (text : List Char) : Reader (List Char ⊕ String) := do
  match ← anyChar with
  | '\x22' => return .inr (String.ofList text.reverse)
  | '\\' => return .inl ((← escape) :: text)
  | c => if isText c then return .inl (c :: text) else failure

/-- A round of literal text of one line. -/
def literalRound (text : List Char) : Reader (List Char ⊕ String) := do
  match ← anyChar with
  | '\x27' => return .inr (String.ofList text.reverse)
  | c => if isText c then return .inl (c :: text) else failure

/-- A run of quotation marks in text of several lines: up to two are part of it, and the last
three of more close it. -/
def marks (mark : Char) (text : List Char) : Reader (List Char ⊕ String) := do
  let n := (← run (· = mark)).length
  if n < 3 then return .inl (List.replicate n mark ++ text)
  else if n ≤ 5 then
    return .inr (String.ofList (List.replicate (n - 3) mark ++ text).reverse)
  else failure

/-- A backslash at the end of a line: skips all blanks and line ends. -/
def continuation : Reader Unit := do
  blanks
  if (← lineEnd?).isNone then failure
  loop (fun _ : Unit => do
    blanks
    if (← lineEnd?).isSome then return .inl () else return .inr ()) ()

/-- A round of text of several lines between a kind of marks, with escapes or without. -/
def linesRound (mark : Char) (escapes : Bool) (text : List Char) :
    Reader (List Char ⊕ String) := do
  if (← peek?) = some mark then marks mark text
  else if let some l ← lineEnd? then return .inl (l.reverse ++ text)
  else
    let c ← anyChar
    if escapes && c = '\\' then
      match ← peek? with
      | some ' ' | some '\t' | some '\r' | some '\n' =>
        continuation
        return .inl text
      | _ => return .inl ((← escape) :: text)
    else if isText c then return .inl (c :: text)
    else failure

/-- Text of several lines, after its opening marks. -/
def lines (mark : Char) (escapes : Bool) : Reader String := do
  let _ ← lineEnd?
  loop (linesRound mark escapes) []

/-- Quoted text of one line, if a quotation mark comes next. -/
def quoted? : Reader (Option String) := do
  if ← accept ['\x22'] then return some (← loop basicRound [])
  if ← accept ['\x27'] then return some (← loop literalRound [])
  return none

/-- Quoted text of any kind, if a quotation mark comes next. -/
def text? : Reader (Option String) := do
  if ← accept ['\x22', '\x22', '\x22'] then return some (← lines '\x22' true)
  if ← accept ['\x27', '\x27', '\x27'] then return some (← lines '\x27' false)
  quoted?

/-! ## Keys -/

/-- A character of a key that is not quoted. -/
def isKeyChar (c : Char) : Bool := c.isAlphanum || c = '-' || c = '_'

/-- One part of a key. -/
def keyPart : Reader String := do
  match ← quoted? with
  | some s => return s
  | none => return String.ofList (← run1 isKeyChar)

/-- The most levels that keys and values can be nested. -/
def depthMax : Nat := 80

/-- A key: the keys of the tables it goes through, and its last part. Skips blanks after it. -/
def key : Reader (List String × String) := do
  let (path, last) ← loop (fun path : List String => do
    blanks
    let k ← keyPart
    blanks
    if ← accept ['.'] then return .inl (k :: path) else return .inr (path, k)) []
  if path.length < depthMax then return (path.reverse, last) else failure

end Reader

end SwitchBench.Toml
