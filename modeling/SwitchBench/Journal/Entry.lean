import SwitchBench.Journal.Level

/-!
# Journal entries

An entry of the journal has a level, the part of the program that made it, a message and fields.
It is written either as one line of text or as one JSON object.
-/

namespace SwitchBench

/-- The value of a field. -/
inductive FieldValue where
  | number (n : Int)
  | flag (b : Bool)
  | text (s : String)
  deriving DecidableEq, Repr

/-- The value as it is written in a line of text. -/
def FieldValue.plainText : FieldValue → String
  | number n => toString n
  | flag b => toString b
  | text s => s

/-- An entry of the journal. -/
structure Entry where
  level : Level
  /-- The part of the program that made the entry. -/
  target : String
  message : String
  fields : List (String × FieldValue)
  /-- Further lines of the message, of which only the number is kept. -/
  moreLines : Nat
  deriving DecidableEq, Repr

namespace Entry

/-- An entry whose message is whole. -/
def of (level : Level) (target message : String) (fields : List (String × FieldValue)) : Entry :=
  ⟨level, target, message, fields, 0⟩

/-- Number of line ends in a text. -/
def lineEnds (s : String) : Nat := s.toList.count '\n'

/-- Number of lines that the entry takes as text. A text in a field is written as it is. -/
def lines (e : Entry) : Nat :=
  e.fields.foldl (fun n (_, v) => n + lineEnds v.plainText)
    (1 + lineEnds e.message + e.moreLines)

/-- The entry as a line of text. -/
def plainText (e : Entry) : String :=
  s!"{e.level.title} {e.target}: {e.message}"
    ++ String.join (e.fields.map fun (name, v) => " " ++ name ++ "=" ++ v.plainText)

/-- A character inside quotation marks. -/
def quotedChar (c : Char) : String :=
  if c = '\x22' then "\\\""
  else if c = '\\' then "\\\\"
  else if c = '\n' then "\\n"
  else if c < ' ' then
    let digit (n : Nat) : Char := Nat.digitChar n
    String.ofList ['\\', 'u', '0', '0', digit (c.toNat / 16), digit (c.toNat % 16)]
  else c.toString

/-- A text in quotation marks. -/
def quoted (s : String) : String := "\"" ++ String.join (s.toList.map quotedChar) ++ "\""

/-- The entry as a JSON object. -/
def json (e : Entry) : String :=
  let member (name value : String) : String := quoted name ++ ":" ++ value
  let object (l : List String) : String := "\x7b" ++ ",".intercalate l ++ "\x7d"
  let field : String × FieldValue → String
    | (name, .text s) => member name (quoted s)
    | (name, v) => member name v.plainText
  object [member "level" (quoted e.level.title),
    member "fields" (object (member "message" (quoted e.message) :: e.fields.map field)),
    member "target" (quoted e.target)]

end Entry

end SwitchBench
