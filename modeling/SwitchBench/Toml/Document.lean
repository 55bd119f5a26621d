import SwitchBench.Toml.Scalar
import SwitchBench.Toml.Table

/-!
# TOML documents

A document is a list of statements, one a line. Values can be nested, up to `Reader.depthMax`
levels; arrays and tables that are written out can be of several lines, with comments, and a comma
may follow the last item.
-/

namespace SwitchBench.Toml

namespace Reader

/-- A round of a list of items with commas between them, up to a closing mark. -/
def listRound {α : Type} (item : Reader α) (closing : Char) (items : List α) :
    Reader (List α ⊕ List α) := do
  space
  if ← accept [closing] then return .inr items.reverse
  let a ← item
  space
  if ← accept [','] then return .inl (a :: items)
  expect [closing]
  return .inr (a :: items).reverse

/-- A list of items after its opening mark. -/
def list {α : Type} (item : Reader α) (closing : Char) : Reader (List α) :=
  loop (listRound item closing) []

/-- An entry of a table: a key and a value. -/
def entry (item : Reader Value) : Reader ((List String × String) × Value) := do
  let k ← key
  expect ['=']
  blanks
  return (k, ← item)

/-- A value of at most so many levels. -/
def value : Nat → Reader Value
  | 0 => single
  | depth + 1 => do
    if ← accept ['['] then return .array .written (← list (value depth) ']')
    if ← accept ['\x7b'] then
      match Entries.ofList? (← list (entry (value depth)) '\x7d') with
      | some t => return .table .written t
      | none => failure
    single
where
  /-- A value that has no parts. -/
  single : Reader Value := do
    match ← text? with
    | some s => return .text s
    | none =>
      match Value.ofWord? (← word) with
      | some v => return v
      | none => failure

/-- A statement, up to the end of its line. -/
def statement : Reader Statement := do
  if ← accept ['[', '['] then
    let k ← key
    expect [']', ']']
    restOfLine
    return .series k
  if ← accept ['['] then
    let k ← key
    expect [']']
    restOfLine
    return .table k
  let (k, v) ← entry (value depthMax)
  restOfLine
  return .entry k v

/-- The statements of a text, between blank lines and comments. -/
def statements : Reader (List Statement) :=
  loop (fun l : List Statement => do
    space
    if (← peek?).isNone then return .inr l.reverse
    return .inl ((← statement) :: l)) []

end Reader

/-- The table that a document describes; a mark of the byte order in front is not part of it. -/
def document? (text : String) : Option Value := do
  let chars := match text.toList with
    | '\ufeff' :: rest => rest
    | chars => chars
  let o ← Outline.ofStatements? (← Reader.statements.whole chars)
  return .table .headed o.entries

end SwitchBench.Toml
