import SwitchBench.Journal.Entry

/-!
# Journal filters

A filter says which entries are written. It is a list of directives, each with a threshold and
perhaps with a part of the program and a field that it is about. The most specific directive that
is about an entry decides: one about a longer part, then one about a field. No directive, no entry.

Directives are written in one line with commas between them: `part=level`, with `part[{field}]`
for a field. A directive that cannot be read is left out, and so is one about a span of the
program, since the program has no spans.
-/

namespace SwitchBench

/-- What to write of some of the entries. -/
structure Directive where
  /-- How the part of the program begins. -/
  target : Option String
  /-- A field of the entry. -/
  field : Option String
  /-- The most verbose entries to write. -/
  verbosity : Nat
  deriving DecidableEq, Repr

namespace Directive

/-- Is the directive about the entry? -/
def covers (d : Directive) (e : Entry) : Bool :=
  d.target.all (fun t => t.toList.isPrefixOf e.target.toList)
    && d.field.all fun f => f = "message" || (e.fields.map (·.1)).contains f

/-- How specific a directive about a target is: by the length of the target, and a target of no
length is still more specific than none. -/
def targetRank (d : Directive) : Nat := d.target.elim 0 (·.utf8ByteSize + 1)

/-- Does a directive win over another one that is about the same entry and was given before it? -/
def overrides (d other : Directive) : Bool :=
  if d.targetRank = other.targetRank then
    match d.field, other.field with
    | none, some _ => false
    | some f, some g => decide (g ≤ f)
    | _, none => true
  else other.targetRank < d.targetRank

/-- The threshold of a written form: a name, in whatever case its letters are, or a number. -/
def threshold? (word : String) : Option Nat :=
  let names := ["off", "error", "warn", "info", "debug", "trace"]
  let numbers := ["0", "1", "2", "3", "4", "5"]
  names.findIdx? (· = word.map Char.toLower) <|> numbers.findIdx? (· = word)

/-- The threshold that ends a directive; without one everything is written. -/
def ending? (rest : List Char) : Option Nat :=
  match rest with
  | [] | ['='] => some Level.trace.verbosity
  | '=' :: word => threshold? (String.ofList word)
  | _ => none

/-- A directive after the bracket that follows its target. -/
def ofBracket? (target : Option String) (rest : List Char) : Option Directive :=
  match rest with
  | '\x7b' :: rest =>
    let (field, rest) := rest.span (· ≠ '\x7d')
    match rest with
    | '\x7d' :: ']' :: rest =>
      if field.isEmpty || field.contains '=' then none
      else (ending? rest).map fun n => ⟨target, some (String.ofList field), n⟩
    | _ => none
  | _ => none

/-- The directive that a text writes. -/
def ofText? (text : String) : Option Directive :=
  match text.toList with
  | [] => none
  | '[' :: rest => ofBracket? none rest
  | c :: rest =>
    if c.isAlphanum || c = '-' || c = ':' || c = '_' then
      let (word, rest) := (c :: rest).span fun c => c ≠ '=' ∧ c ≠ '['
      let word := String.ofList word
      match rest with
      | [] => match threshold? word with
        | some n => some ⟨none, none, n⟩
        | none => some ⟨some word, none, Level.trace.verbosity⟩
      | '[' :: rest => ofBracket? (some word) rest
      | rest => (ending? rest).map fun n => ⟨some word, none, n⟩
    else none

end Directive

/-- Which entries are written. -/
structure Filter where
  directives : List Directive
  deriving DecidableEq, Repr

namespace Filter

/-- The filter of a line of directives, and of a level for all entries that no other directive is
about. -/
def ofText (directives : String) (level : Level) : Filter :=
  ⟨((directives.splitOn ",").filterMap Directive.ofText?)
    ++ [⟨none, none, level.verbosity⟩]⟩

/-- The directive that decides about an entry. -/
def deciding? (f : Filter) (e : Entry) : Option Directive :=
  (f.directives.filter (·.covers e)).foldl (fun best d =>
    match best with
    | none => some d
    | some b => if d.overrides b then some d else some b) none

/-- Is an entry written? -/
def admits (f : Filter) (e : Entry) : Bool :=
  (f.deciding? e).any fun d => decide (e.level.verbosity ≤ d.verbosity)

end Filter

end SwitchBench
