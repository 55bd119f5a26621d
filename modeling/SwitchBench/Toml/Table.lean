import SwitchBench.Toml.Value

/-!
# Building tables

A document grows by entries under dotted keys and by headers. A header opens a table or adds one to
an array of tables. Each of them names a place by the tables it goes through, which are created
where they are missing (`reach`), and an addition that would define something twice is refused.

The rules, by the origin of a table on the way: nothing goes through a table that was written out;
a dotted key does not go through a table with a header of its own, and it adds only to a table that
dotted keys created; through an array of tables both go to its last table.
-/

namespace SwitchBench.Toml

namespace Entries

/-- Changes what is under a key, or adds it; the change can be refused. -/
def alter (change : Option Value → Option Value) (key : String) : Entries → Option Entries
  | [] => (change none).map fun v => [(key, v)]
  | (k, old) :: rest =>
    if k = key then (change (some old)).map fun v => (k, v) :: rest
    else (alter change key rest).map ((k, old) :: ·)

/-- Changes the table that a path leads to. The change is told the table's origin. -/
def reach (byDots : Bool) (change : Origin → Entries → Option Entries) :
    List String → Origin → Entries → Option Entries
  | [], origin, entries => change origin entries
  | k :: path, _, entries => entries.alter (enter (reach byDots change path)) k
where
  enter (go : Origin → Entries → Option Entries) : Option Value → Option Value
    | none =>
      let origin : Origin := if byDots then .dotted else .implied
      (go origin []).map (.table origin)
    | some (.table origin entries) =>
      if origin = .written ∨ (byDots ∧ origin = .headed) then none
      else (go origin entries).map (.table origin)
    | some (.array .headed items) =>
      match items.getLast? with
      | some (.table origin entries) =>
        (go origin entries).map fun t => .array .headed (items.dropLast ++ [.table origin t])
      | _ => none
    | some _ => none

/-- Adds a value under a key that is not taken. -/
def add (key : String) (v : Value) (entries : Entries) : Option Entries :=
  entries.alter (fun old => if old.isNone then some v else none) key

/-- Adds a value under a dotted key. -/
def insert (key : List String × String) (v : Value) (entries : Entries) : Option Entries :=
  reach true (fun origin t => if origin = .dotted ↔ key.1 = [] then none else t.add key.2 v)
    key.1 .headed entries

/-- Opens the table of a header: a new one, or one that so far was only implied. -/
def openTable (key : List String × String) (entries : Entries) : Option Entries :=
  reach false (fun _ t => t.alter (fun
      | none => some (.table .headed [])
      | some (.table .implied inner) => some (.table .headed inner)
      | some _ => none) key.2)
    key.1 .headed entries

/-- Adds a table to the array of tables of a header. -/
def openSeries (key : List String × String) (entries : Entries) : Option Entries :=
  reach false (fun _ t => t.alter (fun
      | none => some (.array .headed [.table .headed []])
      | some (.array .headed items) => some (.array .headed (items ++ [.table .headed []]))
      | some _ => none) key.2)
    key.1 .headed entries

/-- The table that dotted keys write out, or `none` if something is defined twice. -/
def ofList? (l : List ((List String × String) × Value)) : Option Entries :=
  l.foldlM (fun t (k, v) => t.insert k v) []

end Entries

/-- One statement of a document. -/
inductive Statement where
  | entry (key : List String × String) (v : Value)
  | table (key : List String × String)
  | series (key : List String × String)
  deriving Inhabited

/-- A document being built: its entries, and the table that entries are added to. -/
structure Outline where
  entries : Entries
  here : List String

namespace Outline

def empty : Outline := ⟨[], []⟩

/-- Adds a statement. -/
def add (o : Outline) : Statement → Option Outline
  | .entry key v =>
    (Entries.reach false (fun _ t => t.insert key v) o.here .headed o.entries).map
      fun t => { o with entries := t }
  | .table key => (o.entries.openTable key).map fun t => ⟨t, key.1 ++ [key.2]⟩
  | .series key => (o.entries.openSeries key).map fun t => ⟨t, key.1 ++ [key.2]⟩

/-- The document that statements make, or `none` if something is defined twice. -/
def ofStatements? (l : List Statement) : Option Outline := l.foldlM add empty

end Outline

end SwitchBench.Toml
