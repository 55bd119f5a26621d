import SwitchBench.Fault

/-!
# Guarded cells

A cell is a value behind a lock that is spun for. Whoever holds the lock has a guard and may read
and write; every thread counts the guards it holds, and is in a critical section while it holds
any. Locking a cell and counting the guard are two steps, and so are the reverse two.

`Worker` is a thread that adds one to a cell a number of times, each time through a guard of its
own: its steps are the smallest that others can come between. `CellBoard` is a row of cells as
one thread sees them.

Assumed: taking the lock is one step in which nobody else gets it, and what a guard reads and writes
is seen by the next one. Left out: who of those that spin gets a lock that is given back.
-/

namespace SwitchBench

/-- A value behind a lock. -/
structure Cell where
  value : Int
  locked : Bool
  deriving DecidableEq, Repr

namespace Cell

/-- A cell that nobody holds. -/
def ofValue (value : Int) : Cell := ⟨value, false⟩

/-- Takes the lock, if nobody holds it. -/
def lock? (c : Cell) : Option Cell := if c.locked then none else some { c with locked := true }

/-- Gives the lock back. -/
def unlock (c : Cell) : Cell := { c with locked := false }

/-- Range of the values. -/
def Fits (n : Int) : Prop := -9223372036854775808 ≤ n ∧ n ≤ 9223372036854775807

instance (n : Int) : Decidable (Fits n) := inferInstanceAs (Decidable (_ ∧ _))

end Cell

/-- Where a thread stands that adds to a cell. -/
inductive WorkerPhase where
  | outside
  | locked
  | inside
  | loaded (value : Int)
  | stored
  | leaving
  deriving DecidableEq, Repr

/-- A thread that is to add one to a cell so many times, and the guards it holds. -/
structure Worker where
  left : Nat
  phase : WorkerPhase
  guards : Nat
  deriving DecidableEq, Repr

namespace Worker

/-- A thread that has not begun. -/
def start (times : Nat) : Worker := ⟨times, .outside, 0⟩

/-- One step. A thread that finds the cell locked looks again. -/
def step (c : Cell) (w : Worker) : Cell × Worker :=
  match w.phase with
  | .outside =>
    if w.left = 0 then (c, w)
    else match c.lock? with
      | none => (c, w)
      | some d => (d, { w with phase := .locked })
  | .locked => (c, { w with phase := .inside, guards := w.guards + 1 })
  | .inside => (c, { w with phase := .loaded c.value })
  | .loaded v => ({ c with value := v + 1 }, { w with phase := .stored })
  | .stored => (c, { w with phase := .leaving, guards := w.guards - 1 })
  | .leaving => (c.unlock, { w with phase := .outside, left := w.left - 1 })

/-- Has the thread done its work? -/
def finished (w : Worker) : Bool := w.left = 0

/-- Steps a thread needs if it never has to wait. -/
def stepsNeeded (w : Worker) : Nat := 6 * w.left

/-- Runs a thread for so many steps, with nobody else at the cell. -/
def run : Nat → Cell → Worker → Cell
  | 0, c, _ => c
  | n + 1, c, w =>
    let (d, v) := step c w
    run n d v

end Worker

/-- A row of cells and the number of guards that the calling thread holds. -/
structure CellBoard where
  cells : List Cell
  guards : Nat
  deriving DecidableEq, Repr

/-- A call on one cell. -/
inductive CellCall where
  | lock
  | unlock
  | set (n : Int)
  | get
  | withAdd (n : Int)
  | contend (threads times : Nat)
  deriving DecidableEq, Repr

/-- What a call answers. -/
inductive CellAnswer where
  | done
  | flag (b : Bool)
  | value (v : Option Int)
  | added (v : Int) (inSection : Bool)
  deriving DecidableEq, Repr

namespace CellBoard

/-- Cells that nobody holds. -/
def ofValues (values : List Int) : CellBoard := ⟨values.map .ofValue, 0⟩

/-- Is the calling thread in a critical section? -/
def inSection (b : CellBoard) : Bool := 0 < b.guards

/-- A call on a cell. A cell that is locked is held by the calling thread itself, so waiting for it
would never end. -/
def call (b : CellBoard) (index : Nat) (cell : Cell) : CellCall → CellBoard × Except Refusal CellAnswer
  | .lock =>
    match cell.lock? with
    | none => (b, .error .endless)
    | some d => (⟨b.cells.set index d, b.guards + 1⟩, .ok .done)
  | .unlock =>
    if cell.locked then (⟨b.cells.set index cell.unlock, b.guards - 1⟩, .ok (.flag true))
    else (b, .ok (.flag false))
  | .set n =>
    if cell.locked then
      ({ b with cells := b.cells.set index { cell with value := n } }, .ok (.value (some cell.value)))
    else (b, .ok (.value none))
  | .get => (b, .ok (.value (if cell.locked then some cell.value else none)))
  | .withAdd n =>
    if cell.locked then (b, .error .endless)
    else if Cell.Fits (cell.value + n) then
      ({ b with cells := b.cells.set index { cell with value := cell.value + n } },
        .ok (.added (cell.value + n) (0 < b.guards + 1)))
    else (b, .error (.breach .addOverflow))
  | .contend threads times =>
    if cell.locked then (b, .error .endless)
    else
      let after := (List.replicate threads (Worker.start times)).foldl
        (fun c w => w.run w.stepsNeeded c) cell
      ({ b with cells := b.cells.set index after }, .ok (.value (some after.value)))

/-- A call on the cell with an index, if there is one. -/
def call? (b : CellBoard) (index : Nat) (c : CellCall) : Option (CellBoard × Except Refusal CellAnswer) :=
  b.cells[index]?.map fun cell => b.call index cell c

end CellBoard

end SwitchBench
