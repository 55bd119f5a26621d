import SwitchBench.Sync.Cell
import SwitchBench.Proofs.Runs

/-!
# Threads at guarded cells

Any number of threads lock the cells of a row, use them through guards, and release the guards in
any order. To lock a cell is to call for it, to take its lock by compare-and-exchange, as often as
that takes, to count the guard, and to be handed it; to release one is to hand it over, to discount
it, and to give the lock back. Others may act between any two of these.

A thread may call for a cell that it has a guard of; it then tries for ever. A closure that is run
on a cell is what its thread does between the call and the release. If it panics, the thread
unwinds: it uses no cell then, and only releases guards, in whatever order they are dropped, until
the panic is caught.

What happens at a cell is told by events: a thread enters when it takes the lock, and leaves when it
gives it back (`Access`). A thread has the lock of a cell from the one to the other, and so longer
than it has the guard (`Holder.locks`).

Results: `turn_of_turn?` (what a thread can do), `Turn.effect` (what that does to a cell),
`Turn.accounted` (and to the count of the guards).
-/

namespace SwitchBench.Cell

/-- Where a thread stands in locking a cell or in releasing a guard. -/
inductive HolderPhase where
  | outside
  /-- It tries to take the lock. -/
  | spinning (cell : Nat)
  /-- It has the lock, and is to count the guard. -/
  | counting (cell : Nat)
  /-- It has counted the guard, and is to be handed it. -/
  | returning (cell : Nat)
  /-- It has handed the guard over, and is to discount it. -/
  | discounting (cell : Nat)
  /-- It has discounted the guard, and is to give the lock back. -/
  | unlocking (cell : Nat)
  deriving DecidableEq, Repr

/-- A thread: the cells it has guards of, the count of its guards, and whether it unwinds after a
panic. -/
structure Holder where
  phase : HolderPhase
  guards : List Nat
  depth : Nat
  unwinding : Bool
  deriving DecidableEq, Repr

/-- What a thread does. -/
inductive Move where
  /-- It calls for a cell. -/
  | lock (cell : Nat)
  /-- It goes on with locking or releasing. -/
  | proceed
  /-- Its compare-and-exchange fails, though the cell may be free. -/
  | falter
  | read (cell : Nat)
  | write (cell : Nat) (value : Int)
  /-- It begins to release a guard. -/
  | release (cell : Nat)
  | panic
  /-- Its panic is caught. -/
  | recover
  deriving DecidableEq, Repr

/-- What happens at a cell. -/
inductive Access where
  | entered
  | saw (value : Int)
  | wrote (value : Int)
  | left
  deriving DecidableEq, Repr

/-- What happens at which cell, and by whom. -/
structure Event where
  thread : Nat
  cell : Nat
  access : Access
  deriving DecidableEq, Repr

namespace HolderPhase

/-- The cell that a thread has the lock of, but not the guard. -/
def locks : HolderPhase → List Nat
  | counting i | returning i | discounting i | unlocking i => [i]
  | outside | spinning _ => []

/-- The guards that are counted while the thread does not have them. -/
def counted : HolderPhase → Nat
  | returning _ | discounting _ => 1
  | _ => 0

/-- Is a thread locking a cell, or releasing its guard? -/
def isAt (cell : Nat) : HolderPhase → Bool
  | spinning i | counting i | returning i | discounting i | unlocking i => i = cell
  | outside => false

end HolderPhase

namespace Holder

/-- A thread that has not begun. -/
def start : Holder := ⟨.outside, [], 0, false⟩

/-- The cells that a thread has the lock of. -/
def locks (h : Holder) : List Nat := h.phase.locks ++ h.guards

/-- Does a thread know itself to be in a critical section? -/
def inSection (h : Holder) : Bool := 0 < h.depth

/-- May a thread do what it likes? -/
def isFree (h : Holder) : Bool := h.phase = .outside && !h.unwinding

/-- The next action of a thread that locks a cell or releases a guard. -/
def proceed? (cells : List Cell) (h : Holder) :
    Option (List Cell × Holder × Option (Nat × Access)) :=
  match h.phase with
  | .outside => none
  | .spinning i => cells[i]?.map fun cell =>
    match cell.lock? with
    | none => (cells, h, none)
    | some d => (cells.set i d, { h with phase := .counting i }, some (i, .entered))
  | .counting i => some (cells, { h with phase := .returning i, depth := h.depth + 1 }, none)
  | .returning i => some (cells, { h with phase := .outside, guards := i :: h.guards }, none)
  | .discounting i => some (cells, { h with phase := .unlocking i, depth := h.depth - 1 }, none)
  | .unlocking i => cells[i]?.map fun cell =>
    (cells.set i cell.unlock, { h with phase := .outside }, some (i, .left))

/-- What a move does, if it is possible, and what happens at a cell by it. -/
def turn? (cells : List Cell) (h : Holder) :
    Move → Option (List Cell × Holder × Option (Nat × Access))
  | .lock i =>
    if h.isFree ∧ i < cells.length then some (cells, { h with phase := .spinning i }, none)
    else none
  | .proceed => h.proceed? cells
  | .falter =>
    match h.phase with
    | .spinning _ => some (cells, h, none)
    | _ => none
  | .read i =>
    if h.isFree ∧ i ∈ h.guards then cells[i]?.map fun cell => (cells, h, some (i, .saw cell.value))
    else none
  | .write i v =>
    if h.isFree ∧ i ∈ h.guards then
      cells[i]?.map fun cell => (cells.set i { cell with value := v }, h, some (i, .wrote v))
    else none
  | .release i =>
    if h.phase = .outside ∧ i ∈ h.guards then
      some (cells, { h with phase := .discounting i, guards := h.guards.erase i }, none)
    else none
  | .panic => if h.isFree then some (cells, { h with unwinding := true }, none) else none
  | .recover =>
    if h.phase = .outside ∧ h.unwinding = true then
      some (cells, { h with unwinding := false }, none)
    else none

end Holder

/-- A row of cells and the threads that use them. -/
structure Crowd where
  cells : List Cell
  holders : List Holder
  deriving DecidableEq, Repr

/-- What one of the threads does. -/
structure Action where
  thread : Nat
  move : Move
  deriving DecidableEq, Repr

namespace Crowd

/-- Cells that nobody has locked, and threads that have not begun. -/
def start (values : List Int) (threads : Nat) : Crowd :=
  ⟨values.map .ofValue, List.replicate threads .start⟩

/-- One action, if it is possible, with what happens at a cell by it. -/
def turn? (c : Crowd) (a : Action) : Option (Crowd × Option Event) := do
  let h ← c.holders[a.thread]?
  let (cells, h', e) ← h.turn? c.cells a.move
  return (⟨cells, c.holders.set a.thread h'⟩, e.map fun r => ⟨a.thread, r.1, r.2⟩)

/-- One action, if it is possible. -/
def act? (c : Crowd) (a : Action) : Option Crowd := (c.turn? a).map (·.1)

/-- What happens at a cell by an action. -/
def event? (c : Crowd) (a : Action) : Option Event := (c.turn? a).bind (·.2)

end Crowd

/-- The actions of a run with the states they were done in, newest first. -/
abbrev Trace := List (Crowd × Action)

/-- What happened at a cell, newest first. -/
def history (cell : Nat) (t : Trace) : List Event :=
  t.filterMap fun r => (r.1.event? r.2).filter (·.cell = cell)

/-! ## One turn -/

/-- What a thread can do, and what happens at a cell by it. -/
inductive Turn (cells : List Cell) (h : Holder) :
    List Cell → Holder → Option (Nat × Access) → Prop
  | calls {i : Nat} (hp : h.phase = .outside) (hi : i < cells.length) :
      Turn cells h cells { h with phase := .spinning i } none
  | spins : Turn cells h cells h none
  | enters {i : Nat} {cell : Cell} (hp : h.phase = .spinning i) (hc : cells[i]? = some cell)
      (hl : cell.locked = false) :
      Turn cells h (cells.set i { cell with locked := true }) { h with phase := .counting i }
        (some (i, .entered))
  | counts {i : Nat} (hp : h.phase = .counting i) :
      Turn cells h cells { h with phase := .returning i, depth := h.depth + 1 } none
  | returns {i : Nat} (hp : h.phase = .returning i) :
      Turn cells h cells { h with phase := .outside, guards := i :: h.guards } none
  | sees {i : Nat} {cell : Cell} (hg : i ∈ h.guards) (hc : cells[i]? = some cell) :
      Turn cells h cells h (some (i, .saw cell.value))
  | writes {i : Nat} {cell : Cell} (v : Int) (hg : i ∈ h.guards) (hc : cells[i]? = some cell) :
      Turn cells h (cells.set i { cell with value := v }) h (some (i, .wrote v))
  | releases {i : Nat} (hp : h.phase = .outside) (hg : i ∈ h.guards) :
      Turn cells h cells { h with phase := .discounting i, guards := h.guards.erase i } none
  | discounts {i : Nat} (hp : h.phase = .discounting i) :
      Turn cells h cells { h with phase := .unlocking i, depth := h.depth - 1 } none
  | leaves {i : Nat} {cell : Cell} (hp : h.phase = .unlocking i) (hc : cells[i]? = some cell) :
      Turn cells h (cells.set i cell.unlock) { h with phase := .outside } (some (i, .left))
  | unwinds (b : Bool) : Turn cells h cells { h with unwinding := b } none

variable {cells cells' : List Cell} {h h' : Holder} {e : Option (Nat × Access)} {m : Move}

theorem lock?_eq_some_iff {c d : Cell} :
    c.lock? = some d ↔ c.locked = false ∧ d = { c with locked := true } := by
  unfold lock?
  cases c.locked <;> simp [eq_comm]

theorem turn_of_proceed? (hr : h.proceed? cells = some (cells', h', e)) :
    Turn cells h cells' h' e := by
  unfold Holder.proceed? at hr
  split at hr
  case h_1 => cases hr
  case h_2 i hp =>
    obtain ⟨cell, hc, hr⟩ := Option.map_eq_some_iff.mp hr
    split at hr
    · cases hr
      exact .spins
    · next d hd =>
      obtain ⟨hl, rfl⟩ := lock?_eq_some_iff.mp hd
      cases hr
      exact .enters hp hc hl
  case h_3 i hp =>
    cases hr
    exact .counts hp
  case h_4 i hp =>
    cases hr
    exact .returns hp
  case h_5 i hp =>
    cases hr
    exact .discounts hp
  case h_6 i hp =>
    obtain ⟨cell, hc, hr⟩ := Option.map_eq_some_iff.mp hr
    cases hr
    exact .leaves hp hc

theorem turn_of_turn? (hr : h.turn? cells m = some (cells', h', e)) :
    Turn cells h cells' h' e := by
  have houtside : h.isFree = true → h.phase = .outside := fun hf => by
    simp only [Holder.isFree, Bool.and_eq_true, decide_eq_true_eq] at hf
    exact hf.1
  cases m with
  | lock i =>
    obtain ⟨⟨hf, hi⟩, hr⟩ := Option.ite_none_right_eq_some.mp hr
    cases hr
    exact .calls (houtside hf) hi
  | proceed => exact turn_of_proceed? hr
  | falter =>
    simp only [Holder.turn?] at hr
    split at hr <;> cases hr
    exact .spins
  | read i =>
    obtain ⟨⟨-, hg⟩, hr⟩ := Option.ite_none_right_eq_some.mp hr
    obtain ⟨cell, hc, hr⟩ := Option.map_eq_some_iff.mp hr
    cases hr
    exact .sees hg hc
  | write i v =>
    obtain ⟨⟨-, hg⟩, hr⟩ := Option.ite_none_right_eq_some.mp hr
    obtain ⟨cell, hc, hr⟩ := Option.map_eq_some_iff.mp hr
    cases hr
    exact .writes v hg hc
  | release i =>
    obtain ⟨⟨hp, hg⟩, hr⟩ := Option.ite_none_right_eq_some.mp hr
    cases hr
    exact .releases hp hg
  | panic =>
    obtain ⟨-, hr⟩ := Option.ite_none_right_eq_some.mp hr
    cases hr
    exact .unwinds true
  | recover =>
    obtain ⟨-, hr⟩ := Option.ite_none_right_eq_some.mp hr
    cases hr
    exact .unwinds false

variable {c c' : Crowd} {a : Action}

/-- An action is a turn of its thread. -/
theorem turn_of_act? (ha : c.act? a = some c') :
    ∃ h cells' h' e, c.holders[a.thread]? = some h ∧ Turn c.cells h cells' h' e ∧
      c' = ⟨cells', c.holders.set a.thread h'⟩ ∧
      c.event? a = e.map fun r => ⟨a.thread, r.1, r.2⟩ := by
  obtain ⟨r, hr, rfl⟩ := Option.map_eq_some_iff.mp ha
  have hevent : c.event? a = r.2 := by rw [Crowd.event?, hr, Option.bind_some]
  simp only [Crowd.turn?, Option.bind_eq_bind, Option.bind_eq_some_iff] at hr
  obtain ⟨h, hh, ⟨cells', h', e⟩, ht, hr⟩ := hr
  cases hr
  exact ⟨h, cells', h', e, hh, turn_of_turn? ht, rfl, hevent⟩

/-- What an access does to a cell, and to how often its thread has the lock of it. -/
inductive Shift : Access → Cell → Nat → Cell → Nat → Prop
  | enters {cell : Cell} {n : Nat} (hl : cell.locked = false) :
      Shift .entered cell n { cell with locked := true } (n + 1)
  | sees {cell : Cell} {n : Nat} (hn : 0 < n) : Shift (.saw cell.value) cell n cell n
  | writes {cell : Cell} {n : Nat} (v : Int) (hn : 0 < n) :
      Shift (.wrote v) cell n { cell with value := v } n
  | leaves {cell : Cell} {n : Nat} : Shift .left cell (n + 1) cell.unlock n

/-- **What a turn does to the cells.** Either nothing happens at any of them, or one changes, and
nobody comes or goes at the others. -/
theorem Turn.effect (ht : Turn cells h cells' h' e) :
    (e = none ∧ cells' = cells ∧ h'.locks.Perm h.locks) ∨
    ∃ i a cell cell', e = some (i, a) ∧ cells[i]? = some cell ∧ cells' = cells.set i cell' ∧
      Shift a cell (h.locks.count i) cell' (h'.locks.count i) ∧
      ∀ k, k ≠ i → h'.locks.count k = h.locks.count k := by
  have hmem : ∀ {i : Nat}, i ∈ h.guards → 0 < h.locks.count i := fun hg =>
    List.count_pos_iff.mpr (List.mem_append_right _ hg)
  cases ht with
  | calls hp => exact .inl ⟨rfl, rfl, by simp [Holder.locks, HolderPhase.locks, hp]⟩
  | spins => exact .inl ⟨rfl, rfl, .refl _⟩
  | @enters i cell hp hc hl =>
    have hlocks : ({ h with phase := .counting i } : Holder).locks = i :: h.locks := by
      simp [Holder.locks, HolderPhase.locks, hp]
    refine .inr ⟨i, _, cell, _, rfl, hc, rfl, ?_, fun k hk => ?_⟩
    · rw [hlocks, List.count_cons_self]
      exact .enters hl
    · rw [hlocks, List.count_cons_of_ne hk.symm]
  | counts hp => exact .inl ⟨rfl, rfl, by simp [Holder.locks, HolderPhase.locks, hp]⟩
  | returns hp => exact .inl ⟨rfl, rfl, by simp [Holder.locks, HolderPhase.locks, hp]⟩
  | @sees i cell hg hc =>
    obtain ⟨hi, hget⟩ := List.getElem?_eq_some_iff.mp hc
    refine .inr ⟨i, _, cell, cell, rfl, hc, ?_, .sees (hmem hg), fun _ _ => rfl⟩
    rw [← hget, List.set_getElem_self]
  | @writes i cell v hg hc =>
    exact .inr ⟨i, _, cell, _, rfl, hc, rfl, .writes v (hmem hg), fun _ _ => rfl⟩
  | releases hp hg =>
    refine .inl ⟨rfl, rfl, ?_⟩
    simp only [Holder.locks, HolderPhase.locks, hp, List.nil_append, List.singleton_append]
    exact (List.perm_cons_erase hg).symm
  | discounts hp => exact .inl ⟨rfl, rfl, by simp [Holder.locks, HolderPhase.locks, hp]⟩
  | @leaves i cell hp hc =>
    have hlocks : h.locks = i :: ({ h with phase := .outside } : Holder).locks := by
      simp [Holder.locks, HolderPhase.locks, hp]
    refine .inr ⟨i, _, cell, _, rfl, hc, rfl, ?_, fun k hk => ?_⟩
    · rw [hlocks, List.count_cons_self]
      exact .leaves
    · rw [hlocks, List.count_cons_of_ne hk.symm]
  | unwinds b => exact .inl ⟨rfl, rfl, .refl _⟩

/-- A thread's count is off only while a guard is counted that the thread does not have. -/
def Holder.Accounted (h : Holder) : Prop := h.depth = h.guards.length + h.phase.counted

/-- **Every turn keeps the guards counted.** -/
theorem Turn.accounted (ht : Turn cells h cells' h' e) (ha : h.Accounted) : h'.Accounted := by
  unfold Holder.Accounted at ha ⊢
  cases ht with
  | calls hp => simpa [HolderPhase.counted, hp] using ha
  | spins => exact ha
  | enters hp => simpa [HolderPhase.counted, hp] using ha
  | counts hp => simpa [HolderPhase.counted, hp] using ha
  | returns hp => simpa [HolderPhase.counted, hp] using ha
  | sees => exact ha
  | writes => exact ha
  | @releases i hp hg =>
    have hlen := List.length_erase_of_mem hg
    have hpos := List.length_pos_of_mem hg
    simp only [HolderPhase.counted, hp, Nat.add_zero] at ha ⊢
    omega
  | discounts hp => simp [HolderPhase.counted, hp, ha]
  | leaves hp => simpa [HolderPhase.counted, hp] using ha
  | unwinds => exact ha

/-- The count covers the guards at most that a thread has the locks for. -/
theorem Holder.Accounted.depth_le (ha : h.Accounted) : h.depth ≤ h.locks.length := by
  have hphase : h.phase.counted ≤ h.phase.locks.length := by
    cases h.phase <;> simp [HolderPhase.counted, HolderPhase.locks]
  rw [ha, Holder.locks, List.length_append]
  omega

end SwitchBench.Cell
