import SwitchBench.Proofs.Sync.Sections
import Mathlib.Algebra.Ring.Nat

/-!
# Threads that add to one cell

Workers add one to a cell again and again, each time through a guard of their own, and their steps
may fall in any order (`Worker.interleave`). Each step is one or two moves of a thread at guarded
cells (`Worker.moves`), so whatever the order, the cell is used by one worker after another and no
addition is lost. A worker that finds the cell locked makes no move.

Results: `playAlone?_moves` (a step is so many moves), `Contends.step` (every step adds what is due
no more), and `call_contend_eq` (it is no matter that the board runs the workers one by one).
-/

namespace SwitchBench

namespace Cell

/-- What some moves of a thread do, with nobody else acting meanwhile, and what happens at the cells
by them, newest first. -/
def Holder.playAlone? (cells : List Cell) (h : Holder) :
    List Move → Option (List Cell × Holder × List (Nat × Access))
  | [] => some (cells, h, [])
  | m :: ms => do
    let (cells, h, e) ← h.turn? cells m
    let (cells, h, es) ← h.playAlone? cells ms
    return (cells, h, es ++ e.toList)

/-- What happened at a cell by what happened at all of them. -/
def eventsAt (cell thread : Nat) (es : List (Nat × Access)) : List Event :=
  (es.filter (·.1 = cell)).map fun r => ⟨thread, r.1, r.2⟩

variable {cells cells' : List Cell} {holders : List Holder} {h h' : Holder} {j : Nat}

/-- A thread's moves are actions of the crowd. -/
theorem play?_of_playAlone? {ms : List Move} {es : List (Nat × Access)} (hj : holders[j]? = some h)
    (hp : h.playAlone? cells ms = some (cells', h', es)) (t : Trace) :
    ∃ t', play? Crowd.act? t ⟨cells, holders⟩ (ms.map (⟨j, ·⟩)) =
        some (t', ⟨cells', holders.set j h'⟩) ∧
      ∀ i, history i t' = eventsAt i j es ++ history i t := by
  induction ms generalizing cells holders h es t with
  | nil =>
    cases hp
    obtain ⟨hlt, rfl⟩ := List.getElem?_eq_some_iff.mp hj
    exact ⟨t, by simp [play?], fun i => rfl⟩
  | cons m ms ih =>
    simp only [Holder.playAlone?, Option.bind_eq_bind, Option.bind_eq_some_iff] at hp
    obtain ⟨⟨cells₁, h₁, e⟩, ht, ⟨cells₂, h₂, es'⟩, hp, he⟩ := hp
    cases he
    have hturn : Crowd.turn? ⟨cells, holders⟩ ⟨j, m⟩ =
        some (⟨cells₁, holders.set j h₁⟩, e.map fun r => ⟨j, r.1, r.2⟩) := by
      simp [Crowd.turn?, hj, ht]
    obtain ⟨hlt, -⟩ := List.getElem?_eq_some_iff.mp hj
    obtain ⟨t', hplay, hhist⟩ :=
      ih (List.getElem?_set_self hlt) hp ((⟨cells, holders⟩, ⟨j, m⟩) :: t)
    refine ⟨t', ?_, fun i => ?_⟩
    · rw [List.map_cons, play?, Crowd.act?, hturn, Option.map_some, Option.bind_some, hplay,
        List.set_set]
    · rw [hhist]
      have hevent : Crowd.event? ⟨cells, holders⟩ ⟨j, m⟩ = e.map fun r => ⟨j, r.1, r.2⟩ := by
        rw [Crowd.event?, hturn, Option.bind_some]
      cases e with
      | none => rw [history_of_none hevent, Option.toList_none, List.append_nil]
      | some r =>
        rw [history_of_some hevent]
        by_cases hr : r.1 = i <;> simp [eventsAt, hr]

end Cell

/-- One entry of a sum is exchanged for another. -/
theorem sum_map_set {α : Type} {l : List α} {j : Nat} {a : α} (h : l[j]? = some a) (f : α → Nat)
    (b : α) : ((l.set j b).map f).sum + f a = (l.map f).sum + f b := by
  induction l generalizing j with
  | nil => cases h
  | cons x l ih =>
    cases j with
    | zero =>
      cases h
      simp only [List.set_cons_zero, List.map_cons, List.sum_cons]
      omega
    | succ j =>
      have := ih h
      simp only [List.set_cons_succ, List.map_cons, List.sum_cons]
      omega

namespace Worker

open Cell (Holder Move Access Event Crowd Trace history known Updates)

/-- A worker as a thread at cells. -/
def holder (w : Worker) : Holder :=
  match w.phase with
  | .outside => ⟨.outside, [], w.guards, false⟩
  | .locked => ⟨.counting 0, [], w.guards, false⟩
  | .inside | .loaded _ | .stored => ⟨.outside, [0], w.guards, false⟩
  | .leaving => ⟨.unlocking 0, [], w.guards, false⟩

/-- What the thread does in the worker's next step. -/
def moves (c : Cell) (w : Worker) : List Move :=
  match w.phase with
  | .outside => if w.left = 0 ∨ c.locked = true then [] else [.lock 0, .proceed]
  | .locked => [.proceed, .proceed]
  | .inside => [.read 0]
  | .loaded v => [.write 0 (v + 1)]
  | .stored => [.release 0, .proceed]
  | .leaving => [.proceed]

/-- What happens at the cell in that step. -/
def access? (c : Cell) (w : Worker) : Option Access :=
  match w.phase with
  | .outside => if w.left = 0 ∨ c.locked = true then none else some .entered
  | .inside => some (.saw c.value)
  | .loaded v => some (.wrote (v + 1))
  | .leaving => some .left
  | .locked | .stored => none

/-- How often a worker is still to add one. -/
def due (w : Worker) : Nat :=
  match w.phase with
  | .stored | .leaving => w.left - 1
  | _ => w.left

/-- Steps of workers, each told by the worker's number, in their order. -/
def interleave : List Nat → Cell → List Worker → Cell × List Worker
  | [], c, ws => (c, ws)
  | j :: js, c, ws =>
    match ws[j]? with
    | none => interleave js c ws
    | some w => interleave js (w.step c).1 (ws.set j (w.step c).2)

/-- **A worker's step is so many moves of a thread.** -/
theorem playAlone?_moves (c : Cell) (w : Worker) :
    w.holder.playAlone? [c] (w.moves c) =
      some ([(w.step c).1], (w.step c).2.holder, (w.access? c).toList.map (0, ·)) := by
  obtain ⟨left, phase, guards⟩ := w
  cases phase with
  | outside =>
    by_cases hl : left = 0 ∨ c.locked = true
    · have hstep : step c ⟨left, .outside, guards⟩ = (c, ⟨left, .outside, guards⟩) := by
        rcases hl with hl | hl <;> simp [step, hl, Cell.lock?]
      simp [moves, access?, hl, hstep, Holder.playAlone?]
    · obtain ⟨h0, h1⟩ := not_or.mp hl
      simp [moves, access?, holder, step, h0, h1, Holder.playAlone?, Holder.turn?, Holder.isFree,
        Holder.proceed?, Cell.lock?]
  | locked => rfl
  | inside => rfl
  | loaded v => rfl
  | stored => rfl
  | leaving => rfl

/-- What a worker adds is due no more. -/
theorem due_step {c : Cell} {w : Worker} (hb : w.phase ≠ .outside → 0 < w.left) :
    (∃ v, w.phase = .loaded v ∧ w.access? c = some (.wrote (v + 1)) ∧
      w.due = (w.step c).2.due + 1) ∨
    ((∀ v, w.access? c ≠ some (.wrote v)) ∧ w.due = (w.step c).2.due) := by
  obtain ⟨left, phase, guards⟩ := w
  cases phase with
  | outside =>
    refine .inr ⟨fun v => ?_, ?_⟩
    · simp only [access?]
      split <;> simp
    · simp only [step]
      split
      · rfl
      · cases c.lock? <;> rfl
  | locked => exact .inr ⟨fun v => by simp [access?], rfl⟩
  | inside => exact .inr ⟨fun v => by simp [access?], rfl⟩
  | loaded v => exact .inl ⟨v, rfl, rfl, (Nat.sub_add_cancel (hb (by simp))).symm⟩
  | stored => exact .inr ⟨fun v => by simp [access?], rfl⟩
  | leaving => exact .inr ⟨fun v => by simp [access?], rfl⟩

/-- A worker that has looked at the value was shown it. -/
theorem access?_of_loaded {c : Cell} {w : Worker} {v : Int} (h : (w.step c).2.phase = .loaded v) :
    w.access? c = some (.saw v) := by
  obtain ⟨left, phase, guards⟩ := w
  cases phase with
  | outside =>
    simp only [step] at h
    split at h
    · cases h
    · cases hl : c.lock? <;> rw [hl] at h <;> cases h
  | inside =>
    cases h
    rfl
  | locked | loaded _ | stored | leaving => cases h

/-- Who is at the cell has something to add, or has just done so. -/
theorem busy_step {c : Cell} {w : Worker} (hb : w.phase ≠ .outside → 0 < w.left)
    (h : (w.step c).2.phase ≠ .outside) : 0 < (w.step c).2.left := by
  obtain ⟨left, phase, guards⟩ := w
  cases phase with
  | outside =>
    simp only [step] at h ⊢
    split
    · next h0 => simp [h0] at h
    · next h0 => cases c.lock? <;> exact Nat.pos_of_ne_zero h0
  | leaving => exact absurd rfl h
  | locked | inside | loaded _ | stored => exact hb (by simp)

/-- Workers in the middle of their work, as a run of threads: what they have added is in the
history, and the rest is due. -/
structure Contends (v₀ : Int) (total threads : Nat) (t : Trace) (c : Cell) (ws : List Worker) :
    Prop where
  run : ∃ as, play? Crowd.act? [] (.start [v₀] threads) as = some (t, ⟨[c], ws.map holder⟩)
  added : ∃ k, Updates (history 0 t) (List.replicate k (· + 1)) ∧ k + (ws.map due).sum = total
  busy : ∀ w ∈ ws, w.phase ≠ .outside → 0 < w.left
  loaded : ∀ j w v, ws[j]? = some w → w.phase = .loaded v → known j (history 0 t) = some v

variable {v₀ : Int} {total threads j : Nat} {t : Trace} {c : Cell} {w : Worker} {ws : List Worker}

/-- **Every step adds what is due no more.** -/
theorem Contends.step (hc : Contends v₀ total threads t c ws) (hj : ws[j]? = some w) :
    ∃ t', Contends v₀ total threads t' (w.step c).1 (ws.set j (w.step c).2) := by
  obtain ⟨as, hrun⟩ := hc.run
  obtain ⟨hlt, -⟩ := List.getElem?_eq_some_iff.mp hj
  have hb := hc.busy w (List.mem_of_getElem? hj)
  have hholder : (ws.map holder)[j]? = some w.holder := by
    rw [List.getElem?_map, hj, Option.map_some]
  obtain ⟨t', hplay, hhist⟩ := Cell.play?_of_playAlone? hholder (playAlone?_moves c w) t
  have hhist := hhist 0
  have hsum := sum_map_set hj due (w.step c).2
  refine ⟨t', ⟨as ++ (w.moves c).map (⟨j, ·⟩), ?_⟩, ?_, fun u hu hp => ?_,
    fun k u v hk hp => ?_⟩
  · rw [play?_append, hrun, Option.bind_some, hplay, List.map_set]
  · obtain ⟨k, hu, hk⟩ := hc.added
    rcases due_step (c := c) hb with ⟨v, hp, ha, hdue⟩ | ⟨ha, hdue⟩
    · refine ⟨k + 1, ?_, by omega⟩
      rw [hhist, ha]
      exact .writes _ (hc.loaded j w v hj hp) rfl hu
    · refine ⟨k, ?_, by omega⟩
      rw [hhist]
      cases haccess : w.access? c with
      | none => exact hu
      | some a =>
        refine .passes ?_ hu
        cases a with
        | wrote v => exact absurd haccess (ha v)
        | entered | saw _ | left => rfl
  · rcases List.mem_or_eq_of_mem_set hu with hu | rfl
    · exact hc.busy u hu hp
    · exact busy_step hb hp
  · rw [hhist]
    by_cases hkj : k = j
    · subst hkj
      rw [List.getElem?_set_self hlt] at hk
      cases hk
      rw [access?_of_loaded hp]
      simp [Cell.eventsAt, known, Event.shown?]
    · rw [List.getElem?_set_ne (Ne.symm hkj)] at hk
      have hbefore := hc.loaded k u v hk hp
      cases w.access? c with
      | none => exact hbefore
      | some a => simpa [Cell.eventsAt, known, Ne.symm hkj] using hbefore

theorem contends_start (v₀ : Int) (times threads : Nat) :
    Contends v₀ (threads * times) threads [] (.ofValue v₀)
      (List.replicate threads (start times)) := by
  have hstart : ∀ w ∈ List.replicate threads (start times), w = start times :=
    fun w hw => List.eq_of_mem_replicate hw
  refine ⟨⟨[], ?_⟩, ⟨0, .start, ?_⟩, fun w hw hp => ?_, fun j w v hj hp => ?_⟩
  · rw [List.map_replicate]
    rfl
  · rw [List.map_replicate, List.sum_replicate_nat, Nat.zero_add]
    rfl
  · rw [hstart w hw] at hp
    exact absurd rfl hp
  · rw [hstart w (List.mem_of_getElem? hj)] at hp
    cases hp

theorem Contends.interleave (hc : Contends v₀ total threads t c ws) (js : List Nat) :
    ∃ t', Contends v₀ total threads t' (interleave js c ws).1 (interleave js c ws).2 := by
  induction js generalizing t c ws with
  | nil => exact ⟨t, hc⟩
  | cons j js ih =>
    rw [Worker.interleave]
    cases hj : ws[j]? with
    | none => exact ih hc
    | some w =>
      obtain ⟨t', hc'⟩ := hc.step hj
      exact ih hc'

/-- When all have finished, all is added, and nobody has the cell locked. -/
theorem Contends.eq_ofValue (hc : Contends v₀ total threads t c ws)
    (hdone : ∀ w ∈ ws, w.finished = true) : c = .ofValue (v₀ + total) := by
  have hleft : ∀ w ∈ ws, w.left = 0 := fun w hw => of_decide_eq_true (hdone w hw)
  have hout : ∀ w ∈ ws, w.phase = .outside := fun w hw => by
    by_contra hp
    exact absurd (hleft w hw) (Nat.pos_iff_ne_zero.mp (hc.busy w hw hp))
  obtain ⟨as, hrun⟩ := hc.run
  have hs := Cell.sound_of_play? hrun
  have hvalue : c.value = v₀ + total := by
    obtain ⟨k, hu, hk⟩ := hc.added
    have hdue : (ws.map due).sum = 0 := List.sum_eq_zero_iff_forall_eq_nat.mpr fun n hn => by
      obtain ⟨w, hw, rfl⟩ := List.mem_map.mp hn
      simp [due, hout w hw, hleft w hw]
    obtain ⟨owner, hkeeps⟩ := hs.keeps 0 v₀ c rfl rfl
    rw [hkeeps.serial.eq_foldr hu, Cell.foldr_add_one fun f hf => List.eq_of_mem_replicate hf,
      List.length_replicate, ← hk, hdue, Nat.add_zero]
  have hfree : c.locked = false := hs.guarded.unlocked 0 c rfl fun h hh => by
    obtain ⟨w, hw, rfl⟩ := List.mem_map.mp hh
    simp [holder, hout w hw, Cell.HolderPhase.isAt]
  obtain ⟨value, locked⟩ := c
  simp only [Cell.ofValue, Cell.mk.injEq]
  exact ⟨hvalue, hfree⟩

/-- What a worker does that is alone at the cell. -/
theorem run_start (v : Int) (times : Nat) :
    (start times).run (6 * times) (.ofValue v) = .ofValue (v + times) := by
  induction times generalizing v with
  | zero => simp [run]
  | succ n ih =>
    have hround : (start (n + 1)).run (6 * n + 6) (.ofValue v) =
        (start n).run (6 * n) (.ofValue (v + 1)) := rfl
    rw [Nat.mul_succ, hround, ih, Int.natCast_succ]
    simp only [Int.add_assoc, Int.add_comm 1]

theorem foldl_run_start (v : Int) (times threads : Nat) :
    (List.replicate threads (start times)).foldl (fun c w => w.run w.stepsNeeded c) (.ofValue v) =
      .ofValue (v + (threads * times : Nat)) := by
  induction threads generalizing v with
  | zero => simp
  | succ n ih =>
    have hfirst : (start times).run (start times).stepsNeeded (.ofValue v) = .ofValue (v + times) :=
      run_start v times
    rw [List.replicate_succ, List.foldl_cons, hfirst, ih]
    simp [Nat.succ_mul, Int.add_assoc, Int.add_comm]

end Worker

namespace CellBoard

/-- **It is no matter that the board runs the workers one by one.** It answers what is in the cell
after their steps in any order in which all of them finish, and leaves the cell so. -/
theorem call_contend_eq (b : CellBoard) (index : Nat) {cell : Cell} (hfree : cell.locked = false)
    {threads times : Nat} {js : List Nat} {c : Cell} {ws : List Worker}
    (hrun : Worker.interleave js cell (List.replicate threads (.start times)) = (c, ws))
    (hdone : ∀ w ∈ ws, w.finished = true) :
    b.call index cell (.contend threads times) =
      ({ b with cells := b.cells.set index c }, .ok (.value (some c.value))) := by
  obtain ⟨v, locked⟩ := cell
  obtain rfl : locked = false := hfree
  obtain ⟨t, hc⟩ := (Worker.contends_start v times threads).interleave js
  have hrun : Worker.interleave js (.ofValue v) (List.replicate threads (.start times)) = (c, ws) :=
    hrun
  rw [hrun] at hc
  have hfold := Worker.foldl_run_start v times threads
  have hc : c = .ofValue (v + (threads * times : Nat)) := hc.eq_ofValue hdone
  rw [hc, ← hfold]
  rfl

end CellBoard

end SwitchBench
