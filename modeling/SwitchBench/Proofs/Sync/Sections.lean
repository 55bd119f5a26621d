import SwitchBench.Proofs.Sync.Guards
import Mathlib.Data.List.Nodup
import Mathlib.Data.List.Perm.Subperm

/-!
# A cell is used by one thread at a time

The events at a cell, read from the oldest on, are sections: a thread enters, sees and writes the
value, and leaves, before another enters (`Serial`). So a thread sees what it wrote itself since it
entered, or else what the last section left, and never what another has half done. This is kept by
every action because a cell is locked as long as somebody has entered and not left, and nobody else
has its lock then (`Keeps`).

An update is a write of something computed from the value that its thread knows, from having seen or
written it, in the same section (`known`). In a serial history that value is the one in the cell, so
no update is lost.

Results: `Serial.eq_of_known` (a thread knows the value in the cell), `Serial.eq_foldr` (all updates
are in the value), `Sound.act` (every action keeps the cells serial), and
`guards_exclude_and_account`.
-/

namespace SwitchBench.Cell

/-! ## Serial histories -/

/-- The events at a cell are sections one after another: who is inside at the end of them, and the
value that is in the cell then. -/
inductive Serial (v₀ : Int) : List Event → Option Nat → Int → Prop
  | start : Serial v₀ [] none v₀
  | enters {l : List Event} {v : Int} (j i : Nat) (hs : Serial v₀ l none v) :
      Serial v₀ (⟨j, i, .entered⟩ :: l) (some j) v
  | sees {l : List Event} {j : Nat} {v : Int} (i : Nat) (hs : Serial v₀ l (some j) v) :
      Serial v₀ (⟨j, i, .saw v⟩ :: l) (some j) v
  | writes {l : List Event} {j : Nat} {v : Int} (i : Nat) (w : Int) (hs : Serial v₀ l (some j) v) :
      Serial v₀ (⟨j, i, .wrote w⟩ :: l) (some j) w
  | leaves {l : List Event} {j : Nat} {v : Int} (i : Nat) (hs : Serial v₀ l (some j) v) :
      Serial v₀ (⟨j, i, .left⟩ :: l) none v

/-- The value that a thread wrote. -/
def Event.written? (e : Event) : Option Int :=
  match e.access with
  | .wrote v => some v
  | _ => none

/-- The value that an event shows to its thread. -/
def Event.shown? (e : Event) : Option Int :=
  match e.access with
  | .saw v | .wrote v => some v
  | _ => none

/-- The value that a thread was shown by what it last did at a cell. -/
def known (thread : Nat) (l : List Event) : Option Int :=
  (l.find? (·.thread = thread)).bind Event.shown?

/-- All writes are updates: each writes what a function makes of the value that its thread knows. -/
inductive Updates : List Event → List (Int → Int) → Prop
  | start : Updates [] []
  | passes {l : List Event} {fs : List (Int → Int)} {e : Event} (he : e.written? = none)
      (hu : Updates l fs) : Updates (e :: l) fs
  | writes {l : List Event} {fs : List (Int → Int)} {e : Event} {v : Int} (f : Int → Int)
      (hk : known e.thread l = some v) (he : e.written? = some (f v)) (hu : Updates l fs) :
      Updates (e :: l) (f :: fs)

/-- What a thread has written since it entered, if it has written anything. -/
def pending (thread : Nat) : List Event → Option Int
  | [] => none
  | e :: l =>
    if e.thread = thread then
      match e.access with
      | .saw _ => pending thread l
      | .wrote v => some v
      | .entered | .left => none
    else pending thread l

/-- Whoever leaves after writing leaves a value of a kind. -/
def Leaves (P : Int → Prop) (l : List Event) : Prop :=
  ∀ e older w, e :: older <:+ l → e.access = .left → pending e.thread older = some w → P w

/-- Whoever sees the value before writing sees one of a kind, and otherwise what it wrote. -/
def Sees (P : Int → Prop) (l : List Event) : Prop :=
  ∀ e older v, e :: older <:+ l → e.access = .saw v → (pending e.thread older).elim (P v) (· = v)

variable {v₀ v w : Int} {l : List Event} {fs : List (Int → Int)} {owner : Option Nat} {j : Nat}
  {P : Int → Prop}

/-- **A thread knows the value in the cell.** Nobody came between what it last did there and now. -/
theorem Serial.eq_of_known (hs : Serial v₀ l (some j) v) (hk : known j l = some w) : w = v := by
  cases hs <;> simp [known, Event.shown?] at hk <;> exact hk.symm

/-- **All updates are in the value**, in the order in which they were made. -/
theorem Serial.eq_foldr (hs : Serial v₀ l owner v) (hu : Updates l fs) :
    v = fs.foldr (fun f x => f x) v₀ := by
  induction hs generalizing fs with
  | start =>
    cases hu
    rfl
  | enters _ _ _ ih | sees _ _ ih | leaves _ _ ih =>
    cases hu with
    | passes _ hu => exact ih hu
    | writes _ _ he => cases he
  | writes _ w hs ih =>
    cases hu with
    | passes he => cases he
    | writes f hk he hu =>
      cases he
      rw [List.foldr_cons, ← ih hu, hs.eq_of_known hk]

theorem Updates.length_eq (hu : Updates l fs) : fs.length = l.countP (·.written?.isSome) := by
  induction hu with
  | start => rfl
  | passes he _ ih => simp [he, ih]
  | writes f _ he _ ih => simp [he, ih]

theorem foldr_add_one (hfs : ∀ f ∈ fs, f = (· + 1)) :
    fs.foldr (fun f x => f x) v₀ = v₀ + fs.length := by
  induction fs with
  | nil => simp
  | cons f fs ih =>
    obtain ⟨hf, hrest⟩ := List.forall_mem_cons.mp hfs
    rw [List.foldr_cons, ih hrest, hf, List.length_cons]
    exact (Int.add_assoc _ _ _).trans (by rw [Int.natCast_succ])

/-- What is counted for each of some threads alike. -/
theorem countP_lt_eq_mul {p : Event → Bool} {n m : Nat}
    (hm : ∀ j < n, l.countP (fun e => p e && e.thread = j) = m) :
    l.countP (fun e => p e && e.thread < n) = n * m := by
  induction n with
  | zero => simp
  | succ n ih =>
    have hsplit : l.countP (fun e => p e && e.thread < n + 1) =
        l.countP (fun e => p e && e.thread < n) + l.countP (fun e => p e && e.thread = n) := by
      clear ih hm
      induction l with
      | nil => rfl
      | cons e l ih =>
        simp only [List.countP_cons, ih]
        by_cases hlt : e.thread < n
        · simp [hlt, Nat.lt_succ_of_lt hlt, Nat.ne_of_lt hlt]
          omega
        · by_cases heq : e.thread = n
          · simp [heq]
            omega
          · simp [hlt, heq, show ¬ e.thread < n + 1 by omega]
    rw [hsplit, ih fun j hj => hm j (Nat.lt_succ_of_lt hj), hm n (Nat.lt_succ_self n),
      Nat.succ_mul]

theorem Leaves.of_cons {e : Event} (h : Leaves P (e :: l)) : Leaves P l :=
  fun e' older w hsuf => h e' older w (hsuf.trans (List.suffix_cons e l))

/-- What is in the cell is what the thread inside has written, or else what the last one left. -/
theorem Serial.elim_pending (hs : Serial v₀ l owner v) (h₀ : P v₀) (hl : Leaves P l) :
    (owner.bind (pending · l)).elim (P v) (· = v) := by
  induction hs with
  | start => exact h₀
  | enters j i _ ih => simpa [pending] using ih hl.of_cons
  | sees i _ ih => simpa [pending] using ih hl.of_cons
  | writes i w _ ih => simp [pending]
  | @leaves l j v i _ ih =>
    have hbefore := ih hl.of_cons
    cases hp : pending j l with
    | none => simpa [hp] using hbefore
    | some w =>
      have hw : w = v := by simpa [hp] using hbefore
      exact hw ▸ hl ⟨j, i, .left⟩ l w (List.suffix_refl _) rfl hp

theorem Serial.of_append {newer : List Event} (hs : Serial v₀ (newer ++ l) owner v) :
    ∃ owner' v', Serial v₀ l owner' v' := by
  induction newer generalizing owner v with
  | nil => exact ⟨owner, v, hs⟩
  | cons e newer ih =>
    cases hs with
    | enters _ _ hs | sees _ hs | writes _ _ hs | leaves _ hs => exact ih hs

/-- **Nobody sees what another has half done.** -/
theorem Serial.sees_of_leaves (hs : Serial v₀ l owner v) (h₀ : P v₀) (hl : Leaves P l) :
    Sees P l := by
  rintro ⟨j, i, a⟩ older u ⟨newer, rfl⟩ rfl
  obtain ⟨owner', v', hs'⟩ := hs.of_append
  cases hs' with
  | sees _ hs' =>
    have hlo : Leaves P older := fun e rest w hsuf =>
      hl e rest w (hsuf.trans ((List.suffix_cons _ _).trans (List.suffix_append _ _)))
    exact hs'.elim_pending h₀ hlo

/-! ## What every action keeps -/

/-- How often a thread has the lock of a cell. -/
def lockCount (holders : List Holder) (j i : Nat) : Nat := holders[j]?.elim 0 (·.locks.count i)

/-- A cell's history is serial, the cell is locked as long as somebody is inside, and nobody else
has its lock. -/
structure Keeps (v₀ : Int) (l : List Event) (holders : List Holder) (i : Nat) (cell : Cell)
    (owner : Option Nat) : Prop where
  serial : Serial v₀ l owner cell.value
  locked : cell.locked = owner.isSome
  alone : ∀ j, lockCount holders j i = if owner = some j then 1 else 0

/-- What is so at every moment of a run. -/
structure Sound (values : List Int) (t : Trace) (c : Crowd) : Prop where
  length : c.cells.length = values.length
  keeps : ∀ i v₀ cell, values[i]? = some v₀ → c.cells[i]? = some cell →
    ∃ owner, Keeps v₀ (history i t) c.holders i cell owner
  accounted : ∀ h ∈ c.holders, h.Accounted
  within : ∀ h ∈ c.holders, ∀ i ∈ h.locks, i < c.cells.length

variable {holders : List Holder} {h h' : Holder} {i k : Nat} {cell cell' : Cell} {a : Access}

theorem lockCount_of_getElem? (hj : holders[j]? = some h) (i : Nat) :
    lockCount holders j i = h.locks.count i := by
  rw [lockCount, hj, Option.elim_some]

/-- Only who acts may get a lock or lose one. -/
theorem lockCount_set (hj : holders[j]? = some h) (h' : Holder) (k i : Nat) :
    lockCount (holders.set j h') k i =
      if k = j then h'.locks.count i else lockCount holders k i := by
  obtain ⟨hlt, -⟩ := List.getElem?_eq_some_iff.mp hj
  by_cases hk : k = j
  · rw [if_pos hk, hk, lockCount_of_getElem? (List.getElem?_set_self hlt)]
  · rw [if_neg hk, lockCount, lockCount, List.getElem?_set_ne (Ne.symm hk)]

theorem lockCount_set_of_eq (hj : holders[j]? = some h) (he : h'.locks.count i = h.locks.count i)
    (k : Nat) : lockCount (holders.set j h') k i = lockCount holders k i := by
  rw [lockCount_set hj]
  split
  · next hk => rw [hk, lockCount_of_getElem? hj, he]
  · rfl

/-- **An event goes on with the serial history of its cell.** -/
theorem Keeps.shift (hk : Keeps v₀ l holders i cell owner) (hj : holders[j]? = some h)
    (hs : Shift a cell (h.locks.count i) cell' (h'.locks.count i)) :
    ∃ owner', Keeps v₀ (⟨j, i, a⟩ :: l) (holders.set j h') i cell' owner' := by
  have hown : h.locks.count i = if owner = some j then 1 else 0 := by
    rw [← lockCount_of_getElem? hj, hk.alone]
  have hself : 0 < h.locks.count i → owner = some j := fun hpos => by
    by_contra hne
    rw [hown, if_neg hne] at hpos
    exact Nat.lt_irrefl 0 hpos
  generalize hn : h.locks.count i = n at hs hown hself
  generalize hn' : h'.locks.count i = n' at hs
  cases hs with
  | enters hl =>
    have hnone : owner = none := by simpa [hl] using hk.locked
    subst hnone
    refine ⟨some j, hk.serial.enters j i, rfl, fun k => ?_⟩
    rw [lockCount_set hj, hk.alone, hn', hown]
    by_cases hkj : k = j
    · simp [hkj]
    · simp [hkj, Ne.symm hkj]
  | sees hpos =>
    obtain rfl := hself hpos
    exact ⟨some j, hk.serial.sees i, hk.locked, fun k => by
      rw [lockCount_set_of_eq hj (hn'.trans hn.symm), hk.alone]⟩
  | writes v hpos =>
    obtain rfl := hself hpos
    exact ⟨some j, hk.serial.writes i v, hk.locked, fun k => by
      rw [lockCount_set_of_eq hj (hn'.trans hn.symm), hk.alone]⟩
  | leaves =>
    obtain rfl := hself (Nat.succ_pos n')
    refine ⟨none, hk.serial.leaves i, rfl, fun k => ?_⟩
    rw [lockCount_set hj, hk.alone, hn']
    by_cases hkj : k = j
    · rw [if_pos hkj]
      simpa using hown
    · simp [hkj, Ne.symm hkj]

/-- Where nothing happens, nothing changes. -/
theorem Keeps.frame (hk : Keeps v₀ l holders i cell owner) (hj : holders[j]? = some h)
    (he : h'.locks.count i = h.locks.count i) : Keeps v₀ l (holders.set j h') i cell owner :=
  ⟨hk.serial, hk.locked, fun k => by rw [lockCount_set_of_eq hj he, hk.alone]⟩

theorem history_of_none {t : Trace} {c : Crowd} {a : Action} (he : c.event? a = none) (i : Nat) :
    history i ((c, a) :: t) = history i t := by
  simp [history, he]

theorem history_of_some {t : Trace} {c : Crowd} {a : Action} {e : Event}
    (he : c.event? a = some e) (i : Nat) :
    history i ((c, a) :: t) = if e.cell = i then e :: history i t else history i t := by
  by_cases hi : e.cell = i
  · rw [if_pos hi]
    exact List.filterMap_cons_some (by simp [he, hi])
  · rw [if_neg hi]
    exact List.filterMap_cons_none (by simp [he, hi])

variable {values : List Int} {threads : Nat} {t : Trace} {c c' : Crowd}

theorem sound_start : Sound values [] (.start values threads) := by
  have hholders : ∀ h ∈ (Crowd.start values threads).holders, h = Holder.start :=
    fun h hh => List.eq_of_mem_replicate hh
  refine ⟨List.length_map _, fun i v₀ cell hv hc => ?_, fun h hh => ?_, fun h hh i hi => ?_⟩
  · rw [Crowd.start, List.getElem?_map, hv] at hc
    cases hc
    refine ⟨none, .start, rfl, fun j => ?_⟩
    rw [lockCount, Crowd.start, List.getElem?_replicate]
    split <;> rfl
  · rw [hholders h hh]
    rfl
  · rw [hholders h hh] at hi
    cases hi

/-- **Every action keeps all this.** -/
theorem Sound.act {a : Action} (hs : Sound values t c) (ha : c.act? a = some c') :
    Sound values ((c, a) :: t) c' := by
  obtain ⟨h, cells', h', e, hj, ht, rfl, he⟩ := turn_of_act? ha
  have haccounted : ∀ g ∈ c.holders.set a.thread h', g.Accounted := by
    rintro g hg
    rcases List.mem_or_eq_of_mem_set hg with hg | rfl
    · exact hs.accounted g hg
    · exact ht.accounted (hs.accounted h (List.mem_of_getElem? hj))
  rcases ht.effect with ⟨rfl, rfl, hlocks⟩ | ⟨i, b, cell, cell', rfl, hc, rfl, hshift, hothers⟩
  · refine ⟨hs.length, fun i v₀ cell hv hc => ?_, haccounted, fun g hg i hi => ?_⟩
    · obtain ⟨owner, hk⟩ := hs.keeps i v₀ cell hv hc
      rw [history_of_none he]
      exact ⟨owner, hk.frame hj (hlocks.count_eq i)⟩
    · rcases List.mem_or_eq_of_mem_set hg with hg | rfl
      · exact hs.within g hg i hi
      · exact hs.within h (List.mem_of_getElem? hj) i (hlocks.mem_iff.mp hi)
  · obtain ⟨hlt, -⟩ := List.getElem?_eq_some_iff.mp hc
    refine ⟨(List.length_set ..).trans hs.length, fun k v₀ d hv hd => ?_, haccounted,
      fun g hg k hk => ?_⟩
    · rw [history_of_some he]
      by_cases hki : i = k
      · subst hki
        rw [if_pos rfl]
        rw [List.getElem?_set_self hlt] at hd
        cases hd
        obtain ⟨owner, hkeeps⟩ := hs.keeps i v₀ cell hv hc
        exact hkeeps.shift hj hshift
      · rw [if_neg hki]
        rw [List.getElem?_set_ne hki] at hd
        obtain ⟨owner, hkeeps⟩ := hs.keeps k v₀ d hv hd
        exact ⟨owner, hkeeps.frame hj (hothers k (Ne.symm hki))⟩
    · rw [List.length_set]
      rcases List.mem_or_eq_of_mem_set hg with hg | rfl
      · exact hs.within g hg k hk
      · by_cases hki : k = i
        · rw [hki]
          exact hlt
        · refine hs.within h (List.mem_of_getElem? hj) k (List.count_pos_iff.mp ?_)
          rw [← hothers k hki]
          exact List.count_pos_iff.mpr hk

theorem sound_of_play? {as : List Action}
    (hp : play? Crowd.act? [] (.start values threads) as = some (t, c)) : Sound values t c :=
  of_play? (fun _ _ _ _ hs ha => hs.act ha) as sound_start hp

/-! ## What is so of the guards -/

/-- Nobody has the lock of a cell twice, or one that another has. -/
theorem Sound.sole (hs : Sound values t c) (hj : c.holders[j]? = some h) (hi : i ∈ h.locks) :
    h.locks.count i = 1 ∧ (∃ cell, c.cells[i]? = some cell ∧ cell.locked = true) ∧
      ∀ k g, c.holders[k]? = some g → i ∈ g.locks → k = j := by
  have hlt := hs.within h (List.mem_of_getElem? hj) i hi
  obtain ⟨owner, hk⟩ := hs.keeps i _ _
    (List.getElem?_eq_getElem (hs.length ▸ hlt)) (List.getElem?_eq_getElem hlt)
  have hown : ∀ k g, c.holders[k]? = some g → i ∈ g.locks →
      owner = some k ∧ g.locks.count i = 1 := by
    intro k g hg hmem
    have halone := hk.alone k
    have hpos := List.count_pos_iff.mpr hmem
    rw [lockCount_of_getElem? hg] at halone
    by_cases hok : owner = some k
    · exact ⟨hok, by rw [halone, if_pos hok]⟩
    · rw [halone, if_neg hok] at hpos
      exact absurd hpos (Nat.lt_irrefl 0)
  obtain ⟨rfl, hone⟩ := hown j h hj hi
  refine ⟨hone, ⟨_, List.getElem?_eq_getElem hlt, hk.locked⟩, fun k g hg hmem => ?_⟩
  exact (Option.some.inj (hown k g hg hmem).1).symm

/-- A locked cell is one that somebody has the lock of. -/
theorem Sound.exists_of_locked (hs : Sound values t c) (hc : c.cells[i]? = some cell)
    (hl : cell.locked = true) : ∃ h ∈ c.holders, i ∈ h.locks := by
  obtain ⟨hlt, -⟩ := List.getElem?_eq_some_iff.mp hc
  obtain ⟨owner, hk⟩ := hs.keeps i _ _ (List.getElem?_eq_getElem (hs.length ▸ hlt)) hc
  obtain ⟨j, rfl⟩ := Option.isSome_iff_exists.mp (hk.locked ▸ hl)
  have hone := hk.alone j
  rw [if_pos rfl] at hone
  unfold lockCount at hone
  cases hj : c.holders[j]? with
  | none => simp [hj] at hone
  | some h =>
    refine ⟨h, List.mem_of_getElem? hj, List.count_pos_iff.mp ?_⟩
    rw [hj, Option.elim_some] at hone
    rw [hone]
    exact Nat.one_pos

theorem Sound.nodup_locks (hs : Sound values t c) (hh : h ∈ c.holders) : h.locks.Nodup := by
  obtain ⟨j, hj⟩ := List.mem_iff_getElem?.mp hh
  refine List.nodup_iff_count_le_one.mpr fun i => ?_
  by_cases hi : i ∈ h.locks
  · exact Nat.le_of_eq (hs.sole hj hi).1
  · rw [List.count_eq_zero_of_not_mem hi]
    exact Nat.zero_le 1

theorem mem_locks_of_mem_guards (hi : i ∈ h.guards) : i ∈ h.locks := List.mem_append_right _ hi

/-- What is so of the guards and of their counts. -/
structure Guarded (c : Crowd) : Prop where
  /-- No cell has two guards. -/
  single : (c.holders.flatMap (·.guards)).Nodup
  /-- A cell that has a guard is locked. -/
  locked : ∀ h ∈ c.holders, ∀ i ∈ h.guards, ∃ cell, c.cells[i]? = some cell ∧ cell.locked = true
  /-- A cell that nobody locks, has the guard of or releases is not. -/
  unlocked : ∀ i cell, c.cells[i]? = some cell →
    (∀ h ∈ c.holders, i ∉ h.guards ∧ h.phase.isAt i = false) → cell.locked = false
  /-- A thread that neither locks a cell nor releases a guard counts its guards right. -/
  counted : ∀ h ∈ c.holders, h.phase = .outside →
    h.depth = h.guards.length ∧ (h.inSection = true ↔ h.guards ≠ [])
  /-- Nothing is discounted that was not counted. -/
  positive : ∀ h ∈ c.holders, ∀ i, h.phase = .discounting i → 0 < h.depth
  bounded : ∀ h ∈ c.holders, h.depth ≤ c.cells.length

theorem Sound.guarded (hs : Sound values t c) : Guarded c where
  single := by
    refine List.nodup_flatMap.mpr ⟨fun h hh => ?_, List.pairwise_iff_getElem.mpr ?_⟩
    · exact (hs.nodup_locks hh).sublist (List.sublist_append_right _ _)
    · intro j k hj hk hlt i hi hi'
      have hjk := (hs.sole (List.getElem?_eq_getElem hj) (mem_locks_of_mem_guards hi)).2.2 k _
        (List.getElem?_eq_getElem hk) (mem_locks_of_mem_guards hi')
      exact Nat.lt_irrefl j (hjk ▸ hlt)
  locked h hh i hi := by
    obtain ⟨j, hj⟩ := List.mem_iff_getElem?.mp hh
    exact (hs.sole hj (mem_locks_of_mem_guards hi)).2.1
  unlocked i cell hc hfree := by
    rw [← Bool.not_eq_true]
    intro hl
    obtain ⟨h, hh, hi⟩ := hs.exists_of_locked hc hl
    obtain ⟨hg, hp⟩ := hfree h hh
    rcases List.mem_append.mp hi with hi | hi
    · revert hp hi
      cases h.phase <;> simp +contextual [HolderPhase.locks, HolderPhase.isAt, eq_comm]
    · exact hg hi
  counted h hh hp := by
    have hdepth : h.depth = h.guards.length := by
      rw [hs.accounted h hh, hp]
      rfl
    refine ⟨hdepth, ?_⟩
    rw [Holder.inSection, decide_eq_true_iff, hdepth, List.length_pos_iff]
  positive h hh i hp := by
    rw [hs.accounted h hh, hp]
    exact Nat.succ_pos _
  bounded h hh := by
    refine Nat.le_trans (hs.accounted h hh).depth_le ?_
    have hsub : h.locks ⊆ List.range c.cells.length := fun i hi =>
      List.mem_range.mpr (hs.within h hh i hi)
    simpa using ((hs.nodup_locks hh).subperm hsub).length_le

/-- What is so of a cell that had one value and has another after some events. -/
structure Uninterrupted (v₀ : Int) (l : List Event) (v : Int) : Prop where
  serial : ∃ owner, Serial v₀ l owner v
  /-- No update is seen half done. -/
  whole : ∀ P : Int → Prop, P v₀ → Leaves P l → Sees P l
  /-- No update is lost. -/
  updated : ∀ fs, Updates l fs → v = fs.foldr (fun f x => f x) v₀
  /-- Some threads that each add one so many times have added as much as that. -/
  added : ∀ (n m : Nat) (fs : List (Int → Int)), Updates l fs → (∀ f ∈ fs, f = (· + 1)) →
    (∀ e ∈ l, e.written?.isSome = true → e.thread < n) →
    (∀ j < n, l.countP (fun e => e.written?.isSome && e.thread = j) = m) → v = v₀ + n * m

theorem Serial.uninterrupted (hs : Serial v₀ l owner v) : Uninterrupted v₀ l v where
  serial := ⟨owner, hs⟩
  whole _ h₀ hl := hs.sees_of_leaves h₀ hl
  updated _ hu := hs.eq_foldr hu
  added n m fs hu hfs hthreads hm := by
    have hcount : fs.length = n * m := by
      rw [hu.length_eq, ← countP_lt_eq_mul hm]
      refine List.countP_congr fun e he => ?_
      simpa using hthreads e he
    rw [hs.eq_foldr hu, foldr_add_one hfs, hcount, Int.natCast_mul]

/-- **Guards exclude and are accounted for.** However threads lock cells, use them and release their
guards, in order or out of it or because of a panic, the guards and their counts are as `Guarded`
says, and each cell has been used by one thread after another. -/
theorem guards_exclude_and_account {as : List Action}
    (hp : play? Crowd.act? [] (.start values threads) as = some (t, c)) :
    Guarded c ∧ ∀ i v₀ cell, values[i]? = some v₀ → c.cells[i]? = some cell →
      Uninterrupted v₀ (history i t) cell.value := by
  have hs := sound_of_play? hp
  refine ⟨hs.guarded, fun i v₀ cell hv hc => ?_⟩
  obtain ⟨owner, hk⟩ := hs.keeps i v₀ cell hv hc
  exact hk.serial.uninterrupted

/-- Two threads at two cells. The first gets guards of both and releases the one it got first; the
second, which has tried for that one in vain, gets it then, adds one too, and panics. -/
def nestedAndPanicked : List Action :=
  [⟨0, .lock 0⟩, ⟨0, .proceed⟩, ⟨1, .lock 0⟩, ⟨1, .proceed⟩, ⟨0, .proceed⟩, ⟨0, .proceed⟩,
    ⟨0, .lock 1⟩, ⟨0, .proceed⟩, ⟨0, .proceed⟩, ⟨0, .proceed⟩, ⟨0, .read 0⟩, ⟨0, .write 0 6⟩,
    ⟨0, .release 0⟩, ⟨1, .falter⟩, ⟨0, .proceed⟩, ⟨0, .proceed⟩, ⟨1, .proceed⟩, ⟨1, .proceed⟩,
    ⟨1, .proceed⟩, ⟨1, .read 0⟩, ⟨1, .write 0 7⟩, ⟨1, .panic⟩, ⟨1, .release 0⟩, ⟨1, .proceed⟩]

theorem guards_exclude_and_account_nestedAndPanicked :
    ∃ t c, play? Crowd.act? [] (.start [5, 9] 2) nestedAndPanicked = some (t, c) ∧
      c.cells = [⟨7, true⟩, ⟨9, true⟩] ∧
      c.holders = [⟨.outside, [1], 1, false⟩, ⟨.unlocking 0, [], 0, true⟩] ∧
      Guarded c ∧ ∀ i v₀ cell, [5, 9][i]? = some v₀ → c.cells[i]? = some cell →
        Uninterrupted v₀ (history i t) cell.value := by
  have hends : ∀ r, play? Crowd.act? [] (.start [5, 9] 2) nestedAndPanicked = some r →
      r.2.cells = [⟨7, true⟩, ⟨9, true⟩] ∧
        r.2.holders = [⟨.outside, [1], 1, false⟩, ⟨.unlocking 0, [], 0, true⟩] := by
    rintro r hr
    cases hr
    decide
  obtain ⟨⟨t, c⟩, hp⟩ : ∃ r, play? Crowd.act? [] (.start [5, 9] 2) nestedAndPanicked = some r :=
    Option.isSome_iff_exists.mp (by decide)
  obtain ⟨hcells, hholders⟩ := hends _ hp
  exact ⟨t, c, hp, hcells, hholders, guards_exclude_and_account hp⟩

end SwitchBench.Cell
