import SwitchBench.Fault

/-!
# Semaphores and how long to wait for them

A blocking call is told how long it may wait for what it needs (`Patience`). Inside a critical
section nothing may wait at all, so a call that could is refused there. A semaphore counts units up
to a limit. Giving at the limit changes nothing, so a semaphore with limit one is a flag, and one
that starts at its limit of one is a permit.

Results: every operation keeps the count within the limit, which is a field of the type; giving
adds a unit below the limit only (`count_give`), and taking is possible exactly on a positive count
(`take?_eq_none_iff`) and removes one unit (`count_of_take?`).
-/

namespace SwitchBench

/-- How long a call may wait. -/
inductive Patience where
  | now
  | atMost (us : Nat)
  | forever
  deriving DecidableEq, Repr

namespace Patience

/-- How long a wait that starts now can last, in microseconds; `none` if it has no end. -/
def limitUs : Patience → Option Nat
  | now => some 0
  | atMost us => some us
  | forever => none

/-- Does a wait last at least this long? -/
def outlasts (p : Patience) (us : Nat) : Bool :=
  match p.limitUs with
  | some limit => us ≤ limit
  | none => true

/-- A call with this patience from a thread that is in the given number of critical sections. -/
def allowedIn (p : Patience) (sections : Nat) : Except Fault Unit :=
  if p = now ∨ sections = 0 then .ok () else .error .blockingWait

end Patience

/-- A count of units with an upper limit. -/
structure Semaphore where
  count : Nat
  limit : Nat
  limit_pos : 0 < limit
  count_le : count ≤ limit
  deriving DecidableEq, Repr

namespace Semaphore

/-- A semaphore with the given units and limit. -/
def ofCount (count limit : Nat) : Except Fault Semaphore :=
  if h : 0 < limit ∧ count ≤ limit then .ok ⟨count, limit, h.1, h.2⟩ else .error .semaphoreCount

/-- A permit that can be taken. -/
def permit : Semaphore := ⟨1, 1, by decide, by decide⟩

/-- A flag that is not raised. -/
def flag : Semaphore := ⟨0, 1, by decide, by decide⟩

instance : Inhabited Semaphore := ⟨flag⟩

/-- Can a unit be taken? -/
def ready (s : Semaphore) : Bool := 0 < s.count

/-- Adds a unit, unless at the limit. -/
def give (s : Semaphore) : Semaphore :=
  if h : s.count < s.limit then { s with count := s.count + 1, count_le := h } else s

/-- Removes a unit, if there is one. -/
def take? (s : Semaphore) : Option Semaphore :=
  if s.count = 0 then none
  else some { s with count := s.count - 1, count_le := Nat.le_trans (Nat.sub_le ..) s.count_le }

/-- Removes all units. -/
def reset (s : Semaphore) : Semaphore := { s with count := 0, count_le := Nat.zero_le _ }

theorem count_give (s : Semaphore) :
    s.give.count = if s.count < s.limit then s.count + 1 else s.count := by
  unfold give; split <;> rfl

theorem count_give_of_empty {s : Semaphore} (h : s.count = 0) : s.give.count = 1 := by
  rw [count_give, h, if_pos s.limit_pos]

@[simp] theorem limit_give (s : Semaphore) : s.give.limit = s.limit := by
  unfold give; split <;> rfl

theorem take?_eq_none_iff {s : Semaphore} : s.take? = none ↔ s.count = 0 := by
  unfold take?; split <;> simp_all

theorem count_of_take? {s t : Semaphore} (h : s.take? = some t) : s.count = t.count + 1 := by
  unfold take? at h
  split at h
  · cases h
  · cases h; simp only; omega

theorem limit_of_take? {s t : Semaphore} (h : s.take? = some t) : t.limit = s.limit := by
  unfold take? at h
  split at h <;> cases h
  rfl

@[simp] theorem count_reset (s : Semaphore) : s.reset.count = 0 := rfl

end Semaphore

end SwitchBench
