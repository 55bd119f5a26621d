import Mathlib.Data.List.Basic
import Mathlib.Tactic.Tauto

/-!
# Calls in progress

Several threads may be in the middle of a call at once. A roster is the list of those calls, each
told by what its next action is. A call that acts goes on to its next action, or leaves the roster
when it has returned: `putAt` replaces the entry at a place, or takes it out.

Results: `countP_putAt` (an entry's contribution to a count is exchanged for that of its
successor) and `mem_putAt` (whoever is on the roster afterwards was on it before, or is the
successor).
-/

namespace SwitchBench

variable {α : Type}

/-- The list with the entry at a place replaced, or taken out. -/
def putAt (l : List α) (i : Nat) (a : Option α) : List α := l.take i ++ a.toList ++ l.drop (i + 1)

theorem eq_take_append_drop_of_getElem? {l : List α} {i : Nat} {k : α} (h : l[i]? = some k) :
    l = l.take i ++ k :: l.drop (i + 1) := by
  obtain ⟨hi, rfl⟩ := List.getElem?_eq_some_iff.mp h
  rw [← List.drop_eq_getElem_cons hi, List.take_append_drop]

/-- One entry leaves a count and its successor enters it. -/
theorem countP_putAt {l : List α} {i : Nat} {k : α} (h : l[i]? = some k) (p : α → Bool)
    (a : Option α) :
    (putAt l i a).countP p + (p k).toNat = l.countP p + a.toList.countP p := by
  have hl := congrArg (List.countP p) (eq_take_append_drop_of_getElem? h)
  rw [List.countP_append, List.countP_cons] at hl
  unfold putAt
  rw [List.countP_append, List.countP_append]
  cases hk : p k <;> rw [hk] at hl <;> simp at hl ⊢ <;> omega

theorem putAt_cons_zero (k : α) (l : List α) (a : Option α) :
    putAt (k :: l) 0 a = a.toList ++ l := rfl

theorem forall_mem_of_eq_none {a : Option α} {p : α → Prop} (h : a = none) : ∀ k ∈ a, p k := by
  rintro k hk
  rw [h] at hk
  cases hk

/-- Nobody of a kind is in a call that is not of it. -/
theorem countP_toList_eq_zero {a : Option α} {p : α → Bool} (h : ∀ k ∈ a, p k = false) :
    a.toList.countP p = 0 := by
  refine List.countP_eq_zero.mpr fun k hk => ?_
  rw [h k (Option.mem_toList.mp hk)]
  exact Bool.false_ne_true

/-- What comes before a roster stays as it is. -/
theorem putAt_append (l m : List α) (i : Nat) (a : Option α) :
    putAt (l ++ m) (l.length + i) a = l ++ putAt m i a := by
  unfold putAt
  rw [List.take_length_add_append, Nat.add_assoc, List.drop_length_add_append]
  simp only [List.append_assoc]

theorem putAt_append_left {l : List α} {i : Nat} (h : i < l.length) (m : List α) (a : Option α) :
    putAt (l ++ m) i a = putAt l i a ++ m := by
  unfold putAt
  rw [List.take_append_of_le_length (Nat.le_of_lt h), List.drop_append_of_le_length h]
  simp only [List.append_assoc]

theorem length_putAt {l : List α} {i : Nat} (h : i < l.length) (a : Option α) :
    (putAt l i a).length + 1 = l.length + a.toList.length := by
  unfold putAt
  simp only [List.length_append, List.length_take, List.length_drop]
  omega

theorem mem_putAt_iff {l : List α} {i : Nat} {a : Option α} {x : α} :
    x ∈ putAt l i a ↔ x ∈ putAt l i none ∨ a = some x := by
  unfold putAt
  simp only [List.mem_append, Option.mem_toList, reduceCtorEq, or_false]
  tauto

theorem mem_putAt {l : List α} {i : Nat} {a : Option α} {x : α} (h : x ∈ putAt l i a) :
    x ∈ l ∨ a = some x := by
  rcases mem_putAt_iff.mp h with h | h
  · unfold putAt at h
    rw [List.mem_append, List.mem_append] at h
    rcases h with (h | h) | h
    · exact Or.inl (List.mem_of_mem_take h)
    · cases h
    · exact Or.inl (List.mem_of_mem_drop h)
  · exact Or.inr h

/-- Everybody else stays on the roster. -/
theorem mem_putAt_of_mem {l : List α} {i : Nat} {k : α} (h : l[i]? = some k) {x : α} (hx : x ∈ l)
    (a : Option α) : x = k ∨ x ∈ putAt l i a := by
  rw [eq_take_append_drop_of_getElem? h, List.mem_append, List.mem_cons] at hx
  unfold putAt
  simp only [List.mem_append]
  tauto

/-- With no entry of a kind on the list, none of that kind is on it after an entry of another kind
has gone. -/
theorem eq_zero_of_mem_countP {l : List α} {p : α → Bool} (h : l.countP p = 0) {x : α}
    (hx : x ∈ l) : p x = false := by
  cases hp : p x with
  | false => rfl
  | true => exact absurd hp (List.countP_eq_zero.mp h x hx)

/-- If an entry is the only one of its kind, then after its turn nobody else is of that kind but
its successor. -/
theorem mem_putAt_of_alone {l : List α} {i : Nat} {k : α} {p : α → Bool} (h : l[i]? = some k)
    (hone : l.countP p = (p k).toNat) {a : Option α} {x : α} (hx : x ∈ putAt l i a) :
    a = some x ∨ p x = false := by
  rcases mem_putAt_iff.mp hx with hx | hx
  · have hc := countP_putAt h p none
    rw [Option.toList_none, List.countP_nil] at hc
    exact Or.inr (eq_zero_of_mem_countP (by omega) hx)
  · exact Or.inl hx

end SwitchBench
