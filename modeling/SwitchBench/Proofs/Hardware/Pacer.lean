import SwitchBench.Hardware.Pacer

/-!
# The pace of a timer

A timer is started and then waited for again and again. When a wait ends is not up to the timer:
whoever waits may come late, and may sleep for longer than it was to. All that is known is that no
wait ends before the firing that it is for.

The firings are told by the ends of the waits (`firing`). Two facts about one firing and the next
carry the rest: they are at least a period apart (`add_le_nextFiring`), and the wait for the first
ends no more than a period after the second (`le_nextFiring_add`), however late it ends.

Results: `firing_add_le` (firings do not come faster than the period), `firing_eq_iff` (when those
of a steady timer are on the grid that began with its start), and `keeps_time` (no wait ends early,
no burst makes up for a late one, and small delays do not add up).
-/

namespace SwitchBench

namespace Pacer

/-- The timer after the first waits of a row, of which each ends at its instant. -/
def afterWaits (p : Pacer) (ended : Nat → Nat) : Nat → Pacer
  | 0 => p
  | n + 1 => (p.afterWaits ended n).waited (ended n)

/-- None of the first waits of a row ends before the firing that it is for. Nothing else is asked of
the ends: from there on they are as late as they like. -/
def NeverEarly (p : Pacer) (ended : Nat → Nat) (count : Nat) : Prop :=
  ∀ n < count, ∀ due ∈ (p.afterWaits ended n).next?, due ≤ ended n

/-- The firing that a wait is for, of a timer that was started at an instant. -/
def firing (catchup : Catchup) (started periodUs : Nat) (ended : Nat → Nat) : Nat → Nat
  | 0 => started + periodUs
  | n + 1 => nextFiring catchup periodUs (firing catchup started periodUs ended n) (ended n)

/-! ## One firing and the next -/

variable {catchup : Catchup} {periodUs due instant : Nat}

theorem add_le_nextFiring (h : due ≤ instant) :
    due + periodUs ≤ nextFiring catchup periodUs due instant := by
  unfold nextFiring
  cases catchup with
  | restart => exact Nat.add_le_add_right h _
  | steady => simp only; split <;> omega

theorem le_nextFiring_add : instant ≤ nextFiring catchup periodUs due instant + periodUs := by
  unfold nextFiring
  cases catchup with
  | restart => simp only; omega
  | steady => simp only; split <;> omega

/-- A steady timer leaves its grid exactly if a wait ends more than two periods late. -/
theorem nextFiring_steady_eq_iff :
    nextFiring .steady periodUs due instant = due + periodUs ↔ instant ≤ due + 2 * periodUs := by
  simp only [nextFiring]
  split <;> omega

/-! ## A row of waits -/

variable {started count : Nat} {ended : Nat → Nat}

/-- A timer that was started runs on, and fires next when `firing` says. -/
theorem running_afterWaits (p : Pacer) (n : Nat) :
    (p.start started periodUs).afterWaits ended n =
      ⟨p.catchup, some (periodUs, firing p.catchup started periodUs ended n)⟩ := by
  induction n with
  | zero => rfl
  | succ n ih =>
    rw [afterWaits, ih]
    rfl

theorem next?_afterWaits (p : Pacer) (n : Nat) :
    ((p.start started periodUs).afterWaits ended n).next? =
      some (firing p.catchup started periodUs ended n) := by
  rw [running_afterWaits]
  rfl

theorem neverEarly_iff {p : Pacer} :
    (p.start started periodUs).NeverEarly ended count ↔
      ∀ n < count, firing p.catchup started periodUs ended n ≤ ended n := by
  unfold NeverEarly
  simp only [next?_afterWaits, Option.mem_def, Option.some.injEq, forall_eq']

/-- **Firings do not come faster than the period.** -/
theorem firing_add_le (h : ∀ n < count, firing catchup started periodUs ended n ≤ ended n)
    (n k : Nat) (hk : n + k ≤ count) :
    firing catchup started periodUs ended n + k * periodUs ≤
      firing catchup started periodUs ended (n + k) := by
  induction k with
  | zero => exact Nat.le_of_eq (by rw [Nat.zero_mul, Nat.add_zero, Nat.add_zero])
  | succ k ih =>
    calc firing catchup started periodUs ended n + (k + 1) * periodUs
        = firing catchup started periodUs ended n + k * periodUs + periodUs := by
          rw [Nat.succ_mul, Nat.add_assoc]
      _ ≤ firing catchup started periodUs ended (n + k) + periodUs :=
          Nat.add_le_add_right (ih (by omega)) _
      _ ≤ firing catchup started periodUs ended (n + (k + 1)) :=
          add_le_nextFiring (h (n + k) (by omega))

/-- **A steady timer fires on the grid that began with its start exactly as long as no wait ends
more than two periods late.** -/
theorem firing_eq_iff (h : ∀ n < count, firing .steady started periodUs ended n ≤ ended n)
    (n : Nat) (hn : n ≤ count) :
    firing .steady started periodUs ended n = started + (n + 1) * periodUs ↔
      ∀ i < n, ended i ≤ firing .steady started periodUs ended i + 2 * periodUs := by
  induction n with
  | zero => exact iff_of_true (by rw [firing, Nat.zero_add, Nat.one_mul]) nofun
  | succ n ih =>
    have hearlier := firing_add_le h 0 n (by omega)
    rw [Nat.zero_add, firing] at hearlier
    have hapart : _ ≤ firing .steady started periodUs ended (n + 1) := add_le_nextFiring (h n hn)
    -- a firing that left the grid is late, and none after it is earlier
    have hstay : firing .steady started periodUs ended (n + 1) = started + (n + 1 + 1) * periodUs ↔
        firing .steady started periodUs ended n = started + (n + 1) * periodUs ∧
        firing .steady started periodUs ended (n + 1) =
          firing .steady started periodUs ended n + periodUs := by
      have h1 : (n + 1) * periodUs = n * periodUs + periodUs := Nat.succ_mul _ _
      have h2 : (n + 1 + 1) * periodUs = (n + 1) * periodUs + periodUs := Nat.succ_mul _ _
      omega
    rw [hstay, ih (by omega), firing, nextFiring_steady_eq_iff, Nat.forall_lt_succ_right]

/-- **A timer neither drifts nor bursts.** It is started, and then waited for again and again, where
each wait ends at any instant from the firing on that it is for. No wait ends before all periods up
to it are over; of waits in a row, however late they and earlier ones end, the last ends after the
first by all periods between them but two; and a steady timer fires on the grid that began with its
start exactly as long as no wait ends more than two periods after its firing. -/
theorem keeps_time (p : Pacer) (h : (p.start started periodUs).NeverEarly ended count) :
    (∀ n < count, started + (n + 1) * periodUs ≤ ended n) ∧
    (∀ n k, n + k < count → ended n + k * periodUs ≤ ended (n + k) + 2 * periodUs) ∧
    (p.catchup = .steady → ∀ n ≤ count,
      (((p.start started periodUs).afterWaits ended n).next? =
          some (started + (n + 1) * periodUs) ↔
        ∀ i < n, ∀ due ∈ ((p.start started periodUs).afterWaits ended i).next?,
          ended i ≤ due + 2 * periodUs)) := by
  have hfired := neverEarly_iff.mp h
  refine ⟨fun n hn => ?_, fun n k hk => ?_, fun hsteady n hn => ?_⟩
  · calc started + (n + 1) * periodUs
        = firing p.catchup started periodUs ended 0 + n * periodUs := by
          rw [firing, Nat.succ_mul, Nat.add_assoc, Nat.add_comm periodUs]
      _ ≤ firing p.catchup started periodUs ended (0 + n) := firing_add_le hfired 0 n (by omega)
      _ ≤ ended n := by
          rw [Nat.zero_add]
          exact hfired n hn
  · cases k with
    | zero => rw [Nat.zero_mul]; exact Nat.le_add_right _ _
    | succ k =>
      have hnext : ended n ≤ firing p.catchup started periodUs ended (n + 1) + periodUs :=
        le_nextFiring_add
      have hapart := firing_add_le hfired (n + 1) k (by omega)
      have hlast := hfired (n + (k + 1)) hk
      rw [show n + 1 + k = n + (k + 1) by omega] at hapart
      rw [Nat.succ_mul]
      omega
  · rw [hsteady] at hfired
    simp only [next?_afterWaits, hsteady, Option.some.injEq, Option.mem_def, forall_eq']
    exact firing_eq_iff hfired n hn

/-- The ends of four waits, the second of which is late by two and a half periods. -/
def lateOnce : Nat → Nat
  | 0 => 15
  | 1 => 50
  | 2 => 60
  | _ => 77

theorem keeps_time_lateOnce :
    ((stopped .steady).start 5 10).NeverEarly lateOnce 4 ∧
    (∀ n < 4, 5 + (n + 1) * 10 ≤ lateOnce n) ∧
    lateOnce 1 + 2 * 10 ≤ lateOnce 3 + 2 * 10 ∧
    (((stopped .steady).start 5 10).afterWaits lateOnce 1).next? = some 25 ∧
    (((stopped .steady).start 5 10).afterWaits lateOnce 2).next? = some 60 := by
  have hnever : ((stopped .steady).start 5 10).NeverEarly lateOnce 4 := by
    unfold NeverEarly
    decide
  obtain ⟨hearly, hspan, hgrid⟩ := keeps_time (stopped .steady) hnever
  exact ⟨hnever, hearly, hspan 1 2 (by decide), (hgrid rfl 1 (by decide)).mpr (by decide), rfl⟩

end Pacer

end SwitchBench
