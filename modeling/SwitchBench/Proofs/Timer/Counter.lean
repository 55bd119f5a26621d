import SwitchBench.Proofs.Capture.Clients

/-!
# The counter and its expiry

What the counter of the capture timer shows and when it expires are two formulas. The count has one
for every whole tick since the counter was started, and stays at the reload value; the expiry is
when the ticks that are missing have gone by. They have to tell the same story.

The timer sees whole microseconds. On a clock with `perUs` steps to the microsecond it finds its
counter `steps / perUs` microseconds after its start, so that a tick is `perUs * Limits.tickUs`
steps; the lemmas are about such a clock, and a clock of microseconds is the one with a single step.

Results: `counterAt_eq_reload_iff` (when the count has got there), `steps_add_left` (what a counter
that is stopped and started again has yet to go), and `counter_agrees_with_expiry` (the two formulas
agree, also across a stop).
-/

namespace SwitchBench

namespace Timer.Registers

variable {r : Registers} {start perUs steps : Nat}

theorem counterAt_le (r : Registers) (now : Nat) : r.counterAt now ≤ max r.reload r.base := by
  unfold counterAt
  split <;> omega

/-- The counter does not go back. -/
theorem counterAt_mono (r : Registers) {t u : Nat} (h : t ≤ u) :
    r.counterAt t ≤ r.counterAt u := by
  unfold counterAt
  split
  · exact Nat.le_refl _
  · have hticks := Nat.div_le_div_right (c := Limits.tickUs) (Nat.sub_le_sub_right h ‹Nat›)
    omega

/-- The count of a counter that was started below its reload value. -/
theorem counterAt_of_since (hs : r.since = some start) (hb : r.base ≤ r.reload) (now : Nat) :
    r.counterAt now = min (r.base + (now - start) / Limits.tickUs) r.reload := by
  rw [counterAt, hs, Nat.max_eq_left hb]

theorem expiry_of_since (hs : r.since = some start) (h0 : 0 < r.reload) :
    r.expiry = some (start + Limits.tickUs * (r.reload - r.base)) := by
  rw [expiry, hs]
  exact if_neg (Nat.ne_of_gt h0)

/-- A reload value of zero stalls the counter. -/
theorem stalled_of_reload_zero (h0 : r.reload = 0) :
    r.expiry = none ∧ ∀ now, r.counterAt now = r.base := by
  unfold expiry counterAt
  rw [h0]
  cases r.since with
  | none => exact ⟨rfl, fun _ => rfl⟩
  | some start =>
    refine ⟨rfl, fun now => ?_⟩
    simp only [Nat.zero_max]
    exact Nat.min_eq_right (Nat.le_add_right _ _)

/-! ## A finer clock -/

/-- The count after some steps of a clock. -/
theorem counterAt_steps (hs : r.since = some start) (hb : r.base ≤ r.reload) :
    r.counterAt (start + steps / perUs) =
      min (r.base + steps / (perUs * Limits.tickUs)) r.reload := by
  rw [counterAt_of_since hs hb, Nat.add_sub_cancel_left, Nat.div_div_eq_div_mul]

/-- **The count is at the reload value exactly when the missing ticks have gone by.** -/
theorem counterAt_eq_reload_iff (hs : r.since = some start) (hb : r.base ≤ r.reload)
    (hp : 0 < perUs) :
    r.counterAt (start + steps / perUs) = r.reload ↔
      perUs * (Limits.tickUs * (r.reload - r.base)) ≤ steps := by
  have htick : 0 < perUs * Limits.tickUs := Nat.mul_pos hp (by decide)
  have hdone : r.reload - r.base ≤ steps / (perUs * Limits.tickUs) ↔
      perUs * (Limits.tickUs * (r.reload - r.base)) ≤ steps := by
    rw [Nat.le_div_iff_mul_le htick, Nat.mul_comm, Nat.mul_assoc]
  rw [counterAt_steps hs hb, ← hdone]
  omega

/-! ## Stopped and started again -/

/-- **The steps up to a stop, and those that the missing ticks take after it, are the part of a tick
more than without the stop** that the stop had come to. -/
theorem steps_add_left (hs : r.since = some start) (hb : r.base ≤ r.reload)
    (hlt : steps < perUs * (Limits.tickUs * (r.reload - r.base))) :
    steps + perUs * (Limits.tickUs * (r.reload - r.counterAt (start + steps / perUs))) =
      perUs * (Limits.tickUs * (r.reload - r.base)) + steps % (perUs * Limits.tickUs) := by
  rw [← Nat.mul_assoc] at hlt
  have hticks : steps / (perUs * Limits.tickUs) < r.reload - r.base := Nat.div_lt_of_lt_mul hlt
  obtain ⟨left, hleft⟩ := Nat.exists_eq_add_of_le (Nat.le_of_lt hticks)
  have hcount : r.reload - r.counterAt (start + steps / perUs) = left := by
    rw [counterAt_steps hs hb]
    omega
  calc steps + perUs * (Limits.tickUs * (r.reload - r.counterAt (start + steps / perUs)))
      = steps + perUs * Limits.tickUs * left := by rw [hcount, Nat.mul_assoc]
    _ = perUs * Limits.tickUs * (steps / (perUs * Limits.tickUs)) + perUs * Limits.tickUs * left +
          steps % (perUs * Limits.tickUs) := by
        have := Nat.div_add_mod steps (perUs * Limits.tickUs)
        omega
    _ = perUs * (Limits.tickUs * (r.reload - r.base)) + steps % (perUs * Limits.tickUs) := by
        rw [← Nat.mul_add, ← hleft, Nat.mul_assoc]

/-- A counter that is stopped and started again goes on from its count. -/
theorem counterAt_again (r : Registers) (stop again : Nat) :
    ((r.stopCounter stop).startCounter again).counterAt again = r.counterAt stop := by
  show min (r.counterAt stop + (again - again) / Limits.tickUs)
    (max r.reload (r.counterAt stop)) = _
  rw [Nat.sub_self, Nat.zero_div, Nat.add_zero]
  exact Nat.min_eq_left (Nat.le_max_right _ _)

/-- **A stop costs the part of a tick that it had come to.** -/
theorem expiry_again (hs : r.since = some start) (h0 : 0 < r.reload) (hb : r.base ≤ r.reload)
    (hlt : steps < perUs * (Limits.tickUs * (r.reload - r.base))) (again : Nat) :
    ∃ left, ((r.stopCounter (start + steps / perUs)).startCounter again).expiry =
        some (again + left) ∧
      steps + perUs * left =
        perUs * (Limits.tickUs * (r.reload - r.base)) + steps % (perUs * Limits.tickUs) :=
  ⟨_, expiry_of_since rfl h0, steps_add_left hs hb hlt⟩

/-! ## Agreement -/

/-- What a counter shows that was started at one instant and is due at another. -/
structure CountsUntil (r : Registers) (start due : Nat) : Prop where
  start_le : start ≤ due
  mono : ∀ t u, start ≤ t → t ≤ u → r.counterAt t ≤ r.counterAt u
  le_reload : ∀ t, start ≤ t → r.counterAt t ≤ r.reload
  /-- The count is at the reload value from then on, and not before. -/
  reached : ∀ t, start ≤ t → (r.counterAt t = r.reload ↔ due ≤ t)
  /-- The timer can end its period exactly while the count is there. -/
  ends : ∀ c : Recorder.Crowd, c.recorder.timer = r → start ≤ c.now →
    ((c.act? .expire).isSome ↔ r.counterAt c.now = r.reload)
  /-- A counter that is stopped before keeps its count, and goes on from it when it is started
  again; it is then due later by the time between and less than a tick. -/
  resumes : ∀ t d, start ≤ t → t < due →
    (∀ u, (r.stopCounter t).counterAt u = r.counterAt t) ∧
    ((r.stopCounter t).startCounter (t + d)).counterAt (t + d) = r.counterAt t ∧
    ∃ later, ((r.stopCounter t).startCounter (t + d)).expiry = some later ∧
      due + d ≤ later ∧ later < due + d + Limits.tickUs
  /-- A finer clock tells the same, whatever part of a microsecond is over when the counter is
  stopped: the steps up to the stop and those from the new start to the expiry are all the steps
  there were to be, and less than those of a tick. -/
  finer : ∀ perUs steps, 0 < perUs →
    (r.counterAt (start + steps / perUs) = r.reload ↔ perUs * (due - start) ≤ steps) ∧
    (steps < perUs * (due - start) → ∀ again, ∃ later,
      ((r.stopCounter (start + steps / perUs)).startCounter again).expiry = some later ∧
      perUs * (due - start) ≤ steps + perUs * (later - again) ∧
      steps + perUs * (later - again) < perUs * (due - start) + perUs * Limits.tickUs)

/-- **Counter and expiry agree.** A counter that runs towards a reload value, which it is not beyond
already, never goes back and never beyond it, and is there exactly from its expiry on; a stop on the
way is made up for within a tick. With a reload value of zero a counter neither expires nor moves,
wherever it stands. -/
theorem counter_agrees_with_expiry (r : Registers) :
    (∀ start, r.since = some start → 0 < r.reload → r.base ≤ r.reload →
      ∃ due, r.expiry = some due ∧ r.CountsUntil start due) ∧
    (r.reload = 0 → r.expiry = none ∧ ∀ t, r.counterAt t = r.base) := by
  refine ⟨fun start hs h0 hb => ?_, stalled_of_reload_zero⟩
  have hdue := expiry_of_since hs h0
  have hreach (t : Nat) (ht : start ≤ t) :
      r.counterAt t = r.reload ↔ start + Limits.tickUs * (r.reload - r.base) ≤ t := by
    have h := @counterAt_eq_reload_iff r start 1 (t - start) hs hb Nat.one_pos
    rw [Nat.div_one, Nat.add_sub_cancel' ht, Nat.one_mul] at h
    omega
  refine ⟨_, hdue, Nat.le_add_right _ _, fun t u _ h => counterAt_mono r h, fun t _ => ?_, hreach,
    fun c hc hnow => ?_, fun t d ht hlt => ⟨fun _ => rfl, counterAt_again r t (t + d), ?_⟩,
    fun perUs steps hp => ?_⟩
  · rw [counterAt_of_since hs hb]
    exact Nat.min_le_right _ _
  · rw [hreach _ hnow, Recorder.Crowd.act?, hc, hdue]
    simp only [Option.isSome_ite]
  · obtain ⟨left, hlater, hleft⟩ := @expiry_again r start 1 (t - start) hs h0 hb
      (by omega) (t + d)
    have hpart : (t - start) % (1 * Limits.tickUs) < 1 * Limits.tickUs := Nat.mod_lt _ (by decide)
    rw [Nat.div_one, Nat.add_sub_cancel' ht] at hlater
    refine ⟨_, hlater, ?_, ?_⟩ <;> omega
  · rw [Nat.add_sub_cancel_left]
    refine ⟨counterAt_eq_reload_iff hs hb hp, fun hlt again => ?_⟩
    obtain ⟨left, hlater, hleft⟩ := expiry_again hs h0 hb hlt again
    have hpart : steps % (perUs * Limits.tickUs) < perUs * Limits.tickUs :=
      Nat.mod_lt _ (Nat.mul_pos hp (by decide))
    refine ⟨_, hlater, ?_, ?_⟩ <;> rw [Nat.add_sub_cancel_left] <;> omega

/-- A counter that was started at 7 and has three ticks to go. -/
def threeTicksToGo : Registers := { initial with reload := 5, base := 2, since := some 7 }

theorem counter_agrees_with_expiry_threeTicksToGo :
    threeTicksToGo.since = some 7 ∧ 0 < threeTicksToGo.reload ∧
    threeTicksToGo.base ≤ threeTicksToGo.reload ∧
    threeTicksToGo.expiry = some 67 ∧ threeTicksToGo.CountsUntil 7 67 ∧
    ((threeTicksToGo.stopCounter 31).startCounter (31 + 100)).expiry = some 171 := by
  obtain ⟨due, hdue, hcounts⟩ :=
    (counter_agrees_with_expiry threeTicksToGo).1 7 rfl (by decide) (by decide)
  obtain rfl : 67 = due := Option.some.inj hdue
  exact ⟨rfl, by decide, by decide, hdue, hcounts, rfl⟩

end Timer.Registers

end SwitchBench
