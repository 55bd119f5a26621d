/-!
# Runs

A system is told by its states and by what an action does in a state, if it is possible. The trace
of a run lists its actions, each with the state it was done in, newest first. `play?` does given
actions in their order.

Results: `of_play?` (what every action keeps is kept by any run).
-/

namespace SwitchBench

variable {σ α : Type}

/-- Does some actions in their order, and adds them to a trace. -/
def play? (act? : σ → α → Option σ) (t : List (σ × α)) (s : σ) :
    List α → Option (List (σ × α) × σ)
  | [] => some (t, s)
  | a :: as => (act? s a).bind fun s' => play? act? ((s, a) :: t) s' as

/-- Some actions after others are the run of all of them. -/
theorem play?_append (act? : σ → α → Option σ) (as bs : List α) (t : List (σ × α)) (s : σ) :
    play? act? t s (as ++ bs) = (play? act? t s as).bind fun r => play? act? r.1 r.2 bs := by
  induction as generalizing t s with
  | nil => rfl
  | cons a as ih =>
    simp only [List.cons_append, play?, Option.bind_assoc]
    exact congrArg _ (funext fun s' => ih _ s')

/-- **What every action keeps is kept by any run.** -/
theorem of_play? {act? : σ → α → Option σ} {P : List (σ × α) → σ → Prop}
    (hact : ∀ t s a s', P t s → act? s a = some s' → P ((s, a) :: t) s') (as : List α)
    {t t' : List (σ × α)} {s s' : σ} (h : P t s) (hp : play? act? t s as = some (t', s')) :
    P t' s' := by
  induction as generalizing t s with
  | nil =>
    cases hp
    exact h
  | cons a as ih =>
    simp only [play?, Option.bind_eq_some_iff] at hp
    obtain ⟨s₁, ha, hp⟩ := hp
    exact ih (hact _ _ _ _ h ha) hp

end SwitchBench
