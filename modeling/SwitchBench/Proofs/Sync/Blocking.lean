import SwitchBench.Sync.Board
import SwitchBench.Proofs.Sync.Sections

/-!
# Blocking calls inside critical sections

A blocking call is checked before anything else: one that may wait, made by a thread that counts a
guard, is refused (`Exchange.enter`). The thread's count is that of the guards it has, however it
came by them and in whatever order it released others, so what is refused is told by the guards.

Taking a unit of a semaphore and polling are checked. Taking a message off the queue is not: inside
a critical section it goes on as outside, and waits while the thread keeps its guards.

Results: `enter_eq` (what the check decides), `perform_eq_enter` (calls as one thread makes them are
checked so), `refused_iff` (which blocking calls are refused), and `exists_unchecked_wait`.
-/

namespace SwitchBench.Exchange

/-- Is it a call that waits, if it finds nothing and has the time? -/
def blocks : SourceCall → Bool
  | .take .. | .get _ | .poll .. => true
  | _ => false

/-- A call by a thread that counts so many guards, as far as it gets without waiting: it is checked,
and then done if it can be. With no answer it has to wait. -/
def enter (x : Exchange) (b : SourceCall) (depth : Nat) :
    Exchange × Except Fault (Option SourceAnswer) :=
  match if checksSections b then (patienceOf b).allowedIn depth else .ok () with
  | .error f => (x, .error f)
  | .ok _ => ((x.attempt b).1, .ok (x.attempt b).2)

/-- What another thread makes of the sources meanwhile. -/
def meanwhile (x : Exchange) (later : Option SourceCall) : Exchange :=
  (later.map fun c => (x.attempt c).1).getD x

variable {b : SourceCall}

theorem allowedIn_eq (p : Patience) (depth : Nat) :
    p.allowedIn depth = if p ≠ .now ∧ 0 < depth then .error .blockingWait else .ok () := by
  unfold Patience.allowedIn
  by_cases hp : p = .now
  · simp [hp]
  · by_cases hd : depth = 0 <;> simp [hp, hd, Nat.pos_iff_ne_zero]

/-- What the check decides is decided by the call and the count alone. -/
theorem check_eq (b : SourceCall) (depth : Nat) :
    (if checksSections b then (patienceOf b).allowedIn depth else .ok ()) =
      if checksSections b = true ∧ patienceOf b ≠ .now ∧ 0 < depth then .error .blockingWait
      else .ok () := by
  rw [allowedIn_eq]
  by_cases hb : checksSections b = true <;> simp [hb]

/-- **A call is refused, and nothing has been done, or it goes on as from outside.** -/
theorem enter_eq (x : Exchange) (b : SourceCall) (depth : Nat) :
    x.enter b depth =
      if checksSections b = true ∧ patienceOf b ≠ .now ∧ 0 < depth then (x, .error .blockingWait)
      else ((x.attempt b).1, .ok (x.attempt b).2) := by
  unfold enter
  rw [check_eq]
  by_cases hc : checksSections b = true ∧ patienceOf b ≠ .now ∧ 0 < depth
  · rw [if_pos hc, if_pos hc]
  · rw [if_neg hc, if_neg hc]

/-- Calls as one thread makes them are checked so. -/
theorem perform_eq_enter (x : Exchange) (b : SourceCall) (depth : Nat) (later : Option SourceCall) :
    x.perform ⟨b, depth, later⟩ =
      match (x.enter b depth).2 with
      | .error f => (x.meanwhile later, .error (.breach f))
      | .ok _ => x.perform ⟨b, 0, later⟩ := by
  unfold perform
  rw [enter_eq]
  simp only [check_eq]
  by_cases hc : checksSections b = true ∧ patienceOf b ≠ .now ∧ 0 < depth
  · simp only [if_pos hc]
    rfl
  · simp only [if_neg hc, Nat.lt_irrefl, and_false, if_false]

theorem checksSections_iff (hb : blocks b = true) :
    checksSections b = true ↔ ∀ p, b ≠ .get p := by
  cases b <;> simp_all [blocks, checksSections]

/-- Is a blocking call refused that is made with such guards? -/
def Refused (b : SourceCall) (guards : List Nat) : Prop :=
  (∀ p, b ≠ .get p) ∧ patienceOf b ≠ .now ∧ guards ≠ []

variable {values : List Int} {threads : Nat} {as : List Cell.Action} {t : Cell.Trace}
  {c : Cell.Crowd} {h : Cell.Holder}

theorem refused_iff_check (hc : Cell.Guarded c) (hh : h ∈ c.holders) (ho : h.phase = .outside)
    (hb : blocks b = true) :
    checksSections b = true ∧ patienceOf b ≠ .now ∧ 0 < h.depth ↔ Refused b h.guards := by
  rw [Refused, checksSections_iff hb, (hc.counted h hh ho).1, List.length_pos_iff]

/-- **Which blocking calls are refused.** Threads lock cells and release guards in any order. If a
thread then makes a blocking call, the call is refused, before anything is done, exactly if the
thread has a guard, the call may wait, and it is not one that takes a message; any other goes on as
from outside. -/
theorem refused_iff (hp : play? Cell.Crowd.act? [] (.start values threads) as = some (t, c))
    (hh : h ∈ c.holders) (ho : h.phase = .outside) (x : Exchange) (hb : blocks b = true) :
    (x.enter b h.depth = (x, .error .blockingWait) ↔ Refused b h.guards) ∧
    (¬ Refused b h.guards → x.enter b h.depth = ((x.attempt b).1, .ok (x.attempt b).2)) ∧
    ∀ later, (Refused b h.guards →
        x.perform ⟨b, h.depth, later⟩ = (x.meanwhile later, .error (.breach .blockingWait))) ∧
      (¬ Refused b h.guards → x.perform ⟨b, h.depth, later⟩ = x.perform ⟨b, 0, later⟩) := by
  have hcheck := refused_iff_check (Cell.sound_of_play? hp).guarded hh ho hb
  have hgo : ¬ Refused b h.guards → x.enter b h.depth = ((x.attempt b).1, .ok (x.attempt b).2) :=
    fun hr => by rw [enter_eq, if_neg (hcheck.not.mpr hr)]
  have hstop : Refused b h.guards → x.enter b h.depth = (x, .error .blockingWait) :=
    fun hr => by rw [enter_eq, if_pos (hcheck.mpr hr)]
  refine ⟨⟨fun he => ?_, hstop⟩, hgo, fun later => ⟨fun hr => ?_, fun hr => ?_⟩⟩
  · by_contra hr
    rw [hgo hr] at he
    cases congrArg Prod.snd he
  · rw [perform_eq_enter, hstop hr]
  · rw [perform_eq_enter, hgo hr]

/-- A thread that got guards of two cells and released the first is to take a unit that is there. -/
theorem refused_iff_outOfOrder :
    ∃ t c h, play? Cell.Crowd.act? [] (.start [5, 9] 2) (Cell.nestedAndPanicked.take 16) =
        some (t, c) ∧ h ∈ c.holders ∧ h.phase = .outside ∧ h.guards = [1] ∧
      (ofSemaphores [.permit]).enter (.take 0 .forever) h.depth =
        (ofSemaphores [.permit], .error .blockingWait) := by
  have hp : play? Cell.Crowd.act? [] (.start [5, 9] 2) (Cell.nestedAndPanicked.take 16) =
      some (_, _) := rfl
  have hh := List.mem_cons_self (a := (⟨.outside, [1], 1, false⟩ : Cell.Holder))
    (l := [⟨.spinning 0, [], 0, false⟩])
  exact ⟨_, _, _, hp, hh, rfl, rfl,
    (refused_iff hp hh rfl _ rfl).1.mpr (by simp [Refused, patienceOf])⟩

/-- A thread with a guard asks for a message, and its call, which may wait, is not refused. -/
theorem exists_unchecked_wait :
    ∃ t c h, play? Cell.Crowd.act? [] (.start [0] 1)
        [⟨0, .lock 0⟩, ⟨0, .proceed⟩, ⟨0, .proceed⟩, ⟨0, .proceed⟩] = some (t, c) ∧
      h ∈ c.holders ∧ h.phase = .outside ∧ h.guards = [0] ∧
      (ofSemaphores []).enter (.get (.atMost 1000)) h.depth = (ofSemaphores [], .ok none) ∧
      (ofSemaphores []).perform ⟨.get (.atMost 1000), h.depth, none⟩ =
        (ofSemaphores [], .ok (.message none)) :=
  ⟨_, _, ⟨.outside, [0], 1, false⟩, rfl, List.mem_singleton_self _, rfl, rfl, rfl, rfl⟩

end SwitchBench.Exchange
