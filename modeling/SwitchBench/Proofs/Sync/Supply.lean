import SwitchBench.Proofs.Runs
import SwitchBench.Proofs.Sync.Stock

/-!
# No unit and no wake-up is lost

Each notification of a stock reaches one sleeper, and that sleeper may find the stock empty again:
another call was there before it. So a notified call need not get a unit, but for every unit that
lies in the stock while anybody sleeps there is a notified call that has not looked yet. That is
all the invariant says (`Sound.covered`), and every action keeps it: a put that adds a unit notifies
one call more, and a look that does not take a unit finds none.

Three things are read off a trace: the units that were accepted, those that left the stock, each
with the thread that took it, and what a thread took in its last call.

While units stay in the stock nobody goes to sleep, so the calls that are asleep or notified only
get fewer. Each notified call that looks leaves them. So somebody who sleeps on while units lie
there sleeps on because a notified call is never let go on.

Results: `Turn.effect` (what an action does to the units), `Turn.tally` (and to those who wait for
them), `Reaches.held_append_accepted` (every unit leaves once and in order), `Reaches.sound`,
`FairRun.stops_waiting`, `no_unit_is_lost` (all of it, for semaphores and the input queue).
-/

namespace SwitchBench.Stock

variable {σ ε : Type} {S : Stock σ ε} {s : σ} {t : Trace σ ε} {c c' : Crowd σ} {a : Action ε}
  {o : Option (Event ε)} {n : Nat} {e : ε}

/-! ## What a trace tells -/

/-- The units that an event adds. -/
def Event.accepted : Event ε → List ε
  | .put x true => [x]
  | _ => []

/-- The units that leave the stock in an event, each with the thread that took it. -/
def Event.departed : Event ε → List (ε × Option Nat)
  | .took thread e => [(e, some thread)]
  | .cleared l => l.map (·, none)
  | _ => []

/-- The units that a thread takes in an event. -/
def Event.takenBy (thread : Nat) : Event ε → List ε
  | .took n e => if n = thread then [e] else []
  | _ => []

/-- Does a thread begin a call by this action? -/
def Action.begins (thread : Nat) : Action ε → Bool
  | .call n _ | .attempt n => n = thread
  | _ => false

variable (S) in
/-- The units that were accepted, oldest first. -/
def accepted : Trace σ ε → List ε
  | [] => []
  | (c, a) :: t => accepted t ++ (S.event? c a).elim [] Event.accepted

variable (S) in
/-- The units that left the stock, oldest first, each with the thread that took it. -/
def departed : Trace σ ε → List (ε × Option Nat)
  | [] => []
  | (c, a) :: t => departed t ++ (S.event? c a).elim [] Event.departed

variable (S) in
/-- The units that a thread took since it last began a call. -/
def takenBy : Trace σ ε → Nat → List ε
  | [], _ => []
  | (c, a) :: t, thread =>
    if a.begins thread then []
    else takenBy t thread ++ (S.event? c a).elim [] (Event.takenBy thread)

/-! ## Units -/

variable (S) in
/-- What an event does to a stock. -/
def Effect (s : σ) : Option (Event ε) → σ → Prop
  | some (.put x true), s' =>
    (S.held s).length < S.room s ∧ S.held s' = S.held s ++ [x]
  | some (.put _ false), s' => ¬ (S.held s).length < S.room s ∧ s' = s
  | some (.took _ e), s' => S.held s = e :: S.held s'
  | some (.cleared l), s' => l = S.held s ∧ S.held s' = []
  | some (.inVain _), s' | none, s' => s' = s

/-- A unit is added if there is room for it, and refused otherwise. -/
theorem effect_put (s : σ) (x : ε) :
    Effect S s (some (.put x (S.put s x).2)) (S.put s x).1 := by
  by_cases h : (S.held s).length < S.room s
  · rw [S.put_snd, decide_eq_true h]
    exact ⟨h, S.held_put h⟩
  · rw [S.put_snd, decide_eq_false h]
    exact ⟨h, S.put_of_full h⟩

/-- **What an action does to the units.** -/
theorem Turn.effect (h : Turn S c a o c') : Effect S c.stock o c'.stock := by
  cases h with
  | puts x => exact effect_put c.stock x
  | wakes x => exact effect_put c.stock x
  | clears => exact ⟨rfl, S.held_clear⟩
  | takes _ _ he => exact S.held_of_take? he
  | begins => rfl
  | sleeps => rfl
  | leaves => rfl
  | timesOut => rfl

/-- The room never changes. -/
theorem Turn.room (h : Turn S c a o c') : S.room c'.stock = S.room c.stock := by
  cases h with
  | puts => exact S.room_put
  | wakes => exact S.room_put
  | clears => exact S.room_clear
  | takes _ _ he => exact S.room_of_take? he
  | begins => rfl
  | sleeps => rfl
  | leaves => rfl
  | timesOut => rfl

/-- What an event adds comes after what it takes away. -/
theorem Effect.held_append {s' : σ} (h : Effect S s o s') :
    S.held s ++ o.elim [] Event.accepted =
      (o.elim [] Event.departed).map (·.1) ++ S.held s' := by
  match o, h with
  | some (.put _ true), ⟨_, he⟩ => simp [Event.accepted, Event.departed, he]
  | some (.put _ false), ⟨_, he⟩ => simp [Event.accepted, Event.departed, he]
  | some (.took _ e), he =>
    simp [Event.accepted, Event.departed, show S.held s = e :: S.held s' from he]
  | some (.cleared _), ⟨hl, he⟩ =>
    simp [Event.accepted, Event.departed, hl, he, Function.comp_def]
  | some (.inVain _), he => simp [Event.accepted, Event.departed, show s' = s from he]
  | none, he => simp [show s' = s from he]

/-- **Every unit leaves once, and in the order in which they came.** -/
theorem Reaches.held_append_accepted (h : Reaches S s t c) :
    S.held s ++ accepted S t = (departed S t).map (·.1) ++ S.held c.stock := by
  induction h with
  | start => simp [accepted, departed]
  | @act t c c' a _ ha ih =>
    have hstep := (turn_of_act ha).effect.held_append
    calc S.held s ++ accepted S ((c, a) :: t)
        = (S.held s ++ accepted S t) ++ (S.event? c a).elim [] Event.accepted := by
          rw [accepted, List.append_assoc]
      _ = (departed S t).map (·.1) ++
            (S.held c.stock ++ (S.event? c a).elim [] Event.accepted) := by
          rw [ih, List.append_assoc]
      _ = (departed S ((c, a) :: t)).map (·.1) ++ S.held c'.stock := by
          rw [hstep, departed, List.map_append, List.append_assoc]

theorem Reaches.room (h : Reaches S s t c) : S.room c.stock = S.room s := by
  induction h with
  | start => rfl
  | act _ ha ih => rw [(turn_of_act ha).room, ih]

/-! ## Calls -/

/-- A call leaves one stage for another. -/
theorem count_putAt_some {i : Nat} {k : WaitCall} (hk : c.calls[i]? = some k) (s : σ)
    (next stage : WaitStage) :
    (Crowd.mk s (putAt c.calls i (some (k.atStage next)))).count stage +
        (if k.stage = stage then 1 else 0) =
      c.count stage + if next = stage then 1 else 0 := by
  have hcount := countP_putAt hk (·.stage = stage) (some (k.atStage next))
  by_cases hs : k.stage = stage <;> simpa [hs, Crowd.count, WaitCall.atStage] using hcount

/-- A call is over. -/
theorem count_putAt_none {i : Nat} {k : WaitCall} (hk : c.calls[i]? = some k) (s : σ)
    (stage : WaitStage) :
    (Crowd.mk s (putAt c.calls i none)).count stage + (if k.stage = stage then 1 else 0) =
      c.count stage := by
  have hcount := countP_putAt hk (·.stage = stage) none
  by_cases hs : k.stage = stage <;> simpa [hs, Crowd.count] using hcount

theorem count_append (c : Crowd σ) (k : WaitCall) (stage : WaitStage) :
    (Crowd.mk c.stock (c.calls ++ [k])).count stage =
      c.count stage + if k.stage = stage then 1 else 0 := by
  simp [Crowd.count]

/-- What is so at every moment: a thread is in one call at a time, a call in progress has taken
nothing, and while anybody sleeps there is a notified call for every unit in the stock. -/
structure Sound (S : Stock σ ε) (t : Trace σ ε) (c : Crowd σ) : Prop where
  alone : ∀ thread, c.calls.countP (·.thread = thread) ≤ 1
  unspent : ∀ k ∈ c.calls, takenBy S t k.thread = []
  covered : 0 < c.count .asleep → (S.held c.stock).length ≤ c.count .notified

/-- A thread that is in no call may begin one. -/
theorem Turn.alone (h : Turn S c a o c') {thread : Nat}
    (hone : c.calls.countP (·.thread = thread) ≤ 1) :
    c'.calls.countP (·.thread = thread) ≤ 1 := by
  have hnext : ∀ {i : Nat} {k : WaitCall} {next : Option WaitCall}, c.calls[i]? = some k →
      (∀ j ∈ next, j.thread = k.thread) →
        (putAt c.calls i next).countP (·.thread = thread) ≤ 1 := by
    intro i k next hk hj
    have hcount := countP_putAt hk (·.thread = thread) next
    have hle : next.toList.countP (·.thread = thread) ≤ (decide (k.thread = thread)).toNat := by
      cases next with
      | none => simp
      | some j => by_cases he : k.thread = thread <;> simp [hj j rfl, he]
    omega
  cases h with
  | puts => exact hone
  | wakes _ hk => exact hnext hk (by rintro j ⟨⟩; rfl)
  | clears => exact hone
  | @begins _ k _ _ hidle =>
    rw [List.countP_append, List.countP_singleton]
    by_cases he : k.thread = thread
    · have hnone : c.calls.countP (·.thread = thread) = 0 :=
        List.countP_eq_zero.mpr fun j hj => by simpa [← he] using hidle j hj
      rw [hnone]
      split <;> omega
    · simpa [he] using hone
  | takes hk => exact hnext hk (by rintro j ⟨⟩)
  | sleeps hk => exact hnext hk (by rintro j ⟨⟩; rfl)
  | leaves hk => exact hnext hk (by rintro j ⟨⟩)
  | timesOut hk => exact hnext hk (by rintro j ⟨⟩; rfl)

/-- How the units, and the calls that are asleep or notified, change by an action. -/
inductive Tally (S : Stock σ ε) (c c' : Crowd σ) : Prop
  /-- Nobody is notified, for nobody sleeps. -/
  | unheard (hs : c.count .asleep = 0) (hs' : c'.count .asleep = 0)
      (hn : c'.count .notified = c.count .notified)
  | woken (hu : (S.held c'.stock).length ≤ (S.held c.stock).length + 1)
      (hs : c.count .asleep = c'.count .asleep + 1)
      (hn : c'.count .notified = c.count .notified + 1)
  /-- Units are discarded, or a sleeper's time is up. -/
  | fewer (hu : (S.held c'.stock).length ≤ (S.held c.stock).length)
      (hs : c'.count .asleep ≤ c.count .asleep) (hn : c'.count .notified = c.count .notified)
  /-- A unit is taken by a call that may have been notified. -/
  | taken (hu : (S.held c.stock).length = (S.held c'.stock).length + 1)
      (hs : c'.count .asleep = c.count .asleep) (hn : c'.count .notified ≤ c.count .notified)
      (hn' : c.count .notified ≤ c'.count .notified + 1)
  /-- A look finds nothing. -/
  | none (hu : S.held c.stock = []) (hu' : S.held c'.stock = [])

theorem length_held_put_le (s : σ) (x : ε) :
    (S.held (S.put s x).1).length ≤ (S.held s).length + 1 := by
  by_cases hroom : (S.held s).length < S.room s
  · exact Nat.le_of_eq (by rw [S.held_put hroom, List.length_append, List.length_singleton])
  · rw [S.put_of_full hroom]
    exact Nat.le_succ _

theorem Turn.tally (h : Turn S c a o c') : Tally S c c' := by
  cases h with
  | puts x hnone => exact .unheard hnone hnone rfl
  | @wakes x i k hk hs =>
    have hasleep := count_putAt_some hk (S.put c.stock x).1 .notified .asleep
    have hnotified := count_putAt_some hk (S.put c.stock x).1 .notified .notified
    simp only [hs, reduceCtorEq, if_true, if_false] at hasleep hnotified
    exact .woken (length_held_put_le c.stock x) hasleep.symm hnotified
  | clears =>
    refine .fewer ?_ (Nat.le_refl _) rfl
    show (S.held (S.clear c.stock)).length ≤ _
    rw [S.held_clear]
    exact Nat.zero_le _
  | @begins _ k _ hs _ =>
    have hne : k.stage ≠ .asleep ∧ k.stage ≠ .notified := by rcases hs with hs | hs <;> simp [hs]
    have hasleep := count_append c k .asleep
    have hnotified := count_append c k .notified
    rw [if_neg hne.1] at hasleep
    rw [if_neg hne.2] at hnotified
    exact .fewer (Nat.le_refl _) (Nat.le_of_eq hasleep) hnotified
  | @takes i k e s hk hs he =>
    have hasleep := count_putAt_none hk s .asleep
    have hnotified := count_putAt_none hk s .notified
    rw [if_neg hs] at hasleep
    refine .taken ?_ hasleep (Nat.le_of_add_right_le (Nat.le_of_eq hnotified)) ?_
    · rw [S.held_of_take? he, List.length_cons]
    · rw [← hnotified]
      split <;> omega
  | sleeps _ _ he => exact .none he he
  | leaves _ _ he => exact .none he he
  | @timesOut i k hk hs _ =>
    have hasleep := count_putAt_some hk c.stock .lastLook .asleep
    have hnotified := count_putAt_some hk c.stock .lastLook .notified
    simp only [hs, reduceCtorEq, if_true, if_false] at hasleep hnotified
    exact .fewer (Nat.le_refl _) (Nat.le_of_succ_le (Nat.le_of_eq hasleep)) hnotified

/-- **For every unit in the stock a notified call, as long as anybody sleeps.** A unit that is added
notifies one call more; a look takes a unit along with the call, or finds none. -/
theorem Tally.covered (h : Tally S c c')
    (hc : 0 < c.count .asleep → (S.held c.stock).length ≤ c.count .notified) :
    0 < c'.count .asleep → (S.held c'.stock).length ≤ c'.count .notified := by
  intro hsleep
  cases h with
  | unheard _ hs' => omega
  | woken hu hs hn =>
    have hlen := hc (by omega)
    omega
  | fewer hu hs hn =>
    have hlen := hc (by omega)
    omega
  | taken hu hs _ hn' =>
    have hlen := hc (by omega)
    omega
  | none _ hu' =>
    rw [hu']
    exact Nat.zero_le _

/-- Whoever is in a call was in it before, or begins it. -/
theorem Turn.begins_or_mem (h : Turn S c a o c') {k : WaitCall} (hk : k ∈ c'.calls) :
    a.begins k.thread = true ∨ ∃ j ∈ c.calls, j.thread = k.thread := by
  have hnext : ∀ {i : Nat} {j : WaitCall} {next : Option WaitCall}, c.calls[i]? = some j →
      (∀ j' ∈ next, j'.thread = j.thread) → k ∈ putAt c.calls i next →
        ∃ j ∈ c.calls, j.thread = k.thread := by
    intro i j next hj hthread hmem
    rcases mem_putAt hmem with hmem | hmem
    · exact ⟨k, hmem, rfl⟩
    · exact ⟨j, List.mem_of_getElem? hj, (hthread k hmem).symm⟩
  cases h with
  | puts => exact .inr ⟨k, hk, rfl⟩
  | wakes _ hj => exact .inr (hnext hj (by rintro j ⟨⟩; rfl) hk)
  | clears => exact .inr ⟨k, hk, rfl⟩
  | begins ha =>
    rcases List.mem_append.mp hk with hk | hk
    · exact .inr ⟨k, hk, rfl⟩
    · obtain rfl := List.mem_singleton.mp hk
      refine .inl ?_
      rcases ha with rfl | rfl <;> simp [Action.begins]
  | takes hj => exact .inr (hnext hj (by rintro j ⟨⟩) hk)
  | sleeps hj => exact .inr (hnext hj (by rintro j ⟨⟩; rfl) hk)
  | leaves hj => exact .inr (hnext hj (by rintro j ⟨⟩) hk)
  | timesOut hj => exact .inr (hnext hj (by rintro j ⟨⟩; rfl) hk)

/-- A thread that takes a unit is in a call then, and in none afterwards. -/
theorem Turn.took (h : Turn S c a (some (.took n e)) c')
    (hone : c.calls.countP (·.thread = n) ≤ 1) :
    (∃ j ∈ c.calls, j.thread = n) ∧ a.begins n = false ∧ ∀ k ∈ c'.calls, k.thread ≠ n := by
  cases h with
  | @takes i j _ _ hj =>
    refine ⟨⟨j, List.mem_of_getElem? hj, rfl⟩, rfl, fun k hk => ?_⟩
    have hcount := countP_putAt hj (·.thread = j.thread) none
    simp only [decide_true, Bool.toNat_true, Option.toList_none, List.countP_nil] at hcount
    have hnone : (putAt c.calls i none).countP (·.thread = j.thread) = 0 := by omega
    exact of_decide_eq_false (eq_zero_of_mem_countP hnone hk)

/-- A thread that leaves with nothing is in a call then. -/
theorem Turn.inVain (h : Turn S c a (some (.inVain n)) c') :
    (∃ j ∈ c.calls, j.thread = n) ∧ a.begins n = false := by
  cases h with
  | leaves hj => exact ⟨⟨_, List.mem_of_getElem? hj, rfl⟩, rfl⟩

/-- **Every action keeps all this.** -/
theorem Sound.act (h : Sound S t c) (ha : S.act? c a = some c') : Sound S ((c, a) :: t) c' := by
  have hturn := turn_of_act ha
  refine ⟨fun thread => hturn.alone (h.alone thread), fun k hk => ?_, hturn.tally.covered h.covered⟩
  rw [takenBy]
  split
  · rfl
  · rename_i hbegins
    obtain ⟨j, hj, hthread⟩ := (hturn.begins_or_mem hk).resolve_left hbegins
    rw [← hthread, h.unspent j hj, hthread, List.nil_append]
    cases ho : S.event? c a with
    | none => rfl
    | some o =>
      cases o with
      | took n e =>
        rw [ho] at hturn
        have hgone := (hturn.took (h.alone n)).2.2 k hk
        simp [Event.takenBy, hgone.symm]
      | _ => rfl

theorem Reaches.sound (h : Reaches S s t c) : Sound S t c := by
  induction h with
  | start =>
    refine ⟨fun _ => Nat.zero_le _, fun _ hk => absurd hk List.not_mem_nil, fun hsleep => ?_⟩
    exact absurd hsleep (Nat.lt_irrefl 0)
  | act _ ha ih => exact ih.act ha

/-! ## Nobody sleeps on while units stay -/

/-- Calls that are asleep, or were until somebody notified them. -/
def Crowd.waiting (c : Crowd σ) : Nat := c.count .asleep + c.count .notified

/-- While there are units nobody goes to sleep. -/
theorem Tally.waiting_le (h : Tally S c c') (hunits : S.held c.stock ≠ []) :
    c'.waiting ≤ c.waiting := by
  unfold Crowd.waiting
  cases h with
  | unheard | woken | fewer | taken => omega
  | none hu => exact absurd hu hunits

/-- A notified call that looks while there are units waits no more. -/
theorem Turn.waiting_lt {i : Nat} {k : WaitCall} (h : Turn S c (.look i) o c')
    (hunits : S.held c.stock ≠ []) (hk : c.calls[i]? = some k) (hs : k.stage = .notified) :
    c'.waiting < c.waiting := by
  unfold Crowd.waiting
  cases h with
  | begins ha => rcases ha with ha | ha <;> cases ha
  | @takes _ j e s hj _ _ =>
    obtain rfl := Option.some.inj (hj.symm.trans hk)
    have hasleep := count_putAt_none hj s .asleep
    have hnotified := count_putAt_none hj s .notified
    simp only [hs, reduceCtorEq, if_true, if_false] at hasleep hnotified
    omega
  | sleeps _ _ he => exact absurd he hunits
  | leaves _ _ he => exact absurd he hunits

/-- A run without an end in which no notified call is held up for ever. -/
structure FairRun (S : Stock σ ε) (run : Nat → Crowd σ) (acts : Nat → Action ε) : Prop where
  step : ∀ n, S.act? (run n) (acts n) = some (run (n + 1))
  fair : ∀ n, 0 < (run n).count .notified → ∃ m, n ≤ m ∧ ∃ i k, acts m = .look i ∧
    (run m).calls[i]? = some k ∧ k.stage = .notified

theorem FairRun.reaches {run : Nat → Crowd σ} {acts : Nat → Action ε} (hrun : FairRun S run acts)
    (h : Reaches S s t (run 0)) (n : Nat) : ∃ t, Reaches S s t (run n) := by
  induction n with
  | zero => exact ⟨t, h⟩
  | succ n ih =>
    obtain ⟨t, ht⟩ := ih
    exact ⟨_, .act ht (hrun.step n)⟩

/-- **Nobody sleeps on while units stay.** There are fewer who wait each time a notified call looks,
and as long as somebody sleeps there is one that will. -/
theorem FairRun.stops_waiting {run : Nat → Crowd σ} {acts : Nat → Action ε}
    (hrun : FairRun S run acts) (h : Reaches S s t (run 0)) :
    ∃ m, S.held (run m).stock = [] ∨ (run m).count .asleep = 0 := by
  by_contra! hall
  have hmono : ∀ n d, (run (n + d)).waiting ≤ (run n).waiting := by
    intro n d
    induction d with
    | zero => exact Nat.le_refl _
    | succ d ih =>
      have htally := (turn_of_act (hrun.step (n + d))).tally
      exact Nat.le_trans (htally.waiting_le (hall (n + d)).1) ih
  -- however few still wait, later there are fewer
  have hfewer : ∀ w n, (run n).waiting ≠ w := by
    intro w
    induction w using Nat.strongRecOn with
    | ind w ih =>
      intro n hw
      obtain ⟨_, ht⟩ := hrun.reaches h n
      have hunits : 0 < (S.held (run n).stock).length := List.length_pos_iff.mpr (hall n).1
      have hcovered := ht.sound.covered (Nat.pos_of_ne_zero (hall n).2)
      obtain ⟨m, hm, i, k, ha, hk, hs⟩ := hrun.fair n (by omega)
      have hturn := turn_of_act (hrun.step m)
      rw [ha] at hturn
      have hless := hturn.waiting_lt (hall m).1 hk hs
      have hle := hmono n (m - n)
      rw [Nat.add_sub_of_le hm] at hle
      exact ih _ (by omega) (m + 1) rfl
  exact hfewer _ 0 rfl

/-! ## The results -/

/-- What calls get from a stock at a moment of a run. -/
structure Served (S : Stock σ ε) (t : Trace σ ε) (c : Crowd σ) : Prop where
  /-- A call that returns a unit has taken this one and no other. -/
  took : ∀ a c' n e, S.act? c a = some c' → S.event? c a = some (.took n e) →
    takenBy S ((c, a) :: t) n = [e]
  /-- A call that returns nothing has taken nothing. -/
  inVain : ∀ a c' n, S.act? c a = some c' → S.event? c a = some (.inVain n) →
    takenBy S ((c, a) :: t) n = [] ∧ c'.stock = c.stock
  /-- While anybody sleeps, there are not more units than calls notified that have not looked. -/
  covered : 0 < c.count .asleep → (S.held c.stock).length ≤ c.count .notified
  /-- So while anybody sleeps and there is a unit, such a call is there, and can look at once. -/
  awake : 0 < c.count .asleep → S.held c.stock ≠ [] → ∃ i k, c.calls[i]? = some k ∧
    k.stage = .notified ∧ (S.act? c (.look i)).isSome = true
  /-- If no notified call is held up for ever, nobody sleeps on while units stay. -/
  ends : ∀ run acts, run 0 = c → FairRun S run acts →
    ∃ m, S.held (run m).stock = [] ∨ (run m).count .asleep = 0

theorem Reaches.served (h : Reaches S s t c) : Served S t c := by
  constructor
  case took =>
    intro a c' n e ha ho
    have hturn := turn_of_act ha
    rw [ho] at hturn
    obtain ⟨⟨j, hj, rfl⟩, hbegins, -⟩ := hturn.took (h.sound.alone n)
    simp [takenBy, hbegins, h.sound.unspent j hj, ho, Event.takenBy]
  case inVain =>
    intro a c' n ha ho
    have hturn := turn_of_act ha
    rw [ho] at hturn
    obtain ⟨⟨j, hj, rfl⟩, hbegins⟩ := hturn.inVain
    refine ⟨?_, hturn.effect⟩
    simp [takenBy, hbegins, h.sound.unspent j hj, ho, Event.takenBy]
  case covered => exact h.sound.covered
  case awake =>
    intro hsleep hunits
    have hcovered := h.sound.covered hsleep
    have hpos : 0 < (S.held c.stock).length := List.length_pos_iff.mpr hunits
    obtain ⟨k, hk, hs⟩ := List.countP_pos_iff.mp (Nat.lt_of_lt_of_le hpos hcovered)
    obtain ⟨i, hi⟩ := List.mem_iff_getElem?.mp hk
    have hs := of_decide_eq_true hs
    exact ⟨i, k, hi, hs, by simp [act?, hi, hs]⟩
  case ends =>
    intro run acts hstart hrun
    exact hrun.stops_waiting (hstart ▸ h)

/-- What an event does to the count of a semaphore. -/
def CountEffect (s : Semaphore) : Option (Event Unit) → Semaphore → Prop
  | some (.put _ true), s' => s.count < s.limit ∧ s'.count = s.count + 1
  | some (.put _ false), s' => s.count = s.limit ∧ s' = s
  | some (.took _ _), s' => s.count = s'.count + 1
  | some (.cleared _), s' => s'.count = 0
  | some (.inVain _), s' | none, s' => s' = s

theorem countEffect_of_effect {s s' : Semaphore} {o : Option (Event Unit)}
    (h : Effect Semaphore.stock s o s') : CountEffect s o s' := by
  have hlen : ∀ r : Semaphore, (Semaphore.stock.held r).length = r.count := fun r =>
    List.length_replicate
  match o, h with
  | some (.put _ true), ⟨hroom, he⟩ =>
    have he := congrArg List.length he
    rw [List.length_append, List.length_singleton, hlen, hlen] at he
    exact ⟨hlen s ▸ hroom, he⟩
  | some (.put _ false), ⟨hfull, he⟩ =>
    rw [hlen] at hfull
    exact ⟨Nat.le_antisymm s.count_le (Nat.le_of_not_lt hfull), he⟩
  | some (.took _ e), he =>
    have he : Semaphore.stock.held s = e :: Semaphore.stock.held s' := he
    have he := congrArg List.length he
    rwa [List.length_cons, hlen, hlen] at he
  | some (.cleared _), ⟨_, he⟩ =>
    have he := congrArg List.length he
    rwa [hlen] at he
  | some (.inVain _), he => exact he
  | none, he => exact he

/-- **No unit and no wake-up is lost.** However the looks, puts, discards and expiries of any number
of threads follow each other:

* the count of a semaphore stays within its limit, which does not change; it changes by one up for
  a unit given below the limit, by one down for a take that succeeds, and to zero when it is reset;
  what was given and there from the start is what was taken, was discarded and is there;
* the messages that the queue accepted are those that left it and those in it, each once and in
  this order; a message that is sent when the queue is full is refused and changes nothing;
* for both, calls return what they took, and nobody sleeps on while units stay (`Served`). -/
theorem no_unit_is_lost :
    (∀ s t c, Reaches Semaphore.stock s t c →
      c.stock.limit = s.limit ∧ c.stock.count ≤ s.limit ∧
      (∀ a c', Semaphore.stock.act? c a = some c' →
        CountEffect c.stock (Semaphore.stock.event? c a) c'.stock) ∧
      s.count + (accepted Semaphore.stock t).length =
        (departed Semaphore.stock t).length + c.stock.count ∧
      Served Semaphore.stock t c) ∧
    ∀ t c, Reaches Inbox.stock .empty t c →
      accepted Inbox.stock t = (departed Inbox.stock t).map (·.1) ++ c.stock.toList ∧
      (∀ a c', Inbox.stock.act? c a = some c' →
        Effect Inbox.stock c.stock (Inbox.stock.event? c a) c'.stock) ∧
      (∀ x wakes c', Inbox.stock.act? c (.put x wakes) = some c' →
        c.stock.length = Limits.inboxDepth →
          Inbox.stock.event? c (.put x wakes) = some (.put x false) ∧ c'.stock = c.stock) ∧
      Served Inbox.stock t c := by
  constructor
  · intro s t c h
    have hlimit : c.stock.limit = s.limit := h.room
    refine ⟨hlimit, hlimit ▸ c.stock.count_le, fun a c' ha => ?_, ?_, h.served⟩
    · exact countEffect_of_effect (turn_of_act ha).effect
    · simpa [Semaphore.stock] using congrArg List.length h.held_append_accepted
  · intro t c h
    refine ⟨h.held_append_accepted, fun a c' ha => (turn_of_act ha).effect, ?_, h.served⟩
    intro x wakes c' ha hfull
    have hturn := turn_of_act ha
    have hrefused : Inbox.stock.event? c (.put x wakes) = some (.put x false) := by
      have hroom : ¬ c.stock.length < Limits.inboxDepth := by omega
      simp [event?, Inbox.stock, Inbox.push_of_full hroom]
    rw [hrefused] at hturn
    exact ⟨hrefused, hturn.effect.2⟩

/-- Two threads sleep, a unit is given, and the first of them is notified. -/
def oneOfTwoWoken : List (Action Unit) :=
  [.call 0 .forever, .look 0, .call 1 .forever, .look 1, .put () (some 0)]

/-- A third thread takes the unit at once, so that the notified thread goes to sleep again. -/
def unitStolen : List (Action Unit) := [.call 2 .now, .look 2, .look 0]

/-- Two of three messages leave the queue, one of them discarded. -/
def threeMessages : List (Action Message) :=
  [.put .up none, .attempt 0, .look 0, .put .enter none, .clear, .put .down none]

/-- A thread calls for a unit again and again, and each time one is given when it has gone to
sleep. -/
def givenEachTime (n : Nat) : Crowd Semaphore × Action Unit :=
  match n % 4 with
  | 0 => (⟨.flag, [⟨0, .forever, .asleep⟩]⟩, .put () (some 0))
  | 1 => (⟨.permit, [⟨0, .forever, .notified⟩]⟩, .look 0)
  | 2 => (⟨.flag, []⟩, .call 0 .forever)
  | _ => (⟨.flag, [⟨0, .forever, .looking⟩]⟩, .look 0)

theorem fairRun_givenEachTime :
    FairRun Semaphore.stock (fun n => (givenEachTime n).1) fun n => (givenEachTime n).2 := by
  constructor
  case step =>
    intro n
    have hmod : n % 4 = 0 ∨ n % 4 = 1 ∨ n % 4 = 2 ∨ n % 4 = 3 := by omega
    rcases hmod with h | h | h | h <;> simp only [givenEachTime, Nat.add_mod n 1, h] <;> rfl
  case fair =>
    intro n hn
    have hmod : n % 4 = 0 ∨ n % 4 = 1 ∨ n % 4 = 2 ∨ n % 4 = 3 := by omega
    rcases hmod with h | h | h | h <;> simp only [givenEachTime, h] at hn
    case inr.inl => exact ⟨n, Nat.le_refl n, 0, _, by simp only [givenEachTime, h],
      by simp only [givenEachTime, h]; rfl, rfl⟩
    all_goals exact absurd hn (by decide)

theorem no_unit_is_lost_stolen :
    (∃ t c, play? Semaphore.stock.act? [] ⟨.flag, []⟩ oneOfTwoWoken = some (t, c) ∧
      0 < c.count .asleep ∧ c.stock.count = 1 ∧ c.stock.count ≤ Semaphore.flag.limit ∧
      (Semaphore.stock.held c.stock).length ≤ c.count .notified ∧
      ∃ t' c', play? Semaphore.stock.act? t c unitStolen = some (t', c') ∧
        c'.stock.count = 0 ∧ c'.count .asleep = 2 ∧
        Semaphore.flag.count + (accepted Semaphore.stock t').length =
          (departed Semaphore.stock t').length + c'.stock.count) ∧
    (∃ m, Semaphore.stock.held (givenEachTime m).1.stock = [] ∨
      (givenEachTime m).1.count .asleep = 0) ∧
    ∃ t c, play? Inbox.stock.act? [] ⟨.empty, []⟩ threeMessages = some (t, c) ∧
      departed Inbox.stock t = [(.up, some 0), (.enter, none)] ∧ c.stock.toList = [.down] ∧
      accepted Inbox.stock t = (departed Inbox.stock t).map (·.1) ++ c.stock.toList := by
  have hwoken := of_play? (P := Reaches Semaphore.stock .flag) (fun _ _ _ _ => .act) oneOfTwoWoken
    .start rfl
  have hstolen := of_play? (P := Reaches Semaphore.stock .flag) (fun _ _ _ _ => .act) unitStolen
    hwoken rfl
  have hasleep := of_play? (P := Reaches Semaphore.stock .flag) (fun _ _ _ _ => .act)
    [.call 0 .forever, .look 0] .start rfl
  have hqueue := of_play? (P := Reaches Inbox.stock .empty) (fun _ _ _ _ => .act) threeMessages
    .start rfl
  obtain ⟨-, hle, -, -, hserved⟩ := no_unit_is_lost.1 _ _ _ hwoken
  exact ⟨⟨_, _, rfl, by decide, rfl, hle, hserved.covered (by decide), _, _, rfl, rfl, by decide,
      (no_unit_is_lost.1 _ _ _ hstolen).2.2.2.1⟩,
    (no_unit_is_lost.1 _ _ _ hasleep).2.2.2.2.ends _ _ rfl fairRun_givenEachTime,
    _, _, rfl, rfl, rfl, (no_unit_is_lost.2 _ _ hqueue).1⟩

end SwitchBench.Stock
