import SwitchBench.Proofs.Roster
import SwitchBench.Sync.Inbox
import SwitchBench.Sync.Semaphore

/-!
# Stocks and those who wait for them

A semaphore and the input queue are waited for in one and the same way, so both are told as a
`Stock`: something that holds units in the order in which they were put there, up to a limit. The
units of a semaphore cannot be told apart, those of the queue are its messages.

Whoever calls for a unit looks at the stock under its lock. It takes the oldest unit if there is
one, and goes to sleep otherwise. Whoever puts a unit wakes one sleeper, whichever it may be, and
does so even if the unit was refused. A sleeper that was notified looks again, some time later, and
may find that somebody else was faster. A sleeper whose time is up looks a last time and leaves
with nothing if there is nothing. A call that must not wait has this last look only.

`Stock.act?` is one action of anybody, each a single critical section or a wait that ends, and
`Stock.event?` what an action comes to. Whom a notification reaches is a choice of the action, as is
when a sleeper's time is up.

Results: `turn_of_act` (what an action can do).
-/

namespace SwitchBench

/-- Units in the order in which they were put down, with room for so many. -/
structure Stock (σ ε : Type) where
  held : σ → List ε
  room : σ → Nat
  /-- Adds a unit, if there is room; says whether there was. -/
  put : σ → ε → σ × Bool
  take? : σ → Option (ε × σ)
  clear : σ → σ
  put_snd {s : σ} {x : ε} : (put s x).2 = decide ((held s).length < room s)
  held_put {s : σ} {x : ε} : (held s).length < room s → held (put s x).1 = held s ++ [x]
  put_of_full {s : σ} {x : ε} : ¬ (held s).length < room s → (put s x).1 = s
  take?_eq_none_iff {s : σ} : take? s = none ↔ held s = []
  held_of_take? {s s' : σ} {e : ε} : take? s = some (e, s') → held s = e :: held s'
  held_clear {s : σ} : held (clear s) = []
  room_put {s : σ} {x : ε} : room (put s x).1 = room s
  room_of_take? {s s' : σ} {e : ε} : take? s = some (e, s') → room s' = room s
  room_clear {s : σ} : room (clear s) = room s

/-- A semaphore holds its count of units, all alike. -/
def Semaphore.stock : Stock Semaphore Unit where
  held s := List.replicate s.count ()
  room := limit
  put s _ := (s.give, decide (s.count < s.limit))
  take? s := s.take?.map fun r => ((), r)
  clear := reset
  put_snd := by simp
  held_put {s _} h := by
    rw [List.length_replicate] at h
    rw [count_give, if_pos h, List.replicate_succ']
  put_of_full {s _} h := by
    rw [List.length_replicate] at h
    rw [give, dif_neg h]
  take?_eq_none_iff := by simp [take?_eq_none_iff]
  held_of_take? h := by
    obtain ⟨r, hr, he⟩ := Option.map_eq_some_iff.mp h
    cases he
    rw [count_of_take? hr, List.replicate_succ]
  held_clear := rfl
  room_put := limit_give _
  room_of_take? h := by
    obtain ⟨r, hr, he⟩ := Option.map_eq_some_iff.mp h
    cases he
    exact limit_of_take? hr
  room_clear := rfl

/-- The input queue holds its messages. -/
def Inbox.stock : Stock Inbox Message where
  held := toList
  room _ := Limits.inboxDepth
  put := push
  take? := pop?
  clear _ := empty
  put_snd {q m} := by
    unfold push length
    split <;> simp_all
  held_put h := toList_push h
  put_of_full h := by rw [push_of_full h]
  take?_eq_none_iff {q} := by
    rcases q with ⟨_ | _, _⟩ <;> simp [pop?]
  held_of_take? := pop?_eq_some_iff.mp
  held_clear := rfl
  room_put := rfl
  room_of_take? _ := rfl
  room_clear := rfl

/-- Where a call for a unit stands. -/
inductive WaitStage where
  /-- It has just begun, and looks next. -/
  | looking
  | asleep
  /-- It was woken by whoever put a unit, and looks next. -/
  | notified
  /-- It looks next, and does not wait after that. -/
  | lastLook
  deriving DecidableEq, Repr

/-- A call for a unit. -/
structure WaitCall where
  thread : Nat
  patience : Patience
  stage : WaitStage
  deriving DecidableEq, Repr

/-- The call when it has got to a stage. -/
def WaitCall.atStage (k : WaitCall) (stage : WaitStage) : WaitCall := { k with stage }

namespace Stock

variable {σ ε : Type}

/-- A stock with the calls for its units. -/
structure Crowd (σ : Type) where
  stock : σ
  calls : List WaitCall
  deriving DecidableEq, Repr

/-- How many calls have got to a stage. -/
def Crowd.count (c : Crowd σ) (stage : WaitStage) : Nat := c.calls.countP (·.stage = stage)

/-- One action of somebody. -/
inductive Action (ε : Type) where
  /-- A unit is put, and the sleeper at a place is notified, if anybody sleeps. -/
  | put (x : ε) (wakes : Option Nat)
  | clear
  /-- A thread begins to call for a unit. -/
  | call (thread : Nat) (patience : Patience)
  /-- A thread begins a call that does not wait. -/
  | attempt (thread : Nat)
  /-- The call at a place looks at the stock. -/
  | look (i : Nat)
  /-- The time of the sleeper at a place is up. -/
  | timeOut (i : Nat)
  deriving DecidableEq, Repr

/-- What an action comes to, as far as anybody can tell. -/
inductive Event (ε : Type) where
  | put (x : ε) (accepted : Bool)
  | cleared (discarded : List ε)
  /-- A call ends with a unit. -/
  | took (thread : Nat) (e : ε)
  /-- A call ends with nothing. -/
  | inVain (thread : Nat)
  deriving DecidableEq, Repr

variable (S : Stock σ ε)

/-- A look at the stock: what is left there, and the call after it. -/
def look (s : σ) (k : WaitCall) : σ × Option WaitCall :=
  match S.take? s with
  | some (_, s') => (s', none)
  | none => (s, if k.stage = .lastLook then none else some (k.atStage .asleep))

/-- One action, if it is possible. -/
def act? (c : Crowd σ) : Action ε → Option (Crowd σ)
  | .put x none =>
    if c.count .asleep = 0 then some ⟨(S.put c.stock x).1, c.calls⟩ else none
  | .put x (some i) => do
    let k ← c.calls[i]?
    if k.stage = .asleep then
      some ⟨(S.put c.stock x).1, putAt c.calls i (some (k.atStage .notified))⟩
    else none
  | .clear => some ⟨S.clear c.stock, c.calls⟩
  | .call thread p =>
    if ∀ k ∈ c.calls, k.thread ≠ thread then some ⟨c.stock, c.calls ++ [⟨thread, p, .looking⟩]⟩
    else none
  | .attempt thread =>
    if ∀ k ∈ c.calls, k.thread ≠ thread then
      some ⟨c.stock, c.calls ++ [⟨thread, .now, .lastLook⟩]⟩
    else none
  | .look i => do
    let k ← c.calls[i]?
    if k.stage = .asleep then none
    else some ⟨(S.look c.stock k).1, putAt c.calls i (S.look c.stock k).2⟩
  | .timeOut i => do
    let k ← c.calls[i]?
    if k.stage = .asleep ∧ k.patience ≠ .forever then
      some ⟨c.stock, putAt c.calls i (some (k.atStage .lastLook))⟩
    else none

/-- What an action comes to. -/
def event? (c : Crowd σ) : Action ε → Option (Event ε)
  | .put x _ => some (.put x (S.put c.stock x).2)
  | .clear => some (.cleared (S.held c.stock))
  | .look i => do
    let k ← c.calls[i]?
    match S.take? c.stock with
    | some (e, _) => some (.took k.thread e)
    | none => if k.stage = .lastLook then some (.inVain k.thread) else none
  | _ => none

/-- The actions of a run with the states they were done in, newest first. -/
abbrev Trace (σ ε : Type) := List (Crowd σ × Action ε)

/-- The states that a stock can get into, with the trace. -/
inductive Reaches (s : σ) : Trace σ ε → Crowd σ → Prop
  | start : Reaches s [] ⟨s, []⟩
  | act {t : Trace σ ε} {c c' : Crowd σ} {a : Action ε} (h : Reaches s t c)
      (ha : S.act? c a = some c') : Reaches s ((c, a) :: t) c'

variable {S} {c c' : Crowd σ} {a : Action ε}

/-- What an action can do, and what it comes to. -/
inductive Turn (S : Stock σ ε) (c : Crowd σ) : Action ε → Option (Event ε) → Crowd σ → Prop
  | puts (x : ε) (h : c.count .asleep = 0) :
      Turn S c (.put x none) (some (.put x (S.put c.stock x).2)) ⟨(S.put c.stock x).1, c.calls⟩
  | wakes (x : ε) {i : Nat} {k : WaitCall} (hk : c.calls[i]? = some k) (hs : k.stage = .asleep) :
      Turn S c (.put x (some i)) (some (.put x (S.put c.stock x).2))
        ⟨(S.put c.stock x).1, putAt c.calls i (some (k.atStage .notified))⟩
  | clears : Turn S c .clear (some (.cleared (S.held c.stock))) ⟨S.clear c.stock, c.calls⟩
  | begins {a : Action ε} {k : WaitCall}
      (ha : a = .call k.thread k.patience ∨ a = .attempt k.thread)
      (hs : k.stage = .looking ∨ k.stage = .lastLook) (hidle : ∀ j ∈ c.calls, j.thread ≠ k.thread) :
      Turn S c a none ⟨c.stock, c.calls ++ [k]⟩
  | takes {i : Nat} {k : WaitCall} {e : ε} {s : σ} (hk : c.calls[i]? = some k)
      (hs : k.stage ≠ .asleep) (he : S.take? c.stock = some (e, s)) :
      Turn S c (.look i) (some (.took k.thread e)) ⟨s, putAt c.calls i none⟩
  | sleeps {i : Nat} {k : WaitCall} (hk : c.calls[i]? = some k)
      (hs : k.stage = .looking ∨ k.stage = .notified) (he : S.held c.stock = []) :
      Turn S c (.look i) none ⟨c.stock, putAt c.calls i (some (k.atStage .asleep))⟩
  | leaves {i : Nat} {k : WaitCall} (hk : c.calls[i]? = some k) (hs : k.stage = .lastLook)
      (he : S.held c.stock = []) :
      Turn S c (.look i) (some (.inVain k.thread)) ⟨c.stock, putAt c.calls i none⟩
  | timesOut {i : Nat} {k : WaitCall} (hk : c.calls[i]? = some k) (hs : k.stage = .asleep)
      (hp : k.patience ≠ .forever) :
      Turn S c (.timeOut i) none ⟨c.stock, putAt c.calls i (some (k.atStage .lastLook))⟩

/-- A look finds a unit, or sends the call to sleep, or is its last. -/
theorem turn_of_look {i : Nat} {k : WaitCall} (hk : c.calls[i]? = some k)
    (hs : k.stage ≠ .asleep) :
    Turn S c (.look i) (S.event? c (.look i))
      ⟨(S.look c.stock k).1, putAt c.calls i (S.look c.stock k).2⟩ := by
  cases he : S.take? c.stock with
  | some r =>
    obtain ⟨e, s⟩ := r
    have hev : S.event? c (.look i) = some (.took k.thread e) := by simp [event?, hk, he]
    rw [hev, look, he]
    exact .takes hk hs he
  | none =>
    have hheld := S.take?_eq_none_iff.mp he
    by_cases hlast : k.stage = .lastLook
    · have hev : S.event? c (.look i) = some (.inVain k.thread) := by
        simp [event?, hk, he, hlast]
      rw [hev, look, he, if_pos hlast]
      exact .leaves hk hlast hheld
    · have hev : S.event? c (.look i) = none := by simp [event?, hk, he, hlast]
      rw [hev, look, he, if_neg hlast]
      refine .sleeps hk ?_ hheld
      cases hst : k.stage <;> simp_all

/-- **What an action can do.** -/
theorem turn_of_act (h : S.act? c a = some c') : Turn S c a (S.event? c a) c' := by
  cases a with
  | put x wakes =>
    cases wakes with
    | none =>
      simp only [act?, Option.ite_none_right_eq_some, Option.some.injEq] at h
      obtain ⟨hnone, rfl⟩ := h
      exact .puts x hnone
    | some i =>
      simp only [act?, Option.bind_eq_bind, Option.bind_eq_some_iff, Option.ite_none_right_eq_some,
        Option.some.injEq] at h
      obtain ⟨k, hk, hs, rfl⟩ := h
      exact .wakes x hk hs
  | clear =>
    cases h
    exact .clears
  | call thread p =>
    simp only [act?, Option.ite_none_right_eq_some, Option.some.injEq] at h
    obtain ⟨hidle, rfl⟩ := h
    exact .begins (.inl rfl) (.inl rfl) hidle
  | attempt thread =>
    simp only [act?, Option.ite_none_right_eq_some, Option.some.injEq] at h
    obtain ⟨hidle, rfl⟩ := h
    exact .begins (.inr rfl) (.inr rfl) hidle
  | look i =>
    simp only [act?, Option.bind_eq_bind, Option.bind_eq_some_iff, Option.ite_none_left_eq_some,
      Option.some.injEq] at h
    obtain ⟨k, hk, hs, rfl⟩ := h
    exact turn_of_look hk hs
  | timeOut i =>
    simp only [act?, Option.bind_eq_bind, Option.bind_eq_some_iff, Option.ite_none_right_eq_some,
      Option.some.injEq] at h
    obtain ⟨k, hk, ⟨hs, hp⟩, rfl⟩ := h
    exact .timesOut hk hs hp

end Stock

end SwitchBench
