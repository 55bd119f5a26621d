import SwitchBench.Proofs.Roster
import SwitchBench.Proofs.Runs
import SwitchBench.Sync.Polling
import SwitchBench.Sync.Semaphore

/-!
# Sources, those who change them and those who wait for them

`Exchange.Crowd` is an exchange with any number of threads at work on it. Who makes a source ready
is still to tell the pollers after it: first it gathers the subscribed signals, then it raises one
after the other. Who polls is somewhere in its round. Each action of either is one critical section
of the library: `Exchange.gather`, `Exchange.raise` and `Polling.step`. Taking, discarding and
fetching is a single action, and needs no thread to be named, since anybody may do it at any time.
A thread is busy until it has told everybody of its change, and a poller is in one poll at a time.

`Crowd.act?` is one action of anybody, `Crowd.Reaches` is reachability with the trace of the
actions, newest first. Two things are read off the trace: who made a source ready
(`Crowd.maker?`) and what a poller saw since it lowered its signal (`Crowd.looks`).

Results: `turn_of_act` (what an action can do).
-/

namespace SwitchBench

/-- What a thread is in the middle of, told by its next action. -/
inductive SyncCall where
  /-- A change of a source is made, and the signals to raise are still to be gathered. -/
  | telling (thread : Nat) (s : Source)
  | raising (thread : Nat) (s : Source) (left : List Signal)
  | polling (p : Polling) (patience : Patience)
  deriving DecidableEq, Repr

namespace SyncCall

/-- Is it the rest of a change that this thread made? -/
def isOf (thread : Nat) : SyncCall → Bool
  | telling t _ | raising t _ _ => t = thread
  | polling _ _ => false

/-- Is it a poll by this poller? -/
def isPollBy (poller : Nat) : SyncCall → Bool
  | polling p _ => p.poller = poller
  | _ => false

@[simp] theorem isPollBy_telling (poller thread : Nat) (s : Source) :
    isPollBy poller (telling thread s) = false := rfl

@[simp] theorem isPollBy_raising (poller thread : Nat) (s : Source) (left : List Signal) :
    isPollBy poller (raising thread s left) = false := rfl

@[simp] theorem isPollBy_polling (poller : Nat) (p : Polling) (w : Patience) :
    isPollBy poller (polling p w) = decide (p.poller = poller) := rfl

/-- Is it the rest of a change of a source, in the course of which a signal will be raised? -/
def owes (thread : Nat) (s : Source) (g : Signal) : SyncCall → Prop
  | telling t s' => t = thread ∧ s' = s
  | raising t s' left => t = thread ∧ s' = s ∧ g ∈ left
  | polling _ _ => False

/-- The next action of a call, and the call after it; `none` if it has to wait. -/
def step? (x : Exchange) : SyncCall → Option (Exchange × Option SyncCall)
  | telling thread s => some ((x.gather s).1, some (raising thread s (x.gather s).2))
  | raising _ _ [] => some (x, none)
  | raising thread s (g :: left) => some (x.raise g, some (raising thread s left))
  | polling p w =>
    match p.phase with
    | .returned _ => some (x, none)
    | _ => (p.step x).map fun r => (r.1, some (polling r.2 w))

end SyncCall

/-- What a poller has seen in its round when the next step is done. -/
def PollPhase.noteLook (x : Exchange) (seen : List (Source × Bool)) :
    PollPhase → List (Source × Bool)
  | lowering => []
  | looking _ (s :: _) => seen ++ [(s, x.isReady s)]
  | _ => seen

namespace Exchange

/-- An exchange with what is in progress on it. -/
structure Crowd where
  exchange : Exchange
  calls : List SyncCall
  deriving DecidableEq, Repr

/-- One action of somebody. -/
inductive Action where
  /-- A thread changes a source. -/
  | give (thread i : Nat)
  | send (thread i : Nat) (m : Message)
  | take (i : Nat)
  | reset (i : Nat)
  | get (i : Nat)
  | clear (i : Nat)
  /-- A poller begins a poll. -/
  | poll (poller : Nat) (sources : List Source) (patience : Patience)
  /-- A poller makes way for another one. -/
  | renew (poller : Nat)
  /-- The call at a place acts. -/
  | proceed (k : Nat)
  /-- The time of the sleeping poll at a place is up. -/
  | giveUp (k : Nat)
  deriving DecidableEq, Repr

namespace Crowd

/-- The thread that an action shows to make a source ready, and the source. -/
def change? (c : Crowd) : Action → Option (Nat × Source)
  | .give thread i => some (thread, .semaphore i)
  | .send thread i m => if (c.exchange.push i m).2 then some (thread, .queue i) else none
  | _ => none

/-- The poll that an action carries on. -/
def acting? (c : Crowd) : Action → Option Polling
  | .proceed k =>
    match c.calls[k]? with
    | some (.polling p _) => some p
    | _ => none
  | _ => none

/-- One action, if it is possible. -/
def act? (c : Crowd) : Action → Option Crowd
  | .give thread i =>
    if i < c.exchange.semaphores.length ∧ ∀ k ∈ c.calls, k.isOf thread = false then
      some ⟨c.exchange.modify i Semaphore.give, c.calls ++ [.telling thread (.semaphore i)]⟩
    else none
  | .send thread i m =>
    if ∀ k ∈ c.calls, k.isOf thread = false then
      some ⟨(c.exchange.push i m).1,
        if (c.exchange.push i m).2 then c.calls ++ [.telling thread (.queue i)] else c.calls⟩
    else none
  | .take i => (c.exchange.take? i).map fun x => ⟨x, c.calls⟩
  | .reset i => some ⟨c.exchange.modify i Semaphore.reset, c.calls⟩
  | .get i => (c.exchange.pop? i).map fun r => ⟨r.1, c.calls⟩
  | .clear i => some ⟨c.exchange.clear i, c.calls⟩
  | .poll poller sources w =>
    if ∀ k ∈ c.calls, k.isPollBy poller = false then
      some ⟨c.exchange, c.calls ++ [.polling (.start poller sources) w]⟩
    else none
  | .renew poller =>
    if ∀ k ∈ c.calls, k.isPollBy poller = false then some ⟨c.exchange.renew poller, c.calls⟩
    else none
  | .proceed i => do
    let k ← c.calls[i]?
    let (x, next) ← k.step? c.exchange
    return ⟨x, putAt c.calls i next⟩
  | .giveUp i =>
    match c.calls[i]? with
    | some (.polling p w) =>
      if p.phase = .sleeping ∧ w ≠ .forever ∧ c.exchange.signal p.poller ∉ c.exchange.raised then
        some ⟨c.exchange, putAt c.calls i none⟩
      else none
    | _ => none

/-- The actions of a run with the states they were done in, newest first. -/
abbrev Trace := List (Crowd × Action)

/-- The states that some sources can get into, with the trace. -/
inductive Reaches : Trace → Crowd → Prop
  | start (semaphores : List Semaphore) (queues : List Inbox) :
      Reaches [] ⟨.ofSources semaphores queues, []⟩
  | act {t : Trace} {c c' : Crowd} {a : Action} (h : Reaches t c) (ha : c.act? a = some c') :
      Reaches ((c, a) :: t) c'

/-- The thread that last made a source ready, as long as this is the last change it made. -/
def maker? : Trace → Source → Option Nat
  | [], _ => none
  | (c, a) :: t, s =>
    match c.change? a with
    | some (thread, s') =>
      if s' = s ∧ c.exchange.isReady s = false then some thread
      else if maker? t s = some thread then none
      else maker? t s
    | none => maker? t s

/-- The sources that a poller looked at since it last lowered its signal, oldest first, each with
its readiness at that moment. -/
def looks : Trace → Nat → List (Source × Bool)
  | [], _ => []
  | (c, a) :: t, poller =>
    match c.acting? a with
    | some p =>
      if p.poller = poller then p.phase.noteLook c.exchange (looks t poller) else looks t poller
    | none => looks t poller

end Crowd

/-! ## What an action can do -/

/-- Do two states agree on who is subscribed to what, and on the signals? -/
structure SameSignals (x y : Exchange) : Prop where
  subscriptions : y.subscriptions = x.subscriptions
  raised : y.raised = x.raised
  held : y.held = x.held
  renewals : y.renewals = x.renewals

/-- A change that leaves a source ready, and all others as they are. -/
structure Feeds (x : Exchange) (s : Source) (y : Exchange) : Prop extends SameSignals x y where
  ready : y.isReady s = true
  others : ∀ s' ≠ s, y.isReady s' = x.isReady s'

/-- A change that makes no source ready. -/
structure Drains (x y : Exchange) : Prop extends SameSignals x y where
  ready : ∀ s, y.isReady s = true → x.isReady s = true

variable {x y : Exchange} {i : Nat}

theorem SameSignals.signal (h : SameSignals x y) (poller : Nat) :
    y.signal poller = x.signal poller := by
  rw [Exchange.signal, Exchange.signal, h.renewals]

theorem feeds_give (h : i < x.semaphores.length) :
    Feeds x (.semaphore i) (x.modify i Semaphore.give) := by
  refine ⟨⟨rfl, rfl, rfl, rfl⟩, ?_, fun s hs => isReady_modify_of_ne _ hs⟩
  have hcount := Semaphore.count_give x.semaphores[i]
  have hlimit := x.semaphores[i].limit_pos
  have hpos : 0 < x.semaphores[i].give.count := by split at hcount <;> omega
  simp [isReady, modify, List.getElem?_eq_getElem h, Semaphore.ready, hpos]

theorem drains_modify {f : Semaphore → Semaphore}
    (hf : ∀ s, x.semaphores[i]? = some s → (f s).ready = true → s.ready = true) :
    Drains x (x.modify i f) := by
  refine ⟨⟨rfl, rfl, rfl, rfl⟩, fun s hs => ?_⟩
  by_cases hi : s = .semaphore i
  · subst hi
    simp only [isReady, modify, List.getElem?_modify_eq] at hs ⊢
    cases hx : x.semaphores[i]? with
    | none => simp [hx] at hs
    | some a => exact hf a hx (by simpa [hx] using hs)
  · rwa [isReady_modify_of_ne f hi] at hs

theorem drains_take (h : x.take? i = some y) : Drains x y := by
  simp only [take?, Option.bind_eq_bind, Option.bind_eq_some_iff, Option.pure_def,
    Option.some.injEq] at h
  obtain ⟨s, hs, t, ht, rfl⟩ := h
  refine drains_modify fun s' hs' _ => ?_
  obtain rfl : s = s' := by rw [hs] at hs'; exact Option.some.inj hs'
  have := Semaphore.count_of_take? ht
  exact decide_eq_true (by omega)

theorem drains_setQueue {q q' : Inbox} (hq : x.queues[i]? = some q)
    (h : q'.ready = true → q.ready = true) : Drains x (x.setQueue i q') := by
  refine ⟨⟨rfl, rfl, rfl, rfl⟩, fun s hs => ?_⟩
  by_cases hi : s = .queue i
  · subst hi
    have hlt := (List.getElem?_eq_some_iff.mp hq).1
    simp only [isReady, setQueue, List.getElem?_set_self hlt, Option.elim_some, hq] at hs ⊢
    exact h hs
  · rwa [isReady_setQueue_of_ne q' hi] at hs

theorem drains_pop {m : Message} (h : x.pop? i = some (y, m)) : Drains x y := by
  simp only [pop?, Option.bind_eq_bind, Option.bind_eq_some_iff, Option.pure_def,
    Option.some.injEq, Prod.mk.injEq, Prod.exists] at h
  obtain ⟨q, hq, m', q', hpop, rfl, -⟩ := h
  refine drains_setQueue hq fun _ => ?_
  have := Inbox.pop?_eq_some_iff.mp hpop
  simp [Inbox.ready, Inbox.isEmpty, this]

theorem drains_clear (x : Exchange) (i : Nat) : Drains x (x.clear i) := by
  cases hq : x.queues[i]? with
  | some q => exact drains_setQueue hq nofun
  | none =>
    have hset : x.queues.set i .empty = x.queues :=
      List.set_eq_of_length_le (List.getElem?_eq_none_iff.mp hq)
    refine ⟨⟨rfl, rfl, rfl, rfl⟩, fun s hs => ?_⟩
    simpa [clear, setQueue, hset] using hs

/-- A message that was queued leaves its queue ready. -/
theorem feeds_push {m : Message} (h : (x.push i m).2 = true) :
    Feeds x (.queue i) (x.push i m).1 := by
  unfold push at h ⊢
  cases hq : x.queues[i]? with
  | none => simp [hq] at h
  | some q =>
    simp only [hq] at h ⊢
    refine ⟨⟨rfl, rfl, rfl, rfl⟩, ?_, fun s hs => isReady_setQueue_of_ne _ hs⟩
    have hlt := (List.getElem?_eq_some_iff.mp hq).1
    have hroom : q.length < Limits.inboxDepth := by
      by_contra hfull
      rw [Inbox.push_of_full hfull] at h
      exact Bool.false_ne_true h
    simp [isReady, setQueue, List.getElem?_set_self hlt, Inbox.ready, Inbox.isEmpty,
      Inbox.toList_push hroom]

/-- A message that was refused changes nothing. -/
theorem push_of_refused {m : Message} (h : (x.push i m).2 = false) : (x.push i m).1 = x := by
  unfold push at h ⊢
  cases hq : x.queues[i]? with
  | none => rfl
  | some q =>
    simp only [hq] at h ⊢
    have hfull : ¬ q.length < Limits.inboxDepth := fun hroom => by simp [Inbox.push, hroom] at h
    obtain ⟨hlt, rfl⟩ := List.getElem?_eq_some_iff.mp hq
    simp [Inbox.push_of_full hfull, setQueue]

namespace Crowd

variable {c c' : Crowd} {a : Action}

/-- What an action can do to a crowd. -/
inductive Turn (c : Crowd) (a : Action) : Crowd → Prop
  | feeds {thread : Nat} {s : Source} {x : Exchange} (hc : c.change? a = some (thread, s))
      (ha : c.acting? a = none) (hidle : ∀ k ∈ c.calls, k.isOf thread = false)
      (hx : Feeds c.exchange s x) : Turn c a ⟨x, c.calls ++ [.telling thread s]⟩
  | drains {x : Exchange} (hc : c.change? a = none) (ha : c.acting? a = none)
      (hx : Drains c.exchange x) : Turn c a ⟨x, c.calls⟩
  | begins {poller : Nat} {sources : List Source} {w : Patience} (hc : c.change? a = none)
      (ha : c.acting? a = none) (hidle : ∀ k ∈ c.calls, k.isPollBy poller = false) :
      Turn c a ⟨c.exchange, c.calls ++ [.polling (.start poller sources) w]⟩
  | renews {poller : Nat} (hc : c.change? a = none) (ha : c.acting? a = none)
      (hidle : ∀ k ∈ c.calls, k.isPollBy poller = false) :
      Turn c a ⟨c.exchange.renew poller, c.calls⟩
  | proceeds {i : Nat} {k : SyncCall} {x : Exchange} {next : Option SyncCall}
      (hc : c.change? a = none) (ha : a = .proceed i) (hk : c.calls[i]? = some k)
      (hs : k.step? c.exchange = some (x, next)) : Turn c a ⟨x, putAt c.calls i next⟩
  | givesUp {i : Nat} {p : Polling} {w : Patience} (hc : c.change? a = none)
      (ha : c.acting? a = none) (hk : c.calls[i]? = some (.polling p w)) :
      Turn c a ⟨c.exchange, putAt c.calls i none⟩

/-- **Every action is a turn.** -/
theorem turn_of_act (h : c.act? a = some c') : Turn c a c' := by
  cases a with
  | give thread i =>
    simp only [act?, Option.ite_none_right_eq_some, Option.some.injEq] at h
    obtain ⟨⟨hi, hidle⟩, rfl⟩ := h
    exact .feeds rfl rfl hidle (feeds_give hi)
  | send thread i m =>
    simp only [act?, Option.ite_none_right_eq_some, Option.some.injEq] at h
    obtain ⟨hidle, rfl⟩ := h
    cases hq : (c.exchange.push i m).2 with
    | true => exact .feeds (by simp [change?, hq]) rfl hidle (feeds_push hq)
    | false =>
      rw [push_of_refused hq]
      exact .drains (by simp [change?, hq]) rfl ⟨⟨rfl, rfl, rfl, rfl⟩, fun _ hs => hs⟩
  | take i =>
    simp only [act?, Option.map_eq_some_iff] at h
    obtain ⟨x, hx, rfl⟩ := h
    exact .drains rfl rfl (drains_take hx)
  | reset i =>
    cases h
    exact .drains rfl rfl (drains_modify fun _ _ hr => absurd hr (by simp [Semaphore.ready]))
  | get i =>
    simp only [act?, Option.map_eq_some_iff] at h
    obtain ⟨r, hr, rfl⟩ := h
    exact .drains rfl rfl (drains_pop hr)
  | clear i =>
    cases h
    exact .drains rfl rfl (drains_clear c.exchange i)
  | poll poller sources w =>
    simp only [act?, Option.ite_none_right_eq_some, Option.some.injEq] at h
    obtain ⟨hidle, rfl⟩ := h
    exact .begins rfl rfl hidle
  | renew poller =>
    simp only [act?, Option.ite_none_right_eq_some, Option.some.injEq] at h
    obtain ⟨hidle, rfl⟩ := h
    exact .renews rfl rfl hidle
  | proceed i =>
    simp only [act?, Option.bind_eq_bind, Option.bind_eq_some_iff, Option.pure_def,
      Option.some.injEq, Prod.exists] at h
    obtain ⟨k, hk, x, next, hs, rfl⟩ := h
    exact .proceeds rfl rfl hk hs
  | giveUp i =>
    simp only [act?] at h
    split at h <;> simp only [Option.ite_none_right_eq_some, Option.some.injEq, reduceCtorEq] at h
    rename_i p w hk
    obtain ⟨-, rfl⟩ := h
    exact .givesUp rfl rfl hk

end Crowd

end Exchange

end SwitchBench
