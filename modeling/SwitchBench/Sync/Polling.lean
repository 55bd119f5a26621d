import SwitchBench.Sync.Semaphore
import SwitchBench.Sync.Inbox

/-!
# Waiting for any of several sources

A poller waits until one of several sources is ready: a semaphore with units, or an input queue
with messages. It does not look at them all the time. It subscribes its signal to each source, and
whoever makes a source ready raises the signals subscribed to it. Telling them is no part of the
change: the signals are gathered after it, in one step (`Exchange.gather`), and each is raised in a
step of its own (`Exchange.raise`).

A signal lives as long as its poller, or as long as somebody who gathered it has not raised it. One
that is dead leaves a source's subscriptions when the next signal is subscribed or the signals are
gathered (`Exchange.purge`).

A poll goes round: lower the own signal, look at the sources one after the other, return what was
seen if any source was ready, and sleep until the signal is raised otherwise. Each of these is one
atomic step (`Polling.step`), so that the steps of other threads can fall between any two of them.
Looking consumes nothing.

Results: `mem_subscriptions_subscribe` and `mem_subscriptions_gather` (a signal that lives stays
subscribed), `mem_gather_iff` (what is told of a change), `mem_raised_raise`, `mem_raised_lower`.
-/

namespace SwitchBench

/-- Something a poller can wait for. -/
inductive Source where
  | semaphore (index : Nat)
  | queue (index : Nat)
  deriving DecidableEq, Repr

/-- The input queue of the bench, which is the first. -/
def Source.inbox : Source := queue 0

/-- The wake-up flag of a poller. A poller that takes the place of another has a flag of its
own. -/
structure Signal where
  poller : Nat
  generation : Nat
  deriving DecidableEq, Repr

/-- Sources, the signals subscribed to them and the signals that are raised. -/
structure Exchange where
  semaphores : List Semaphore
  queues : List Inbox
  subscriptions : List (Source × Signal)
  raised : List Signal
  /-- Gathered signals that are still to be raised. -/
  held : List Signal
  /-- Pollers whose place another one took, once for each time. -/
  renewals : List Nat
  deriving DecidableEq, Repr

namespace Exchange

/-- Sources that nobody waits for yet. -/
def ofSources (semaphores : List Semaphore) (queues : List Inbox) : Exchange :=
  ⟨semaphores, queues, [], [], [], []⟩

/-- Some semaphores and the input queue. -/
def ofSemaphores (semaphores : List Semaphore) : Exchange := ofSources semaphores [.empty]

/-- The input queue of the bench. -/
def inbox (x : Exchange) : Inbox := (x.queues[0]?).getD .empty

/-- Is a source ready? One that does not exist never is. -/
def isReady (x : Exchange) : Source → Bool
  | .semaphore i => (x.semaphores[i]?).elim false Semaphore.ready
  | .queue i => (x.queues[i]?).elim false Inbox.ready

/-- The signal of a poller. -/
def signal (x : Exchange) (poller : Nat) : Signal := ⟨poller, x.renewals.count poller⟩

/-- Does anybody still own a signal? -/
def isAlive (x : Exchange) (g : Signal) : Bool := g = x.signal g.poller || g ∈ x.held

/-- Drops the dead signals of a source. -/
def purge (x : Exchange) (s : Source) : Exchange :=
  { x with subscriptions := x.subscriptions.filter fun e => e.1 ≠ s || x.isAlive e.2 }

/-- Subscribes a signal to a source, once. -/
def subscribe (x : Exchange) (s : Source) (g : Signal) : Exchange :=
  if (s, g) ∈ (x.purge s).subscriptions then x.purge s
  else { x.purge s with subscriptions := (x.purge s).subscriptions ++ [(s, g)] }

/-- The signals subscribed to a source. -/
def subscribers (x : Exchange) (s : Source) : List Signal :=
  (x.subscriptions.filter (·.1 = s)).map (·.2)

/-- Gathers the signals that are to be raised for a source. -/
def gather (x : Exchange) (s : Source) : Exchange × List Signal :=
  let y := x.purge s
  ({ y with held := y.subscribers s ++ y.held }, y.subscribers s)

/-- Raises a gathered signal. -/
def raise (x : Exchange) (g : Signal) : Exchange :=
  { x with raised := x.raised.insert g, held := x.held.erase g }

/-- Raises the signals subscribed to a source, without anybody acting meanwhile. -/
def notify (x : Exchange) (s : Source) : Exchange :=
  let (y, l) := x.gather s
  l.foldl raise y

/-- Lowers a signal. -/
def lower (x : Exchange) (g : Signal) : Exchange := { x with raised := x.raised.filter (· ≠ g) }

/-- Puts a new poller in the place of one that is no more. -/
def renew (x : Exchange) (poller : Nat) : Exchange := { x with renewals := poller :: x.renewals }

/-- Changes one semaphore. -/
def modify (x : Exchange) (i : Nat) (f : Semaphore → Semaphore) : Exchange :=
  { x with semaphores := x.semaphores.modify i f }

/-- Gives a unit to a semaphore and then raises signals. -/
def give (x : Exchange) (i : Nat) : Exchange :=
  (x.modify i Semaphore.give).notify (.semaphore i)

/-- Takes a unit of a semaphore, if there is one. -/
def take? (x : Exchange) (i : Nat) : Option Exchange := do
  let s ← x.semaphores[i]?
  let t ← s.take?
  return x.modify i fun _ => t

/-- Replaces one queue. -/
def setQueue (x : Exchange) (i : Nat) (q : Inbox) : Exchange :=
  { x with queues := x.queues.set i q }

/-- Queues a message, if there is room for it; says whether there was. -/
def push (x : Exchange) (i : Nat) (m : Message) : Exchange × Bool :=
  match x.queues[i]? with
  | some q => (x.setQueue i (q.push m).1, (q.push m).2)
  | none => (x, false)

/-- Queues a message and then, if there was room for it, raises signals. -/
def send (x : Exchange) (i : Nat) (m : Message) : Exchange × Bool :=
  let (y, queued) := x.push i m
  (if queued then y.notify (.queue i) else y, queued)

/-- Takes the oldest message, if there is one. -/
def pop? (x : Exchange) (i : Nat) : Option (Exchange × Message) := do
  let q ← x.queues[i]?
  let (m, q) ← q.pop?
  return (x.setQueue i q, m)

/-- Discards all messages of a queue. -/
def clear (x : Exchange) (i : Nat) : Exchange := x.setQueue i .empty

variable {x : Exchange} {s s' : Source} {g g' : Signal}

@[simp] theorem raised_subscribe (x : Exchange) (s : Source) (g : Signal) :
    (x.subscribe s g).raised = x.raised := by
  unfold subscribe
  split <;> rfl

@[simp] theorem signal_subscribe (x : Exchange) (s : Source) (g : Signal) :
    (x.subscribe s g).signal = x.signal := by
  unfold subscribe
  split <;> rfl

theorem isAlive_signal (x : Exchange) (poller : Nat) : x.isAlive (x.signal poller) = true := by
  simp [isAlive, signal]

theorem mem_subscriptions_purge (h : (s, g) ∈ x.subscriptions) (hg : x.isAlive g = true)
    (s' : Source) : (s, g) ∈ (x.purge s').subscriptions := by
  simp [purge, h, hg]

/-- A signal that lives stays subscribed when another one is. -/
theorem mem_subscriptions_subscribe (h : (s, g) ∈ x.subscriptions) (hg : x.isAlive g = true)
    (s' : Source) (g' : Signal) : (s, g) ∈ (x.subscribe s' g').subscriptions := by
  have hp := mem_subscriptions_purge h hg s'
  unfold subscribe
  split
  · exact hp
  · exact List.mem_append_left _ hp

theorem subscribed_subscribe (x : Exchange) (s : Source) (g : Signal) :
    (s, g) ∈ (x.subscribe s g).subscriptions := by
  unfold subscribe
  split <;> rename_i h
  · exact h
  · exact List.mem_append_right _ (List.mem_singleton_self _)

/-- A signal that lives stays subscribed when the signals of a source are gathered. -/
theorem mem_subscriptions_gather (h : (s, g) ∈ x.subscriptions) (hg : x.isAlive g = true)
    (s' : Source) : (s, g) ∈ (x.gather s').1.subscriptions :=
  mem_subscriptions_purge h hg s'

/-- The signals that are gathered for a source are the living ones subscribed to it. -/
theorem mem_gather_iff : g ∈ (x.gather s).2 ↔ (s, g) ∈ x.subscriptions ∧ x.isAlive g = true := by
  simp only [gather, subscribers, purge, List.mem_map, List.mem_filter, Prod.exists]
  constructor
  · rintro ⟨s', _, ⟨⟨hmem, halive⟩, hs⟩, rfl⟩
    obtain rfl : s' = s := of_decide_eq_true hs
    exact ⟨hmem, by simpa using halive⟩
  · rintro ⟨hmem, halive⟩
    exact ⟨s, g, ⟨⟨hmem, by simp [halive]⟩, decide_eq_true rfl⟩, rfl⟩

@[simp] theorem mem_raised_raise : g ∈ (x.raise g').raised ↔ g = g' ∨ g ∈ x.raised :=
  List.mem_insert_iff

@[simp] theorem mem_raised_lower : g ∈ (x.lower g').raised ↔ g ∈ x.raised ∧ g ≠ g' := by
  simp [lower]

theorem signal_renew {poller other : Nat} (h : poller ≠ other) :
    (x.renew other).signal poller = x.signal poller := by
  simp [signal, renew, h.symm]

theorem isReady_modify_of_ne {i : Nat} (f : Semaphore → Semaphore) (h : s ≠ .semaphore i) :
    (x.modify i f).isReady s = x.isReady s := by
  cases s with
  | semaphore j =>
    have hj : i ≠ j := fun hij => h (by rw [hij])
    simp [isReady, modify, hj]
  | queue j => rfl

theorem isReady_setQueue_of_ne {i : Nat} (q : Inbox) (h : s ≠ .queue i) :
    (x.setQueue i q).isReady s = x.isReady s := by
  cases s with
  | semaphore j => rfl
  | queue j =>
    have hj : i ≠ j := fun hij => h (by rw [hij])
    simp [isReady, setQueue, hj]

end Exchange

/-- How far a poll has come. -/
inductive PollPhase where
  | subscribing (left : List Source)
  | lowering
  | looking (seen : List Bool) (left : List Source)
  | sleeping
  | returned (seen : List Bool)
  deriving DecidableEq, Repr

/-- A poll by a poller over some sources. -/
structure Polling where
  poller : Nat
  sources : List Source
  phase : PollPhase
  deriving DecidableEq, Repr

namespace Polling

/-- A poll that begins. -/
def start (poller : Nat) (sources : List Source) : Polling :=
  ⟨poller, sources, .subscribing sources⟩

/-- One atomic step of a poll; `none` if it has returned, or sleeps with its signal lowered. -/
def step (x : Exchange) (p : Polling) : Option (Exchange × Polling) :=
  match p.phase with
  | .subscribing [] => some (x, { p with phase := .lowering })
  | .subscribing (s :: left) =>
    some (x.subscribe s (x.signal p.poller), { p with phase := .subscribing left })
  | .lowering => some (x.lower (x.signal p.poller), { p with phase := .looking [] p.sources })
  | .looking seen [] =>
    some (x, { p with phase := if seen.any id then .returned seen else .sleeping })
  | .looking seen (s :: left) =>
    some (x, { p with phase := .looking (seen ++ [x.isReady s]) left })
  | .sleeping =>
    if x.signal p.poller ∈ x.raised then some (x, { p with phase := .lowering }) else none
  | .returned _ => none

/-- Runs a poll for so many steps, or until it can do none. -/
def run : Nat → Exchange → Polling → Exchange × Polling
  | 0, x, p => (x, p)
  | n + 1, x, p =>
    match step x p with
    | none => (x, p)
    | some (y, q) => run n y q

/-- Enough steps for a poll to return or fall asleep while nobody else acts. -/
def stepsToRest (p : Polling) : Nat := 2 * p.sources.length + 4

/-- Runs a poll until it has returned or sleeps, while nobody else acts. -/
def rest (x : Exchange) (p : Polling) : Exchange × Polling := run p.stepsToRest x p

/-- What a poll has returned. -/
def answer? (p : Polling) : Option (List Bool) :=
  match p.phase with
  | .returned seen => some seen
  | _ => none

end Polling

end SwitchBench
