import SwitchBench.Sync.Polling
import SwitchBench.Sync.Semaphore

/-!
# Calls on sources

Calls on semaphores and the input queue as one thread makes them, with pollers numbered from zero.
A call that finds nothing waits as long as its patience allows. While it waits another thread may
make one call of its own, a fixed time after the wait began; that call is what it can wait for.

A call made from inside a critical section must not wait, and is refused before it does anything.
-/

namespace SwitchBench

/-- A call on a source. -/
inductive SourceCall where
  | give (i : Nat)
  | reset (i : Nat)
  | count (i : Nat)
  | take (i : Nat) (p : Patience)
  | send (m : Message)
  | get (p : Patience)
  | tryGet
  | clear
  /-- Replaces a poller by a new one. -/
  | renew (poller : Nat)
  | poll (poller : Nat) (sources : List Source) (p : Patience)
  deriving DecidableEq, Repr

/-- What a call answers. -/
inductive SourceAnswer where
  | done
  | flag (b : Bool)
  | count (n : Nat)
  | message (m : Option Message)
  | ready (l : Option (List Bool))
  deriving DecidableEq, Repr

/-- A call with its circumstances: from how many critical sections it is made, and what another
thread does meanwhile. -/
structure SourceStep where
  call : SourceCall
  sections : Nat
  later : Option SourceCall
  deriving DecidableEq, Repr

namespace Exchange

/-- How long after the start of a wait the other thread makes its call. -/
def laterUs : Nat := 2000

/-- Most sources that one poll looks at. -/
def pollWidth : Nat := 4

/-- How long a call may wait. -/
def patienceOf : SourceCall → Patience
  | .take _ p | .get p | .poll _ _ p => p
  | _ => .now

/-- Does a call check that it may wait at all? Taking a message does not. -/
def checksSections : SourceCall → Bool
  | .get _ => false
  | _ => true

/-- A call as far as it can be done without waiting: its answer if it can, and a poll that has gone
to sleep if it cannot. -/
def attempt (x : Exchange) : SourceCall → Exchange × Option SourceAnswer
  | .give i => (x.give i, some .done)
  | .reset i => (x.modify i Semaphore.reset, some .done)
  | .count i => (x, some (.count ((x.semaphores[i]?).elim 0 Semaphore.count)))
  | .take i _ =>
    match x.take? i with
    | some y => (y, some (.flag true))
    | none => (x, none)
  | .send m =>
    let (y, queued) := x.send 0 m
    (y, some (.flag queued))
  | .get _ =>
    match x.pop? 0 with
    | some (y, m) => (y, some (.message (some m)))
    | none => (x, none)
  | .tryGet =>
    match x.pop? 0 with
    | some (y, m) => (y, some (.message (some m)))
    | none => (x, some (.message none))
  | .clear => (x.clear 0, some .done)
  | .renew poller => (x.renew poller, some .done)
  | .poll poller sources _ =>
    let (y, p) := (Polling.start poller (sources.take pollWidth)).rest x
    (y, p.answer?.map fun l => .ready (some l))

/-- The answer to a call that waited in vain. -/
def inVain : SourceCall → SourceAnswer
  | .get _ => .message none
  | .poll _ _ _ => .ready none
  | _ => .flag false

/-- What the other thread does, and the call once more after it. -/
def after (x : Exchange) (c : SourceCall) (later : SourceCall) : Exchange × Option SourceAnswer :=
  let x := (x.attempt later).1
  match c with
  | .poll poller sources _ =>
    let (y, p) := Polling.rest x ⟨poller, sources.take pollWidth, .sleeping⟩
    (y, p.answer?.map fun l => .ready (some l))
  | c => x.attempt c

/-- A call in its circumstances. Whether it may wait is checked first, and a wait that nothing can
end is not begun. -/
def perform (x : Exchange) (s : SourceStep) : Exchange × Except Refusal SourceAnswer :=
  let p := patienceOf s.call
  let other (x : Exchange) : Exchange := (s.later.map fun c => (x.attempt c).1).getD x
  match if checksSections s.call then p.allowedIn s.sections else .ok () with
  | .error f => (other x, .error (.breach f))
  | .ok _ =>
    match x.attempt s.call, s.later with
    | (y, some a), _ => (other y, .ok a)
    | (y, none), none => if p = .forever then (x, .error .endless) else (y, .ok (inVain s.call))
    | (y, none), some c =>
      if p.outlasts laterUs then
        match y.after s.call c with
        | (z, some a) => (z, .ok a)
        | (z, none) => (z, if p = .forever then .error .endless else .ok (inVain s.call))
      else (other y, .ok (inVain s.call))

end Exchange

end SwitchBench
