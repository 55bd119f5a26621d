import SwitchBench.Limits

/-!
# The input queue

Messages from the user, oldest first. The queue holds at most `Limits.inboxDepth` of them and
refuses more.

Left out: waiting for a message, and telling those who poll the queue, which is for `Exchange`.

Results: a message that is accepted comes last (`toList_push`), one that is refused changes nothing
(`push_of_full`), and messages leave in the order they came (`pop?_eq_some_iff`).
-/

namespace SwitchBench

/-- What a user can ask for. -/
inductive Message where
  | abort
  | up
  | down
  | enter
  deriving DecidableEq, Repr

/-- The written form. -/
def Message.text : Message → String
  | abort => "abort"
  | up => "up"
  | down => "down"
  | enter => "enter"

/-- The message of a written form. -/
def Message.ofText? (word : String) : Option Message :=
  [abort, up, down, enter].find? (·.text == word)

/-- A bounded queue of messages. -/
structure Inbox where
  toList : List Message
  length_le : toList.length ≤ Limits.inboxDepth
  deriving DecidableEq, Repr

namespace Inbox

def empty : Inbox := ⟨[], Nat.zero_le _⟩

instance : Inhabited Inbox := ⟨empty⟩

def length (q : Inbox) : Nat := q.toList.length

def isEmpty (q : Inbox) : Bool := q.toList.isEmpty

/-- Is there a message to take? -/
def ready (q : Inbox) : Bool := !q.isEmpty

/-- Appends a message, if there is room; says whether there was. -/
def push (q : Inbox) (m : Message) : Inbox × Bool :=
  if h : q.length < Limits.inboxDepth then
    (⟨q.toList ++ [m], by rw [List.length_append]; exact h⟩, true)
  else (q, false)

/-- Takes the oldest message. -/
def pop? (q : Inbox) : Option (Message × Inbox) :=
  match q with
  | ⟨[], _⟩ => none
  | ⟨m :: rest, h⟩ => some (m, ⟨rest, Nat.le_of_succ_le h⟩)

theorem toList_push {q : Inbox} {m : Message} (h : q.length < Limits.inboxDepth) :
    (q.push m).1.toList = q.toList ++ [m] := by
  simp [push, h]

theorem push_of_full {q : Inbox} {m : Message} (h : ¬ q.length < Limits.inboxDepth) :
    q.push m = (q, false) := by
  simp [push, h]

theorem pop?_eq_some_iff {q r : Inbox} {m : Message} :
    q.pop? = some (m, r) ↔ q.toList = m :: r.toList := by
  rcases q with ⟨_ | ⟨a, l⟩, hq⟩
  · simp [pop?]
  · rcases r with ⟨r, hr⟩
    simp [pop?]

end Inbox

end SwitchBench
