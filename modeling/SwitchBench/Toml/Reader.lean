/-!
# Readers

A reader takes something off the front of a text, or fails. A loop of readers ends because each of
its rounds takes at least one character: the length of the text bounds the rounds.
-/

namespace SwitchBench.Toml

/-- Takes something off the front of a text. -/
abbrev Reader := StateT (List Char) Option

namespace Reader

variable {α σ : Type}

/-- The next character, without taking it. -/
def peek? : Reader (Option Char) := fun s => some (s.head?, s)

/-- Takes any character. -/
def anyChar : Reader Char
  | [] => none
  | c :: rest => some (c, rest)

/-- Takes a text if it comes next; says whether it did. -/
def accept (word : List Char) : Reader Bool := fun s =>
  if word.isPrefixOf s then some (true, s.drop word.length) else some (false, s)

/-- Takes a text that must come next. -/
def expect (word : List Char) : Reader Unit := fun s =>
  if word.isPrefixOf s then some ((), s.drop word.length) else none

/-- Takes the longest run of characters of a kind. -/
def run (kind : Char → Bool) : Reader (List Char) := fun s => some (s.span kind)

/-- Takes a run of characters of a kind that is not empty. -/
def run1 (kind : Char → Bool) : Reader (List Char) := fun s =>
  match s.span kind with
  | ([], _) => none
  | r => some r

/-- Takes so many characters of a kind. -/
def exactly (n : Nat) (kind : Char → Bool) : Reader (List Char) := fun s =>
  let word := s.take n
  if word.length = n ∧ word.all kind then some (word, s.drop n) else none

/-- Repeats a round until it has a result, at most so many times. -/
def rounds (round : σ → Reader (σ ⊕ α)) : Nat → σ → Reader α
  | 0, _ => failure
  | n + 1, s => do
    match ← round s with
    | .inl s => rounds round n s
    | .inr a => return a

/-- Repeats a round, which takes a character at least, until it has a result. -/
def loop (round : σ → Reader (σ ⊕ α)) (s : σ) : Reader α := fun text =>
  rounds round (text.length + 1) s text

/-- Reads a whole text. -/
def whole (r : Reader α) (text : List Char) : Option α :=
  match r text with
  | some (a, []) => some a
  | _ => none

end Reader

end SwitchBench.Toml
