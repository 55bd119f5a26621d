/-!
# Journal levels

How much the journal tells. A level lets everything through that is at most as verbose as itself.
-/

namespace SwitchBench

/-- How verbose an entry of the journal is, the most verbose first. -/
inductive Level where
  | trace
  | debug
  | info
  | warn
  | error
  deriving DecidableEq, Repr

namespace Level

def all : List Level := [trace, debug, info, warn, error]

/-- The written form in settings. -/
def text : Level → String
  | trace => "trace"
  | debug => "debug"
  | info => "info"
  | warn => "warn"
  | error => "error"

/-- The written form in the journal. -/
def title : Level → String
  | trace => "TRACE"
  | debug => "DEBUG"
  | info => "INFO"
  | warn => "WARN"
  | error => "ERROR"

/-- The level of a written form in settings. -/
def ofText? (word : String) : Option Level := all.find? (·.text == word)

/-- How much a level lets through. -/
def verbosity : Level → Nat
  | error => 1
  | warn => 2
  | info => 3
  | debug => 4
  | trace => 5

instance : Inhabited Level := ⟨info⟩

end Level

end SwitchBench
