import SwitchBench.Fault
import SwitchBench.Settings.Load

/-!
# The program

Its name and version, and what can stop a run of it: a failure, which the program reports in the
last entry of its journal, or a breach of the contract.
-/

namespace SwitchBench.Program

def name : String := "keypecker"

def version : String := "0.1.0"

/-- What is written when the version is asked for. -/
def versionLine : String := s!"{name} {version}"

/-- Why a run fails. -/
inductive Failure where
  | load (e : LoadError)
  | problem (p : Problem)
  | setup (p : Problem)
  | nothingToCapture
  | poweredOff
  | tooManyPasses (passes : Nat)
  deriving Repr, DecidableEq

namespace Failure

/-- The text of a failure. -/
def message : Failure → String
  | load e => e.message
  | problem p => p.message
  | setup p => p.setupMessage
  | nothingToCapture => "no capture channels enabled"
  | poweredOff => "actuator powered off"
  | tooManyPasses n => s!"{n} passes don't fit the measurement result list"

/-- Further lines of the text: they show the place of the mistake in a document. -/
def moreLines : Failure → Nat
  | load .malformed => 5
  | _ => 0

end Failure

/-- What stops a run. -/
inductive Stop where
  | failed (f : Failure)
  | refused (r : Refusal)
  deriving Repr, DecidableEq

end SwitchBench.Program
