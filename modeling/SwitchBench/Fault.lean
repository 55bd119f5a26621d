/-!
# Refused calls

A `Fault` is a breach of the bench's contract: an invalid target, an index out of range,
arithmetic that leaves its word. Each constructor carries what its message names, and
`Fault.message` is the only place where the wording stands.

A call can also be refused because it would never return; `Refusal` has both reasons.
-/

namespace SwitchBench

/-- A breach of the contract. -/
inductive Fault where
  | subtractOverflow
  | multiplyOverflow
  | addOverflow
  | channelIndex (index : Nat)
  | noSuchChannel (index : Nat)
  | noCaptureChannel
  | moveTarget (target : Int)
  | moveLeavesRange (steps position : Int)
  | windowTooLong
  | sampleTarget
  | captureSetup
  | checkRange
  | nothingToCapture
  | measurementRange
  | measurementOrder (top bottom : Int)
  | tooManyPasses (passes capacity : Nat)
  | noSpace
  | sliceRange (stop length : Nat)
  | alreadyAcquired
  | passNotAcquired (pass : Nat)
  | unfinishedMove
  | unfinishedCapture
  | semaphoreCount
  | clockRate
  | blockingWait
  deriving Repr, DecidableEq

namespace Fault

/-- The text of a breach. -/
def message : Fault → String
  | subtractOverflow => "attempt to subtract with overflow"
  | multiplyOverflow => "attempt to multiply with overflow"
  | addOverflow => "attempt to add with overflow"
  | channelIndex i => s!"index out of bounds: the len is 2 but the index is {i}"
  | noSuchChannel i => s!"channel index {i} out of range"
  | noCaptureChannel => "capture channel out of range"
  | moveTarget t => s!"invalid move target {t}"
  | moveLeavesRange s p => s!"relative move by {s} from {p} leaves the position range"
  | windowTooLong => "capture window too long"
  | sampleTarget => "invalid sample target"
  | captureSetup => "invalid capture configuration"
  | checkRange => "invalid check range"
  | nothingToCapture => "no capture channels enabled"
  | measurementRange => "invalid measurement range"
  | measurementOrder t b => s!"measurement top {t} not above bottom {b}"
  | tooManyPasses n capacity => s!"{n} passes exceed {capacity} channel results"
  | noSpace => "no space for channel results"
  | sliceRange stop n => s!"range end index {stop} out of range for slice of length {n}"
  | alreadyAcquired => "measurement already acquired"
  | passNotAcquired n => s!"pass {n} not acquired"
  | unfinishedMove => "unfinished move reduced"
  | unfinishedCapture => "unfinished capture reduced"
  | semaphoreCount => "invalid semaphore count/limit"
  | clockRate => "clock frequency must be positive"
  | blockingWait => "blocking wait inside a critical section"

end Fault

/-- Why a call gives no answer. -/
inductive Refusal where
  /-- It breaks the contract. -/
  | breach (f : Fault)
  /-- It would wait for something that can never happen. -/
  | endless
  deriving Repr, DecidableEq

/-- The text of a refusal. -/
def Refusal.message : Refusal → String
  | breach f => f.message
  | endless => "the call would never return"

end SwitchBench
