import SwitchBench.Limits

/-!
# What can be wrong with settings

`Problem` lists every reason for which a setting is refused although it could be read, and its
text, by itself and when hardware is set up from the settings.
-/

namespace SwitchBench

/-- Why a setting is refused. -/
inductive Problem where
  | speedTooHigh (percent : Nat)
  | zeroStepPeriod
  | stepPeriodsReversed (minUs maxUs : Nat)
  | channelNameTooLong (name : String)
  | windowTooLong (timeoutUs bounceUs : Nat)
  | tooManyChannels (count : Nat)
  | emptyServiceName
  | checkPosition
  | checkOrder (top bottom : Int)
  | zeroClockRate
  | actuationPosition
  deriving Repr, DecidableEq

namespace Problem

/-- What exactly is wrong. -/
def detail : Problem → String
  | speedTooHigh p => s!"speed {p}% exceeds {Limits.speedMax}%"
  | zeroStepPeriod => "step_period_min_us must be positive"
  | stepPeriodsReversed a b => s!"step_period_min_us ({a}) exceeds step_period_max_us ({b})"
  | channelNameTooLong n =>
    s!"channel name '{n}' is longer than {Limits.channelNameMax} characters"
  | windowTooLong t b =>
    s!"capture window timeout_us ({t}) + bounce_us ({b}) exceeds {Limits.windowMaxUs}us"
  | tooManyChannels n =>
    s!"{n} capture channels configured, at most {Limits.channelCount} available"
  | emptyServiceName => "service_name cannot be empty"
  | checkPosition => "check positions must be valid"
  | checkOrder t b => s!"check top ({t}) must be less than bottom ({b})"
  | zeroClockRate => "cycles_per_us must be positive"
  | actuationPosition => "actuation position must be valid"

/-- The full text of the refusal. -/
def message (p : Problem) : String := "Configuration validation failed: " ++ p.detail

/-- The text of the refusal when hardware is set up from the settings. -/
def setupMessage (p : Problem) : String := "Configuration error: " ++ p.message

end Problem

end SwitchBench
