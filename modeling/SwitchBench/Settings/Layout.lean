import SwitchBench.Settings.Basic
import SwitchBench.Toml.Value

/-!
# The layout of settings

How each section of the settings is laid out as a record of a TOML document: the names of its
fields in their order, and what stands for a field that is left out. A field without a default must
be there, and a value of the wrong kind or out of range makes the whole record unreadable.

A reader of a value is a function to `Option`. `required` and `orDefault` make a reader of a field,
which may be missing, from a reader of its value.
-/

namespace SwitchBench

namespace Layout

/-- A field that must be there. -/
def required {α : Type} (read : Toml.Value → Option α) (v : Option Toml.Value) : Option α :=
  v.bind read

/-- A field that can be left out. -/
def orDefault {α : Type} (standard : α) (read : Toml.Value → Option α) :
    Option Toml.Value → Option α
  | none => some standard
  | some v => read v

/-- A number of one 32-bit word. -/
def word? : Toml.Value → Option Nat := Toml.Value.naturalUpTo? Limits.wordMax

/-- A position, or the word that is none. -/
def position? : Toml.Value → Option Int :=
  Toml.Value.integerIn? Position.nowhere Position.bottom

/-- A speed. -/
def speed? (v : Toml.Value) : Option Speed :=
  (v.naturalUpTo? 255).bind fun n => (Speed.ofPercent n).toOption

/-- A count of passes. -/
def count? : Toml.Value → Option Nat := Toml.Value.naturalUpTo? Limits.countMax

/-- The keyword of a set of directions. -/
def directions? (v : Toml.Value) : Option Directions := v.text?.bind Directions.ofKeyword?

/-- The name of a channel. -/
def channelName? (v : Toml.Value) : Option String :=
  v.text?.filter fun s => decide (ChannelSetup.FitsName s)

/-- A value for each channel, from an array of two at least. -/
def perChannel? {α : Type} (read : Toml.Value → Option α) (v : Toml.Value) :
    Option (PerChannel α) := do
  let a :: b :: _ ← v.items? | none
  return ⟨← read a, ← read b⟩

/-- Any number of values. -/
def listOf? {α : Type} (read : Toml.Value → Option α) (v : Toml.Value) : Option (List α) := do
  (← v.items?).mapM read

end Layout

open Layout

/-- What every program has; the level is `info` if none is given. -/
def SharedSettings.ofToml? (v : Toml.Value) : Option SharedSettings := do
  let [level, name] ← v.fields? ["log_level", "service_name"] | none
  return ⟨← orDefault .info (·.word?.bind Level.ofText?) level,
    ← required Toml.Value.text? name⟩

/-- The pace of the drive. -/
def StepPeriods.ofToml? (v : Toml.Value) : Option StepPeriods := do
  let [minUs, maxUs] ← v.fields? ["step_period_min_us", "step_period_max_us"] | none
  return ⟨← required word? minUs, ← required word? maxUs⟩

/-- Periods that can be read are words. -/
theorem StepPeriods.inWords_of_ofToml? {v : Toml.Value} {p : StepPeriods}
    (h : ofToml? v = some p) : p.InWords := by
  have hword {field : Option Toml.Value} {n : Nat} (hn : required word? field = some n) :
      n ≤ Limits.wordMax := by
    obtain ⟨_, -, hn⟩ := Option.bind_eq_some_iff.1 hn
    exact Toml.Value.le_of_naturalUpTo? hn
  obtain ⟨fields, -, h⟩ := Option.bind_eq_some_iff.1 h
  split at h
  · obtain ⟨_, hmin, h⟩ := Option.bind_eq_some_iff.1 h
    obtain ⟨_, hmax, h⟩ := Option.bind_eq_some_iff.1 h
    cases h
    exact ⟨hword hmin, hword hmax⟩
  · cases h

/-- A channel; it captures nothing unless directions are given. -/
def ChannelSetup.ofToml? (v : Toml.Value) : Option ChannelSetup := do
  let [directions, edge, name] ← v.fields? ["dirs", "edge", "name"] | none
  return ⟨← orDefault .none directions? directions,
    ← orDefault .rising (·.word?.bind Edge.ofText?) edge,
    ← orDefault "" channelName? name⟩

/-- A capture section; there need not be a bounce period or channels. -/
def CaptureSection.ofToml? (v : Toml.Value) : Option CaptureSection := do
  let [timeoutUs, bounceUs, channels] ← v.fields? ["timeout_us", "bounce_us", "channels"] | none
  return ⟨← required word? timeoutUs, ← orDefault 0 word? bounceUs,
    ← orDefault [] (listOf? ChannelSetup.ofToml?) channels⟩

/-- A capture setup, of which nothing can be left out. -/
def CaptureSetup.ofToml? (v : Toml.Value) : Option CaptureSetup := do
  let [channels, timeoutUs, bounceUs] ← v.fields? ["channels", "timeout_us", "bounce_us"] | none
  return ⟨← required (perChannel? ChannelSetup.ofToml?) channels, ← required word? timeoutUs,
    ← required word? bounceUs⟩

/-- A check section. -/
def CheckSection.ofToml? (v : Toml.Value) : Option CheckSection := do
  let [top, bottom, speed, passes] ← v.fields? ["top", "bottom", "speed", "passes"] | none
  return ⟨← required position? top, ← required position? bottom, ← required speed? speed,
    ← required count? passes⟩

/-- A simulated bench, of which only the actuation position must be given. -/
def SimulationSettings.ofToml? (v : Toml.Value) : Option SimulationSettings := do
  let [actuation, bounceEdges, cyclesPerUs, clockOffset, wiring] ←
    v.fields? ["actuation", "bounce_edges", "cycles_per_us", "clock_offset_cycles", "channels"]
    | none
  return ⟨← required position? actuation, ← orDefault standard.bounceEdges word? bounceEdges,
    ← orDefault standard.cyclesPerUs word? cyclesPerUs,
    ← orDefault standard.clockOffset word? clockOffset,
    ← orDefault standard.wiring (perChannel? (·.word?.bind Wiring.ofText?)) wiring⟩

/-- All settings; the pace and the simulated bench have defaults. -/
def Settings.ofToml? (v : Toml.Value) : Option Settings := do
  let [shared, periods, capture, check, simulation] ←
    v.fields? ["shared", "actuator", "capture", "check", "simulation"] | none
  return ⟨← required SharedSettings.ofToml? shared,
    ← orDefault .standard StepPeriods.ofToml? periods,
    ← required CaptureSection.ofToml? capture,
    ← required CheckSection.ofToml? check,
    ← orDefault .standard SimulationSettings.ofToml? simulation⟩

end SwitchBench
