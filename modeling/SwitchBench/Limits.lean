/-!
# Limits of the bench

The numbers every part of the bench agrees on: the resolution and range of the capture timer, the
size of the result list and of the input queue, the default pace of the drive, and the word sizes
within which quantities are kept.

Times are microseconds, positions are drive steps.
-/

namespace SwitchBench.Limits

/-- Largest value of a 32-bit word. -/
def wordMax : Nat := 4294967295

/-- Largest value of a 64-bit word, the size of counts and indices. -/
def countMax : Nat := 18446744073709551615

/-- Duration of one tick of the capture timer. -/
def tickUs : Nat := 20

/-- Largest value of the capture timer's counter, in ticks. -/
def counterMax : Nat := 65535

/-- Longest capture window, timeout and bounce together. -/
def windowMaxUs : Nat := tickUs * counterMax

/-- Number of capture channels. -/
def channelCount : Nat := 2

/-- Longest channel name, in bytes. -/
def channelNameMax : Nat := 15

/-- Value reported for a channel that saw no edge. -/
def noValueUs : Nat := wordMax

/-- Highest speed of the drive, in percent. -/
def speedMax : Nat := 100

/-- Default step period at full speed. -/
def defaultPeriodMinUs : Nat := 250

/-- Default step period at zero speed. -/
def defaultPeriodMaxUs : Nat := 4000

/-- Width of one step pulse. -/
def pulseWidthUs : Nat := 2

/-- Number of channel readings a measurement can hold. -/
def readingsMax : Nat := 1024

/-- Number of messages the input queue can hold. -/
def inboxDepth : Nat := 16

/-- Handler calls the capture timer makes in a row for one event. -/
def handlerCallsMax : Nat := 8

end SwitchBench.Limits
