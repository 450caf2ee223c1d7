import PaneWatch.Time.Clock
/-! How often a pane is polled and how long it is left to settle, with the defaults of the
waits. Two environment variables replace the defaults; a value that is not an unsigned number
of milliseconds below 2^64 is passed over. -/
namespace PaneWatch

structure Settings where
  pollInterval : Span
  captureDelay : Span
  deriving DecidableEq, Repr

namespace Settings
open Text

def defaultPollInterval : Span := Span.ofMillis 500
def defaultCaptureDelay : Span := Span.ofMillis 200
def defaultIterationTimeout : Span := Span.ofSeconds 60
def defaultTotalTimeout : Span := Span.ofSeconds 300
def defaultTerminationTimeout : Span := Span.ofSeconds 120
def defaultTerminationPoll : Span := Span.ofSeconds 1

/-- How many captures in a row must equal the one before them for a pane to count as still. -/
def requiredStableCaptures : Nat := 3

def pollVariable : String := "ITERATION_CAPTURE_POLL_MS"
def delayVariable : String := "ITERATION_CAPTURE_DELAY_MS"

def default : Settings := ⟨defaultPollInterval,defaultCaptureDelay⟩

instance : Inhabited Settings := ⟨default⟩

/-- Blank space around it apart, a value is an optional plus sign and a numeral. -/
def millis? (text : String) : Option Span := do
  let cs := trim text.toList
  let cs := match cs with
    | '+'::cs => cs
    | _ => cs
  if !cs.isEmpty && cs.all Char.isDigit then
    let ms ← valueBelow? UInt64.size cs
    some (Span.ofMillis ms)
  else none

def ofLookup (lookup : String → Option String) : Settings where
  pollInterval := ((lookup pollVariable).bind millis?).getD defaultPollInterval
  captureDelay := ((lookup delayVariable).bind millis?).getD defaultCaptureDelay

end Settings
end PaneWatch
