import SqlAccess.Bytes

/-!
# Logging

Each database has a `LogSink`, which says from which level on lines are taken. A line is
bounded in length (`LogLine.textLimit`) and ends at a zero byte. The level `off` is above every
line: a sink with that minimum takes none.
-/

namespace SqlAccess

/-- The levels, from the least to the most severe. -/
inductive LogLevel
  | debug
  | info
  | warn
  | error
  | off
  deriving DecidableEq, Repr

namespace LogLevel

/-- The name of a level. -/
def name : LogLevel → Bytes
  | debug => "DEBUG"
  | info => "INFO"
  | warn => "WARN"
  | error => "ERROR"
  | off => "OFF"

/-- The rank of a level. -/
def rank : LogLevel → Nat
  | debug => 0
  | info => 1
  | warn => 2
  | error => 3
  | off => 4

/-- The level of a rank. -/
def ofNumber? (n : UInt8) : Option LogLevel := [debug, info, warn, error, off][n.toNat]?

/-- The name of the level of a rank, if there is one. -/
def nameOfNumber (n : UInt8) : Bytes := ((ofNumber? n).map name).getD "?"

end LogLevel

/-- A line of a log. -/
structure LogLine where
  level : LogLevel
  text : Bytes
  deriving DecidableEq

namespace LogLine

/-- How many bytes of a line are kept. -/
def textLimit : Nat := 511

/-- A line as it is kept. -/
def bounded (level : LogLevel) (text : Bytes) : LogLine :=
  { level, text := text.beforeNul.take textLimit }

/-- A line with its level in front. -/
def render (l : LogLine) : Bytes := l.level.name ++ " " ++ l.text

end LogLine

/-- Where lines go. -/
structure LogSink where
  /-- The level from which on lines are taken. -/
  minimum : LogLevel := .warn
  /-- Whether there is a receiver at all. -/
  hasReceiver : Bool := true
  deriving DecidableEq

namespace LogSink

/-- A sink that takes no line. -/
def silent : LogSink := { minimum := .off }

/-- Whether lines of a level are taken. -/
def takes (s : LogSink) (level : LogLevel) : Bool :=
  s.hasReceiver && level != .off && s.minimum.rank ≤ level.rank

/-- What becomes of a line that is written: nothing if the sink does not take it or there is no
text. -/
def write (s : LogSink) (level : LogLevel) (text : Option Bytes) : Option LogLine :=
  if s.takes level then text.map (.bounded level) else none

end LogSink

end SqlAccess
