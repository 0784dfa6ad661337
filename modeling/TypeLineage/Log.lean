/-!
# Levels of a log

How much of what happens is told. A level lets through what is at least as grave as itself.
-/

namespace TypeLineage

/-- The levels, the least grave first. -/
inductive LogLevel where
  /-- Every step. -/
  | trace
  /-- What helps to find mistakes. -/
  | debug
  /-- What is worth knowing. -/
  | info
  /-- What may be wrong. -/
  | warn
  /-- What is wrong. -/
  | error
  deriving DecidableEq, Repr

namespace LogLevel

/-- All levels, the least grave first. -/
def all : List LogLevel :=
  [.trace, .debug, .info, .warn, .error]

/-- The name of a level. -/
def name : LogLevel → String
  | .trace => "trace"
  | .debug => "debug"
  | .info => "info"
  | .warn => "warn"
  | .error => "error"

/-- The name of a level in capitals, as it starts a line of the log. -/
def label (level : LogLevel) : String :=
  String.ofList (level.name.toList.map Char.toUpper)

/-- How grave a level is. -/
def gravity : LogLevel → Nat
  | .trace => 0
  | .debug => 1
  | .info => 2
  | .warn => 3
  | .error => 4

/-- Whether a level lets through what has another level. -/
def admits (level other : LogLevel) : Bool :=
  level.gravity ≤ other.gravity

end LogLevel

end TypeLineage
