import JobBoard.Text.Blank
import JobBoard.Text.Like

/-!
# Log levels

The five levels of detail, and how a caller may spell them.
-/

namespace JobBoard.Observe

/-- The severity of a log line, gravest first. -/
inductive Level where
  | error
  | warn
  | info
  | debug
  | trace
  deriving DecidableEq, Repr

namespace Level

/-- The spelling of a level in settings. -/
def text : Level → String
  | .error => "error"
  | .warn => "warn"
  | .info => "info"
  | .debug => "debug"
  | .trace => "trace"

/-- The spelling of a level at the front of a log line. -/
def label : Level → String
  | .error => "ERROR"
  | .warn => "WARN"
  | .info => "INFO"
  | .debug => "DEBUG"
  | .trace => "TRACE"

/-- The position of a level, the gravest being zero. -/
def rank : Level → Nat
  | .error => 0
  | .warn => 1
  | .info => 2
  | .debug => 3
  | .trace => 4

/-- A level as a caller spelled it: blanks around it and ASCII case do not matter, and a warning has
two names. Otherwise the spelling without them. -/
def parse (s : String) : Except String Level :=
  let spelled := String.ofList ((Text.trimList s.toList).map Text.asciiLower)
  if spelled = "trace" then .ok .trace
  else if spelled = "debug" then .ok .debug
  else if spelled = "info" then .ok .info
  else if spelled = "warn" ∨ spelled = "warning" then .ok .warn
  else if spelled = "error" then .ok .error
  else .error spelled

end Level

/-- A line of the log. -/
structure Line where
  level : Level
  text : String
  deriving DecidableEq, Repr

/-- A line with its level in front. -/
def Line.render (l : Line) : String := l.level.label ++ " " ++ l.text

end JobBoard.Observe
