/-!
# Log lines

The library reports what it does through log lines.  A line has a level and a
text.  Operations that log return their lines or append them to the log they
work on, oldest first.
-/

namespace HostBridge

/-- How serious a log line is. -/
inductive LogLevel where
  | error
  | warn
  | debug
  | trace
deriving DecidableEq, Repr

/-- The level as it is printed. -/
def LogLevel.name : LogLevel → String
  | .error => "ERROR"
  | .warn => "WARN"
  | .debug => "DEBUG"
  | .trace => "TRACE"

/-- One message of the library to whoever watches it. -/
structure LogLine where
  level : LogLevel
  text : String
deriving DecidableEq, Repr

end HostBridge
