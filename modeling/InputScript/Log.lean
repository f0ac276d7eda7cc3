/-
Module: InputScript.Log
Purpose: Log lines and their levels.
Main exports: Level, LogLine
-/
namespace InputScript

/-- The level of a log line. -/
inductive Level where
  | debug
  | info
  | success
  | warning
  | error
  deriving DecidableEq, Repr

/-- The name of a level. -/
def Level.name : Level → String
  | .debug => "DEBUG"
  | .info => "INFO"
  | .success => "SUCCESS"
  | .warning => "WARNING"
  | .error => "ERROR"

/-- One line of the log. -/
structure LogLine where
  level : Level
  message : String
  deriving DecidableEq, Repr

end InputScript
