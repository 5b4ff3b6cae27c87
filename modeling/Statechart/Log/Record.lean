/-!
# Log records

A record has the name of its logger, a level, a message, and the identifier of the run that it
belongs to.
-/

namespace Statechart.Log

/-- How important a record is. -/
inductive Level where
  | debug
  | info
  | warning
  | error
  | critical
deriving DecidableEq

/-- The name of a level. -/
def Level.name : Level → String
  | .debug => "DEBUG"
  | .info => "INFO"
  | .warning => "WARNING"
  | .error => "ERROR"
  | .critical => "CRITICAL"

/-- The rank of a level. -/
def Level.rank : Level → Nat
  | .debug => 10
  | .info => 20
  | .warning => 30
  | .error => 40
  | .critical => 50

/-- The level with the given name. -/
def Level.ofName? (name : String) : Option Level :=
  [Level.debug, .info, .warning, .error, .critical].find? fun l => l.name == name

/-- A log record. -/
structure Record where
  logger : String
  level : Level
  message : String
  run : String

/-- The identifier of a run; an empty one stands for none. -/
def runName (run : Option String) : String :=
  match run with
  | some "" => "N/A"
  | some r => r
  | none => "N/A"

end Statechart.Log
