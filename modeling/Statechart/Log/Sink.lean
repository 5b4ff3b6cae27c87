import Statechart.Json.Writer
import Statechart.Log.Record

/-!
# Writing log records

A sink writes the records from a level on, as lines of text or of JSON. Its level and format are
given by name, directly or by the environment.
-/

namespace Statechart.Log

/-- Where records go: the level from which on they are written, and whether as JSON. -/
structure Sink where
  threshold : Level
  json : Bool

/-- What the environment says about level and format. -/
structure Environment where
  level : Option String
  format : Option String

/-- A name that was given; an empty one was not. -/
def given (name : Option String) : Option String :=
  name.filter fun s => !s.isEmpty

/-- The capital form of a letter that a level's name may be written with. -/
def capital (c : Char) : Char :=
  if c = 'ı' then 'I' else if c = 'ſ' then 'S' else c.toUpper

/-- The level that a name stands for in any case of letters; an unknown one stands for `info`. -/
def levelOf (name : String) : Level :=
  (Level.ofName? (String.ofList (name.toList.map capital))).getD .info

/-- The sink for a level and a format, each taken from the environment when it is not given. -/
def Sink.of (env : Environment) (level format : Option String) : Sink :=
  let level := (given level).or (given env.level) |>.getD "INFO"
  let format := (given format).or (given env.format) |>.getD "json"
  ⟨levelOf level, String.ofList (format.toList.map Char.toLower) == "json"⟩

/-- The line of a record with the given time stamp. -/
def Sink.line (s : Sink) (stamp : String) (r : Record) : String :=
  let logger := if r.logger.isEmpty then "root" else r.logger
  if s.json then
    Json.write Json.spacedAscii (.obj
      [("timestamp", .str stamp), ("logger", .str logger), ("level", .str r.level.name),
        ("message", .str r.message), ("run_id", .str r.run)])
  else
    stamp ++ " - " ++ logger ++ " - " ++ r.level.name ++ " - " ++ r.message ++ " [run_id=" ++ r.run
      ++ "]"

/-- The lines of the records that a sink writes. -/
def Sink.lines (s : Sink) (stamp : String) (rs : List Record) : List String :=
  (rs.filter fun r => s.threshold.rank ≤ r.level.rank).map (s.line stamp)

end Statechart.Log
