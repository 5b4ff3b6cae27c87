import Statechart.Report.Run

/-!
# The command line

`Command.parse` reads the arguments and `Command.execute` carries a command out in a `Setting`, so
everything here is a function of its arguments.
-/

namespace Statechart

/-- A command and its options. -/
inductive Command where
  | run (reference events : String) (start json : Bool) (logLevel : Option String)
  | inspect (reference : String) (json : Bool)
  | version

namespace Command

/-- The options read so far. -/
structure Options where
  reference : Option String
  events : Option String
  logLevel : Option String
  start : Bool
  json : Bool

/-- Sets an option that takes a value. -/
def Options.set? (o : Options) (name value : String) : Option Options :=
  if name = "--interpreter" ∨ name = "-i" then some { o with reference := some value }
  else if name = "--events" ∨ name = "-e" then some { o with events := some value }
  else if name = "--log-level" then some { o with logLevel := some value }
  else none

/-- Sets an option that takes none. -/
def Options.flag? (o : Options) (name : String) : Option Options :=
  if name = "--start" ∨ name = "-s" then some { o with start := true }
  else if name = "--json" then some { o with json := true }
  else none

/-- The options of a command, by name. -/
abbrev Known := List String

/-- Reads letters that follow one dash: flags, and after them an option that takes what is left of
the argument or, when nothing is left, the next argument. The result holds the arguments that are
left. -/
def readLetters (known : Known) (rest : List String) (o : Options) :
    List Char → Option (Options × List String)
  | [] => some (o, rest)
  | c :: cs =>
      let name := String.ofList ['-', c]
      if known.contains name then
        match o.flag? name with
        | some o => readLetters known rest o cs
        | none =>
            if cs.isEmpty then
              match rest with
              | value :: rest => (o.set? name value).map (·, rest)
              | [] => none
            else (o.set? name (String.ofList cs)).map (·, rest)
      else none

/-- Reads an option with a long name; its value follows an equals sign or is the next argument. -/
def readLong (known : Known) (rest : List String) (o : Options) (cs : List Char) :
    Option (Options × List String) :=
  let name := String.ofList (cs.takeWhile (· ≠ '='))
  if known.contains name then
    match cs.dropWhile (· ≠ '='), o.flag? name, rest with
    | [], some o, _ => some (o, rest)
    | [], none, value :: rest => (o.set? name value).map (·, rest)
    | [], none, [] => none
    | _ :: value, none, _ => (o.set? name (String.ofList value)).map (·, rest)
    | _ :: _, some _, _ => none
  else none

/-- Reads one option and what belongs to it. -/
def readOption (known : Known) (argument : String) (rest : List String) (o : Options) :
    Option (Options × List String) :=
  match argument.toList with
  | '-' :: '-' :: cs => readLong known rest o ('-' :: '-' :: cs)
  | '-' :: c :: cs => readLetters known rest o (c :: cs)
  | _ => none

/-- Reads the options of a command, with one unit of fuel for each argument. Two dashes end them,
and nothing may follow. -/
def readOptions (known : Known) : (fuel : Nat) → List String → Options → Option Options
  | _, [], o => some o
  | 0, _ :: _, _ => none
  | fuel + 1, a :: rest, o =>
      if a = "--" then if rest.isEmpty then some o else none
      else (readOption known a rest o).bind fun r => readOptions known fuel r.2 r.1

/-- Reads all options of a command. -/
def optionsOf (known : Known) (arguments : List String) : Option Options :=
  readOptions known arguments.length arguments ⟨none, none, none, false, false⟩

/-- The arguments of the program without two dashes in front. -/
def withoutDashes : List String → List String
  | "--" :: rest => rest
  | arguments => arguments

/-- Reads the arguments of the program: a command and its options. -/
def parse (arguments : List String) : Option Command := do
  match withoutDashes arguments with
  | "run" :: rest =>
      let o ← optionsOf
        ["--interpreter", "-i", "--events", "-e", "--start", "-s", "--json", "--log-level"] rest
      return .run (← o.reference) (← o.events) o.start o.json o.logLevel
  | "inspect" :: rest =>
      let o ← optionsOf ["--interpreter", "-i", "--json"] rest
      return .inspect (← o.reference) o.json
  | "version" :: rest =>
      let _ ← optionsOf [] rest
      return .version
  | _ => none

open Report

section Execution

variable (setting : Setting)

/-- The log lines that a run prints when a level is given. -/
def logLines (logLevel : Option String) (logs : List Log.Record) : List String :=
  match Log.given logLevel with
  | none => []
  | some level => (Log.Sink.of ⟨none, none⟩ (some level) (some "text")).lines setting.stamp logs

/-- The report of an error of a run. -/
def runError (json : Bool) (path : String) (logs : List String) (e : Error) :
    Except Error Printed :=
  match e with
  | .file _ .missing =>
      if json then .ok (errorJson logs [("error", "Event file not found"), ("path", path)])
      else errorText setting.console logs ("[red]Error: Event file not found:[/red] " ++ path)
  | _ =>
      let message := e.message setting.composed
      if json then .ok (errorJson logs [("error", message), ("type", e.kind)])
      else errorText setting.console logs ("[red]Error (" ++ e.kind ++ "):[/red] " ++ message)

/-- Runs the events of a file through an interpreter. -/
def executeRun (reference path : String) (start json : Bool) (logLevel : Option String) :
    Except Error Printed :=
  let loaded : Except Error (Interpreter × List Value) := do
    let l ← Catalogue.load reference
    return (l.interpreter, ← EventFile.read Value.loads setting.chunk path (setting.files path))
  match loaded with
  | .error e => runError setting json path [] e
  | .ok (i, events) =>
      let t := Replay.run Examples.host i (.newList events) start (some reference)
      let logs := logLines setting logLevel t.logs
      match t.failure with
      | some e => runError setting json path logs e
      | none => do
          let lines ←
            if json then runJson setting.copies t
            else runText setting.console setting.copies reference start events t
          return ⟨logs ++ lines, 0⟩

/-- Shows the state of an interpreter before any event. -/
def executeInspect (reference : String) (json : Bool) : Except Error Printed :=
  match Catalogue.load reference with
  | .error e =>
      let message := e.message setting.composed
      if json then .ok (errorJson [] [("error", message)])
      else errorText setting.console [] ("[red]Error:[/red] " ++ message)
  | .ok l => do
      let lines ←
        if json then inspectJson setting.copies l.interpreter
        else inspectText setting.console l.interpreter
      return ⟨lines, 0⟩

/-- Carries a command out. -/
def execute : Command → Except Error Printed
  | .run reference events start json logLevel =>
      executeRun setting reference events start json logLevel
  | .inspect reference json => executeInspect setting reference json
  | .version => .ok ⟨versionLines setting.console, 0⟩

/-- Carries out the command that the arguments give; a wrong use of them prints nothing. The result
is an error when what is to be printed cannot be. -/
def perform (arguments : List String) : Except Error Printed :=
  match parse arguments with
  | some c => execute setting c
  | none => .ok ⟨[], 2⟩

end Execution

end Command

end Statechart
