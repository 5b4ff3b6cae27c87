import Statechart.Catalogue
import Statechart.EventFile
import Statechart.Log.Sink
import Statechart.Replay
import Statechart.Setting

/-!
# Reports

What the command line prints: the outputs of a run as a table or as JSON, the state of an
interpreter, and errors. `Printed` is what a command leaves behind: its lines and its exit code. A
text that is not valid markup cannot be printed, which is an error of its own.
-/

namespace Statechart.Report

/-- What a command prints, and the code that it exits with. -/
structure Printed where
  lines : List String
  exit : Nat

section Cells

variable (console : Console)

/-- What marked-up text shows. -/
def markupCell (s : String) : Except Error (List Char) :=
  (console.render s.toList).mapError Error.markup

/-- A cell that shows a text as it is. -/
def literalCell (s : String) : Except Error (List Char) :=
  (console.render (console.escape s.toList)).mapError Error.markup

/-- The lines of marked-up text. -/
def markupLines (s : String) : Except Error (List String) := do
  return console.lines (← markupCell console s)

/-- The lines of a text that is shown as it is, after a heading. -/
def literalLines (heading s : String) : Except Error (List String) := do
  return console.lines (heading.toList ++ (← literalCell console s))

end Cells

/-- What is shown of a control state: its value if it has one. -/
def controlValue (control : Value) : Value :=
  (control.attribute? "value").getD control

/-- The JSON text of the canonical form of a value, if that form has a text. -/
def canonicalJson (c : Copies) (style : Json.Style) (v : Value) : Except Error String := do
  let form ← v.canonicalized c
  if form.hasText then return form.toJson.write style else .error (.fault .wrongLength)

/-- The JSON texts of the canonical forms of values. -/
def canonicalJsons (c : Copies) (style : Json.Style) : List Value → Except Error (List String)
  | [] => return []
  | v :: vs => return (← canonicalJson c.first style v) :: (← canonicalJsons c.rest style vs)

/-- The labels of the events of a run. -/
def labels (start : Bool) (events : List Value) : List String :=
  (if start then ["<start>"] else [])
    ++ events.map fun e => e.toJson.write Json.spacedAscii

/-- The lines of a run's table. -/
def runTable (console : Console) (reference : String) (labels : List String)
    (outputs : List String) : Except Error (List String) := do
  let rows := labels.zip outputs
  let columns : List Column :=
    [⟨"#".toList, (List.range rows.length).map digitChars, true⟩,
      ⟨"Event".toList, ← rows.mapM fun r => literalCell console r.1, false⟩,
      ⟨"Outputs".toList, ← rows.mapM fun r => literalCell console r.2, false⟩]
  let title ← markupCell console ("Run: " ++ reference)
  return console.bordered title columns

/-- The report of a run as text. Each of the values in it is copied anew where it holds records. -/
def runText (console : Console) (c : Copies) (reference : String) (start : Bool)
    (events : List Value) (t : Replay.Trace) : Except Error (List String) := do
  let s := t.interpreter.snapshot
  let digest ← Replay.outputsDigest c.first t.outputs
  let outputs ← canonicalJsons c.rest.first Json.spaced t.outputs
  let control ← canonicalJson c.rest.rest.first Json.spacedAscii (controlValue s.control)
  let state ← canonicalJson c.rest.rest.rest Json.spacedAscii s.state
  return (← runTable console reference (labels start events) outputs)
    ++ ["✓ Applied " ++ toString t.applied ++ " events"]
    ++ (← literalLines console "  Control state: " control)
    ++ (← literalLines console "  Extended state: " state)
    ++ ["  Outputs digest: " ++ digest]

/-- The lines of a value's canonical form as indented JSON. -/
def jsonLines (c : Copies) (v : Value) : Except Error (List String) := do
  return [← canonicalJson c Json.indented v]

/-- The report of a run as JSON. What records hold is copied once for the digest and once more for
the report. -/
def runJson (c : Copies) (t : Replay.Trace) : Except Error (List String) := do
  let s := t.interpreter.snapshot
  let digest ← Replay.outputsDigest c.first t.outputs
  jsonLines c.rest (.table
    [("success", .bool true), ("applied", .int t.applied), ("outputs", .newList t.outputs),
      ("control_state", controlValue s.control), ("extended_state", s.state),
      ("digest", .text digest)])

/-- A grid of labels and marked-up values. -/
def labelled (console : Console) (rows : List (String × List Char)) : List String :=
  console.grid [⟨[], rows.map fun r => r.1.toList, false⟩, ⟨[], rows.map Prod.snd, false⟩]

/-- Names in a row, or a dash when there are none. -/
def namesOrDash (names : List String) : String :=
  if names.isEmpty then "-" else ", ".intercalate names

/-- The active nodes of a control state. -/
def configurationOf : Value → List String
  | .state _ configuration _ _ => Machine.listedPaths configuration
  | _ => []

/-- The state of an interpreter as text. -/
def inspectText (console : Console) (i : Interpreter) : Except Error (List String) := do
  let s := i.snapshot
  let names := (← i.config.factoryNames).map Value.plainText
  let json (v : Value) : Except Error (List Char) :=
    literalCell console (v.toJson.write Json.spacedAscii)
  return labelled console
    [("Control state", ← json (controlValue s.control)),
      ("Configuration", ← markupCell console (namesOrDash (configurationOf s.control))),
      ("Extended state", ← json s.state), ("Actions", ← markupCell console (namesOrDash names))]

/-- The state of an interpreter as JSON. -/
def inspectJson (c : Copies) (i : Interpreter) : Except Error (List String) := do
  let s := i.snapshot
  jsonLines c (.table
    [("control_state", controlValue s.control),
      ("configuration", .newList ((configurationOf s.control).map .text)),
      ("extended_state", s.state), ("actions", .newList (← i.config.factoryNames))])

/-- The version of the program. -/
def versionLines (console : Console) : List String :=
  labelled console
    [("Statefold CLI", "v0.1.0".toList), ("Engine", "statechart reference engine".toList)]

/-- Prints an error as marked-up text. -/
def errorText (console : Console) (logs : List String) (s : String) : Except Error Printed := do
  return ⟨logs ++ (← markupLines console s), 2⟩

/-- Prints an error as JSON. -/
def errorJson (logs : List String) (members : List (String × String)) : Printed :=
  let object := Json.obj (members.map fun m => (m.1, .str m.2))
  ⟨logs ++ [object.write Json.spacedAscii], 2⟩

end Statechart.Report
