import Statechart.Report.Table
import Statechart.Text.Markup

/-!
# Consoles

A console shows marked-up text: it takes the markup out, breaks what is left into lines that fit,
and draws tables. How it does so is not up to this library, so a `Console` is what the functions
that print are given. `Console.ofWidth` is the one of the command line.
-/

namespace Statechart.Report

/-- What the functions that print ask of a console. -/
structure Console where
  /-- Marked-up text that shows a text as it is. -/
  escape : List Char → List Char
  /-- The text that marked-up text shows. -/
  render : List Char → Except Text.Markup.Fault (List Char)
  /-- The lines that a text is printed as. -/
  lines : List Char → List String
  /-- The lines of a table with borders, a heavy head and a title. -/
  bordered : (title : List Char) → List Column → List String
  /-- The lines of a grid without borders. -/
  grid : List Column → List String

/-- The console with a number of columns. -/
def Console.ofWidth (width : Nat) : Console where
  escape := Text.Markup.escape
  render := Text.Markup.render
  lines cs := (Text.wrap true width cs).map String.ofList
  bordered title columns := (Report.bordered width title columns).map String.ofList
  grid columns := (Report.grid width columns).map String.ofList

end Statechart.Report
