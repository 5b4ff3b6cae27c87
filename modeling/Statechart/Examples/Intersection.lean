import Statechart.Examples.Programs
import Statechart.Interpreter

/-!
# An intersection

Two traffic lights in parallel. Every change of colour is announced by an action whose descriptor
carries the light and the colour, and the extended state counts the announcements of each light.
-/

namespace Statechart.Examples.Intersection

open Value (table)

/-- The colours of a light, each with the next one. -/
def colours : List (String × String) :=
  [("green", "yellow"), ("yellow", "red"), ("red", "green")]

/-- The factories of named actions. -/
def factories : Value :=
  table [("announce", Code.announce.handle "announce")]

/-- The state of a light that shows a colour. -/
def lit (name colour next : String) : Value :=
  table
    [("entry", .newList
        [table [("type", .text "announce"), ("light", .text name), ("colour", .text colour)]]),
      ("on", table [("TIMER", .text next)])]

/-- A light that starts with a colour. -/
def light (name initial : String) : Value :=
  table
    [("initial", .text initial),
      ("states", table (colours.map fun c => (c.1, lit name c.1 c.2)))]

/-- The configuration of the machine. -/
def machine : Value :=
  table
    [("id", .text "intersection"), ("type", .text "parallel"), ("context", table []),
      ("states", table
        [("northSouthLight", light "northSouth" "green"),
          ("eastWestLight", light "eastWest" "red")])]

/-- The configuration of the interpreter. -/
def config : Config :=
  ⟨.builtin .copyOnWrite, .builtin .concat, factories, .null⟩

end Statechart.Examples.Intersection
