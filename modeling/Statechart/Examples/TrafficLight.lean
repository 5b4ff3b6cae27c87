import Statechart.Examples.Programs
import Statechart.Interpreter

/-!
# A traffic light

A flat machine with copy-on-write updates. The extended state is the history of the lights that were
switched on, and each action outputs the history that it saw and the event.
-/

namespace Statechart.Examples.TrafficLight

open Value (table)

/-- The history that the light starts with. -/
def emptyHistory : Value :=
  .newList []

/-- The factories of named actions. -/
def factories : Value :=
  table
    [("incGreenTimer", Code.incGreenTimer.handle "inc_green_timer"),
      ("incYellowTimer", Code.incYellowTimer.handle "inc_yellow_timer"),
      ("logGreen", Code.logGreen.handle "log_green")]

/-- The state `green`. -/
def green : Value :=
  table
    [("on", table
      [("TIMER", table
        [("target", .text "yellow"), ("actions", .newList [.text "incGreenTimer"])])])]

/-- The state `yellow`. -/
def yellow : Value :=
  table
    [("onEntry", .newList [.text "incYellowTimer"]),
      ("on", table
        [("TIMER", .newList
          [table [("target", .text "red"), ("cond", Code.yellowTwice.guard)],
            table [("target", .text "yellow"), ("cond", Code.yellowOnce.guard)]])])]

/-- The state `red`. -/
def red : Value :=
  table
    [("on", table
      [("TIMER", table [("target", .text "green"), ("actions", .newList [.text "logGreen"])])])]

/-- The configuration of the machine. -/
def machine : Value :=
  table
    [("id", .text "light"), ("context", emptyHistory), ("initial", .text "green"),
      ("states", table [("green", green), ("yellow", yellow), ("red", red)])]

/-- The configuration of the interpreter. -/
def config : Config :=
  ⟨.builtin .copyOnWrite, .builtin .concat, factories, .null⟩

end Statechart.Examples.TrafficLight
