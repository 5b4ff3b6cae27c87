import Statechart.Script.Basic

/-!
# The code of the example machines

Guards, factories and recipes of the example machines as scripts. A factory is called with the
extended state, the event and its descriptor; a guard with the extended state and the event.
-/

namespace Statechart.Examples

open Script

/-- The first argument: the extended state. -/
abbrev state : Expr := .arg 0

/-- The second argument: the event. -/
abbrev event : Expr := .arg 1

/-- The third argument: the descriptor. -/
abbrev descriptor : Expr := .arg 2

/-- A text. -/
abbrev text (s : String) : Expr := .lit (.text s)

/-- A program that only computes a value. -/
def computing (x : Expr) : Program :=
  ⟨false, [], some x⟩

/-- A recipe that only edits its draft. -/
def editing (body : List Stmt) : Program :=
  ⟨true, body, none⟩

/-- The code of the example machines. -/
inductive Code where
  | isAdmin
  | overridesAdmin
  | keepsAdmin
  | cancelAdmin
  | logErrorEntry
  | yellowTwice
  | yellowOnce
  | incGreenTimer
  | appendGreen
  | incYellowTimer
  | appendYellow
  | logGreen
  | dropTwo
  | announce
  | bump
deriving DecidableEq

/-- The place of a piece of code in the list of programs. -/
def Code.index (c : Code) : Nat :=
  c.ctorIdx

/-- A handle on a piece of code under the given name. -/
def Code.handle (c : Code) (name : String) : Value :=
  .callable (some ⟨0, 0, 0⟩) (some name) c.index []

/-- The handle of a guard, which has no name of its own. -/
def Code.guard (c : Code) : Value :=
  c.handle "<lambda>"

/-- How often the extended state, a history, holds `yellow`. -/
def yellows : Expr :=
  .count state (text "yellow")

/-- The parameter of a descriptor. -/
def param (name : String) : Expr :=
  .index (.params descriptor) (text name)

/-- Asks for a recipe and outputs the history observed and the event. -/
def observing (recipe : Code) : Program :=
  computing (.result (.recipe recipe.index) (.list [state, event]))

/-- What a piece of code does. -/
def Code.program : Code → Program
  | .isAdmin => computing (.index state (text "isAdmin"))
  | .overridesAdmin => computing (.get event (text "overrideAdmin") (.lit .null))
  | .keepsAdmin => computing (.not (.get event (text "overrideAdmin") (.lit .null)))
  | .cancelAdmin => computing (.result
      (.list [.dict [(.text "op", text "add"), (.text "path", text "/isAdmin"),
        (.text "value", .lit (.bool false))]])
      (.list [text "admin rights overriden"]))
  | .logErrorEntry =>
      computing (.result (.list []) (.list [text "Entered .closed.error!", event]))
  | .yellowTwice => computing (.less (.lit (.int 1)) yellows)
  | .yellowOnce => computing (.lessOrEqual yellows (.lit (.int 1)))
  | .incGreenTimer => observing .appendGreen
  | .appendGreen => editing [⟨[], .append (text "green")⟩]
  | .incYellowTimer => observing .appendYellow
  | .appendYellow => editing [⟨[], .append (text "yellow")⟩]
  | .logGreen => observing .dropTwo
  | .dropTwo => editing [⟨[], .pop⟩, ⟨[], .pop⟩]
  | .announce => computing (.result (.recipe Code.bump.index)
      (.list [.add (.add (.text (param "light")) (text ":")) (.text (param "colour"))]))
  | .bump => editing [⟨[], .increment (param "light")⟩]

/-- All code, in the order of its places. -/
def codes : List Code :=
  [.isAdmin, .overridesAdmin, .keepsAdmin, .cancelAdmin, .logErrorEntry, .yellowTwice, .yellowOnce,
    .incGreenTimer, .appendGreen, .incYellowTimer, .appendYellow, .logGreen, .dropTwo, .announce,
    .bump]

/-- The programs of the example machines. -/
def programs : List Program :=
  codes.map Code.program

/-- Each piece of code stands at its place. -/
theorem programs_index (c : Code) : programs[c.index]? = some c.program := by
  cases c <;> rfl

end Statechart.Examples
