import Statechart.Examples.Programs
import Statechart.Interpreter

/-!
# A door

A hierarchical machine with patch updates. An admin can open the door; closing it with an override
takes the admin's rights away, and opening it afterwards is an error that is only logged.
-/

namespace Statechart.Examples.Door

open Value (table)

/-- The state that the door starts with. -/
def initialContext : Value :=
  table [("isAdmin", .bool true)]

/-- The factories of named actions. -/
def factories : Value :=
  table [("cancelAdmin", Code.cancelAdmin.handle "cancel_admin")]

/-- The state `closed`. -/
def closed : Value :=
  table
    [("initial", .text "idle"),
      ("states", table
        [("idle", table []),
          ("error", table [("onEntry", Code.logErrorEntry.handle "log_error_entry")])]),
      ("on", table
        [("OPEN", .newList
          [table [("target", .text "opened"), ("cond", Code.isAdmin.guard)],
            table [("target", .text "closed.error")]])])]

/-- The state `opened`. -/
def opened : Value :=
  table
    [("on", table
      [("CLOSE", .newList
        [table [("target", .text "closed"), ("cond", Code.overridesAdmin.guard),
            ("actions", .newList [.text "cancelAdmin"])],
          table [("target", .text "closed"), ("cond", Code.keepsAdmin.guard)]])])]

/-- The configuration of the machine. -/
def machine : Value :=
  table
    [("id", .text "door"), ("context", initialContext), ("initial", .text "closed"),
      ("states", table [("closed", closed), ("opened", opened)])]

/-- The configuration of the interpreter. -/
def config : Config :=
  ⟨.builtin .jsonPatch, .builtin .concat, factories, .null⟩

end Statechart.Examples.Door
