import Statechart.Error
import Statechart.Value.Copy

/-!
# Making things

A computation that makes things takes their identities from a supply, so that no two of them are
the same. `Making.marked` gives identities to the new things in a value, and `Making.copied` makes a
deep copy.
-/

namespace Statechart

/-- A computation that may fail and takes the identities of what it makes from a supply. -/
abbrev Making := StateT Identity (Except Error)

namespace Making

/-- A value with marks on all that is new in it. -/
def marked (v : Value) : Making Value :=
  modifyGet fun next => v.mark.run next

/-- A deep copy. A value that cannot be copied is of the wrong type. -/
def copied (v : Value) : Making Value := do
  match v.copy? (← get) with
  | some (w, next) =>
      set next
      return w
  | none => throw .wrongType

end Making

end Statechart
