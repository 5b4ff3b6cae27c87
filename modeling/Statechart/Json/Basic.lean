import Statechart.Number.Shortest

/-!
# JSON values

A JSON value as a text gives it: numbers are whole numbers of any size or binary64 numbers, and an
object is the list of its members in the order in which they stand, repeated names included.
-/

namespace Statechart

/-- A JSON value. -/
inductive Json where
  | null
  | bool (b : Bool)
  | int (i : Int)
  | float (x : Binary64)
  | str (s : String)
  | arr (items : List Json)
  | obj (members : List (String × Json))
deriving Inhabited

namespace Json

/-- The value of the first member with the given name. -/
def field? : Json → String → Option Json
  | .obj members, name => members.lookup name
  | _, _ => none

end Json

end Statechart
