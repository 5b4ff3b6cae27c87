import Statechart.Value.Access

/-!
# Joining outputs

The outputs of the actions of one event are joined to one list. What counts as a batch of outputs is
anything that can be gone through; null adds nothing.
-/

namespace Statechart.Output

/-- The outputs so far; anything false stands for none. -/
def accumulated (acc : Value) : Except Error (List Value) :=
  if acc.truthy then acc.elements else .ok []

/-- The outputs of a batch. -/
def batch : Value → Except Error (List Value)
  | .null => .ok []
  | v => v.elements

/-- The outputs so far followed by those of a batch. -/
def concat (acc new : Value) : Except Error Value := do
  let xs ← accumulated acc
  return .newList (xs ++ (← batch new))

end Statechart.Output
