import Statechart.Value.Access

/-!
# What an action declares

A factory returns an update and outputs, as a result, as a pair in a tuple or a list, or as a table
in which a missing part counts as null.
-/

namespace Statechart

/-- The update that an action asks for and the outputs that it adds. -/
structure Outcome where
  updates : Value
  outputs : Value

namespace Outcome

/-- The outcome that a factory's answer declares. -/
def read (answer descriptor : Value) : Except Error Outcome :=
  match answer with
  | .result u o => .ok ⟨u, o⟩
  | .tuple [u, o] => .ok ⟨u, o⟩
  | .list _ [u, o] => .ok ⟨u, o⟩
  | _ =>
      match answer.entries? with
      | some es =>
          .ok ⟨(Table.getText? es "updates").getD .null, (Table.getText? es "outputs").getD .null⟩
      | none => .error (.invalidResult descriptor answer)

end Outcome

end Statechart
