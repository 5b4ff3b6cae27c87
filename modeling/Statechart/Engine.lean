import Statechart.Step

/-!
# Transition engines

All that an interpreter needs from a machine is where it starts and how it answers an event. A
machine is one such engine under a host.
-/

namespace Statechart

/-- An initial control state and the answer to a control state, an event and an extended state. The
marks of what an answer makes start at a given identity. -/
structure Engine where
  initial : Value
  transition : (start : Identity) → (control event state : Value) → Except Error Value

namespace Engine

/-- The engine of a machine. -/
def ofMachine (h : Host) (m : Machine) : Except Error Engine := do
  return ⟨← m.initialState, fun start => m.transition h start⟩

end Engine

end Statechart
