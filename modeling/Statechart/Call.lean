import Statechart.Output
import Statechart.Update

/-!
# Calling a value

`Host.apply` calls a callable with arguments. The host runs the handles; the fixed functions of the
library are run here, and everything else, or a wrong number of arguments, is an error. The marks of
what a call makes start at the identity it is given.
-/

namespace Statechart

/-- Calls a fixed function. -/
def Builtin.apply (h : Host) (start : Identity) (b : Builtin) (args : List Value) :
    Except Error Value :=
  match b, args with
  | .copyOnWrite, [state, recipe] => Update.copyOnWrite h start state recipe
  | .jsonPatch, [doc, patch] => Patch.apply h.patches start doc patch
  | .concat, [acc, new] => Output.concat acc new
  | .length, [v] =>
      match v.size? with
      | some n => .ok (.int n)
      | none => .error .wrongType
  | .stateClass, [v, c] => .ok (.state v c (.tuple []) false)
  | .stateClass, [v, c, as] => .ok (.state v c as false)
  | .stateClass, [v, c, as, b] => .ok (.state v c as b.truthy)
  | _, _ => .error .wrongType

/-- Calls a value with arguments. -/
def Host.apply (h : Host) (start : Identity) (f : Value) (args : List Value) :
    Except Error Value :=
  match f with
  | .callable _ _ code captured => h.call start code captured args
  | .builtin b => b.apply h start args
  | _ => .error .wrongType

end Statechart
