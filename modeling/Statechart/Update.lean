import Statechart.Host
import Statechart.Value.Copy
import Statechart.Value.Equality

/-!
# Copy-on-write updates

An update is a recipe that is run on a draft, which is a deep copy of the state. A recipe either
edits its draft and returns null, or leaves the draft alone and returns the next state; one that
does both is refused. The state itself is never changed. The marks of the draft start at a given
identity, and those of what the recipe makes follow them.
-/

namespace Statechart

/-- Runs a recipe on a draft: the draft afterwards and what the recipe returned. The length of a
draft is the only fixed function that takes one argument. -/
def Host.edited (h : Host) (start : Identity) (recipe draft : Value) :
    Except Error (Value × Value) :=
  match recipe with
  | .callable _ _ code captured => h.edit start code captured draft
  | .builtin .length =>
      match draft.size? with
      | some n => .ok (draft, .int n)
      | none => .error .wrongType
  | _ => .error .wrongType

/-- The next state from what a recipe left behind. -/
def Update.settle (state draft returned : Value) : Except Error Value :=
  match returned with
  | .null => .ok draft
  | _ => if draft.eq state then .ok returned else .error (.recipeChangedAndReturned returned)

/-- Applies a recipe to a state; null stands for no update. -/
def Update.copyOnWrite (h : Host) (start : Identity) (state recipe : Value) :
    Except Error Value :=
  match recipe with
  | .null => .ok state
  | _ =>
      if recipe.isCallable then
        match state.copy? start with
        | none => .error .wrongType
        | some (draft, next) => do
            let (draft, returned) ← h.edited next recipe draft
            Update.settle state draft returned
      else .error (.recipeNotCallable recipe)

end Statechart
