import Statechart.Patch.Library

/-!
# Running callables

A `Host` knows what the code behind a handle does, and it brings the library that patches are left
to. Everything in this library that runs guards, factories, reducers or recipes does so through a
host, so its laws hold for any behaviour of them.
-/

namespace Statechart

/-- How callables are run: `call` gives what a call returns, and `edit` runs a recipe on a draft and
gives the draft afterwards together with what the recipe returned. Either is given the identity at
which the marks of the things that it makes start. Documents are patched by `patches`. -/
structure Host where
  call : (start : Identity) → (code : Nat) → (captured args : List Value) → Except Error Value
  edit : (start : Identity) → (code : Nat) → (captured : List Value) → (draft : Value) →
    Except Error (Value × Value)
  patches : Patch.Library

end Statechart
