import Statechart.Making

/-!
# Patches

A patch is a list of operations. What an operation is, which ones are accepted and what they do to a
document is left to a `Library`. `Library.patched` checks each operation of a patch on its own,
makes a deep copy of the document and applies the operations to it in turn, so the document given is
never changed. `Patch.apply` is the reducer on top of it, for which a patch that is false leaves the
document as it is.
-/

namespace Statechart.Patch

/-- A library for operations on documents: `listed` gives the operations of a patch that is no list
of them, `check` accepts or refuses an operation, and `step` applies one to a document. -/
structure Library where
  listed : (patch : Value) → Except Error (List Value)
  check : (raw : Value) → Except Error Unit
  step : (raw doc : Value) → Making Value

namespace Library

variable (lib : Library)

/-- The operations of a patch. -/
def operations : (patch : Value) → Except Error (List Value)
  | .list _ raws => .ok raws
  | patch => lib.listed patch

/-- Checks operations, each on its own. -/
def checkAll : List Value → Except Error Unit
  | [] => .ok ()
  | raw :: raws => do
      lib.check raw
      checkAll raws

/-- Applies operations in turn. -/
def stepAll : List Value → Value → Making Value
  | [], doc => return doc
  | raw :: raws, doc => do stepAll raws (← lib.step raw doc)

/-- Applies the operations of a patch, which are checked first, to a deep copy of a document. -/
def patched (doc patch : Value) : Making Value := do
  let raws ← lib.operations patch
  lib.checkAll raws
  lib.stepAll raws (← Making.copied doc)

end Library

/-- Applies a patch to a document. The marks of the copy and of what is put in start at a given
identity. -/
def apply (lib : Library) (start : Identity) (doc patch : Value) : Except Error Value :=
  if patch.truthy then (lib.patched doc patch).run' start else .ok doc

end Statechart.Patch
