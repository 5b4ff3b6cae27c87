import Statechart.Making
import Statechart.Patch.Document

/-!
# Patch operations

An `Operation` is a checked step of a patch: what it does and the pointer that it does it at, with
the fields it was given. All operations are checked before the first is applied; the operands that
only some of them need are looked up when the operation is applied.
-/

namespace Statechart.Patch

/-- What an operation does. -/
inductive Verb where
  | add
  | remove
  | replace
  | move
  | test
  | copy
deriving DecidableEq

/-- The verb with the given name. -/
def Verb.ofName? : String → Option Verb
  | "add" => some .add
  | "remove" => some .remove
  | "replace" => some .replace
  | "move" => some .move
  | "test" => some .test
  | "copy" => some .copy
  | _ => none

/-- An operation. -/
structure Operation where
  verb : Verb
  path : Pointer
  fields : Table

/-- Checks an operation: it is a table with a known `op` and a `path` that is a pointer. -/
def Operation.read (raw : Value) : Except PatchFault Operation :=
  match raw.entries? with
  | none => .error .invalid
  | some fields =>
      match Table.getText? fields "op", Table.getText? fields "path" with
      | some (.text op), some (.text path) =>
          match Verb.ofName? op with
          | none => .error .invalid
          | some verb => do return ⟨verb, ← Pointer.read path, fields⟩
      | _, _ => .error .invalid

/-- The value that an operation was given. -/
def Operation.value (o : Operation) : Except PatchFault Value :=
  match Table.getText? o.fields "value" with
  | some v => .ok v
  | none => .error .invalid

/-- The pointer that an operation takes its value from. -/
def Operation.source (o : Operation) : Except PatchFault Pointer :=
  match Table.getText? o.fields "from" with
  | some (.text s) => Pointer.read s
  | _ => .error .invalid

/-- Whether one pointer leads to a place above another. -/
def Pointer.isAbove (p q : Pointer) : Bool :=
  p.isPrefixOf q && p.length < q.length

/-- Adds a value at a pointer; at the root it becomes the document. -/
def addAt (v doc : Value) : Pointer → Except PatchFault Value
  | [] => .ok v
  | part :: rest => change (insertAt v) doc part rest

/-- Removes what a pointer leads to. -/
def removeFrom (doc : Value) : Pointer → Except PatchFault Value
  | [] => .error .conflict
  | part :: rest => change removeAt doc part rest

/-- What a pointer leads to, for the operations that take a value from there. -/
def taken (doc : Value) : Pointer → Except PatchFault Value
  | [] => .ok doc
  | part :: rest => do
      match ← last doc part rest with
      | (_, .pastEnd) => .error .pointer
      | (container, s) =>
          match at? container s with
          | some v => return v
          | none => .error .notFound

/-- What a pointer leads to, for a test: nothing is past the end of a sequence. -/
def tested (doc : Value) : Pointer → Except PatchFault (Option Value)
  | [] => .ok (some doc)
  | part :: rest => do
      match ← last doc part rest with
      | (_, .pastEnd) => return none
      | (container, s) =>
          match at? container s with
          | some v => return some v
          | none => .error .pointer

/-- A step of a patch that can only fail as one. -/
def liftPatch {α : Type} (r : Except PatchFault α) : Except Error α :=
  r.mapError .patch

/-- Whether a place is inside a value: the container in which a pointer ends stands in the value. -/
def isInside (v doc : Value) : Pointer → Except PatchFault Bool
  | [] => return false
  | part :: rest => do
      let (container, _) ← last doc part rest
      return container.containerMark.any v.holds

/-- Moves a value; a move to its own place changes nothing. A container that stands in several
places may be moved into itself, which would make a document without end. -/
def moveValue (doc : Value) (source path : Pointer) : Except PatchFault Value := do
  if source.isAbove path then .error .conflict
  else
    let v ← taken doc source
    if source = path then return doc
    else
      let rest ← removeFrom doc source
      let moved ← addAt v rest path
      if ← isInside v rest path then .error .endless else return moved

/-- Compares what a pointer leads to with the value given. -/
def testValue (o : Operation) (doc : Value) : Except PatchFault Value := do
  let found ← (tested doc o.path).mapError fun _ => .testFailed
  let v ← o.value
  match found with
  | some w => if equal w v then return doc else .error .testFailed
  | none => .error .testFailed

/-- Applies an operation to a document. What stands in the operation is put in as `put` makes it,
and what is copied from another place of the document as a deep copy. -/
def Operation.apply (put : Value → Making Value) (o : Operation) (doc : Value) : Making Value := do
  match o.verb with
  | .add =>
      let v ← put (← liftPatch o.value)
      liftPatch (addAt v doc o.path)
  | .remove => liftPatch (removeFrom doc o.path)
  | .replace =>
      let v ← put (← liftPatch o.value)
      match o.path with
      | [] => return v
      | part :: rest => liftPatch (change (replaceAt v) doc part rest)
  | .move => liftPatch do moveValue doc (← o.source) o.path
  | .copy =>
      let v ← Making.copied (← liftPatch do taken doc (← o.source))
      liftPatch (addAt v doc o.path)
  | .test => liftPatch (testValue o doc)

end Statechart.Patch
