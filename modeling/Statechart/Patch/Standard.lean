import Statechart.Json.Encoding
import Statechart.Patch.Library
import Statechart.Patch.Operation

/-!
# The library of JSON patch operations

`Library.standard` applies the operations of RFC 6902 to dynamic values. A patch may also be given
as JSON text, as the bytes of one or as any other sequence of operations. The library puts in a deep
copy of a value that stands in an operation; `Library.putting` leaves open what is put in.
-/

namespace Statechart.Patch

/-- The table of named values: a name that occurs once has its value, and one that occurs more often
has the list of its values, at its first position. -/
def gather (ms : List (String × Value)) : Table :=
  (ms.map Prod.fst).eraseDups.map fun k =>
    match (ms.filter fun m => m.1 == k).map Prod.snd with
    | [v] => (.text k, v)
    | vs => (.text k, .newList vs)

mutual

/-- The value of a JSON value in a patch: the values of a repeated name are collected in a list. -/
def collected : Json → Value
  | .null => .null
  | .bool b => .bool b
  | .int i => .int i
  | .float x => .float x
  | .str s => .text s
  | .arr xs => .newList (collectedList xs)
  | .obj ms => .newTable (gather (collectedMembers ms))

/-- The values of an array. -/
def collectedList : List Json → List Value
  | [] => []
  | x :: xs => collected x :: collectedList xs

/-- The names and values of an object. -/
def collectedMembers : List (String × Json) → List (String × Value)
  | [] => []
  | (k, x) :: ms => (k, collected x) :: collectedMembers ms

end

/-- The value of a patch that is given as text. -/
def ofText (s : String) : Except Error Value :=
  (Json.read s).map collected |>.mapError .patchText

/-- The value of a patch that may be given as text or as the bytes of one. -/
def ofValue : Value → Except Error Value
  | .text s => ofText s
  | .bytes bs =>
      match Json.decode? bs with
      | some s => ofText s
      | none => .error .undecodable
  | v => .ok v

/-- The operations that a value lists. -/
def raws (patch : Value) : Except PatchFault (List Value) :=
  match patch with
  | .text _ => .error .invalid
  | _ =>
      if patch.isMapping then .error .invalid
      else
        match patch.elements? with
        | none => .error .invalid
        | some raws => .ok raws

/-- The operation that a value is. -/
def operation (raw : Value) : Except Error Operation :=
  liftPatch (Operation.read raw)

namespace Library

/-- The library that puts in what `put` makes of a value. -/
def putting (put : Value → Making Value) : Library where
  listed patch := do liftPatch (raws (← ofValue patch))
  check raw := (operation raw).map fun _ => ()
  step raw doc := do (← operation raw).apply put doc

/-- The library that puts in a deep copy of a value. -/
def standard : Library :=
  putting Making.copied

end Library

end Statechart.Patch
