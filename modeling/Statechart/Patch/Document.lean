import Statechart.Patch.Pointer
import Statechart.Value.Mark
import Statechart.Value.Table

/-!
# Reading and changing a document

`last` walks the parts of a pointer from the left up to the container in which the last one is
looked up, and fails where a part leads nowhere. `change` edits that container; as a document has a
mark on each of its containers, the edit shows in all places where the container stands.
-/

namespace Statechart.Patch

/-- The value at a step, if it is there. -/
def at? (doc : Value) : Step → Option Value
  | .member name => doc.entries?.bind fun es => Table.getText? es name
  | .position n => (members? doc).bind fun xs => xs[n]?
  | .pastEnd => none

/-- The container in which the last part of a pointer is looked up, and the step there. -/
def last (doc : Value) : (part : String) → Pointer → Except PatchFault (Value × Step)
  | part, [] => do return (doc, ← step doc part)
  | part, next :: rest => do
      match at? doc (← step doc part) with
      | some v => last v next rest
      | none => .error .pointer

/-- Changes the container in which the last part of a pointer is looked up. -/
def change (f : Value → Step → Except PatchFault Value) (doc : Value) (part : String)
    (rest : Pointer) : Except PatchFault Value := do
  let (container, s) ← last doc part rest
  return doc.edited container (← f container s)

/-- Puts a value at a step of a container: before the member of a list at that position, or under a
name. -/
def insertAt (v : Value) (doc : Value) (s : Step) : Except PatchFault Value :=
  match s, doc with
  | .pastEnd, .list m xs => .ok (.list m (xs ++ [v]))
  | .position n, .list m xs =>
      if n ≤ xs.length then .ok (.list m (xs.take n ++ v :: xs.drop n)) else .error .conflict
  | .member name, .dict m es => .ok (.dict m (Table.insert es (.text name) v))
  | _, _ => .error .conflict

/-- Removes the member at a step of a container. -/
def removeAt (doc : Value) (s : Step) : Except PatchFault Value :=
  match s, doc with
  | .pastEnd, _ => .error .pointer
  | .position n, .list m xs =>
      if n < xs.length then .ok (.list m (xs.eraseIdx n)) else .error .notFound
  | .member name, .dict m es =>
      if Table.contains es (.text name) then .ok (.dict m (Table.erase es (.text name)))
      else .error .notFound
  | _, _ => .error .conflict

/-- Replaces the member at a step of a container. -/
def replaceAt (v : Value) (doc : Value) (s : Step) : Except PatchFault Value :=
  match s, doc with
  | .pastEnd, .list .. => .error .invalid
  | .position n, .list m xs =>
      if n < xs.length then .ok (.list m (xs.set n v)) else .error .notFound
  | .member name, .dict m es =>
      if Table.contains es (.text name) then .ok (.dict m (Table.insert es (.text name) v))
      else .error .notFound
  | _, _ => .error .conflict

mutual

/-- Equality of documents: truth values equal only truth values, numbers are compared by value,
sequences member by member, and tables regardless of order. -/
def equal (v w : Value) : Bool :=
  match v with
  | .bool a =>
      match w with
      | .bool b => a == b
      | _ => false
  | .list _ xs => (sequence? w).any fun ys => equalList xs ys
  | .tuple xs => (sequence? w).any fun ys => equalList xs ys
  | .result u o =>
      match sequence? w with
      | some [x, y] => equal u x && equal o y
      | _ => false
  | .dict _ es => w.entries?.any fun ds => es.length == ds.length && equalEntries es ds
  | .view es => w.entries?.any fun ds => es.length == ds.length && equalEntries es ds
  | v =>
      match w with
      | .bool _ => false
      | w => v.eq w

/-- Equality of sequences. -/
def equalList : List Value → List Value → Bool
  | [], [] => true
  | x :: xs, y :: ys => equal x y && equalList xs ys
  | _, _ => false

/-- Whether each entry of the first table stands in the second. -/
def equalEntries : List (Value × Value) → List (Value × Value) → Bool
  | [], _ => true
  | (k, v) :: es, ds =>
      (match ds.find? fun d => k.same d.1 with
        | some d => equal v d.2
        | none => false) && equalEntries es ds

end

end Statechart.Patch
