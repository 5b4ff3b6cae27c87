import Statechart.Number.Binary64

/-!
# Dynamic values

Events, contexts, actions, outputs and control states are values of one type. A value is plain data,
a record with named fields, an object with attributes, or a callable. Callables are handles: what a
handle does is up to the `Host` that is asked to run it, so nothing in this library looks inside
one.

Containers that can change, objects and callables carry a mark that tells them apart from others of
the same contents: two of them with one mark are one thing in two places, and an edit of it shows in
both. A value without a mark is new and in one place only.
-/

namespace Statechart

/-- The fixed objects of the library that can occur as values. -/
inductive Builtin where
  | copyOnWrite
  | jsonPatch
  | concat
  | length
  | stateClass
  | ellipsis
deriving DecidableEq

/-- The name of a fixed object. -/
def Builtin.name : Builtin → String
  | .copyOnWrite => "copy_on_write_reducer"
  | .jsonPatch => "json_patch_reducer"
  | .concat => "concat_outputs"
  | .length => "len"
  | .stateClass => "MachineState"
  | .ellipsis => "Ellipsis"

/-- What tells a thing apart from all others: the version of the snapshot that it was made for, the
call that made it, and its number among the things made there. -/
structure Identity where
  version : Nat
  call : Nat
  serial : Nat
deriving DecidableEq, Inhabited

/-- The identity of a thing, if it has been given one. -/
abbrev Mark := Option Identity

/-- The identity that follows. -/
def Identity.next (i : Identity) : Identity :=
  { i with serial := i.serial + 1 }

/-- A part of the text that objects show themselves as: words, the address of the object, or its
attributes. -/
inductive Feature where
  | words (s : String)
  | address
  | attributes
deriving DecidableEq

/-- What a class settles for its objects besides the attributes that they share: its name, how they
show themselves, and whether their attributes can only be read and not listed. -/
structure ObjectClass where
  name : String
  look : List Feature
  slotted : Bool
deriving DecidableEq

/-- A dynamic value. -/
inductive Value where
  | null
  | bool (b : Bool)
  | int (i : Int)
  | float (x : Binary64)
  | text (s : String)
  | bytes (bs : List UInt8)
  | list (mark : Mark) (xs : List Value)
  | tuple (xs : List Value)
  /-- A set that can change, as the list of its elements without repetition. -/
  | set (mark : Mark) (xs : List Value)
  | frozenSet (xs : List Value)
  /-- A table from keys to values in insertion order, no two keys being the same. -/
  | dict (mark : Mark) (es : List (Value × Value))
  /-- A read-only view of a table. -/
  | view (es : List (Value × Value))
  /-- A frozen record of the class `name`. -/
  | record (name : String) (fields : List (String × Value))
  /-- The descriptor of an action that is looked up by name. -/
  | named (name params : Value)
  /-- The descriptor of an action that carries its own factory. -/
  | embedded (factory name : Value)
  /-- What an action declares: an update and outputs. -/
  | result (updates outputs : Value)
  /-- The control state of a machine. -/
  | state (value configuration actions : Value) (changed : Bool)
  /-- An object of a class, with attributes of its own and attributes shared through the class. -/
  | object (mark : Mark) (kind : ObjectClass) (own shared : List (String × Value))
  /-- A handle on the code `code`, together with the values that it was created with. -/
  | callable (mark : Mark) (name : Option String) (code : Nat) (captured : List Value)
  | builtin (b : Builtin)
deriving Inhabited

namespace Value

/-- A new list. -/
def newList (xs : List Value) : Value :=
  .list none xs

/-- A new table with the given entries. -/
def newTable (es : List (Value × Value)) : Value :=
  .dict none es

/-- The new table with text keys, all different. -/
def table (es : List (String × Value)) : Value :=
  newTable (es.map fun e => (.text e.1, e.2))

/-- The names under which values are spoken of. -/
def typeName : Value → String
  | .null => "NoneType"
  | .bool _ => "bool"
  | .int _ => "int"
  | .float _ => "float"
  | .text _ => "str"
  | .bytes _ => "bytes"
  | .list .. => "list"
  | .tuple _ => "tuple"
  | .set .. => "set"
  | .frozenSet _ => "frozenset"
  | .dict .. => "dict"
  | .view _ => "mappingproxy"
  | .record name _ => name
  | .named .. => "Named"
  | .embedded .. => "Embedded"
  | .result .. => "ActionResult"
  | .state .. => "MachineState"
  | .object _ kind _ _ => kind.name
  | .callable .. => "Fn"
  | .builtin .length => "builtin_function_or_method"
  | .builtin .stateClass => "type"
  | .builtin .ellipsis => "ellipsis"
  | .builtin _ => "function"

/-- Whether a value can be called. -/
def isCallable : Value → Bool
  | .callable .. => true
  | .builtin .ellipsis => false
  | .builtin _ => true
  | _ => false

/-- The entries of a table or of a view of one. -/
def entries? : Value → Option (List (Value × Value))
  | .dict _ es => some es
  | .view es => some es
  | _ => none

/-- Whether a value is a table or a view of one. -/
def isMapping (v : Value) : Bool :=
  v.entries?.isSome

/-- The truth of a value: empty containers, zeros, `false` and `null` are false. -/
def truthy : Value → Bool
  | .null => false
  | .bool b => b
  | .int i => i != 0
  | .float x => !x.isZero
  | .text s => !s.isEmpty
  | .bytes bs => !bs.isEmpty
  | .list _ xs => !xs.isEmpty
  | .tuple xs => !xs.isEmpty
  | .set _ xs => !xs.isEmpty
  | .frozenSet xs => !xs.isEmpty
  | .dict _ es => !es.isEmpty
  | .view es => !es.isEmpty
  | _ => true

/-- The text of a text. -/
def text? : Value → Option String
  | .text s => some s
  | _ => none

/-- One character as a text. -/
def ofChar (c : Char) : Value :=
  .text (String.singleton c)

/-- The values met when a value is gone through, for those that can be. -/
def elements? : Value → Option (List Value)
  | .list _ xs => some xs
  | .tuple xs => some xs
  | .set _ xs => some xs
  | .frozenSet xs => some xs
  | .result u o => some [u, o]
  | .dict _ es => some (es.map Prod.fst)
  | .view es => some (es.map Prod.fst)
  | .text s => some (s.toList.map ofChar)
  | .bytes bs => some (bs.map fun b => .int b.toNat)
  | _ => none

/-- The number of elements of a value, for those that have one. -/
def size? (v : Value) : Option Nat :=
  v.elements?.map List.length

mutual

/-- Whether a value can be a key or an element of a set: it holds nothing that can change. -/
def hashable : Value → Bool
  | .list .. => false
  | .set .. => false
  | .dict .. => false
  | .view _ => false
  | .tuple xs => allHashable xs
  | .record _ fields => fieldsHashable fields
  | .named name params => hashable name && hashable params
  | .embedded factory name => hashable factory && hashable name
  | .result u o => hashable u && hashable o
  | .state value configuration actions _ =>
      hashable value && hashable configuration && hashable actions
  | _ => true

/-- Whether all values of a list are hashable. -/
def allHashable : List Value → Bool
  | [] => true
  | x :: xs => hashable x && allHashable xs

/-- Whether all fields are hashable. -/
def fieldsHashable : List (String × Value) → Bool
  | [] => true
  | (_, x) :: fs => hashable x && fieldsHashable fs

end

/-- The number that a value counts as, as a place on the extended line; `none` for values that are
no numbers and for not-a-number. -/
def place? : Value → Option (Int × Int)
  | .bool b => some (Binary64.placeOfInt b.toInt)
  | .int i => some (Binary64.placeOfInt i)
  | .float x => x.place
  | _ => none

/-- Whether a value counts as a number. -/
def isNumber : Value → Bool
  | .bool _ => true
  | .int _ => true
  | .float _ => true
  | _ => false

end Value

end Statechart
