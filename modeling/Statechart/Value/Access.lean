import Statechart.Error
import Statechart.Value.Table

/-!
# Reading parts of a value

Attributes are read by name, members of containers by key or position. A position may be counted
from the end by a negative number. Each reading that a value does not support is an error.
-/

namespace Statechart.Value

/-- The attribute of a value under a name. An object's own attributes come before those that it
shares with its class. -/
def attribute? : Value → String → Option Value
  | .object _ _ own shared, a => (own.lookup a).or (shared.lookup a)
  | .record _ fields, a => fields.lookup a
  | .named name params, a => [("name", name), ("params", params)].lookup a
  | .embedded factory name, a => [("factory", factory), ("name", name)].lookup a
  | .result updates outputs, a => [("updates", updates), ("outputs", outputs)].lookup a
  | .state value configuration actions changed, a =>
      [("value", value), ("configuration", configuration), ("actions", actions),
        ("changed", .bool changed)].lookup a
  | .callable _ (some name) _ _, a => if a = "__name__" then some (.text name) else none
  | .builtin .ellipsis, _ => none
  | .builtin .stateClass, a =>
      [("__name__", .text Builtin.stateClass.name), ("actions", .tuple []),
        ("changed", .bool false)].lookup a
  | .builtin b, a => if a = "__name__" then some (.text b.name) else none
  | _, _ => none

/-- The attributes of a value that can be listed, in order. -/
def listedAttributes : Value → List (String × Value)
  | .object _ kind own _ => if kind.slotted then [] else own
  | .record _ fields => fields
  | _ => []

/-- The whole number that a value counts as, when it is one. -/
def integer? : Value → Option Int
  | .bool b => some b.toInt
  | .int i => some i
  | _ => none

/-- The position that a whole number names in a sequence of the given size. -/
def position? (size : Nat) (i : Int) : Option Nat :=
  let j := if i < 0 then i + size else i
  if 0 ≤ j ∧ j < size then some j.toNat else none

/-- The member of a sequence at a position given by a value. -/
def atPosition (xs : List Value) (k : Value) : Except Error Value :=
  match k.integer? with
  | none => .error .wrongType
  | some i =>
      match (position? xs.length i).bind (xs[·]?) with
      | some x => .ok x
      | none => .error (.fault .indexOutOfRange)

/-- The value stored under a key. -/
def atKey (es : Table) (k : Value) : Except Error Value :=
  if k.hashable then
    match es.get? k with
    | some v => .ok v
    | none => .error .missingKey
  else .error .wrongType

/-- The member of a value under a key or at a position. -/
def index (x k : Value) : Except Error Value :=
  match x with
  | .dict _ es => atKey es k
  | .view es => atKey es k
  | .list _ xs => atPosition xs k
  | .tuple xs => atPosition xs k
  | .result u o => atPosition [u, o] k
  | .text s => atPosition (s.toList.map ofChar) k
  | .bytes bs => atPosition (bs.map fun b => .int b.toNat) k
  | _ => .error .wrongType

/-- The value under a key of a table, or a default. -/
def getD (x k d : Value) : Except Error Value :=
  match x.entries? with
  | none => .error .missingAttribute
  | some es => if k.hashable then .ok ((Table.get? es k).getD d) else .error .wrongType

/-- The values met when a value is gone through. -/
def elements (x : Value) : Except Error (List Value) :=
  match x.elements? with
  | some xs => .ok xs
  | none => .error .wrongType

/-- Whether a run of members stands somewhere in a list. -/
def occursIn {α : Type} [BEq α] (run : List α) : List α → Bool
  | [] => run.isEmpty
  | x :: xs => run.isPrefixOf (x :: xs) || occursIn run xs

/-- Whether a value is a member of another: an element of a container, a key of a table, a part of a
text. -/
def member (k x : Value) : Except Error Bool :=
  match x with
  | .dict _ es => if k.hashable then .ok (Table.contains es k) else .error .wrongType
  | .view es => if k.hashable then .ok (Table.contains es k) else .error .wrongType
  | .list _ xs => .ok (k.isIn xs)
  | .tuple xs => .ok (k.isIn xs)
  | .result u o => .ok (k.isIn [u, o])
  | .set _ xs => if k.hashable then .ok (k.isIn xs) else .error .wrongType
  | .frozenSet xs => if k.hashable then .ok (k.isIn xs) else .error .wrongType
  | .text s =>
      match k with
      | .text t => .ok (occursIn t.toList s.toList)
      | _ => .error .wrongType
  | .bytes bs =>
      match k with
      | .bytes cs => .ok (occursIn cs bs)
      | .int i => if 0 ≤ i ∧ i < 256 then .ok (bs.contains (UInt8.ofNat i.toNat))
          else .error (.fault .wrongLength)
      | .bool b => .ok (bs.contains (UInt8.ofNat b.toNat))
      | _ => .error .wrongType
  | _ => .error .wrongType

end Statechart.Value
