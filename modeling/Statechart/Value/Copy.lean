import Statechart.Value.Mark

/-!
# Deep copies

A deep copy has the same contents in new containers and objects, each with a mark of its own. What
stood in several places is copied once, so the copy stands in all of them. Callables are not copied,
and a read-only view cannot be.
-/

namespace Statechart.Value

mutual

/-- Whether a value can be copied: it holds no read-only view. -/
def copiable : Value → Bool
  | .list _ xs => allCopiable xs
  | .tuple xs => allCopiable xs
  | .set _ xs => allCopiable xs
  | .frozenSet xs => allCopiable xs
  | .dict _ es => entriesCopiable es
  | .view _ => false
  | .record _ fields => fieldsCopiable fields
  | .named name params => copiable name && copiable params
  | .embedded factory name => copiable factory && copiable name
  | .result u o => copiable u && copiable o
  | .state value configuration actions _ =>
      copiable value && copiable configuration && copiable actions
  | .object _ _ own _ => fieldsCopiable own
  | _ => true

/-- Whether all values of a list can be copied. -/
def allCopiable : List Value → Bool
  | [] => true
  | x :: xs => copiable x && allCopiable xs

/-- Whether all entries of a table can be copied. -/
def entriesCopiable : List (Value × Value) → Bool
  | [] => true
  | (k, v) :: es => copiable k && copiable v && entriesCopiable es

/-- Whether all fields can be copied. -/
def fieldsCopiable : List (String × Value) → Bool
  | [] => true
  | (_, v) :: fs => copiable v && fieldsCopiable fs

end

/-- A copy in the making: the next new identity, and the copies of the things met so far. -/
structure Copying where
  next : Identity
  copies : List (Identity × Value)

/-- Takes a new identity. -/
def Copying.take : StateM Copying Identity :=
  modifyGet fun c => (c.next, { c with next := c.next.next })

/-- Copies a thing, unless it has been copied before. -/
def Copying.once (m : Mark) (make : StateM Copying Value) : StateM Copying Value := do
  match m with
  | none => make
  | some i =>
      match (← get).copies.lookup i with
      | some v => return v
      | none => do
          let v ← make
          modify fun c => { c with copies := (i, v) :: c.copies }
          return v

mutual

/-- A deep copy. -/
def copy : Value → StateM Copying Value
  | .float x => do
      if x.isNamed then return .float x else return .float (← Copying.take).nan
  | .list m xs => Copying.once m do return .list (some (← Copying.take)) (← copyList xs)
  | .tuple xs => do return .tuple (← copyList xs)
  | .set m xs => Copying.once m do return .set (some (← Copying.take)) (← copyList xs)
  | .frozenSet xs => do return .frozenSet (← copyList xs)
  | .dict m es => Copying.once m do return .dict (some (← Copying.take)) (← copyEntries es)
  | .record name fields => do return .record name (← copyFields fields)
  | .named name params => do return .named (← copy name) (← copy params)
  | .embedded factory name => do return .embedded (← copy factory) (← copy name)
  | .result u o => do return .result (← copy u) (← copy o)
  | .state value configuration actions changed => do
      return .state (← copy value) (← copy configuration) (← copy actions) changed
  | .object m kind own shared =>
      Copying.once m do return .object (some (← Copying.take)) kind (← copyFields own) shared
  | .callable none name code captured => do
      return .callable (some (← Copying.take)) name code captured
  | v => return v

/-- Copies of the values of a list. -/
def copyList : List Value → StateM Copying (List Value)
  | [] => return []
  | x :: xs => do return (← copy x) :: (← copyList xs)

/-- Copies of the entries of a table. -/
def copyEntries : List (Value × Value) → StateM Copying (List (Value × Value))
  | [] => return []
  | (k, v) :: es => do return (← copy k, ← copy v) :: (← copyEntries es)

/-- Copies of fields. -/
def copyFields : List (String × Value) → StateM Copying (List (String × Value))
  | [] => return []
  | (n, v) :: fs => do return (n, ← copy v) :: (← copyFields fs)

end

/-- A deep copy whose marks start at an identity, and the identity after them. There is none of a
value that holds a read-only view. -/
def copy? (v : Value) (start : Identity) : Option (Value × Identity) :=
  if v.copiable then
    let r := v.copy.run ⟨start, []⟩
    some (r.1, r.2.next)
  else none

end Statechart.Value
