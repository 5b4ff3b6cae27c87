import Statechart.Value.Basic

/-!
# Marks

A call marks what it is given and what it returns, so that things which stand in several places from
then on are known as one. `Value.mark` gives marks to all that have none, and `Value.put` edits a
marked container in all places where it stands.
-/

namespace Statechart

/-- The not-a-number that is told apart from others by an identity. -/
def Identity.nan (i : Identity) : Binary64 :=
  let n := (i.version * twoPow 18 + i.call) * twoPow 20 + i.serial
  .nan (2 + n % (twoPow 51 - 2))

/-- Takes the next identity of a supply. -/
def Identity.take : StateM Identity Identity :=
  modifyGet fun i => (i, i.next)

/-- The mark of a thing, which is a new one if it has none. -/
def Mark.claim (m : Mark) : StateM Identity Mark := do
  match m with
  | some i => return some i
  | none => return some (← Identity.take)

namespace Value

mutual

/-- Marks all things in a value that have no mark. -/
def mark : Value → StateM Identity Value
  | .float x => do
      if x.isNamed then return .float x else return .float (← Identity.take).nan
  | .list m xs => do return .list (← Mark.claim m) (← markList xs)
  | .tuple xs => do return .tuple (← markList xs)
  | .set m xs => do return .set (← Mark.claim m) (← markList xs)
  | .frozenSet xs => do return .frozenSet (← markList xs)
  | .dict m es => do return .dict (← Mark.claim m) (← markEntries es)
  | .view es => do return .view (← markEntries es)
  | .record name fields => do return .record name (← markFields fields)
  | .named name params => do return .named (← mark name) (← mark params)
  | .embedded factory name => do return .embedded (← mark factory) (← mark name)
  | .result u o => do return .result (← mark u) (← mark o)
  | .state value configuration actions changed => do
      return .state (← mark value) (← mark configuration) (← mark actions) changed
  | .object m kind own shared => do
      return .object (← Mark.claim m) kind (← markFields own) (← markFields shared)
  | .callable m name code captured => do return .callable (← Mark.claim m) name code captured
  | v => return v

/-- Marks all things in the values of a list. -/
def markList : List Value → StateM Identity (List Value)
  | [] => return []
  | x :: xs => do return (← mark x) :: (← markList xs)

/-- Marks all things in the entries of a table. -/
def markEntries : List (Value × Value) → StateM Identity (List (Value × Value))
  | [] => return []
  | (k, v) :: es => do return (← mark k, ← mark v) :: (← markEntries es)

/-- Marks all things in fields. -/
def markFields : List (String × Value) → StateM Identity (List (String × Value))
  | [] => return []
  | (n, v) :: fs => do return (n, ← mark v) :: (← markFields fs)

end

/-- The mark of a container that can change. -/
def containerMark : Value → Mark
  | .list m _ => m
  | .set m _ => m
  | .dict m _ => m
  | _ => none

mutual

/-- Puts a value in place of the container with an identity, wherever it stands. -/
def put (i : Identity) (w : Value) : Value → Value
  | .list m xs => if m = some i then w else .list m (putList i w xs)
  | .tuple xs => .tuple (putList i w xs)
  | .set m xs => if m = some i then w else .set m (putList i w xs)
  | .frozenSet xs => .frozenSet (putList i w xs)
  | .dict m es => if m = some i then w else .dict m (putEntries i w es)
  | .view es => .view (putEntries i w es)
  | .record name fields => .record name (putFields i w fields)
  | .named name params => .named (put i w name) (put i w params)
  | .embedded factory name => .embedded (put i w factory) (put i w name)
  | .result u o => .result (put i w u) (put i w o)
  | .state value configuration actions changed =>
      .state (put i w value) (put i w configuration) (put i w actions) changed
  | .object m kind own shared => .object m kind (putFields i w own) shared
  | v => v

/-- Puts a value in place of a container in the values of a list. -/
def putList (i : Identity) (w : Value) : List Value → List Value
  | [] => []
  | x :: xs => put i w x :: putList i w xs

/-- Puts a value in place of a container in the entries of a table. -/
def putEntries (i : Identity) (w : Value) : List (Value × Value) → List (Value × Value)
  | [] => []
  | (k, v) :: es => (put i w k, put i w v) :: putEntries i w es

/-- Puts a value in place of a container in fields. -/
def putFields (i : Identity) (w : Value) : List (String × Value) → List (String × Value)
  | [] => []
  | (n, v) :: fs => (n, put i w v) :: putFields i w fs

end

mutual

/-- Whether the container with an identity stands in a value. -/
def holds (i : Identity) : Value → Bool
  | .list m xs => m == some i || anyHolds i xs
  | .tuple xs => anyHolds i xs
  | .set m xs => m == some i || anyHolds i xs
  | .frozenSet xs => anyHolds i xs
  | .dict m es => m == some i || entriesHold i es
  | .view es => entriesHold i es
  | .record _ fields => fieldsHold i fields
  | .named name params => holds i name || holds i params
  | .embedded factory name => holds i factory || holds i name
  | .result u o => holds i u || holds i o
  | .state value configuration actions _ =>
      holds i value || holds i configuration || holds i actions
  | .object _ _ own _ => fieldsHold i own
  | _ => false

/-- Whether a container stands in a value of a list. -/
def anyHolds (i : Identity) : List Value → Bool
  | [] => false
  | x :: xs => holds i x || anyHolds i xs

/-- Whether a container stands in a key or a value of a table. -/
def entriesHold (i : Identity) : List (Value × Value) → Bool
  | [] => false
  | (k, v) :: es => holds i k || holds i v || entriesHold i es

/-- Whether a container stands in fields. -/
def fieldsHold (i : Identity) : List (String × Value) → Bool
  | [] => false
  | (_, v) :: fs => holds i v || fieldsHold i fs

end

/-- Puts the edited form of a container in all places of a value where the container stands. -/
def edited (whole container changed : Value) : Value :=
  match container.containerMark with
  | some i => put i changed whole
  | none => whole

end Value

end Statechart
