import Statechart.Error
import Statechart.Value.Access
import Statechart.Value.Table

/-!
# Order, sums and counts of values

Numbers of all kinds are ordered and added together; texts and sequences are ordered
lexicographically and joined; sets are ordered by inclusion. Everything else is an error.
-/

namespace Statechart.Value

/-- Whether the elements of one set are elements of another that has more. -/
def properlyWithin (xs ys : List Value) : Bool :=
  xs.length < ys.length && within xs ys

mutual

/-- Whether one value comes before another. -/
def less : Value → Value → Except Error Bool
  | .text s, .text t => .ok (s < t)
  | .bytes bs, .bytes cs => .ok (bs.map UInt8.toNat < cs.map UInt8.toNat)
  | .list _ xs, .list _ ys => lessList xs ys
  | .tuple xs, .tuple ys => lessList xs ys
  | .result u o, .result v p =>
      if same u v then if same o p then .ok false else less o p else less u v
  | .result u o, .tuple (v :: p :: ys) =>
      if same u v then if same o p then .ok (!ys.isEmpty) else less o p else less u v
  | .result u _, .tuple [v] => if same u v then .ok false else less u v
  | .result _ _, .tuple [] => .ok false
  | .tuple (x :: y :: _), .result v p =>
      if same x v then if same y p then .ok false else less y p else less x v
  | .tuple [x], .result v _ => if same x v then .ok true else less x v
  | .tuple [], .result _ _ => .ok true
  | .set _ xs, .set _ ys => .ok (properlyWithin xs ys)
  | .set _ xs, .frozenSet ys => .ok (properlyWithin xs ys)
  | .frozenSet xs, .set _ ys => .ok (properlyWithin xs ys)
  | .frozenSet xs, .frozenSet ys => .ok (properlyWithin xs ys)
  | a, b =>
      if a.isNumber && b.isNumber then
        match a.place?, b.place? with
        | some x, some y => .ok (Binary64.placeLt x y)
        | _, _ => .ok false
      else .error .wrongType

/-- The lexicographic order: the first members that differ decide. -/
def lessList : List Value → List Value → Except Error Bool
  | [], ys => .ok (!ys.isEmpty)
  | _ :: _, [] => .ok false
  | x :: xs, y :: ys => if same x y then lessList xs ys else less x y

end

/-- Whether one value comes before another or has its place. -/
def lessOrEqual (a b : Value) : Except Error Bool := do
  match a, b with
  | .set _ xs, .set _ ys => return within xs ys
  | .set _ xs, .frozenSet ys => return within xs ys
  | .frozenSet xs, .set _ ys => return within xs ys
  | .frozenSet xs, .frozenSet ys => return within xs ys
  | _, _ =>
      let l ← less a b
      return l || eq a b

/-- Puts a value into a sorted list, behind those that it does not come before. -/
def insertByOrder (v : Value) : List Value → Except Error (List Value)
  | [] => .ok [v]
  | w :: ws => do
      if ← less v w then return v :: w :: ws else return w :: (← insertByOrder v ws)

/-- Sorts values; values that cannot be ordered are an error. -/
def sorted (vs : List Value) : Except Error (List Value) :=
  vs.foldlM (fun ws v => insertByOrder v ws) []

/-- The number that a value counts as, in binary. -/
def toBinary64 : Value → Except Error Binary64
  | .float x => .ok x
  | .int i =>
      let x := Binary64.ofInt i
      match x.reading with
      | .infinite _ => .error (.fault .overflow)
      | _ => .ok x
  | .bool b => .ok (.ofInt b.toInt)
  | _ => .error .wrongType

/-- The sum of two numbers, or two texts or sequences joined. -/
def add (a b : Value) : Except Error Value :=
  match a, b with
  | .text s, .text t => .ok (.text (s ++ t))
  | .bytes bs, .bytes cs => .ok (.bytes (bs ++ cs))
  | .list _ xs, .list _ ys => .ok (.newList (xs ++ ys))
  | .tuple xs, .tuple ys => .ok (.tuple (xs ++ ys))
  | .tuple xs, .result u o => .ok (.tuple (xs ++ [u, o]))
  | .result u o, .tuple ys => .ok (.tuple (u :: o :: ys))
  | .result u o, .result v p => .ok (.tuple [u, o, v, p])
  | .float x, b => do return .float (x.add (← toBinary64 b))
  | a, .float y => do return .float ((← toBinary64 a).add y)
  | .int i, .int j => .ok (.int (i + j))
  | .int i, .bool c => .ok (.int (i + c.toInt))
  | .bool b, .int j => .ok (.int (b.toInt + j))
  | .bool b, .bool c => .ok (.int (b.toInt + c.toInt))
  | _, _ => .error .wrongType

/-- The number of places at which a run of members stands in a list, none overlapping the one
before. The first `skipped` members belong to a run that has been counted. -/
def countRuns {α : Type} [BEq α] (run : List α) : (skipped : Nat) → List α → Nat
  | _, [] => if run.isEmpty then 1 else 0
  | 0, x :: xs =>
      if run.isPrefixOf (x :: xs) then 1 + countRuns run (run.length - 1) xs
      else countRuns run 0 xs
  | skipped + 1, _ :: xs => countRuns run skipped xs

/-- How often a value occurs in a sequence. -/
def count (x y : Value) : Except Error Value :=
  let among (xs : List Value) : Except Error Value :=
    .ok (.int (xs.countP fun v => same v y))
  match x with
  | .list _ xs => among xs
  | .tuple xs => among xs
  | .result u o => among [u, o]
  | .text s =>
      match y with
      | .text t => .ok (.int (countRuns t.toList 0 s.toList))
      | _ => .error .wrongType
  | .bytes bs =>
      match y, y.integer? with
      | .bytes cs, _ => .ok (.int (countRuns cs 0 bs))
      | _, some i =>
          if 0 ≤ i ∧ i < 256 then .ok (.int (bs.count (UInt8.ofNat i.toNat)))
          else .error (.fault .wrongLength)
      | _, none => .error .wrongType
  | _ => .error .missingAttribute

end Statechart.Value
