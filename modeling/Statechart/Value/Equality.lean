import Statechart.Value.Basic

/-!
# Equality of values

`Value.same` is the equality used between the members of containers and between keys: numbers are
compared by value across their types, tables and sets regardless of order, records by class and
fields, and objects and callables by their marks, of which a new one has none and differs from all
others. A not-a-number equals itself there; `Value.eq`, the equality of two values on their own,
lets it differ from everything.
-/

namespace Statechart.Value

/-- Whether two marks are those of one thing. -/
def sameMark (a b : Mark) : Bool :=
  a.isSome && a == b

mutual

/-- Equality as a member of a container. -/
def same : Value → Value → Bool
  | .null, .null => true
  | .float x, .float y => (x == y && x.isNamed) || (x.place.isSome && x.place == y.place)
  | .text s, .text t => s == t
  | .bytes bs, .bytes cs => bs == cs
  | .list _ xs, .list _ ys => sameList xs ys
  | .tuple xs, .tuple ys => sameList xs ys
  | .result u o, .tuple [v, p] => same u v && same o p
  | .tuple [u, o], .result v p => same u v && same o p
  | .result u o, .result v p => same u v && same o p
  | .set _ xs, .set _ ys => xs.length == ys.length && within xs ys
  | .set _ xs, .frozenSet ys => xs.length == ys.length && within xs ys
  | .frozenSet xs, .set _ ys => xs.length == ys.length && within xs ys
  | .frozenSet xs, .frozenSet ys => xs.length == ys.length && within xs ys
  | .dict _ es, .dict _ ds => es.length == ds.length && entriesWithin es ds
  | .dict _ es, .view ds => es.length == ds.length && entriesWithin es ds
  | .view es, .dict _ ds => es.length == ds.length && entriesWithin es ds
  | .view es, .view ds => es.length == ds.length && entriesWithin es ds
  | .record n fs, .record m gs => n == m && sameFields fs gs
  | .named n p, .named m q => same n m && same p q
  | .embedded f n, .embedded g m => same f g && same n m
  | .state v c as b, .state w d bs e => same v w && same c d && same as bs && b == e
  | .object m .., .object n .. => sameMark m n
  | .callable m _ c _, .callable n _ d _ => sameMark m n && c == d
  | .builtin a, .builtin b => a == b
  | a, b => a.place?.isSome && a.place? == b.place?

/-- Equality of lists, member by member. -/
def sameList : List Value → List Value → Bool
  | [], [] => true
  | x :: xs, y :: ys => same x y && sameList xs ys
  | _, _ => false

/-- Whether each member of the first list is one of the second. -/
def within : List Value → List Value → Bool
  | [], _ => true
  | x :: xs, ys => ys.any (fun y => same x y) && within xs ys

/-- Whether each entry of the first table stands in the second. -/
def entriesWithin : List (Value × Value) → List (Value × Value) → Bool
  | [], _ => true
  | (k, v) :: es, ds =>
      (match ds.find? fun d => same k d.1 with
        | some d => same v d.2
        | none => false) && entriesWithin es ds

/-- Equality of fields, in order. -/
def sameFields : List (String × Value) → List (String × Value) → Bool
  | [], [] => true
  | (n, x) :: fs, (m, y) :: gs => n == m && same x y && sameFields fs gs
  | _, _ => false

end

/-- Equality of two values on their own: not-a-number differs from everything. -/
def eq (a b : Value) : Bool :=
  match a, b with
  | .float x, .float y => x.place.isSome && x.place == y.place
  | a, b => same a b

/-- The place of a value in a list, by `same`. -/
def isIn (v : Value) (vs : List Value) : Bool :=
  vs.any (fun w => same w v)

end Statechart.Value
