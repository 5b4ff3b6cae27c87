import Statechart.Value.Equality

/-!
# Tables

Operations on the entries of a table. Keys are compared by `Value.same`; storing under a key that is
there keeps the key and its position, and a new key goes to the end.
-/

namespace Statechart

/-- The entries of a table in insertion order. -/
abbrev Table := List (Value × Value)

namespace Table

/-- The value stored under a key. -/
def get? (es : Table) (k : Value) : Option Value :=
  (es.find? fun e => Value.same e.1 k).map Prod.snd

/-- The value stored under a text. -/
def getText? (es : Table) (s : String) : Option Value :=
  es.get? (.text s)

/-- Whether a key is there. -/
def contains (es : Table) (k : Value) : Bool :=
  (es.get? k).isSome

/-- Stores a value under a key. -/
def insert : Table → Value → Value → Table
  | [], k, v => [(k, v)]
  | (l, w) :: es, k, v => if Value.same l k then (l, v) :: es else (l, w) :: insert es k v

/-- Removes a key. -/
def erase : Table → Value → Table
  | [], _ => []
  | (l, w) :: es, k => if Value.same l k then es else (l, w) :: erase es k

/-- The table built by storing the entries one after the other. -/
def ofList (es : List (Value × Value)) : Table :=
  es.foldl (fun t e => t.insert e.1 e.2) []

end Table

end Statechart
