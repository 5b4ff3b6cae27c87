import Statechart.Digest.Sha256
import Statechart.Error
import Statechart.Json.Writer
import Statechart.Value.Copy
import Statechart.Value.Held
import Statechart.Value.Table

/-!
# Canonical form

Two runs are compared through the canonical form of their outputs. `Value.canonical` turns tuples
into lists, sets into lists sorted by their text, records into tables, and tables into tables with
text keys in increasing order; other values stay as they are. What a record holds is copied first,
by each call anew, which makes `Value.canonicalized`. The canonical text is the compact JSON of that
form, and the digest is its hash, so neither depends on the order of entries or on the kind of
container.
-/

namespace Statechart

namespace Value

/-- The name of an object's member for a key. -/
def memberName : Value → String
  | .text s => s
  | .null => "null"
  | .bool true => "true"
  | .bool false => "false"
  | .float x => String.ofList (x.chars Json.floatFormat)
  | v => v.display

mutual

/-- The JSON value of a value; what JSON has no form for is written as the text that stands for
it. -/
def toJson : Value → Json
  | .null => .null
  | .bool b => .bool b
  | .int i => .int i
  | .float x => .float x
  | .text s => .str s
  | .list _ xs => .arr (toJsonList xs)
  | .tuple xs => .arr (toJsonList xs)
  | .result u o => .arr [toJson u, toJson o]
  | .dict _ es => .obj (toJsonEntries es)
  | v => .str v.display

/-- The JSON values of a list. -/
def toJsonList : List Value → List Json
  | [] => []
  | x :: xs => toJson x :: toJsonList xs

/-- The members of an object. -/
def toJsonEntries : List (Value × Value) → List (String × Json)
  | [] => []
  | (k, v) :: es => (memberName k, toJson v) :: toJsonEntries es

end

mutual

/-- The value of a JSON value. A repeated name keeps its first position and its last value. -/
def ofJson : Json → Value
  | .null => .null
  | .bool b => .bool b
  | .int i => .int i
  | .float x => .float x
  | .str s => .text s
  | .arr xs => .newList (ofJsonList xs)
  | .obj ms => .newTable (Table.ofList (ofJsonMembers ms))

/-- The values of an array. -/
def ofJsonList : List Json → List Value
  | [] => []
  | x :: xs => ofJson x :: ofJsonList xs

/-- The entries of an object, repeated names included. -/
def ofJsonMembers : List (String × Json) → List (Value × Value)
  | [] => []
  | (k, x) :: ms => (.text k, ofJson x) :: ofJsonMembers ms

end

mutual

/-- Whether a value is a record or a tuple that holds one. -/
def holdsRecord : Value → Bool
  | .record .. => true
  | .named .. => true
  | .embedded .. => true
  | .state .. => true
  | .result u o => holdsRecord u || holdsRecord o
  | .tuple xs => anyHoldsRecord xs
  | _ => false

/-- Whether a value of a list does. -/
def anyHoldsRecord : List Value → Bool
  | [] => false
  | x :: xs => holdsRecord x || anyHoldsRecord xs

end

mutual

/-- Whether a value inside a record can be turned into plain containers: what is not a container is
deep-copied, and no key may turn into a table. -/
def convertible : Value → Bool
  | .list _ xs => allConvertible xs
  | .tuple xs => allConvertible xs
  | .dict _ es => entriesConvertible es
  | .record _ fields => fieldsConvertible fields
  | .named name params => convertible name && convertible params
  | .embedded factory name => convertible factory && convertible name
  | .result u o => convertible u && convertible o
  | .state value configuration actions _ =>
      convertible value && convertible configuration && convertible actions
  | v => v.copiable

/-- Whether all values of a list are convertible. -/
def allConvertible : List Value → Bool
  | [] => true
  | x :: xs => convertible x && allConvertible xs

/-- Whether all entries are convertible. -/
def entriesConvertible : List (Value × Value) → Bool
  | [] => true
  | (k, v) :: es =>
      k.copiable && !holdsRecord k && convertible v && entriesConvertible es

/-- Whether all fields are convertible. -/
def fieldsConvertible : List (String × Value) → Bool
  | [] => true
  | (_, v) :: fs => convertible v && fieldsConvertible fs

end

/-- Keeps the last of each run of entries with one key. -/
def lastOfRuns : List (String × Value) → List (String × Value)
  | [] => []
  | [e] => [e]
  | e :: f :: es => if e.1 = f.1 then lastOfRuns (f :: es) else e :: lastOfRuns (f :: es)

/-- The entries in the order of their keys. -/
def sortEntries {α : Type} (es : List (String × α)) : List (String × α) :=
  es.mergeSort fun a b => a.1 ≤ b.1

/-- Makes the values of entries in order. -/
def makeEntries : List (String × Except Error Value) → Except Error (List (String × Value))
  | [] => return []
  | (k, v) :: es => return (k, ← v) :: (← makeEntries es)

/-- The table with the given text keys, sorted. The values are made in the order of the keys, and of
two entries with one key the later wins. -/
def sortedTable (es : List (String × Except Error Value)) : Except Error Value := do
  return table (lastOfRuns (← makeEntries (sortEntries es)))

/-- The text by which the elements of a set are sorted. -/
def sortText (v : Value) : String :=
  v.toJson.write Json.spacedAscii

/-- The elements of a set in the order of their texts. -/
def sortElements (vs : List Value) : List Value :=
  vs.mergeSort fun a b => a.sortText ≤ b.sortText

/-- The elements of a set, sorted, if each of them has a text. -/
def sortedElements (vs : List Value) : Except Error Value :=
  if allHaveText vs then .ok (.newList (sortElements vs)) else .error (.fault .wrongLength)

/-- Whether all keys of a table have a text. -/
def keysHaveText (es : List (Value × Value)) : Bool :=
  es.all fun e => e.1.hasText

/-- Refuses a record that cannot be turned into plain containers. -/
def requireConvertible (ok : Bool) (v : Except Error Value) : Except Error Value :=
  if ok then v else .error .wrongType

mutual

/-- The canonical form of a value in which what records hold has been copied. -/
def canonical : Value → Except Error Value
  | .list _ xs => return .newList (← canonicalList xs)
  | .tuple xs => return .newList (← canonicalList xs)
  | .result u o => return .newList [← canonical u, ← canonical o]
  | .set _ xs => do sortedElements (← canonicalList xs)
  | .frozenSet xs => do sortedElements (← canonicalList xs)
  | .dict _ es =>
      if keysHaveText es then sortedTable (canonicalEntries es) else .error (.fault .wrongLength)
  | .record _ fields =>
      requireConvertible (fieldsConvertible fields) (sortedTable (canonicalFields fields))
  | .named name params =>
      requireConvertible (convertible name && convertible params)
        (sortedTable [("name", canonical name), ("params", canonical params)])
  | .embedded factory name =>
      requireConvertible (convertible factory && convertible name)
        (sortedTable [("factory", canonical factory), ("name", canonical name)])
  | .state value configuration actions changed =>
      requireConvertible (convertible value && convertible configuration && convertible actions)
        (sortedTable
          [("value", canonical value), ("configuration", canonical configuration),
            ("actions", canonical actions), ("changed", .ok (.bool changed))])
  | v => return v

/-- The canonical forms of a list. -/
def canonicalList : List Value → Except Error (List Value)
  | [] => return []
  | x :: xs => return (← canonical x) :: (← canonicalList xs)

/-- The canonical forms of the entries of a table, under the plain texts of their keys. -/
def canonicalEntries : List (Value × Value) → List (String × Except Error Value)
  | [] => []
  | (k, v) :: es => (k.plainText, canonical v) :: canonicalEntries es

/-- The canonical forms of fields. -/
def canonicalFields : List (String × Value) → List (String × Except Error Value)
  | [] => []
  | (n, v) :: fs => (n, canonical v) :: canonicalFields fs

end

/-- The canonical form of a value. -/
def canonicalized (c : Copies) (v : Value) : Except Error Value :=
  (v.renewed c).canonical

/-- The canonical text of a value in which what records hold has been copied, if its canonical form
has a text. -/
def formText (v : Value) : Except Error String := do
  let form ← v.canonical
  if form.hasText then return form.toJson.write Json.compact else .error (.fault .wrongLength)

/-- The canonical text of a value, if its canonical form has a text. -/
def canonicalText (c : Copies) (v : Value) : Except Error String :=
  (v.renewed c).formText

/-- The bytes of a text. -/
def utf8 (s : String) : List UInt8 :=
  s.toUTF8.data.toList

/-- The digest of a value, in hexadecimal. -/
def digest (c : Copies) (v : Value) : Except Error String := do
  let hash := Sha256.hash (utf8 (← v.canonicalText c))
  return String.ofList (hash.flatMap fun b => Text.hexDigits 2 b.toNat)

end Value

end Statechart
