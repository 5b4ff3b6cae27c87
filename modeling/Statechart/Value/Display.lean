import Statechart.Number.Shortest
import Statechart.Text.Quoted
import Statechart.Value.Basic

/-!
# How values are shown

`Value.display` is the text that stands for a value in messages: text is quoted, containers are
written with their brackets, records with their class and fields, objects as their class has it,
and callables by a short form that does not show what they hold.
-/

namespace Statechart

/-- The text of the address of a thing. Things with different identities have different ones. -/
def Mark.address : Mark → String
  | none => "0x0"
  | some i => "0x" ++ String.ofList (digitChars i.version) ++ "_"
      ++ String.ofList (digitChars i.call) ++ "_" ++ String.ofList (digitChars i.serial)

/-- The text of a feature of an object, given its address and its attributes. -/
def Feature.text (address attributes : String) : Feature → String
  | .words s => s
  | .address => address
  | .attributes => attributes

/-- The text of an object of a class, given its address and its attributes. -/
def ObjectClass.text (kind : ObjectClass) (address attributes : String) : String :=
  String.join (kind.look.map (Feature.text address attributes))

/-- Whether objects of a class show their address. -/
def ObjectClass.showsAddress (kind : ObjectClass) : Bool :=
  kind.look.contains .address

/-- Whether objects of a class show their attributes. -/
def ObjectClass.showsAttributes (kind : ObjectClass) : Bool :=
  kind.look.contains .attributes

namespace Value

/-- Binary64 numbers keep a point or an exponent, so they do not look like whole numbers. -/
def floatFormat : DecimalFormat :=
  ⟨-4, 15, 2, "nan", "inf"⟩

/-- Quoted text. -/
def quoted (s : String) : String :=
  String.ofList (Text.quote s.toList)

/-- The text of a truth value. -/
def boolText (b : Bool) : String :=
  if b then "True" else "False"

/-- The items of a tuple between parentheses; a single item is followed by a comma. -/
def tupleText (items : List String) : String :=
  match items with
  | [x] => "(" ++ x ++ ",)"
  | _ => "(" ++ ", ".intercalate items ++ ")"

/-- The elements of a set between braces, unless there are none. -/
def setText (items : List String) : String :=
  match items with
  | [] => "set()"
  | _ => "\x7b" ++ ", ".intercalate items ++ "\x7d"

/-- The text of a frozen set with the given elements. -/
def frozenSetText (items : List String) : String :=
  match items with
  | [] => "frozenset()"
  | _ => "frozenset(\x7b" ++ ", ".intercalate items ++ "\x7d)"

/-- The text of a callable, which shows its name if it has one. -/
def callableText : Option String → String
  | none => "<fn>"
  | some name => "<fn " ++ name ++ ">"

/-- The text of a fixed object. -/
def builtinText : Builtin → String
  | .length => "<built-in function len>"
  | .stateClass => "<class 'statefold.machine.engine.MachineState'>"
  | .ellipsis => "Ellipsis"
  | b => "<function " ++ b.name ++ ">"

mutual

/-- The text that stands for a value. -/
def display : Value → String
  | .null => "None"
  | .bool b => boolText b
  | .int i => String.ofList (intChars i)
  | .float x => String.ofList (x.chars floatFormat)
  | .text s => quoted s
  | .bytes bs => String.ofList (Text.quoteBytes bs)
  | .list _ xs => "[" ++ ", ".intercalate (displayList xs) ++ "]"
  | .tuple xs => tupleText (displayList xs)
  | .set _ xs => setText (displayList xs)
  | .frozenSet xs => frozenSetText (displayList xs)
  | .dict _ es => "\x7b" ++ ", ".intercalate (displayEntries es) ++ "\x7d"
  | .view es => "mappingproxy(\x7b" ++ ", ".intercalate (displayEntries es) ++ "\x7d)"
  | .record name fields => name ++ "(" ++ ", ".intercalate (displayFields fields) ++ ")"
  | .named name params =>
      "Named(name=" ++ display name ++ ", params=" ++ display params ++ ")"
  | .embedded factory name =>
      "Embedded(factory=" ++ display factory ++ ", name=" ++ display name ++ ")"
  | .result updates outputs =>
      "ActionResult(updates=" ++ display updates ++ ", outputs=" ++ display outputs ++ ")"
  | .state value configuration actions changed =>
      "MachineState(value=" ++ display value ++ ", configuration="
        ++ display configuration ++ ", actions=" ++ display actions ++ ", changed="
        ++ boolText changed ++ ")"
  | .object m kind own _ => kind.text m.address (", ".intercalate (displayFields own))
  | .callable _ name _ _ => callableText name
  | .builtin b => builtinText b

/-- The texts of the values of a list. -/
def displayList : List Value → List String
  | [] => []
  | x :: xs => display x :: displayList xs

/-- The texts of the entries of a table. -/
def displayEntries : List (Value × Value) → List String
  | [] => []
  | (k, v) :: es => (display k ++ ": " ++ display v) :: displayEntries es

/-- The texts of fields. -/
def displayFields : List (String × Value) → List String
  | [] => []
  | (n, v) :: fs => (n ++ "=" ++ display v) :: displayFields fs

end

/-- Whether a whole number has at most 4300 digits; longer ones have no text. -/
def isShort (i : Int) : Bool :=
  i.natAbs < tenPow 4300

mutual

/-- Whether a value has a text: no number that is shown is too long. -/
def hasText : Value → Bool
  | .int i => isShort i
  | .list _ xs => allHaveText xs
  | .tuple xs => allHaveText xs
  | .set _ xs => allHaveText xs
  | .frozenSet xs => allHaveText xs
  | .dict _ es => entriesHaveText es
  | .view es => entriesHaveText es
  | .record _ fields => fieldsHaveText fields
  | .named name params => hasText name && hasText params
  | .embedded factory name => hasText factory && hasText name
  | .result u o => hasText u && hasText o
  | .state value configuration actions _ =>
      hasText value && hasText configuration && hasText actions
  | .object _ kind own _ => !kind.showsAttributes || fieldsHaveText own
  | _ => true

/-- Whether all values of a list have a text. -/
def allHaveText : List Value → Bool
  | [] => true
  | x :: xs => hasText x && allHaveText xs

/-- Whether all entries of a table have a text. -/
def entriesHaveText : List (Value × Value) → Bool
  | [] => true
  | (k, v) :: es => hasText k && hasText v && entriesHaveText es

/-- Whether all fields have a text. -/
def fieldsHaveText : List (String × Value) → Bool
  | [] => true
  | (_, v) :: fs => hasText v && fieldsHaveText fs

end

/-- The plain text of a value: a text is its own, a view is shown as its table, all others are shown
as they are. -/
def plainText : Value → String
  | .text s => s
  | .view es => display (.newTable es)
  | v => v.display

end Value

end Statechart
