import Statechart.Json.Basic
import Statechart.Text.Quoted

/-!
# Writing JSON

`Json.write` writes a value under a `Style`. Members keep their order; in `compact` style the text
of a value is what digests are taken of.
-/

namespace Statechart.Json

/-- How a value is laid out: what follows an item and a member's name, how far each level is
indented (on one line when there is none), and whether characters beyond ASCII are escaped. -/
structure Style where
  comma : List Char
  colon : List Char
  indent : Option Nat
  ascii : Bool

/-- No blanks at all, and all characters as they are. -/
def compact : Style :=
  ⟨[','], [':'], none, false⟩

/-- A blank after each comma and colon, and only ASCII characters. -/
def spacedAscii : Style :=
  ⟨[',', ' '], [':', ' '], none, true⟩

/-- A blank after each comma and colon, and all characters as they are. -/
def spaced : Style :=
  ⟨[',', ' '], [':', ' '], none, false⟩

/-- One item a line, two columns a level, and all characters as they are. -/
def indented : Style :=
  ⟨[','], [':', ' '], some 2, false⟩

/-- The break before an item at the given depth. -/
def Style.newline (style : Style) (depth : Nat) : List Char :=
  match style.indent with
  | none => []
  | some n => '\n' :: List.replicate (n * depth) ' '

/-- The escape of a 16-bit unit. -/
def unitEscape (n : Nat) : List Char :=
  '\\' :: 'u' :: Text.hexDigits 4 n

/-- A character inside a string. Beyond U+FFFF an escape takes a surrogate pair. -/
def escapeChar (ascii : Bool) (c : Char) : List Char :=
  let n := c.toNat
  if c = '"' ∨ c = '\\' then ['\\', c]
  else if n = 8 then ['\\', 'b']
  else if n = 9 then ['\\', 't']
  else if n = 10 then ['\\', 'n']
  else if n = 12 then ['\\', 'f']
  else if n = 13 then ['\\', 'r']
  else if n < 32 then unitEscape n
  else if ascii ∧ 126 < n then
    if n < 0x10000 then unitEscape n
    else unitEscape (0xd800 + (n - 0x10000) / 0x400) ++ unitEscape (0xdc00 + (n - 0x10000) % 0x400)
  else [c]

/-- A string between its quotes. -/
def stringChars (ascii : Bool) (s : String) : List Char :=
  '"' :: s.toList.flatMap (escapeChar ascii) ++ ['"']

/-- Binary64 numbers keep a point or an exponent, so they do not read as whole numbers. -/
def floatFormat : DecimalFormat :=
  ⟨-4, 15, 2, "NaN", "Infinity"⟩

mutual

/-- The text of a value that stands at the given depth. -/
def chars (style : Style) (depth : Nat) : Json → List Char
  | .null => ['n', 'u', 'l', 'l']
  | .bool true => ['t', 'r', 'u', 'e']
  | .bool false => ['f', 'a', 'l', 's', 'e']
  | .int i => intChars i
  | .float x => x.chars floatFormat
  | .str s => stringChars style.ascii s
  | .arr [] => ['[', ']']
  | .arr (x :: xs) =>
      '[' :: style.newline (depth + 1) ++ chars style (depth + 1) x
        ++ itemChars style (depth + 1) xs ++ style.newline depth ++ [']']
  | .obj [] => ['{', '}']
  | .obj ((k, x) :: ms) =>
      '{' :: style.newline (depth + 1) ++ stringChars style.ascii k ++ style.colon
        ++ chars style (depth + 1) x ++ memberChars style (depth + 1) ms ++ style.newline depth
        ++ ['}']

/-- Further items, each after its comma. -/
def itemChars (style : Style) (depth : Nat) : List Json → List Char
  | [] => []
  | x :: xs =>
      style.comma ++ style.newline depth ++ chars style depth x ++ itemChars style depth xs

/-- Further members, each after its comma. -/
def memberChars (style : Style) (depth : Nat) : List (String × Json) → List Char
  | [] => []
  | (k, x) :: ms =>
      style.comma ++ style.newline depth ++ stringChars style.ascii k ++ style.colon
        ++ chars style depth x ++ memberChars style depth ms

end

/-- The text of a value. -/
def write (style : Style) (x : Json) : String :=
  String.ofList (chars style 0 x)

end Statechart.Json
