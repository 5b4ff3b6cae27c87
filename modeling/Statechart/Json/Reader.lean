import Statechart.Json.Basic

/-!
# Reading JSON

`Json.read` reads one value that takes up a whole text, apart from the blanks around it, and names
the first problem from left to right otherwise. Besides the standard's values it takes `NaN`,
`Infinity` and `-Infinity`. It refuses whole numbers of more than `maxDigits` digits, arrays and
objects that stand in `maxDepth` others, and strings that escape half of a surrogate pair: those are
no texts here.
-/

namespace Statechart.Json

/-- Why a text is not a JSON value. -/
inductive Fault where
  | expectedValue
  | extraData
  | expectedName
  | expectedColon
  | expectedComma
  | unterminatedString
  | controlCharacter
  | badEscape
  | badUnitEscape
  | byteOrderMark
  | loneSurrogate
  | tooManyDigits (count : Nat)
  | tooDeep (container : String)
deriving DecidableEq

/-- The wording of a fault. -/
def Fault.message : Fault → String
  | .expectedValue => "Expecting value"
  | .extraData => "Extra data"
  | .expectedName => "Expecting property name enclosed in double quotes"
  | .expectedColon => "Expecting ':' delimiter"
  | .expectedComma => "Expecting ',' delimiter"
  | .unterminatedString => "Unterminated string starting at"
  | .controlCharacter => "Invalid control character at"
  | .badEscape => "Invalid \\escape"
  | .badUnitEscape => "Invalid \\uXXXX escape"
  | .byteOrderMark => "Unexpected UTF-8 BOM (decode using utf-8-sig)"
  | .loneSurrogate => "surrogates not allowed"
  | .tooManyDigits n =>
      "Exceeds the limit (4300 digits) for integer string conversion: value has " ++ toString n
        ++ " digits; use sys.set_int_max_str_digits() to increase the limit"
  | .tooDeep container =>
      "maximum recursion depth exceeded while decoding a JSON " ++ container
        ++ " from a unicode string"

/-- The word for a limit that a text goes beyond; all other faults are those of its syntax. -/
def Fault.limit? : Fault → Option String
  | .loneSurrogate => some "UnicodeEncodeError"
  | .tooManyDigits _ => some "ValueError"
  | .tooDeep _ => some "RecursionError"
  | _ => none

/-- The most digits that a whole number may have. -/
def maxDigits : Nat := 4300

/-- The most arrays and objects that may stand in one another. -/
def maxDepth : Nat := 980

/-- The blanks between tokens. -/
def isSpace (c : Char) : Bool :=
  c == ' ' || c == '\t' || c == '\n' || c == '\r'

/-- Drops the blanks in front of a token. -/
def skipSpace (cs : List Char) : List Char :=
  cs.dropWhile isSpace

/-- The value of a hexadecimal digit. -/
def hexValue? (c : Char) : Option Nat :=
  let n := c.toNat
  if 48 ≤ n ∧ n ≤ 57 then some (n - 48)
  else if 97 ≤ n ∧ n ≤ 102 then some (n - 87)
  else if 65 ≤ n ∧ n ≤ 70 then some (n - 55)
  else none

/-- The 16-bit unit written by four hexadecimal digits. -/
def hexUnit? (a b c d : Char) : Option Nat := do
  let a ← hexValue? a
  let b ← hexValue? b
  let c ← hexValue? c
  let d ← hexValue? d
  some (((a * 16 + b) * 16 + c) * 16 + d)

/-- A piece of a string: a character as it stands or after a backslash, or an escaped unit. -/
inductive Piece where
  | char (c : Char)
  | unit (n : Nat)
deriving DecidableEq

/-- Joins escaped surrogate pairs, unless a surrogate is without its partner. -/
def joinUnits : List Piece → Option (List Char)
  | [] => some []
  | .char c :: ps => (joinUnits ps).map (c :: ·)
  | .unit n :: .unit m :: ps =>
      if 0xd800 ≤ n ∧ n < 0xdc00 ∧ 0xdc00 ≤ m ∧ m < 0xe000 then
        (joinUnits ps).map (Char.ofNat (0x10000 + (n - 0xd800) * 0x400 + (m - 0xdc00)) :: ·)
      else if 0xd800 ≤ n ∧ n < 0xe000 then none
      else (joinUnits (.unit m :: ps)).map (Char.ofNat n :: ·)
  | .unit n :: ps =>
      if 0xd800 ≤ n ∧ n < 0xe000 then none else (joinUnits ps).map (Char.ofNat n :: ·)

/-- The character after a backslash, for the escapes of one letter. -/
def simpleEscape? (c : Char) : Option Char :=
  if c = '"' ∨ c = '\\' ∨ c = '/' then some c
  else if c = 'b' then some '\x08'
  else if c = 'f' then some '\x0c'
  else if c = 'n' then some '\n'
  else if c = 'r' then some '\r'
  else if c = 't' then some '\t'
  else none

/-- Reads the rest of a string up to its closing quote. The digits of an escaped unit have to be
followed by a further character. -/
def readPieces : List Char → Except Fault (List Piece × List Char)
  | [] => .error .unterminatedString
  | '"' :: cs => .ok ([], cs)
  | ['\\'] => .error .unterminatedString
  | '\\' :: 'u' :: a :: b :: c :: d :: e :: cs =>
      match hexUnit? a b c d, readPieces (e :: cs) with
      | none, _ => .error .badUnitEscape
      | some n, .ok (ps, rest) => .ok (.unit n :: ps, rest)
      | some _, .error f => .error f
  | '\\' :: c :: cs =>
      match simpleEscape? c with
      | none => .error (if c = 'u' then .badUnitEscape else .badEscape)
      | some c =>
          match readPieces cs with
          | .ok (ps, rest) => .ok (.char c :: ps, rest)
          | .error f => .error f
  | c :: cs =>
      if c.toNat < 32 then .error .controlCharacter
      else
        match readPieces cs with
        | .ok (ps, rest) => .ok (.char c :: ps, rest)
        | .error f => .error f

/-- Reads the rest of a string after its opening quote. -/
def readString (cs : List Char) : Except Fault (String × List Char) := do
  let (ps, rest) ← readPieces cs
  match joinUnits ps with
  | some cs => return (String.ofList cs, rest)
  | none => .error .loneSurrogate

/-- The number that a run of digits stands for. -/
def digitsValue (cs : List Char) : Nat :=
  cs.foldl (fun n c => n * 10 + (c.toNat - 48)) 0

/-- Splits off the fraction: a point and at least one digit. -/
def splitFraction (cs : List Char) : List Char × List Char :=
  match cs with
  | '.' :: ds =>
      let digits := ds.takeWhile Char.isDigit
      if digits = [] then ([], cs) else (digits, ds.dropWhile Char.isDigit)
  | _ => ([], cs)

/-- Splits off the exponent: its letter, a sign or none, and at least one digit. -/
def splitExponent (cs : List Char) : Option Int × List Char :=
  let digits (negative : Bool) (ds : List Char) : Option Int × List Char :=
    let run := ds.takeWhile Char.isDigit
    if run = [] then (none, cs)
    else
      let n : Int := digitsValue run
      (some (if negative then -n else n), ds.dropWhile Char.isDigit)
  match cs with
  | c :: '-' :: ds => if c = 'e' ∨ c = 'E' then digits true ds else (none, cs)
  | c :: '+' :: ds => if c = 'e' ∨ c = 'E' then digits false ds else (none, cs)
  | c :: ds => if c = 'e' ∨ c = 'E' then digits false ds else (none, cs)
  | [] => (none, cs)

/-- Reads the number whose whole part comes first; a leading zero stands alone. -/
def readMagnitude (negative : Bool) (cs : List Char) : Except Fault (Json × List Char) :=
  let whole := match cs with
    | '0' :: _ => ['0']
    | _ => cs.takeWhile Char.isDigit
  if whole = [] then .error .expectedValue
  else
    let (fraction, rest) := splitFraction (cs.drop whole.length)
    let (exponent, rest) := splitExponent rest
    if fraction = [] ∧ exponent = none then
      if maxDigits < whole.length then .error (.tooManyDigits whole.length)
      else
        let n : Int := digitsValue whole
        .ok (.int (if negative then -n else n), rest)
    else
      let scale : Int := exponent.getD 0 - fraction.length
      .ok (.float (.ofDecimal negative (digitsValue (whole ++ fraction)) scale), rest)

/-- Reads a value that is neither a string, an array nor an object. -/
def readScalar (cs : List Char) : Except Fault (Json × List Char) :=
  match cs with
  | 'n' :: 'u' :: 'l' :: 'l' :: rest => .ok (.null, rest)
  | 't' :: 'r' :: 'u' :: 'e' :: rest => .ok (.bool true, rest)
  | 'f' :: 'a' :: 'l' :: 's' :: 'e' :: rest => .ok (.bool false, rest)
  | 'N' :: 'a' :: 'N' :: rest => .ok (.float (.nan 1), rest)
  | 'I' :: 'n' :: 'f' :: 'i' :: 'n' :: 'i' :: 't' :: 'y' :: rest =>
      .ok (.float (.infinity false), rest)
  | '-' :: 'I' :: 'n' :: 'f' :: 'i' :: 'n' :: 'i' :: 't' :: 'y' :: rest =>
      .ok (.float (.infinity true), rest)
  | '-' :: rest => readMagnitude true rest
  | _ => readMagnitude false cs

mutual

/-- Reads a value at the front of a text that stands in `depth` arrays and objects. Each nested
value, item and member takes one unit of fuel, so two units a character and one more are enough. -/
def readValue (depth : Nat) : (fuel : Nat) → List Char → Except Fault (Json × List Char)
  | 0, _ => .error .expectedValue
  | fuel + 1, cs =>
      match cs with
      | '"' :: rest => do
          let (s, rest) ← readString rest
          return (.str s, rest)
      | '[' :: rest =>
          if maxDepth ≤ depth then .error (.tooDeep "array")
          else
            match skipSpace rest with
            | ']' :: rest => .ok (.arr [], rest)
            | rest => do
                let (items, rest) ← readItems (depth + 1) fuel rest
                return (.arr items, rest)
      | '{' :: rest =>
          if maxDepth ≤ depth then .error (.tooDeep "object")
          else
            match skipSpace rest with
            | '}' :: rest => .ok (.obj [], rest)
            | rest => do
                let (members, rest) ← readMembers (depth + 1) fuel rest
                return (.obj members, rest)
      | _ => readScalar cs

/-- Reads the items of an array up to its closing bracket. -/
def readItems (depth : Nat) : (fuel : Nat) → List Char → Except Fault (List Json × List Char)
  | 0, _ => .error .expectedValue
  | fuel + 1, cs => do
      let (x, rest) ← readValue depth fuel cs
      match skipSpace rest with
      | ']' :: rest => return ([x], rest)
      | ',' :: rest =>
          let (xs, rest) ← readItems depth fuel (skipSpace rest)
          return (x :: xs, rest)
      | _ => .error .expectedComma

/-- Reads the members of an object up to its closing brace. -/
def readMembers (depth : Nat) :
    (fuel : Nat) → List Char → Except Fault (List (String × Json) × List Char)
  | 0, _ => .error .expectedName
  | fuel + 1, cs =>
      match cs with
      | '"' :: rest => do
          let (name, rest) ← readString rest
          match skipSpace rest with
          | ':' :: rest =>
              let (x, rest) ← readValue depth fuel (skipSpace rest)
              match skipSpace rest with
              | '}' :: rest => return ([(name, x)], rest)
              | ',' :: rest =>
                  let (ms, rest) ← readMembers depth fuel (skipSpace rest)
                  return ((name, x) :: ms, rest)
              | _ => .error .expectedComma
          | _ => .error .expectedColon
      | _ => .error .expectedName

end

/-- Reads the one value of a text. -/
def read (s : String) : Except Fault Json := do
  let cs := s.toList
  if cs.head? = some '\ufeff' then .error .byteOrderMark
  let (x, rest) ← readValue 0 (2 * cs.length + 1) (skipSpace cs)
  if skipSpace rest = [] then return x else .error .extraData

end Statechart.Json
