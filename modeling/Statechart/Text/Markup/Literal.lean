import Statechart.Text.Split

/-!
# Literals in tags

The parameter of a tag that names an action holds a literal value: a number, a text, bytes, a
constant, or a tuple, set or table of literals. `isParameter` says whether a parameter can be read;
the value itself is never shown.
-/

namespace Statechart.Text.Markup

/-- What matters of a literal for those around it: whether it is a number, and then whether it has a
sign and an imaginary part, and whether it can be a member of a set or a key. -/
inductive Literal where
  | number (signed imaginary : Bool)
  | member
  | container

/-- Whether a character may stand between the parts of a literal. A line ends only inside
brackets. -/
def isGap (nested : Bool) (c : Char) : Bool :=
  c == ' ' || c == '\t' || c == '\x0c' || (nested && c == '\n')

/-- Drops what may stand between the parts of a literal, inside a comment or not. A comment starts
with a hash and ends with its line. -/
def skipGapFrom (nested : Bool) : (comment : Bool) → List Char → List Char
  | _, [] => []
  | true, c :: cs =>
      if c ≠ '\n' then skipGapFrom nested true cs
      else if nested then skipGapFrom nested false cs
      else c :: cs
  | false, c :: cs =>
      if isGap nested c then skipGapFrom nested false cs
      else if c = '#' then skipGapFrom nested true cs
      else c :: cs

/-- Drops what may stand between the parts of a literal. -/
def skipGap (nested : Bool) (cs : List Char) : List Char :=
  skipGapFrom nested false cs

/-- Whether a character may be part of a name. -/
def isNamePart (c : Char) : Bool :=
  c.isAlphanum || c == '_' || 128 ≤ c.toNat

/-- The digits at the front and what follows them; a single underscore may stand between digits. -/
def digitRun (digit : Char → Bool) : List Char → List Char × List Char
  | c :: '_' :: d :: cs =>
      if digit c && digit d then
        let r := digitRun digit (d :: cs)
        (c :: r.1, r.2)
      else if digit c then ([c], '_' :: d :: cs)
      else ([], c :: '_' :: d :: cs)
  | c :: cs =>
      if digit c then
        let r := digitRun digit cs
        (c :: r.1, r.2)
      else ([], c :: cs)
  | [] => ([], [])

/-- Whether a character is a hexadecimal digit. -/
def isHex (c : Char) : Bool :=
  c.isDigit || ('a' ≤ c && c ≤ 'f') || ('A' ≤ c && c ≤ 'F')

/-- The digits that may follow a zero and a letter. -/
def radixDigit? (letter : Char) : Option (Char → Bool) :=
  match letter.toLower with
  | 'x' => some isHex
  | 'o' => some fun c => '0' ≤ c && c ≤ '7'
  | 'b' => some fun c => c == '0' || c == '1'
  | _ => none

/-- The text after an exponent, if there is one. -/
def skipExponent (cs : List Char) : Bool × List Char :=
  match cs with
  | e :: rest =>
      if e = 'e' ∨ e = 'E' then
        let digits := match rest with
          | s :: more => if s = '+' ∨ s = '-' then more else rest
          | [] => []
        let r := digitRun Char.isDigit digits
        if r.1.isEmpty then (false, cs) else (true, r.2)
      else (false, cs)
  | [] => (false, [])

/-- Reads a number in decimal notation. -/
def decimal? (cs : List Char) : Option (Literal × List Char) :=
  let whole := digitRun Char.isDigit cs
  let part := match whole.2 with
    | '.' :: rest => (true, digitRun Char.isDigit rest)
    | rest => (false, ([], rest))
  if whole.1.isEmpty && part.2.1.isEmpty then none
  else
    let exponent := skipExponent part.2.2
    match exponent.2 with
    | 'j' :: rest => some (.number false true, rest)
    | 'J' :: rest => some (.number false true, rest)
    | rest =>
        if part.1 || exponent.1 || whole.1.head? ≠ some '0' || whole.1.all (· = '0') then
          some (.number false false, rest)
        else none

/-- Reads a number. No name may follow it directly. -/
def number? (cs : List Char) : Option (Literal × List Char) := do
  let r ← match cs with
    | '0' :: letter :: rest =>
        match radixDigit? letter with
        | some digit =>
            let rest := match rest with
              | '_' :: more => more
              | _ => rest
            let run := digitRun digit rest
            if run.1.isEmpty then none else some (Literal.number false false, run.2)
        | none => decimal? cs
    | _ => decimal? cs
  match r.2 with
  | c :: _ => if isNamePart c then none else some r
  | [] => some r

/-- Whether an escape names a character, given the digits that it has to have. -/
def namesCharacter (count : Nat) (cs : List Char) : Bool :=
  let digits := cs.take count
  let value := digits.foldl (fun n c =>
    16 * n + (if c.isDigit then c.toNat - 48 else c.toLower.toNat - 87)) 0
  digits.length == count && digits.all isHex && value < 0x110000

/-- Whether the escapes of a text can be read. -/
def escapesReadable (bytes : Bool) : List Char → Bool
  | '\\' :: c :: cs =>
      let readable := match c with
        | 'x' => namesCharacter 2 cs
        | 'u' => bytes || namesCharacter 4 cs
        | 'U' => bytes || namesCharacter 8 cs
        | 'N' => bytes
        | _ => true
      readable && escapesReadable bytes cs
  | _ :: cs => escapesReadable bytes cs
  | [] => true

/-- The text up to a closing quote and what follows it. A quote after a backslash does not close,
and a text between single quotes stays on its line. -/
def quoted? (quote : List Char) : List Char → Option (List Char × List Char)
  | [] => none
  | c :: cs =>
      if quote.isPrefixOf (c :: cs) then some ([], (c :: cs).drop quote.length)
      else if c = '\n' ∧ quote.length = 1 then none
      else
        match c, cs with
        | '\\', d :: cs => (quoted? quote cs).map fun r => (c :: d :: r.1, r.2)
        | _, cs => (quoted? quote cs).map fun r => (c :: r.1, r.2)

/-- Reads one text in quotes, and says whether it is made of bytes. -/
def quotedText? (cs : List Char) : Option (Bool × List Char) := do
  let lead := (cs.takeWhile Char.isAlpha).map Char.toLower
  let isRaw := lead.contains 'r'
  let bytes := lead.contains 'b'
  if !(["", "r", "u", "b", "br", "rb"].contains (String.ofList lead)) then none
  let rest := cs.drop lead.length
  let quote ← match rest with
    | a :: b :: c :: _ =>
        if a = '"' ∨ a = '\'' then
          if a = b ∧ b = c then some [a, a, a] else some [a]
        else none
    | a :: _ => if a = '"' ∨ a = '\'' then some [a] else none
    | [] => none
  let r ← quoted? quote (rest.drop quote.length)
  if bytes ∧ r.1.any (fun c => decide (128 ≤ c.toNat)) then none
  if !isRaw ∧ !escapesReadable bytes r.1 then none
  return (bytes, r.2)

/-- Reads texts that follow one another, which are all of bytes or all of characters. -/
def quotedTexts? (nested : Bool) : (fuel : Nat) → (bytes : Bool) → List Char → Option (List Char)
  | 0, _, cs => some cs
  | fuel + 1, bytes, cs =>
      let lead := (skipGap nested cs).takeWhile Char.isAlpha
      match (skipGap nested cs).drop lead.length with
      | c :: _ =>
          if c = '"' ∨ c = '\'' then
            match quotedText? (skipGap nested cs) with
            | some r => if r.1 = bytes then quotedTexts? nested fuel bytes r.2 else none
            | none => none
          else some cs
      | [] => some cs

/-- Reads a constant or an empty set. -/
def constant? (nested : Bool) (cs : List Char) : Option (Literal × List Char) :=
  let name := cs.takeWhile isNamePart
  let rest := cs.drop name.length
  match String.ofList name with
  | "True" => some (.member, rest)
  | "False" => some (.member, rest)
  | "None" => some (.member, rest)
  | "set" =>
      match skipGap nested rest with
      | '(' :: rest =>
          match skipGap true rest with
          | ')' :: rest => some (.container, rest)
          | _ => none
      | _ => none
  | _ => none

/-- A literal that is a tuple of others. -/
def tupleOf (members : List Literal) : Literal :=
  if members.any (fun m => m matches .container) then .container else .member

/-- The signed form of a number without a sign. -/
def Literal.signed? : Literal → Option Literal
  | .number false imaginary => some (.number true imaginary)
  | _ => none

mutual

/-- Reads a literal without a sign. -/
def atom? (nested : Bool) : (fuel : Nat) → List Char → Option (Literal × List Char)
  | 0, _ => none
  | fuel + 1, cs =>
      match skipGap nested cs with
      | '(' :: cs =>
          match skipGap true cs with
          | ')' :: rest => some (.member, rest)
          | cs => do
              let first ← literal? true fuel cs
              match skipGap true first.2 with
              | ')' :: rest => some (first.1, rest)
              | ',' :: rest => do
                  let r ← members? true fuel ')' rest
                  return (tupleOf (first.1 :: r.1), r.2)
              | _ => none
      | '{' :: cs =>
          match skipGap true cs with
          | '}' :: rest => some (.container, rest)
          | cs => do
              let first ← literal? true fuel cs
              match first.1, skipGap true first.2 with
              | .container, _ => none
              | _, ':' :: rest => do
                  let value ← literal? true fuel rest
                  entries? fuel value.2
              | _, ',' :: rest => do
                  let r ← members? true fuel '}' rest
                  if r.1.any (fun m => m matches .container) then none
                  return (.container, r.2)
              | _, '}' :: rest => some (.container, rest)
              | _, _ => none
      | '.' :: '.' :: '.' :: rest => some (.member, rest)
      | cs =>
          match quotedText? cs with
          | some r => (quotedTexts? nested cs.length r.1 r.2).map fun rest => (.member, rest)
          | none => (number? cs).or (constant? nested cs)

/-- Reads the members after a comma up to what closes them. -/
def members? (nested : Bool) :
    (fuel : Nat) → (close : Char) → List Char → Option (List Literal × List Char)
  | 0, _, _ => none
  | fuel + 1, close, cs =>
      match skipGap nested cs with
      | [] => none
      | c :: rest =>
          if c = close then some ([], rest)
          else do
            let first ← literal? nested fuel (c :: rest)
            match skipGap nested first.2 with
            | ',' :: rest => do
                let r ← members? nested fuel close rest
                return (first.1 :: r.1, r.2)
            | d :: rest => if d = close then some ([first.1], rest) else none
            | [] => none

/-- Reads the entries of a table after the first one. -/
def entries? : (fuel : Nat) → List Char → Option (Literal × List Char)
  | 0, _ => none
  | fuel + 1, cs =>
      match skipGap true cs with
      | '}' :: rest => some (.container, rest)
      | ',' :: cs =>
          match skipGap true cs with
          | '}' :: rest => some (.container, rest)
          | cs => do
              let key ← literal? true fuel cs
              match key.1, skipGap true key.2 with
              | .container, _ => none
              | _, ':' :: rest => do
                  let value ← literal? true fuel rest
                  entries? fuel value.2
              | _, _ => none
      | _ => none

/-- Reads a literal that may have a sign. -/
def signedAtom? (nested : Bool) : (fuel : Nat) → List Char → Option (Literal × List Char)
  | 0, _ => none
  | fuel + 1, cs =>
      match skipGap nested cs with
      | '-' :: rest => do
          let r ← atom? nested fuel rest
          return (← r.1.signed?, r.2)
      | '+' :: rest => do
          let r ← atom? nested fuel rest
          return (← r.1.signed?, r.2)
      | cs => atom? nested fuel cs

/-- Reads a literal: one with a sign, or the sum of a real and an imaginary number. -/
def literal? (nested : Bool) : (fuel : Nat) → List Char → Option (Literal × List Char)
  | 0, _ => none
  | fuel + 1, cs => do
      let first ← signedAtom? nested fuel cs
      match skipGap nested first.2 with
      | c :: rest =>
          if c = '+' ∨ c = '-' then do
            let second ← atom? nested fuel rest
            match first.1, second.1 with
            | .number _ false, .number false true => some (.member, second.2)
            | _, _ => none
          else some (first.1, c :: rest)
      | [] => some (first.1, [])

end

/-- Whether a text is a literal; commas make it a tuple. Nothing but comments may follow its
line. -/
def isLiteral (text : List Char) : Bool :=
  let cs := text.map fun c => if c = '\r' then '\n' else c
  let fuel := 8 * cs.length + 8
  match literal? false fuel cs with
  | some (_, rest) =>
      match skipGap false rest with
      | ',' :: rest =>
          (members? false fuel '\n' (rest ++ ['\n'])).any fun r => (skipGap true r.2).isEmpty
      | rest => (skipGap true rest).isEmpty
  | none => false

/-- Whether a parameter can be read: the name of an action, with or without arguments, or a
literal. -/
def isParameter (cs : List Char) : Bool :=
  let name := cs.takeWhile fun c => isNamePart c || c == '.'
  match cs.drop name.length with
  | [] => true
  | '(' :: rest =>
      if rest.getLast? = some ')' ∧ !cs.contains '\n' then isLiteral ('(' :: rest)
      else isLiteral cs
  | _ => isLiteral cs

end Statechart.Text.Markup
