import Statechart.Text.Blank
import Statechart.Text.Emoji.Flags
import Statechart.Text.Emoji.Pictures
import Statechart.Text.Lower

/-!
# Emoji codes

A name between two colons stands for a picture, whichever letters it is written in. `-text` or
`-emoji` after the name asks for the plain or the coloured form. `replace` puts the pictures in
place of their codes; a code without a picture stays.
-/

namespace Statechart.Text.Emoji

/-- The value of a hexadecimal digit. -/
def hexDigit (c : Char) : Nat :=
  if c.isDigit then c.toNat - 48 else c.toNat - 87

/-- The character with a hexadecimal code point. -/
def ofHex (s : String) : Char :=
  Char.ofNat (s.foldl (fun n c => 16 * n + hexDigit c) 0)

/-- The regional indicator of a capital letter. -/
def regional (c : Char) : Char :=
  Char.ofNat (0x1f1e6 + (c.toNat - 65))

/-- The entries of a table of names: what stands first in each and the names after it. -/
def entries (table : String) : List (String × List String) :=
  (table.splitOn ";").filterMap fun entry =>
    match (wordsOf entry.toList).map String.ofList with
    | first :: names => some (first, names)
    | [] => none

/-- The pictures that are not flags, each with its names. -/
def pictures : List (List Char × List String) :=
  [symbolNames, firstPictureNames, secondPictureNames, thirdPictureNames, sequenceNames].flatMap
    fun table => (entries table).map fun e => ((e.1.splitOn "-").map ofHex, e.2)

/-- The flags, each with its names. -/
def flags : List (List Char × List String) :=
  (entries flagNames).map fun e => (e.1.toList.map regional, e.2)

/-- The first picture of a table with a name. -/
def named? (table : List (List Char × List String)) (name : String) : Option (List Char) :=
  (table.find? fun e => e.2.contains name).map Prod.fst

/-- The ends of the names of skin tones, and the code point of each tone. -/
def tones : List (String × Nat) :=
  [("_light_skin_tone", 0x1f3fb), ("_medium-light_skin_tone", 0x1f3fc),
    ("_medium_skin_tone", 0x1f3fd), ("_medium-dark_skin_tone", 0x1f3fe),
    ("_dark_skin_tone", 0x1f3ff)]

/-- A picture in a skin tone. The tone follows the first character, in place of its selector. -/
def inTone (tone : Char) : List Char → List Char
  | c :: '\ufe0f' :: cs => c :: tone :: cs
  | c :: cs => c :: tone :: cs
  | [] => []

/-- The start of a text that has an end. -/
def before? (ending cs : List Char) : Option (List Char) :=
  if ending.isSuffixOf cs then some (cs.take (cs.length - ending.length)) else none

/-- The picture with a name that ends in a skin tone. -/
def toned? (name : List Char) : Option (List Char) :=
  tones.findSome? fun t =>
    (before? t.1.toList name).bind fun base =>
      (named? pictures (String.ofList (base ++ ['~']))).map (inTone (Char.ofNat t.2))

/-- The flag with a name, or with a name that follows `flag_for_`. -/
def flag? (name : List Char) : Option (List Char) :=
  let lead := "flag_for_".toList
  (named? flags (String.ofList name)).or
    (if lead.isPrefixOf name then named? flags (String.ofList (name.drop lead.length)) else none)

/-- The picture with a name. -/
def picture? (name : List Char) : Option (List Char) :=
  let name := lower name
  let s := String.ofList name
  (((named? pictures s).or (named? pictures (s ++ "~"))).or (toned? name)).or (flag? name)

/-- The picture that the text between two colons stands for. -/
def ofCode? (code : List Char) : Option (List Char) :=
  match before? "-text".toList code, before? "-emoji".toList code with
  | some name, _ => (picture? name).map (· ++ ['\ufe0e'])
  | none, some name => (picture? name).map (· ++ ['\ufe0f'])
  | none, none => picture? code

/-- The text up to the next colon, if no blank comes before it, and the text after the colon. -/
def code? (cs : List Char) : Option (List Char × List Char) :=
  let code := cs.takeWhile fun c => c ≠ ':' ∧ !isBlank c
  match cs.drop code.length with
  | ':' :: rest => some (code, rest)
  | _ => none

/-- Puts pictures in place of their codes. Each step consumes a character and takes one unit of
fuel. -/
def replaceFrom : (fuel : Nat) → List Char → List Char
  | 0, cs => cs
  | _ + 1, [] => []
  | fuel + 1, c :: cs =>
      if c = ':' then
        match code? cs with
        | some (code, rest) =>
            match ofCode? code with
            | some picture => picture ++ replaceFrom fuel rest
            | none => ':' :: code ++ ':' :: replaceFrom fuel rest
        | none => c :: replaceFrom fuel cs
      else c :: replaceFrom fuel cs

/-- Puts pictures in place of their codes. -/
def replace (cs : List Char) : List Char :=
  replaceFrom cs.length cs

end Statechart.Text.Emoji
