import Statechart.Text.Blank
import Statechart.Text.Lower
import Statechart.Text.Split

/-!
# Styles

A style is written in words: attributes such as `bold`, each with `not` in front to switch it off, a
colour, `on` and the colour of the ground, and `link` and an address. `Style.normal` gives the one
form that all spellings of a style share.
-/

namespace Statechart.Text

/-- Why words are no style: one of them has no meaning, or a number in a colour cannot be read. -/
inductive StyleFault where
  | unknown
  | malformedNumber
deriving DecidableEq

/-- A style: the attributes that are set, the last first, its colours and its address. -/
structure Style where
  attributes : List (String × Bool)
  colour : Option String
  ground : Option String
  link : Option String

namespace Style

/-- The attributes in the order in which they are written. -/
def attributeNames : List String :=
  ["bold", "dim", "italic", "underline", "blink", "blink2", "reverse", "conceal", "strike",
    "underline2", "frame", "encircle", "overline"]

/-- The short names of attributes. -/
def aliases : List (String × String) :=
  [("b", "bold"), ("d", "dim"), ("i", "italic"), ("u", "underline"), ("uu", "underline2"),
    ("r", "reverse"), ("c", "conceal"), ("s", "strike"), ("o", "overline")]

/-- The colours that have a name, with blanks between them. -/
def colourNames : String :=
  "aquamarine1 aquamarine3 black blue blue1 blue3 blue_violet bright_black bright_blue
    bright_cyan bright_green bright_magenta bright_red bright_white bright_yellow cadet_blue
    chartreuse1 chartreuse2 chartreuse3 chartreuse4 cornflower_blue cornsilk1 cyan cyan1 cyan2
    cyan3 dark_blue dark_cyan dark_goldenrod dark_green dark_khaki dark_magenta dark_olive_green1
    dark_olive_green2 dark_olive_green3 dark_orange dark_orange3 dark_red dark_sea_green
    dark_sea_green1 dark_sea_green2 dark_sea_green3 dark_sea_green4 dark_slate_gray1
    dark_slate_gray2 dark_slate_gray3 dark_turquoise dark_violet deep_pink1 deep_pink2 deep_pink3
    deep_pink4 deep_sky_blue1 deep_sky_blue2 deep_sky_blue3 deep_sky_blue4 dodger_blue1
    dodger_blue2 dodger_blue3 gold1 gold3 gray0 gray100 gray11 gray15 gray19 gray23 gray27 gray3
    gray30 gray35 gray37 gray39 gray42 gray46 gray50 gray53 gray54 gray58 gray62 gray63 gray66
    gray69 gray7 gray70 gray74 gray78 gray82 gray84 gray85 gray89 gray93 green green1 green3
    green4 green_yellow grey0 grey100 grey11 grey15 grey19 grey23 grey27 grey3 grey30 grey35
    grey37 grey39 grey42 grey46 grey50 grey53 grey54 grey58 grey62 grey63 grey66 grey69 grey7
    grey70 grey74 grey78 grey82 grey84 grey85 grey89 grey93 honeydew2 hot_pink hot_pink2
    hot_pink3 indian_red indian_red1 khaki1 khaki3 light_coral light_cyan1 light_cyan3
    light_goldenrod1 light_goldenrod2 light_goldenrod3 light_green light_pink1 light_pink3
    light_pink4 light_salmon1 light_salmon3 light_sea_green light_sky_blue1 light_sky_blue3
    light_slate_blue light_slate_gray light_slate_grey light_steel_blue light_steel_blue1
    light_steel_blue3 light_yellow3 magenta magenta1 magenta2 magenta3 medium_orchid
    medium_orchid1 medium_orchid3 medium_purple medium_purple1 medium_purple2 medium_purple3
    medium_purple4 medium_spring_green medium_turquoise medium_violet_red misty_rose1 misty_rose3
    navajo_white1 navajo_white3 navy_blue orange1 orange3 orange4 orange_red1 orchid orchid1
    orchid2 pale_green1 pale_green3 pale_turquoise1 pale_turquoise4 pale_violet_red1 pink1 pink3
    plum1 plum2 plum3 plum4 purple purple3 purple4 red red1 red3 rosy_brown royal_blue1 salmon1
    sandy_brown sea_green1 sea_green2 sea_green3 sky_blue1 sky_blue2 sky_blue3 slate_blue1
    slate_blue3 spring_green1 spring_green2 spring_green3 spring_green4 steel_blue steel_blue1
    steel_blue3 tan thistle1 thistle3 turquoise2 turquoise4 violet wheat1 wheat4 white yellow
    yellow1 yellow2 yellow3 yellow4"

/-- The attribute that a word names. -/
def attribute? (word : String) : Option String :=
  if attributeNames.contains word then some word else aliases.lookup word

/-- What stands in parentheses after a word. -/
def inParentheses? (word cs : List Char) : Option (List Char) :=
  let lead := word ++ ['(']
  match lead.isPrefixOf cs, (cs.drop lead.length).reverse with
  | true, ')' :: inner => some inner.reverse
  | _, _ => none

/-- The number that decimal digits give. -/
def digitsValue (cs : List Char) : Nat :=
  cs.foldl (fun n c => 10 * n + (c.toNat - 48)) 0

/-- Whether a character is a small hexadecimal digit. -/
def isSmallHex (c : Char) : Bool :=
  c.isDigit || ('a' ≤ c && c ≤ 'f')

/-- The numbers from 0 to 255 may stand for colours and for parts of them. -/
def checkByte (n : Nat) : Except StyleFault Unit :=
  if n ≤ 255 then .ok () else .error .unknown

/-- Checks the three numbers of a colour. A number without digits cannot be read. -/
def checkParts (parts : List (List Char)) : Except StyleFault Unit :=
  if parts.length ≠ 3 then .error .unknown
  else if parts.any List.isEmpty then .error .malformedNumber
  else parts.forM fun p => checkByte (digitsValue p)

/-- Checks a colour in small letters. -/
def checkColour (cs : List Char) : Except StyleFault Unit :=
  if cs = "default".toList ∨ (wordsOf colourNames.toList).contains cs then .ok ()
  else
    match cs with
    | '#' :: digits =>
        if digits.length = 6 ∧ digits.all isSmallHex then .ok () else .error .unknown
    | _ =>
        match inParentheses? "color".toList cs, inParentheses? "rgb".toList cs with
        | some digits, _ =>
            if 0 < digits.length ∧ digits.length ≤ 3 ∧ digits.all Char.isDigit then
              checkByte (digitsValue digits)
            else .error .unknown
        | none, some inner =>
            if inner ≠ [] ∧ inner.all (fun c => c.isDigit || c == ',') then
              checkParts (splitOn ',' inner)
            else .error .unknown
        | none, none => .error .unknown

/-- Reads a colour; its name is in small letters. -/
def readColour (word : List Char) : Except StyleFault String := do
  let cs := lower word
  checkColour cs
  return String.ofList cs

/-- Sets an attribute. -/
def setAttribute (s : Style) (on : Bool) (word : List Char) : Except StyleFault Style :=
  match attribute? (String.ofList word) with
  | some name => .ok { s with attributes := (name, on) :: s.attributes }
  | none => .error .unknown

/-- Reads a word that is an attribute or a colour. -/
def readWord (s : Style) (word : List Char) : Except StyleFault Style :=
  match s.setAttribute true (lower word) with
  | .ok s => .ok s
  | .error _ => (readColour word).map fun name => { s with colour := some name }

/-- Whether a word says what the next one is for. -/
def leads (word : List Char) : Bool :=
  ["on", "not", "link"].contains (String.ofList (lower word))

/-- Reads a word together with the one that it leads. -/
def readPair (s : Style) (lead word : List Char) : Except StyleFault Style :=
  match String.ofList (lower lead) with
  | "on" => (readColour word).map fun name => { s with ground := some name }
  | "not" => s.setAttribute false word
  | _ => .ok { s with link := some (String.ofList word) }

/-- Reads the words of a style. -/
def readWords (s : Style) : List (List Char) → Except StyleFault Style
  | [] => .ok s
  | [word] => if leads word then .error .unknown else s.readWord word
  | word :: next :: rest =>
      if leads word then do readWords (← s.readPair word next) rest
      else do readWords (← s.readWord word) (next :: rest)

/-- Reads a style. The word `none` is the style that sets nothing. -/
def read (cs : List Char) : Except StyleFault Style :=
  let empty : Style := ⟨[], none, none, none⟩
  if strip cs = "none".toList then .ok empty else empty.readWords (wordsOf cs)

/-- The words of an attribute that is set. -/
def attributeWords (s : Style) (name : String) : List String :=
  match s.attributes.lookup name with
  | some true => [name]
  | some false => ["not", name]
  | none => []

/-- The words of a style. -/
def words (s : Style) : List String :=
  attributeNames.flatMap s.attributeWords ++ s.colour.toList
    ++ (s.ground.toList.flatMap fun name => ["on", name])
    ++ (s.link.toList.flatMap fun address => ["link", address])

/-- The text of a style. -/
def text (s : Style) : String :=
  if s.words.isEmpty then "none" else " ".intercalate s.words

/-- The form that all spellings of a style share; words that are no style are only stripped and put
into small letters. -/
def normal (cs : List Char) : Except StyleFault String :=
  match read cs with
  | .ok s => .ok s.text
  | .error .unknown => .ok (String.ofList (lower (strip cs)))
  | .error .malformedNumber => .error .malformedNumber

end Style

end Statechart.Text
