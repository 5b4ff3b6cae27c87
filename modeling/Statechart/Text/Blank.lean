/-!
# Blank characters

The characters that may surround text without belonging to it: those of the Unicode property
White_Space, and the four information separators U+001C to U+001F.
-/

namespace Statechart.Text

/-- Whether a character is blank. -/
def isBlank (c : Char) : Bool :=
  let n := c.toNat
  (9 ≤ n && n ≤ 13) || (28 ≤ n && n ≤ 32) || n == 0x85 || n == 0xa0 || n == 0x1680
    || (0x2000 ≤ n && n ≤ 0x200a) || n == 0x2028 || n == 0x2029 || n == 0x202f || n == 0x205f
    || n == 0x3000

/-- Drops the blank characters at both ends. -/
def strip (cs : List Char) : List Char :=
  ((cs.dropWhile isBlank).reverse.dropWhile isBlank).reverse

/-- The words of a text after the one that is being read, which is held from its end. -/
def wordsFrom : (held : List Char) → List Char → List (List Char)
  | held, [] => if held.isEmpty then [] else [held.reverse]
  | held, c :: cs =>
      if isBlank c then (if held.isEmpty then [] else [held.reverse]) ++ wordsFrom [] cs
      else wordsFrom (c :: held) cs

/-- The words of a text: what stands between blanks. -/
def wordsOf (cs : List Char) : List (List Char) :=
  wordsFrom [] cs

end Statechart.Text
