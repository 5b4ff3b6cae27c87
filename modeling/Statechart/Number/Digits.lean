/-!
# Decimal digits of integers
-/

namespace Statechart

/-- The digits of a natural number. -/
def digitChars (n : Nat) : List Char :=
  Nat.toDigits 10 n

/-- A natural number with zeros put in front up to the given width. -/
def paddedDigits (width n : Nat) : List Char :=
  let ds := digitChars n
  List.replicate (width - ds.length) '0' ++ ds

/-- The digits of an integer, behind a minus sign when it is negative. -/
def intChars : Int → List Char
  | .ofNat n => digitChars n
  | .negSucc n => '-' :: digitChars (n + 1)

end Statechart
