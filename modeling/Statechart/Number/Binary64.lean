import Statechart.Number.Power

/-!
# Binary floating-point numbers of 64 bits

A number is kept as its 64-bit pattern, so two not-a-numbers with different payloads stay apart. The
payload 0 stands for a new not-a-number, which differs from all others.
Everything else is exact integer arithmetic: a finite number is a whole multiple of `2 ^ -1074`,
and `ofRatio` rounds a quotient of natural numbers to the nearest pattern, a tie to the even one.
-/

namespace Statechart

/-- A binary64 number, given by its bit pattern. -/
structure Binary64 where
  bits : UInt64
deriving DecidableEq, Inhabited

namespace Binary64

/-- What a bit pattern stands for. A finite number is `± mantissa · 2 ^ (exponent - 1074)`. -/
inductive Reading where
  | nan
  | infinite (negative : Bool)
  | finite (negative : Bool) (mantissa exponent : Nat)
deriving DecidableEq

/-- The number of the bit pattern `n`, of which the lowest 64 bits count. -/
def ofNat (n : Nat) : Binary64 :=
  ⟨UInt64.ofNat n⟩

/-- Reads the sign, the exponent field and the fraction field. -/
def reading (x : Binary64) : Reading :=
  let n := x.bits.toNat
  let negative := n / twoPow 63 % 2 == 1
  let field := n / twoPow 52 % twoPow 11
  let fraction := n % twoPow 52
  if field = 2047 then
    if fraction = 0 then .infinite negative else .nan
  else if field = 0 then .finite negative fraction 0
  else .finite negative (fraction + twoPow 52) (field - 1)

/-- The sign bit's contribution to a pattern. -/
def signBit (negative : Bool) : Nat :=
  if negative then twoPow 63 else 0

/-- The infinity of the given sign. -/
def infinity (negative : Bool) : Binary64 :=
  ofNat (signBit negative + 2047 * twoPow 52)

/-- The not-a-number with the given payload. -/
def nan (payload : Nat) : Binary64 :=
  ofNat (4095 * twoPow 51 + payload)

/-- A new not-a-number. -/
def newNan : Binary64 :=
  nan 0

/-- Whether a number equals itself as a member of a container: all but a new not-a-number do. -/
def isNamed (x : Binary64) : Bool :=
  x != newNan

/-- The quotient `num / den` rounded to a whole number, a half to the even neighbour. -/
def roundHalfEven (num den : Nat) : Nat :=
  let q := num / den
  let twice := 2 * (num % den)
  if twice < den then q
  else if den < twice then q + 1
  else q + q % 2

/-- The exponent `e` for which the positive quotient `num / den` lies between `2 ^ 52` and `2 ^ 53`
steps of `2 ^ (e - 1074)`, and 0 for quotients below all of these. -/
def scaleOf (num den : Nat) : Nat :=
  let guess := num.log2 + 1074 - den.log2 - 52
  if num * twoPow 1074 < twoPow 52 * den * twoPow guess then guess - 1 else guess

/-- The number nearest to `± num / den`; too large a quotient gives an infinity. -/
def ofRatio (negative : Bool) (num den : Nat) : Binary64 :=
  if num = 0 then ofNat (signBit negative)
  else
    let e := scaleOf num den
    let m := roundHalfEven (num * twoPow 1074) (den * twoPow e)
    let pattern := e * twoPow 52 + m
    if 2047 * twoPow 52 ≤ pattern then infinity negative
    else ofNat (signBit negative + pattern)

/-- The number nearest to `± digits · 10 ^ exponent`. Quotients beyond the range on either side are
settled by counting digits, so no power is larger than the range needs. -/
def ofDecimal (negative : Bool) (digits : Nat) (exponent : Int) : Binary64 :=
  let size := (Nat.toDigits 10 digits).length
  if digits = 0 then ofNat (signBit negative)
  else if 320 < size + exponent then infinity negative
  else if size + exponent < -340 then ofNat (signBit negative)
  else if 0 ≤ exponent then ofRatio negative (digits * tenPow exponent.toNat) 1
  else ofRatio negative digits (tenPow (-exponent).toNat)

/-- The number nearest to a whole number. -/
def ofInt (i : Int) : Binary64 :=
  ofRatio (i < 0) i.natAbs 1

/-- A signed multiple of `2 ^ -1074`. -/
def units (negative : Bool) (mantissa exponent : Nat) : Int :=
  let size : Int := mantissa * twoPow exponent
  if negative then -size else size

/-- The nearest number to `n · 2 ^ -1074`; zero gets the given sign. -/
def ofUnits (zeroSign : Bool) (n : Int) : Binary64 :=
  if n = 0 then ofNat (signBit zeroSign)
  else ofRatio (n < 0) n.natAbs (twoPow 1074)

/-- Rounded addition. A sum of zeros is negative only when both are. -/
def add (x y : Binary64) : Binary64 :=
  match x.reading, y.reading with
  | .nan, _ => newNan
  | _, .nan => newNan
  | .infinite s, .infinite t => if s = t then x else newNan
  | .infinite _, .finite .. => x
  | .finite .., .infinite _ => y
  | .finite s m e, .finite t n f => ofUnits (s && t) (units s m e + units t n f)

/-- The place of a number on the extended line: first the end it lies at (`-1`, `0` for finite
numbers, `1`), then its multiple of `2 ^ -1074`. A not-a-number has none. -/
def place (x : Binary64) : Option (Int × Int) :=
  match x.reading with
  | .nan => none
  | .infinite negative => some (if negative then -1 else 1, 0)
  | .finite negative m e => some (0, units negative m e)

/-- The place of a whole number on the same line. -/
def placeOfInt (i : Int) : Int × Int :=
  (0, i * twoPow 1074)

/-- The order of two places. -/
def placeLt (a b : Int × Int) : Bool :=
  a.1 < b.1 || (a.1 == b.1 && a.2 < b.2)

/-- Whether the number is not-a-number. -/
def isNan (x : Binary64) : Bool :=
  x.reading == .nan

/-- Whether the number is zero, of either sign. -/
def isZero (x : Binary64) : Bool :=
  x.place == some (0, 0)

end Binary64

end Statechart
