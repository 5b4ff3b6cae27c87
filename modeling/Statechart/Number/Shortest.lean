import Statechart.Number.Binary64
import Statechart.Number.Digits

/-!
# The shortest decimal of a binary number

`Binary64.shortest` gives the decimal with the fewest digits that rounds back to a positive finite
number, and of those the nearest one. It looks at the grids of `1, 2, …, 17` significant digits in
turn: on each, only the two neighbours of the number can lie in the interval of reals that round to
it, so the first grid with a neighbour inside gives the answer. `Binary64.text` writes that decimal
under a `DecimalFormat`.
-/

namespace Statechart

/-- The decimal `digits · 10 ^ exponent`. -/
structure Decimal where
  digits : Nat
  exponent : Int
deriving DecidableEq

/-- How a decimal is written: the exponents of the leading digit that are written positionally, the
least number of exponent digits, and the texts of the values that have no digits. -/
structure DecimalFormat where
  lowest : Int
  highest : Int
  exponentDigits : Nat
  nan : String
  infinity : String

namespace Binary64

/-- An interval of reals in units of `1 / scale`: the number itself, and the two ends of the
interval that rounds to it, which belong to it when `closed`. -/
structure Rounding where
  number : Nat
  lower : Nat
  upper : Nat
  closed : Bool

/-- The reals that round to `mantissa · 2 ^ exponent`, in quarters of that power. Below a power of
two the spacing halves, so the lower end is nearer there. -/
def rounding (mantissa exponent : Nat) : Rounding :=
  let atPower := mantissa = twoPow 52 ∧ 0 < exponent
  ⟨4 * mantissa, if atPower then 4 * mantissa - 1 else 4 * mantissa - 2, 4 * mantissa + 2,
    mantissa % 2 = 0⟩

/-- Whether `n` lies in the interval whose ends are multiplied by `factor`. -/
def Rounding.holds (r : Rounding) (factor n : Nat) : Bool :=
  if r.closed then r.lower * factor ≤ n && n ≤ r.upper * factor
  else r.lower * factor < n && n < r.upper * factor

/-- The candidate on the grid of multiples of `step`, both sides being multiplied by `factor`: the
neighbour inside the interval, and the nearer one, or the even one, when both are inside. -/
def Rounding.onGrid? (r : Rounding) (factor step : Nat) : Option Nat :=
  let scaled := r.number * factor
  let low := scaled / step
  let high := low + 1
  match r.holds factor (low * step), r.holds factor (high * step) with
  | false, false => none
  | true, false => some low
  | false, true => some high
  | true, true =>
      let below := scaled - low * step
      let above := high * step - scaled
      if below < above then some low
      else if above < below then some high
      else some (low + low % 2)

/-- The least `k` with `num / den < 10 ^ (k - 400)`, for quotients of the binary64 range. -/
def decimalPoint (num den : Nat) : Nat :=
  ((List.range 800).find? fun k => num * tenPow 400 < den * tenPow k).getD 800

/-- Drops the zeros at the end of the digits. -/
def Decimal.trim : Nat → Decimal → Decimal
  | 0, d => d
  | n + 1, d =>
      if d.digits % 10 = 0 ∧ d.digits ≠ 0 then Decimal.trim n ⟨d.digits / 10, d.exponent + 1⟩ else d

/-- The shortest decimal that rounds to `mantissa · 2 ^ (exponent - 1074)`, for a positive
mantissa. -/
def shortest (mantissa exponent : Nat) : Decimal :=
  let r := rounding mantissa exponent
  let den := twoPow 1076
  let point : Int := decimalPoint (r.number * twoPow exponent) den - 400
  let grid (n : Nat) : Option Decimal :=
    let unit : Int := point - n
    let factor := twoPow exponent * tenPow (-unit).toNat
    let step := den * tenPow unit.toNat
    (r.onGrid? factor step).map fun d => ⟨d, unit⟩
  Decimal.trim 20 (((List.range 17).findSome? fun n => grid (n + 1)).getD ⟨0, 0⟩)

end Binary64

/-- Writes a decimal, with a point and at least one digit behind it when positional, and with a
signed exponent otherwise. -/
def Decimal.write (f : DecimalFormat) (d : Decimal) : List Char :=
  let ds := digitChars d.digits
  let leading : Int := d.exponent + ds.length - 1
  if f.lowest ≤ leading ∧ leading ≤ f.highest then
    if 0 ≤ d.exponent then ds ++ List.replicate d.exponent.toNat '0' ++ ['.', '0']
    else if 0 ≤ leading then
      ds.take (leading.toNat + 1) ++ '.' :: ds.drop (leading.toNat + 1)
    else '0' :: '.' :: List.replicate ((-leading).toNat - 1) '0' ++ ds
  else
    let mantissa := match ds with
      | [] => []
      | [c] => [c]
      | c :: cs => c :: '.' :: cs
    mantissa ++ 'e' :: (if leading < 0 then '-' else '+') ::
      paddedDigits f.exponentDigits leading.natAbs

namespace Binary64

/-- The text of a number: a minus sign where the sign bit is set, then the shortest decimal. -/
def chars (f : DecimalFormat) (x : Binary64) : List Char :=
  let signed (negative : Bool) (cs : List Char) := if negative then '-' :: cs else cs
  match x.reading with
  | .nan => f.nan.toList
  | .infinite negative => signed negative f.infinity.toList
  | .finite negative 0 _ => signed negative ['0', '.', '0']
  | .finite negative m e => signed negative ((shortest m e).write f)

end Binary64

end Statechart
