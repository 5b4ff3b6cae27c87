import Mathlib.Data.List.Range
import Statechart.Proofs.Number.Rounding
import Statechart.Proofs.Number.Text

/-!
# The shortest decimal is rounded back

A decimal `RoundsTo` a number when it lies in the number's interval; `of_decimal_of_rounds_to` says
that it is then read as the number. On the grid of 17 digits one of the two neighbours of a number
always lies in its interval, so the search for the shortest decimal succeeds:
`shortest_rounds_to`.
-/

namespace Statechart

/-- The numerator of a decimal. -/
def Decimal.num (d : Decimal) : Nat :=
  d.digits * tenPow d.exponent.toNat

/-- The denominator of a decimal. -/
def Decimal.den (d : Decimal) : Nat :=
  tenPow (-d.exponent).toNat

theorem Decimal.den_pos (d : Decimal) : 0 < d.den :=
  zero_lt_ten_pow _

namespace Binary64

variable {mantissa exponent factor step n : Nat}

/-- A decimal lies in the interval of a number. -/
def RoundsTo (mantissa exponent : Nat) (d : Decimal) : Prop :=
  (rounding mantissa exponent).holds (twoPow exponent * d.den) (d.num * twoPow 1076) = true

theorem holds_mul (r : Rounding) {k : Nat} (hk : 0 < k) :
    r.holds (factor * k) (n * k) = r.holds factor n := by
  simp only [Rounding.holds, ← Nat.mul_assoc, Nat.mul_le_mul_right_iff hk,
    Nat.mul_lt_mul_right hk]

/-- A digit zero at the end makes no difference. -/
theorem rounds_to_append_zero {digits : Nat} {x : Int} :
    RoundsTo mantissa exponent ⟨digits * 10, x⟩ ↔ RoundsTo mantissa exponent ⟨digits, x + 1⟩ := by
  simp only [RoundsTo, Decimal.num, Decimal.den]
  rcases Int.lt_or_le x 0 with hneg | hpos
  · have hnum : x.toNat = (x + 1).toNat := by omega
    have hden : (-x).toNat = (-(x + 1)).toNat + 1 := by omega
    rw [hnum, hden, ten_pow_succ, ← Nat.mul_assoc, Nat.mul_right_comm digits,
      Nat.mul_right_comm _ 10, holds_mul _ (by decide)]
  · have hnum : (x + 1).toNat = x.toNat + 1 := by omega
    have hden : (-x).toNat = (-(x + 1)).toNat := by omega
    rw [hnum, hden, ten_pow_succ, Nat.mul_assoc digits, Nat.mul_comm 10]

theorem rounds_to_trim {d : Decimal} (fuel : Nat) :
    RoundsTo mantissa exponent (Decimal.trim fuel d) ↔ RoundsTo mantissa exponent d := by
  induction fuel generalizing d with
  | zero => rw [Decimal.trim]
  | succ fuel ih =>
      rw [Decimal.trim]
      split
      next hzero =>
        rw [ih, ← rounds_to_append_zero, Nat.div_mul_cancel (Nat.dvd_of_mod_eq_zero hzero.1)]
      next => exact Iff.rfl

/-! ## Reading -/

/-- A decimal has digits, and none of them is beyond the range, if it lies in an interval. -/
theorem RoundsTo.bounds {d : Decimal} (h : RoundsTo mantissa exponent d)
    (hcanonical : Canonical mantissa exponent) (hpos : 0 < mantissa) :
    0 < d.num ∧ d.num * twoPow 1076 < twoPow 2101 * d.den ∧ d.den ≤ d.num * twoPow 1076 := by
  obtain ⟨hlow, hhigh, -⟩ := of_holds h
  have hlower : 1 ≤ (rounding mantissa exponent).lower := by
    simp only [rounding]
    split_ifs <;> omega
  have hden : d.den ≤ d.num * twoPow 1076 := by
    calc d.den
      _ ≤ twoPow exponent * d.den := Nat.le_mul_of_pos_left _ (zero_lt_two_pow exponent)
      _ ≤ (rounding mantissa exponent).lower * (twoPow exponent * d.den) :=
        Nat.le_mul_of_pos_left _ hlower
      _ ≤ d.num * twoPow 1076 := hlow
  have hmost : (4 * mantissa + 2) * twoPow exponent < twoPow 2101 := by
    have hmantissa := hcanonical.mantissa_lt
    have hexponent := hcanonical.exponent_lt
    calc (4 * mantissa + 2) * twoPow exponent
      _ < (4 * twoPow 53) * twoPow exponent :=
        Nat.mul_lt_mul_of_pos_right (by omega) (zero_lt_two_pow exponent)
      _ = twoPow (55 + exponent) := by rw [two_pow_add 55]; rfl
      _ ≤ twoPow 2101 := two_pow_mono (by omega)
  refine ⟨Nat.pos_of_mul_pos_right (Nat.lt_of_lt_of_le d.den_pos hden), ?_, hden⟩
  calc d.num * twoPow 1076
    _ ≤ (4 * mantissa + 2) * (twoPow exponent * d.den) := hhigh
    _ = (4 * mantissa + 2) * twoPow exponent * d.den := (Nat.mul_assoc _ _ _).symm
    _ < twoPow 2101 * d.den := Nat.mul_lt_mul_of_pos_right hmost d.den_pos

theorem ten_pow_mono {j k : Nat} (h : j ≤ k) : tenPow j ≤ tenPow k :=
  Nat.pow_le_pow_right (by decide) h

/-- The digits of a number count its powers of ten. -/
theorem digits_bounds (hn : 0 < n) :
    tenPow ((Nat.toDigits 10 n).length - 1) ≤ n ∧ n < tenPow (Nat.toDigits 10 n).length := by
  have hlength : 0 < (Nat.toDigits 10 n).length := List.length_pos_iff.mpr Nat.toDigits_ne_nil
  refine ⟨?_, (Nat.length_toDigits_le_iff (by decide) hlength).mp le_rfl⟩
  rcases Nat.eq_zero_or_pos ((Nat.toDigits 10 n).length - 1) with hone | hmore
  · rw [hone]
    exact hn
  · refine Nat.le_of_not_lt fun hlt => ?_
    have := (Nat.length_toDigits_le_iff (by decide) hmore).mpr hlt
    omega

/-- A decimal in the interval of a number is within the range that is read digit by digit. -/
theorem RoundsTo.size {d : Decimal} (h : RoundsTo mantissa exponent d)
    (hcanonical : Canonical mantissa exponent) (hpos : 0 < mantissa) :
    ¬ 320 < (Nat.toDigits 10 d.digits).length + d.exponent ∧
      ¬ (Nat.toDigits 10 d.digits).length + d.exponent < -340 := by
  obtain ⟨hnum, hupper, hlower⟩ := h.bounds hcanonical hpos
  obtain ⟨hleast, hmost⟩ := digits_bounds (Nat.pos_of_mul_pos_right hnum)
  generalize (Nat.toDigits 10 d.digits).length = size at hleast hmost ⊢
  constructor
  · intro hlarge
    have hquotient : tenPow 320 * d.den ≤ d.num := by
      rw [Decimal.den, ← ten_pow_add]
      calc tenPow (320 + (-d.exponent).toNat)
        _ ≤ tenPow (size - 1 + d.exponent.toNat) := ten_pow_mono (by omega)
        _ = tenPow (size - 1) * tenPow d.exponent.toNat := ten_pow_add _ _
        _ ≤ d.num := Nat.mul_le_mul_right _ hleast
    have hrange : twoPow 2101 ≤ tenPow 320 * twoPow 1076 := by decide +kernel
    have hnum := Nat.mul_le_mul_right (twoPow 1076) hquotient
    have hden := Nat.mul_le_mul_right d.den hrange
    rw [Nat.mul_right_comm] at hden
    omega
  · intro hsmall
    have hquotient : tenPow 341 * d.num ≤ d.den := by
      calc tenPow 341 * d.num
        _ ≤ tenPow 341 * (tenPow size * tenPow d.exponent.toNat) :=
          Nat.mul_le_mul_left _ (Nat.mul_le_mul_right _ hmost.le)
        _ = tenPow (341 + (size + d.exponent.toNat)) := by rw [ten_pow_add, ten_pow_add]
        _ ≤ d.den := ten_pow_mono (by omega)
    have hrange : twoPow 1076 < tenPow 341 := by decide +kernel
    have hlarger := Nat.mul_lt_mul_of_pos_left hrange hnum
    rw [Nat.mul_comm d.num (tenPow 341)] at hlarger
    omega

/-- A decimal in the interval of a number is read as the number. -/
theorem of_decimal_of_rounds_to {d : Decimal} {negative : Bool}
    (hcanonical : Canonical mantissa exponent) (hpos : 0 < mantissa)
    (h : RoundsTo mantissa exponent d) : ofDecimal negative d.digits d.exponent =
      ofNat (signBit negative + (exponent * twoPow 52 + mantissa)) := by
  obtain ⟨hlarge, hsmall⟩ := h.size hcanonical hpos
  have hdigits : d.digits ≠ 0 :=
    Nat.ne_of_gt (Nat.pos_of_mul_pos_right (h.bounds hcanonical hpos).1)
  have hratio : ofRatio negative d.num d.den =
      ofNat (signBit negative + (exponent * twoPow 52 + mantissa)) :=
    of_ratio_of_holds hcanonical hpos d.den_pos h
  rw [ofDecimal, if_neg hdigits, if_neg hlarge, if_neg hsmall]
  split
  next hwhole =>
    have hone : d.den = 1 := by rw [Decimal.den, Int.toNat_of_nonpos (by omega)]; rfl
    rwa [hone, Decimal.num] at hratio
  next hpart =>
    have hnum : d.num = d.digits := by
      rw [Decimal.num, Int.toNat_of_nonpos (by omega)]
      exact Nat.mul_one d.digits
    rwa [hnum, Decimal.den] at hratio

/-! ## Searching -/

theorem holds_of_inside {r : Rounding} (hlow : r.lower * factor < n)
    (hhigh : n < r.upper * factor) : r.holds factor n = true := by
  rw [Rounding.holds]
  split
  · simp [hlow.le, hhigh.le]
  · simp [hlow, hhigh]

/-- What is found on a grid lies in the interval. -/
theorem holds_of_on_grid {r : Rounding} (h : r.onGrid? factor step = some n) :
    r.holds factor (n * step) = true := by
  simp only [Rounding.onGrid?] at h
  split at h
  next => cases h
  next hlow _ => exact Option.some.inj h ▸ hlow
  next _ hhigh => exact Option.some.inj h ▸ hhigh
  next hlow hhigh =>
    generalize r.number * factor / step = low at *
    split_ifs at h
    · exact Option.some.inj h ▸ hlow
    · exact Option.some.inj h ▸ hhigh
    · rcases Nat.mod_two_eq_zero_or_one low with heven | hodd
      · rw [heven] at h
        exact Option.some.inj h ▸ hlow
      · rw [hodd] at h
        exact Option.some.inj h ▸ hhigh

theorem on_grid_isSome {r : Rounding}
    (h : r.holds factor (r.number * factor / step * step) = true ∨
      r.holds factor ((r.number * factor / step + 1) * step) = true) :
    (r.onGrid? factor step).isSome = true := by
  simp only [Rounding.onGrid?]
  split
  next hlow hhigh => rw [hlow, hhigh] at h; simp at h
  next => rfl
  next => rfl
  next => split_ifs <;> rfl

/-- On a grid that is finer than the numbers, one of the neighbours lies in the interval. -/
theorem on_grid_of_fine (hmantissa : mantissa < twoPow 53) (hstep : 0 < step)
    (hfine : step * tenPow 16 ≤ 4 * mantissa * factor) :
    ((rounding mantissa exponent).onGrid? factor step).isSome = true := by
  have h52 : twoPow 52 = 4503599627370496 := rfl
  have h53 : twoPow 53 = 9007199254740992 := rfl
  have hten : tenPow 16 = 10000000000000000 := rfl
  have hmost : mantissa * factor ≤ (twoPow 53 - 1) * factor :=
    Nat.mul_le_mul_right factor (Nat.le_sub_one_of_lt hmantissa)
  rw [h53] at hmost
  rw [hten, Nat.mul_assoc] at hfine
  -- How far the interval goes down, and that the grid is finer than the whole interval.
  obtain ⟨down, hlower, hdown⟩ : ∃ down, (rounding mantissa exponent).lower = 4 * mantissa - down ∧
      0 < down ∧ step < (down + 2) * factor := by
    by_cases hpower : mantissa = twoPow 52 ∧ 0 < exponent
    · refine ⟨1, if_pos hpower, by decide, ?_⟩
      rw [hpower.1, h52] at hfine
      omega
    · refine ⟨2, if_neg hpower, by decide, ?_⟩
      omega
  have hupper : (rounding mantissa exponent).upper * factor =
      4 * (mantissa * factor) + 2 * factor := by
    rw [← Nat.mul_assoc, ← Nat.add_mul]
    rfl
  have hlow : (rounding mantissa exponent).lower * factor =
      4 * (mantissa * factor) - down * factor := by
    rw [hlower, Nat.sub_mul, Nat.mul_assoc]
  have hnumber : (rounding mantissa exponent).number * factor = 4 * (mantissa * factor) :=
    Nat.mul_assoc 4 mantissa factor
  have hsplit := Nat.div_add_mod (4 * (mantissa * factor)) step
  have hrest := Nat.mod_lt (4 * (mantissa * factor)) hstep
  have hreach : factor ≤ down * factor := Nat.le_mul_of_pos_left factor hdown.1
  rw [Nat.add_mul] at hdown
  refine on_grid_isSome ?_
  rw [hnumber]
  rw [Nat.mul_comm] at hsplit
  generalize 4 * (mantissa * factor) / step = low at hsplit ⊢
  rcases Nat.lt_or_ge ((rounding mantissa exponent).lower * factor) (low * step) with hin | hout
  · exact Or.inl (holds_of_inside hin (by omega))
  · have hnext : (low + 1) * step = low * step + step := Nat.succ_mul low step
    exact Or.inr (holds_of_inside (by omega) (by omega))

/-- The power of ten under that above a quotient is not above the quotient. -/
theorem decimal_point_spec {num den : Nat} (h : den ≤ num * tenPow 400) :
    ∃ k, decimalPoint num den = k + 1 ∧ den * tenPow k ≤ num * tenPow 400 := by
  rw [decimalPoint]
  cases hfind : (List.range 800).find? fun k => num * tenPow 400 < den * tenPow k with
  | none =>
      have hlast := List.find?_eq_none.mp hfind 799 (List.mem_range.mpr (by decide))
      exact ⟨799, rfl, Nat.le_of_not_lt (by simpa using hlast)⟩
  | some k =>
      obtain ⟨hk, -, hbefore⟩ := List.find?_range_eq_some.mp hfind
      cases k with
      | zero =>
          have hlt : num * tenPow 400 < den * tenPow 0 := of_decide_eq_true hk
          rw [show den * tenPow 0 = den from Nat.mul_one den] at hlt
          exact absurd h (Nat.not_le.mpr hlt)
      | succ k =>
          have hprevious := hbefore k (Nat.lt_succ_self k)
          exact ⟨k, rfl, Nat.le_of_not_lt (by simpa using hprevious)⟩

/-- The decimal that is tried on the grid of so many digits. -/
def gridDecimal? (mantissa exponent digits : Nat) : Option Decimal :=
  let unit : Int :=
    decimalPoint (4 * mantissa * twoPow exponent) (twoPow 1076) - 400 - digits
  ((rounding mantissa exponent).onGrid? (twoPow exponent * tenPow (-unit).toNat)
    (twoPow 1076 * tenPow unit.toNat)).map fun n => ⟨n, unit⟩

theorem shortest_eq (mantissa exponent : Nat) : shortest mantissa exponent =
    Decimal.trim 20 (((List.range 17).findSome? fun n =>
      gridDecimal? mantissa exponent (n + 1)).getD ⟨0, 0⟩) :=
  rfl

theorem rounds_to_of_grid {digits : Nat} {d : Decimal}
    (h : gridDecimal? mantissa exponent digits = some d) : RoundsTo mantissa exponent d := by
  simp only [gridDecimal?] at h
  generalize (decimalPoint _ _ : Int) - 400 - (digits : Int) = unit at h
  obtain ⟨n, hn, rfl⟩ := Option.map_eq_some_iff.mp h
  have hholds := holds_of_on_grid hn
  rwa [Nat.mul_comm (twoPow 1076), ← Nat.mul_assoc] at hholds

/-- The grid of 17 digits has a decimal of every number. -/
theorem grid_decimal_isSome (hmantissa : mantissa < twoPow 53) (hpos : 0 < mantissa) :
    (gridDecimal? mantissa exponent 17).isSome = true := by
  have hrange : twoPow 1076 ≤ 4 * mantissa * twoPow exponent * tenPow 400 := by
    have hten : twoPow 1076 ≤ tenPow 400 := by decide +kernel
    have hsize : 0 < 4 * mantissa * twoPow exponent :=
      Nat.mul_pos (by omega) (zero_lt_two_pow exponent)
    exact hten.trans (Nat.le_mul_of_pos_left _ hsize)
  obtain ⟨k, hpoint, hk⟩ := decimal_point_spec hrange
  simp only [gridDecimal?, Option.isSome_map, hpoint]
  generalize hunit : ((k + 1 : Nat) : Int) - 400 - (17 : Nat) = unit
  refine on_grid_of_fine hmantissa (Nat.mul_pos (zero_lt_two_pow _) (zero_lt_ten_pow _)) ?_
  refine Nat.le_of_mul_le_mul_right ?_ (zero_lt_ten_pow 400)
  have hpowers : k + (-unit).toNat = unit.toNat + 16 + 400 := by omega
  calc twoPow 1076 * tenPow unit.toNat * tenPow 16 * tenPow 400
    _ = twoPow 1076 * tenPow (k + (-unit).toNat) := by
      rw [hpowers, ten_pow_add, ten_pow_add, Nat.mul_assoc, Nat.mul_assoc, Nat.mul_assoc]
    _ = twoPow 1076 * tenPow k * tenPow (-unit).toNat := by rw [ten_pow_add, Nat.mul_assoc]
    _ ≤ 4 * mantissa * twoPow exponent * tenPow 400 * tenPow (-unit).toNat :=
      Nat.mul_le_mul_right _ hk
    _ = 4 * mantissa * (twoPow exponent * tenPow (-unit).toNat) * tenPow 400 := by
      rw [Nat.mul_right_comm _ (tenPow 400), Nat.mul_assoc (4 * mantissa)]

/-- The shortest decimal of a number lies in its interval. -/
theorem shortest_rounds_to (hmantissa : mantissa < twoPow 53) (hpos : 0 < mantissa) :
    RoundsTo mantissa exponent (shortest mantissa exponent) := by
  have hfound : ((List.range 17).findSome? fun n =>
      gridDecimal? mantissa exponent (n + 1)).isSome = true :=
    List.findSome?_isSome_iff.mpr
      ⟨16, List.mem_range.mpr (by decide), grid_decimal_isSome hmantissa hpos⟩
  obtain ⟨d, hd⟩ := Option.isSome_iff_exists.mp hfound
  obtain ⟨n, -, hn⟩ := List.exists_of_findSome?_eq_some hd
  rw [shortest_eq, rounds_to_trim, hd]
  exact rounds_to_of_grid hn

/-- Zeros at the end make no difference. -/
theorem rounds_to_append_zeros {digits : Nat} {x : Int} (count : Nat) :
    RoundsTo mantissa exponent ⟨digits * tenPow count, x - count⟩ ↔
      RoundsTo mantissa exponent ⟨digits, x⟩ := by
  induction count with
  | zero =>
      have hone : digits * tenPow 0 = digits := Nat.mul_one digits
      rw [hone, Int.natCast_zero, Int.sub_zero]
  | succ count ih =>
      have hexponent : x - (count + 1 : Nat) + 1 = x - count := by omega
      rw [ten_pow_succ, ← Nat.mul_assoc, rounds_to_append_zero, hexponent, ih]

/-- The shortest decimal of a number is read as the number, with any zeros behind its digits. -/
theorem of_decimal_shortest {x : Binary64} {negative : Bool}
    (hx : x.reading = .finite negative mantissa exponent) (hpos : 0 < mantissa) (count : Nat) :
    ofDecimal negative ((shortest mantissa exponent).digits * tenPow count)
      ((shortest mantissa exponent).exponent - count) = x := by
  obtain ⟨hcanonical, rfl⟩ := of_reading_finite hx
  exact of_decimal_of_rounds_to hcanonical hpos
    ((rounds_to_append_zeros count).mpr (shortest_rounds_to hcanonical.mantissa_lt hpos))

theorem shortest_digits_pos {x : Binary64} {negative : Bool}
    (hx : x.reading = .finite negative mantissa exponent) (hpos : 0 < mantissa) :
    0 < (shortest mantissa exponent).digits := by
  obtain ⟨hcanonical, -⟩ := of_reading_finite hx
  have hrounds : RoundsTo mantissa exponent (shortest mantissa exponent) :=
    shortest_rounds_to hcanonical.mantissa_lt hpos
  exact Nat.pos_of_mul_pos_right (hrounds.bounds hcanonical hpos).1

end Binary64

end Statechart
