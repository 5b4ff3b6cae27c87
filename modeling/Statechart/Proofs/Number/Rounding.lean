import Mathlib.Data.List.Basic
import Statechart.Number.Shortest

/-!
# Rounding

A quotient in the interval of a number is rounded to that number: `of_ratio_of_holds`. The interval
is that of `Binary64.rounding`, so it is nearer below at a power of two, where the quotient may have
the scale of the numbers underneath.
-/

namespace Statechart

theorem zero_lt_two_pow (k : Nat) : 0 < twoPow k :=
  Nat.pow_pos (by decide)

theorem two_pow_add (j k : Nat) : twoPow (j + k) = twoPow j * twoPow k :=
  Nat.pow_add 2 j k

theorem two_pow_succ (k : Nat) : twoPow (k + 1) = 2 * twoPow k := by
  rw [two_pow_add, Nat.mul_comm]
  rfl

theorem zero_lt_ten_pow (k : Nat) : 0 < tenPow k :=
  Nat.pow_pos (by decide)

theorem ten_pow_add (j k : Nat) : tenPow (j + k) = tenPow j * tenPow k :=
  Nat.pow_add 10 j k

theorem ten_pow_succ (k : Nat) : tenPow (k + 1) = tenPow k * 10 :=
  ten_pow_add k 1

namespace Binary64

variable {negative : Bool} {mantissa exponent num den : Nat}

/-- The whole number that is nearest to a quotient, and even if another is as near. -/
theorem round_half_even_eq {q : Nat} (hden : 0 < den) (hlow : 2 * (q * den) ≤ 2 * num + den)
    (hhigh : 2 * num ≤ 2 * (q * den) + den)
    (hodd : q % 2 = 1 → 2 * (q * den) < 2 * num + den ∧ 2 * num < 2 * (q * den) + den) :
    roundHalfEven num den = q := by
  have hnum := Nat.div_add_mod num den
  have hrest := Nat.mod_lt num hden
  rw [Nat.mul_comm] at hnum
  simp only [roundHalfEven]
  generalize num / den = quotient at hnum ⊢
  generalize num % den = rest at hnum hrest ⊢
  have hle : quotient ≤ q := by
    by_contra hlt
    have := Nat.mul_le_mul_right den (Nat.lt_of_not_le hlt)
    rw [Nat.succ_mul] at this
    omega
  have hge : q ≤ quotient + 1 := by
    by_contra hlt
    have := Nat.mul_le_mul_right den (Nat.lt_of_not_le hlt)
    rw [Nat.succ_mul, Nat.succ_mul] at this
    omega
  rcases Nat.eq_or_lt_of_le hle with rfl | hlt
  · split_ifs <;> omega
  · obtain rfl : q = quotient + 1 := Nat.le_antisymm hge hlt
    have hstep : (quotient + 1) * den = quotient * den + den := Nat.succ_mul quotient den
    rw [hstep] at hlow hhigh hodd
    split_ifs <;> omega

theorem two_pow_log2_le {n : Nat} (hn : 0 < n) : twoPow n.log2 ≤ n :=
  Nat.log2_self_le (Nat.ne_of_gt hn)

theorem lt_two_pow_log2 (n : Nat) : n < twoPow (n.log2 + 1) :=
  Nat.lt_log2_self

theorem two_pow_mono {j k : Nat} (h : j ≤ k) : twoPow j ≤ twoPow k :=
  Nat.pow_le_pow_right (by decide) h

/-- The scale of a quotient puts it between `2 ^ 52` and `2 ^ 53` steps, if it is not the least. -/
theorem scale_of_bounds (hnum : 0 < num) (hden : 0 < den) :
    num * twoPow 1074 < twoPow 53 * (den * twoPow (scaleOf num den)) ∧
      (scaleOf num den = 0 ∨
        twoPow 52 * (den * twoPow (scaleOf num den)) ≤ num * twoPow 1074) := by
  have hlow := Nat.mul_le_mul_right (twoPow 1074) (two_pow_log2_le hnum)
  have hhigh := Nat.mul_lt_mul_of_pos_right (lt_two_pow_log2 num) (zero_lt_two_pow 1074)
  have hdenlow := two_pow_log2_le hden
  have hdenhigh := lt_two_pow_log2 den
  have hdouble : ∀ k, twoPow 53 * k = 2 * (twoPow 52 * k) := fun k => by
    rw [two_pow_succ, Nat.mul_assoc]
  have hlast : twoPow (num.log2 + 1) * twoPow 1074 = 2 * twoPow (num.log2 + 1074) := by
    rw [two_pow_succ, Nat.mul_assoc, two_pow_add]
  rw [← two_pow_add] at hlow
  rw [hlast] at hhigh
  generalize hguess : num.log2 + 1074 - den.log2 - 52 = guess
  have hscale : scaleOf num den =
      if num * twoPow 1074 < twoPow 52 * (den * twoPow guess) then guess - 1 else guess := by
    simp only [scaleOf, hguess, Nat.mul_assoc]
  rw [hscale]
  generalize num * twoPow 1074 = whole at hlow hhigh ⊢
  rcases Nat.lt_or_ge (num.log2 + 1074) (den.log2 + 52) with hsmall | hlarge
  · obtain rfl : guess = 0 := by omega
    have hbelow := calc 2 * twoPow (num.log2 + 1074)
      _ = twoPow (num.log2 + 1074 + 1) := (two_pow_succ _).symm
      _ ≤ twoPow (52 + den.log2) := two_pow_mono (by omega)
      _ ≤ twoPow 52 * den := by
        rw [two_pow_add]
        exact Nat.mul_le_mul_left _ hdenlow
    have hone : den * twoPow 0 = den := Nat.mul_one den
    rw [hone, if_pos (Nat.lt_of_lt_of_le hhigh hbelow), Nat.zero_sub, hdouble, hone]
    exact ⟨by omega, Or.inl rfl⟩
  · have hsplit : num.log2 + 1074 = 52 + (den.log2 + guess) := by omega
    have hfirst : twoPow (num.log2 + 1074) ≤ twoPow 52 * (den * twoPow guess) := by
      rw [hsplit, two_pow_add, two_pow_add]
      exact Nat.mul_le_mul_left _ (Nat.mul_le_mul_right _ hdenlow)
    have hlater : twoPow 52 * (den * twoPow guess) < 2 * twoPow (num.log2 + 1074) := by
      rw [hsplit, two_pow_add, two_pow_add, Nat.mul_left_comm 2, ← Nat.mul_assoc 2, ← two_pow_succ]
      exact Nat.mul_lt_mul_of_pos_left
        (Nat.mul_lt_mul_of_pos_right hdenhigh (zero_lt_two_pow guess)) (zero_lt_two_pow 52)
    split
    next hover =>
      cases guess with
      | zero =>
          rw [Nat.zero_sub, hdouble]
          exact ⟨by omega, Or.inl rfl⟩
      | succ guess =>
          have hhalf : twoPow 52 * (den * twoPow (guess + 1)) =
              twoPow 53 * (den * twoPow guess) := by
            rw [two_pow_succ guess, hdouble, Nat.mul_left_comm den, Nat.mul_left_comm (twoPow 52)]
          rw [hhalf] at hover hlater
          rw [Nat.add_sub_cancel]
          rw [hdouble] at hlater
          exact ⟨hover, Or.inr (by omega)⟩
    next hunder =>
      rw [hdouble]
      exact ⟨by omega, Or.inr (Nat.le_of_not_lt hunder)⟩

/-! ## The interval of a number -/

/-- The mantissas and exponents of finite numbers. -/
structure Canonical (mantissa exponent : Nat) : Prop where
  mantissa_lt : mantissa < twoPow 53
  normal : exponent = 0 ∨ twoPow 52 ≤ mantissa
  exponent_lt : exponent < 2046

theorem of_holds {factor n : Nat} (h : (rounding mantissa exponent).holds factor n = true) :
    (rounding mantissa exponent).lower * factor ≤ n ∧ n ≤ (4 * mantissa + 2) * factor ∧
      (mantissa % 2 = 1 → (rounding mantissa exponent).lower * factor < n ∧
        n < (4 * mantissa + 2) * factor) := by
  have hclosed : (rounding mantissa exponent).closed = decide (mantissa % 2 = 0) := rfl
  rw [Rounding.holds, hclosed] at h
  rcases Nat.mod_two_eq_zero_or_one mantissa with heven | hodd
  · rw [heven] at h
    simp only [decide_true, if_true, Bool.and_eq_true, decide_eq_true_eq] at h
    exact ⟨h.1, h.2, by omega⟩
  · rw [hodd] at h
    simp only [Nat.one_ne_zero, decide_false, Bool.false_eq_true, if_false, Bool.and_eq_true,
      decide_eq_true_eq] at h
    exact ⟨Nat.le_of_lt h.1, Nat.le_of_lt h.2, fun _ => h⟩

/-- What the interval of a number says of a quotient, in steps of the number's scale. -/
structure Near (mantissa exponent whole step : Nat) : Prop where
  step_pos : 0 < step
  lower : 4 * (mantissa * step) ≤ 4 * whole + 2 * step
  upper : 4 * whole ≤ 4 * (mantissa * step) + 2 * step
  odd : mantissa % 2 = 1 →
    4 * (mantissa * step) < 4 * whole + 2 * step ∧ 4 * whole < 4 * (mantissa * step) + 2 * step
  at_power : mantissa = twoPow 52 → 0 < exponent → 4 * (mantissa * step) ≤ 4 * whole + step

theorem near_of_holds (hden : 0 < den)
    (h : (rounding mantissa exponent).holds (twoPow exponent * den) (num * twoPow 1076) = true) :
    Near mantissa exponent (num * twoPow 1074) (den * twoPow exponent) := by
  have hfour : num * twoPow 1076 = 4 * (num * twoPow 1074) := by
    rw [two_pow_add 2 1074, Nat.mul_left_comm]
    rfl
  have hlower : 4 * mantissa - 2 ≤ (rounding mantissa exponent).lower := by
    simp only [rounding]
    split_ifs <;> omega
  rw [hfour, Nat.mul_comm (twoPow exponent)] at h
  obtain ⟨hlow, hhigh, hodd⟩ := of_holds h
  have hstep : 0 < den * twoPow exponent := Nat.mul_pos hden (zero_lt_two_pow exponent)
  have hpower : mantissa = twoPow 52 → 0 < exponent →
      (rounding mantissa exponent).lower = 4 * mantissa - 1 := fun hm he => if_pos ⟨hm, he⟩
  generalize den * twoPow exponent = step at *
  generalize num * twoPow 1074 = whole at *
  have hless := Nat.mul_le_mul_right step hlower
  rw [Nat.sub_mul, Nat.mul_assoc] at hless
  rw [Nat.add_mul, Nat.mul_assoc] at hhigh hodd
  refine ⟨hstep, by omega, by omega, fun hm => ?_, fun hm he => ?_⟩
  · obtain ⟨hlow, hhigh⟩ := hodd hm
    omega
  · rw [hpower hm he, Nat.sub_mul, Nat.mul_assoc] at hlow
    omega

theorem Near.whole_pos {whole step : Nat} (h : Near mantissa exponent whole step)
    (hpos : 0 < mantissa) : 0 < whole := by
  have hstep := Nat.mul_le_mul_right step hpos
  have hlower := h.lower
  have hsteppos := h.step_pos
  omega

/-- The scale of a quotient in the interval of a number is that of the number, or the one below
where the number is a power of two. -/
theorem scale_of_near (hcanonical : Canonical mantissa exponent) (hpos : 0 < mantissa)
    (hden : 0 < den) (h : Near mantissa exponent (num * twoPow 1074) (den * twoPow exponent)) :
    scaleOf num den = exponent ∨ exponent = scaleOf num den + 1 ∧ mantissa = twoPow 52 := by
  obtain ⟨hmantissa, hnormal, -⟩ := hcanonical
  obtain ⟨hbelow, habove⟩ := scale_of_bounds (Nat.pos_of_mul_pos_right (h.whole_pos hpos)) hden
  obtain ⟨hstep, hlower, hupper, -, -⟩ := h
  generalize scaleOf num den = scale at *
  have h1 : twoPow 1 = 2 := rfl
  have h2 : twoPow 2 = 4 := rfl
  have h52 : twoPow 52 = 4503599627370496 := rfl
  have h53 : twoPow 53 = 9007199254740992 := rfl
  rw [h53] at hmantissa hbelow
  rw [h52] at hnormal habove ⊢
  have hsteps : ∀ {j k n}, n + j ≤ k → twoPow n * (den * twoPow j) ≤ den * twoPow k := by
    intro j k n hjk
    rw [Nat.mul_left_comm, ← two_pow_add]
    exact Nat.mul_le_mul_left den (two_pow_mono hjk)
  have hle : scale ≤ exponent := by
    by_contra hlt
    have hdouble := hsteps (show 1 + exponent ≤ scale by omega)
    have hmost := Nat.mul_le_mul_right (den * twoPow exponent) (Nat.le_sub_one_of_lt hmantissa)
    have hwhole := habove.resolve_left (by omega)
    rw [h1] at hdouble
    omega
  have hge : exponent ≤ scale + 1 := by
    by_contra hlt
    have hfour := hsteps (show 2 + scale ≤ exponent by omega)
    have hleast := Nat.mul_le_mul_right (den * twoPow exponent) (hnormal.resolve_left (by omega))
    rw [h2] at hfour
    omega
  rcases Nat.eq_or_lt_of_le hle with heq | hlt
  · exact Or.inl heq
  · have htwo := hsteps (show 1 + scale ≤ exponent by omega)
    have hleast : 4503599627370496 ≤ mantissa := hnormal.resolve_left (by omega)
    refine Or.inr ⟨by omega, Nat.le_antisymm ?_ hleast⟩
    by_contra hmore
    have hmost := Nat.mul_le_mul_right (den * twoPow exponent) (Nat.lt_of_not_le hmore)
    rw [h1] at htwo
    omega

/-- A quotient in the interval of a number is rounded to the number. -/
theorem of_ratio_of_holds (hcanonical : Canonical mantissa exponent) (hpos : 0 < mantissa)
    (hden : 0 < den)
    (h : (rounding mantissa exponent).holds (twoPow exponent * den) (num * twoPow 1076) = true) :
    ofRatio negative num den =
      ofNat (signBit negative + (exponent * twoPow 52 + mantissa)) := by
  have hnear := near_of_holds hden h
  have hnum : num ≠ 0 := Nat.ne_of_gt (Nat.pos_of_mul_pos_right (hnear.whole_pos hpos))
  have h52 : twoPow 52 = 4503599627370496 := rfl
  have h53 : twoPow 53 = 9007199254740992 := rfl
  have hpattern : scaleOf num den * twoPow 52 +
      roundHalfEven (num * twoPow 1074) (den * twoPow (scaleOf num den)) =
        exponent * twoPow 52 + mantissa := by
    obtain ⟨hbelow, -⟩ := scale_of_bounds (Nat.pos_of_ne_zero hnum) hden
    rcases scale_of_near hcanonical hpos hden hnear with heq | ⟨heq, hmantissa⟩
    · obtain ⟨hstep, hlower, hupper, hodd, -⟩ := hnear
      have hround : roundHalfEven (num * twoPow 1074) (den * twoPow exponent) = mantissa :=
        round_half_even_eq hstep (by omega) (by omega) fun hm => by
          have := hodd hm
          omega
      rw [heq, hround]
    · -- Just under a power of two the quotient is rounded up to the next scale.
      have hlower := hnear.at_power hmantissa (by omega)
      have hdouble : den * twoPow exponent = 2 * (den * twoPow (scaleOf num den)) := by
        rw [heq, two_pow_succ, Nat.mul_left_comm]
      rw [hmantissa, hdouble, h52] at hlower
      rw [h53] at hbelow
      have hround : roundHalfEven (num * twoPow 1074) (den * twoPow (scaleOf num den)) =
          9007199254740992 :=
        round_half_even_eq (Nat.mul_pos hden (zero_lt_two_pow _)) (by omega) (by omega)
          fun hodd => absurd hodd (by decide)
      rw [hround, hmantissa, heq, h52]
      omega
  have hfinite : ¬ 2047 * twoPow 52 ≤ exponent * twoPow 52 + mantissa := by
    have hmantissa := hcanonical.mantissa_lt
    have hexponent := hcanonical.exponent_lt
    rw [h53] at hmantissa
    rw [h52]
    omega
  simp only [ofRatio, if_neg hnum, hpattern, if_neg hfinite]

theorem eq_of_nat {x : Binary64} {n : Nat} (h : n = x.bits.toNat) : x = ofNat n := by
  rw [h, ofNat, UInt64.ofNat_toNat]

/-- The sign bit is the highest of a pattern. -/
theorem sign_bit_eq {n : Nat} (hn : n < 18446744073709551616) {negative : Bool}
    (h : (n / 9223372036854775808 % 2 == 1) = negative) :
    signBit negative = n / 9223372036854775808 * 9223372036854775808 := by
  have h63 : twoPow 63 = 9223372036854775808 := rfl
  subst h
  rw [signBit, h63]
  split
  next hone =>
    have := beq_iff_eq.mp hone
    omega
  next hzero =>
    have : ¬ n / 9223372036854775808 % 2 = 1 := fun h => hzero (beq_iff_eq.mpr h)
    omega

/-- The pattern of a finite number holds its sign, its exponent and its mantissa. -/
theorem of_reading_finite {x : Binary64} (h : x.reading = .finite negative mantissa exponent) :
    Canonical mantissa exponent ∧
      x = ofNat (signBit negative + (exponent * twoPow 52 + mantissa)) := by
  have h11 : twoPow 11 = 2048 := rfl
  have h52 : twoPow 52 = 4503599627370496 := rfl
  have h53 : twoPow 53 = 9007199254740992 := rfl
  have h63 : twoPow 63 = 9223372036854775808 := rfl
  have hbits : x.bits.toNat < 18446744073709551616 := x.bits.toNat_lt
  simp only [reading, h11, h52, h63] at h
  split_ifs at h with hinfinite hzero hsubnormal
  · obtain ⟨hsign, rfl, rfl⟩ := Reading.finite.inj h
    refine ⟨⟨by omega, Or.inl rfl, by omega⟩, eq_of_nat ?_⟩
    rw [sign_bit_eq hbits hsign, h52]
    omega
  · obtain ⟨hsign, rfl, rfl⟩ := Reading.finite.inj h
    refine ⟨⟨by omega, Or.inr (by omega), by omega⟩, eq_of_nat ?_⟩
    rw [sign_bit_eq hbits hsign, h52]
    omega

theorem of_reading_infinite {x : Binary64} (h : x.reading = .infinite negative) :
    x = infinity negative := by
  have h11 : twoPow 11 = 2048 := rfl
  have h52 : twoPow 52 = 4503599627370496 := rfl
  have h63 : twoPow 63 = 9223372036854775808 := rfl
  have hbits : x.bits.toNat < 18446744073709551616 := x.bits.toNat_lt
  simp only [reading, h11, h52, h63] at h
  split_ifs at h with hinfinite hzero hsubnormal
  have hsign := Reading.infinite.inj h
  refine eq_of_nat ?_
  rw [sign_bit_eq hbits hsign, h52]
  omega

end Binary64

end Statechart
