import Statechart.Proofs.Json.Text
import Statechart.Proofs.Number.Shortest

/-!
# Reading numbers back

A number ends where a delimiter follows it. The reader takes a whole number back unless it has too
many digits, and every binary64 number but a not-a-number, whether the writer puts the point behind,
inside or in front of its digits or writes an exponent: `read_scalar_int`, `read_scalar_float`.
-/

namespace Statechart.Json

/-! ## Whole numbers -/

theorem digits_value_eq (cs : List Char) : digitsValue cs = Nat.ofDigitChars 10 cs 0 := by
  simp only [digitsValue, Nat.ofDigitChars, Nat.mul_comm]
  rfl

theorem digits_value_digit_chars (n : Nat) : digitsValue (digitChars n) = n := by
  rw [digits_value_eq, digitChars, Nat.ofDigitChars_ten_toDigits]

theorem length_digit_chars_le_iff {n k : Nat} (hk : 0 < k) :
    (digitChars n).length ≤ k ↔ n < tenPow k :=
  Nat.length_toDigits_le_iff (by decide) hk

variable {cs ds rest : List Char}

/-- Digits are taken up to the first character that is none. -/
theorem take_digits (hds : ∀ c ∈ ds, c.isDigit = true)
    (hrest : ∀ c ∈ rest.head?, c.isDigit = false) : (ds ++ rest).takeWhile Char.isDigit = ds := by
  rw [List.takeWhile_append_of_pos hds]
  cases rest with
  | nil => simp
  | cons c rest => simp [hrest c rfl]

/-- The digits of a whole number do not start with a zero unless there is no other. -/
inductive Whole : List Char → Prop where
  | zero : Whole ['0']
  | digits {c : Char} {ds : List Char} (hzero : c ≠ '0') (h : ∀ d ∈ c :: ds, d.isDigit = true) :
      Whole (c :: ds)

theorem whole_digit_chars (n : Nat) : Whole (digitChars n) := by
  induction n using Nat.strongRecOn with
  | ind n ih =>
      rcases Nat.lt_or_ge n 10 with hn | hn
      · have hsmall : ∀ n < 10, digitChars n = [Nat.digitChar n] := by decide
        rcases Nat.eq_zero_or_pos n with rfl | hpos
        · exact .zero
        · rw [hsmall n hn]
          have hdigit : ∀ n < 10, 0 < n → Nat.digitChar n ≠ '0' ∧ (Nat.digitChar n).isDigit := by
            decide
          obtain ⟨hzero, hdigit⟩ := hdigit n hn hpos
          exact .digits hzero (List.forall_mem_singleton.mpr hdigit)
      · have hsplit : digitChars n = digitChars (n / 10) ++ [Nat.digitChar (n % 10)] :=
          Nat.toDigits_of_base_le (by decide) hn
        have hall : ∀ d ∈ digitChars n, d.isDigit = true := fun d hd =>
          is_digit_of_mem_digit_chars hd
        have hne : digitChars (n / 10) ≠ ['0'] := by
          intro h
          have hzero : n / 10 = 0 := digit_chars_inj (h.trans rfl)
          omega
        cases h : digitChars (n / 10) with
        | nil => exact absurd h Nat.toDigits_ne_nil
        | cons c ds =>
            have hfirst := ih (n / 10) (by omega)
            rw [h] at hfirst hne hsplit
            rw [hsplit] at hall ⊢
            cases hfirst with
            | zero => exact absurd rfl hne
            | digits hzero _ => exact .digits hzero hall

/-- A number is read from its whole part, its fraction and its exponent. -/
theorem read_magnitude_of_parts {negative : Bool} {ws cs cs' fraction : List Char}
    {exponent : Option Int} (hws : Whole ws) (hcs : ∀ c ∈ cs.head?, c.isDigit = false)
    (hfraction : splitFraction cs = (fraction, cs'))
    (hexponent : splitExponent cs' = (exponent, rest)) :
    readMagnitude negative (ws ++ cs) =
      if fraction = [] ∧ exponent = none then
        if maxDigits < ws.length then .error (.tooManyDigits ws.length)
        else .ok (.int (if negative then -digitsValue ws else digitsValue ws), rest)
      else
        .ok (.float (.ofDecimal negative (digitsValue (ws ++ fraction))
          (exponent.getD 0 - fraction.length)), rest) := by
  cases hws with
  | zero => simp [readMagnitude, hfraction, hexponent]
  | @digits c ds hzero h =>
      have htake : (c :: (ds ++ cs)).takeWhile Char.isDigit = c :: ds := take_digits h hcs
      have hne : c :: ds ≠ [] := List.cons_ne_nil c ds
      unfold readMagnitude
      simp only [List.cons_append]
      split
      next heq => exact absurd (List.cons.inj heq).1 hzero
      next =>
        rw [htake, if_neg hne]
        simp [hfraction, hexponent]

/-- The delimiter after a number ends it. -/
theorem split_fraction_of_delimited (hrest : ∀ c ∈ rest.head?, isBare c = false) :
    splitFraction rest = ([], rest) := by
  unfold splitFraction
  split
  · exact absurd (hrest '.' rfl) (by decide)
  · rfl

@[inherit_doc split_fraction_of_delimited]
theorem split_exponent_of_delimited (hrest : ∀ c ∈ rest.head?, isBare c = false) :
    splitExponent rest = (none, rest) := by
  have hletter : ∀ c ∈ rest.head?, ¬(c = 'e' ∨ c = 'E') := by
    rintro c hc (rfl | rfl)
    · exact absurd (hrest _ hc) (by decide)
    · exact absurd (hrest _ hc) (by decide)
  unfold splitExponent
  split
  · rw [if_neg (hletter _ rfl)]
  · rw [if_neg (hletter _ rfl)]
  · rw [if_neg (hletter _ rfl)]
  · rfl

theorem not_digit_of_not_bare {c : Char} (h : isBare c = false) : c.isDigit = false := by
  cases hc : c.isDigit with
  | false => rfl
  | true => rw [is_bare_of_is_digit hc] at h; cases h

/-- A number that has a digit first is read as a magnitude. -/
theorem read_scalar_of_digit {c : Char} (hc : c.isDigit = true) :
    readScalar (c :: cs) = readMagnitude false (c :: cs) := by
  have hword : (['n', 't', 'f', 'N', 'I', '-'].all fun d => !d.isDigit) = true := rfl
  unfold readScalar
  split <;> simp_all

theorem read_scalar_of_dash (hcs : ∀ c ∈ cs.head?, c.isDigit = true) :
    readScalar ('-' :: cs) = readMagnitude true cs := by
  have hword : 'I'.isDigit = false := rfl
  unfold readScalar
  split <;> simp_all

/-- A number that starts with a digit is read behind its sign. -/
theorem read_scalar_signed {negative : Bool} (hds : ∃ c cs, ds = c :: cs ∧ c.isDigit = true) :
    readScalar (signed negative ds ++ rest) = readMagnitude negative (ds ++ rest) := by
  obtain ⟨c, cs, rfl, hc⟩ := hds
  cases negative with
  | false => exact read_scalar_of_digit hc
  | true =>
      refine read_scalar_of_dash ?_
      rintro _ ⟨⟩
      exact hc

theorem signed_nat_abs (i : Int) :
    (if decide (i < 0) = true then -(i.natAbs : Int) else i.natAbs) = i := by
  simp only [decide_eq_true_eq]
  split_ifs <;> omega

/-- A whole number that is short enough is read back. -/
theorem read_scalar_int {i : Int} (hi : Value.isShort i = true)
    (hrest : ∀ c ∈ rest.head?, isBare c = false) :
    readScalar (intChars i ++ rest) = .ok (.int i, rest) := by
  have hlength : ¬ maxDigits < (digitChars i.natAbs).length := by
    have hsize : i.natAbs < tenPow maxDigits := of_decide_eq_true hi
    exact Nat.not_lt.mpr ((length_digit_chars_le_iff (by decide)).mpr hsize)
  have hdigits : ∀ c ∈ rest.head?, c.isDigit = false := fun c hc =>
    not_digit_of_not_bare (hrest c hc)
  rw [int_chars_eq, read_scalar_signed (exists_digit_chars i.natAbs),
    read_magnitude_of_parts (whole_digit_chars _) hdigits (split_fraction_of_delimited hrest)
      (split_exponent_of_delimited hrest),
    if_pos ⟨rfl, rfl⟩, if_neg hlength, digits_value_digit_chars, signed_nat_abs]

/-! ## Binary64 numbers -/

theorem drop_digits (hds : ∀ c ∈ ds, c.isDigit = true)
    (hrest : ∀ c ∈ rest.head?, c.isDigit = false) :
    (ds ++ rest).dropWhile Char.isDigit = rest := by
  rw [List.dropWhile_append_of_pos hds]
  cases rest with
  | nil => rfl
  | cons c rest => simp [hrest c rfl]

theorem split_fraction_digits (hne : ds ≠ []) (hds : ∀ c ∈ ds, c.isDigit = true)
    (hrest : ∀ c ∈ rest.head?, c.isDigit = false) :
    splitFraction ('.' :: (ds ++ rest)) = (ds, rest) := by
  simp only [splitFraction, take_digits hds hrest, drop_digits hds hrest, if_neg hne]

theorem split_exponent_signed (negative : Bool) (hne : ds ≠ []) (hds : ∀ c ∈ ds, c.isDigit = true)
    (hrest : ∀ c ∈ rest.head?, c.isDigit = false) :
    splitExponent ('e' :: (if negative then '-' else '+') :: (ds ++ rest)) =
      (some (if negative then -(digitsValue ds : Int) else digitsValue ds), rest) := by
  cases negative <;> simp [splitExponent, take_digits hds hrest, drop_digits hds hrest, hne]

theorem digits_value_append (as bs : List Char) :
    digitsValue (as ++ bs) = bs.foldl (fun n c => n * 10 + (c.toNat - 48)) (digitsValue as) := by
  rw [digitsValue, List.foldl_append]
  rfl

/-- Zeros at the end are powers of ten. -/
theorem digits_value_zeros (as : List Char) (count : Nat) :
    digitsValue (as ++ List.replicate count '0') = digitsValue as * tenPow count := by
  rw [digits_value_append]
  generalize digitsValue as = n
  induction count generalizing n with
  | zero => exact (Nat.mul_one n).symm
  | succ count ih =>
      rw [List.replicate_succ, List.foldl_cons, ih, ten_pow_succ, Nat.mul_comm (tenPow count),
        ← Nat.mul_assoc]
      rfl

/-- Zeros in front make no difference. -/
theorem digits_value_padded (count : Nat) (as : List Char) :
    digitsValue (List.replicate count '0' ++ as) = digitsValue as := by
  induction count with
  | zero => rfl
  | succ count ih => exact ih

theorem digits_value_padded_digits (width n : Nat) : digitsValue (paddedDigits width n) = n := by
  rw [paddedDigits, digits_value_padded, digits_value_digit_chars]

theorem is_digit_of_mem_zeros {count : Nat} {c : Char} (h : c ∈ List.replicate count '0') :
    c.isDigit = true := by
  rw [List.eq_of_mem_replicate h]
  rfl

theorem is_digit_of_mem_padded {width n : Nat} {c : Char} (h : c ∈ paddedDigits width n) :
    c.isDigit = true := by
  rcases List.mem_append.mp h with h | h
  · exact is_digit_of_mem_zeros h
  · exact is_digit_of_mem_digit_chars h

theorem read_fraction {ws fs : List Char} (hws : Whole ws) (hne : fs ≠ [])
    (hfs : ∀ c ∈ fs, c.isDigit = true) (hrest : ∀ c ∈ rest.head?, isBare c = false)
    (negative : Bool) : readMagnitude negative (ws ++ '.' :: (fs ++ rest)) =
      .ok (.float (.ofDecimal negative (digitsValue (ws ++ fs)) (0 - fs.length)), rest) := by
  have hdigits : ∀ c ∈ rest.head?, c.isDigit = false := fun c hc =>
    not_digit_of_not_bare (hrest c hc)
  rw [read_magnitude_of_parts hws (by simp) (split_fraction_digits hne hfs hdigits)
    (split_exponent_of_delimited hrest), if_neg (fun h => hne h.1)]
  rfl

/-- The digits of a positive number do not start with a zero. -/
theorem exists_leading_digit {n : Nat} (hn : 0 < n) :
    ∃ c cs, digitChars n = c :: cs ∧ c ≠ '0' ∧ ∀ d ∈ c :: cs, d.isDigit = true := by
  have hwhole := whole_digit_chars n
  generalize hds : digitChars n = ds at hwhole
  cases hwhole with
  | zero =>
      have hzero : n = 0 := digit_chars_inj (hds.trans rfl)
      omega
  | digits hzero h => exact ⟨_, _, rfl, hzero, h⟩

section

variable {c : Char} {size : Nat} (negative : Bool) (hzero : c ≠ '0')
  (hdigits : ∀ d ∈ c :: cs, d.isDigit = true) (hrest : ∀ c ∈ rest.head?, isBare c = false)

include hzero hdigits hrest

/-- Zeros behind the digits, and a point behind the zeros. -/
theorem read_point_behind :
    readMagnitude negative (c :: cs ++ List.replicate size '0' ++ ['.', '0'] ++ rest) =
      .ok (.float (.ofDecimal negative (digitsValue (c :: cs) * tenPow (size + 1)) (-1)),
        rest) := by
  have hws : Whole (c :: (cs ++ List.replicate size '0')) := by
    refine .digits hzero ?_
    rw [← List.cons_append]
    exact List.forall_mem_append.mpr ⟨hdigits, fun d hd => is_digit_of_mem_zeros hd⟩
  have hvalue : digitsValue (c :: (cs ++ List.replicate size '0') ++ ['0']) =
      digitsValue (c :: cs) * tenPow (size + 1) := by
    rw [← digits_value_zeros, List.replicate_succ', ← List.append_assoc]
    rfl
  have hread := read_fraction hws (List.cons_ne_nil '0' []) (List.forall_mem_singleton.mpr rfl)
    hrest negative
  rw [hvalue] at hread
  simpa using hread

/-- The point between two digits. -/
theorem read_point_inside (hsize : size < cs.length) :
    readMagnitude negative
        ((c :: cs).take (size + 1) ++ '.' :: (c :: cs).drop (size + 1) ++ rest) =
      .ok (.float (.ofDecimal negative (digitsValue (c :: cs)) (size - cs.length)), rest) := by
  have hws : Whole (c :: cs.take size) :=
    .digits hzero (List.forall_mem_cons.mpr ⟨hdigits c List.mem_cons_self,
      fun d hd => hdigits d (List.mem_cons_of_mem c (List.mem_of_mem_take hd))⟩)
  have hfs : ∀ d ∈ cs.drop size, d.isDigit = true := fun d hd =>
    hdigits d (List.mem_cons_of_mem c (List.mem_of_mem_drop hd))
  have hlength : (cs.drop size).length = cs.length - size := List.length_drop
  have hne : cs.drop size ≠ [] := List.ne_nil_of_length_pos (by omega)
  have hexponent : (0 : Int) - (cs.drop size).length = size - cs.length := by omega
  have hread := read_fraction hws hne hfs hrest negative
  have hparts : c :: cs.take size ++ cs.drop size = c :: cs := by
    rw [List.cons_append, List.take_append_drop]
  rw [hparts, hexponent] at hread
  simpa using hread

omit hzero in
/-- The point in front of the digits, with zeros behind it. -/
theorem read_point_in_front :
    readMagnitude negative ('0' :: '.' :: List.replicate size '0' ++ c :: cs ++ rest) =
      .ok (.float (.ofDecimal negative (digitsValue (c :: cs)) (-(size + cs.length + 1))),
        rest) := by
  have hfs : ∀ d ∈ List.replicate size '0' ++ c :: cs, d.isDigit = true :=
    List.forall_mem_append.mpr ⟨fun d hd => is_digit_of_mem_zeros hd, hdigits⟩
  have hvalue : digitsValue (['0'] ++ (List.replicate size '0' ++ c :: cs)) =
      digitsValue (c :: cs) := by
    rw [← digits_value_padded (size + 1) (c :: cs)]
    rfl
  have hexponent : (0 : Int) - (List.replicate size '0' ++ c :: cs).length =
      -(size + cs.length + 1) := by
    rw [List.length_append, List.length_replicate, List.length_cons]
    omega
  have hread := read_fraction .zero (by simp) hfs hrest negative
  rw [hvalue, hexponent] at hread
  simpa using hread

/-- An exponent, behind one digit or behind a fraction. -/
theorem read_exponent (width : Nat) (leading : Int) :
    readMagnitude negative ((match c :: cs with
        | [] => []
        | [c] => [c]
        | c :: cs => c :: '.' :: cs) ++ 'e' :: (if leading < 0 then '-' else '+') ::
          paddedDigits width leading.natAbs ++ rest) =
      .ok (.float (.ofDecimal negative (digitsValue (c :: cs)) (leading - cs.length)), rest) := by
  have hdelimited : ∀ c ∈ rest.head?, c.isDigit = false := fun c hc =>
    not_digit_of_not_bare (hrest c hc)
  have hne : paddedDigits width leading.natAbs ≠ [] := by
    obtain ⟨d, ds, hds, -⟩ := exists_digit_chars leading.natAbs
    simp [paddedDigits, hds]
  have hexponent := split_exponent_signed (decide (leading < 0)) hne
    (fun d hd => is_digit_of_mem_padded hd) hdelimited
  rw [digits_value_padded_digits, signed_nat_abs] at hexponent
  simp only [decide_eq_true_eq] at hexponent
  have hws : Whole [c] :=
    .digits hzero (List.forall_mem_singleton.mpr (hdigits c List.mem_cons_self))
  -- Either way the exponent follows, which is no digit.
  generalize hexp : 'e' :: (if leading < 0 then '-' else '+') ::
    (paddedDigits width leading.natAbs ++ rest) = exp at hexponent
  have hexpdigit : ∀ c ∈ exp.head?, c.isDigit = false := by
    rw [← hexp]
    rintro _ ⟨⟩
    rfl
  cases cs with
  | nil =>
      have hfraction : splitFraction exp = ([], exp) := by
        rw [← hexp]
        rfl
      have hread := @read_magnitude_of_parts rest negative _ _ _ _ _ hws hexpdigit hfraction
        hexponent
      rw [if_neg (by simp)] at hread
      simpa [← hexp] using hread
  | cons c' cs =>
      have hfraction : splitFraction ('.' :: (c' :: cs ++ exp)) = (c' :: cs, exp) :=
        split_fraction_digits (List.cons_ne_nil c' cs) (List.forall_mem_cons.mp hdigits).2 hexpdigit
      have hread := @read_magnitude_of_parts rest negative _ _ _ _ _ hws (by simp) hfraction
        hexponent
      rw [if_neg (by simp)] at hread
      simpa [← hexp] using hread

end

/-- What is written of a positive decimal is read as the decimal, with any zeros behind its
digits. -/
theorem read_decimal {d : Decimal} (hd : 0 < d.digits) (negative : Bool)
    (hrest : ∀ c ∈ rest.head?, isBare c = false) :
    ∃ count : Nat, readMagnitude negative (d.write floatFormat ++ rest) =
      .ok (.float (.ofDecimal negative (d.digits * tenPow count) (d.exponent - count)), rest) := by
  obtain ⟨c, cs, hds, hzero, hdigits⟩ := exists_leading_digit hd
  have hvalue : digitsValue (c :: cs) = d.digits := hds ▸ digits_value_digit_chars d.digits
  have hone : d.digits * tenPow 0 = d.digits := Nat.mul_one _
  simp only [Decimal.write, hds]
  split
  next =>
    split
    next hwhole =>
      refine ⟨d.exponent.toNat + 1, ?_⟩
      have hexponent : d.exponent - (d.exponent.toNat + 1 : Nat) = -1 := by omega
      rw [read_point_behind negative hzero hdigits hrest, hvalue, hexponent]
    next hpart =>
      rw [List.length_cons]
      split
      next hinside =>
        refine ⟨0, ?_⟩
        have hsize : (d.exponent + (cs.length + 1 : Nat) - 1).toNat < cs.length := by omega
        have hexponent : ((d.exponent + (cs.length + 1 : Nat) - 1).toNat : Int) - cs.length =
            d.exponent - (0 : Nat) := by omega
        rw [read_point_inside negative hzero hdigits hrest hsize, hvalue, hone, hexponent]
      next hfront =>
        refine ⟨0, ?_⟩
        have hexponent : -(((-(d.exponent + (cs.length + 1 : Nat) - 1)).toNat - 1 : Nat) +
            (cs.length : Int) + 1) = d.exponent - (0 : Nat) := by omega
        rw [read_point_in_front negative hdigits hrest, hvalue, hone, hexponent]
  next =>
    refine ⟨0, ?_⟩
    have hexponent : d.exponent + (c :: cs).length - 1 - cs.length = d.exponent - (0 : Nat) := by
      rw [List.length_cons]
      omega
    have hread := read_exponent negative hzero hdigits hrest floatFormat.exponentDigits
      (d.exponent + (c :: cs).length - 1)
    rw [hvalue, hexponent] at hread
    rw [hone]
    exact hread

/-- A zero is written with its sign. -/
theorem of_decimal_zero {x : Binary64} {negative : Bool} {e : Nat}
    (hx : x.reading = .finite negative 0 e) (scale : Int) : .ofDecimal negative 0 scale = x := by
  obtain ⟨hcanonical, rfl⟩ := Binary64.of_reading_finite hx
  have he : e = 0 := hcanonical.normal.resolve_right
    (Nat.not_le.mpr (zero_lt_two_pow 52))
  simp [he, Binary64.ofDecimal]

/-- Every number but a not-a-number is read back. -/
theorem read_scalar_float {x : Binary64} (hx : x.isNan = false)
    (hrest : ∀ c ∈ rest.head?, isBare c = false) :
    readScalar (x.chars floatFormat ++ rest) = .ok (.float x, rest) := by
  cases hreading : x.reading with
  | nan => simp [Binary64.isNan, hreading] at hx
  | infinite negative =>
      have hchars : x.chars floatFormat = signed negative "Infinity".toList := by
        simp only [Binary64.chars, hreading]
        rfl
      rw [hchars, Binary64.of_reading_infinite hreading]
      cases negative <;> rfl
  | finite negative m e =>
      cases m with
      | zero =>
          have hchars : x.chars floatFormat = signed negative ['0', '.', '0'] := by
            simp only [Binary64.chars, hreading]
            rfl
          have hread := read_fraction .zero (List.cons_ne_nil '0' [])
            (List.forall_mem_singleton.mpr rfl) hrest negative
          rw [hchars, read_scalar_signed ⟨'0', ['.', '0'], rfl, rfl⟩]
          refine hread.trans ?_
          rw [show digitsValue (['0'] ++ ['0']) = 0 from rfl, of_decimal_zero hreading]
      | succ m =>
          have hchars : x.chars floatFormat =
              signed negative ((Binary64.shortest (m + 1) e).write floatFormat) := by
            simp only [Binary64.chars, hreading]
            rfl
          have hpos := Binary64.shortest_digits_pos hreading (Nat.succ_pos m)
          obtain ⟨count, hread⟩ := read_decimal hpos negative hrest
          have hdigit := (Decimal.fractional_write floatFormat
            (Binary64.shortest (m + 1) e)).digit_first
          rw [hchars, read_scalar_signed hdigit, hread,
            Binary64.of_decimal_shortest hreading (Nat.succ_pos m)]

end Statechart.Json
