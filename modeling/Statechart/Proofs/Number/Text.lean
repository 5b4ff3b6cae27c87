import Mathlib.Data.List.Basic
import Statechart.Json.Writer
import Statechart.Value.Display

/-!
# Texts of numbers

A whole number is determined by its digits. The text of a binary64 number always has something that
no whole number has, a point, an exponent or a letter, so the two kinds cannot be confused. Values
and JSON write binary64 numbers in different words only where they are not finite, so two numbers
that one of them writes alike are written alike by the other: `chars_display_iff`.
-/

namespace Statechart

/-! ## Whole numbers -/

theorem is_digit_of_mem_digit_chars {n : Nat} {c : Char} (h : c ∈ digitChars n) :
    c.isDigit = true :=
  Nat.isDigit_of_mem_toDigits (by decide) (by decide) h

/-- There is a first digit. -/
theorem exists_digit_chars (n : Nat) : ∃ c cs, digitChars n = c :: cs ∧ c.isDigit = true := by
  have hne : digitChars n ≠ [] := Nat.toDigits_ne_nil
  obtain ⟨c, cs, h⟩ := List.exists_cons_of_ne_nil hne
  exact ⟨c, cs, h, is_digit_of_mem_digit_chars (n := n) (by simp [h])⟩

theorem digit_chars_inj {m n : Nat} (h : digitChars m = digitChars n) : m = n :=
  calc
    m = Nat.ofDigitChars 10 (digitChars m) 0 := Nat.ofDigitChars_ten_toDigits.symm
    _ = Nat.ofDigitChars 10 (digitChars n) 0 := by rw [h]
    _ = n := Nat.ofDigitChars_ten_toDigits

/-- A text behind a minus sign, if there is one. -/
def signed (negative : Bool) (cs : List Char) : List Char :=
  if negative then '-' :: cs else cs

/-- The sign of a text that does not start with one can be told. -/
theorem signed_inj {a b : Bool} {cs ds : List Char} (hcs : cs.head? ≠ some '-')
    (hds : ds.head? ≠ some '-') (h : signed a cs = signed b ds) : a = b ∧ cs = ds := by
  cases a <;> cases b
  · exact ⟨rfl, h⟩
  · exact absurd (congrArg List.head? h) hcs
  · exact absurd (congrArg List.head? h).symm hds
  · exact ⟨rfl, (List.cons.inj h).2⟩

/-- A minus sign does not come first in digits. -/
theorem head_ne_dash {c : Char} {cs : List Char} (hc : c.isDigit = true) :
    (c :: cs).head? ≠ some '-' := by
  rintro ⟨⟩
  exact absurd hc (by decide)

/-- A whole number is written by its sign and the digits of its size. -/
theorem int_chars_eq (i : Int) : intChars i = signed (i < 0) (digitChars i.natAbs) := by
  cases i with
  | ofNat n => rfl
  | negSucc n => simp [intChars, signed, Int.negSucc_lt_zero]

/-- A whole number is written by digits and a minus sign. -/
theorem is_digit_of_mem_int_chars {i : Int} {c : Char} (h : c ∈ intChars i) :
    c.isDigit = true ∨ c = '-' := by
  rw [int_chars_eq, signed] at h
  split at h
  · rcases List.mem_cons.mp h with rfl | h
    · exact Or.inr rfl
    · exact Or.inl (is_digit_of_mem_digit_chars h)
  · exact Or.inl (is_digit_of_mem_digit_chars h)

theorem int_chars_ne_nil (i : Int) : intChars i ≠ [] := by
  rw [int_chars_eq, signed]
  split
  · simp
  · exact Nat.toDigits_ne_nil

/-- Whole numbers with the same text are equal. -/
theorem int_chars_inj {i j : Int} (h : intChars i = intChars j) : i = j := by
  have hhead : ∀ n, (digitChars n).head? ≠ some '-' := by
    intro n
    obtain ⟨c, cs, hn, hc⟩ := exists_digit_chars n
    rw [hn]
    exact head_ne_dash hc
  rw [int_chars_eq, int_chars_eq] at h
  obtain ⟨hsign, hsize⟩ := signed_inj (hhead _) (hhead _) h
  have hsize : i.natAbs = j.natAbs := digit_chars_inj hsize
  have hsign : i < 0 ↔ j < 0 := by simpa using hsign
  omega

/-! ## Binary64 numbers -/

/-- The characters of numbers: letters, digits, points and signs. -/
def isBare (c : Char) : Bool :=
  c.isAlphanum || c == '.' || c == '-' || c == '+'

theorem is_bare_of_is_digit {c : Char} (h : c.isDigit = true) : isBare c = true := by
  simp [isBare, Char.isAlphanum, h]

/-- Digits with a point or an exponent. -/
structure Fractional (cs : List Char) : Prop where
  digit_first : ∃ c ds, cs = c :: ds ∧ c.isDigit = true
  bare : ∀ c ∈ cs, isBare c = true
  point_or_exponent : '.' ∈ cs ∨ 'e' ∈ cs

/-- A positive decimal is written by digits with a point or an exponent. -/
theorem Decimal.fractional_write (f : DecimalFormat) (d : Decimal) : Fractional (d.write f) := by
  obtain ⟨c, cs, hds, hc⟩ := exists_digit_chars d.digits
  have hdigits : ∀ n, ∀ x ∈ digitChars n, isBare x = true := fun n x hx =>
    is_bare_of_is_digit (is_digit_of_mem_digit_chars hx)
  have hzeros : ∀ n, ∀ x ∈ List.replicate n '0', isBare x = true := fun n x hx => by
    rw [List.eq_of_mem_replicate hx]
    rfl
  obtain ⟨hfirst, hrest⟩ : isBare c = true ∧ ∀ x ∈ cs, isBare x = true :=
    List.forall_mem_cons.mp (hds ▸ hdigits d.digits)
  have hexponent : ∀ n, ∀ x ∈ paddedDigits f.exponentDigits n, isBare x = true := fun n =>
    List.forall_mem_append.mpr ⟨hzeros _, hdigits n⟩
  have hsign : ∀ b : Prop, [Decidable b] → isBare (if b then '-' else '+') = true := by
    intro b _
    split <;> rfl
  simp only [Decimal.write, hds]
  -- A case for each way of writing: the point behind, inside or before the digits, or an exponent.
  split
  · split
    · refine ⟨⟨c, _, rfl, hc⟩, ?_, by simp⟩
      simp only [List.forall_mem_append, List.forall_mem_cons]
      exact ⟨⟨⟨hfirst, hrest⟩, hzeros _⟩, rfl, rfl, List.forall_mem_nil _⟩
    · split
      · refine ⟨⟨c, _, rfl, hc⟩, ?_, by simp⟩
        simp only [List.take_succ_cons, List.drop_succ_cons, List.forall_mem_append,
          List.forall_mem_cons]
        exact ⟨⟨hfirst, fun x hx => hrest x (List.mem_of_mem_take hx)⟩, rfl,
          fun x hx => hrest x (List.mem_of_mem_drop hx)⟩
      · refine ⟨⟨'0', _, rfl, rfl⟩, ?_, by simp⟩
        simp only [List.forall_mem_append, List.forall_mem_cons, List.cons_append]
        exact ⟨rfl, rfl, hzeros _, hfirst, hrest⟩
  · cases cs with
    | nil =>
        refine ⟨⟨c, _, rfl, hc⟩, ?_, by simp⟩
        simp only [List.forall_mem_cons, List.cons_append, List.nil_append]
        exact ⟨hfirst, rfl, hsign _, hexponent _⟩
    | cons c' cs =>
        refine ⟨⟨c, _, rfl, hc⟩, ?_, by simp⟩
        simp only [List.forall_mem_append, List.forall_mem_cons, List.cons_append]
        exact ⟨hfirst, rfl, hrest _ List.mem_cons_self,
          fun x hx => hrest x (List.mem_cons_of_mem _ hx), rfl, hsign _, hexponent _⟩

/-- A text that does not start with a digit is no such text. -/
theorem Fractional.ne {cs ds : List Char} (h : Fractional cs)
    (hds : ds.head?.any Char.isDigit = false) : cs ≠ ds := by
  rintro rfl
  obtain ⟨c, cs, rfl, hc⟩ := h.digit_first
  simp [hc] at hds

namespace Binary64

/-- What a number is written by behind its sign: the word for a not-a-number or for an infinity, or
digits that are the same for values and for JSON. -/
inductive Word (word : DecimalFormat → List Char) : Prop where
  | nan (h : ∀ f, word f = f.nan.toList)
  | infinity (h : ∀ f, word f = f.infinity.toList)
  | digits (h : Fractional (word Json.floatFormat))
      (same : word Value.floatFormat = word Json.floatFormat)

/-- Every number is written by a sign and a word. -/
theorem exists_word (x : Binary64) :
    ∃ negative word, Word word ∧ ∀ f, x.chars f = signed negative (word f) := by
  unfold chars
  cases x.reading with
  | nan => exact ⟨false, _, .nan fun _ => rfl, fun _ => rfl⟩
  | infinite negative => exact ⟨negative, _, .infinity fun _ => rfl, fun _ => rfl⟩
  | finite negative m e =>
      cases m with
      | zero =>
          refine ⟨negative, fun _ => ['0', '.', '0'], .digits ?_ rfl, fun _ => rfl⟩
          exact ⟨⟨'0', _, rfl, rfl⟩, List.all_eq_true.mp rfl, by simp⟩
      | succ m =>
          exact ⟨negative, _, .digits (Decimal.fractional_write _ _) rfl, fun _ => rfl⟩

theorem Word.head_ne_dash {word : DecimalFormat → List Char} (h : Word word) :
    (word Value.floatFormat).head? ≠ some '-' ∧ (word Json.floatFormat).head? ≠ some '-' := by
  cases h with
  | nan h => simp [h, Value.floatFormat, Json.floatFormat]
  | infinity h => simp [h, Value.floatFormat, Json.floatFormat]
  | digits h same =>
      obtain ⟨c, cs, hcs, hc⟩ := h.digit_first
      rw [same, hcs]
      exact ⟨Statechart.head_ne_dash hc, Statechart.head_ne_dash hc⟩

/-- A word starts with a digit or a capital letter, and something in it is no digit. -/
theorem Word.json {word : DecimalFormat → List Char} (h : Word word) :
    (∀ c ∈ word Json.floatFormat, isBare c = true) ∧
      (∃ c cs, word Json.floatFormat = c :: cs ∧ (c.isDigit = true ∨ c.isUpper = true)) ∧
      ∃ c ∈ word Json.floatFormat, c.isDigit = false ∧ c ≠ '-' := by
  cases h with
  | nan h =>
      rw [h]
      exact ⟨List.all_eq_true.mp rfl, ⟨'N', ['a', 'N'], rfl, Or.inr rfl⟩, 'N', by decide⟩
  | infinity h =>
      rw [h]
      exact ⟨List.all_eq_true.mp rfl, ⟨'I', _, rfl, Or.inr rfl⟩, 'I', by decide⟩
  | digits h same =>
      obtain ⟨c, cs, hcs, hc⟩ := h.digit_first
      refine ⟨h.bare, ⟨c, cs, hcs, Or.inl hc⟩, ?_⟩
      rcases h.point_or_exponent with hpoint | hexponent
      · exact ⟨'.', hpoint, rfl, by decide⟩
      · exact ⟨'e', hexponent, rfl, by decide⟩

/-- The JSON text of a number starts with a digit, a minus sign or a capital letter, and something
in it is neither a digit nor a minus sign. -/
theorem json_chars (x : Binary64) :
    (∀ c ∈ x.chars Json.floatFormat, isBare c = true) ∧
      (∃ c cs, x.chars Json.floatFormat = c :: cs ∧
        (c.isDigit = true ∨ c = '-' ∨ c.isUpper = true)) ∧
      ∃ c ∈ x.chars Json.floatFormat, c.isDigit = false ∧ c ≠ '-' := by
  obtain ⟨negative, word, hword, hx⟩ := x.exists_word
  obtain ⟨hbare, ⟨c, cs, hcs, hc⟩, d, hd, hother⟩ := hword.json
  rw [hx]
  cases negative with
  | false => exact ⟨hbare, ⟨c, cs, hcs, hc.imp_right Or.inr⟩, d, hd, hother⟩
  | true =>
      exact ⟨List.forall_mem_cons.mpr ⟨rfl, hbare⟩, ⟨'-', _, rfl, Or.inr (Or.inl rfl)⟩, d,
        List.mem_cons_of_mem _ hd, hother⟩

/-- Words that values write alike are written alike by JSON. -/
theorem Word.eq_iff {v w : DecimalFormat → List Char} (hv : Word v) (hw : Word w) :
    v Value.floatFormat = w Value.floatFormat ↔ v Json.floatFormat = w Json.floatFormat := by
  cases hv with
  | nan hv =>
      cases hw with
      | nan hw => simp [hv, hw]
      | infinity hw => simp [hv, hw, Value.floatFormat, Json.floatFormat]
      | digits hw same =>
          rw [hv, hv, same]
          exact iff_of_false (hw.ne rfl).symm (hw.ne rfl).symm
  | infinity hv =>
      cases hw with
      | nan hw => simp [hv, hw, Value.floatFormat, Json.floatFormat]
      | infinity hw => simp [hv, hw]
      | digits hw same =>
          rw [hv, hv, same]
          exact iff_of_false (hw.ne rfl).symm (hw.ne rfl).symm
  | digits hv same =>
      cases hw with
      | nan hw =>
          rw [hw, hw, same]
          exact iff_of_false (hv.ne rfl) (hv.ne rfl)
      | infinity hw =>
          rw [hw, hw, same]
          exact iff_of_false (hv.ne rfl) (hv.ne rfl)
      | digits hw same' => rw [same, same']

/-- Numbers that values write alike are written alike by JSON. -/
theorem chars_display_iff {x y : Binary64} :
    x.chars Value.floatFormat = y.chars Value.floatFormat ↔
      x.chars Json.floatFormat = y.chars Json.floatFormat := by
  obtain ⟨a, v, hv, hx⟩ := x.exists_word
  obtain ⟨b, w, hw, hy⟩ := y.exists_word
  have hiff : ∀ f, (v f).head? ≠ some '-' → (w f).head? ≠ some '-' →
      (x.chars f = y.chars f ↔ a = b ∧ v f = w f) := by
    intro f hvf hwf
    rw [hx, hy]
    refine ⟨signed_inj hvf hwf, ?_⟩
    rintro ⟨rfl, h⟩
    rw [h]
  rw [hiff _ hv.head_ne_dash.1 hw.head_ne_dash.1, hiff _ hv.head_ne_dash.2 hw.head_ne_dash.2,
    hv.eq_iff hw]

end Binary64

end Statechart
