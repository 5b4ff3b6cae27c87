import Statechart.Json.Reader
import Statechart.Proofs.Entries
import Statechart.Proofs.Number.Text

/-!
# The text of a JSON value on one line

A text on one line determines the value, apart from binary64 numbers, of which it determines the
texts: `write_inj_iff`. A string ends at its closing quote, since the reader of strings takes back
what was written: `read_string_written`. All other texts end at the delimiter that follows.
-/

namespace Statechart.Json

/-! ## Strings -/

/-- A character is no surrogate. -/
theorem not_surrogate (c : Char) : ¬ (0xd800 ≤ c.toNat ∧ c.toNat < 0xe000) := by
  have hvalid : c.toNat < 0xd800 ∨ 0xdfff < c.toNat ∧ c.toNat < 0x110000 := c.valid
  omega

/-- An escaped character is read back. -/
theorem join_units_unit (c : Char) (ps : List Piece) :
    joinUnits (.unit c.toNat :: ps) = (joinUnits ps).map (c :: ·) := by
  have hsurrogate := not_surrogate c
  have hpair : ∀ k, ¬ (0xd800 ≤ c.toNat ∧ c.toNat < 0xdc00 ∧ 0xdc00 ≤ k ∧ k < 0xe000) := by omega
  cases ps with
  | nil => simp only [joinUnits, if_neg hsurrogate, Char.ofNat_toNat]
  | cons p ps =>
      cases p with
      | char d => simp only [joinUnits, if_neg hsurrogate, Char.ofNat_toNat]
      | unit k => simp only [joinUnits, if_neg hsurrogate, if_neg (hpair k), Char.ofNat_toNat]

/-- The two units of a character beyond U+FFFF. -/
def highUnit (c : Char) : Nat :=
  0xd800 + (c.toNat - 0x10000) / 0x400

@[inherit_doc highUnit]
def lowUnit (c : Char) : Nat :=
  0xdc00 + (c.toNat - 0x10000) % 0x400

/-- The units of a character beyond U+FFFF lie in the ranges of surrogates and give it back. -/
theorem units_bounds {c : Char} (hc : 0x10000 ≤ c.toNat) :
    0xd800 ≤ highUnit c ∧ highUnit c < 0xdc00 ∧ 0xdc00 ≤ lowUnit c ∧ lowUnit c < 0xe000 ∧
      0x10000 + (highUnit c - 0xd800) * 0x400 + (lowUnit c - 0xdc00) = c.toNat := by
  have hvalid : c.toNat < 0xd800 ∨ 0xdfff < c.toNat ∧ c.toNat < 0x110000 := c.valid
  simp only [highUnit, lowUnit]
  omega

/-- An escaped surrogate pair is read back. -/
theorem join_units_pair {c : Char} (hc : 0x10000 ≤ c.toNat) (ps : List Piece) :
    joinUnits (.unit (highUnit c) :: .unit (lowUnit c) :: ps) = (joinUnits ps).map (c :: ·) := by
  obtain ⟨hhigh, hhigh', hlow, hlow', hsum⟩ := units_bounds hc
  rw [joinUnits, if_pos ⟨hhigh, hhigh', hlow, hlow'⟩, hsum, Char.ofNat_toNat]

/-- The ways in which a character is written. -/
inductive Escaped (c : Char) : List Char → Prop where
  | letter (d : Char) (h : simpleEscape? d = some c) : Escaped c ['\\', d]
  | unit (h : c.toNat < 0x10000) : Escaped c (unitEscape c.toNat)
  | pair (h : 0x10000 ≤ c.toNat) :
      Escaped c (unitEscape (highUnit c) ++ unitEscape (lowUnit c))
  | plain (h : c ≠ '"' ∧ c ≠ '\\' ∧ 32 ≤ c.toNat) : Escaped c [c]

theorem escaped_escape_char (ascii : Bool) (c : Char) : Escaped c (escapeChar ascii c) := by
  have hchar : ∀ n, c.toNat = n → c = Char.ofNat n := by
    rintro n rfl
    exact (Char.ofNat_toNat c).symm
  simp only [escapeChar]
  split_ifs with hquote hb ht hn hf hr hcontrol hascii hbasic
  · rcases hquote with rfl | rfl
    · exact .letter '"' rfl
    · exact .letter '\\' rfl
  · exact .letter 'b' (by rw [hchar _ hb]; rfl)
  · exact .letter 't' (by rw [hchar _ ht]; rfl)
  · exact .letter 'n' (by rw [hchar _ hn]; rfl)
  · exact .letter 'f' (by rw [hchar _ hf]; rfl)
  · exact .letter 'r' (by rw [hchar _ hr]; rfl)
  · exact .unit (by omega)
  · exact .unit hbasic
  · exact .pair (Nat.le_of_not_lt hbasic)
  · rw [not_or] at hquote
    exact .plain ⟨hquote.1, hquote.2, Nat.le_of_not_lt hcontrol⟩

/-- The digits of a unit are read back. -/
theorem hex_unit_digits {n : Nat} (hn : n < 0x10000) :
    ∃ a b c d, Text.hexDigits 4 n = [a, b, c, d] ∧ hexUnit? a b c d = some n := by
  have hdigit : ∀ n, hexValue? (Text.hexDigit n) = some (n % 16) := by
    have hsmall : ∀ k < 16, hexValue? (Nat.digitChar k) = some k := by decide
    exact fun n => hsmall (n % 16) (Nat.mod_lt n (by decide))
  refine ⟨_, _, _, _, rfl, ?_⟩
  simp only [hexUnit?, hdigit, Option.bind_eq_bind, Option.bind_some, Option.some.injEq]
  omega

variable {c e : Char} {written cs rest : List Char} {ps : List Piece}

/-- An escaped unit is read as such. -/
theorem read_pieces_unit {n : Nat} (hn : n < 0x10000)
    (hps : readPieces (e :: cs) = .ok (ps, rest)) :
    readPieces (unitEscape n ++ e :: cs) = .ok (.unit n :: ps, rest) := by
  obtain ⟨x, y, z, w, hdigits, hunit⟩ := hex_unit_digits hn
  simp [unitEscape, hdigits, readPieces, hunit, hps]

/-- Reading what a character is written as gives the character, and then what follows. -/
theorem read_pieces_escaped (h : Escaped c written) (hps : readPieces (e :: cs) = .ok (ps, rest)) :
    ∃ qs, readPieces (written ++ e :: cs) = .ok (qs, rest) ∧
      joinUnits qs = (joinUnits ps).map (c :: ·) := by
  cases h with
  | letter d h =>
      refine ⟨.char c :: ps, ?_, rfl⟩
      have hd : d ≠ 'u' := by
        rintro rfl
        simp [simpleEscape?] at h
      simp [readPieces, h, hps, hd]
  | unit h => exact ⟨_, read_pieces_unit h hps, join_units_unit c ps⟩
  | pair h =>
      obtain ⟨-, hhigh, -, hlow, -⟩ := units_bounds h
      have hsecond := read_pieces_unit (Nat.lt_trans hlow (by decide)) hps
      refine ⟨_, ?_, join_units_pair h ps⟩
      rw [List.append_assoc]
      exact read_pieces_unit (Nat.lt_trans hhigh (by decide)) hsecond
  | plain h =>
      refine ⟨.char c :: ps, ?_, rfl⟩
      obtain ⟨hquote, hbackslash, hcontrol⟩ := h
      rw [List.singleton_append, readPieces.eq_def]
      split <;> simp_all

/-- A string is read back up to its closing quote. -/
theorem read_string_written (ascii : Bool) (s : String) (rest : List Char) :
    readString (s.toList.flatMap (escapeChar ascii) ++ '"' :: rest) = .ok (s, rest) := by
  have hpieces : ∀ cs : List Char, ∃ ps,
      readPieces (cs.flatMap (escapeChar ascii) ++ '"' :: rest) = .ok (ps, rest) ∧
        joinUnits ps = some cs := by
    intro cs
    induction cs with
    | nil => exact ⟨[], by simp [readPieces], rfl⟩
    | cons c cs ih =>
        obtain ⟨ps, hps, hjoin⟩ := ih
        -- An escaped unit is read only before a further character, and there always is one.
        obtain ⟨e, es, he⟩ : ∃ e es, cs.flatMap (escapeChar ascii) ++ '"' :: rest = e :: es :=
          List.exists_cons_of_ne_nil (by simp)
        rw [he] at hps
        obtain ⟨qs, hqs, hc⟩ := read_pieces_escaped (escaped_escape_char ascii c) hps
        refine ⟨qs, ?_, by rw [hc, hjoin, Option.map_some]⟩
        rw [List.flatMap_cons, List.append_assoc, he, hqs]
  obtain ⟨ps, hps, hjoin⟩ := hpieces s.toList
  rw [readString, hps]
  simp [Bind.bind, Except.bind, hjoin, pure, Except.pure]

theorem string_chars_append (ascii : Bool) (s : String) (rest : List Char) :
    stringChars ascii s ++ rest = '"' :: (s.toList.flatMap (escapeChar ascii) ++ '"' :: rest) := by
  simp [stringChars]

/-- Two strings with the same text at the front are equal, and so is what follows. -/
theorem string_chars_inj {ascii : Bool} {s t : String} {rest rest' : List Char}
    (h : stringChars ascii s ++ rest = stringChars ascii t ++ rest') : s = t ∧ rest = rest' := by
  rw [string_chars_append, string_chars_append] at h
  have hboth := read_string_written ascii s rest
  rw [(List.cons.inj h).2, read_string_written ascii t rest'] at hboth
  obtain ⟨rfl, rfl⟩ := Prod.mk.inj (Except.ok.inj hboth)
  exact ⟨rfl, rfl⟩

/-! ## Values with one text -/

/-- Two values that are the same apart from binary64 numbers, which are only written alike. -/
inductive Similar : Json → Json → Prop where
  | same (x : Json) : Similar x x
  | float {x y : Binary64} (h : x.chars floatFormat = y.chars floatFormat) :
      Similar (.float x) (.float y)
  | arr {xs ys : List Json} (h : List.Forall₂ Similar xs ys) : Similar (.arr xs) (.arr ys)
  | obj {ms ns : List (String × Json)} (h : Entrywise Similar ms ns) : Similar (.obj ms) (.obj ns)

/-- Only an array is similar to an array. -/
theorem Similar.exists_items {xs : List Json} {y : Json} (h : Similar (.arr xs) y) :
    ∃ ys, y = .arr ys ∧ List.Forall₂ Similar xs ys := by
  cases h with
  | same => exact ⟨xs, rfl, List.forall₂_same.mpr fun x _ => .same x⟩
  | arr h => exact ⟨_, rfl, h⟩

/-- Only an object is similar to an object. -/
theorem Similar.exists_members {ms : List (String × Json)} {y : Json} (h : Similar (.obj ms) y) :
    ∃ ns, y = .obj ns ∧ Entrywise Similar ms ns := by
  cases h with
  | same => exact ⟨ms, rfl, .same Similar.same ms⟩
  | obj h => exact ⟨_, rfl, h⟩

mutual

/-- Similar values have the same text in every style. -/
theorem Similar.chars_eq (style : Style) (depth : Nat) :
    ∀ {x y : Json}, Similar x y → chars style depth x = chars style depth y
  | _, _, .same _ => rfl
  | _, _, .float h => h
  | _, _, .arr .nil => rfl
  | .arr (x :: xs), .arr (y :: ys), .arr (.cons h hs) => by
      simp only [chars, h.chars_eq, item_chars_eq style (depth + 1) hs]
  | _, _, .obj .nil => rfl
  | .obj ((k, x) :: ms), .obj ((_, y) :: ns), .obj (.cons h hs) => by
      simp only [chars, h.chars_eq, member_chars_eq style (depth + 1) hs]

/-- Similar items have the same text. -/
theorem item_chars_eq (style : Style) (depth : Nat) :
    ∀ {xs ys : List Json}, List.Forall₂ Similar xs ys →
      itemChars style depth xs = itemChars style depth ys
  | _, _, .nil => rfl
  | x :: xs, y :: ys, .cons h hs => by
      simp only [itemChars, h.chars_eq, item_chars_eq style depth hs]

/-- Similar members have the same text. -/
theorem member_chars_eq (style : Style) (depth : Nat) :
    ∀ {ms ns : List (String × Json)}, Entrywise Similar ms ns →
      memberChars style depth ms = memberChars style depth ns
  | _, _, .nil => rfl
  | (k, x) :: ms, (_, y) :: ns, .cons h hs => by
      simp only [memberChars, h.chars_eq, member_chars_eq style depth hs]

end

/-! ## Reading a text apart -/

/-- Values stand on one line: a comma and a colon are followed by blanks, if by anything. -/
structure Style.OneLine (style : Style) : Prop where
  no_indent : style.indent = none
  comma : ∃ n, style.comma = ',' :: List.replicate n ' '
  colon : ∃ n, style.colon = ':' :: List.replicate n ' '

theorem compact_one_line : compact.OneLine :=
  ⟨rfl, ⟨0, rfl⟩, ⟨0, rfl⟩⟩

theorem spaced_ascii_one_line : spacedAscii.OneLine :=
  ⟨rfl, ⟨1, rfl⟩, ⟨1, rfl⟩⟩

/-- There are no breaks on one line. -/
theorem Style.OneLine.newline_eq {style : Style} (h : style.OneLine) (depth : Nat) :
    style.newline depth = [] := by
  simp [Style.newline, h.no_indent]

/-- The character that opens the text of a string, an array or an object. -/
def opener : Json → Option Char
  | .str _ => some '"'
  | .arr _ => some '['
  | .obj _ => some '{'
  | _ => none

variable {style : Style} {x y : Json} {depth : Nat} {rest rest' : List Char}

/-- The text of a value without an opening character is bare throughout. -/
theorem is_bare_of_mem_chars (h : opener x = none) :
    ∀ c ∈ chars style depth x, isBare c = true := by
  have hnull : ∀ c ∈ ['n', 'u', 'l', 'l'], isBare c = true := List.all_eq_true.mp rfl
  have htrue : ∀ c ∈ ['t', 'r', 'u', 'e'], isBare c = true := List.all_eq_true.mp rfl
  have hfalse : ∀ c ∈ ['f', 'a', 'l', 's', 'e'], isBare c = true := List.all_eq_true.mp rfl
  cases x with
  | null => exact hnull
  | bool b =>
      cases b with
      | true => exact htrue
      | false => exact hfalse
  | int i =>
      intro c hc
      rcases is_digit_of_mem_int_chars hc with hc | rfl
      · exact is_bare_of_is_digit hc
      · rfl
  | float x => exact x.json_chars.1
  | _ => cases h

/-- The first character of a text tells whether the value has an opening character, and which. -/
theorem exists_chars (x : Json) (depth : Nat) : ∃ c cs, chars style depth x = c :: cs ∧
    (opener x = some c ∨ opener x = none ∧ isBare c = true) := by
  have hbare : opener x = none → chars style depth x ≠ [] →
      ∃ c cs, chars style depth x = c :: cs ∧
        (opener x = some c ∨ opener x = none ∧ isBare c = true) := by
    intro h hne
    obtain ⟨c, cs, hcs⟩ := List.exists_cons_of_ne_nil hne
    exact ⟨c, cs, hcs, Or.inr ⟨h, is_bare_of_mem_chars h c (hcs ▸ List.mem_cons_self)⟩⟩
  cases x with
  | null => exact hbare rfl (by simp [chars])
  | bool b => exact hbare rfl (by cases b <;> simp [chars])
  | int i => exact hbare rfl (int_chars_ne_nil i)
  | float x =>
      obtain ⟨-, ⟨c, cs, hcs, -⟩, -⟩ := x.json_chars
      exact hbare rfl (by simp [chars, hcs])
  | str s => exact ⟨'"', _, rfl, Or.inl rfl⟩
  | arr xs => cases xs <;> exact ⟨'[', _, rfl, Or.inl rfl⟩
  | obj ms => rcases ms with _ | ⟨⟨k, x⟩, ms⟩ <;> exact ⟨'{', _, rfl, Or.inl rfl⟩

/-- Texts with the same front are those of values with the same opening character. -/
theorem opener_eq (h : chars style depth x ++ rest = chars style depth y ++ rest') :
    opener x = opener y := by
  obtain ⟨c, cs, hx, hc⟩ := exists_chars x depth
  obtain ⟨d, ds, hy, hd⟩ := exists_chars y depth
  rw [hx, hy] at h
  obtain rfl : c = d := (List.cons.inj h).1
  have hquote : ∀ z, opener z = some c → isBare c = false := by
    intro z hz
    cases z <;> cases hz <;> rfl
  rcases hc with hc | ⟨hc, hbare⟩ <;> rcases hd with hd | ⟨hd, hbare'⟩
  · rw [hc, hd]
  · simp [hquote x hc] at hbare'
  · simp [hquote y hd] at hbare
  · rw [hc, hd]

/-- Where a bare text ends, and what follows it, is determined. -/
theorem bare_append_inj {cs ds : List Char} (hcs : ∀ c ∈ cs, isBare c = true)
    (hds : ∀ c ∈ ds, isBare c = true) (hrest : ∀ c ∈ rest.head?, isBare c = false)
    (hrest' : ∀ c ∈ rest'.head?, isBare c = false) (h : cs ++ rest = ds ++ rest') :
    cs = ds ∧ rest = rest' := by
  have htake : ∀ {es r : List Char}, (∀ c ∈ es, isBare c = true) →
      (∀ c ∈ r.head?, isBare c = false) → (es ++ r).takeWhile isBare = es := by
    intro es r hes hr
    rw [List.takeWhile_append_of_pos hes]
    cases r with
    | nil => simp
    | cons c r => simp [hr c rfl]
  have hcs : cs = ds := by rw [← htake hcs hrest, h, htake hds hrest']
  subst hcs
  exact ⟨rfl, List.append_cancel_left h⟩

/-- The texts of null and of the truth values. -/
def literals : List (List Char) :=
  [['n', 'u', 'l', 'l'], ['t', 'r', 'u', 'e'], ['f', 'a', 'l', 's', 'e']]

/-- A number is written by none of the words. -/
theorem not_mem_literals {c : Char} {cs : List Char}
    (hc : c.isDigit = true ∨ c = '-' ∨ c.isUpper = true) : c :: cs ∉ literals := by
  intro hmem
  have hfirst : ∀ ds ∈ literals,
      (ds.head?.all fun d => !(d.isDigit || d == '-' || d.isUpper)) = true :=
    List.all_eq_true.mp rfl
  have hc : (c.isDigit || c == '-' || c.isUpper) = true := by simpa [or_assoc] using hc
  have hnone := hfirst _ hmem
  rw [List.head?_cons, Option.all_some, hc] at hnone
  cases hnone

theorem int_not_mem_literals (i : Int) : chars style depth (.int i) ∉ literals := by
  obtain ⟨c, cs, hcs⟩ := List.exists_cons_of_ne_nil (int_chars_ne_nil i)
  rw [chars, hcs]
  have hc : c.isDigit = true ∨ c = '-' := is_digit_of_mem_int_chars (i := i) (by simp [hcs])
  exact not_mem_literals (hc.imp_right Or.inl)

theorem float_not_mem_literals (x : Binary64) : chars style depth (.float x) ∉ literals := by
  obtain ⟨-, ⟨c, cs, hcs, hc⟩, -⟩ := x.json_chars
  rw [chars, hcs]
  exact not_mem_literals hc

/-- A whole number is not written like a binary64 number. -/
theorem int_chars_ne_float_chars (i : Int) (x : Binary64) : intChars i ≠ x.chars floatFormat := by
  intro h
  obtain ⟨-, -, c, hc, hdigit, hdash⟩ := x.json_chars
  rcases is_digit_of_mem_int_chars (h ▸ hc : c ∈ intChars i) with hc | hc
  · simp [hdigit] at hc
  · exact hdash hc

/-- Values without an opening character are similar when they have the same text. -/
theorem similar_of_bare (hx : opener x = none) (hy : opener y = none)
    (h : chars style depth x = chars style depth y) : Similar x y := by
  have hnull : chars style depth .null ∈ literals := by simp [chars, literals]
  have hbool : ∀ b, chars style depth (.bool b) ∈ literals := by
    intro b
    cases b <;> simp [chars, literals]
  cases x with
  | null =>
      cases y with
      | null => exact .same _
      | bool b => cases b <;> cases h
      | int j => exact absurd (h ▸ hnull) (int_not_mem_literals j)
      | float y => exact absurd (h ▸ hnull) (float_not_mem_literals y)
      | _ => cases hy
  | bool a =>
      cases y with
      | null => cases a <;> cases h
      | bool b =>
          obtain rfl : a = b := by
            cases a <;> cases b
            · rfl
            · cases h
            · cases h
            · rfl
          exact .same _
      | int j => exact absurd (h ▸ hbool a) (int_not_mem_literals j)
      | float y => exact absurd (h ▸ hbool a) (float_not_mem_literals y)
      | _ => cases hy
  | int i =>
      cases y with
      | null => exact absurd (h.symm ▸ hnull) (int_not_mem_literals i)
      | bool b => exact absurd (h.symm ▸ hbool b) (int_not_mem_literals i)
      | int j =>
          rw [int_chars_inj h]
          exact .same _
      | float y => exact absurd h (int_chars_ne_float_chars i y)
      | _ => cases hy
  | float x =>
      cases y with
      | null => exact absurd (h.symm ▸ hnull) (float_not_mem_literals x)
      | bool b => exact absurd (h.symm ▸ hbool b) (float_not_mem_literals x)
      | int j => exact absurd h.symm (int_chars_ne_float_chars j x)
      | float y => exact .float h
      | _ => cases hy
  | _ => cases hx

/-- An item stands behind a comma, and the other items follow it. -/
theorem item_chars_cons (hstyle : style.OneLine) (x : Json) (xs : List Json) (depth : Nat)
    (rest : List Char) : itemChars style depth (x :: xs) ++ rest =
      ',' :: (style.comma.tail ++ (chars style depth x ++ (itemChars style depth xs ++ rest))) := by
  obtain ⟨n, hcomma⟩ := hstyle.comma
  simp [itemChars, hcomma, hstyle.newline_eq]

/-- A member stands behind a comma, and the other members follow it. -/
theorem member_chars_cons (hstyle : style.OneLine) (k : String) (x : Json)
    (ms : List (String × Json)) (depth : Nat) (rest : List Char) :
    memberChars style depth ((k, x) :: ms) ++ rest =
      ',' :: (style.comma.tail ++ (stringChars style.ascii k ++ ':' :: (style.colon.tail ++
        (chars style depth x ++ (memberChars style depth ms ++ rest))))) := by
  obtain ⟨n, hcomma⟩ := hstyle.comma
  obtain ⟨k, hcolon⟩ := hstyle.colon
  simp [memberChars, hcomma, hcolon, hstyle.newline_eq]

/-- The first item stands behind the opening bracket. -/
theorem arr_chars_cons (hstyle : style.OneLine) (x : Json) (xs : List Json) (depth : Nat)
    (rest : List Char) : chars style depth (.arr (x :: xs)) ++ rest =
      '[' :: (chars style (depth + 1) x ++ (itemChars style (depth + 1) xs ++ ']' :: rest)) := by
  simp [chars, hstyle.newline_eq]

/-- The first member stands behind the opening brace. -/
theorem obj_chars_cons (hstyle : style.OneLine) (k : String) (x : Json)
    (ms : List (String × Json)) (depth : Nat) (rest : List Char) :
    chars style depth (.obj ((k, x) :: ms)) ++ rest =
      '{' :: (stringChars style.ascii k ++ ':' :: (style.colon.tail ++
        (chars style (depth + 1) x ++ (memberChars style (depth + 1) ms ++ '}' :: rest)))) := by
  obtain ⟨n, hcolon⟩ := hstyle.colon
  simp [chars, hcolon, hstyle.newline_eq]

/-- No text starts with a closing bracket. -/
theorem chars_append_ne : chars style depth x ++ rest ≠ ']' :: rest' := by
  intro h
  obtain ⟨c, cs, hcs, hc⟩ := exists_chars x depth
  rw [hcs] at h
  obtain rfl : c = ']' := (List.cons.inj h).1
  rcases hc with hc | ⟨-, hc⟩
  · cases x <;> cases hc
  · cases hc

/-- Arrays whose texts stand at the front of one text have items that do. -/
theorem item_chars_of_arr (hstyle : style.OneLine) {xs ys : List Json}
    (h : chars style depth (.arr xs) ++ rest = chars style depth (.arr ys) ++ rest') :
    itemChars style (depth + 1) xs ++ ']' :: rest =
      itemChars style (depth + 1) ys ++ ']' :: rest' := by
  cases xs with
  | nil =>
      cases ys with
      | nil => exact (List.cons.inj h).2
      | cons y ys =>
          rw [arr_chars_cons hstyle] at h
          exact absurd (List.cons.inj h).2.symm chars_append_ne
  | cons x xs =>
      cases ys with
      | nil =>
          rw [arr_chars_cons hstyle] at h
          exact absurd (List.cons.inj h).2 chars_append_ne
      | cons y ys =>
          rw [arr_chars_cons hstyle, arr_chars_cons hstyle] at h
          rw [item_chars_cons hstyle, item_chars_cons hstyle, (List.cons.inj h).2]

/-- Objects whose texts stand at the front of one text have members that do. -/
theorem member_chars_of_obj (hstyle : style.OneLine) {ms ns : List (String × Json)}
    (h : chars style depth (.obj ms) ++ rest = chars style depth (.obj ns) ++ rest') :
    memberChars style (depth + 1) ms ++ '}' :: rest =
      memberChars style (depth + 1) ns ++ '}' :: rest' := by
  rcases ms with _ | ⟨⟨k, x⟩, ms⟩ <;> rcases ns with _ | ⟨⟨l, y⟩, ns⟩
  · exact (List.cons.inj h).2
  · rw [obj_chars_cons hstyle] at h
    cases (List.cons.inj h).2
  · rw [obj_chars_cons hstyle] at h
    cases (List.cons.inj h).2
  · rw [obj_chars_cons hstyle, obj_chars_cons hstyle] at h
    rw [member_chars_cons hstyle, member_chars_cons hstyle, (List.cons.inj h).2]

/-- What follows an item is a delimiter. -/
theorem head_item_chars (hstyle : style.OneLine) (xs : List Json) :
    ∀ c ∈ (itemChars style depth xs ++ ']' :: rest).head?, isBare c = false := by
  cases xs with
  | nil => simp [itemChars, isBare]
  | cons x xs =>
      rw [item_chars_cons hstyle]
      simp [isBare]

/-- What follows a member is a delimiter. -/
theorem head_member_chars (hstyle : style.OneLine) (ms : List (String × Json)) :
    ∀ c ∈ (memberChars style depth ms ++ '}' :: rest).head?, isBare c = false := by
  rcases ms with _ | ⟨⟨k, x⟩, ms⟩
  · simp [memberChars, isBare]
  · rw [member_chars_cons hstyle]
    simp [isBare]

/-- The statement about values for those without an opening character. -/
theorem similar_of_bare_chars (hx : opener x = none) (hrest : ∀ c ∈ rest.head?, isBare c = false)
    (hrest' : ∀ c ∈ rest'.head?, isBare c = false)
    (h : chars style depth x ++ rest = chars style depth y ++ rest') :
    Similar x y ∧ rest = rest' := by
  have hy : opener y = none := (opener_eq h).symm.trans hx
  obtain ⟨heq, hrest⟩ := bare_append_inj (is_bare_of_mem_chars hx) (is_bare_of_mem_chars hy)
    hrest hrest' h
  exact ⟨similar_of_bare hx hy heq, hrest⟩

mutual

/-- Values whose texts stand at the front of one text, before a delimiter or its end, are
similar. -/
theorem similar_of_chars (hstyle : style.OneLine) (depth : Nat) :
    ∀ (x y : Json) {rest rest' : List Char},
    (∀ c ∈ rest.head?, isBare c = false) → (∀ c ∈ rest'.head?, isBare c = false) →
    chars style depth x ++ rest = chars style depth y ++ rest' →
    Similar x y ∧ rest = rest'
  | .str s, y, rest, rest', _, _, h => by
      obtain ⟨t, rfl⟩ : ∃ t, y = .str t := by
        have hy := opener_eq h
        cases y with
        | str t => exact ⟨t, rfl⟩
        | _ => cases hy
      obtain ⟨rfl, rfl⟩ := string_chars_inj h
      exact ⟨.same _, rfl⟩
  | .arr xs, y, rest, rest', _, _, h => by
      obtain ⟨ys, rfl⟩ : ∃ ys, y = .arr ys := by
        have hy := opener_eq h
        cases y with
        | arr ys => exact ⟨ys, rfl⟩
        | _ => cases hy
      obtain ⟨hs, rfl⟩ := similar_of_item_chars hstyle (depth + 1) xs ys
        (item_chars_of_arr hstyle h)
      exact ⟨.arr hs, rfl⟩
  | .obj ms, y, rest, rest', _, _, h => by
      obtain ⟨ns, rfl⟩ : ∃ ns, y = .obj ns := by
        have hy := opener_eq h
        cases y with
        | obj ns => exact ⟨ns, rfl⟩
        | _ => cases hy
      obtain ⟨hs, rfl⟩ := similar_of_member_chars hstyle (depth + 1) ms ns
        (member_chars_of_obj hstyle h)
      exact ⟨.obj hs, rfl⟩
  | .null, y, rest, rest', hrest, hrest', h => similar_of_bare_chars rfl hrest hrest' h
  | .bool _, y, rest, rest', hrest, hrest', h => similar_of_bare_chars rfl hrest hrest' h
  | .int _, y, rest, rest', hrest, hrest', h => similar_of_bare_chars rfl hrest hrest' h
  | .float _, y, rest, rest', hrest, hrest', h => similar_of_bare_chars rfl hrest hrest' h

/-- Items whose texts stand before a closing bracket are similar. -/
theorem similar_of_item_chars (hstyle : style.OneLine) (depth : Nat) :
    ∀ (xs ys : List Json) {rest rest' : List Char},
    itemChars style depth xs ++ ']' :: rest = itemChars style depth ys ++ ']' :: rest' →
    List.Forall₂ Similar xs ys ∧ rest = rest'
  | [], [], rest, rest', h => ⟨.nil, (List.cons.inj h).2⟩
  | [], y :: ys, rest, rest', h => by
      rw [item_chars_cons hstyle] at h
      cases h
  | x :: xs, [], rest, rest', h => by
      rw [item_chars_cons hstyle] at h
      cases h
  | x :: xs, y :: ys, rest, rest', h => by
      rw [item_chars_cons hstyle, item_chars_cons hstyle] at h
      obtain ⟨hx, hxs⟩ := similar_of_chars hstyle depth x y (head_item_chars hstyle xs)
        (head_item_chars hstyle ys) (List.append_cancel_left (List.cons.inj h).2)
      obtain ⟨hs, rfl⟩ := similar_of_item_chars hstyle depth xs ys hxs
      exact ⟨.cons hx hs, rfl⟩

/-- Members whose texts stand before a closing brace are similar. -/
theorem similar_of_member_chars (hstyle : style.OneLine) (depth : Nat) :
    ∀ (ms ns : List (String × Json)) {rest rest' : List Char},
    memberChars style depth ms ++ '}' :: rest = memberChars style depth ns ++ '}' :: rest' →
    Entrywise Similar ms ns ∧ rest = rest'
  | [], [], rest, rest', h => ⟨.nil, (List.cons.inj h).2⟩
  | [], (l, y) :: ns, rest, rest', h => by
      rw [member_chars_cons hstyle] at h
      cases h
  | (k, x) :: ms, [], rest, rest', h => by
      rw [member_chars_cons hstyle] at h
      cases h
  | (k, x) :: ms, (l, y) :: ns, rest, rest', h => by
      rw [member_chars_cons hstyle, member_chars_cons hstyle] at h
      obtain ⟨rfl, hvalue⟩ :=
        string_chars_inj (List.append_cancel_left (List.cons.inj h).2)
      obtain ⟨hx, hms⟩ := similar_of_chars hstyle depth x y (head_member_chars hstyle ms)
        (head_member_chars hstyle ns) (List.append_cancel_left (List.cons.inj hvalue).2)
      obtain ⟨hs, rfl⟩ := similar_of_member_chars hstyle depth ms ns hms
      exact ⟨.cons hx hs, rfl⟩

end

/-- Two values have the same text on one line exactly when they are similar. -/
theorem write_inj_iff (hstyle : style.OneLine) : write style x = write style y ↔ Similar x y := by
  constructor
  · intro h
    have hchars : chars style 0 x ++ [] = chars style 0 y ++ [] := by
      rw [String.ofList_injective h]
    exact (similar_of_chars hstyle 0 x y (by simp) (by simp) hchars).1
  · intro h
    rw [write, write, h.chars_eq]

theorem write_eq_iff : write compact x = write compact y ↔ Similar x y :=
  write_inj_iff compact_one_line

end Statechart.Json
