import Statechart.Proofs.Json.Number
import Statechart.Proofs.Json.Text

/-!
# Reading back what was written

The reader takes back every value whose text stands on one line, as long as it is within the limits
of the reader: `Readable.read_write`. Each part of a text ends at a delimiter, which the reader
stops at, and `ReadsBack` carries this from the values in an array or an object to the whole. The
text of such a value holds no control character: `le_of_mem_chars`.
-/

namespace Statechart.Json

/-! ## One line -/

/-- The digits of an escaped unit are no control characters. -/
theorem le_of_mem_hex_digits {width n : Nat} {c : Char} (h : c ∈ Text.hexDigits width n) :
    32 ≤ c.toNat := by
  have hdigit : ∀ k < 16, 32 ≤ (Nat.digitChar k).toNat := by decide
  induction width generalizing n with
  | zero => cases h
  | succ width ih =>
      rcases List.mem_append.mp h with h | h
      · exact ih h
      · rw [List.mem_singleton.mp h]
        exact hdigit (n % 16) (Nat.mod_lt n (by decide))

theorem le_of_mem_unit_escape {n : Nat} {c : Char} (h : c ∈ unitEscape n) : 32 ≤ c.toNat := by
  rcases List.mem_cons.mp h with rfl | h
  · decide
  · rcases List.mem_cons.mp h with rfl | h
    · decide
    · exact le_of_mem_hex_digits h

/-- There are no control characters in a string. -/
theorem le_of_mem_string_chars {ascii : Bool} {s : String} {c : Char}
    (h : c ∈ stringChars ascii s) : 32 ≤ c.toNat := by
  have hletter : ∀ {d e : Char}, simpleEscape? d = some e → 32 ≤ d.toNat := by
    intro d e hd
    unfold simpleEscape? at hd
    split_ifs at hd with hquote hb hf hn hr ht
    · rcases hquote with rfl | rfl | rfl <;> decide
    all_goals subst d; decide
  simp only [stringChars, List.cons_append, List.mem_cons, List.mem_append, List.mem_flatMap] at h
  rcases h with rfl | ⟨d, -, hc⟩ | rfl | h
  · decide
  · have hd := escaped_escape_char ascii d
    generalize escapeChar ascii d = written at hc hd
    cases hd with
    | letter e he =>
        rcases List.mem_pair.mp hc with rfl | rfl
        · decide
        · exact hletter he
    | unit => exact le_of_mem_unit_escape hc
    | pair =>
        rcases List.mem_append.mp hc with hc | hc
        · exact le_of_mem_unit_escape hc
        · exact le_of_mem_unit_escape hc
    | plain he =>
        rw [List.mem_singleton.mp hc]
        exact he.2.2
  · decide
  · cases h

theorem bounds_of_is_bare {c : Char} (h : isBare c = true) : 32 < c.toNat ∧ c.toNat < 128 := by
  have letter (c : Char) : c.isAlpha = (decide (65 ≤ c.toNat ∧ c.toNat ≤ 90) ||
      (decide (97 ≤ c.toNat) && decide (c.toNat ≤ 122))) := rfl
  have digit (c : Char) : c.isDigit = (decide (48 ≤ c.toNat) && decide (c.toNat ≤ 57)) := rfl
  rw [isBare, Char.isAlphanum, letter, digit] at h
  simp only [Bool.or_eq_true, Bool.and_eq_true, decide_eq_true_eq, beq_iff_eq] at h
  rcases h with ((((hupper | hlower) | hdigit) | rfl) | rfl) | rfl
  · omega
  · omega
  · omega
  all_goals decide

variable {style : Style}

theorem Style.OneLine.le_of_mem_comma (hstyle : style.OneLine) :
    ∀ c ∈ style.comma, 32 ≤ c.toNat := by
  obtain ⟨n, hcomma⟩ := hstyle.comma
  rw [hcomma, List.forall_mem_cons]
  exact ⟨by decide, fun c hc => by rw [List.eq_of_mem_replicate hc]; decide⟩

theorem Style.OneLine.le_of_mem_colon (hstyle : style.OneLine) :
    ∀ c ∈ style.colon, 32 ≤ c.toNat := by
  obtain ⟨n, hcolon⟩ := hstyle.colon
  rw [hcolon, List.forall_mem_cons]
  exact ⟨by decide, fun c hc => by rw [List.eq_of_mem_replicate hc]; decide⟩

mutual

/-- There are no control characters in a text on one line. -/
theorem le_of_mem_chars (hstyle : style.OneLine) (level : Nat) :
    ∀ x : Json, ∀ c ∈ chars style level x, 32 ≤ c.toNat
  | .null => fun c hc => (bounds_of_is_bare (is_bare_of_mem_chars rfl c hc)).1.le
  | .bool _ => fun c hc => (bounds_of_is_bare (is_bare_of_mem_chars rfl c hc)).1.le
  | .int _ => fun c hc => (bounds_of_is_bare (is_bare_of_mem_chars rfl c hc)).1.le
  | .float _ => fun c hc => (bounds_of_is_bare (is_bare_of_mem_chars rfl c hc)).1.le
  | .str _ => fun c hc => le_of_mem_string_chars hc
  | .arr [] => by simp [chars]
  | .arr (x :: xs) => by
      simp only [chars, hstyle.newline_eq, List.append_nil, List.cons_append, List.nil_append,
        List.forall_mem_append, List.forall_mem_cons]
      exact ⟨by decide, ⟨le_of_mem_chars hstyle (level + 1) x,
        le_of_mem_item_chars hstyle (level + 1) xs⟩, by decide, List.forall_mem_nil _⟩
  | .obj [] => by simp [chars]
  | .obj ((k, x) :: ms) => by
      simp only [chars, hstyle.newline_eq, List.append_nil, List.cons_append, List.nil_append,
        List.forall_mem_append, List.forall_mem_cons]
      exact ⟨by decide, ⟨⟨⟨fun _ hc => le_of_mem_string_chars hc, hstyle.le_of_mem_colon⟩,
        le_of_mem_chars hstyle (level + 1) x⟩, le_of_mem_member_chars hstyle (level + 1) ms⟩,
        by decide, List.forall_mem_nil _⟩

theorem le_of_mem_item_chars (hstyle : style.OneLine) (level : Nat) :
    ∀ xs : List Json, ∀ c ∈ itemChars style level xs, 32 ≤ c.toNat
  | [] => List.forall_mem_nil _
  | x :: xs => by
      simp only [itemChars, hstyle.newline_eq, List.append_nil, List.forall_mem_append]
      exact ⟨⟨hstyle.le_of_mem_comma, le_of_mem_chars hstyle level x⟩,
        le_of_mem_item_chars hstyle level xs⟩

theorem le_of_mem_member_chars (hstyle : style.OneLine) (level : Nat) :
    ∀ ms : List (String × Json), ∀ c ∈ memberChars style level ms, 32 ≤ c.toNat
  | [] => List.forall_mem_nil _
  | (k, x) :: ms => by
      simp only [memberChars, hstyle.newline_eq, List.append_nil, List.forall_mem_append]
      exact ⟨⟨⟨⟨hstyle.le_of_mem_comma, fun _ hc => le_of_mem_string_chars hc⟩,
        hstyle.le_of_mem_colon⟩, le_of_mem_chars hstyle level x⟩,
        le_of_mem_member_chars hstyle level ms⟩

end

/-! ## Values -/

/-- The values that the reader takes back when they stand in `depth` arrays and objects: nothing in
them goes beyond one of its limits. Of the not-a-numbers it knows one. -/
inductive Readable : (depth : Nat) → Json → Prop where
  | null {depth : Nat} : Readable depth .null
  | bool {depth : Nat} (b : Bool) : Readable depth (.bool b)
  | int {depth : Nat} {i : Int} (h : Value.isShort i = true) : Readable depth (.int i)
  | float {depth : Nat} {x : Binary64} (h : x.isNan = false) : Readable depth (.float x)
  | nan {depth : Nat} : Readable depth (.float (.nan 1))
  | str {depth : Nat} (s : String) : Readable depth (.str s)
  | arr {depth : Nat} {xs : List Json} (hdepth : depth < maxDepth)
      (h : ∀ x ∈ xs, Readable (depth + 1) x) : Readable depth (.arr xs)
  | obj {depth : Nat} {ms : List (String × Json)} (hdepth : depth < maxDepth)
      (h : ∀ m ∈ ms, Readable (depth + 1) m.2) : Readable depth (.obj ms)

variable {x : Json} {xs : List Json} {ms : List (String × Json)} {depth fuel : Nat}

/-- With two units of fuel a character, the reader takes a value back before a delimiter. -/
def ReadsBack (style : Style) (depth : Nat) (x : Json) : Prop :=
  ∀ (level fuel : Nat) (rest : List Char), 2 * (chars style level x).length ≤ fuel →
    (∀ c ∈ rest.head?, isBare c = false) →
    readValue depth fuel (chars style level x ++ rest) = .ok (x, rest)

/-- A text starts with a visible character of ASCII. -/
theorem exists_first_char (style : Style) (level : Nat) (x : Json) :
    ∃ c cs, chars style level x = c :: cs ∧ 32 < c.toNat ∧ c.toNat < 128 := by
  obtain ⟨c, cs, hcs, hc⟩ := @exists_chars style x level
  refine ⟨c, cs, hcs, ?_⟩
  rcases hc with hc | ⟨-, hc⟩
  · cases x <;> cases hc <;> decide
  · exact bounds_of_is_bare hc

theorem le_of_is_space {c : Char} (h : isSpace c = true) : c.toNat ≤ 32 := by
  simp only [isSpace, Bool.or_eq_true, beq_iff_eq] at h
  rcases h with ((rfl | rfl) | rfl) | rfl <;> decide

/-- No blanks stand in front of a value. -/
theorem skip_space_chars (x : Json) (level : Nat) (rest : List Char) :
    skipSpace (chars style level x ++ rest) = chars style level x ++ rest := by
  obtain ⟨c, cs, hcs, hc, -⟩ := exists_first_char style level x
  have hspace : ¬ isSpace c = true := fun h => absurd (le_of_is_space h) (Nat.not_le.mpr hc)
  rw [hcs, List.cons_append, skipSpace, List.dropWhile_cons_of_neg hspace]

/-- Blanks in front of a value are passed over. -/
theorem skip_space_append {blanks : List Char} (hblanks : ∀ c ∈ blanks, isSpace c = true)
    (cs : List Char) : skipSpace (blanks ++ cs) = skipSpace cs :=
  List.dropWhile_append_of_pos hblanks

theorem length_chars_pos (x : Json) (level : Nat) : 0 < (chars style level x).length := by
  obtain ⟨c, cs, hcs, -⟩ := exists_first_char style level x
  simp [hcs]

/-- A value without an opening character is read as a scalar. -/
theorem reads_back_of_scalar (hx : opener x = none)
    (h : ∀ level rest, (∀ c ∈ rest.head?, isBare c = false) →
      readScalar (chars style level x ++ rest) = .ok (x, rest)) : ReadsBack style depth x := by
  intro level fuel rest hfuel hrest
  obtain ⟨c, cs, hcs, hc⟩ := @exists_chars style x level
  have hbare : isBare c = true := by
    rcases hc with hc | ⟨-, hc⟩
    · rw [hx] at hc; cases hc
    · exact hc
  rw [hcs, List.length_cons] at hfuel
  obtain ⟨fuel, rfl⟩ : ∃ n, fuel = n + 1 := ⟨fuel - 1, by omega⟩
  have hopen : ∀ d, isBare d = false → ∀ r, c :: (cs ++ rest) ≠ d :: r := by
    rintro d hd r heq
    rw [(List.cons.inj heq).1, hd] at hbare
    cases hbare
  rw [← h level rest hrest, hcs, List.cons_append,
    readValue.eq_5 _ _ _ (hopen '"' rfl) (hopen '[' rfl) (hopen '{' rfl)]

theorem reads_back_str (s : String) : ReadsBack style depth (.str s) := by
  intro level fuel rest hfuel _
  obtain ⟨fuel, rfl⟩ : ∃ n, fuel = n + 1 := ⟨fuel - 1, by simp [chars, stringChars] at hfuel; omega⟩
  rw [chars, string_chars_append]
  simp [readValue, read_string_written, Bind.bind, Except.bind, pure, Except.pure]

/-- Blanks after a comma or a colon are passed over. -/
theorem Style.OneLine.skip_comma (hstyle : style.OneLine) (x : Json) (level : Nat)
    (rest : List Char) :
    skipSpace (style.comma.tail ++ (chars style level x ++ rest)) =
      chars style level x ++ rest := by
  obtain ⟨n, hcomma⟩ := hstyle.comma
  rw [skip_space_append (by simp [hcomma, isSpace]), skip_space_chars]

@[inherit_doc Style.OneLine.skip_comma]
theorem Style.OneLine.skip_colon (hstyle : style.OneLine) (x : Json) (level : Nat)
    (rest : List Char) :
    skipSpace (style.colon.tail ++ (chars style level x ++ rest)) =
      chars style level x ++ rest := by
  obtain ⟨n, hcolon⟩ := hstyle.colon
  rw [skip_space_append (by simp [hcolon, isSpace]), skip_space_chars]

/-! One lemma for each way in which the readers of items and of members go on. -/

theorem read_items_last (h : readValue depth fuel cs = .ok (x, ']' :: rest)) :
    readItems depth (fuel + 1) cs = .ok ([x], rest) := by
  rw [readItems, h]
  rfl

theorem read_items_more {rest' : List Char} (h : readValue depth fuel cs = .ok (x, ',' :: rest))
    (hs : readItems depth fuel (skipSpace rest) = .ok (xs, rest')) :
    readItems depth (fuel + 1) cs = .ok (x :: xs, rest') := by
  have hskip : skipSpace (',' :: rest) = ',' :: rest := rfl
  simp only [readItems, h, Bind.bind, Except.bind, hskip, hs]
  rfl

theorem read_members_last {k : String} (hk : readString cs = .ok (k, ':' :: ds))
    (h : readValue depth fuel (skipSpace ds) = .ok (x, '}' :: rest)) :
    readMembers depth (fuel + 1) ('"' :: cs) = .ok ([(k, x)], rest) := by
  have hskip : skipSpace (':' :: ds) = ':' :: ds := rfl
  simp only [readMembers, hk, Bind.bind, Except.bind, hskip, h]
  rfl

theorem read_members_more {k : String} {rest' : List Char} (hk : readString cs = .ok (k, ':' :: ds))
    (h : readValue depth fuel (skipSpace ds) = .ok (x, ',' :: rest))
    (hs : readMembers depth fuel (skipSpace rest) = .ok (ms, rest')) :
    readMembers depth (fuel + 1) ('"' :: cs) = .ok ((k, x) :: ms, rest') := by
  have hskip : skipSpace (':' :: ds) = ':' :: ds := rfl
  have hskip' : skipSpace (',' :: rest) = ',' :: rest := rfl
  simp only [readMembers, hk, Bind.bind, Except.bind, hskip, h, hskip', hs]
  rfl

/-- Items that are read back one by one are read back up to the closing bracket. -/
theorem read_items_written (hstyle : style.OneLine) (level fuel : Nat)
    (h : ∀ y ∈ x :: xs, ReadsBack style depth y) (rest : List Char)
    (hfuel : 2 * ((chars style level x).length + (itemChars style level xs).length) + 1 ≤ fuel) :
    readItems depth fuel (chars style level x ++ (itemChars style level xs ++ ']' :: rest)) =
      .ok (x :: xs, rest) := by
  induction xs generalizing x fuel with
  | nil =>
      obtain ⟨fuel, rfl⟩ : ∃ n, fuel = n + 1 := ⟨fuel - 1, by omega⟩
      exact read_items_last (h x (by simp) level fuel _ (by omega) (head_item_chars hstyle []))
  | cons y ys ih =>
      obtain ⟨fuel, rfl⟩ : ∃ n, fuel = n + 1 := ⟨fuel - 1, by omega⟩
      have hx := h x (by simp) level fuel (itemChars style level (y :: ys) ++ ']' :: rest)
        (by omega) (head_item_chars hstyle (y :: ys))
      have hlength := congrArg List.length (item_chars_cons hstyle y ys level [])
      simp only [List.length_cons, List.length_append, List.length_nil] at hlength
      rw [item_chars_cons hstyle] at hx ⊢
      refine read_items_more hx ?_
      rw [hstyle.skip_comma]
      exact ih fuel (fun z hz => h z (List.mem_cons_of_mem x hz)) (by omega)

/-- Members whose values are read back one by one are read back up to the closing brace. -/
theorem read_members_written (hstyle : style.OneLine) (level fuel : Nat) (k : String)
    (hx : ReadsBack style depth x) (h : ∀ m ∈ ms, ReadsBack style depth m.2) (rest : List Char)
    (hfuel : 2 * ((stringChars style.ascii k).length + (chars style level x).length
      + (memberChars style level ms).length) + 1 ≤ fuel) :
    readMembers depth fuel (stringChars style.ascii k ++ ':' :: (style.colon.tail ++
      (chars style level x ++ (memberChars style level ms ++ '}' :: rest)))) =
      .ok ((k, x) :: ms, rest) := by
  induction ms generalizing k x fuel with
  | nil =>
      obtain ⟨fuel, rfl⟩ : ∃ n, fuel = n + 1 := ⟨fuel - 1, by omega⟩
      rw [string_chars_append]
      refine read_members_last (read_string_written _ _ _) ?_
      rw [hstyle.skip_colon]
      exact hx level fuel _ (by omega) (head_member_chars hstyle [])
  | cons m ms ih =>
      obtain ⟨l, y⟩ := m
      obtain ⟨hy, hms⟩ := List.forall_mem_cons.mp h
      obtain ⟨fuel, rfl⟩ : ∃ n, fuel = n + 1 := ⟨fuel - 1, by omega⟩
      have hx := hx level fuel (memberChars style level ((l, y) :: ms) ++ '}' :: rest) (by omega)
        (head_member_chars hstyle ((l, y) :: ms))
      have hlength := congrArg List.length (member_chars_cons hstyle l y ms level [])
      simp only [List.length_cons, List.length_append, List.length_nil] at hlength
      rw [member_chars_cons hstyle] at hx ⊢
      rw [string_chars_append]
      refine read_members_more (read_string_written _ _ _) (by rw [hstyle.skip_colon, hx]) ?_
      have hskip := hstyle.skip_comma (.str l) level
      simp only [chars] at hskip
      rw [hskip]
      exact ih fuel l hy hms (by omega)

theorem reads_back_arr (hstyle : style.OneLine) (hdepth : depth < maxDepth)
    (h : ∀ x ∈ xs, ReadsBack style (depth + 1) x) : ReadsBack style depth (.arr xs) := by
  intro level fuel rest hfuel _
  have hlength := @length_chars_pos style (.arr xs) level
  obtain ⟨fuel, rfl⟩ : ∃ n, fuel = n + 1 := ⟨fuel - 1, by omega⟩
  cases xs with
  | nil => simp [chars, readValue, Nat.not_le.mpr hdepth, skipSpace, isSpace]
  | cons x xs =>
      have hlength := congrArg List.length (arr_chars_cons hstyle x xs level [])
      simp only [List.length_cons, List.length_append, List.length_nil] at hlength
      have hitems := read_items_written hstyle (level + 1) fuel h rest (by omega)
      rw [arr_chars_cons hstyle, readValue, if_neg (Nat.not_le.mpr hdepth), skip_space_chars]
      split
      next heq => exact absurd heq chars_append_ne
      next =>
        simp only [hitems, Bind.bind, Except.bind]
        rfl

theorem reads_back_obj (hstyle : style.OneLine) (hdepth : depth < maxDepth)
    (h : ∀ m ∈ ms, ReadsBack style (depth + 1) m.2) : ReadsBack style depth (.obj ms) := by
  intro level fuel rest hfuel _
  have hlength := @length_chars_pos style (.obj ms) level
  obtain ⟨fuel, rfl⟩ : ∃ n, fuel = n + 1 := ⟨fuel - 1, by omega⟩
  rcases ms with _ | ⟨⟨k, x⟩, ms⟩
  · simp [chars, readValue, Nat.not_le.mpr hdepth, skipSpace, isSpace]
  · have hx : ReadsBack style (depth + 1) x := h (k, x) List.mem_cons_self
    have hms := (List.forall_mem_cons.mp h).2
    have hlength := congrArg List.length (obj_chars_cons hstyle k x ms level [])
    simp only [List.length_cons, List.length_append, List.length_nil] at hlength
    have hmembers := read_members_written hstyle (level + 1) fuel k hx hms rest (by omega)
    have hskip := @skip_space_chars style (.str k) level
    simp only [chars] at hskip
    rw [obj_chars_cons hstyle, readValue, if_neg (Nat.not_le.mpr hdepth), hskip]
    rw [string_chars_append] at hmembers ⊢
    split
    next heq => cases heq
    next =>
      simp only [hmembers, Bind.bind, Except.bind]
      rfl

theorem Readable.reads_back (hstyle : style.OneLine) (h : Readable depth x) :
    ReadsBack style depth x := by
  induction h with
  | null => exact reads_back_of_scalar rfl fun _ _ _ => rfl
  | bool b => exact reads_back_of_scalar rfl fun _ _ _ => by cases b <;> rfl
  | int h => exact reads_back_of_scalar rfl fun _ _ hrest => read_scalar_int h hrest
  | float h => exact reads_back_of_scalar rfl fun _ _ hrest => read_scalar_float h hrest
  | nan => exact reads_back_of_scalar rfl fun _ _ _ => rfl
  | str s => exact reads_back_str s
  | arr hdepth _ ih => exact reads_back_arr hstyle hdepth ih
  | obj hdepth _ ih => exact reads_back_obj hstyle hdepth ih

/-- A readable value that is written on one line is read back, with any blanks behind it. -/
theorem Readable.read_write (hstyle : style.OneLine) (h : Readable 0 x) {blanks : List Char}
    (hblanks : ∀ c ∈ blanks, isSpace c = true) :
    read (String.ofList (chars style 0 x ++ blanks)) = .ok x := by
  have hrest : ∀ c ∈ blanks.head?, isBare c = false := by
    intro c hc
    have hspace := le_of_is_space (hblanks c (List.mem_of_mem_head? hc))
    cases hbare : isBare c with
    | false => rfl
    | true => exact absurd (bounds_of_is_bare hbare).1 (Nat.not_lt.mpr hspace)
  have hmark : (chars style 0 x ++ blanks).head? ≠ some '\ufeff' := by
    obtain ⟨c, cs, hcs, -, hc⟩ := exists_first_char style 0 x
    rw [hcs]
    rintro ⟨⟩
    exact absurd hc (by decide)
  have hend : skipSpace blanks = [] := by
    have h := skip_space_append hblanks []
    rwa [List.append_nil] at h
  have hvalue := h.reads_back hstyle 0 (2 * (chars style 0 x ++ blanks).length + 1) blanks
    (by rw [List.length_append]; omega) hrest
  simp only [read, String.toList_ofList, if_neg hmark, skip_space_chars, hvalue, hend,
    Bind.bind, Except.bind]
  rfl

end Statechart.Json
