import Statechart.EventFile
import Statechart.Proofs.Json.RoundTrip
import Statechart.Proofs.Value.Normal
import Statechart.Proofs.Value.Remarked

/-!
# Files of events

A file holds one event a line. `events_of_written` follows the reader over rows of events and
blanks with either end of line, and `events_of_eq_error_iff` says at which line it fails. Together
they give `event_file_round_trip`: written events are read back, and of any other file the first
line that is no event is reported, under its number.

What values are, how they are written and how a line is parsed are parameters; all that is asked of
them is that the parser takes back what is written, which `Dumped` says of one value. The reader and
the writer of JSON here are such a pair: `dumped_of_readable`.
-/

namespace Statechart

namespace Value

/-- A value of JSON is read back from its JSON value, without its marks. -/
theorem IsJson.of_json_to_json {v : Value} (h : v.IsJson) :
    ofJson v.toJson = v.remark fun _ => none := by
  induction h with
  | null | bool | int | float | text =>
      rw [remark_eq]
      rfl
  | @list m xs _ ih =>
      rw [toJson, ofJson, to_json_list_eq, of_json_list_eq, List.map_map, remark_eq]
      exact congrArg (Value.list none) (List.map_congr_left ih)
  | @dict m es hkeys _ ih =>
      let read := es.map fun e => (e.1, e.2.remark fun _ => none)
      have hmembers : ofJsonMembers (es.map fun e => (e.1, e.2.toJson)) =
          read.map fun e => (Value.text e.1, e.2) := by
        rw [of_json_members_eq, List.map_map, List.map_map]
        exact List.map_congr_left fun e he => Prod.ext rfl (ih e he)
      have htable : Table.ofList (read.map fun e => (Value.text e.1, e.2)) =
          read.map fun e => (Value.text e.1, e.2) := by
        refine of_list_text ?_
        rw [List.map_map]
        exact hkeys
      have hjson : (Value.dict m (es.map fun e => (Value.text e.1, e.2))).toJson =
          .obj (es.map fun e => (e.1, e.2.toJson)) := to_json_table es
      have htext : ∀ k, (Value.text k).remark (fun _ => none) = .text k := fun k => by
        rw [remark_eq]
        rfl
      rw [hjson, ofJson, hmembers, htable, remark_eq]
      simp only [contents, rebuild, newTable, pairs_map, pairs_flat, List.map_map, read]
      refine congrArg (Value.dict none) (List.map_congr_left fun e _ => ?_)
      simp [htext]

end Value

namespace EventFile

open Text (isBlank)

variable {α : Type} {loads : String → Except Json.Fault α} {dumps : α → String}
  {path : String} {number chunk : Nat} {row cs l : List Char} {ls : List (List Char)}

/-! ## Lines -/

/-- A text without line ends. -/
def Unbroken (row : List Char) : Prop :=
  ∀ c ∈ row, c ≠ '\n' ∧ c ≠ '\r'

/-- What has no line ends belongs to the line that follows it. -/
theorem lines_append (hrow : Unbroken row) (h : lines cs = l :: ls) :
    lines (row ++ cs) = (row ++ l) :: ls := by
  induction row with
  | nil => exact h
  | cons c row ih =>
      obtain ⟨⟨hfeed, hreturn⟩, hrow⟩ := List.forall_mem_cons.mp hrow
      rw [List.cons_append, lines.eq_5 c _ (fun _ hc => absurd hc hreturn) hreturn hfeed, ih hrow]
      rfl

/-- The last line need not end. -/
theorem lines_unbroken (hrow : Unbroken row) (hne : row ≠ []) : lines row = [row] := by
  have hlast : lines [row.getLast hne] = [[row.getLast hne]] := by
    obtain ⟨hfeed, hreturn⟩ := hrow _ (List.getLast_mem hne)
    rw [lines.eq_5 _ _ (fun _ hc => absurd hc hreturn) hreturn hfeed, lines]
  have hinit : Unbroken row.dropLast := fun c hc => hrow c (List.dropLast_subset row hc)
  have h := lines_append hinit hlast
  rwa [List.dropLast_append_getLast] at h

/-! ## What a line adds to the events -/

theorem events_of_blank (h : l.all isBlank = true) :
    eventsOf loads path number (l :: ls) = eventsOf loads path (number + 1) ls := by
  rw [eventsOf, if_pos h]

theorem events_of_value {x : α} {xs : List α} (h : l.all isBlank = false)
    (hx : loads (String.ofList l) = .ok x) (hxs : eventsOf loads path (number + 1) ls = .ok xs) :
    eventsOf loads path number (l :: ls) = .ok (x :: xs) := by
  simp [eventsOf, h, eventOf, hx, hxs, Bind.bind, Except.bind, pure, Except.pure]

/-! ## Files of written events -/

/-- How a line ends. -/
inductive Ending where
  | lineFeed
  | both

/-- The characters of a line's end. -/
def Ending.chars : Ending → List Char
  | .lineFeed => ['\n']
  | .both => ['\r', '\n']

/-- A row of a file: an event, or blanks. -/
inductive Row (α : Type) where
  | event (x : α)
  | blank (cs : List Char)

/-- The text of a row. -/
def Row.chars (dumps : α → String) : Row α → List Char
  | .event x => (dumps x).toList
  | .blank cs => cs

/-- The event of a row, if there is one. -/
def Row.event? : Row α → Option α
  | .event x => some x
  | .blank _ => none

/-- A value is written as a text without control characters that is not blank, and the parser takes
it back, with any blanks behind it. -/
structure Dumped (loads : String → Except Json.Fault α) (dumps : α → String) (x : α) : Prop where
  printable : ∀ c ∈ (dumps x).toList, 32 ≤ c.toNat
  visible : ∃ c ∈ (dumps x).toList, isBlank c = false
  taken_back : ∀ blanks : List Char, (∀ c ∈ blanks, Json.isSpace c = true) →
    loads (String.ofList ((dumps x).toList ++ blanks)) = .ok x

/-- Events are taken back by the parser, and blanks do not end a line. -/
def Row.Proper (loads : String → Except Json.Fault α) (dumps : α → String) : Row α → Prop
  | .event x => Dumped loads dumps x
  | .blank cs => ∀ c ∈ cs, isBlank c = true ∧ c ≠ '\n' ∧ c ≠ '\r'

/-- The text of a file of rows that end, and a last row that does not. -/
def fileChars (dumps : α → String) (rows : List (Row α × Ending)) (last : Row α) : List Char :=
  (rows.flatMap fun r => r.1.chars dumps ++ r.2.chars) ++ last.chars dumps

/-- The events of such a file. -/
def fileEvents (rows : List (Row α × Ending)) (last : Row α) : List α :=
  (rows.map Prod.fst ++ [last]).filterMap Row.event?

variable {r : Row α}

/-- Every row but an empty one is a line. -/
theorem Row.Proper.unbroken (h : r.Proper loads dumps) : Unbroken (r.chars dumps) := by
  cases r with
  | event x =>
      intro c hc
      have hcontrol := h.printable c hc
      constructor
      · rintro rfl
        exact absurd hcontrol (by decide)
      · rintro rfl
        exact absurd hcontrol (by decide)
  | blank cs => exact fun c hc => (h c hc).2

/-- An event is not blank. -/
theorem Dumped.not_blank {x : α} (h : Dumped loads dumps x) (cs : List Char) :
    ((dumps x).toList ++ cs).all isBlank = false := by
  obtain ⟨c, hc, hblank⟩ := h.visible
  rw [List.all_eq_false]
  exact ⟨c, List.mem_append_left _ hc, by simp [hblank]⟩

theorem is_blank_of_is_space {c : Char} (h : Json.isSpace c = true) : isBlank c = true := by
  simp only [Json.isSpace, Bool.or_eq_true, beq_iff_eq] at h
  rcases h with ((rfl | rfl) | rfl) | rfl <;> rfl

/-- A row adds its event, if it has one, to those of the rows behind it. -/
theorem events_of_row (h : r.Proper loads dumps) {blanks : List Char} {xs : List α}
    (hblanks : ∀ c ∈ blanks, Json.isSpace c = true)
    (hxs : eventsOf loads path (number + 1) ls = .ok xs) :
    eventsOf loads path number ((r.chars dumps ++ blanks) :: ls) = .ok (r.event?.toList ++ xs) := by
  cases r with
  | event x => exact events_of_value (h.not_blank blanks) (h.taken_back blanks hblanks) hxs
  | blank cs =>
      have hall : ((Row.blank cs).chars dumps ++ blanks).all isBlank = true :=
        List.all_eq_true.mpr (List.forall_mem_append.mpr
          ⟨fun c hc => (h c hc).1, fun c hc => is_blank_of_is_space (hblanks c hc)⟩)
      rw [events_of_blank hall, hxs]
      rfl

/-- The lines of a file are its rows, apart from an empty last one. -/
theorem lines_row (h : r.Proper loads dumps) (e : Ending) (cs : List Char) :
    lines (r.chars dumps ++ e.chars ++ cs) = (r.chars dumps ++ ['\n']) :: lines cs := by
  have hend : lines (e.chars ++ cs) = ['\n'] :: lines cs := by
    cases e <;> rfl
  rw [List.append_assoc, lines_append h.unbroken hend]

/-- A last row that does not end adds its event as well; an empty one is no line. -/
theorem events_of_last (h : r.Proper loads dumps) (number : Nat) :
    eventsOf loads path number (lines (r.chars dumps)) = .ok r.event?.toList := by
  have hadd : eventsOf loads path number [r.chars dumps] = .ok r.event?.toList := by
    have hrow : eventsOf loads path number [r.chars dumps ++ []] = .ok (r.event?.toList ++ []) :=
      events_of_row h (List.forall_mem_nil _) rfl
    rwa [List.append_nil, List.append_nil] at hrow
  cases hchars : r.chars dumps with
  | nil =>
      cases r with
      | event x =>
          have hblank := Dumped.not_blank h []
          rw [List.append_nil, show (dumps x).toList = [] from hchars] at hblank
          cases hblank
      | blank cs => rfl
  | cons c cs => rw [← hchars, lines_unbroken h.unbroken (hchars ▸ List.cons_ne_nil c cs), hadd]

/-- The events of a written file are read back, with whatever number the first line has. -/
theorem events_of_written {rows : List (Row α × Ending)} {last : Row α}
    (h : ∀ r ∈ rows.map Prod.fst ++ [last], r.Proper loads dumps) (number : Nat) :
    eventsOf loads path number (lines (fileChars dumps rows last)) =
      .ok (fileEvents rows last) := by
  induction rows generalizing number with
  | nil =>
      rw [fileChars, List.flatMap_nil, List.nil_append, events_of_last (h last (by simp))]
      cases last <;> rfl
  | cons r rows ih =>
      obtain ⟨r, e⟩ := r
      rw [List.map_cons, List.cons_append, List.forall_mem_cons] at h
      obtain ⟨hr, hrest⟩ := h
      have hend : ∀ c ∈ ['\n'], Json.isSpace c = true := List.forall_mem_singleton.mpr rfl
      have hchars : fileChars dumps ((r, e) :: rows) last =
          r.chars dumps ++ e.chars ++ fileChars dumps rows last := by
        simp [fileChars]
      rw [hchars, lines_row hr, events_of_row hr hend (ih hrest (number + 1))]
      cases r <;> rfl

/-! ## Lines that are refused -/

/-- A line is neither blank nor one JSON value, for the given reason. -/
structure Refused (loads : String → Except Json.Fault α) (line : List Char) (f : Json.Fault) :
    Prop where
  not_blank : line.all isBlank = false
  not_json : loads (String.ofList line) = .error f

/-- The line with the index `k` is refused, and no line before it is. -/
structure FirstRefused (loads : String → Except Json.Fault α) (ls : List (List Char)) (k : Nat)
    (f : Json.Fault) : Prop where
  refused : ∃ line, ls[k]? = some line ∧ Refused loads line f
  first : ∀ j < k, ∀ line, ls[j]? = some line → ∀ g, ¬ Refused loads line g

/-- The error that a refused line leads to. -/
def refusal (path : String) (number : Nat) (f : Json.Fault) : Error :=
  if f.limit?.isSome then .eventText f else .load (.invalidEvent path number f)

variable {f : Json.Fault} {e : Error} {k : Nat}

theorem first_refused_zero : FirstRefused loads (l :: ls) 0 f ↔ Refused loads l f := by
  constructor
  · rintro ⟨⟨_, ⟨⟩, h⟩, -⟩
    exact h
  · intro h
    exact ⟨⟨l, rfl, h⟩, fun j hj => absurd hj (Nat.not_lt_zero j)⟩

theorem first_refused_succ :
    FirstRefused loads (l :: ls) (k + 1) f ↔
      (∀ g, ¬ Refused loads l g) ∧ FirstRefused loads ls k f := by
  constructor
  · rintro ⟨⟨line, hline, h⟩, hfirst⟩
    refine ⟨hfirst 0 (Nat.succ_pos k) l rfl, ⟨⟨line, hline, h⟩, fun j hj => ?_⟩⟩
    exact hfirst (j + 1) (Nat.succ_lt_succ hj)
  · rintro ⟨hl, ⟨line, hline, h⟩, hfirst⟩
    refine ⟨⟨line, hline, h⟩, fun j hj => ?_⟩
    cases j with
    | zero =>
        rintro _ ⟨⟩
        exact hl
    | succ j => exact hfirst j (Nat.lt_of_succ_lt_succ hj)

theorem events_of_refused (h : Refused loads l f) :
    eventsOf loads path number (l :: ls) = .error (refusal path number f) := by
  have hevent : eventOf loads path number l = .error (refusal path number f) := by
    simp only [eventOf, h.not_json, refusal]
    split <;> rfl
  simp [eventsOf, h.not_blank, hevent, Bind.bind, Except.bind]

/-- A line that is not refused leaves the outcome to the lines behind it. -/
theorem events_of_accepted (h : ∀ g, ¬ Refused loads l g) :
    eventsOf loads path number (l :: ls) = .error e ↔
      eventsOf loads path (number + 1) ls = .error e := by
  cases hblank : l.all isBlank with
  | true => rw [events_of_blank hblank]
  | false =>
      cases hread : loads (String.ofList l) with
      | error g => exact absurd ⟨hblank, hread⟩ (h g)
      | ok x =>
          cases hrest : eventsOf loads path (number + 1) ls with
          | ok vs => rw [events_of_value hblank hread hrest]; simp
          | error d => simp [eventsOf, hblank, eventOf, hread, hrest, Bind.bind, Except.bind]

/-- Lines fail exactly at the first that is refused. -/
theorem events_of_eq_error_iff : eventsOf loads path number ls = .error e ↔
    ∃ k f, FirstRefused loads ls k f ∧ e = refusal path (number + k) f := by
  induction ls generalizing number with
  | nil =>
      constructor
      · rintro ⟨⟩
      · rintro ⟨k, f, ⟨⟨line, hline, -⟩, -⟩, -⟩
        simp at hline
  | cons l ls ih =>
      by_cases hl : ∃ f, Refused loads l f
      · obtain ⟨f, hf⟩ := hl
        rw [events_of_refused hf, Except.error.injEq]
        constructor
        · rintro rfl
          exact ⟨0, f, first_refused_zero.mpr hf, rfl⟩
        · rintro ⟨k, g, hk, rfl⟩
          cases k with
          | zero =>
              obtain rfl : f = g := Except.error.inj
                (hf.not_json.symm.trans (first_refused_zero.mp hk).not_json)
              rfl
          | succ k => exact absurd hf ((first_refused_succ.mp hk).1 f)
      · have hl : ∀ g, ¬ Refused loads l g := not_exists.mp hl
        rw [events_of_accepted hl, ih]
        have hnumber : ∀ k, number + 1 + k = number + (k + 1) := fun k => by omega
        constructor
        · rintro ⟨k, f, hk, rfl⟩
          exact ⟨k + 1, f, first_refused_succ.mpr ⟨hl, hk⟩, by rw [hnumber]⟩
        · rintro ⟨k, f, hk, rfl⟩
          cases k with
          | zero => exact absurd (first_refused_zero.mp hk) (hl f)
          | succ k => exact ⟨k, f, (first_refused_succ.mp hk).2, by rw [hnumber]⟩

/-- Where a line is refused, one is the first. -/
theorem exists_first_refused (h : ∃ line ∈ ls, ∃ f, Refused loads line f) :
    ∃ k f, FirstRefused loads ls k f := by
  induction ls with
  | nil =>
      obtain ⟨line, hline, -⟩ := h
      cases hline
  | cons l ls ih =>
      by_cases hl : ∃ f, Refused loads l f
      · obtain ⟨f, hf⟩ := hl
        exact ⟨0, f, first_refused_zero.mpr hf⟩
      · have hl : ∀ g, ¬ Refused loads l g := not_exists.mp hl
        obtain ⟨line, hline, f, hf⟩ := h
        rcases List.mem_cons.mp hline with rfl | hline
        · exact absurd hf (hl f)
        · obtain ⟨k, g, hk⟩ := ih ⟨line, hline, f, hf⟩
          exact ⟨k + 1, g, first_refused_succ.mpr ⟨hl, hk⟩⟩

/-! ## Bytes -/

theorem from_utf8_utf8 (s : String) : String.fromUTF8? ⟨(Value.utf8 s).toArray⟩ = some s := by
  have hbytes : (⟨(Value.utf8 s).toArray⟩ : ByteArray) = s.toByteArray := by
    rw [Value.utf8, Array.toArray_toList]
    rfl
  rw [hbytes, String.fromUTF8?, dif_pos s.isValidUTF8]
  rfl

theorem read_of_text {bytes : List UInt8} {text : String}
    (h : String.fromUTF8? ⟨bytes.toArray⟩ = some text) :
    read loads chunk path (.ok bytes) = eventsOf loads path 1 (lines text.toList) := by
  simp only [read, h]

/-- A file with one written event gives it back. -/
theorem read_written (chunk : Nat) (path : String) {x : α} (h : Dumped loads dumps x) :
    read loads chunk path (.ok (Value.utf8 (dumps x))) = .ok [x] := by
  rw [read_of_text (from_utf8_utf8 _)]
  exact events_of_last (r := .event x) h 1

theorem kind_refusal : (refusal path number f).kind = "LoaderError" ↔ f.limit? = none := by
  cases f <;> simp [refusal, Json.Fault.limit?, Error.kind]

/-- A file of written events gives the events back in order. Of any other text the first line that
is neither blank nor one JSON value is reported, under its number, if the parser has no other reason
to refuse it; and it is reported whenever there is such a line, if the parser has no other reason to
refuse any line of the text. -/
theorem event_file_round_trip (loads : String → Except Json.Fault α) (dumps : α → String)
    (chunk : Nat) (path : String) :
    (∀ (rows : List (Row α × Ending)) (last : Row α),
      (∀ r ∈ rows.map Prod.fst ++ [last], r.Proper loads dumps) →
      read loads chunk path (.ok (Value.utf8 (String.ofList (fileChars dumps rows last)))) =
        .ok (fileEvents rows last)) ∧
    ∀ (bytes : List UInt8) (text : String), String.fromUTF8? ⟨bytes.toArray⟩ = some text →
      (∀ e, read loads chunk path (.ok bytes) = .error e ∧ e.kind = "LoaderError" ↔
        ∃ k f, FirstRefused loads (lines text.toList) k f ∧ f.limit? = none ∧
          e = .load (.invalidEvent path (k + 1) f)) ∧
      ((∀ line ∈ lines text.toList, ∀ f, Refused loads line f → f.limit? = none) →
        ((∃ e, read loads chunk path (.ok bytes) = .error e ∧ e.kind = "LoaderError") ↔
          ∃ line ∈ lines text.toList, ∃ f, Refused loads line f)) := by
  refine ⟨fun rows last h => ?_, fun bytes text htext => ?_⟩
  · rw [read_of_text (from_utf8_utf8 _), String.toList_ofList]
    exact events_of_written h 1
  · have hloader : ∀ e, read loads chunk path (.ok bytes) = .error e ∧ e.kind = "LoaderError" ↔
        ∃ k f, FirstRefused loads (lines text.toList) k f ∧ f.limit? = none ∧
          e = .load (.invalidEvent path (k + 1) f) := by
      intro e
      rw [read_of_text htext, events_of_eq_error_iff]
      constructor
      · rintro ⟨⟨k, f, hk, rfl⟩, hkind⟩
        have hlimit := kind_refusal.mp hkind
        refine ⟨k, f, hk, hlimit, ?_⟩
        rw [refusal, hlimit, Nat.add_comm]
        rfl
      · rintro ⟨k, f, hk, hlimit, rfl⟩
        refine ⟨⟨k, f, hk, ?_⟩, rfl⟩
        rw [refusal, hlimit, Nat.add_comm]
        rfl
    refine ⟨hloader, fun hsyntax => ⟨?_, fun h => ?_⟩⟩
    · rintro ⟨e, he⟩
      obtain ⟨k, f, ⟨⟨line, hline, hf⟩, -⟩, -⟩ := (hloader e).mp he
      exact ⟨line, List.mem_of_getElem? hline, f, hf⟩
    · obtain ⟨k, f, hk⟩ := exists_first_refused h
      obtain ⟨line, hline, hf⟩ := hk.refused
      have hlimit := hsyntax line (List.mem_of_getElem? hline) f hf
      exact ⟨_, (hloader _).mpr ⟨k, f, hk, hlimit, rfl⟩⟩

/-! ## The reader and the writer of JSON -/

/-- What is written of a readable value is taken back, without its marks. -/
theorem dumped_of_readable {style : Json.Style} (hstyle : style.OneLine) {v : Value}
    (hjson : v.IsJson) (hv : v.toJson.Readable 0) (hmarks : v.remark (fun _ => none) = v) :
    Dumped Value.loads (fun v => v.toJson.write style) v := by
  refine ⟨fun c hc => ?_, ?_, fun blanks hblanks => ?_⟩
  · rw [Json.write, String.toList_ofList] at hc
    exact Json.le_of_mem_chars hstyle 0 v.toJson c hc
  · obtain ⟨c, cs, hcs, hlow, hhigh⟩ := Json.exists_first_char style 0 v.toJson
    refine ⟨c, by simp [Json.write, hcs], ?_⟩
    simp only [isBlank, Bool.or_eq_false_iff, Bool.and_eq_false_iff, decide_eq_false_iff_not,
      beq_eq_false_iff_ne]
    omega
  · rw [Value.loads, Json.write, String.toList_ofList, hv.read_write hstyle hblanks, Except.map,
      hjson.of_json_to_json, hmarks]

/-- A file with a blank line, a text that holds a quote and a separator, and a table. -/
def doorRows : List (Row Value × Ending) :=
  [(.blank ['\u3000'], .lineFeed), (.event (.text "\"\u2028"), .both)]

@[inherit_doc doorRows]
def doorLast : Row Value :=
  .event (.newTable [(.text "type", .text "OPEN")])

/-- The events of the door are read back; a brace alone on the third line is reported. -/
theorem door_file_read :
    read Value.loads 8192 "door" (.ok (Value.utf8 (String.ofList
        (fileChars (fun v => v.toJson.write Json.spacedAscii) doorRows doorLast)))) =
        .ok [.text "\"\u2028", .newTable [(.text "type", .text "OPEN")]] ∧
      read Value.loads 8192 "door" (.ok (Value.utf8 "\n\"OPEN\"\r\n\x7b\n")) =
        .error (.load (.invalidEvent "door" 3 .expectedName)) := by
  obtain ⟨hwritten, hrefused⟩ := event_file_round_trip Value.loads
    (fun v => v.toJson.write Json.spacedAscii) 8192 "door"
  have htext : ∀ s, Dumped Value.loads (fun v => v.toJson.write Json.spacedAscii) (.text s) :=
    fun s => dumped_of_readable Json.spaced_ascii_one_line (.text s) (.str s)
      (by simp [Value.remark_eq, Value.rebuild])
  constructor
  · let es := [("type", Value.text "OPEN")]
    have htable : Dumped Value.loads (fun v => v.toJson.write Json.spacedAscii) (.table es) := by
      refine dumped_of_readable Json.spaced_ascii_one_line ?_ ?_ ?_
      · exact .dict (List.nodup_singleton "type") (List.forall_mem_singleton.mpr (.text "OPEN"))
      · exact .obj (by decide) (List.forall_mem_singleton.mpr (.str "OPEN"))
      · simp [Value.remark_eq, Value.table, Value.newTable, Value.contents, Value.rebuild,
          Value.pairs, es]
    have hproper : ∀ r ∈ doorRows.map Prod.fst ++ [doorLast],
        r.Proper Value.loads fun v => v.toJson.write Json.spacedAscii := by
      refine List.forall_mem_cons.mpr ⟨by simp [Row.Proper, isBlank], ?_⟩
      exact List.forall_mem_cons.mpr ⟨htext _, List.forall_mem_singleton.mpr htable⟩
    rw [hwritten doorRows doorLast hproper]
    rfl
  · have hopen : Value.loads (String.ofList ['"', 'O', 'P', 'E', 'N', '"', '\n']) =
        .ok (.text "OPEN") :=
      (htext "OPEN").taken_back ['\n'] (List.forall_mem_singleton.mpr rfl)
    have hfirst : FirstRefused Value.loads (lines "\n\"OPEN\"\r\n\x7b\n".toList) 2
        .expectedName := by
      refine ⟨⟨['{', '\n'], rfl, ⟨rfl, rfl⟩⟩, fun j hj line hline g hg => ?_⟩
      obtain rfl | rfl : j = 0 ∨ j = 1 := by omega
      · cases hline
        cases hg.not_blank
      · cases hline
        cases hopen.symm.trans hg.not_json
    exact (((hrefused _ _ (from_utf8_utf8 _)).1 _).mpr ⟨2, _, hfirst, rfl, rfl⟩).1

end EventFile

end Statechart
