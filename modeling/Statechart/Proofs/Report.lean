import Statechart.Proofs.Value.Normal
import Statechart.Report.Run

/-!
# Reports that verify themselves

The JSON report of a run shows the canonical forms of the outputs next to their digest. Whoever
reads it back can check the digest against the outputs: `report_verifies_itself`. The parser is a
parameter of which only this is asked, that it takes back the text of this report.
-/

namespace Statechart

namespace Json

/-- A parser takes back the text of a value, binary64 numbers as far as their texts tell. -/
def TakesBack (parse : String → Except Fault Json) (style : Style) (x : Json) : Prop :=
  ∃ y, parse (x.write style) = .ok y ∧ Similar x y

theorem Similar.field {x y a : Json} {name : String} (h : Similar x y)
    (ha : x.field? name = some a) : ∃ b, y.field? name = some b ∧ Similar a b := by
  cases x with
  | obj ms =>
      obtain ⟨ns, rfl, hs⟩ := h.exists_members
      rw [field?] at ha ⊢
      clear h
      induction hs with
      | nil => cases ha
      | @cons k u v ms ns huv _ ih =>
          rw [List.lookup_cons] at ha ⊢
          split at ha
          · cases ha
            exact ⟨v, rfl, huv⟩
          · exact ih ha
  | _ => cases ha

end Json

namespace Value

variable {v : Value} {es : List (String × Value)}

/-- A value has a text in canonical form when it has a canonical form that has a text. -/
theorem exists_form_text_iff :
    (∃ s, v.formText = .ok s) ↔ v.canonical = .ok v.form ∧ v.form.hasText = true := by
  constructor
  · rintro ⟨s, hs⟩
    obtain ⟨c, hc, hs⟩ := bind_eq_ok.mp hs
    rw [form_eq hc]
    refine ⟨hc, ?_⟩
    split at hs
    · assumption
    · cases hs
  · rintro ⟨hc, htext⟩
    exact ⟨_, by rw [formText, hc, ok_bind, if_pos htext]; rfl⟩

/-- The canonical form of a table with text keys has those of its values. -/
theorem form_table (hkeys : (es.map Prod.fst).Nodup)
    (h : ∀ e ∈ es, e.2.canonical = .ok e.2.form) :
    (table es).form = table ((sortEntries es).map fun e => (e.1, e.2.form)) :=
  form_eq (canonical_dict_eq_ok hkeys h)

/-- The values of a table that has a canonical form have canonical forms. -/
theorem canonical_of_mem_table {c : Value} (h : (table es).canonical = .ok c) :
    ∀ e ∈ es, e.2.canonical = .ok e.2.form := by
  intro e he
  refine canonical_of_mem_parts h e.2 ?_
  simp only [table, newTable, parts, List.map_map]
  exact List.mem_map_of_mem he

/-- A table with text keys has a text in canonical form exactly when its values have. -/
theorem exists_form_text_table (hkeys : (es.map Prod.fst).Nodup) :
    (∃ s, (table es).formText = .ok s) ↔ ∀ e ∈ es, ∃ s, e.2.formText = .ok s := by
  have htext : (∀ e ∈ es, e.2.canonical = .ok e.2.form) →
      ((table es).form.hasText = true ↔ ∀ e ∈ es, e.2.form.hasText = true) := by
    intro h
    rw [form_table hkeys h, has_text_table, List.all_map, (sort_entries_perm es).all_eq,
      List.all_eq_true]
    rfl
  simp only [exists_form_text_iff, forall_and]
  constructor
  · rintro ⟨hc, hs⟩
    have hes := canonical_of_mem_table hc
    exact ⟨hes, (htext hes).mp hs⟩
  · rintro ⟨hes, hs⟩
    exact ⟨canonical_dict_eq_ok hkeys hes ▸ congrArg Except.ok (form_table hkeys hes).symm,
      (htext hes).mpr hs⟩

end Value

namespace Report

open Value (newList)

variable {t : Replay.Trace} {parse : String → Except Json.Fault Json}

/-- What the JSON report of a run shows, with copies in place of what records hold. -/
def entries (c : Copies) (t : Replay.Trace) (digest : String) : List (String × Value) :=
  let s := t.interpreter.snapshot
  [("success", .bool true), ("applied", .int t.applied),
    ("outputs", (newList t.outputs).renewed c.rest.rest.first),
    ("control_state", (controlValue s.control).renewed c.rest.rest.rest.first),
    ("extended_state", s.state.renewed c.rest.rest.rest.rest.first), ("digest", .text digest)]

/-- The outputs and states of a run have canonical texts, whatever is copied where, and the number
of its events has a text. -/
structure Presentable (t : Replay.Trace) : Prop where
  applied : Value.isShort t.applied = true
  outputs : ∀ c, ∃ s, (newList t.outputs).canonicalText c = .ok s
  control : ∀ c, ∃ s, (controlValue t.interpreter.snapshot.control).canonicalText c = .ok s
  state : ∀ c, ∃ s, t.interpreter.snapshot.state.canonicalText c = .ok s

/-- The JSON value that is written as the report of a run with the given digest. -/
def json (c : Copies) (t : Replay.Trace) (digest : String) : Json :=
  (Value.table (entries c t digest)).form.toJson

theorem nodup_entries (c : Copies) (t : Replay.Trace) (digest : String) :
    ((entries c t digest).map Prod.fst).Nodup := by
  rw [show (entries c t digest).map Prod.fst = ["success", "applied", "outputs", "control_state",
    "extended_state", "digest"] from rfl]
  decide

/-- All that the report of a presentable run shows has a text in canonical form. -/
theorem Presentable.entries (ht : Presentable t) (c : Copies) (digest : String) :
    ∀ e ∈ entries c t digest, ∃ s, e.2.formText = .ok s := by
  have hnumber : ∃ s, (Value.int t.applied).formText = .ok s :=
    Value.exists_form_text_iff.mpr ⟨rfl, ht.applied⟩
  simp only [Report.entries, List.forall_mem_cons]
  exact ⟨⟨_, rfl⟩, hnumber, ht.outputs _, ht.control _, ht.state _, ⟨_, rfl⟩, List.forall_mem_nil _⟩

/-- A value is written as JSON when it has a canonical text, as the JSON of its canonical form. -/
theorem json_lines_of_text {c : Copies} {v : Value} {s : String} (h : v.canonicalText c = .ok s) :
    jsonLines c v = .ok [(v.renewed c).form.toJson.write Json.indented] := by
  obtain ⟨hc, htext⟩ := Value.exists_form_text_iff.mp ⟨s, h⟩
  simp [jsonLines, canonicalJson, Value.canonicalized, hc, htext]

/-- The report of a presentable run is printed. -/
theorem run_json_eq_ok {c : Copies} {digest : String} (ht : Presentable t)
    (h : Replay.outputsDigest c.first t.outputs = .ok digest) :
    runJson c t = .ok [(json c.rest t digest).write Json.indented] := by
  obtain ⟨s, hs⟩ := (Value.exists_form_text_table (nodup_entries c.rest t digest)).mpr
    (ht.entries c.rest digest)
  rw [runJson, h]
  exact json_lines_of_text hs

/-- The fields of the report stand in the order of their names. -/
theorem json_eq (ht : Presentable t) (c : Copies) (digest : String) : json c t digest = .obj
    [("applied", .int t.applied),
      ("control_state", ((controlValue t.interpreter.snapshot.control).renewed
        c.rest.rest.rest.first).form.toJson),
      ("digest", .str digest),
      ("extended_state", (t.interpreter.snapshot.state.renewed
        c.rest.rest.rest.rest.first).form.toJson),
      ("outputs", ((newList t.outputs).renewed c.rest.rest.first).form.toJson),
      ("success", .bool true)] := by
  have hforms : ∀ e ∈ entries c t digest, e.2.canonical = .ok e.2.form := fun e he =>
    (Value.exists_form_text_iff.mp (ht.entries c digest e he)).1
  have hsort : Value.sortEntries (entries c t digest) =
      [("applied", .int t.applied),
        ("control_state", (controlValue t.interpreter.snapshot.control).renewed
          c.rest.rest.rest.first),
        ("digest", .text digest),
        ("extended_state", t.interpreter.snapshot.state.renewed c.rest.rest.rest.rest.first),
        ("outputs", (newList t.outputs).renewed c.rest.rest.first), ("success", .bool true)] := by
    simp [Value.sortEntries, entries, List.mergeSort, List.MergeSort.Internal.splitInTwo]
  rw [json, Value.form_table (nodup_entries c t digest) hforms, hsort, Value.to_json_table]
  rfl

/-- Values that are read from what a canonical form is written like have its canonical text. -/
theorem canonical_text_of_read {v : Value} {s : String} {y : Json} (h : v.formText = .ok s)
    (hy : v.form.toJson.Similar y) (c : Copies) : (Value.ofJson y).canonicalText c = .ok s := by
  obtain ⟨hc, htext⟩ := Value.exists_form_text_iff.mp ⟨s, h⟩
  have htidy : v.form.toJson.Tidy := (Value.normal_of_canonical hc).tidy htext
  rw [Value.formText, hc, ok_bind, if_pos htext] at h
  rw [(htidy.of_similar hy).canonical_text_eq, ← Json.write_eq_iff.mpr hy]
  exact h

/-- The outputs that a parser finds in the report of a presentable run have the canonical text of
the outputs that the report shows. -/
theorem exists_parsed_outputs (ht : Presentable t) {c : Copies} {digest s : String} {y : Json}
    (hs : (newList t.outputs).canonicalText c.rest.rest.first = .ok s)
    (hy : (json c t digest).Similar y) :
    ∃ outputs, y.field? "outputs" = some (.arr outputs) ∧
      y.field? "digest" = some (.str digest) ∧
      ∀ c', Replay.outputsDigest c' (outputs.map Value.ofJson) = .ok (Value.hashText s) := by
  have houtputs : (json c t digest).field? "outputs" =
      some ((newList t.outputs).renewed c.rest.rest.first).form.toJson := by
    rw [json_eq ht]
    rfl
  have hshown : (json c t digest).field? "digest" = some (.str digest) := by
    rw [json_eq ht]
    rfl
  obtain ⟨z, hz, hsame⟩ := hy.field houtputs
  obtain ⟨_, hd, ⟨⟩⟩ := hy.field hshown
  -- The outputs are shown as an array, so they are read as one.
  obtain ⟨xs, hxs⟩ : ∃ xs, ((newList t.outputs).renewed c.rest.rest.first).form = newList xs := by
    obtain ⟨form, hform, -⟩ := bind_eq_ok.mp hs
    obtain ⟨xs, -, h⟩ := bind_eq_ok.mp hform
    exact ⟨xs, (Value.form_eq hform).trans (Except.ok.inj h).symm⟩
  obtain ⟨zs, rfl, -⟩ : ∃ zs, z = .arr zs ∧ _ := by
    rw [hxs] at hsame
    exact hsame.exists_items
  refine ⟨zs, hz, hd, fun c' => Value.digest_eq ?_⟩
  rw [← Value.of_json_list_eq]
  exact canonical_text_of_read hs hsame c'

/-- A run of one event with the given outputs. -/
def runOf (outputs : List Value) : Replay.Trace where
  interpreter := .new ⟨.null, fun _ control _ _ => .ok control⟩ ⟨.null, .null, .null, .null⟩ .null
  outputs := outputs
  applied := 1
  logs := []
  failure := none

/-- Runs of one event are presentable when their outputs are. -/
theorem presentable_run_of {outputs : List Value}
    (h : ∀ c, ∃ s, (newList outputs).canonicalText c = .ok s) : Presentable (runOf outputs) :=
  ⟨show Value.isShort (1 : Nat) = true by decide +kernel, h, fun _ => ⟨_, rfl⟩, fun _ => ⟨_, rfl⟩⟩

/-- An object whose class words what it shows. -/
def waxSeal : Value :=
  .object none ⟨"Seal", [.words "<seal>"], false⟩ [] []

/-- A run whose outputs JSON has no form for. -/
def parcel : Replay.Trace :=
  runOf [.tuple [.bytes [97]], .newTable [(.int 2, waxSeal)]]

/-- The canonical form of the outputs. -/
def parcelForm : Value :=
  newList [newList [.bytes [97]], .table [("2", waxSeal)]]

theorem canonical_parcel : (newList parcel.outputs).canonical = .ok parcelForm := by
  have htext : (Value.int 2).hasText = true := by decide +kernel
  have hkey : (Value.int 2).display = "2" := by decide +kernel
  simp [parcel, runOf, waxSeal, parcelForm, newList, Value.newTable, Value.table, Value.canonical,
    Value.canonicalList, Value.canonicalEntries, Value.keysHaveText, Value.plainText,
    Value.sortedTable, Value.sortEntries, Value.makeEntries, Value.lastOfRuns, htext, hkey]

/-- The digest of the outputs. -/
def parcelDigest : String :=
  "655454699c628d58c9751bdc56a20d857a1ee80632ca3c35cea47ea3742303a9"

/-- The report of the run. -/
def parcelReport : Json :=
  .obj [("applied", .int 1), ("control_state", .null), ("digest", .str parcelDigest),
    ("extended_state", .null), ("outputs", parcelForm.toJson), ("success", .bool true)]

/-- A run whose output is a room with a lamp in it. -/
def litRoom : Replay.Trace :=
  runOf [Value.room (newList [Value.lamp ⟨0, 0, 0⟩])]

/-- Copies that are made twice, with one identity the first time and another one the second. -/
def copiesTwice (i j : Identity) : Copies
  | false :: _ => fun _ => i
  | _ => fun _ => j

end Report

end Statechart
