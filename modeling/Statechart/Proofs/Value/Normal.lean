import Statechart.Proofs.Value.Digest

/-!
# Normal forms

Canonical forms are normal: `normal_of_canonical`. A normal form is made of lists, of tables whose
text keys increase strictly, and of values that are canonical as they stand. Its JSON is tidy, and
the value of a tidy JSON value has that JSON for its canonical form again: `Tidy.canonical_text_eq`.
So reading the text of a canonical form leads back to the same canonical text.
-/

namespace Statechart

open Json (Similar)

namespace Value

variable {v c : Value}

/-- Lists, and tables with increasing text keys, of values that are canonical as they stand. -/
inductive Normal : Value → Prop where
  | plain {v : Value} (h : v.isPlain = true) : Normal v
  | list {xs : List Value} (h : ∀ x ∈ xs, Normal x) : Normal (newList xs)
  | table {es : List (String × Value)} (hkeys : es.Pairwise fun a b => a.1 < b.1)
      (h : ∀ e ∈ es, Normal e.2) : Normal (table es)

/-! ## Canonical forms are normal -/

theorem last_of_runs_sublist (es : List (String × Value)) : (lastOfRuns es).Sublist es := by
  induction es using lastOfRuns.induct with
  | case1 => exact .slnil
  | case2 => exact .refl _
  | case3 e f es h ih =>
      rw [lastOfRuns, if_pos h]
      exact ih.cons _
  | case4 e f es h ih =>
      rw [lastOfRuns, if_neg h]
      exact ih.cons_cons _

/-- Of sorted entries the last of each run have strictly increasing keys. -/
theorem pairwise_last_of_runs {es : List (String × Value)}
    (h : es.Pairwise fun a b => a.1 ≤ b.1) : (lastOfRuns es).Pairwise fun a b => a.1 < b.1 := by
  induction es using lastOfRuns.induct with
  | case1 => exact .nil
  | case2 => exact List.pairwise_singleton _ _
  | case3 e f es hef ih =>
      rw [lastOfRuns, if_pos hef]
      exact ih h.of_cons
  | case4 e f es hef ih =>
      obtain ⟨he, hrest⟩ := List.pairwise_cons.mp h
      obtain ⟨hf, -⟩ := List.pairwise_cons.mp hrest
      rw [lastOfRuns, if_neg hef]
      refine List.pairwise_cons.mpr ⟨fun d hd => ?_, ih hrest⟩
      -- Whatever is kept comes at or after `f`, whose key is greater than that of `e`.
      have hlt : e.1 < f.1 :=
        lt_of_le_of_ne (he f List.mem_cons_self) hef
      rcases List.mem_cons.mp ((last_of_runs_sublist _).mem hd) with rfl | hd
      · exact hlt
      · exact lt_of_lt_of_le hlt (hf d hd)

theorem normal_of_sorted_table {es : List (String × Except Error Value)}
    (h : sortedTable es = .ok c) (hes : ∀ e ∈ es, ∀ d, e.2 = .ok d → Normal d) : Normal c := by
  obtain ⟨ds, hds, h⟩ := bind_eq_ok.mp h
  cases h
  have hmade := make_entries_entrywise hds
  have hsorted : ds.Pairwise fun a b => a.1 ≤ b.1 := by
    have hkeys := pairwise_sort_entries es
    rw [← List.pairwise_map (f := Prod.fst) (R := (· ≤ ·)), hmade.keys] at hkeys
    exact List.pairwise_map.mp hkeys
  refine .table (pairwise_last_of_runs hsorted) fun d hd => ?_
  obtain ⟨ps, hes', rfl, hps⟩ := hmade.exists_pairs
  obtain ⟨p, hp, rfl⟩ := List.mem_map.mp ((last_of_runs_sublist _).mem hd)
  have hmem : (p.1, p.2.1) ∈ es :=
    (sort_entries_perm es).mem_iff.mp (hes' ▸ List.mem_map_of_mem hp)
  exact hes _ hmem _ (hps p hp)

theorem normal_of_sorted_elements {xs : List Value} (h : sortedElements xs = .ok c)
    (hxs : ∀ x ∈ xs, Normal x) : Normal c := by
  rw [sortedElements] at h
  split at h
  · cases h
    exact .list fun x hx => hxs x ((List.mergeSort_perm _ _).mem_iff.mp hx)
  · cases h

/-- Canonical forms are normal. -/
theorem normal_of_canonical (h : v.canonical = .ok c) : Normal c := by
  induction v using members_induction generalizing c with
  | step v ih =>
      have hpart : ∀ x ∈ v.parts, ∀ d, x.canonical = .ok d → Normal d := fun x hx d hd =>
        ih x (parts_subset_members hx) hd
      have hitems : ∀ {xs cs : List Value}, v.parts = xs →
          canonicalList xs = .ok cs → ∀ c ∈ cs, Normal c := by
        intro xs cs hxs hcs c hc
        obtain ⟨x, hx, hxc⟩ := exists_of_mem_forall₂ (canonical_list_forall₂ hcs) hc
        exact hpart x (hxs ▸ hx) c hxc
      cases v.shape with
      | sequence hv =>
          rw [hv.canonical_eq] at h
          obtain ⟨cs, hcs, h⟩ := bind_eq_ok.mp h
          cases h
          exact .list (hitems hv.parts_eq hcs)
      | gathering hv =>
          rw [hv.canonical_eq] at h
          obtain ⟨cs, hcs, h⟩ := bind_eq_ok.mp h
          exact normal_of_sorted_elements h (hitems hv.parts_eq hcs)
      | dict m es =>
          rw [canonical] at h
          split at h
          · refine normal_of_sorted_table h ?_
            rw [canonical_entries_eq]
            exact List.forall_mem_map.mpr fun e he => hpart e.2 (List.mem_map_of_mem he)
          · cases h
      | filed hv =>
          rw [hv.canonical_eq] at h
          refine normal_of_sorted_table (require_convertible_eq_ok.mp h).2 ?_
          exact List.forall_mem_map.mpr fun f hf =>
            hpart f.2 (hv.parts_eq ▸ List.mem_map_of_mem hf)
      | plain hv =>
          rw [canonical_of_plain hv] at h
          cases h
          exact .plain hv

end Value

/-! ## Tidy JSON -/

/-- JSON values whose numbers are not too long and whose objects have increasing names. -/
inductive Json.Tidy : Json → Prop where
  | null : Tidy .null
  | bool (b : Bool) : Tidy (.bool b)
  | int {i : Int} (h : Value.isShort i = true) : Tidy (.int i)
  | float (x : Binary64) : Tidy (.float x)
  | str (s : String) : Tidy (.str s)
  | arr {xs : List Json} (h : ∀ x ∈ xs, Tidy x) : Tidy (.arr xs)
  | obj {ms : List (String × Json)} (hkeys : ms.Pairwise fun a b => a.1 < b.1)
      (h : ∀ m ∈ ms, Tidy m.2) : Tidy (.obj ms)

namespace Value

variable {v c : Value}

/-- A normal form that has a text is written as tidy JSON. -/
theorem Normal.tidy (h : Normal c) (htext : c.hasText = true) : c.toJson.Tidy := by
  induction h with
  | @plain v h =>
      cases v with
      | null => exact .null
      | bool b => exact .bool b
      | int i => exact .int htext
      | float x => exact .float x
      | text | bytes | view | object | callable | builtin => exact .str _
      | _ => cases h
  | @list xs _ ih =>
      rw [newList, hasText, all_have_text_eq, List.all_eq_true] at htext
      rw [newList, toJson, to_json_list_eq]
      exact .arr (List.forall_mem_map.mpr fun x hx => ih x hx (htext x hx))
  | @table es hkeys _ ih =>
      rw [has_text_table, List.all_eq_true] at htext
      rw [to_json_table]
      exact .obj (List.pairwise_map.mpr hkeys)
        (List.forall_mem_map.mpr fun e he => ih e he (htext e he))

theorem of_json_list_eq (xs : List Json) : ofJsonList xs = xs.map ofJson := by
  induction xs with
  | nil => rfl
  | cons x xs ih => simp [ofJsonList, ih]

theorem of_json_members_eq (ms : List (String × Json)) :
    ofJsonMembers ms = ms.map fun m => (.text m.1, ofJson m.2) := by
  induction ms with
  | nil => rfl
  | cons m ms ih => simp [ofJsonMembers, ih]

/-- A text key that is not there yet goes to the end. -/
theorem insert_text {es : List (String × Value)} {k : String} (hk : k ∉ es.map Prod.fst) :
    Table.insert (es.map fun e => (text e.1, e.2)) (.text k) v =
      (es ++ [(k, v)]).map fun e => (text e.1, e.2) := by
  induction es with
  | nil => rfl
  | cons e es ih =>
      rw [List.map_cons, List.mem_cons, not_or] at hk
      simp [Table.insert, Ne.symm hk.1, ih hk.2]

/-- Storing entries under text keys that all differ keeps them as they are. -/
theorem of_list_text {es : List (String × Value)} (hkeys : (es.map Prod.fst).Nodup) :
    Table.ofList (es.map fun e => (text e.1, e.2)) = es.map fun e => (text e.1, e.2) := by
  -- The induction is on the entries that are still to be stored after `ds`.
  suffices hfold : ∀ ds : List (String × Value), ((ds ++ es).map Prod.fst).Nodup →
      (es.map fun e => (text e.1, e.2)).foldl (fun t e => Table.insert t e.1 e.2)
        (ds.map fun e => (text e.1, e.2)) = (ds ++ es).map fun e => (text e.1, e.2) from
    hfold [] hkeys
  clear hkeys
  induction es with
  | nil => simp
  | cons e es ih =>
      intro ds hkeys
      have hnew : e.1 ∉ ds.map Prod.fst := by
        rw [List.map_append, List.nodup_append] at hkeys
        exact fun hmem => hkeys.2.2 _ hmem _ (by simp) rfl
      rw [List.append_cons] at hkeys ⊢
      rw [List.map_cons, List.foldl_cons, insert_text hnew]
      exact ih _ hkeys

end Value

namespace Json

variable {x y : Json}

theorem nodup_of_increasing {α : Type} {ms : List (String × α)}
    (h : ms.Pairwise fun a b => a.1 < b.1) : (ms.map Prod.fst).Nodup :=
  List.pairwise_map.mpr (h.imp fun hlt heq => absurd (heq ▸ hlt) (lt_irrefl _))

/-- What is written like tidy JSON is tidy. -/
theorem Tidy.of_similar (h : Tidy x) (hxy : Similar x y) : Tidy y := by
  induction h generalizing y with
  | null | bool | str =>
      cases hxy
      constructor
  | int h =>
      cases hxy
      exact .int h
  | float =>
      cases hxy with
      | same => exact .float _
      | float => exact .float _
  | arr _ ih =>
      obtain ⟨ys, rfl, hs⟩ := hxy.exists_items
      refine .arr fun y hy => ?_
      obtain ⟨x, hx, hxy⟩ := exists_of_mem_forall₂ hs hy
      exact ih x hx hxy
  | obj hkeys _ ih =>
      obtain ⟨ns, rfl, hs⟩ := hxy.exists_members
      obtain ⟨ps, rfl, rfl, hps⟩ := hs.exists_pairs
      rw [List.pairwise_map] at hkeys
      refine .obj (List.pairwise_map.mpr hkeys) (List.forall_mem_map.mpr fun p hp => ?_)
      exact ih _ (List.mem_map_of_mem hp) (hps p hp)

open Value (ofJson form)

/-- Reading a tidy value leads to a value of JSON that has the tidy value for its canonical form. -/
theorem Tidy.form_of_json (h : Tidy x) : (ofJson x).IsJson ∧ (ofJson x).hasText = true ∧
    (ofJson x).form.toJson = x := by
  induction h with
  | null => exact ⟨.null, rfl, rfl⟩
  | bool b => exact ⟨.bool b, rfl, rfl⟩
  | int h => exact ⟨.int _, h, rfl⟩
  | float x => exact ⟨.float x, rfl, rfl⟩
  | str s => exact ⟨.text s, rfl, rfl⟩
  | @arr xs _ ih =>
      have hitems : ∀ v ∈ xs.map ofJson, v.IsJson :=
        List.forall_mem_map.mpr fun x hx => (ih x hx).1
      rw [ofJson, Value.of_json_list_eq]
      refine ⟨.list hitems, ?_, ?_⟩
      · rw [Value.newList, Value.hasText, Value.all_have_text_eq, List.all_eq_true]
        exact List.forall_mem_map.mpr fun x hx => (ih x hx).2.1
      · rw [Value.newList, Value.form_list hitems, Value.newList, Value.toJson,
          Value.to_json_list_eq, List.map_map, List.map_map]
        exact congrArg Json.arr
          ((List.map_congr_left fun x hx => (ih x hx).2.2).trans (List.map_id' xs))
  | @obj ms hkeys _ ih =>
      let es := ms.map fun m => (m.1, ofJson m.2)
      have hnodup : (es.map Prod.fst).Nodup := by
        rw [List.map_map]
        exact nodup_of_increasing hkeys
      have hentries : ∀ e ∈ es, e.2.IsJson := List.forall_mem_map.mpr fun m hm => (ih m hm).1
      have hread : ofJson (.obj ms) = Value.table es := by
        have hmembers : Value.ofJsonMembers ms = es.map fun e => (Value.text e.1, e.2) := by
          rw [Value.of_json_members_eq, List.map_map]
          rfl
        rw [ofJson, hmembers, Value.of_list_text hnodup]
        rfl
      have hsorted : Value.sortEntries es = es :=
        List.mergeSort_of_pairwise (List.pairwise_map.mpr (hkeys.imp fun hlt =>
          decide_eq_true hlt.le))
      rw [hread]
      refine ⟨.dict hnodup hentries, ?_, ?_⟩
      · rw [Value.has_text_table, List.all_eq_true]
        exact List.forall_mem_map.mpr fun m hm => (ih m hm).2.1
      · rw [Value.table, Value.newTable, Value.form_dict hnodup hentries, hsorted,
          Value.to_json_table, List.map_map, List.map_map]
        refine congrArg Json.obj (Eq.trans ?_ (List.map_id' ms))
        exact List.map_congr_left fun m hm => Prod.ext rfl (ih m hm).2.2

/-- The canonical text of what a tidy value stands for is its compact text. -/
theorem Tidy.canonical_text_eq (h : Tidy x) (c : Copies) :
    (ofJson x).canonicalText c = .ok (x.write compact) := by
  obtain ⟨hjson, htext, hform⟩ := h.form_of_json
  rw [hjson.canonical_text_eq, if_pos htext, hform]

end Json

end Statechart
