import Statechart.Proofs.Json.Text
import Statechart.Proofs.Value.Form

/-!
# Forms that are written alike

Canonical forms of values that differ in what does not count need not be equal, since objects and
callables stay in them as they are. They are `Alike`: each has a text when the other has one, and
their JSON is the same but for numbers that look the same. Lists and tables of forms that are alike
are alike, however they have come about.
-/

namespace Statechart.Value

/-- Two values that both have a text or both have none, and whose JSON is written alike. -/
structure Alike (c d : Value) : Prop where
  has_text_eq : c.hasText = d.hasText
  similar : Json.Similar c.toJson d.toJson

theorem Alike.refl (c : Value) : Alike c c :=
  ⟨rfl, .same _⟩

theorem all_have_text_eq (xs : List Value) : allHaveText xs = xs.all hasText := by
  induction xs with
  | nil => rfl
  | cons x xs ih => simp [allHaveText, ih]

theorem to_json_list_eq (xs : List Value) : toJsonList xs = xs.map toJson := by
  induction xs with
  | nil => rfl
  | cons x xs ih => simp [toJsonList, ih]

/-- A table with text keys has a text when its values have. -/
theorem has_text_table (es : List (String × Value)) :
    (table es).hasText = es.all fun e => e.2.hasText := by
  induction es with
  | nil => rfl
  | cons e es ih =>
      simp only [table, newTable, hasText, List.map_cons, entriesHaveText, List.all_cons,
        Bool.true_and] at ih ⊢
      rw [ih]

theorem to_json_table (es : List (String × Value)) :
    (table es).toJson = .obj (es.map fun e => (e.1, e.2.toJson)) := by
  induction es with
  | nil => rfl
  | cons e es ih =>
      simp only [table, newTable, toJson, List.map_cons, toJsonEntries, memberName,
        Json.obj.injEq] at ih ⊢
      rw [ih]

/-- Lists of forms that are written alike are written alike. -/
theorem alike_list {xs ys : List Value} (h : List.Forall₂ Alike xs ys) :
    Alike (newList xs) (newList ys) := by
  refine ⟨?_, ?_⟩
  · simp only [newList, hasText, all_have_text_eq]
    exact all_eq_of_forall₂ h fun x _ y hxy => hxy.has_text_eq
  · simp only [newList, toJson, to_json_list_eq]
    refine .arr ?_
    rw [List.forall₂_map_left_iff, List.forall₂_map_right_iff]
    exact h.imp fun _ _ hxy => hxy.similar

/-- Tables of forms that are written alike are written alike. -/
theorem alike_table {es ds : List (String × Value)} (h : Entrywise Alike es ds) :
    Alike (table es) (table ds) := by
  refine ⟨?_, ?_⟩
  · rw [has_text_table, has_text_table]
    exact h.all_eq fun e _ y hey => hey.has_text_eq
  · rw [to_json_table, to_json_table]
    exact .obj (h.map id fun _ _ hxy => hxy.similar)

/-! ## Containers made of such forms -/

/-- The last of each run is kept of lists that are written alike. -/
theorem last_of_runs_entrywise {es ds : List (String × Value)} (h : Entrywise Alike es ds) :
    Entrywise Alike (lastOfRuns es) (lastOfRuns ds) := by
  induction h with
  | nil => exact .nil
  | cons h hs ih =>
      cases hs with
      | nil => exact .cons h .nil
      | cons h' hs =>
          simp only [lastOfRuns]
          split
          · exact ih
          · exact .cons h ih

/-- Values that are made alike one after the other give entries that are written alike. -/
theorem make_entries_agree {es ds : List (String × Except Error Value)}
    (h : Entrywise (Agree Alike) es ds) :
    Agree (Entrywise Alike) (makeEntries es) (makeEntries ds) := by
  induction h with
  | nil => exact .ok .nil
  | cons h _ ih => exact h.bind fun _ _ hv => ih.bind fun _ _ hes => .ok (.cons hv hes)

theorem sorted_table_agree {es ds : List (String × Except Error Value)}
    (h : Entrywise (Agree Alike) es ds) : Agree Alike (sortedTable es) (sortedTable ds) :=
  (make_entries_agree (sort_entries_entrywise h)).bind fun _ _ hes =>
    .ok (alike_table (last_of_runs_entrywise hes))

/-- Forms that are written alike have one text to be sorted by, and forms with one such text are
written alike. -/
theorem sort_text_eq_iff {c d : Value} :
    c.sortText = d.sortText ↔ Json.Similar c.toJson d.toJson :=
  Json.write_inj_iff Json.spaced_ascii_one_line

/-- The texts by which elements are sorted come out in the order of texts. -/
theorem map_sort_elements (xs : List Value) :
    (sortElements xs).map sortText = (xs.map sortText).mergeSort fun a b => a ≤ b :=
  List.map_mergeSort fun _ _ _ _ => rfl

/-- Elements that are written alike up to their order are sorted to lists that are written alike. -/
theorem sorted_elements_agree {xs ys zs : List Value} (h : List.Forall₂ Alike xs ys)
    (hperm : ys.Perm zs) : Agree Alike (sortedElements xs) (sortedElements zs) := by
  have hall : allHaveText xs = allHaveText zs := by
    rw [all_have_text_eq, all_have_text_eq, ← hperm.all_eq]
    exact all_eq_of_forall₂ h fun x _ y hxy => hxy.has_text_eq
  have htexts : xs.map sortText = ys.map sortText :=
    map_eq_map_iff.mpr (h.imp fun _ _ hxy => sort_text_eq_iff.mpr hxy.similar)
  have hsorted : List.Forall₂ (fun x z => x.sortText = z.sortText) (sortElements xs)
      (sortElements zs) := by
    rw [← map_eq_map_iff, map_sort_elements, map_sort_elements, htexts,
      sort_texts_congr (hperm.map sortText)]
  rw [sortedElements, sortedElements, ← hall]
  split
  next hx =>
    -- Elements with one text to be sorted by need not be the same, but both have a text.
    have hz : allHaveText zs = true := hall ▸ hx
    rw [all_have_text_eq, List.all_eq_true] at hx hz
    refine .ok (alike_list (forall₂_imp_of_mem hsorted fun x hxs z hzs hxz => ?_))
    have hx : x.hasText = true := hx x ((List.mergeSort_perm xs _).mem_iff.mp hxs)
    have hz : z.hasText = true := hz z ((List.mergeSort_perm zs _).mem_iff.mp hzs)
    exact ⟨hx.trans hz.symm, sort_text_eq_iff.mp hxz⟩
  next => exact .error _

theorem canonical_list_agree {xs ys : List Value}
    (h : List.Forall₂ (fun x y => Agree Alike x.canonical y.canonical) xs ys) :
    Agree (List.Forall₂ Alike) (canonicalList xs) (canonicalList ys) := by
  induction h with
  | nil => exact .ok .nil
  | cons h _ ih => exact h.bind fun _ _ hx => ih.bind fun _ _ hxs => .ok (.cons hx hxs)

theorem require_convertible_agree {a b : Bool} {x y : Except Error Value} (hab : a = b)
    (h : Agree Alike x y) : Agree Alike (requireConvertible a x) (requireConvertible b y) := by
  subst hab
  cases a with
  | true => exact h
  | false => exact .error _

end Statechart.Value
