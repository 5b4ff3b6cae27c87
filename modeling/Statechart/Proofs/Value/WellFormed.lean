import Statechart.Value.Table

/-!
# Well-formed values

The keys of a table differ from each other, and so do the elements of a set. The type of values
leaves this open, so it is a predicate here, which looks at all depths.
-/

namespace Statechart.Value

/-- Whether no two members of a list are the same. -/
def allDistinct : List Value → Bool
  | [] => true
  | v :: vs => vs.all (fun w => !same v w) && allDistinct vs

mutual

/-- Whether no table has a key twice and no set an element twice. -/
def wellFormed : Value → Bool
  | .list _ xs => allWellFormed xs
  | .tuple xs => allWellFormed xs
  | .set _ xs => allDistinct xs && allWellFormed xs
  | .frozenSet xs => allDistinct xs && allWellFormed xs
  | .dict _ es => allDistinct (es.map Prod.fst) && entriesWellFormed es
  | .view es => allDistinct (es.map Prod.fst) && entriesWellFormed es
  | .record _ fields => fieldsWellFormed fields
  | .named name params => wellFormed name && wellFormed params
  | .embedded factory name => wellFormed factory && wellFormed name
  | .result u o => wellFormed u && wellFormed o
  | .state value configuration actions _ =>
      wellFormed value && wellFormed configuration && wellFormed actions
  | .object _ _ own shared => fieldsWellFormed own && fieldsWellFormed shared
  | .callable _ _ _ captured => allWellFormed captured
  | _ => true

/-- Whether all values of a list are well-formed. -/
def allWellFormed : List Value → Bool
  | [] => true
  | x :: xs => wellFormed x && allWellFormed xs

/-- Whether all keys and values of entries are well-formed. -/
def entriesWellFormed : List (Value × Value) → Bool
  | [] => true
  | (k, v) :: es => wellFormed k && wellFormed v && entriesWellFormed es

/-- Whether all fields are well-formed. -/
def fieldsWellFormed : List (String × Value) → Bool
  | [] => true
  | (_, v) :: fs => wellFormed v && fieldsWellFormed fs

end

theorem all_well_formed_iff {xs : List Value} :
    allWellFormed xs = true ↔ ∀ x ∈ xs, x.wellFormed = true := by
  induction xs with
  | nil => simp [allWellFormed]
  | cons x xs ih => simp [allWellFormed, ih]

theorem entries_well_formed_iff {es : List (Value × Value)} : entriesWellFormed es = true ↔
    ∀ e ∈ es, e.1.wellFormed = true ∧ e.2.wellFormed = true := by
  induction es with
  | nil => simp [entriesWellFormed]
  | cons e es ih => simp [entriesWellFormed, ih]

theorem fields_well_formed_iff {fs : List (String × Value)} :
    fieldsWellFormed fs = true ↔ ∀ f ∈ fs, f.2.wellFormed = true := by
  induction fs with
  | nil => simp [fieldsWellFormed]
  | cons f fs ih => simp [fieldsWellFormed, ih]

/-- Texts are the same when they are equal. -/
@[simp] theorem same_text (s t : String) : same (.text s) (.text t) = (s == t) := by
  simp [same]

/-- Only a text is the same as a text. -/
theorem text_of_same {s : String} {v : Value} (h : same (.text s) v = true) : v = .text s := by
  cases v <;> simp_all [same, place?]

/-- Only a text is the same as a text, seen from the other side. -/
theorem text_of_same_text {s : String} {v : Value} (h : same v (.text s) = true) :
    v = .text s := by
  cases v with
  | text t => simpa using h
  | float x =>
      obtain ⟨hsome, hnone⟩ : x.place.isSome = true ∧ x.place = none := by
        simpa [same, place?] using h
      simp [hnone] at hsome
  | _ => simp [same, place?] at h

/-- Different texts as keys stand for different strings. -/
theorem nodup_of_all_distinct {ss : List String} (h : allDistinct (ss.map .text) = true) :
    ss.Nodup := by
  induction ss with
  | nil => simp
  | cons s ss ih =>
      simp only [List.map_cons, allDistinct, Bool.and_eq_true, List.all_eq_true, List.mem_map,
        Bool.not_eq_true', forall_exists_index, and_imp, forall_apply_eq_imp_iff₂, same_text] at h
      exact List.nodup_cons.mpr ⟨fun hs => by simpa using h.1 s hs, ih h.2⟩

/-- Only a text has a text. -/
theorem eq_text_of_text {v : Value} {s : String} (h : v.text? = some s) : v = .text s := by
  cases v with
  | text t => exact congrArg text (Option.some.inj h)
  | _ => cases h

/-- What is the same as a text is that text. -/
theorem same_text_eq (v : Value) (s : String) : same v (.text s) = decide (v.text? = some s) := by
  rw [Bool.eq_iff_iff, decide_eq_true_eq]
  refine ⟨fun h => ?_, fun h => ?_⟩
  · rw [text_of_same_text h, text?]
  · rw [eq_text_of_text h, same_text, beq_self_eq_true]

/-- A text leads to the first entry that stands under it. -/
theorem get_text_cons (k v : Value) (es : Table) (s : String) :
    Table.getText? ((k, v) :: es) s = if k.text? = some s then some v else Table.getText? es s := by
  by_cases hk : k.text? = some s
  · simp [Table.getText?, Table.get?, same_text_eq, hk]
  · simp [Table.getText?, Table.get?, same_text_eq, hk]

end Statechart.Value
