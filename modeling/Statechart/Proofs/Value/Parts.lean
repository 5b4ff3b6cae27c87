import Statechart.Proofs.Entries
import Statechart.Proofs.Value.Copy

/-!
# The values inside a value

`parts` lists the values that the canonical form of a value is made of, and `members` all that stand
in it. What is done to a value depends on its `Shape`: lists, tuples and results are a `Sequence`,
sets of both kinds a `Gathering`, and all that has fields is `Filed`.
-/

namespace Statechart.Value

/-- The values whose canonical forms the canonical form of a value is made of. -/
def parts : Value → List Value
  | .list _ xs => xs
  | .tuple xs => xs
  | .set _ xs => xs
  | .frozenSet xs => xs
  | .dict _ es => es.map Prod.snd
  | .record _ fields => fields.map Prod.snd
  | .named name params => [name, params]
  | .embedded factory name => [factory, name]
  | .result u o => [u, o]
  | .state value configuration actions changed => [value, configuration, actions, .bool changed]
  | _ => []

/-- The values that stand directly in a value, keys and views apart. -/
def members : Value → List Value
  | .object _ _ own shared => own.map Prod.snd ++ shared.map Prod.snd
  | .callable _ _ _ captured => captured
  | v => v.parts

theorem parts_subset_members {v w : Value} (h : w ∈ v.parts) : w ∈ v.members := by
  cases v with
  | object => cases h
  | callable => cases h
  | _ => exact h

theorem size_of_lt_of_mem_values {α : Type} [SizeOf α] {es : List (α × Value)} {w : Value}
    (h : w ∈ es.map Prod.snd) : sizeOf w < sizeOf es := by
  obtain ⟨⟨k, v⟩, he, rfl⟩ := List.mem_map.mp h
  have hentry : sizeOf (k, v) < sizeOf es := List.sizeOf_lt_of_mem he
  rw [Prod.mk.sizeOf_spec] at hentry
  show sizeOf v < sizeOf es
  omega

theorem size_pos (v : Value) : 0 < sizeOf v := by
  cases v <;> simp

theorem size_of_lt_of_mem_members {v w : Value} (h : w ∈ v.members) : sizeOf w < sizeOf v := by
  have hlist : ∀ {xs : List Value}, w ∈ xs → sizeOf w < sizeOf xs := List.sizeOf_lt_of_mem
  have hfields : ∀ {fs : List (String × Value)}, w ∈ fs.map Prod.snd → sizeOf w < sizeOf fs :=
    size_of_lt_of_mem_values
  cases v with
  | list m xs => exact (hlist h : _ < sizeOf xs).trans_le (by simp)
  | tuple xs => exact (hlist h : _ < sizeOf xs).trans_le (by simp)
  | set m xs => exact (hlist h : _ < sizeOf xs).trans_le (by simp)
  | frozenSet xs => exact (hlist h : _ < sizeOf xs).trans_le (by simp)
  | dict m es => exact (size_of_lt_of_mem_values h).trans_le (by simp)
  | record name fields => exact (hfields h : _ < sizeOf fields).trans_le (by simp)
  | object m kind own shared =>
      rcases List.mem_append.mp h with h | h
      · exact (hfields h).trans_le (by simp only [object.sizeOf_spec]; omega)
      · exact (hfields h).trans_le (by simp only [object.sizeOf_spec]; omega)
  | callable m name code captured => exact (hlist h : _ < sizeOf captured).trans_le (by simp)
  | named name params =>
      rcases (by simpa [members, parts] using h : w = name ∨ w = params) with rfl | rfl
      all_goals simp only [named.sizeOf_spec]; omega
  | embedded factory name =>
      rcases (by simpa [members, parts] using h : w = factory ∨ w = name) with rfl | rfl
      all_goals simp only [embedded.sizeOf_spec]; omega
  | result u o =>
      rcases (by simpa [members, parts] using h : w = u ∨ w = o) with rfl | rfl
      all_goals simp only [result.sizeOf_spec]; omega
  | state value configuration actions changed =>
      have hpos := size_pos value
      rcases (by simpa [members, parts] using h :
        w = value ∨ w = configuration ∨ w = actions ∨ w = .bool changed) with rfl | rfl | rfl | rfl
      all_goals simp only [state.sizeOf_spec, bool.sizeOf_spec]; omega
  | _ => cases h

/-- What holds of a value whenever it holds of the values that stand in it holds of all values. -/
@[elab_as_elim]
theorem members_induction {motive : Value → Prop} (v : Value)
    (step : ∀ v : Value, (∀ w ∈ v.members, motive w) → motive v) : motive v :=
  step v fun w _ => members_induction w step
termination_by sizeOf v
decreasing_by exact size_of_lt_of_mem_members ‹_›

/-! ## What a value is made of -/

/-- A list, a tuple or a result with the given items. -/
inductive Sequence : Value → List Value → Prop where
  | list (m : Mark) (xs : List Value) : Sequence (.list m xs) xs
  | tuple (xs : List Value) : Sequence (.tuple xs) xs
  | result (u o : Value) : Sequence (.result u o) [u, o]

/-- A set or a frozen set with the given elements, in the order in which it is gone through. -/
inductive Gathering : Value → List Value → Prop where
  | set (m : Mark) (xs : List Value) : Gathering (.set m xs) xs
  | frozenSet (xs : List Value) : Gathering (.frozenSet xs) xs

/-- A record, a descriptor or a control state with the given fields. -/
inductive Filed : Value → List (String × Value) → Prop where
  | record (name : String) (fields : List (String × Value)) : Filed (.record name fields) fields
  | named (name params : Value) : Filed (.named name params) [("name", name), ("params", params)]
  | embedded (factory name : Value) :
      Filed (.embedded factory name) [("factory", factory), ("name", name)]
  | state (value configuration actions : Value) (changed : Bool) :
      Filed (.state value configuration actions changed)
        [("value", value), ("configuration", configuration), ("actions", actions),
          ("changed", .bool changed)]

/-- Whether a value is its own canonical form whatever it holds. -/
def isPlain : Value → Bool
  | .list .. => false
  | .tuple _ => false
  | .set .. => false
  | .frozenSet _ => false
  | .dict .. => false
  | .record .. => false
  | .named .. => false
  | .embedded .. => false
  | .result .. => false
  | .state .. => false
  | _ => true

/-- What a value is, as far as its canonical form goes. -/
inductive Shape : Value → Prop where
  | sequence {v : Value} {xs : List Value} (h : Sequence v xs) : Shape v
  | gathering {v : Value} {xs : List Value} (h : Gathering v xs) : Shape v
  | dict (m : Mark) (es : List (Value × Value)) : Shape (.dict m es)
  | filed {v : Value} {fs : List (String × Value)} (h : Filed v fs) : Shape v
  | plain {v : Value} (h : v.isPlain = true) : Shape v

theorem shape (v : Value) : Shape v := by
  cases v with
  | list m xs => exact .sequence (.list m xs)
  | tuple xs => exact .sequence (.tuple xs)
  | result u o => exact .sequence (.result u o)
  | set m xs => exact .gathering (.set m xs)
  | frozenSet xs => exact .gathering (.frozenSet xs)
  | dict m es => exact .dict m es
  | record name fields => exact .filed (.record name fields)
  | named name params => exact .filed (.named name params)
  | embedded factory name => exact .filed (.embedded factory name)
  | state value configuration actions changed =>
      exact .filed (.state value configuration actions changed)
  | _ => exact .plain rfl

/-! ## What is done to the values inside -/

theorem all_convertible_eq (xs : List Value) : allConvertible xs = xs.all convertible := by
  induction xs with
  | nil => rfl
  | cons x xs ih => simp [allConvertible, ih]

theorem entries_convertible_eq (es : List (Value × Value)) : entriesConvertible es =
    es.all fun e => e.1.copiable && !holdsRecord e.1 && e.2.convertible := by
  induction es with
  | nil => rfl
  | cons e es ih => simp [entriesConvertible, ih]

theorem fields_convertible_eq (fs : List (String × Value)) :
    fieldsConvertible fs = fs.all fun f => f.2.convertible := by
  induction fs with
  | nil => rfl
  | cons f fs ih => simp [fieldsConvertible, ih]

theorem canonical_entries_eq (es : List (Value × Value)) :
    canonicalEntries es = es.map fun e => (e.1.plainText, e.2.canonical) := by
  induction es with
  | nil => rfl
  | cons e es ih => simp [canonicalEntries, ih]

theorem canonical_fields_eq (fs : List (String × Value)) :
    canonicalFields fs = fs.map fun f => (f.1, f.2.canonical) := by
  induction fs with
  | nil => rfl
  | cons f fs ih => simp [canonicalFields, ih]

section Shapes

variable {v : Value} {xs : List Value} {fs : List (String × Value)}

theorem Sequence.parts_eq (h : Sequence v xs) : v.parts = xs := by
  cases h <;> rfl

theorem Sequence.members_eq (h : Sequence v xs) : v.members = xs := by
  cases h <;> rfl

theorem Sequence.copiable_eq (h : Sequence v xs) : v.copiable = xs.all copiable := by
  rw [← all_copiable_eq]
  cases h with
  | result u o => simp [copiable, allCopiable]
  | _ => rfl

theorem Sequence.convertible_eq (h : Sequence v xs) : v.convertible = xs.all convertible := by
  rw [← all_convertible_eq]
  cases h with
  | result u o => simp [convertible, allConvertible]
  | _ => rfl

theorem Sequence.canonical_eq (h : Sequence v xs) :
    v.canonical = canonicalList xs >>= fun cs => .ok (newList cs) := by
  cases h with
  | result u o =>
      rw [canonical, canonicalList, canonicalList, canonicalList]
      cases u.canonical with
      | error e => rfl
      | ok c => cases o.canonical <;> rfl
  | _ => rfl

theorem Gathering.parts_eq (h : Gathering v xs) : v.parts = xs := by
  cases h <;> rfl

theorem Gathering.members_eq (h : Gathering v xs) : v.members = xs := by
  cases h <;> rfl

theorem Gathering.copiable_eq (h : Gathering v xs) : v.copiable = xs.all copiable := by
  rw [← all_copiable_eq]
  cases h <;> rfl

/-- The elements of a set inside a record are copied as they are. -/
theorem Gathering.convertible_eq (h : Gathering v xs) : v.convertible = xs.all copiable := by
  rw [← h.copiable_eq]
  cases h <;> rfl

theorem Gathering.canonical_eq (h : Gathering v xs) :
    v.canonical = canonicalList xs >>= sortedElements := by
  cases h <;> rfl

theorem Filed.parts_eq (h : Filed v fs) : v.parts = fs.map Prod.snd := by
  cases h <;> rfl

theorem Filed.members_eq (h : Filed v fs) : v.members = fs.map Prod.snd := by
  cases h <;> rfl

theorem Filed.copiable_eq (h : Filed v fs) : v.copiable = fs.all fun f => f.2.copiable := by
  rw [← fields_copiable_eq]
  cases h with
  | record => rfl
  | _ => simp [copiable, fieldsCopiable, Bool.and_assoc]

theorem Filed.convertible_eq (h : Filed v fs) :
    v.convertible = fs.all fun f => f.2.convertible := by
  rw [← fields_convertible_eq]
  cases h with
  | record => rfl
  | _ => simp [convertible, fieldsConvertible, copiable, Bool.and_assoc]

/-- A record is turned into a table of its fields, if it can be. -/
theorem Filed.canonical_eq (h : Filed v fs) : v.canonical =
    requireConvertible v.convertible (sortedTable (fs.map fun f => (f.1, f.2.canonical))) := by
  rw [← canonical_fields_eq]
  cases h <;> rfl

theorem canonical_of_plain (h : v.isPlain = true) : v.canonical = .ok v := by
  cases v with
  | list | tuple | set | frozenSet | dict | record | named | embedded | result | state => cases h
  | _ => rfl

theorem parts_of_plain (h : v.isPlain = true) : v.parts = [] := by
  cases v with
  | list | tuple | set | frozenSet | dict | record | named | embedded | result | state => cases h
  | _ => rfl

end Shapes

end Statechart.Value
