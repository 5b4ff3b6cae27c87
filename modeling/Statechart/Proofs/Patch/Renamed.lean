import Statechart.Patch.Operation
import Statechart.Proofs.Outcome
import Statechart.Proofs.Value.Renamed

/-!
# Patches of documents with other marks

Where a pointer leads, what an operation does there and whether it fails depend on no marks, as long
as different marks stay different. Read `change_rename` first: with other marks in a document, an
edit at a pointer has the result of the edit with these marks. So have a move and a test.
-/

namespace Statechart

variable {σ : Identity → Identity}

/-! ## Tables -/

namespace Value

@[simp] theorem text_rename (σ : Identity → Identity) (v : Value) :
    (v.rename σ).text? = v.text? := by
  rw [rename_eq]
  cases v <;> rfl

/-- The entries of a table under other marks. -/
def renameEntries (σ : Identity → Identity) (es : Table) : Table :=
  es.map fun e => (e.1.rename σ, e.2.rename σ)

@[simp] theorem entries_rename (σ : Identity → Identity) (v : Value) :
    (v.rename σ).entries? = v.entries?.map (renameEntries σ) := by
  rw [rename_eq]
  cases v <;> simp [rebuild, entries?, contents, renameEntries, pairs_map, pairs_flat]

@[simp] theorem is_mapping_rename (σ : Identity → Identity) (v : Value) :
    (v.rename σ).isMapping = v.isMapping := by
  simp [isMapping]

@[simp] theorem container_mark_rename (σ : Identity → Identity) (v : Value) :
    (v.rename σ).containerMark = v.containerMark.map σ := by
  rw [rename_eq]
  cases v <;> rfl

theorem rename_text (σ : Identity → Identity) (s : String) : (text s).rename σ = .text s :=
  rename_eq σ _

theorem rename_int (σ : Identity → Identity) (n : Int) : (int n).rename σ = .int n :=
  rename_eq σ _

theorem mem_contents_of_entries {v : Value} {es : Table} {e : Value × Value}
    (hes : v.entries? = some es) (he : e ∈ es) : e.1 ∈ v.contents ∧ e.2 ∈ v.contents := by
  have hflat : ∀ x ∈ [e.1, e.2], x ∈ es.flatMap fun e => [e.1, e.2] :=
    fun x hx => List.mem_flatMap.mpr ⟨e, he, hx⟩
  cases v with
  | dict m ds =>
      obtain rfl := Option.some.inj hes
      exact ⟨hflat _ (by simp), hflat _ (by simp)⟩
  | view ds =>
      obtain rfl := Option.some.inj hes
      exact ⟨hflat _ (by simp), hflat _ (by simp)⟩
  | _ => cases hes

theorem mem_contents_of_get_text {v w : Value} {es : Table} {name : String}
    (hes : v.entries? = some es) (hget : Table.getText? es name = some w) : w ∈ v.contents := by
  obtain ⟨e, he, rfl⟩ := Option.map_eq_some_iff.mp hget
  exact (mem_contents_of_entries hes (List.mem_of_find?_eq_some he)).2

theorem same_text_rename (σ : Identity → Identity) (k : Value) (s : String) :
    same (k.rename σ) (.text s) = same k (.text s) := by
  rw [same_text_eq, same_text_eq, text_rename]

theorem list_rename (σ : Identity → Identity) (m : Mark) (xs : List Value) :
    (list m xs).rename σ = .list (m.map σ) (xs.map (rename σ)) :=
  rename_eq σ _

theorem dict_rename (σ : Identity → Identity) (m : Mark) (es : Table) :
    (dict m es).rename σ = .dict (m.map σ) (renameEntries σ es) := by
  rw [rename_eq, rebuild, contents, pairs_map, pairs_flat]
  rfl

theorem view_rename (σ : Identity → Identity) (es : Table) :
    (view es).rename σ = .view (renameEntries σ es) := by
  rw [rename_eq, rebuild, contents, pairs_map, pairs_flat]
  rfl

/-- Putting an edited container in its place, before or after other marks are given. -/
theorem put_rename (hσ : Function.Injective σ) (i : Identity) (w v : Value) :
    put (σ i) (w.rename σ) (v.rename σ) = (put i w v).rename σ := by
  induction v using contents_induction with
  | step v ih =>
      rw [put_eq, put_eq i w v, container_mark_rename]
      by_cases hi : v.containerMark = some i
      · rw [if_pos (by simp [hi]), if_pos hi]
      · have hne : ¬ v.containerMark.map σ = some (σ i) := by
          intro h
          obtain ⟨j, hj, heq⟩ := Option.map_eq_some_iff.mp h
          exact hi (hσ heq ▸ hj)
        rw [if_neg hne, if_neg hi, rebuild_rename, rename_rebuild σ (by simp), own_mark_rename,
          contents_rename, List.map_map, List.map_map]
        exact congrArg _ (List.map_congr_left ih)

/-- A container stands where it stands with other marks. -/
theorem holds_rename (hσ : Function.Injective σ) (i : Identity) (v : Value) :
    (v.rename σ).holds (σ i) = v.holds i := by
  induction v using contents_induction with
  | step v ih =>
      have hmark : (v.containerMark.map σ == some (σ i)) = (v.containerMark == some i) := by
        rw [Bool.eq_iff_iff]
        simp [hσ.eq_iff]
      have hcontents : v.contents.any (holds (σ i) ∘ rename σ) = v.contents.any (holds i) := by
        rw [Bool.eq_iff_iff, List.any_eq_true, List.any_eq_true]
        exact exists_congr fun w => and_congr_right fun hw => by rw [Function.comp_apply, ih w hw]
      rw [holds_eq, holds_eq i v, container_mark_rename, contents_rename, List.any_map, hmark,
        hcontents]

theorem edited_rename (hσ : Function.Injective σ) (whole container changed : Value) :
    (whole.rename σ).edited (container.rename σ) (changed.rename σ) =
      (whole.edited container changed).rename σ := by
  rw [edited, edited, container_mark_rename]
  cases container.containerMark with
  | none => rfl
  | some i => exact put_rename hσ i changed whole

end Value

namespace Table

open Value

theorem get_text_rename (σ : Identity → Identity) (es : Table) (s : String) :
    Table.getText? (renameEntries σ es) s = (Table.getText? es s).map (rename σ) := by
  induction es with
  | nil => rfl
  | cons e es ih =>
      rcases e with ⟨k, v⟩
      show Table.getText? ((k.rename σ, v.rename σ) :: renameEntries σ es) s = _
      rw [get_text_cons, get_text_cons, text_rename, ih]
      split <;> rfl

theorem contains_text_rename (σ : Identity → Identity) (es : Table) (s : String) :
    Table.contains (renameEntries σ es) (.text s) = Table.contains es (.text s) := by
  have h := get_text_rename σ es s
  rw [getText?, getText?] at h
  rw [Table.contains, Table.contains, h, Option.isSome_map]

theorem insert_text_rename (σ : Identity → Identity) (es : Table) (s : String) (v : Value) :
    Table.insert (renameEntries σ es) (.text s) (v.rename σ) =
      renameEntries σ (Table.insert es (.text s) v) := by
  induction es with
  | nil => simp [renameEntries, Table.insert, rename_text]
  | cons e es ih =>
      rcases e with ⟨k, w⟩
      show Table.insert ((k.rename σ, w.rename σ) :: renameEntries σ es) _ _ = _
      rw [Table.insert, Table.insert, same_text_rename, ih]
      split <;> rfl

theorem erase_text_rename (σ : Identity → Identity) (es : Table) (s : String) :
    Table.erase (renameEntries σ es) (.text s) = renameEntries σ (Table.erase es (.text s)) := by
  induction es with
  | nil => rfl
  | cons e es ih =>
      rcases e with ⟨k, w⟩
      show Table.erase ((k.rename σ, w.rename σ) :: renameEntries σ es) _ = _
      rw [Table.erase, Table.erase, same_text_rename, ih]
      split <;> rfl

end Table

/-! ## Pointers -/

namespace Patch

open Value

variable {v doc container : Value} {s : Step}

theorem sequence_rename (σ : Identity → Identity) (v : Value) :
    sequence? (v.rename σ) = (sequence? v).map (List.map (rename σ)) := by
  rw [rename_eq]
  cases v <;> rfl

theorem members_rename (σ : Identity → Identity) (v : Value) :
    members? (v.rename σ) = (members? v).map (List.map (rename σ)) := by
  rw [rename_eq]
  cases v with
  | bytes bs => simp [members?, rebuild, rename_int]
  | _ => rfl

theorem step_rename (σ : Identity → Identity) (doc : Value) (part : String) :
    step (doc.rename σ) part = step doc part := by
  rw [step, step, is_mapping_rename, members_rename]
  cases members? doc <;> rfl

theorem at_rename (σ : Identity → Identity) (doc : Value) (s : Step) :
    at? (doc.rename σ) s = (at? doc s).map (rename σ) := by
  cases s with
  | member name =>
      rw [at?, at?, entries_rename]
      cases doc.entries? with
      | none => rfl
      | some es => exact Table.get_text_rename σ es name
  | position n =>
      rw [at?, at?, members_rename]
      cases members? doc with
      | none => rfl
      | some xs => simp
  | pastEnd => rfl

/-- A pointer ends in the container that it ends in with other marks. -/
theorem last_rename (σ : Identity → Identity) (doc : Value) (part : String) (rest : Pointer) :
    last (doc.rename σ) part rest =
      (last doc part rest).map fun r => (r.1.rename σ, r.2) := by
  induction rest generalizing doc part with
  | nil =>
      rw [last, last, step_rename]
      cases step doc part <;> rfl
  | cons next rest ih =>
      rw [last, last, step_rename]
      cases hstep : step doc part with
      | error e => rfl
      | ok s =>
          rw [ok_bind, ok_bind, at_rename]
          cases at? doc s with
          | none => rfl
          | some v => exact ih v next

/-! ## Edits at a pointer -/

/-- An edit of a container at a step that does not depend on marks. -/
def Renames (σ : Identity → Identity) (f f' : Value → Step → Except PatchFault Value) : Prop :=
  ∀ doc s, f' (doc.rename σ) s = (f doc s).map (rename σ)

theorem renames_insert_at (σ : Identity → Identity) (v : Value) :
    Renames σ (insertAt v) (insertAt (v.rename σ)) := by
  intro doc s
  generalize hv : v.rename σ = v'
  cases s with
  | member name =>
      cases doc with
      | dict m es => simp [← hv, insertAt, dict_rename, Table.insert_text_rename, Except.map]
      | _ => rw [rename_eq]; rfl
  | position n =>
      cases doc with
      | list m xs =>
          simp only [insertAt, list_rename, List.length_map, ← hv]
          split
          · simp [list_rename, Except.map]
          · rfl
      | _ => rw [rename_eq]; rfl
  | pastEnd =>
      cases doc with
      | list m xs => simp [← hv, insertAt, list_rename, Except.map]
      | _ => rw [rename_eq]; rfl

theorem renames_remove_at (σ : Identity → Identity) : Renames σ removeAt removeAt := by
  intro doc s
  cases s with
  | member name =>
      cases doc with
      | dict m es =>
          simp only [removeAt, dict_rename, Table.contains_text_rename, Table.erase_text_rename]
          split
          · simp [dict_rename, Except.map]
          · rfl
      | _ => rw [rename_eq]; rfl
  | position n =>
      cases doc with
      | list m xs =>
          simp only [removeAt, list_rename, List.length_map]
          split
          · simp [list_rename, Except.map, List.eraseIdx_map]
          · rfl
      | _ => rw [rename_eq]; rfl
  | pastEnd => rw [rename_eq]; cases doc <;> rfl

theorem renames_replace_at (σ : Identity → Identity) (v : Value) :
    Renames σ (replaceAt v) (replaceAt (v.rename σ)) := by
  intro doc s
  generalize hv : v.rename σ = v'
  cases s with
  | member name =>
      cases doc with
      | dict m es =>
          simp only [replaceAt, dict_rename, Table.contains_text_rename, Table.insert_text_rename,
            ← hv]
          split
          · simp [dict_rename, Except.map]
          · rfl
      | _ => rw [rename_eq]; rfl
  | position n =>
      cases doc with
      | list m xs =>
          simp only [replaceAt, list_rename, List.length_map, ← hv]
          split
          · simp [list_rename, Except.map]
          · rfl
      | _ => rw [rename_eq]; rfl
  | pastEnd =>
      rw [rename_eq]
      cases doc <;> rfl

/-- An edit at a pointer gives other marks what it gives with these. -/
theorem change_rename (hσ : Function.Injective σ) {f f' : Value → Step → Except PatchFault Value}
    (hf : Renames σ f f') (doc : Value) (part : String) (rest : Pointer) :
    change f' (doc.rename σ) part rest = (change f doc part rest).map (rename σ) := by
  rw [change, change, last_rename]
  cases last doc part rest with
  | error e => rfl
  | ok r =>
      rcases r with ⟨container, s⟩
      simp only [Except.map, ok_bind, hf container s]
      cases f container s with
      | error e => rfl
      | ok w =>
          show Except.ok _ = Except.ok _
          rw [edited_rename hσ]

theorem add_at_rename (hσ : Function.Injective σ) (v doc : Value) (path : Pointer) :
    addAt (v.rename σ) (doc.rename σ) path = (addAt v doc path).map (rename σ) := by
  cases path with
  | nil => rfl
  | cons part rest => exact change_rename hσ (renames_insert_at σ v) doc part rest

theorem remove_from_rename (hσ : Function.Injective σ) (doc : Value) (path : Pointer) :
    removeFrom (doc.rename σ) path = (removeFrom doc path).map (rename σ) := by
  cases path with
  | nil => rfl
  | cons part rest => exact change_rename hσ (renames_remove_at σ) doc part rest

/-- What stands at a step of a container, or what is said of a step that leads nowhere. -/
def reached {α : Type} (found : Value → α) (missing : Step → Except PatchFault α)
    (r : Value × Step) : Except PatchFault α :=
  match at? r.1 r.2 with
  | some v => .ok (found v)
  | none => missing r.2

/-- How taking a value fails at a step that leads nowhere. -/
def notTaken : Step → Except PatchFault Value
  | .pastEnd => .error .pointer
  | _ => .error .notFound

/-- What a test finds at a step that leads nowhere. -/
def notTested : Step → Except PatchFault (Option Value)
  | .pastEnd => .ok none
  | _ => .error .pointer

theorem taken_cons (doc : Value) (part : String) (rest : Pointer) :
    taken doc (part :: rest) = last doc part rest >>= reached id notTaken := by
  rw [taken]
  congr 1
  funext ⟨container, s⟩
  cases s <;> rfl

theorem tested_cons (doc : Value) (part : String) (rest : Pointer) :
    tested doc (part :: rest) = last doc part rest >>= reached some notTested := by
  rw [tested]
  congr 1
  funext ⟨container, s⟩
  cases s <;> rfl

theorem reached_rename {α : Type} (found : Value → α) {missing : Step → Except PatchFault α}
    {f : α → α} (hfound : ∀ v, found (v.rename σ) = f (found v))
    (hmissing : ∀ s, missing s = (missing s).map f) (container : Value) (s : Step) :
    reached found missing (container.rename σ, s) =
      (reached found missing (container, s)).map f := by
  rw [reached, reached, at_rename]
  cases at? container s with
  | none => exact hmissing s
  | some v => exact congrArg Except.ok (hfound v)

theorem taken_rename (σ : Identity → Identity) (doc : Value) (path : Pointer) :
    taken (doc.rename σ) path = (taken doc path).map (rename σ) := by
  cases path with
  | nil => rfl
  | cons part rest =>
      have hmissing : ∀ s, notTaken s = (notTaken s).map (rename σ) := fun s => by cases s <;> rfl
      rw [taken_cons, taken_cons, last_rename]
      cases last doc part rest with
      | error e => rfl
      | ok r => exact reached_rename id (fun _ => rfl) hmissing r.1 r.2

theorem tested_rename (σ : Identity → Identity) (doc : Value) (path : Pointer) :
    tested (doc.rename σ) path = (tested doc path).map (Option.map (rename σ)) := by
  cases path with
  | nil => rfl
  | cons part rest =>
      have hmissing : ∀ s, notTested s = (notTested s).map (Option.map (rename σ)) := fun s => by
        cases s <;> rfl
      rw [tested_cons, tested_cons, last_rename]
      cases last doc part rest with
      | error e => rfl
      | ok r => exact reached_rename some (fun _ => rfl) hmissing r.1 r.2

theorem is_inside_rename (hσ : Function.Injective σ) (v doc : Value) (path : Pointer) :
    isInside (v.rename σ) (doc.rename σ) path = isInside v doc path := by
  cases path with
  | nil => rfl
  | cons part rest =>
      rw [isInside, isInside, last_rename]
      cases last doc part rest with
      | error e => rfl
      | ok r =>
          rcases r with ⟨container, s⟩
          simp only [Except.map, ok_bind, container_mark_rename]
          cases container.containerMark with
          | none => rfl
          | some i => exact congrArg Except.ok (holds_rename hσ i v)

theorem move_value_rename (hσ : Function.Injective σ) (doc : Value) (source path : Pointer) :
    moveValue (doc.rename σ) source path = (moveValue doc source path).map (rename σ) := by
  rw [moveValue, moveValue]
  by_cases habove : source.isAbove path
  · rw [if_pos habove, if_pos habove]
    rfl
  · rw [if_neg habove, if_neg habove, taken_rename]
    cases taken doc source with
    | error e => rfl
    | ok v =>
        by_cases hsame : source = path
        · simp only [Except.map, ok_bind, if_pos hsame, pure_eq_ok]
        · simp only [Except.map, ok_bind, if_neg hsame, remove_from_rename hσ]
          cases removeFrom doc source with
          | error e => rfl
          | ok rest =>
              simp only [Except.map, ok_bind, add_at_rename hσ]
              cases addAt v rest path with
              | error e => rfl
              | ok moved =>
                  simp only [ok_bind, is_inside_rename hσ]
                  rcases isInside v rest path with e | (_ | _) <;> rfl

/-! ## Tests -/

theorem is_nan_rename (σ : Identity → Identity) (v : Value) : (v.rename σ).isNan = v.isNan := by
  rw [rename_eq]
  cases v <;> rfl

theorem same_rename_both (hσ : Function.Injective σ) (v w : Value) :
    same (v.rename σ) (w.rename σ) = same v w :=
  same_rename fun _ _ _ _ => hσ.eq_iff

theorem eq_rename_both (hσ : Function.Injective σ) (v w : Value) :
    (v.rename σ).eq (w.rename σ) = v.eq w := by
  rw [Bool.eq_iff_iff, eq_iff_same, eq_iff_same, same_rename_both hσ, is_nan_rename]

theorem equal_list_rename {xs ys : List Value}
    (h : ∀ x ∈ xs, ∀ y, equal (x.rename σ) (y.rename σ) = equal x y) :
    equalList (xs.map (rename σ)) (ys.map (rename σ)) = equalList xs ys := by
  induction xs generalizing ys with
  | nil => cases ys <;> rfl
  | cons x xs ih =>
      cases ys with
      | nil => simp [equalList]
      | cons y ys =>
          rw [List.map_cons, List.map_cons, equalList, equalList, h x (by simp) y,
            ih fun x hx => h x (by simp [hx])]

theorem equal_entries_rename (hσ : Function.Injective σ) {es ds : Table}
    (h : ∀ e ∈ es, ∀ y, equal (e.2.rename σ) (y.rename σ) = equal e.2 y) :
    equalEntries (renameEntries σ es) (renameEntries σ ds) = equalEntries es ds := by
  induction es with
  | nil => rfl
  | cons e es ih =>
      rcases e with ⟨k, x⟩
      rw [List.forall_mem_cons] at h
      have hfind : (renameEntries σ ds).find? (fun d => (k.rename σ).same d.1) =
          (ds.find? fun d => k.same d.1).map fun d => (d.1.rename σ, d.2.rename σ) := by
        rw [renameEntries, List.find?_map]
        exact congrArg _ (find_congr fun d _ => same_rename_both hσ k d.1)
      show equalEntries ((k.rename σ, x.rename σ) :: renameEntries σ es) _ = _
      rw [equalEntries, equalEntries, hfind, ih h.2]
      cases ds.find? fun d => k.same d.1 with
      | none => rfl
      | some d => simp only [Option.map_some, h.1 d.2]

/-- Whether a test compares a value as a whole, not member by member. -/
def isWhole : Value → Bool
  | .bool _ => false
  | .list .. => false
  | .tuple _ => false
  | .result .. => false
  | .dict .. => false
  | .view _ => false
  | _ => true

/-- Whether a value is a truth value. -/
def isTruth : Value → Bool
  | .bool _ => true
  | _ => false

theorem equal_of_is_whole {w : Value} (h : isWhole w = true) :
    equal w v = (!isTruth v && w.eq v) := by
  cases w <;> first | (cases v <;> simp [equal, isTruth]; done) | cases h

theorem is_whole_rename (σ : Identity → Identity) (w : Value) :
    isWhole (w.rename σ) = isWhole w := by
  rw [rename_eq]
  cases w <;> rfl

theorem is_truth_rename (σ : Identity → Identity) (w : Value) :
    isTruth (w.rename σ) = isTruth w := by
  rw [rename_eq]
  cases w <;> rfl

/-- A list is equal to the members of a sequence when they are with other marks. -/
theorem any_sequence_rename {xs : List Value}
    (h : ∀ x ∈ xs, ∀ y, equal (x.rename σ) (y.rename σ) = equal x y) (v : Value) :
    ((sequence? (v.rename σ)).any fun ys => equalList (xs.map (rename σ)) ys) =
      (sequence? v).any fun ys => equalList xs ys := by
  rw [sequence_rename]
  cases sequence? v with
  | none => rfl
  | some ys => exact equal_list_rename h

/-- Entries are equal to those of a table when they are with other marks. -/
theorem any_entries_rename (hσ : Function.Injective σ) {es : Table}
    (h : ∀ e ∈ es, ∀ y, equal (e.2.rename σ) (y.rename σ) = equal e.2 y) (v : Value) :
    ((v.rename σ).entries?.any fun ds => (renameEntries σ es).length == ds.length &&
        equalEntries (renameEntries σ es) ds) =
      v.entries?.any fun ds => es.length == ds.length && equalEntries es ds := by
  rw [entries_rename]
  cases v.entries? with
  | none => rfl
  | some ds =>
      simp only [Option.map_some, Option.any_some, equal_entries_rename hσ h]
      simp only [renameEntries, List.length_map]

/-- Documents are equal when they are with other marks. -/
theorem equal_rename (hσ : Function.Injective σ) (w v : Value) :
    equal (w.rename σ) (v.rename σ) = equal w v := by
  induction w using contents_induction generalizing v with
  | step w ih =>
      cases w with
      | list m xs =>
          rw [list_rename, equal, equal]
          exact any_sequence_rename ih v
      | tuple xs =>
          rw [rename_eq, rebuild, equal, equal]
          exact any_sequence_rename ih v
      | dict m es =>
          rw [dict_rename, equal, equal]
          exact any_entries_rename hσ
            (fun e he => ih e.2 (mem_contents_of_entries (v := .dict m es) rfl he).2) v
      | view es =>
          rw [view_rename, equal, equal]
          exact any_entries_rename hσ
            (fun e he => ih e.2 (mem_contents_of_entries (v := .view es) rfl he).2) v
      | result u o =>
          rw [rename_eq σ, rebuild, contents, equal, equal, sequence_rename]
          rcases sequence? v with _ | _ | ⟨x, _ | ⟨y, _ | ⟨z, zs⟩⟩⟩
          · rfl
          · rfl
          · rfl
          · show (equal (u.rename σ) (x.rename σ) && equal (o.rename σ) (y.rename σ)) =
              (equal u x && equal o y)
            rw [ih u (by simp [contents]), ih o (by simp [contents])]
          · rfl
      | bool b =>
          rw [rename_eq, rename_eq]
          cases v <;> rfl
      | _ =>
          rw [equal_of_is_whole (by rw [is_whole_rename]; rfl), equal_of_is_whole rfl,
            eq_rename_both hσ, is_truth_rename]

/-! ## Operations -/

/-- An operation with other marks in what it was given. -/
def Operation.rename (σ : Identity → Identity) (o : Operation) : Operation :=
  { o with fields := renameEntries σ o.fields }

/-- The text that stands under a name. -/
def textAt? (fields : Table) (name : String) : Option String :=
  (Table.getText? fields name).bind text?

theorem text_at_rename (σ : Identity → Identity) (fields : Table) (name : String) :
    textAt? (renameEntries σ fields) name = textAt? fields name := by
  rw [textAt?, textAt?, Table.get_text_rename]
  cases Table.getText? fields name with
  | none => rfl
  | some v => exact text_rename σ v

/-- An operation is read from its fields, of which the `op` and the `path` are texts. -/
theorem read_of_entries {raw : Value} {fields : Table} (hfields : raw.entries? = some fields) :
    Operation.read raw =
      match textAt? fields "op", textAt? fields "path" with
      | some op, some path =>
          match Verb.ofName? op with
          | none => .error .invalid
          | some verb => do return ⟨verb, ← Pointer.read path, fields⟩
      | _, _ => .error .invalid := by
  rw [Operation.read, hfields, textAt?, textAt?]
  dsimp only
  cases Table.getText? fields "op" with
  | none => rfl
  | some op =>
      cases op with
      | text op =>
          cases Table.getText? fields "path" with
          | none => rfl
          | some path => cases path <;> rfl
      | _ =>
          cases Table.getText? fields "path" with
          | none => rfl
          | some path => cases path <;> rfl

/-- What is read from a table with other marks. -/
theorem read_rename (σ : Identity → Identity) (raw : Value) :
    Operation.read (raw.rename σ) = (Operation.read raw).map (Operation.rename σ) := by
  cases hfields : raw.entries? with
  | none =>
      rw [Operation.read, Operation.read, entries_rename, hfields]
      rfl
  | some fields =>
      have hrenamed : (raw.rename σ).entries? = some (renameEntries σ fields) := by
        rw [entries_rename, hfields]
        rfl
      rw [read_of_entries hfields, read_of_entries hrenamed, text_at_rename, text_at_rename]
      cases textAt? fields "op" with
      | none => rfl
      | some op =>
          cases textAt? fields "path" with
          | none => rfl
          | some path =>
              cases hverb : Verb.ofName? op with
              | none => simp only [hverb]; rfl
              | some verb =>
                  simp only [hverb]
                  cases Pointer.read path <;> rfl

variable {o : Operation}

theorem value_rename (σ : Identity → Identity) (o : Operation) :
    (o.rename σ).value = o.value.map (Value.rename σ) := by
  rw [Operation.value, Operation.value, Operation.rename, Table.get_text_rename]
  cases Table.getText? o.fields "value" <;> rfl

theorem source_rename (σ : Identity → Identity) (o : Operation) :
    (o.rename σ).source = o.source := by
  have hsource : ∀ o : Operation, o.source =
      (textAt? o.fields "from").elim (.error .invalid) Pointer.read := by
    intro o
    rw [Operation.source, textAt?]
    cases Table.getText? o.fields "from" with
    | none => rfl
    | some v => cases v <;> rfl
  rw [hsource, hsource, Operation.rename, text_at_rename]

theorem test_value_rename (hσ : Function.Injective σ) (o : Operation) (doc : Value) :
    testValue (o.rename σ) (doc.rename σ) = (testValue o doc).map (Value.rename σ) := by
  have hpath : (o.rename σ).path = o.path := rfl
  rw [testValue, testValue, hpath, tested_rename, value_rename]
  cases tested doc o.path with
  | error e => rfl
  | ok found =>
      cases o.value with
      | error e => rfl
      | ok v =>
          cases found with
          | none => rfl
          | some w =>
              simp only [Except.map, Except.mapError, ok_bind, Option.map_some, equal_rename hσ]
              split <;> rfl

end Patch

end Statechart
