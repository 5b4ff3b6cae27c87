import Statechart.Proofs.Value.Parts

/-!
# Values with other marks

A value is its kind with the values inside it, and a mark when it is a container that can change or
an object: `contents` lists the values inside, `rebuild` puts others in their place. Marking,
copying and editing go all the way down, so each of them is described by one equation in these
terms: `remark_eq`, `copy_eq` and `put_eq`. Read these first. `remark` gives other marks to all
containers and objects in a value, `marks` lists the marks that are there.
-/

namespace Statechart.Value

variable {v w : Value} {m n : Mark} {xs ys : List Value} {i : Identity}

/-! ## The values inside a value -/

/-- The values that stand directly in a value, keys as well, in order. What a class or a callable
holds is not among them: it is never copied. -/
def contents : Value → List Value
  | .list _ xs => xs
  | .tuple xs => xs
  | .set _ xs => xs
  | .frozenSet xs => xs
  | .dict _ es => es.flatMap fun e => [e.1, e.2]
  | .view es => es.flatMap fun e => [e.1, e.2]
  | .record _ fields => fields.map Prod.snd
  | .named name params => [name, params]
  | .embedded factory name => [factory, name]
  | .result u o => [u, o]
  | .state value configuration actions _ => [value, configuration, actions]
  | .object _ _ own _ => own.map Prod.snd
  | _ => []

/-- The entries whose keys and values take turns in a list. -/
def pairs : List Value → Table
  | k :: v :: xs => (k, v) :: pairs xs
  | _ => []

/-- The mark of a container that can change or of an object. -/
def ownMark : Value → Mark
  | .list m _ => m
  | .set m _ => m
  | .dict m _ => m
  | .object m .. => m
  | _ => none

/-- A value of the same kind with another mark and other values inside, as many as before. -/
def rebuild (v : Value) (m : Mark) (xs : List Value) : Value :=
  match v with
  | .list _ _ => .list m xs
  | .tuple _ => .tuple xs
  | .set _ _ => .set m xs
  | .frozenSet _ => .frozenSet xs
  | .dict _ _ => .dict m (pairs xs)
  | .view _ => .view (pairs xs)
  | .record name fields => .record name ((fields.map Prod.fst).zip xs)
  | .named _ _ => .named (xs.getD 0 .null) (xs.getD 1 .null)
  | .embedded _ _ => .embedded (xs.getD 0 .null) (xs.getD 1 .null)
  | .result _ _ => .result (xs.getD 0 .null) (xs.getD 1 .null)
  | .state _ _ _ changed =>
      .state (xs.getD 0 .null) (xs.getD 1 .null) (xs.getD 2 .null) changed
  | .object _ kind own shared => .object m kind ((own.map Prod.fst).zip xs) shared
  | v => v

/-- Whether a value is a container that can change or an object. -/
def isThing : Value → Bool
  | .list .. => true
  | .set .. => true
  | .dict .. => true
  | .object .. => true
  | _ => false

theorem pairs_map (f : Value → Value) (xs : List Value) :
    pairs (xs.map f) = (pairs xs).map fun e => (f e.1, f e.2) := by
  induction xs using pairs.induct with
  | case1 k v xs ih => simp [pairs, ih]
  | case2 xs h =>
      rcases xs with _ | ⟨x, _ | ⟨y, xs⟩⟩
      · rfl
      · rfl
      · exact absurd rfl (h x y xs)

theorem pairs_flat (es : Table) : pairs (es.flatMap fun e => [e.1, e.2]) = es := by
  induction es with
  | nil => rfl
  | cons e es ih => simp [pairs, ih]

theorem flat_pairs {es : Table} (hlen : xs.length = (es.flatMap fun e => [e.1, e.2]).length) :
    ((pairs xs).flatMap fun e => [e.1, e.2]) = xs := by
  induction es generalizing xs with
  | nil =>
      obtain rfl : xs = [] := by simpa using hlen
      rfl
  | cons e es ih =>
      rcases xs with _ | ⟨k, _ | ⟨v, xs⟩⟩
      · simp at hlen
      · simp at hlen
      · have hrest : xs.length = (es.flatMap fun e => [e.1, e.2]).length := by simpa using hlen
        simp [pairs, ih hrest]

theorem zip_names {α : Type} (fields : List (String × α)) :
    (fields.map Prod.fst).zip (fields.map Prod.snd) = fields := by
  induction fields with
  | nil => rfl
  | cons f fields ih => simp [ih]

/-- A value is rebuilt from its own parts. -/
theorem rebuild_self (v : Value) : rebuild v v.ownMark v.contents = v := by
  cases v with
  | dict m es => simp [rebuild, ownMark, contents, pairs_flat]
  | view es => simp [rebuild, contents, pairs_flat]
  | record name fields => simp [rebuild, contents, zip_names]
  | object m kind own shared => simp [rebuild, ownMark, contents, zip_names]
  | _ => rfl

/-- A rebuilt value holds what it was rebuilt with. -/
theorem contents_rebuild (hlen : xs.length = v.contents.length) :
    (rebuild v m xs).contents = xs := by
  cases v with
  | dict m es => exact flat_pairs hlen
  | view es => exact flat_pairs hlen
  | record name fields => simp_all [rebuild, contents, List.map_snd_zip]
  | object m kind own shared => simp_all [rebuild, contents, List.map_snd_zip]
  | named name params =>
      obtain ⟨a, b, rfl⟩ := List.length_eq_two.mp hlen
      rfl
  | embedded factory name =>
      obtain ⟨a, b, rfl⟩ := List.length_eq_two.mp hlen
      rfl
  | result u o =>
      obtain ⟨a, b, rfl⟩ := List.length_eq_two.mp hlen
      rfl
  | state value configuration actions changed =>
      obtain ⟨a, b, c, rfl⟩ := List.length_eq_three.mp hlen
      rfl
  | list m xs => rfl
  | tuple xs => rfl
  | set m xs => rfl
  | frozenSet xs => rfl
  | _ => simpa [rebuild, contents, eq_comm] using hlen

/-- Only things have marks. -/
theorem own_mark_rebuild (v : Value) (m : Mark) (xs : List Value) :
    (rebuild v m xs).ownMark = if v.isThing then m else none := by
  cases v <;> rfl

/-- Only things are rebuilt with a mark. -/
theorem rebuild_eq_of_not_thing (h : v.isThing = false) (m n : Mark) (xs : List Value) :
    rebuild v m xs = rebuild v n xs := by
  cases v with
  | list m xs => cases h
  | set m xs => cases h
  | dict m es => cases h
  | object m kind own shared => cases h
  | _ => rfl

/-- What is rebuilt twice is as it was rebuilt last. -/
theorem rebuild_rebuild (hlen : xs.length = v.contents.length) :
    rebuild (rebuild v m xs) n ys = rebuild v n ys := by
  cases v with
  | record name fields =>
      have hnames : (fields.map Prod.fst).length ≤ xs.length := by simp_all [contents]
      simp [rebuild, List.map_fst_zip hnames]
  | object m kind own shared =>
      have hnames : (own.map Prod.fst).length ≤ xs.length := by simp_all [contents]
      simp [rebuild, List.map_fst_zip hnames]
  | _ => rfl

/-- What stands directly in a value is smaller than it. -/
theorem size_of_lt_of_mem_contents (h : w ∈ v.contents) : sizeOf w < sizeOf v := by
  have hentries : ∀ {es : Table}, (w ∈ es.flatMap fun e => [e.1, e.2]) → sizeOf w < sizeOf es := by
    intro es h
    obtain ⟨⟨k, x⟩, he, hw⟩ := List.mem_flatMap.mp h
    have hentry : sizeOf (k, x) < sizeOf es := List.sizeOf_lt_of_mem he
    rw [Prod.mk.sizeOf_spec] at hentry
    rcases (by simpa using hw : w = k ∨ w = x) with rfl | rfl
    all_goals omega
  cases v with
  | dict m es => exact (hentries h).trans_le (by simp)
  | view es => exact (hentries h).trans_le (by simp)
  | callable => cases h
  | object m kind own shared =>
      exact size_of_lt_of_mem_members (List.mem_append_left _ h)
  | state value configuration actions changed =>
      refine size_of_lt_of_mem_members ?_
      exact List.mem_append_left [Value.bool changed] h
  | _ => exact size_of_lt_of_mem_members h

/-- What holds of a value whenever it holds of the values inside it holds of all values. -/
@[elab_as_elim]
theorem contents_induction {motive : Value → Prop} (v : Value)
    (step : ∀ v : Value, (∀ w ∈ v.contents, motive w) → motive v) : motive v :=
  step v fun w _ => contents_induction w step
termination_by sizeOf v
decreasing_by exact size_of_lt_of_mem_contents ‹_›

/-! ## Marks -/

/-- Gives other marks to the containers and objects in a value. -/
def remark (f : Mark → Mark) (v : Value) : Value :=
  rebuild v (f v.ownMark) (v.contents.attach.map fun w => remark f w.1)
termination_by sizeOf v
decreasing_by exact size_of_lt_of_mem_contents w.2

/-- The marks of the containers and objects in a value. -/
def marks (v : Value) : List Identity :=
  v.ownMark.toList ++ v.contents.attach.flatMap fun w => marks w.1
termination_by sizeOf v
decreasing_by exact size_of_lt_of_mem_contents w.2

theorem remark_eq (f : Mark → Mark) (v : Value) :
    v.remark f = rebuild v (f v.ownMark) (v.contents.map (remark f)) := by
  rw [remark]
  simp only [List.map_attach_eq_pmap, List.pmap_eq_map]

theorem marks_eq (v : Value) : v.marks = v.ownMark.toList ++ v.contents.flatMap marks := by
  rw [marks]
  simp

theorem mem_marks : i ∈ v.marks ↔ v.ownMark = some i ∨ ∃ w ∈ v.contents, i ∈ w.marks := by
  simp [marks_eq v]

@[simp] theorem contents_remark (f : Mark → Mark) (v : Value) :
    (v.remark f).contents = v.contents.map (remark f) := by
  rw [remark_eq, contents_rebuild (by simp)]

/-- What is rebuilt from other values is given other marks part by part. -/
theorem remark_rebuild (f : Mark → Mark) (hlen : xs.length = v.contents.length) :
    (rebuild v m xs).remark f = rebuild v (f m) (xs.map (remark f)) := by
  have hmark : ∀ ys, rebuild v (f (rebuild v m xs).ownMark) ys = rebuild v (f m) ys := by
    intro ys
    rw [own_mark_rebuild]
    cases hthing : v.isThing with
    | true => rfl
    | false => exact rebuild_eq_of_not_thing hthing _ _ _
  rw [remark_eq, contents_rebuild hlen, rebuild_rebuild hlen, hmark]

theorem remark_remark (f g : Mark → Mark) (v : Value) :
    (v.remark f).remark g = v.remark fun m => g (f m) := by
  induction v using contents_induction with
  | step v ih =>
      rw [remark_eq f, remark_rebuild g (by simp), remark_eq _ v, List.map_map]
      exact congrArg _ (List.map_congr_left ih)

/-! ## Other marks -/

/-- Gives another mark in place of each. -/
def rename (g : Identity → Identity) (v : Value) : Value :=
  v.remark (Option.map g)

theorem rename_eq (g : Identity → Identity) (v : Value) :
    v.rename g = rebuild v (v.ownMark.map g) (v.contents.map (rename g)) :=
  remark_eq _ v

@[simp] theorem contents_rename (g : Identity → Identity) (v : Value) :
    (v.rename g).contents = v.contents.map (rename g) :=
  contents_remark _ v

@[simp] theorem own_mark_rename (g : Identity → Identity) (v : Value) :
    (v.rename g).ownMark = v.ownMark.map g := by
  rw [rename_eq]
  cases v <;> rfl

/-- What is rebuilt from other values is renamed part by part. -/
theorem rename_rebuild (g : Identity → Identity) (hlen : xs.length = v.contents.length) :
    (rebuild v m xs).rename g = rebuild v (m.map g) (xs.map (rename g)) :=
  remark_rebuild _ hlen

/-- A renamed value is of the same kind. -/
theorem rebuild_rename (g : Identity → Identity) (v : Value) (m : Mark) (xs : List Value) :
    rebuild (v.rename g) m xs = rebuild v m xs := by
  rw [rename_eq, rebuild_rebuild (by simp)]

/-- Marks that do not occur do not count. -/
theorem rename_congr {g g' : Identity → Identity} (h : ∀ i ∈ v.marks, g i = g' i) :
    v.rename g = v.rename g' := by
  induction v using contents_induction with
  | step v ih =>
      have hown : v.ownMark.map g = v.ownMark.map g' :=
        Option.map_congr fun i hi => h i (mem_marks.mpr (.inl hi))
      rw [rename_eq, rename_eq, hown]
      exact congrArg _ (List.map_congr_left fun w hw =>
        ih w hw fun i hi => h i (mem_marks.mpr (.inr ⟨w, hw, hi⟩)))

@[simp] theorem rename_id (v : Value) : v.rename id = v := by
  induction v using contents_induction with
  | step v ih =>
      have hcontents : v.contents.map (rename id) = v.contents :=
        (List.map_congr_left ih).trans (List.map_id _)
      rw [rename_eq, hcontents, Option.map_id, id, rebuild_self]

theorem rename_rename (g g' : Identity → Identity) (v : Value) :
    (v.rename g).rename g' = v.rename (g' ∘ g) := by
  rw [rename, rename, remark_remark]
  exact congrArg (fun f => remark f v) (funext fun m => Option.map_map g' g m)

/-! ## Copies and edits -/

theorem copy_list_eq (xs : List Value) : copyList xs = xs.mapM copy := by
  induction xs with
  | nil => rfl
  | cons x xs ih => simp [copyList, ih]

theorem copy_entries_eq (es : Table) :
    copyEntries es = pairs <$> (es.flatMap fun e => [e.1, e.2]).mapM copy := by
  induction es with
  | nil => rfl
  | cons e es ih => simp [copyEntries, ih, pairs]

theorem copy_fields_eq (fs : List (String × Value)) :
    copyFields fs = (fs.map Prod.fst).zip <$> (fs.map Prod.snd).mapM copy := by
  induction fs with
  | nil => rfl
  | cons f fs ih => simp [copyFields, ih]

/-- Numbers and callables that are told apart from others. -/
def isIdentified : Value → Bool
  | .float x => x.isNamed
  | .callable m .. => m.isSome
  | _ => true

/-- A thing is copied once under a new mark, and any other value by the values inside it. -/
theorem copy_eq (hview : ∀ es, v ≠ .view es) (hid : v.isIdentified = true) :
    v.copy = if v.isThing then
        Copying.once v.ownMark do
          let i ← Copying.take
          let ys ← v.contents.mapM copy
          return rebuild v (some i) ys
      else do
        let ys ← v.contents.mapM copy
        return rebuild v none ys := by
  cases v with
  | list m xs => simp [copy, copy_list_eq, isThing, ownMark, contents, rebuild]
  | tuple xs => simp [copy, copy_list_eq, isThing, contents, rebuild]
  | set m xs => simp [copy, copy_list_eq, isThing, ownMark, contents, rebuild]
  | frozenSet xs => simp [copy, copy_list_eq, isThing, contents, rebuild]
  | dict m es => simp [copy, copy_entries_eq, isThing, ownMark, contents, rebuild]
  | view es => exact absurd rfl (hview es)
  | record name fields => simp [copy, copy_fields_eq, isThing, contents, rebuild]
  | object m kind own shared =>
      simp [copy, copy_fields_eq, isThing, ownMark, contents, rebuild]
  | float x => simp_all [copy, isThing, contents, rebuild, isIdentified]
  | callable m name code captured =>
      cases m with
      | none => cases hid
      | some i => simp [copy, isThing, contents, rebuild]
  | _ => simp [copy, isThing, contents, rebuild]

theorem put_list_eq (i : Identity) (w : Value) (xs : List Value) :
    putList i w xs = xs.map (put i w) := by
  induction xs with
  | nil => rfl
  | cons x xs ih => simp [putList, ih]

theorem put_entries_eq (i : Identity) (w : Value) (es : Table) :
    putEntries i w es = pairs ((es.flatMap fun e => [e.1, e.2]).map (put i w)) := by
  rw [pairs_map, pairs_flat]
  induction es with
  | nil => rfl
  | cons e es ih => simp [putEntries, ih]

theorem put_fields_eq (i : Identity) (w : Value) (fs : List (String × Value)) :
    putFields i w fs = (fs.map Prod.fst).zip ((fs.map Prod.snd).map (put i w)) := by
  induction fs with
  | nil => rfl
  | cons f fs ih => simp [putFields, ih]

/-- A container is put in place of the one with its identity, and the values inside any other value
are edited. -/
theorem put_eq (i : Identity) (w v : Value) : put i w v =
    if v.containerMark = some i then w else rebuild v v.ownMark (v.contents.map (put i w)) := by
  cases v with
  | list m xs =>
      by_cases h : m = some i <;>
        simp [put, put_list_eq, containerMark, ownMark, contents, rebuild, h]
  | tuple xs => simp [put, put_list_eq, containerMark, contents, rebuild]
  | set m xs =>
      by_cases h : m = some i <;>
        simp [put, put_list_eq, containerMark, ownMark, contents, rebuild, h]
  | frozenSet xs => simp [put, put_list_eq, containerMark, contents, rebuild]
  | dict m es =>
      by_cases h : m = some i <;>
        simp [put, put_entries_eq, containerMark, ownMark, contents, rebuild, h]
  | view es => simp [put, put_entries_eq, containerMark, contents, rebuild]
  | record name fields => simp [put, put_fields_eq, containerMark, contents, rebuild]
  | object m kind own shared =>
      simp [put, put_fields_eq, containerMark, ownMark, contents, rebuild]
  | _ => simp [put, containerMark, contents, rebuild]

theorem any_holds_eq (i : Identity) (xs : List Value) : anyHolds i xs = xs.any (holds i) := by
  induction xs with
  | nil => rfl
  | cons x xs ih => simp [anyHolds, ih]

theorem entries_hold_eq (i : Identity) (es : Table) :
    entriesHold i es = (es.flatMap fun e => [e.1, e.2]).any (holds i) := by
  induction es with
  | nil => rfl
  | cons e es ih => simp [entriesHold, ih, Bool.or_assoc]

theorem fields_hold_eq (i : Identity) (fs : List (String × Value)) :
    fieldsHold i fs = (fs.map Prod.snd).any (holds i) := by
  induction fs with
  | nil => rfl
  | cons f fs ih => simp [fieldsHold, ih]

/-- A container stands in a value when it is the value or stands in one inside it. -/
theorem holds_eq (i : Identity) (v : Value) :
    v.holds i = (v.containerMark == some i || v.contents.any (holds i)) := by
  cases v with
  | list m xs => simp [holds, any_holds_eq, containerMark, contents]
  | tuple xs => simp [holds, any_holds_eq, containerMark, contents]
  | set m xs => simp [holds, any_holds_eq, containerMark, contents]
  | frozenSet xs => simp [holds, any_holds_eq, containerMark, contents]
  | dict m es => rw [holds, entries_hold_eq, containerMark, contents]
  | view es => simp [holds, entries_hold_eq, containerMark, contents]
  | record name fields => simp [holds, fields_hold_eq, containerMark, contents]
  | object m kind own shared => simp [holds, fields_hold_eq, containerMark, contents]
  | _ => simp [holds, containerMark, contents, Bool.or_assoc]

end Statechart.Value
