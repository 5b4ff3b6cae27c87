import Statechart.Proofs.Value.Copied
import Statechart.Proofs.Value.Equality

/-!
# Equality of values with other marks

Equality tells objects apart by their marks, and looks at no other marks of things. `objects` lists
the marks that it looks at. Read `same_rename`: values with other marks are equal when the values
are, provided that objects which were one still are and objects which were not are not now.
-/

namespace Statechart.Value

variable {v w : Value} {i : Identity} {g h : Identity → Identity}

/-- Gives another mark in place of that of an object. -/
def Atom.rename (g : Identity → Identity) : Atom → Atom
  | .object i => .object (g i)
  | a => a

/-- What is seen of a value in which other marks have been given. -/
def Face.rename (g : Identity → Identity) : Face → Face
  | .atom a => .atom (a.map (Atom.rename g))
  | .ordered f xs => .ordered f (xs.map (Value.rename g))
  | .unordered xs => .unordered (xs.map (Value.rename g))
  | .table es => .table (es.map fun e => (e.1.rename g, e.2.rename g))

/-- Other marks do not change a number. -/
theorem float_atom_map_rename (g : Identity → Identity) (x : Binary64) :
    (floatAtom? x).map (Atom.rename g) = floatAtom? x := by
  unfold floatAtom?
  split
  · rfl
  · split <;> rfl

theorem face_rename (g : Identity → Identity) (v : Value) :
    (v.rename g).face = v.face.rename g := by
  rw [rename_eq]
  cases v with
  | dict m es => simp [rebuild, contents, face, Face.rename, pairs_map, pairs_flat]
  | view es => simp [rebuild, contents, face, Face.rename, pairs_map, pairs_flat]
  | record name fields =>
      simp [rebuild, contents, face, Face.rename, List.map_fst_zip, List.map_snd_zip]
  | object m kind own shared => cases m <;> rfl
  | callable m name code captured => cases m <;> rfl
  | float x => simp [rebuild, face, Face.rename, float_atom_map_rename]
  | _ => rfl

/-- The object that a value is seen to be. -/
def Face.object? : Face → Option Identity
  | .atom (some (.object i)) => some i
  | _ => none

/-- The marks of the objects that equality looks at in a value. -/
def objects (v : Value) : List Identity :=
  v.face.object?.toList ++ v.face.parts.attach.flatMap fun w => objects w.1
termination_by sizeOf v
decreasing_by exact size_of_lt_of_mem_parts w.2

theorem objects_eq (v : Value) :
    v.objects = v.face.object?.toList ++ v.face.parts.flatMap objects := by
  rw [objects]
  simp

theorem mem_objects :
    i ∈ v.objects ↔ v.face.object? = some i ∨ ∃ w ∈ v.face.parts, i ∈ w.objects := by
  simp [objects_eq v]

theorem Face.object_rename (g : Identity → Identity) (a : Face) :
    (a.rename g).object? = a.object?.map g := by
  cases a with
  | atom a =>
      cases a with
      | none => rfl
      | some a => cases a <;> rfl
  | _ => rfl

theorem Face.parts_rename (g : Identity → Identity) (a : Face) :
    (a.rename g).parts = a.parts.map (Value.rename g) := by
  cases a with
  | table es => simp [Face.rename, Face.parts, List.flatMap_map, List.map_flatMap]
  | _ => rfl

/-- What a renamed value shows in place of the objects that the value shows. -/
theorem objects_rename (g : Identity → Identity) (v : Value) :
    (v.rename g).objects = v.objects.map g := by
  induction v using contents_induction with
  | step v ih =>
      have ih : ∀ w ∈ v.face.parts, (w.rename g).objects = w.objects.map g :=
        fun w hw => ih w (mem_contents_of_mem_parts hw)
      rw [objects_eq, objects_eq v, face_rename, Face.object_rename, Face.parts_rename,
        List.map_append, List.flatMap_map, List.map_flatMap, Option.toList_map]
      exact congrArg _ (List.flatMap_congr ih)

/-! ## Equality after renaming -/

section Members

variable {f f' : Value → Value}

theorem same_list_map {xs ys : List Value}
    (hsame : ∀ x ∈ xs, ∀ y ∈ ys, same (f x) (f' y) = same x y) :
    sameList (xs.map f) (ys.map f') = sameList xs ys := by
  rw [Bool.eq_iff_iff, same_list_iff, same_list_iff, List.forall₂_map_left_iff,
    List.forall₂_map_right_iff]
  exact ⟨fun h => forall₂_imp_of_mem h fun x hx y hy hxy => hsame x hx y hy ▸ hxy,
    fun h => forall₂_imp_of_mem h fun x hx y hy hxy => (hsame x hx y hy).symm ▸ hxy⟩

theorem within_map {xs ys : List Value}
    (hsame : ∀ x ∈ xs, ∀ y ∈ ys, same (f x) (f' y) = same x y) :
    within (xs.map f) (ys.map f') = within xs ys := by
  rw [Bool.eq_iff_iff, within_iff, within_iff]
  rw [List.forall_mem_map]
  refine forall₂_congr fun x hx => ?_
  simp only [List.mem_map, exists_exists_and_eq_and]
  exact exists_congr fun y => and_congr_right fun hy => by rw [hsame x hx y hy]

theorem entries_within_map {es ds : Table}
    (hkey : ∀ e ∈ es, ∀ d ∈ ds, same (f e.1) (f' d.1) = same e.1 d.1)
    (hvalue : ∀ e ∈ es, ∀ d ∈ ds, same (f e.2) (f' d.2) = same e.2 d.2) :
    entriesWithin (es.map fun e => (f e.1, f e.2)) (ds.map fun d => (f' d.1, f' d.2)) =
      entriesWithin es ds := by
  rw [Bool.eq_iff_iff, entries_within_iff, entries_within_iff]
  simp only [List.forall_mem_map, List.find?_map, Option.map_eq_some_iff]
  refine forall₂_congr fun e he => ?_
  have hfind : ds.find? ((fun d => same (f e.1) d.1) ∘ fun d => (f' d.1, f' d.2)) =
      ds.find? fun d => same e.1 d.1 :=
    find_congr fun d hd => hkey e he d hd
  rw [hfind]
  constructor
  · rintro ⟨_, ⟨d, hd, rfl⟩, hsame⟩
    exact ⟨d, hd, by rwa [hvalue e he d (List.mem_of_find?_eq_some hd)] at hsame⟩
  · rintro ⟨d, hd, hsame⟩
    exact ⟨_, ⟨d, hd, rfl⟩, by rwa [hvalue e he d (List.mem_of_find?_eq_some hd)]⟩

end Members

/-- Atoms with other marks are equal when the atoms are, if objects are one when they were. -/
theorem same_atoms_rename {a b : Option Atom}
    (hobjects : ∀ i j, (Face.atom a).object? = some i → (Face.atom b).object? = some j →
      (g i = h j ↔ i = j)) :
    ((a.map (Atom.rename g)).isSome && a.map (Atom.rename g) == b.map (Atom.rename h)) =
      (a.isSome && a == b) := by
  rw [Bool.eq_iff_iff]
  cases a with
  | none => simp
  | some a =>
      cases b with
      | none => simp
      | some b => cases a <;> cases b <;> simp_all [Atom.rename, Face.object?]

/-- Values with other marks are equal when the values are, if objects are one when they were. -/
theorem same_rename (hobjects : ∀ i ∈ v.objects, ∀ j ∈ w.objects, (g i = h j ↔ i = j)) :
    same (v.rename g) (w.rename h) = same v w := by
  induction v using contents_induction generalizing w with
  | step v ih =>
      have hparts : ∀ x ∈ v.face.parts, ∀ y ∈ w.face.parts,
          same (x.rename g) (y.rename h) = same x y := by
        intro x hx y hy
        exact ih x (mem_contents_of_mem_parts hx) fun i hi j hj =>
          hobjects i (mem_objects.mpr (.inr ⟨x, hx, hi⟩)) j (mem_objects.mpr (.inr ⟨y, hy, hj⟩))
      have hself : ∀ i j, v.face.object? = some i → w.face.object? = some j →
          (g i = h j ↔ i = j) :=
        fun i j hi hj => hobjects i (mem_objects.mpr (.inl hi)) j (mem_objects.mpr (.inl hj))
      rw [same_eq, same_eq, face_rename, face_rename]
      generalize v.face = a, w.face = b at hparts hself
      cases a with
      | atom a =>
          cases b with
          | atom b => rw [Face.rename, Face.rename, sameFaces, sameFaces, same_atoms_rename hself]
          | _ => rfl
      | ordered f xs =>
          cases b with
          | ordered f' ys =>
              have hlist : sameList (xs.map (rename g)) (ys.map (rename h)) = sameList xs ys :=
                same_list_map hparts
              simp only [Face.rename, sameFaces, hlist]
          | _ => rfl
      | unordered xs =>
          cases b with
          | unordered ys =>
              have hwithin : within (xs.map (rename g)) (ys.map (rename h)) = within xs ys :=
                within_map hparts
              simp only [Face.rename, sameFaces, List.length_map, hwithin]
          | _ => rfl
      | table es =>
          cases b with
          | table ds =>
              have hentries : entriesWithin (es.map fun e => (e.1.rename g, e.2.rename g))
                  (ds.map fun d => (d.1.rename h, d.2.rename h)) = entriesWithin es ds :=
                entries_within_map
                  (fun e he d hd => hparts _ (Face.key_mem_parts he) _ (Face.key_mem_parts hd))
                  fun e he d hd => hparts _ (Face.value_mem_parts he) _ (Face.value_mem_parts hd)
              simp only [Face.rename, sameFaces, List.length_map, hentries]
          | _ => rfl

/-- The mark of an object is its own. -/
theorem own_mark_of_object (h : v.face.object? = some i) : v.ownMark = some i := by
  cases v with
  | object m kind own shared =>
      cases m with
      | none => cases h
      | some j => exact h
  | float x =>
      simp only [face, floatAtom?] at h
      split at h
      · cases h
      · split at h <;> cases h
  | callable m name code captured => cases m <;> cases h
  | _ => cases h

/-- Only marks that occur are looked at. -/
theorem mem_marks_of_mem_objects (h : i ∈ v.objects) : i ∈ v.marks := by
  induction v using contents_induction with
  | step v ih =>
      rcases mem_objects.mp h with h | ⟨w, hw, h⟩
      · exact mem_marks.mpr (.inl (own_mark_of_object h))
      · have hw := mem_contents_of_mem_parts hw
        exact mem_marks.mpr (.inr ⟨w, hw, ih w hw h⟩)

/-! ## What is like what -/

/-- What can be told apart from others shows itself. -/
theorem Stored.face_ne {T : Identity → Value} (h : Stored T v) : v.face ≠ .atom none := by
  have hid := h.identified
  cases v with
  | float x =>
      have hnamed : x.isNamed = true := hid
      simp only [face, floatAtom?, hnamed, ite_true, ne_eq, Face.atom.injEq]
      split <;> simp
  | object m kind own shared =>
      obtain ⟨i, hi, -⟩ := h.held rfl
      obtain rfl : m = some i := hi
      simp [face]
  | callable m name code captured =>
      obtain ⟨i, rfl⟩ := Option.isSome_iff_exists.mp (hid : m.isSome = true)
      simp [face]
  | _ => simp [face]

/-- A value that can be told apart from others is like itself. -/
theorem Stored.like_self {T : Identity → Value} (h : Stored T v) : Like v v := by
  induction v using contents_induction with
  | step v ih =>
      have hparts : ∀ w ∈ v.face.parts, Like w w := fun w hw =>
        ih w (mem_contents_of_mem_parts hw) (h.inside w (mem_contents_of_mem_parts hw))
      have hface := h.face_ne
      rw [like_iff]
      generalize v.face = a at hparts hface
      cases a with
      | atom a =>
          cases a with
          | none => exact absurd rfl hface
          | some a => exact .atom a
      | ordered f xs => exact .ordered f (List.forall₂_same.mpr hparts)
      | unordered xs => exact .unordered rfl fun x hx => ⟨x, hx, hparts x hx⟩
      | table es =>
          exact .table rfl fun e he => ⟨e, he, hparts _ (Face.key_mem_parts he),
            hparts _ (Face.value_mem_parts he)⟩

/-- Each part has one that it is related to. -/
theorem Face.Alike.exists_of_mem_parts {R : Value → Value → Prop} {a b : Face} {x : Value}
    (h : Face.Alike R a b) (hx : x ∈ a.parts) : ∃ y ∈ b.parts, R x y := by
  cases h with
  | atom a => cases hx
  | ordered f h => exact exists_of_mem_forall₂ h.flip hx
  | unordered hlen h => exact h x hx
  | table hlen h =>
      obtain ⟨e, he, hx⟩ := List.mem_flatMap.mp hx
      obtain ⟨d, hd, hkey, hvalue⟩ := h e he
      rcases (by simpa using hx : x = e.1 ∨ x = e.2) with rfl | rfl
      · exact ⟨d.1, Face.key_mem_parts hd, hkey⟩
      · exact ⟨d.2, Face.value_mem_parts hd, hvalue⟩

/-- Objects that stand in a value stand in all that is like it. -/
theorem Like.objects_subset (h : Like v w) (hi : i ∈ v.objects) : i ∈ w.objects := by
  induction v using contents_induction generalizing w with
  | step v ih =>
      have halike := like_iff.mp h
      rw [mem_objects] at hi ⊢
      rcases hi with hi | ⟨x, hx, hi⟩
      · left
        generalize v.face = a, w.face = b at halike hi
        cases halike with
        | atom a => exact hi
        | _ => cases hi
      · obtain ⟨y, hy, hxy⟩ := halike.exists_of_mem_parts hx
        exact .inr ⟨y, hy, ih x (mem_contents_of_mem_parts hx) hxy hi⟩

/-! ## Well-formed values -/

theorem all_distinct_map {f : Value → Value} {xs : List Value}
    (hsame : ∀ x ∈ xs, ∀ y ∈ xs, same (f x) (f y) = same x y) :
    allDistinct (xs.map f) = allDistinct xs := by
  induction xs with
  | nil => rfl
  | cons x xs ih =>
      have hx : ((xs.map f).all fun y => !same (f x) y) = xs.all fun y => !same x y := by
        rw [List.all_map, Bool.eq_iff_iff, List.all_eq_true, List.all_eq_true]
        exact forall₂_congr fun y hy => by
          rw [Function.comp_apply, hsame x (by simp) y (by simp [hy])]
      rw [List.map_cons, allDistinct, allDistinct, hx,
        ih fun y hy z hz => hsame y (by simp [hy]) z (by simp [hz])]

/-- What a class or a callable holds keeps its marks. -/
theorem hidden_rename (g : Identity → Identity) (v : Value) : (v.rename g).hidden = v.hidden := by
  rw [rename_eq]
  cases v <;> rfl

/-- A well-formed value is well-formed under other marks, when different marks stay different. -/
theorem well_formed_rename (h : v.wellFormed = true)
    (hg : ∀ i ∈ v.marks, ∀ j ∈ v.marks, g i = g j → i = j) : (v.rename g).wellFormed = true := by
  induction v using contents_induction with
  | step v ih =>
      have hcontents : ∀ w ∈ v.contents, (w.rename g).wellFormed = true := fun w hw =>
        ih w hw (well_formed_of_mem_contents h hw) fun i hi j hj =>
          hg i (mem_marks.mpr (.inr ⟨w, hw, hi⟩)) j (mem_marks.mpr (.inr ⟨w, hw, hj⟩))
      have hdistinct : ∀ xs : List Value, (∀ x ∈ xs, x ∈ v.contents) →
          allDistinct (xs.map (rename g)) = allDistinct xs := by
        refine fun xs hxs => all_distinct_map fun x hx y hy => same_rename fun i hi j hj =>
          ⟨hg i ?_ j ?_, fun h => h ▸ rfl⟩
        · exact mem_marks.mpr (.inr ⟨x, hxs x hx, mem_marks_of_mem_objects hi⟩)
        · exact mem_marks.mpr (.inr ⟨y, hxs y hy, mem_marks_of_mem_objects hj⟩)
      refine well_formed_iff.mpr ⟨?_, by simpa using hcontents, ?_⟩
      · have hface := distinct_face h
        have hparts := fun w => mem_contents_of_mem_parts (v := v) (w := w)
        rw [face_rename]
        generalize v.face = a at hface hparts
        cases a with
        | unordered xs => exact (hdistinct xs hparts).trans hface
        | table es =>
            have hkeys : ∀ k ∈ es.map Prod.fst, k ∈ v.contents := by
              intro k hk
              obtain ⟨e, he, rfl⟩ := List.mem_map.mp hk
              exact hparts _ (Face.key_mem_parts he)
            have hmap : (es.map fun e => (e.1.rename g, e.2.rename g)).map Prod.fst =
                (es.map Prod.fst).map (rename g) := by simp
            exact (congrArg _ hmap).trans ((hdistinct _ hkeys).trans hface)
        | _ => trivial
      · rw [hidden_rename]
        exact (well_formed_iff.mp h).2.2

end Statechart.Value
