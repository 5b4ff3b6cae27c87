import Mathlib.Logic.Equiv.Fintype
import Statechart.Proofs.Value.Renamed

/-!
# Values that differ in their marks only

Two values are twins when one is the other with other marks, different marks having stayed
different: they hold the same, and in either of them the same places are one thing. Read
`Twin.same` for what equality makes of them, and `exists_copy_twin` first: a deep copy is a twin of
its original.

What is known of a value is known of its twins, so each notion has a lemma on renaming here. For
`Stored` the store is renamed as well, and `Stored.congr` says that a store counts only where the
marks of the value lead.
-/

namespace Statechart.Value

variable {u v w : Value} {T T' : Identity → Value} {i : Identity} {g : Identity → Identity}
  {σ τ : Equiv.Perm Identity}

/-- Finitely many marks can be exchanged for others by a permutation. -/
theorem exists_perm (is : List Identity) (hg : ∀ i ∈ is, ∀ j ∈ is, g i = g j → i = j) :
    ∃ σ : Equiv.Perm Identity, ∀ i ∈ is, σ i = g i := by
  obtain ⟨σ, hσ⟩ := Equiv.Perm.exists_extending_pair (α := {i // i ∈ is}) Subtype.val
    (fun i => g i.1) Subtype.val_injective fun i j h => Subtype.ext (hg _ i.2 _ j.2 h)
  exact ⟨σ, fun i hi => hσ ⟨i, hi⟩⟩

/-- Two permutations can be made one that does what they do to two lists of marks, if these are
apart and stay apart. -/
theorem exists_common (is js : List Identity) (happart : ∀ i ∈ is, i ∉ js)
    (happart' : ∀ i ∈ is, ∀ j ∈ js, σ i ≠ τ j) :
    ∃ π : Equiv.Perm Identity, (∀ i ∈ is, π i = σ i) ∧ ∀ j ∈ js, π j = τ j := by
  have hfirst : ∀ i ∈ is, (if i ∈ is then σ i else τ i) = σ i := fun i hi => if_pos hi
  have hsecond : ∀ j ∈ js, (if j ∈ is then σ j else τ j) = τ j := fun j hj =>
    if_neg fun hi => happart j hi hj
  -- Together they are injective, because what they give stays apart.
  obtain ⟨π, hπ⟩ := exists_perm (g := fun i => if i ∈ is then σ i else τ i) (is ++ js) (by
    intro i hi j hj heq
    rcases List.mem_append.mp hi with hi | hi <;> rcases List.mem_append.mp hj with hj | hj
    · exact σ.injective (by rwa [hfirst i hi, hfirst j hj] at heq)
    · exact absurd (by rwa [hfirst i hi, hsecond j hj] at heq) (happart' i hi j hj)
    · exact absurd (by rwa [hsecond i hi, hfirst j hj] at heq) (happart' j hj i hi).symm
    · exact τ.injective (by rwa [hsecond i hi, hsecond j hj] at heq))
  exact ⟨π, fun i hi => (hπ i (List.mem_append_left _ hi)).trans (hfirst i hi),
    fun j hj => (hπ j (List.mem_append_right _ hj)).trans (hsecond j hj)⟩

/-! ## What other marks leave as it is -/

theorem marks_rename (g : Identity → Identity) (v : Value) :
    (v.rename g).marks = v.marks.map g := by
  induction v using contents_induction with
  | step v ih =>
      rw [marks_eq, marks_eq v, own_mark_rename, contents_rename, List.map_append,
        List.flatMap_map, List.map_flatMap, Option.toList_map]
      exact congrArg _ (List.flatMap_congr ih)

theorem mem_marks_rename (g : Identity → Identity) (h : i ∈ v.marks) :
    g i ∈ (v.rename g).marks := by
  rw [marks_rename]
  exact List.mem_map_of_mem h

theorem copiable_rename (g : Identity → Identity) (v : Value) :
    (v.rename g).copiable = v.copiable := by
  induction v using contents_induction with
  | step v ih =>
      have hview : (∀ es, v.rename g ≠ .view es) ↔ ∀ es, v ≠ .view es := by
        rw [rename_eq]
        cases v <;> simp [rebuild]
      rw [Bool.eq_iff_iff, copiable_iff, copiable_iff, hview, contents_rename, List.forall_mem_map]
      exact and_congr_right fun _ => forall₂_congr fun w hw => by rw [ih w hw]

theorem is_thing_rename (g : Identity → Identity) (v : Value) :
    (v.rename g).isThing = v.isThing := by
  rw [rename_eq]
  cases v <;> rfl

theorem is_identified_rename (g : Identity → Identity) (v : Value) :
    (v.rename g).isIdentified = v.isIdentified := by
  rw [rename_eq]
  cases v <;> rfl

/-- A value in a store is, with other marks, in the store with these marks. -/
theorem Stored.rename (h : Stored T v) (σ : Equiv.Perm Identity) :
    Stored (fun i => (T (σ.symm i)).rename σ) (v.rename σ) := by
  induction v using contents_induction with
  | step v ih =>
      refine .intro ((is_identified_rename σ v).trans h.identified) (fun hthing => ?_) ?_
      · obtain ⟨i, hi, hT⟩ := h.held ((is_thing_rename σ v).symm.trans hthing)
        exact ⟨σ i, by rw [own_mark_rename, hi, Option.map_some], by
          rw [Equiv.symm_apply_apply, hT]⟩
      · rw [contents_rename, List.forall_mem_map]
        exact fun w hw => ih w hw (h.inside w hw)

/-- A store counts only where the marks of a value lead. -/
theorem Stored.congr (h : Stored T v) (hT : ∀ i ∈ v.marks, T' i = T i) : Stored T' v := by
  induction v using contents_induction with
  | step v ih =>
      refine .intro h.identified (fun hthing => ?_) fun w hw => ih w hw (h.inside w hw) fun i hi =>
        hT i (mem_marks.mpr (.inr ⟨w, hw, hi⟩))
      obtain ⟨i, hi, hv⟩ := h.held hthing
      exact ⟨i, hi, (hT i (mem_marks.mpr (.inl hi))).trans hv⟩

/-- Values of two stores are in one, if no mark occurs in both. -/
theorem Stored.exists_common (hv : Stored T v) (hw : Stored T' w)
    (happart : ∀ i ∈ v.marks, i ∉ w.marks) :
    ∃ S, Stored S v ∧ Stored S w ∧ ∀ i, i ∉ w.marks → S i = T i :=
  ⟨fun i => if i ∈ w.marks then T' i else T i, hv.congr fun i hi => if_neg (happart i hi),
    hw.congr fun _ hi => if_pos hi, fun _ hi => if_neg hi⟩

/-! ## Twins -/

/-- Whether a value is another with other marks, different marks having stayed different. -/
def Twin (v w : Value) : Prop :=
  ∃ σ : Equiv.Perm Identity, v.rename σ = w

namespace Twin

theorem refl (v : Value) : Twin v v :=
  ⟨Equiv.refl _, rename_id v⟩

theorem symm (h : Twin v w) : Twin w v := by
  obtain ⟨σ, rfl⟩ := h
  refine ⟨σ.symm, ?_⟩
  rw [rename_rename, Equiv.symm_comp_self, rename_id]

theorem trans (h : Twin u v) (h' : Twin v w) : Twin u w := by
  obtain ⟨σ, rfl⟩ := h
  obtain ⟨τ, rfl⟩ := h'
  exact ⟨σ.trans τ, (rename_rename σ τ u).symm⟩

/-- Twins in which no objects stand are equal. -/
theorem same (h : Twin v w) (hv : v.wellFormed = true) (hstored : Stored T v)
    (hobjects : v.objects = []) : v.same w = true := by
  obtain ⟨σ, rfl⟩ := h
  have hself : (v.rename id).same (v.rename σ) = v.same v := same_rename (by simp [hobjects])
  rw [rename_id] at hself
  rw [hself]
  exact (same_iff_like hv hv).mpr hstored.like_self

end Twin

/-- A deep copy is a twin of its original, and its marks are those of a supply. -/
theorem exists_copy_twin (hv : Stored T v) (hcopy : v.copiable = true) (start : Identity) :
    ∃ (σ : Equiv.Perm Identity) (next : Identity), v.copy? start = some (v.rename σ, next) ∧
      Identity.From start next ∧
      ∀ i ∈ v.marks, Identity.From start (σ i) ∧ ¬ Identity.From next (σ i) := by
  obtain ⟨g, next, hrun, hnext, hinjective, hnew⟩ := exists_copy hv hcopy start
  obtain ⟨σ, hσ⟩ := exists_perm _ hinjective
  refine ⟨σ, next, ?_, hnext, fun i hi => by rw [hσ i hi]; exact hnew i hi⟩
  rw [hrun, rename_congr hσ]

end Statechart.Value
