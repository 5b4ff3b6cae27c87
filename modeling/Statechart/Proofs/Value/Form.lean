import Statechart.Proofs.Outcome
import Statechart.Proofs.Value.Parts

/-!
# What canonical forms are made of

The canonical form of a value is made of those of its parts, which all have one when it has one:
`canonical_of_mem_parts`.
-/

namespace Statechart.Value

variable {v c : Value} {xs : List Value}

/-- The canonical form of a value that has one. -/
def form (v : Value) : Value :=
  v.canonical.toOption.getD .null

theorem form_eq (h : v.canonical = .ok c) : v.form = c := by
  rw [form, h]
  rfl

theorem canonical_list_eq_ok (h : ∀ x ∈ xs, x.canonical = .ok x.form) :
    canonicalList xs = .ok (xs.map form) := by
  induction xs with
  | nil => rfl
  | cons x xs ih =>
      obtain ⟨hx, hxs⟩ := List.forall_mem_cons.mp h
      simp [canonicalList, hx, ih hxs]

theorem canonical_list_forall₂ {cs : List Value} (h : canonicalList xs = .ok cs) :
    List.Forall₂ (fun x c => x.canonical = .ok c) xs cs := by
  induction xs generalizing cs with
  | nil =>
      cases h
      exact .nil
  | cons x xs ih =>
      obtain ⟨c, hc, h⟩ := bind_eq_ok.mp h
      obtain ⟨ds, hds, h⟩ := bind_eq_ok.mp h
      cases h
      exact .cons hc (ih hds)

theorem make_entries_entrywise {es : List (String × Except Error Value)}
    {ds : List (String × Value)} (h : makeEntries es = .ok ds) :
    Entrywise (fun x d => x = .ok d) es ds := by
  induction es generalizing ds with
  | nil =>
      cases h
      exact .nil
  | cons e es ih =>
      obtain ⟨d, hd, h⟩ := bind_eq_ok.mp h
      obtain ⟨ds, hds, h⟩ := bind_eq_ok.mp h
      cases h
      exact .cons hd (ih hds)

/-- What a sorted table is made of has been made. -/
theorem exists_of_mem_sorted_table {es : List (String × Except Error Value)}
    (h : sortedTable es = .ok c) : ∀ e ∈ es, ∃ d, e.2 = .ok d := by
  intro e he
  obtain ⟨ds, hds, -⟩ := bind_eq_ok.mp h
  obtain ⟨ps, hsorted, -, hps⟩ := (make_entries_entrywise hds).exists_pairs
  have hmem : e ∈ ps.map fun p => (p.1, p.2.1) := by
    rw [← hsorted]
    exact (sort_entries_perm es).mem_iff.mpr he
  obtain ⟨p, hp, rfl⟩ := List.mem_map.mp hmem
  exact ⟨p.2.2, hps p hp⟩

theorem require_convertible_eq_ok {ok : Bool} {x : Except Error Value} :
    requireConvertible ok x = .ok c ↔ ok = true ∧ x = .ok c := by
  cases ok <;> simp [requireConvertible, Error.wrongType]

/-- The values that the canonical form of a value is made of have canonical forms. -/
theorem canonical_of_mem_parts (h : v.canonical = .ok c) :
    ∀ x ∈ v.parts, x.canonical = .ok x.form := by
  have hform : ∀ {x : Value}, (∃ d, x.canonical = .ok d) → x.canonical = .ok x.form := by
    rintro x ⟨d, hd⟩
    rw [form_eq hd, hd]
  have hitems : ∀ {xs cs : List Value}, canonicalList xs = .ok cs →
      ∀ x ∈ xs, x.canonical = .ok x.form := fun hcs x hx =>
    have ⟨d, _, hd⟩ := exists_of_mem_forall₂ (canonical_list_forall₂ hcs).flip hx
    hform ⟨d, hd⟩
  have hentries : ∀ {es : List (String × Except Error Value)} {x : Value}, sortedTable es = .ok c →
      x.canonical ∈ es.map Prod.snd → x.canonical = .ok x.form := by
    intro es x hes hx
    obtain ⟨e, he, heq⟩ := List.mem_map.mp hx
    exact hform (heq ▸ exists_of_mem_sorted_table hes e he)
  cases v.shape with
  | sequence hv =>
      rw [hv.canonical_eq] at h
      rw [hv.parts_eq]
      obtain ⟨cs, hcs, -⟩ := bind_eq_ok.mp h
      exact hitems hcs
  | gathering hv =>
      rw [hv.canonical_eq] at h
      rw [hv.parts_eq]
      obtain ⟨cs, hcs, -⟩ := bind_eq_ok.mp h
      exact hitems hcs
  | dict m es =>
      rw [canonical] at h
      split at h
      · rw [canonical_entries_eq] at h
        refine List.forall_mem_map.mpr fun e he => hentries h ?_
        rw [List.map_map]
        exact List.mem_map_of_mem he
      · cases h
  | filed hv =>
      rw [hv.canonical_eq] at h
      rw [hv.parts_eq]
      obtain ⟨-, h⟩ := require_convertible_eq_ok.mp h
      refine List.forall_mem_map.mpr fun f hf => hentries h ?_
      rw [List.map_map]
      exact List.mem_map_of_mem hf
  | plain hv =>
      rw [parts_of_plain hv]
      exact List.forall_mem_nil _

/-- A set that is gone through in another order has the same canonical forms in another order. -/
theorem canonical_list_perm {ys zs ds : List Value} (h : canonicalList ys = .ok ds)
    (hperm : ys.Perm zs) : ∃ es, canonicalList zs = .ok es ∧ ds.Perm es := by
  have hforms : ∀ y ∈ ys, y.canonical = .ok y.form :=
    canonical_of_mem_parts (v := newList ys) (c := newList ds) (by simp [newList, canonical, h])
  have hds : ds = ys.map form := by
    rw [canonical_list_eq_ok hforms] at h
    exact (Except.ok.inj h).symm
  refine ⟨zs.map form, canonical_list_eq_ok fun z hz => hforms z (hperm.mem_iff.mpr hz), ?_⟩
  rw [hds]
  exact hperm.map form

end Statechart.Value
