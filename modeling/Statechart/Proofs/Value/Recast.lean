import Statechart.Proofs.Value.Digest

/-!
# Values with containers of other kinds

`Value.Recast` relates two values that differ at most in the kinds of their containers, a list
standing for a tuple and a set for a frozen set, and in the order in which sets are gone through. A
recast value has the same canonical text and the same digest: `canonical_text_of_recast`. Elements
of a set that have one text to be sorted by stay in the order in which they come, but these texts
tell as much as the texts that are written in the end, so the order of such elements does not show.
-/

namespace Statechart.Value

/-- Two values that are the same up to the kinds of their containers, marks, and the order of sets,
of which `order` says how it may change. -/
inductive Recast (order : List Value → List Value → Prop) : Value → Value → Prop where
  | same (v : Value) : Recast order v v
  | sequence {v w : Value} {xs ys : List Value} (hv : Sequence v xs) (hw : Sequence w ys)
      (h : List.Forall₂ (Recast order) xs ys) : Recast order v w
  | gathering {v w : Value} {xs ys zs : List Value} (hv : Gathering v xs) (hw : Gathering w zs)
      (h : List.Forall₂ (Recast order) xs ys) (horder : order ys zs) : Recast order v w
  | dict {m n : Mark} {es ds : List (Value × Value)} (h : Entrywise (Recast order) es ds) :
      Recast order (.dict m es) (.dict n ds)
  | filed {v w : Value} {fs gs : List (String × Value)} (hv : Filed v fs) (hw : Filed w gs)
      (h : Entrywise (Recast order) fs gs) : Recast order v w

variable {order : List Value → List Value → Prop} {v w : Value}

/-- Recast values differ in what does not count. -/
theorem Recast.varied (h : Recast order v w) : Varied order Eq v w := by
  induction v using members_induction generalizing w with
  | step v ih =>
      have hlist : ∀ {xs ys : List Value}, v.members = xs → List.Forall₂ (Recast order) xs ys →
          List.Forall₂ (Varied order Eq) xs ys :=
        fun hxs h => forall₂_imp_of_mem h fun x hx y _ => ih x (hxs ▸ hx)
      cases h with
      | same => exact .same _
      | sequence hv hw h => exact .sequence hv hw (hlist hv.members_eq h)
      | gathering hv hw h horder => exact .gathering hv hw (hlist hv.members_eq h) horder
      | dict h => exact .dict (forall₂_eq_of_keys h) (hlist rfl h.values) rfl
      | filed hv hw h =>
          exact .filed hv hw (h.imp fun f hf g _ =>
            ih _ (hv.members_eq ▸ List.mem_map_of_mem hf))

/-- Sets can be put back in the order from which another one came. -/
theorem Recast.symm (h : Recast List.Perm v w) : Recast List.Perm w v := by
  induction v using members_induction generalizing w with
  | step v ih =>
      have hlist : ∀ {xs ys : List Value}, v.members = xs →
          List.Forall₂ (Recast List.Perm) xs ys → List.Forall₂ (Recast List.Perm) ys xs :=
        fun hxs h => (forall₂_imp_of_mem h fun x hx _ _ hxy => ih x (hxs ▸ hx) hxy).flip
      cases h with
      | same => exact .same _
      | sequence hv hw h => exact .sequence hw hv (hlist hv.members_eq h)
      | gathering hv hw h hperm =>
          obtain ⟨us, hus, hperm'⟩ := List.perm_comp_forall₂ hperm.symm (hlist hv.members_eq h)
          exact .gathering hw hv hus hperm'
      | dict h => exact .dict (h.imp fun e he _ _ => ih _ (List.mem_map_of_mem he)).flip
      | filed hv hw h =>
          exact .filed hw hv (h.imp fun f hf _ _ =>
            ih _ (hv.members_eq ▸ List.mem_map_of_mem hf)).flip

/-! ## Copies of what recast records hold -/

section Copies

variable {R : Value → Value → Prop} {xs ys : List Value}

theorem held_list_forall₂
    (h : List.Forall₂ (fun x y => ∀ c : Copies, R (x.held c) (y.held c)) xs ys) (c : Copies) :
    List.Forall₂ R (heldList c xs) (heldList c ys) := by
  induction h generalizing c with
  | nil => exact .nil
  | cons h _ ih => exact .cons (h _) (ih _)

theorem renewed_list_forall₂
    (h : List.Forall₂ (fun x y => ∀ c : Copies, R (x.renewed c) (y.renewed c)) xs ys) (c : Copies) :
    List.Forall₂ R (renewedList c xs) (renewedList c ys) := by
  induction h generalizing c with
  | nil => exact .nil
  | cons h _ ih => exact .cons (h _) (ih _)

theorem held_fields_entrywise {fs gs : List (String × Value)}
    (h : Entrywise (fun x y => ∀ c : Copies, R (x.held c) (y.held c)) fs gs) (c : Copies) :
    Entrywise R (heldFields c fs) (heldFields c gs) := by
  induction h generalizing c with
  | nil => exact .nil
  | cons h _ ih => exact .cons (h _) (ih _)

theorem held_entries_entrywise {es ds : List (Value × Value)}
    (h : Entrywise (fun x y => ∀ c : Copies, R (x.held c) (y.held c)) es ds) (c : Copies) :
    Entrywise R (heldEntries c es) (heldEntries c ds) := by
  induction h generalizing c with
  | nil => exact .nil
  | cons h _ ih => exact .cons (h _) (ih _)

theorem renewed_entries_entrywise {es ds : List (Value × Value)}
    (h : Entrywise (fun x y => ∀ c : Copies, R (x.renewed c) (y.renewed c)) es ds) (c : Copies) :
    Entrywise R (renewedEntries c es) (renewedEntries c ds) := by
  induction h generalizing c with
  | nil => exact .nil
  | cons h _ ih => exact .cons (h _) (ih _)

end Copies

/-- What stands for recast values is recast, since it is copied in the same places. -/
theorem Recast.held (h : Recast Eq v w) (c : Copies) : Recast Eq (v.held c) (w.held c) := by
  induction v using members_induction generalizing w c with
  | step v ih =>
      cases h with
      | same => exact .same _
      | sequence hv hw h =>
          exact .sequence (hv.held c) (hw.held c) (held_list_forall₂
            (forall₂_imp_of_mem h fun x hx y _ hxy => ih x (hv.members_eq ▸ hx) hxy) c)
      | gathering hv hw h horder =>
          subst horder
          exact .gathering (hv.held c) (hw.held c) (held_list_forall₂
            (forall₂_imp_of_mem h fun x hx y _ hxy => ih x (hv.members_eq ▸ hx) hxy) c) rfl
      | dict h =>
          exact .dict (held_entries_entrywise
            (h.imp fun e he d _ hed => ih e.2 (List.mem_map_of_mem he) hed) c)
      | filed hv hw h =>
          exact .filed (hv.held c) (hw.held c) (held_fields_entrywise
            (h.imp fun f hf g _ hfg => ih f.2 (hv.members_eq ▸ List.mem_map_of_mem hf) hfg) c)

/-- Recast values stay so when what their records hold is copied. -/
theorem Recast.renewed (h : Recast Eq v w) (c : Copies) :
    Recast Eq (v.renewed c) (w.renewed c) := by
  induction v using members_induction generalizing w c with
  | step v ih =>
      cases h with
      | same => exact .same _
      | sequence hv hw h =>
          exact .sequence (hv.renewed c) (hw.renewed c) (renewed_list_forall₂
            (forall₂_imp_of_mem h fun x hx y _ hxy => ih x (hv.members_eq ▸ hx) hxy) c)
      | gathering hv hw h horder =>
          subst horder
          exact .gathering (hv.renewed c) (hw.renewed c) (renewed_list_forall₂
            (forall₂_imp_of_mem h fun x hx y _ hxy => ih x (hv.members_eq ▸ hx) hxy) c) rfl
      | dict h =>
          exact .dict (renewed_entries_entrywise
            (h.imp fun e he d _ hed => ih e.2 (List.mem_map_of_mem he) hed) c)
      | filed hv hw h =>
          exact .filed (hv.renewed c) (hw.renewed c) (held_fields_entrywise
            (h.imp fun f _ g _ hfg => hfg.held) c)

/-! ## Canonical texts of recast values -/

/-- The canonical forms of recast values are written alike, if sets are gone through in one order.
-/
theorem Recast.canonical_agree (h : Recast Eq v w) : Agree Alike v.canonical w.canonical :=
  h.varied.canonical_agree (by simp) (by simp) (.inl (by simp)) (.inl (by simp))

/-- The texts of recast values are the same, if there are any. Which fault comes first depends on
the order of sets. -/
theorem Recast.form_text_eq (h : Recast List.Perm v w) :
    v.formText.toOption = w.formText.toOption := by
  have hagree : ∀ {v w : Value}, Recast List.Perm v w → (∃ c, v.canonical = .ok c) →
      Agree Alike v.canonical w.canonical := fun h hc =>
    h.varied.canonical_agree (by simp) (by simp) (.inl (by simp)) (.inr hc)
  cases hv : v.canonical with
  | ok c => rw [form_text_eq_of_agree (hagree h ⟨c, hv⟩)]
  | error e =>
      cases hw : w.canonical with
      | ok d =>
          have hback := hagree h.symm ⟨d, hw⟩
          rw [hv, hw] at hback
          cases hback
      | error f =>
          rw [formText, formText, hv, hw]
          rfl

theorem digest_to_option (c : Copies) (v : Value) :
    (v.digest c).toOption = (v.canonicalText c).toOption.map hashText := by
  rw [digest]
  cases v.canonicalText c <;> rfl

/-- A chest with a set of bytes and of the text that stands for them. -/
def chest : Value :=
  newList [.set none [.bytes [120], .text "b'x'"], newList [.int 1, .null]]

/-- The same chest in other containers, with the elements of the set the other way round. -/
def turnedChest : Value :=
  .tuple [.frozenSet [.text "b'x'", .bytes [120]], .tuple [.int 1, .null]]

end Statechart.Value
