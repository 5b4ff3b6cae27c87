import Statechart.Proofs.Value.Alike
import Statechart.Proofs.Value.Steady

/-!
# Values that differ in what does not count

`Value.Varied` relates two values that are made alike, part by part, from parts that are related:
the kinds of their containers and records may differ, sets may be gone through and tables stored in
another order, and keys may be others that look the same. Which orders are allowed is a parameter.
Read `Varied.canonical_agree` first: canonical forms of such values are written alike. It is proved
here once for all changes that do not count.
-/

namespace Statechart.Value

variable {order : List Value → List Value → Prop}
  {turn : List (Value × Value) → List (Value × Value) → Prop} {v w : Value}

/-- Keys that look the same and can be treated in the same way. -/
structure KeyAlike (k l : Value) : Prop where
  plain_text_eq : k.plainText = l.plainText
  has_text_eq : k.hasText = l.hasText
  copiable_eq : k.copiable = l.copiable
  holds_record_eq : k.holdsRecord = l.holdsRecord
  addressless_eq : k.addressless = l.addressless

theorem KeyAlike.refl (k : Value) : KeyAlike k k :=
  ⟨rfl, rfl, rfl, rfl, rfl⟩

/-- Values that stay as they are in canonical forms, are written alike, and can be treated in the
same way. -/
structure Leaf (v w : Value) : Prop where
  plain : v.isPlain = true ∧ w.isPlain = true
  alike : Alike v w
  copiable_eq : v.copiable = w.copiable
  convertible_eq : v.convertible = w.convertible
  addressless_eq : v.addressless = w.addressless

/-- Two values made alike of related parts: sets may be gone through in another `order`, and the
entries of tables may have taken another `turn`. -/
inductive Varied (order : List Value → List Value → Prop)
    (turn : List (Value × Value) → List (Value × Value) → Prop) : Value → Value → Prop where
  | same (v : Value) : Varied order turn v v
  | leaf {v w : Value} (h : Leaf v w) : Varied order turn v w
  | sequence {v w : Value} {xs ys : List Value} (hv : Sequence v xs) (hw : Sequence w ys)
      (h : List.Forall₂ (Varied order turn) xs ys) : Varied order turn v w
  | gathering {v w : Value} {xs ys zs : List Value} (hv : Gathering v xs) (hw : Gathering w zs)
      (h : List.Forall₂ (Varied order turn) xs ys) (horder : order ys zs) : Varied order turn v w
  | dict {m n : Mark} {es ds fs : List (Value × Value)}
      (hkeys : List.Forall₂ KeyAlike (es.map Prod.fst) (ds.map Prod.fst))
      (hvalues : List.Forall₂ (Varied order turn) (es.map Prod.snd) (ds.map Prod.snd))
      (hturn : turn ds fs) : Varied order turn (.dict m es) (.dict n fs)
  | filed {v w : Value} {fs gs : List (String × Value)} (hv : Filed v fs) (hw : Filed w gs)
      (h : Entrywise (Varied order turn) fs gs) : Varied order turn v w

/-! ## Entries -/

/-- A test of keys and values is a test of the keys and a test of the values. -/
theorem all_entries {p q : Value → Bool} (es : List (Value × Value)) :
    (es.all fun e => p e.1 && q e.2) = ((es.map Prod.fst).all p && (es.map Prod.snd).all q) := by
  induction es with
  | nil => rfl
  | cons e es ih =>
      simp only [List.all_cons, List.map_cons, ih]
      ac_rfl

/-- Entries pass tests together when their keys and their values do. -/
theorem all_entries_eq {R S : Value → Value → Prop} {p q : Value → Bool}
    {es ds : List (Value × Value)}
    (hkeys : List.Forall₂ R (es.map Prod.fst) (ds.map Prod.fst))
    (hvalues : List.Forall₂ S (es.map Prod.snd) (ds.map Prod.snd))
    (hp : ∀ k l, R k l → p k = p l) (hq : ∀ x ∈ es.map Prod.snd, ∀ y, S x y → q x = q y) :
    (es.all fun e => p e.1 && q e.2) = ds.all fun e => p e.1 && q e.2 := by
  rw [all_entries, all_entries, all_eq_of_forall₂ hkeys fun k _ l => hp k l,
    all_eq_of_forall₂ hvalues hq]

theorem forall₂_eq_of_keys {α : Type} {R : α → α → Prop} {es ds : List (Value × α)}
    (h : Entrywise R es ds) : List.Forall₂ KeyAlike (es.map Prod.fst) (ds.map Prod.fst) := by
  rw [h.keys]
  exact List.forall₂_same.mpr fun k _ => .refl k

/-- Entries whose keys look the same and whose values are related give related entries under the
texts of their keys. -/
theorem entrywise_plain_text {α : Type} {R : α → α → Prop} {f : Value → α}
    {es ds : List (Value × Value)}
    (hkeys : List.Forall₂ KeyAlike (es.map Prod.fst) (ds.map Prod.fst))
    (hvalues : List.Forall₂ (fun x y => R (f x) (f y)) (es.map Prod.snd) (ds.map Prod.snd)) :
    Entrywise R (es.map fun e => (e.1.plainText, f e.2))
      (ds.map fun d => (d.1.plainText, f d.2)) := by
  induction es generalizing ds with
  | nil =>
      cases ds with
      | nil => exact .nil
      | cons d ds => cases hkeys
  | cons e es ih =>
      cases ds with
      | nil => cases hkeys
      | cons d ds =>
          obtain ⟨hkey, hkeys⟩ := List.forall₂_cons.mp hkeys
          obtain ⟨hvalue, hvalues⟩ := List.forall₂_cons.mp hvalues
          rw [List.map_cons, List.map_cons, hkey.plain_text_eq]
          exact .cons hvalue (ih hkeys hvalues)

/-! ## What does not depend on the changes -/

/-- A value can be copied when a varied one can. -/
theorem Varied.copiable_eq (horder : ∀ ys zs, order ys zs → ys.Perm zs)
    (hturn : ∀ ds fs, turn ds fs → ds.Perm fs) (h : Varied order turn v w) :
    v.copiable = w.copiable := by
  induction v using members_induction generalizing w with
  | step v ih =>
      cases h with
      | same => rfl
      | leaf h => exact h.copiable_eq
      | sequence hv hw h =>
          rw [hv.copiable_eq, hw.copiable_eq]
          exact all_eq_of_forall₂ h fun x hx y hxy => ih x (hv.members_eq ▸ hx) hxy
      | gathering hv hw h hperm =>
          rw [hv.copiable_eq, hw.copiable_eq, ← (horder _ _ hperm).all_eq]
          exact all_eq_of_forall₂ h fun x hx y hxy => ih x (hv.members_eq ▸ hx) hxy
      | dict hkeys hvalues hperm =>
          simp only [copiable, entries_copiable_eq, ← (hturn _ _ hperm).all_eq]
          exact all_entries_eq hkeys hvalues (fun _ _ h => h.copiable_eq) fun x hx y => ih x hx
      | filed hv hw h =>
          rw [hv.copiable_eq, hw.copiable_eq]
          exact h.all_eq fun f hf y hfy => ih _ (hv.members_eq ▸ List.mem_map_of_mem hf) hfy

/-- A value can be turned into plain containers when a varied one can. -/
theorem Varied.convertible_eq (horder : ∀ ys zs, order ys zs → ys.Perm zs)
    (hturn : ∀ ds fs, turn ds fs → ds.Perm fs) (h : Varied order turn v w) :
    v.convertible = w.convertible := by
  induction v using members_induction generalizing w with
  | step v ih =>
      cases h with
      | same => rfl
      | leaf h => exact h.convertible_eq
      | sequence hv hw h =>
          rw [hv.convertible_eq, hw.convertible_eq]
          exact all_eq_of_forall₂ h fun x hx y hxy => ih x (hv.members_eq ▸ hx) hxy
      | gathering hv hw h hperm =>
          rw [hv.convertible_eq, hw.convertible_eq, ← (horder _ _ hperm).all_eq]
          exact all_eq_of_forall₂ h fun x _ y hxy => hxy.copiable_eq horder hturn
      | dict hkeys hvalues hperm =>
          simp only [convertible, entries_convertible_eq, ← (hturn _ _ hperm).all_eq]
          refine all_entries_eq (p := fun k => k.copiable && !k.holdsRecord) hkeys hvalues
            (fun k l h => ?_) fun x hx y => ih x hx
          rw [h.copiable_eq, h.holds_record_eq]
      | filed hv hw h =>
          rw [hv.convertible_eq, hw.convertible_eq]
          exact h.all_eq fun f hf y hfy => ih _ (hv.members_eq ▸ List.mem_map_of_mem hf) hfy

/-- A value shows no address when a varied one shows none. -/
theorem Varied.addressless_eq (horder : ∀ ys zs, order ys zs → ys.Perm zs)
    (hturn : ∀ ds fs, turn ds fs → ds.Perm fs) (h : Varied order turn v w) :
    v.addressless = w.addressless := by
  induction v using members_induction generalizing w with
  | step v ih =>
      cases h with
      | same => rfl
      | leaf h => exact h.addressless_eq
      | sequence hv hw h =>
          rw [hv.addressless_eq, hw.addressless_eq]
          exact all_eq_of_forall₂ h fun x hx y hxy => ih x (hv.members_eq ▸ hx) hxy
      | gathering hv hw h hperm =>
          rw [hv.addressless_eq, hw.addressless_eq, ← (horder _ _ hperm).all_eq]
          exact all_eq_of_forall₂ h fun x hx y hxy => ih x (hv.members_eq ▸ hx) hxy
      | dict hkeys hvalues hperm =>
          simp only [addressless, entries_addressless_eq, ← (hturn _ _ hperm).all_eq]
          exact all_entries_eq hkeys hvalues (fun _ _ h => h.addressless_eq) fun x hx y => ih x hx
      | filed hv hw h =>
          rw [hv.addressless_eq, hw.addressless_eq]
          exact h.all_eq fun f hf y hfy => ih _ (hv.members_eq ▸ List.mem_map_of_mem hf) hfy

/-- A value is steady when a varied one is. -/
theorem Varied.steady_eq (horder : ∀ ys zs, order ys zs → ys.Perm zs)
    (hturn : ∀ ds fs, turn ds fs → ds.Perm fs) (h : Varied order turn v w) :
    v.steady = w.steady := by
  induction v using members_induction generalizing w with
  | step v ih =>
      cases h with
      | same => rfl
      | leaf h => rw [steady_of_plain h.plain.1, steady_of_plain h.plain.2]
      | sequence hv hw h =>
          rw [hv.steady_eq, hw.steady_eq]
          exact all_eq_of_forall₂ h fun x hx y hxy => ih x (hv.members_eq ▸ hx) hxy
      | gathering hv hw h hperm =>
          rw [hv.steady_eq, hw.steady_eq, ← (horder _ _ hperm).all_eq]
          exact all_eq_of_forall₂ h fun x hx y hxy => ih x (hv.members_eq ▸ hx) hxy
      | dict hkeys hvalues hperm =>
          simp only [steady, entries_steady_eq, ← (hturn _ _ hperm).all_eq]
          exact all_entries_eq (p := fun _ => true) hkeys hvalues (fun _ _ _ => rfl)
            fun x hx y => ih x hx
      | filed hv hw h =>
          rw [hv.steady_eq, hw.steady_eq]
          exact (Varied.filed hv hw h).addressless_eq horder hturn

/-! ## Canonical forms of varied values -/

/-- No table that a canonical form is made of has two keys with one plain text. -/
inductive KeysApart : Value → Prop where
  | intro {v : Value}
      (keys : ∀ m es, v = .dict m es → (es.map fun e => e.1.plainText).Nodup)
      (inside : ∀ w ∈ v.parts, KeysApart w) : KeysApart v

theorem KeysApart.list {m : Mark} {xs : List Value} (h : ∀ x ∈ xs, KeysApart x) :
    KeysApart (.list m xs) :=
  .intro (fun _ _ h => nomatch h) h

theorem KeysApart.dict {m : Mark} {es : List (Value × Value)}
    (hkeys : (es.map fun e => e.1.plainText).Nodup) (h : ∀ e ∈ es, KeysApart e.2) :
    KeysApart (.dict m es) := by
  refine .intro (fun n ds hds => ?_) fun w hw => ?_
  · obtain ⟨-, rfl⟩ := Value.dict.inj hds
    exact hkeys
  · obtain ⟨e, he, rfl⟩ := List.mem_map.mp hw
    exact h e he

/-- A value that is no container has no keys. -/
theorem KeysApart.plain (h : v.isPlain = true) : KeysApart v := by
  refine .intro (fun m es hv => ?_) (by simp [parts_of_plain h])
  subst hv
  cases h

/-- The entries of a table that has taken another turn are sorted to the same table, if there is
only one turn or its keys have different plain texts. -/
theorem sorted_table_turn {es ds fs : List (Value × Value)}
    (hkeys : List.Forall₂ KeyAlike (es.map Prod.fst) (ds.map Prod.fst)) (hperm : ds.Perm fs)
    (hapart : ds = fs ∨ (es.map fun e => e.1.plainText).Nodup) :
    sortedTable (canonicalEntries ds) = sortedTable (canonicalEntries fs) := by
  rcases hapart with rfl | hapart
  · rfl
  · have htexts : es.map (fun e => e.1.plainText) = ds.map fun d => d.1.plainText := by
      have h := map_eq_map_iff.mpr (hkeys.imp fun _ _ h => h.plain_text_eq)
      rwa [List.map_map, List.map_map] at h
    have hnodup : ((ds.map fun d => (d.1.plainText, d.2.canonical)).map Prod.fst).Nodup := by
      rw [List.map_map]
      exact htexts ▸ hapart
    rw [canonical_entries_eq, canonical_entries_eq, sortedTable, sortedTable,
      sort_entries_congr hnodup (hperm.map _)]

/-- The canonical forms of varied values are written alike, if tables take no turn or their keys
have different plain texts, and if sets are gone through in one order or there is a canonical form:
which fault comes first depends on that order. -/
theorem Varied.canonical_agree (horder : ∀ ys zs, order ys zs → ys.Perm zs)
    (hturn : ∀ ds fs, turn ds fs → ds.Perm fs) (h : Varied order turn v w)
    (hapart : (∀ ds fs, turn ds fs → ds = fs) ∨ v.KeysApart)
    (hok : (∀ ys zs, order ys zs → ys = zs) ∨ ∃ c, v.canonical = .ok c) :
    Agree Alike v.canonical w.canonical := by
  induction v using members_induction generalizing w with
  | step v ih =>
      have hpart : ∀ x ∈ v.parts, ∀ y, Varied order turn x y →
          Agree Alike x.canonical y.canonical :=
        fun x hx y hxy => ih x (parts_subset_members hx) hxy
          (hapart.imp_right fun ⟨_, hinside⟩ => hinside x hx)
          (hok.imp_right fun ⟨_, hc⟩ => ⟨_, canonical_of_mem_parts hc x hx⟩)
      have hlist : ∀ {xs ys : List Value}, v.parts = xs → List.Forall₂ (Varied order turn) xs ys →
          Agree (List.Forall₂ Alike) (canonicalList xs) (canonicalList ys) := fun hxs h =>
        canonical_list_agree (forall₂_imp_of_mem h fun x hx y _ => hpart x (hxs ▸ hx) y)
      have hvaried := h
      cases h with
      | same =>
          cases v.canonical with
          | ok c => exact .ok (.refl c)
          | error e => exact .error e
      | leaf h =>
          rw [canonical_of_plain h.plain.1, canonical_of_plain h.plain.2]
          exact .ok h.alike
      | sequence hv hw h =>
          rw [hv.canonical_eq, hw.canonical_eq]
          exact (hlist hv.parts_eq h).bind fun _ _ hxs => .ok (alike_list hxs)
      | @gathering _ w xs ys zs hv hw h hperm =>
          have hitems := hlist hv.parts_eq h
          rw [hv.canonical_eq] at hok
          rw [hv.canonical_eq, hw.canonical_eq]
          rcases hok with heq | ⟨c, hc⟩
          · rw [← heq ys zs hperm]
            exact hitems.bind fun _ _ hxs => sorted_elements_agree hxs (.refl _)
          · obtain ⟨cs, hcs, -⟩ := bind_eq_ok.mp hc
            obtain ⟨ds, hds, hxs⟩ := hitems.exists_of_ok hcs
            obtain ⟨es, hes, hdes⟩ := canonical_list_perm hds (horder _ _ hperm)
            rw [hcs, hes]
            exact sorted_elements_agree hxs hdes
      | @dict m n es ds fs hkeys hvalues hperm =>
          have htext : keysHaveText es = keysHaveText fs := by
            rw [keysHaveText, keysHaveText, ← (hturn _ _ hperm).all_eq]
            simpa using all_entries_eq (q := fun _ => true) hkeys hvalues
              (fun _ _ h => h.has_text_eq) fun _ _ _ _ => rfl
          have hentries : Agree Alike (sortedTable (canonicalEntries es))
              (sortedTable (canonicalEntries ds)) := by
            rw [canonical_entries_eq, canonical_entries_eq]
            exact sorted_table_agree (entrywise_plain_text hkeys
              (forall₂_imp_of_mem hvalues fun x hx y _ => hpart x hx y))
          have hsame := sorted_table_turn hkeys (hturn _ _ hperm)
            (hapart.imp (fun h => h _ _ hperm) fun ⟨hkeys, _⟩ => hkeys m es rfl)
          simp only [canonical, htext]
          split
          · rwa [← hsame]
          · exact .error _
      | @filed _ w fs gs hv hw h =>
          have hfields : Entrywise (fun x y => Agree Alike x.canonical y.canonical) fs gs :=
            h.imp fun f hf g _ => hpart _ (hv.parts_eq ▸ List.mem_map_of_mem hf) _
          rw [hv.canonical_eq, hw.canonical_eq]
          exact require_convertible_agree (hvaried.convertible_eq horder hturn)
            (sorted_table_agree (hfields.map id fun _ _ h => h))

/-- Values with canonical forms that are written alike have one text. -/
theorem form_text_eq_of_agree (h : Agree Alike v.canonical w.canonical) :
    v.formText = w.formText := by
  refine h.bind_eq fun c d hcd => ?_
  rw [hcd.has_text_eq, Json.write_eq_iff.mpr hcd.similar]

end Statechart.Value
