import Statechart.Proofs.Value.Varied

/-!
# Copies of what records hold

A copy of a value that shows no address looks like the value: `display_renamed`. So what stands in a
table for what a record holds does not show that it is a copy, nor which identities the copies got.
Read `canonical_text_of_steady` first.
-/

namespace Statechart.Value

variable {v : Value} {c : Copies} {g : Identity → Identity}

/-! ## What a copy shows -/

mutual

/-- A copy of what shows no address is shown in the same way. -/
theorem display_renamed (g : Identity → Identity) : ∀ v : Value, v.addressless = true →
    (v.renamed g).display = v.display
  | .list m xs, h => congrArg (fun items => "[" ++ ", ".intercalate items ++ "]")
      (display_renamed_list g xs h)
  | .tuple xs, h => congrArg tupleText (display_renamed_list g xs h)
  | .set m xs, h => congrArg setText (display_renamed_list g xs h)
  | .frozenSet xs, h => congrArg frozenSetText (display_renamed_list g xs h)
  | .dict m es, h => congrArg (fun items => "\x7b" ++ ", ".intercalate items ++ "\x7d")
      (display_renamed_entries g es h)
  | .view es, h => congrArg (fun items => "mappingproxy(\x7b" ++ ", ".intercalate items ++ "\x7d)")
      (display_renamed_entries g es h)
  | .record name fields, h =>
      congrArg (fun items => name ++ "(" ++ ", ".intercalate items ++ ")")
        (display_renamed_fields g fields h)
  | .named name params, h => by
      obtain ⟨hn, hp⟩ := Bool.and_eq_true_iff.mp h
      exact congrArg₂ (fun n p => "Named(name=" ++ n ++ ", params=" ++ p ++ ")")
        (display_renamed g name hn) (display_renamed g params hp)
  | .embedded factory name, h => by
      obtain ⟨hf, hn⟩ := Bool.and_eq_true_iff.mp h
      exact congrArg₂ (fun f n => "Embedded(factory=" ++ f ++ ", name=" ++ n ++ ")")
        (display_renamed g factory hf) (display_renamed g name hn)
  | .result u o, h => by
      obtain ⟨hu, ho⟩ := Bool.and_eq_true_iff.mp h
      exact congrArg₂ (fun u o => "ActionResult(updates=" ++ u ++ ", outputs=" ++ o ++ ")")
        (display_renamed g u hu) (display_renamed g o ho)
  | .state value configuration actions changed, h => by
      obtain ⟨hvc, ha⟩ := Bool.and_eq_true_iff.mp h
      obtain ⟨hv, hc⟩ := Bool.and_eq_true_iff.mp hvc
      have hvalue := display_renamed g value hv
      have hconfiguration := display_renamed g configuration hc
      have hactions := display_renamed g actions ha
      show "MachineState(value=" ++ _ ++ _ ++ _ ++ _ ++ _ ++ _ ++ _ ++ _ = _
      rw [hvalue, hconfiguration, hactions]
      rfl
  | .object m kind own shared, h => by
      simp only [addressless, Bool.and_eq_true, Bool.not_eq_true', Bool.or_eq_true] at h
      obtain ⟨haddress, hown⟩ := h
      refine ObjectClass.text_congr (by simp [haddress]) fun hshown => ?_
      rcases hown with hhidden | hown
      · simp [hshown] at hhidden
      · rw [display_renamed_fields g own hown]
  | .null, _ | .bool _, _ | .int _, _ | .float _, _ | .text _, _ | .bytes _, _
  | .callable .., _ | .builtin _, _ => rfl

/-- Copies of the values of a list are shown in the same way. -/
theorem display_renamed_list (g : Identity → Identity) : ∀ xs : List Value,
    allAddressless xs = true → displayList (renamedList g xs) = displayList xs
  | [], _ => rfl
  | x :: xs, h => by
      obtain ⟨hx, hxs⟩ := Bool.and_eq_true_iff.mp h
      exact congrArg₂ List.cons (display_renamed g x hx) (display_renamed_list g xs hxs)

/-- Copies of entries are shown in the same way. -/
theorem display_renamed_entries (g : Identity → Identity) : ∀ es : List (Value × Value),
    entriesAddressless es = true → displayEntries (renamedEntries g es) = displayEntries es
  | [], _ => rfl
  | (k, v) :: es, h => by
      obtain ⟨hkv, hes⟩ := Bool.and_eq_true_iff.mp h
      obtain ⟨hk, hv⟩ := Bool.and_eq_true_iff.mp hkv
      exact congrArg₂ List.cons (congrArg₂ (fun k v => k ++ ": " ++ v) (display_renamed g k hk)
        (display_renamed g v hv)) (display_renamed_entries g es hes)

/-- Copies of fields are shown in the same way. -/
theorem display_renamed_fields (g : Identity → Identity) : ∀ fs : List (String × Value),
    fieldsAddressless fs = true → displayFields (renamedFields g fs) = displayFields fs
  | [], _ => rfl
  | (n, v) :: fs, h => by
      obtain ⟨hv, hfs⟩ := Bool.and_eq_true_iff.mp h
      exact congrArg₂ List.cons (congrArg (fun v => n ++ "=" ++ v) (display_renamed g v hv))
        (display_renamed_fields g fs hfs)

end

mutual

/-- A copy has a text when the value has one. -/
theorem has_text_renamed (g : Identity → Identity) : ∀ v : Value,
    (v.renamed g).hasText = v.hasText
  | .list _ xs => has_text_renamed_list g xs
  | .tuple xs => has_text_renamed_list g xs
  | .set _ xs => has_text_renamed_list g xs
  | .frozenSet xs => has_text_renamed_list g xs
  | .dict _ es => has_text_renamed_entries g es
  | .view es => has_text_renamed_entries g es
  | .record _ fields => has_text_renamed_fields g fields
  | .named name params =>
      congrArg₂ and (has_text_renamed g name) (has_text_renamed g params)
  | .embedded factory name =>
      congrArg₂ and (has_text_renamed g factory) (has_text_renamed g name)
  | .result u o => congrArg₂ and (has_text_renamed g u) (has_text_renamed g o)
  | .state value configuration actions _ =>
      congrArg₂ and (congrArg₂ and (has_text_renamed g value) (has_text_renamed g configuration))
        (has_text_renamed g actions)
  | .object _ kind own _ =>
      congrArg (or !kind.showsAttributes) (has_text_renamed_fields g own)
  | .null | .bool _ | .int _ | .float _ | .text _ | .bytes _ | .callable .. | .builtin _ => rfl

/-- Copies of the values of a list have texts when the values have. -/
theorem has_text_renamed_list (g : Identity → Identity) : ∀ xs : List Value,
    allHaveText (renamedList g xs) = allHaveText xs
  | [] => rfl
  | x :: xs => congrArg₂ and (has_text_renamed g x) (has_text_renamed_list g xs)

/-- Copies of entries have texts when the entries have. -/
theorem has_text_renamed_entries (g : Identity → Identity) : ∀ es : List (Value × Value),
    entriesHaveText (renamedEntries g es) = entriesHaveText es
  | [] => rfl
  | (k, v) :: es =>
      congrArg₂ and (congrArg₂ and (has_text_renamed g k) (has_text_renamed g v))
        (has_text_renamed_entries g es)

/-- Copies of fields have texts when the fields have. -/
theorem has_text_renamed_fields (g : Identity → Identity) : ∀ fs : List (String × Value),
    fieldsHaveText (renamedFields g fs) = fieldsHaveText fs
  | [] => rfl
  | (_, v) :: fs => congrArg₂ and (has_text_renamed g v) (has_text_renamed_fields g fs)

end

mutual

/-- A copy is a tuple that holds a record when the value is one. -/
theorem holds_record_renamed (g : Identity → Identity) : ∀ v : Value,
    (v.renamed g).holdsRecord = v.holdsRecord
  | .tuple xs => any_holds_record_renamed g xs
  | .result u o => congrArg₂ or (holds_record_renamed g u) (holds_record_renamed g o)
  | .null | .bool _ | .int _ | .float _ | .text _ | .bytes _ | .list .. | .set .. | .frozenSet _
  | .dict .. | .view _ | .record .. | .named .. | .embedded .. | .state .. | .object ..
  | .callable .. | .builtin _ => rfl

theorem any_holds_record_renamed (g : Identity → Identity) : ∀ xs : List Value,
    anyHoldsRecord (renamedList g xs) = anyHoldsRecord xs
  | [] => rfl
  | x :: xs => congrArg₂ or (holds_record_renamed g x) (any_holds_record_renamed g xs)

end

mutual

/-- A copy can be copied when the value can. -/
theorem copiable_renamed (g : Identity → Identity) : ∀ v : Value,
    (v.renamed g).copiable = v.copiable
  | .list _ xs => all_copiable_renamed g xs
  | .tuple xs => all_copiable_renamed g xs
  | .set _ xs => all_copiable_renamed g xs
  | .frozenSet xs => all_copiable_renamed g xs
  | .dict _ es => entries_copiable_renamed g es
  | .record _ fields => fields_copiable_renamed g fields
  | .named name params =>
      congrArg₂ and (copiable_renamed g name) (copiable_renamed g params)
  | .embedded factory name =>
      congrArg₂ and (copiable_renamed g factory) (copiable_renamed g name)
  | .result u o => congrArg₂ and (copiable_renamed g u) (copiable_renamed g o)
  | .state value configuration actions _ =>
      congrArg₂ and (congrArg₂ and (copiable_renamed g value) (copiable_renamed g configuration))
        (copiable_renamed g actions)
  | .object _ _ own _ => fields_copiable_renamed g own
  | .null | .bool _ | .int _ | .float _ | .text _ | .bytes _ | .view _ | .callable ..
  | .builtin _ => rfl

/-- Copies of the values of a list can be copied when the values can. -/
theorem all_copiable_renamed (g : Identity → Identity) : ∀ xs : List Value,
    allCopiable (renamedList g xs) = allCopiable xs
  | [] => rfl
  | x :: xs => congrArg₂ and (copiable_renamed g x) (all_copiable_renamed g xs)

/-- Copies of entries can be copied when the entries can. -/
theorem entries_copiable_renamed (g : Identity → Identity) : ∀ es : List (Value × Value),
    entriesCopiable (renamedEntries g es) = entriesCopiable es
  | [] => rfl
  | (k, v) :: es =>
      congrArg₂ and (congrArg₂ and (copiable_renamed g k) (copiable_renamed g v))
        (entries_copiable_renamed g es)

/-- Copies of fields can be copied when the fields can. -/
theorem fields_copiable_renamed (g : Identity → Identity) : ∀ fs : List (String × Value),
    fieldsCopiable (renamedFields g fs) = fieldsCopiable fs
  | [] => rfl
  | (_, v) :: fs => congrArg₂ and (copiable_renamed g v) (fields_copiable_renamed g fs)

end

mutual

/-- A copy shows no address when the value shows none. -/
theorem addressless_renamed (g : Identity → Identity) : ∀ v : Value,
    (v.renamed g).addressless = v.addressless
  | .list _ xs => all_addressless_renamed g xs
  | .tuple xs => all_addressless_renamed g xs
  | .set _ xs => all_addressless_renamed g xs
  | .frozenSet xs => all_addressless_renamed g xs
  | .dict _ es => entries_addressless_renamed g es
  | .view es => entries_addressless_renamed g es
  | .record _ fields => fields_addressless_renamed g fields
  | .named name params =>
      congrArg₂ and (addressless_renamed g name) (addressless_renamed g params)
  | .embedded factory name =>
      congrArg₂ and (addressless_renamed g factory) (addressless_renamed g name)
  | .result u o => congrArg₂ and (addressless_renamed g u) (addressless_renamed g o)
  | .state value configuration actions _ =>
      congrArg₂ and
        (congrArg₂ and (addressless_renamed g value) (addressless_renamed g configuration))
        (addressless_renamed g actions)
  | .object _ kind own _ =>
      congrArg (fun shown => !kind.showsAddress && (!kind.showsAttributes || shown))
        (fields_addressless_renamed g own)
  | .null | .bool _ | .int _ | .float _ | .text _ | .bytes _ | .callable .. | .builtin _ => rfl

/-- Copies of the values of a list show no address when the values show none. -/
theorem all_addressless_renamed (g : Identity → Identity) : ∀ xs : List Value,
    allAddressless (renamedList g xs) = allAddressless xs
  | [] => rfl
  | x :: xs => congrArg₂ and (addressless_renamed g x) (all_addressless_renamed g xs)

/-- Copies of entries show no address when the entries show none. -/
theorem entries_addressless_renamed (g : Identity → Identity) : ∀ es : List (Value × Value),
    entriesAddressless (renamedEntries g es) = entriesAddressless es
  | [] => rfl
  | (k, v) :: es =>
      congrArg₂ and (congrArg₂ and (addressless_renamed g k) (addressless_renamed g v))
        (entries_addressless_renamed g es)

/-- Copies of fields show no address when the fields show none. -/
theorem fields_addressless_renamed (g : Identity → Identity) : ∀ fs : List (String × Value),
    fieldsAddressless (renamedFields g fs) = fieldsAddressless fs
  | [] => rfl
  | (_, v) :: fs => congrArg₂ and (addressless_renamed g v) (fields_addressless_renamed g fs)

end

theorem plain_text_renamed (g : Identity → Identity) (h : v.addressless = true) :
    (v.renamed g).plainText = v.plainText := by
  cases v with
  | text s => rfl
  | view es => exact display_renamed g (.newTable es) h
  | _ => exact display_renamed g _ h

/-- A key that shows no address can be copied and still looks the same. -/
theorem key_alike_renamed (g : Identity → Identity) (h : v.addressless = true) :
    KeyAlike v (v.renamed g) :=
  ⟨(plain_text_renamed g h).symm, (has_text_renamed g v).symm, (copiable_renamed g v).symm,
    (holds_record_renamed g v).symm, (addressless_renamed g v).symm⟩

/-- A value that is no container is copied to one that is written alike. -/
theorem leaf_renamed (g : Identity → Identity) (hplain : v.isPlain = true)
    (h : v.addressless = true) : Leaf v (v.renamed g) := by
  have htext := has_text_renamed g v
  have hshown := display_renamed g v h
  have hcopiable := copiable_renamed g v
  have haddressless := addressless_renamed g v
  cases v with
  | list | tuple | set | frozenSet | dict | record | named | embedded | result | state =>
      cases hplain
  | view es =>
      refine ⟨⟨rfl, rfl⟩, ⟨htext.symm, ?_⟩, hcopiable.symm, hcopiable.symm, haddressless.symm⟩
      show Json.Similar (.str (display _)) (.str (display _))
      rw [hshown]
      exact .same _
  | object m kind own shared =>
      refine ⟨⟨rfl, rfl⟩, ⟨htext.symm, ?_⟩, hcopiable.symm, hcopiable.symm, haddressless.symm⟩
      show Json.Similar (.str (display _)) (.str (display _))
      rw [hshown]
      exact .same _
  | _ => exact ⟨⟨rfl, rfl⟩, .refl _, rfl, rfl, rfl⟩

/-! ## What stands for what records hold -/

variable {xs : List Value} {fs : List (String × Value)}

theorem Sequence.held (h : Sequence v xs) (c : Copies) :
    Sequence (v.held c) (heldList c xs) := by
  cases h with
  | list m xs => exact .list _ _
  | tuple xs => exact .tuple _
  | result u o => exact .result _ _

theorem Sequence.renewed (h : Sequence v xs) (c : Copies) :
    Sequence (v.renewed c) (renewedList c xs) := by
  cases h with
  | list m xs => exact .list _ _
  | tuple xs => exact .tuple _
  | result u o => exact .result _ _

theorem Gathering.held (h : Gathering v xs) (c : Copies) :
    Gathering (v.held c) (heldList c xs) := by
  cases h with
  | set m xs => exact .set _ _
  | frozenSet xs => exact .frozenSet _

theorem Gathering.renewed (h : Gathering v xs) (c : Copies) :
    Gathering (v.renewed c) (renewedList c xs) := by
  cases h with
  | set m xs => exact .set _ _
  | frozenSet xs => exact .frozenSet _

theorem Filed.held (h : Filed v fs) (c : Copies) : Filed (v.held c) (heldFields c fs) := by
  cases h with
  | record name fields => exact .record _ _
  | named name params => exact .named _ _
  | embedded factory name => exact .embedded _ _
  | state value configuration actions changed => exact .state _ _ _ _

/-- All that a record holds is copied. -/
theorem Filed.renewed (h : Filed v fs) (c : Copies) : Filed (v.renewed c) (heldFields c fs) := by
  cases h with
  | record name fields => exact .record _ _
  | named name params => exact .named _ _
  | embedded factory name => exact .embedded _ _
  | state value configuration actions changed => exact .state _ _ _ _

theorem held_of_plain (h : v.isPlain = true) (c : Copies) : v.held c = v.renamed c.here := by
  cases v with
  | list | tuple | set | frozenSet | dict | record | named | embedded | result | state => cases h
  | _ => rfl

theorem renewed_of_plain (h : v.isPlain = true) (c : Copies) : v.renewed c = v := by
  cases v with
  | list | tuple | set | frozenSet | dict | record | named | embedded | result | state => cases h
  | _ => rfl

theorem all_values {α : Type} {p : Value → Bool} {es : List (α × Value)} :
    (es.all fun e => p e.2) = true ↔ ∀ x ∈ es.map Prod.snd, p x = true := by
  rw [List.all_eq_true, List.forall_mem_map]

variable {R : Value → Value → Prop} {es : List (Value × Value)}

theorem forall₂_held_list (h : ∀ x ∈ xs, ∀ c, R x (x.held c)) (c : Copies) :
    List.Forall₂ R xs (heldList c xs) := by
  induction xs generalizing c with
  | nil => exact .nil
  | cons x xs ih =>
      obtain ⟨hx, hxs⟩ := List.forall_mem_cons.mp h
      exact .cons (hx _) (ih hxs _)

theorem forall₂_renewed_list (h : ∀ x ∈ xs, ∀ c, R x (x.renewed c)) (c : Copies) :
    List.Forall₂ R xs (renewedList c xs) := by
  induction xs generalizing c with
  | nil => exact .nil
  | cons x xs ih =>
      obtain ⟨hx, hxs⟩ := List.forall_mem_cons.mp h
      exact .cons (hx _) (ih hxs _)

theorem forall₂_held_keys (h : ∀ e ∈ es, ∀ g, R e.1 (e.1.renamed g)) (c : Copies) :
    List.Forall₂ R (es.map Prod.fst) ((heldEntries c es).map Prod.fst) := by
  induction es generalizing c with
  | nil => exact .nil
  | cons e es ih =>
      obtain ⟨he, hes⟩ := List.forall_mem_cons.mp h
      exact .cons (he _) (ih hes _)

theorem forall₂_held_values (h : ∀ x ∈ es.map Prod.snd, ∀ c, R x (x.held c)) (c : Copies) :
    List.Forall₂ R (es.map Prod.snd) ((heldEntries c es).map Prod.snd) := by
  induction es generalizing c with
  | nil => exact .nil
  | cons e es ih =>
      obtain ⟨he, hes⟩ := List.forall_mem_cons.mp h
      exact .cons (he _) (ih hes _)

theorem renewed_entries_keys (c : Copies) (es : List (Value × Value)) :
    (renewedEntries c es).map Prod.fst = es.map Prod.fst := by
  induction es generalizing c with
  | nil => rfl
  | cons e es ih => exact congrArg (List.cons e.1) (ih c.rest)

theorem forall₂_renewed_values (h : ∀ x ∈ es.map Prod.snd, ∀ c, R x (x.renewed c)) (c : Copies) :
    List.Forall₂ R (es.map Prod.snd) ((renewedEntries c es).map Prod.snd) := by
  induction es generalizing c with
  | nil => exact .nil
  | cons e es ih =>
      obtain ⟨he, hes⟩ := List.forall_mem_cons.mp h
      exact .cons (he _) (ih hes _)

theorem entrywise_held_fields (h : ∀ x ∈ fs.map Prod.snd, ∀ c, R x (x.held c)) (c : Copies) :
    Entrywise R fs (heldFields c fs) := by
  induction fs generalizing c with
  | nil => exact .nil
  | cons f fs ih =>
      obtain ⟨hf, hfs⟩ := List.forall_mem_cons.mp h
      exact .cons (hf _) (ih hfs _)

/-- What stands for a value that shows no address differs from it in what does not count. -/
theorem varied_held (h : v.addressless = true) (c : Copies) : Varied Eq Eq v (v.held c) := by
  induction v using members_induction generalizing c with
  | step v ih =>
      cases v.shape with
      | sequence hv =>
          rw [hv.addressless_eq, List.all_eq_true] at h
          exact .sequence hv (hv.held c)
            (forall₂_held_list (fun x hx => ih x (hv.members_eq ▸ hx) (h x hx)) c)
      | gathering hv =>
          rw [hv.addressless_eq, List.all_eq_true] at h
          exact .gathering hv (hv.held c)
            (forall₂_held_list (fun x hx => ih x (hv.members_eq ▸ hx) (h x hx)) c) rfl
      | dict m es =>
          have hall : entriesAddressless es = true := h
          rw [entries_addressless_eq, all_entries, Bool.and_eq_true_iff] at hall
          obtain ⟨hkeys, hvalues⟩ := hall
          rw [List.all_map, List.all_eq_true] at hkeys
          rw [List.all_eq_true] at hvalues
          exact .dict
            (forall₂_held_keys (fun e he g => key_alike_renamed g (hkeys e he)) c)
            (forall₂_held_values (fun x hx => ih x hx (hvalues x hx)) c) rfl
      | filed hv =>
          rw [hv.addressless_eq, all_values] at h
          exact .filed hv (hv.held c)
            (entrywise_held_fields (fun x hx => ih x (hv.members_eq ▸ hx) (h x hx)) c)
      | plain hv =>
          rw [held_of_plain hv]
          exact .leaf (leaf_renamed _ hv h)

/-- Copies in place of what the records in a steady value hold make no difference that counts. -/
theorem varied_renewed (h : v.steady = true) (c : Copies) : Varied Eq Eq v (v.renewed c) := by
  induction v using members_induction generalizing c with
  | step v ih =>
      cases v.shape with
      | sequence hv =>
          rw [hv.steady_eq, List.all_eq_true] at h
          exact .sequence hv (hv.renewed c)
            (forall₂_renewed_list (fun x hx => ih x (hv.members_eq ▸ hx) (h x hx)) c)
      | gathering hv =>
          rw [hv.steady_eq, List.all_eq_true] at h
          exact .gathering hv (hv.renewed c)
            (forall₂_renewed_list (fun x hx => ih x (hv.members_eq ▸ hx) (h x hx)) c) rfl
      | dict m es =>
          have hall : entriesSteady es = true := h
          rw [entries_steady_eq, all_values] at hall
          refine .dict ?_
            (forall₂_renewed_values (fun x hx => ih x hx (hall x hx)) c) rfl
          rw [renewed_entries_keys]
          exact List.forall₂_same.mpr fun k _ => .refl k
      | filed hv =>
          rw [hv.steady_eq, hv.addressless_eq, all_values] at h
          exact .filed hv (hv.renewed c)
            (entrywise_held_fields (fun x hx => varied_held (h x hx)) c)
      | plain hv =>
          rw [renewed_of_plain hv]
          exact .same v

/-- The canonical text of a steady value does not depend on the identities of copies. -/
theorem canonical_text_of_steady (h : v.steady = true) (c : Copies) :
    v.canonicalText c = v.formText :=
  (form_text_eq_of_agree ((varied_renewed h c).canonical_agree (by simp) (by simp)
    (.inl (by simp)) (.inl (by simp)))).symm

/-! ## A record with a thing that shows its address -/

/-- Lamps, which show where they are. -/
def lampClass : ObjectClass :=
  ⟨"Lamp", [.words "<Lamp at ", .address, .words ">"], false⟩

/-- A lamp with an identity. -/
def lamp (i : Identity) : Value :=
  .object (some i) lampClass [] []

/-- A room with something in it. -/
def room (content : Value) : Value :=
  .record "Room" [("content", content)]

/-- The canonical form of a room with a lamp that has an identity. -/
def roomForm (i : Identity) : Value :=
  table [("content", newList [lamp i])]

/-- Copies that all have one identity. -/
def copiesAt (i : Identity) : Copies :=
  fun _ _ => i

/-- The lamp in the canonical form of a room is a copy. -/
theorem canonicalized_room {i : Identity} (h : Sequence v [lamp i]) (c : Copies) :
    (room v).canonicalized c = .ok (roomForm (c.first.first.here i)) := by
  have hheld := h.held c.first
  have hcontent : (v.held c.first).canonical = .ok (newList [lamp (c.first.first.here i)]) := by
    rw [hheld.canonical_eq]
    rfl
  have hconvertible : fieldsConvertible [("content", v.held c.first)] = true := by
    rw [fields_convertible_eq, List.all_cons, hheld.convertible_eq]
    rfl
  show requireConvertible (fieldsConvertible [("content", v.held c.first)])
    (sortedTable [("content", (v.held c.first).canonical)]) = _
  rw [hconvertible, hcontent]
  simp [requireConvertible, sortedTable, sortEntries, makeEntries, lastOfRuns, roomForm]

/-- The canonical text of a room shows the identity of the copy. -/
theorem canonical_text_room {i : Identity} (h : Sequence v [lamp i]) (c : Copies) :
    (room v).canonicalText c =
      .ok ((roomForm (c.first.first.here i)).toJson.write Json.compact) := by
  rw [canonicalText, formText, ← canonicalized, canonicalized_room h]
  rfl

theorem room_texts_differ : (roomForm ⟨0, 0, 1⟩).toJson.write Json.compact ≠
    (roomForm ⟨0, 0, 2⟩).toJson.write Json.compact := by
  decide +kernel

end Statechart.Value
