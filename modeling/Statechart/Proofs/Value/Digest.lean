import Statechart.Proofs.Value.Canonical
import Statechart.Replay

/-!
# Digests of JSON values

`IsJson` singles out the values that JSON has a form for. The canonical text of such a value
determines it up to the order of table entries, and the digest does so up to collisions of the hash:
`canonical_text_eq_iff_reordered`. Only a whole number of more than 4300 digits keeps a value from
having a text, as `long_number_has_no_text` shows.
-/

namespace Statechart

/-! ## Hexadecimal text -/

namespace Text

theorem length_hex_digits (w n : Nat) : (hexDigits w n).length = w := by
  induction w generalizing n with
  | zero => rfl
  | succ w ih => simp [hexDigits, ih]

/-- A number is determined by its hexadecimal digits. -/
theorem hex_digits_inj {w m n : Nat} (hm : m < 16 ^ w) (hn : n < 16 ^ w)
    (h : hexDigits w m = hexDigits w n) : m = n := by
  induction w generalizing m n with
  | zero =>
      rw [Nat.pow_zero] at hm hn
      omega
  | succ w ih =>
      have hdigit : ∀ a < 16, ∀ b < 16, Nat.digitChar a = Nat.digitChar b → a = b := by decide
      obtain ⟨hhigh, hlow⟩ := List.append_inj h (by simp [length_hex_digits])
      have hlow : m % 16 = n % 16 :=
        hdigit _ (Nat.mod_lt _ (by decide)) _ (Nat.mod_lt _ (by decide)) (List.cons.inj hlow).1
      have hhigh : m / 16 = n / 16 :=
        ih (Nat.div_lt_of_lt_mul (by rwa [Nat.pow_succ'] at hm))
          (Nat.div_lt_of_lt_mul (by rwa [Nat.pow_succ'] at hn)) hhigh
      omega

/-- Bytes are determined by their hexadecimal text. -/
theorem hex_bytes_inj {as bs : List UInt8}
    (h : (as.flatMap fun b => hexDigits 2 b.toNat) = bs.flatMap fun b => hexDigits 2 b.toNat) :
    as = bs := by
  induction as generalizing bs with
  | nil =>
      cases bs with
      | nil => rfl
      | cons b bs => cases h
  | cons a as ih =>
      cases bs with
      | nil => cases h
      | cons b bs =>
          rw [List.flatMap_cons, List.flatMap_cons] at h
          obtain ⟨hhead, htail⟩ := List.append_inj h (by simp only [length_hex_digits])
          rw [UInt8.toNat_inj.mp (hex_digits_inj a.toNat_lt b.toNat_lt hhead), ih htail]

end Text

/-- Two messages with one hash. -/
def Sha256.Collision (a b : List UInt8) : Prop :=
  a ≠ b ∧ hash a = hash b

namespace Value

theorem utf8_inj {s t : String} (h : utf8 s = utf8 t) : s = t :=
  String.toByteArray_inj.mp (ByteArray.ext (Array.toList_inj.mp h))

/-! ## Values that JSON has a form for -/

/-- Null, truth values, numbers, texts, and lists and tables with text keys of such values. -/
inductive IsJson : Value → Prop where
  | null : IsJson .null
  | bool (b : Bool) : IsJson (.bool b)
  | int (i : Int) : IsJson (.int i)
  | float (x : Binary64) : IsJson (.float x)
  | text (s : String) : IsJson (.text s)
  | list {m : Mark} {xs : List Value} (h : ∀ x ∈ xs, IsJson x) : IsJson (.list m xs)
  | dict {m : Mark} {es : List (String × Value)} (hkeys : (es.map Prod.fst).Nodup)
      (h : ∀ e ∈ es, IsJson e.2) : IsJson (.dict m (es.map fun e => (.text e.1, e.2)))

variable {m : Mark} {v w : Value} {xs : List Value} {es : List (String × Value)}

/-- No value of JSON holds a record. -/
theorem IsJson.steady (h : v.IsJson) : v.steady = true := by
  induction h with
  | @list m xs _ ih =>
      rw [Value.steady, all_steady_eq, List.all_eq_true]
      exact ih
  | @dict m es _ _ ih =>
      rw [Value.steady, entries_steady_eq, List.all_map, List.all_eq_true]
      exact ih
  | _ => rfl

/-- Text keys are their own plain texts. -/
theorem IsJson.keysApart (h : v.IsJson) : v.KeysApart := by
  induction h with
  | list _ ih => exact .list ih
  | dict hkeys _ ih =>
      refine .dict ?_ (List.forall_mem_map.mpr ih)
      rw [List.map_map]
      exact hkeys
  | _ => exact .plain rfl

theorem make_entries_eq_ok (f : Value → Value) (es : List (String × Value)) :
    makeEntries (es.map fun e => (e.1, .ok (f e.2))) = .ok (es.map fun e => (e.1, f e.2)) := by
  induction es with
  | nil => rfl
  | cons e es ih => simp [makeEntries, ih]

/-- Where no key is repeated, all entries are kept. -/
theorem last_of_runs_eq_self (hkeys : (es.map Prod.fst).Nodup) : lastOfRuns es = es := by
  induction es with
  | nil => rfl
  | cons e es ih =>
      obtain ⟨hne, hkeys⟩ := List.nodup_cons.mp hkeys
      cases es with
      | nil => rfl
      | cons d es =>
          have hed : e.1 ≠ d.1 := fun hed => hne (hed ▸ List.mem_cons_self)
          rw [lastOfRuns, if_neg hed, ih hkeys]

theorem canonical_dict_eq_ok (hkeys : (es.map Prod.fst).Nodup)
    (h : ∀ e ∈ es, e.2.canonical = .ok e.2.form) :
    (dict m (es.map fun e => (.text e.1, e.2))).canonical =
      .ok (table ((sortEntries es).map fun e => (e.1, e.2.form))) := by
  have htext : keysHaveText (es.map fun e => (text e.1, e.2)) = true := by
    simp [keysHaveText, hasText]
  have hentries : canonicalEntries (es.map fun e => (text e.1, e.2)) =
      es.map fun e => (e.1, .ok e.2.form) := by
    rw [canonical_entries_eq, List.map_map]
    exact List.map_congr_left fun e he => Prod.ext rfl (h e he)
  -- No key is repeated, so sorting is all that happens to the entries.
  have hsorted : (((sortEntries es).map fun e => (e.1, e.2.form)).map Prod.fst).Nodup := by
    rw [List.map_map]
    exact ((sort_entries_perm es).map Prod.fst).nodup_iff.mpr hkeys
  rw [canonical, if_pos htext, hentries, sortedTable,
    sort_entries_map (fun v => Except.ok (form v)), make_entries_eq_ok form, ok_bind,
    last_of_runs_eq_self hsorted, pure_eq_ok]

/-- A value of JSON has a canonical form. -/
theorem IsJson.canonical_eq (h : v.IsJson) : v.canonical = .ok v.form := by
  induction h with
  | list _ ih =>
      have hlist := canonical_list_eq_ok ih
      rw [form, canonical, hlist]
      rfl
  | dict hkeys _ ih => rw [form, canonical_dict_eq_ok hkeys ih]; rfl
  | _ => rfl

theorem form_list (h : ∀ x ∈ xs, x.IsJson) : (list m xs).form = newList (xs.map form) := by
  refine form_eq ?_
  rw [canonical, canonical_list_eq_ok fun x hx => (h x hx).canonical_eq]
  rfl

theorem form_dict (hkeys : (es.map Prod.fst).Nodup) (h : ∀ e ∈ es, e.2.IsJson) :
    (dict m (es.map fun e => (.text e.1, e.2))).form =
      table ((sortEntries es).map fun e => (e.1, e.2.form)) :=
  form_eq (canonical_dict_eq_ok hkeys fun e he => (h e he).canonical_eq)

/-- The canonical form has a text when the value has one. -/
theorem IsJson.has_text_form (h : v.IsJson) : v.form.hasText = v.hasText := by
  induction h with
  | @list m xs h ih =>
      have hitems : List.Forall₂ (fun c x => hasText c = hasText x) (xs.map form) xs :=
        List.forall₂_map_left_iff.mpr (List.forall₂_same.mpr ih)
      rw [form_list h]
      simp only [newList, hasText, all_have_text_eq]
      exact all_eq_of_forall₂ hitems fun _ _ _ h => h
  | @dict m es hkeys h ih =>
      calc (Value.dict m (es.map fun e => (Value.text e.1, e.2))).form.hasText
        _ = ((sortEntries es).all fun e => e.2.form.hasText) := by
            rw [form_dict hkeys h, has_text_table, List.all_map]
            rfl
        _ = (es.all fun e => e.2.form.hasText) := (sort_entries_perm es).all_eq
        _ = (es.all fun e => e.2.hasText) :=
            all_eq_of_forall₂ (List.forall₂_same.mpr ih) fun _ _ _ h => h
        _ = (table es).hasText := (has_text_table es).symm
  | _ => rfl

/-- The canonical text of a value of JSON is that of its canonical form. -/
theorem IsJson.canonical_text_eq (h : v.IsJson) (c : Copies) : v.canonicalText c =
    if v.hasText then .ok (v.form.toJson.write Json.compact) else .error (.fault .wrongLength) := by
  rw [canonical_text_of_steady h.steady, formText, h.canonical_eq, ok_bind, h.has_text_form]
  rfl

/-! ## Values with one canonical text -/

/-- A value of JSON with the JSON of its canonical form, one level at a time. -/
inductive HasForm : Value → Json → Prop where
  | null : HasForm .null .null
  | bool (b : Bool) : HasForm (.bool b) (.bool b)
  | int (i : Int) : HasForm (.int i) (.int i)
  | float (x : Binary64) : HasForm (.float x) (.float x)
  | text (s : String) : HasForm (.text s) (.str s)
  | list {m : Mark} {xs : List Value} (h : ∀ x ∈ xs, IsJson x) :
      HasForm (.list m xs) (.arr (xs.map fun x => x.form.toJson))
  | dict {m : Mark} {es : List (String × Value)} (h : ∀ e ∈ es, IsJson e.2) :
      HasForm (.dict m (es.map fun e => (.text e.1, e.2)))
        (.obj ((sortEntries es).map fun e => (e.1, e.2.form.toJson)))

theorem IsJson.hasForm (h : v.IsJson) : v.HasForm v.form.toJson := by
  cases h with
  | null => exact .null
  | bool b => exact .bool b
  | int i => exact .int i
  | float x => exact .float x
  | text s => exact .text s
  | list h =>
      rw [form_list h, newList, toJson, to_json_list_eq, List.map_map]
      exact .list h
  | dict hkeys h =>
      rw [form_dict hkeys h, to_json_table, List.map_map]
      exact .dict h

/-- Values of JSON whose canonical forms are written alike are the same up to the order of
entries. -/
theorem reordered_of_similar {x y : Json} (hv : v.HasForm x) (hw : w.HasForm y)
    (h : Json.Similar x y) : v.Reordered w := by
  induction v using members_induction generalizing w x y with
  | step v ih =>
      cases hv with
      | null =>
          cases h
          cases hw
          exact .same _
      | bool b =>
          cases h
          cases hw
          exact .same _
      | int i =>
          cases h
          cases hw
          exact .same _
      | text s =>
          cases h
          cases hw
          exact .same _
      | float x =>
          cases h with
          | same =>
              cases hw
              exact .same _
          | float h =>
              cases hw
              exact .float (Binary64.chars_display_iff.mpr h)
      | list hxs =>
          obtain ⟨js, rfl, hjs⟩ := h.exists_items
          cases hw with
          | list hys =>
              rw [List.forall₂_map_left_iff, List.forall₂_map_right_iff] at hjs
              exact .list (forall₂_imp_of_mem hjs fun x hx y hy hxy =>
                ih x hx (hxs x hx).hasForm (hys y hy).hasForm hxy)
      | @dict m es hes =>
          obtain ⟨ms, rfl, hms⟩ := h.exists_members
          cases hw with
          | @dict n ds hds =>
              have hsorted : Entrywise Reordered (sortEntries es) (sortEntries ds) := by
                refine (Entrywise.map_iff (f := fun v => toJson (form v))
                  (g := fun v => toJson (form v)).mp hms).imp fun e he d hd hed => ?_
                have he : e ∈ es := (sort_entries_perm es).mem_iff.mp he
                have hd : d ∈ ds := (sort_entries_perm ds).mem_iff.mp hd
                have hmem : e.2 ∈ (dict m (es.map fun e => (text e.1, e.2))).members := by
                  simp only [members, parts, List.map_map]
                  exact List.mem_map_of_mem he
                exact ih e.2 hmem (hes e he).hasForm (hds d hd).hasForm hed
              -- The entries of `v`, as stored, are related to some order of those of `w`.
              obtain ⟨fs, hfs, hperm⟩ := hsorted.perm (sort_entries_perm es).symm
              exact .dict (hfs.map text fun _ _ h => h)
                ((hperm.trans (sort_entries_perm ds)).map _)

/-- Two values of JSON have canonical forms that are written alike exactly when they are the same up
to the order of entries. -/
theorem similar_form_iff (hv : v.IsJson) (hw : w.IsJson) :
    Json.Similar v.form.toJson w.form.toJson ↔ v.Reordered w := by
  constructor
  · exact reordered_of_similar hv.hasForm hw.hasForm
  -- Text keys that differ have different plain texts, so the forms of `v` and `w` are alike.
  · intro h
    have hagree := canonical_agree h hv.keysApart
    rw [hv.canonical_eq, hw.canonical_eq] at hagree
    cases hagree with
    | ok h => exact h.similar

/-- Lists are the same up to the order of entries when their items are. -/
theorem reordered_new_list_iff {xs ys : List Value} :
    (newList xs).Reordered (newList ys) ↔ List.Forall₂ Reordered xs ys := by
  constructor
  · intro h
    cases h with
    | same => exact List.forall₂_same.mpr fun x _ => .same x
    | list h => exact h
  · exact .list

/-! ## Digests -/

/-- The hash of a text, in hexadecimal. -/
def hashText (s : String) : String :=
  String.ofList ((Sha256.hash (utf8 s)).flatMap fun b => Text.hexDigits 2 b.toNat)

theorem digest_eq {c : Copies} {s : String} (h : v.canonicalText c = .ok s) :
    v.digest c = .ok (hashText s) := by
  rw [digest, h]
  rfl

/-- Two texts have the same hash when they are equal or collide. -/
theorem hash_text_eq_iff {s t : String} :
    hashText s = hashText t ↔ s = t ∨ Sha256.Collision (utf8 s) (utf8 t) := by
  constructor
  · intro h
    have hhash : Sha256.hash (utf8 s) = Sha256.hash (utf8 t) :=
      Text.hex_bytes_inj (String.ofList_injective h)
    by_cases hst : s = t
    · exact Or.inl hst
    · exact Or.inr ⟨fun h => hst (utf8_inj h), hhash⟩
  · rintro (rfl | ⟨-, hhash⟩)
    · rfl
    · rw [hashText, hashText, hhash]

/-- Two values of JSON that have texts have the same one exactly when they are the same up to the
order of entries. -/
theorem exists_canonical_texts (hv : v.IsJson) (hw : w.IsJson) (htv : v.hasText = true)
    (htw : w.hasText = true) (c c' : Copies) :
    ∃ s t, v.canonicalText c = .ok s ∧ w.canonicalText c' = .ok t ∧ (s = t ↔ v.Reordered w) := by
  refine ⟨_, _, ?_, ?_, Json.write_eq_iff.trans (similar_form_iff hv hw)⟩
  · rw [hv.canonical_text_eq, if_pos htv]
  · rw [hw.canonical_text_eq, if_pos htw]

/-- Values of JSON without a number of more than 4300 digits have canonical texts, which are equal
exactly when the values are the same up to the order of entries; the digests of such outputs are
equal exactly when the outputs are, or when their texts collide. With a longer number there is no
text and no digest. -/
theorem canonical_text_eq_iff_reordered {os ps : List Value} (hv : v.IsJson) (hw : w.IsJson)
    (hos : ∀ o ∈ os, o.IsJson) (hps : ∀ p ∈ ps, p.IsJson) (c c' : Copies) :
    (v.hasText = true → w.hasText = true →
      ∃ s t, v.canonicalText c = .ok s ∧ w.canonicalText c' = .ok t ∧ (s = t ↔ v.Reordered w)) ∧
    (allHaveText os = true → allHaveText ps = true →
      ∃ s t d e, (newList os).canonicalText c = .ok s ∧ (newList ps).canonicalText c' = .ok t ∧
        Replay.outputsDigest c os = .ok d ∧ Replay.outputsDigest c' ps = .ok e ∧
        (d = e ↔ List.Forall₂ Reordered os ps ∨ Sha256.Collision (utf8 s) (utf8 t))) ∧
    (v.hasText = false → v.canonicalText c = .error (.fault .wrongLength) ∧
      v.digest c = .error (.fault .wrongLength)) := by
  refine ⟨fun htv htw => exists_canonical_texts hv hw htv htw c c', fun hto htp => ?_,
    fun htext => ?_⟩
  · have hos : (newList os).IsJson := .list hos
    have hps : (newList ps).IsJson := .list hps
    obtain ⟨s, t, hs, ht, hst⟩ := exists_canonical_texts hos hps hto htp c c'
    refine ⟨s, t, hashText s, hashText t, hs, ht, digest_eq hs, digest_eq ht, ?_⟩
    rw [hash_text_eq_iff, hst, reordered_new_list_iff]
  · have hnone : v.canonicalText c = .error (.fault .wrongLength) := by
      rw [hv.canonical_text_eq, htext]
      rfl
    exact ⟨hnone, by rw [digest, hnone]; rfl⟩

/-- A soup of the menu. -/
def soup : Value :=
  newList [.text "\"hot\", sour", .int 3]

/-- What is on offer. -/
def menu : Value :=
  table [("soup", soup), ("open", .bool true)]

/-- The same menu with its entries stored the other way round. -/
def turnedMenu : Value :=
  table [("open", .bool true), ("soup", soup)]

/-- Turning the menu does not change its text, and an output `3` is told apart from an output
`"3"`. -/
theorem menu_texts : menu.IsJson ∧ turnedMenu.IsJson ∧
    (∃ s, menu.canonicalText .same = .ok s ∧ turnedMenu.canonicalText .same = .ok s) ∧
    ∃ s t d e, (newList [.int 3]).canonicalText .same = .ok s ∧
      (newList [.text "3"]).canonicalText .same = .ok t ∧
      Replay.outputsDigest .same [.int 3] = .ok d ∧
      Replay.outputsDigest .same [.text "3"] = .ok e ∧
      (d = e ↔ Sha256.Collision (utf8 s) (utf8 t)) := by
  have hsoup : soup.IsJson :=
    .list (List.forall_mem_cons.mpr ⟨.text _, List.forall_mem_singleton.mpr (.int 3)⟩)
  have hmenu : menu.IsJson :=
    .dict (by decide)
      (List.forall_mem_cons.mpr ⟨hsoup, List.forall_mem_singleton.mpr (.bool true)⟩)
  have hturned : turnedMenu.IsJson :=
    .dict (by decide)
      (List.forall_mem_cons.mpr ⟨.bool true, List.forall_mem_singleton.mpr hsoup⟩)
  have hsame : menu.Reordered turnedMenu :=
    .dict (.cons (.same _) (.cons (.same _) .nil)) (.swap _ _ _)
  have hother : ¬ List.Forall₂ Reordered [.int 3] [.text "3"] := by
    intro h
    cases (List.forall₂_cons.mp h).1
  have hnumber : ∀ o ∈ [Value.int 3], o.IsJson := List.forall_mem_singleton.mpr (.int 3)
  have hdigit : ∀ o ∈ [Value.text "3"], o.IsJson := List.forall_mem_singleton.mpr (.text "3")
  have htext : ∀ v ∈ [menu, turnedMenu], v.hasText = true := by decide +kernel
  obtain ⟨htexts, hdigests, -⟩ := canonical_text_eq_iff_reordered hmenu hturned hnumber hdigit
    .same .same
  refine ⟨hmenu, hturned, ?_, ?_⟩
  · obtain ⟨s, t, hs, ht, hst⟩ := htexts (htext _ (by simp)) (htext _ (by simp))
    exact ⟨s, hs, hst.mpr hsame ▸ ht⟩
  · obtain ⟨s, t, d, e, hs, ht, hd, he, hde⟩ := hdigests (by decide +kernel) (by decide +kernel)
    exact ⟨s, t, d, e, hs, ht, hd, he, hde.trans (or_iff_right hother)⟩

/-- A whole number of 4301 digits is a value of JSON, but it has no canonical text, and outputs that
hold it have no digest. -/
theorem long_number_has_no_text : (int (tenPow 4300)).IsJson ∧
    (int (tenPow 4300)).Reordered (int (tenPow 4300)) ∧
    ∀ c : Copies, (int (tenPow 4300)).canonicalText c = .error (.fault .wrongLength) ∧
      Replay.outputsDigest c [int (tenPow 4300)] = .error (.fault .wrongLength) := by
  have hlong : (int (tenPow 4300)).hasText = false := by decide +kernel
  have houtputs : (newList [int (tenPow 4300)]).hasText = false := by decide +kernel
  have hjson : (newList [int (tenPow 4300)]).IsJson :=
    .list (List.forall_mem_singleton.mpr (.int _))
  refine ⟨.int _, .same _, fun c => ⟨?_, ?_⟩⟩
  · rw [(IsJson.int _).canonical_text_eq, hlong]
    rfl
  · rw [Replay.outputsDigest, digest, hjson.canonical_text_eq, houtputs]
    rfl

end Value

end Statechart
