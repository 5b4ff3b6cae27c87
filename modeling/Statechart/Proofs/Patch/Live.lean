import Statechart.Proofs.Patch.Library
import Statechart.Proofs.Patch.Renamed

/-!
# Documents under change

A patch changes its own copy of a document in place. `Live` is what stays true of this copy: it is a
value in a store, it can be copied, and its marks are of a given kind. An edit of a container
changes the store with the document, since the container may stand in several places; that the
document stays in a store then needs that nothing is put into itself. Read `exists_live_edited`
first.
-/

namespace Statechart

open Value

variable {T : Identity → Value} {M : Identity → Prop} {i : Identity}
  {v w x container changed : Value}

namespace Value

/-! ## Putting a container in place of another -/

theorem own_mark_of_container (h : v.containerMark = some i) : v.ownMark = some i := by
  cases v <;> first | exact h | cases h

/-- Rebuilding does not change whether a value can be told apart. -/
theorem is_identified_rebuild (v : Value) (m : Mark) (xs : List Value) :
    (rebuild v m xs).isIdentified = v.isIdentified := by
  cases v <;> rfl

theorem is_thing_rebuild (v : Value) (m : Mark) (xs : List Value) :
    (rebuild v m xs).isThing = v.isThing := by
  cases v <;> rfl

theorem rebuild_ne_view (hview : ∀ es, v ≠ .view es) (m : Mark) (xs : List Value) :
    ∀ es, rebuild v m xs ≠ .view es := by
  cases v with
  | view es => exact absurd rfl (hview es)
  | _ => simp [rebuild]

theorem put_eq_self (h : i ∉ v.marks) (w : Value) : put i w v = v := by
  induction v using contents_induction with
  | step v ih =>
      have hmark : ¬ v.containerMark = some i := fun hi =>
        h (mem_marks.mpr (.inl (own_mark_of_container hi)))
      have hcontents : v.contents.map (put i w) = v.contents :=
        (List.map_congr_left fun x hx => ih x hx fun hi =>
          h (mem_marks.mpr (.inr ⟨x, hx, hi⟩))).trans (List.map_id _)
      rw [put_eq, if_neg hmark, hcontents, rebuild_self]

theorem mem_marks_put {j : Identity} (h : j ∈ (put i w v).marks) : j ∈ w.marks ∨ j ∈ v.marks := by
  induction v using contents_induction with
  | step v ih =>
      rw [put_eq] at h
      split at h
      case isTrue => exact .inl h
      case isFalse =>
        rw [mem_marks, contents_rebuild (by simp), own_mark_rebuild] at h
        rcases h with h | ⟨x, hx, h⟩
        · split at h
          · exact .inr (mem_marks.mpr (.inl h))
          · cases h
        · obtain ⟨y, hy, rfl⟩ := List.mem_map.mp hx
          exact (ih y hy h).imp_right fun h => mem_marks.mpr (.inr ⟨y, hy, h⟩)

theorem copiable_put (hw : w.copiable = true) (hv : v.copiable = true) :
    (put i w v).copiable = true := by
  induction v using contents_induction with
  | step v ih =>
      obtain ⟨hview, hcontents⟩ := copiable_iff.mp hv
      rw [put_eq]
      split
      case isTrue => exact hw
      case isFalse =>
        refine copiable_iff.mpr ⟨rebuild_ne_view hview _ _, ?_⟩
        rw [contents_rebuild (by simp), List.forall_mem_map]
        exact fun x hx => ih x hx (hcontents x hx)

/-- The store in which a container has been changed: the things in which it stands have changed with
it. -/
def overwrite (T : Identity → Value) (i : Identity) (changed : Value) : Identity → Value :=
  fun j => if j = i then changed else put i changed (T j)

/-- The marks in a thing are marks in each value that it stands in. -/
theorem Stored.marks_subset (h : Stored T v) (hi : i ∈ v.marks) :
    ∀ j ∈ (T i).marks, j ∈ v.marks := by
  induction v using contents_induction with
  | step v ih =>
      rcases mem_marks.mp hi with hi | ⟨w, hw, hi⟩
      · rw [h.eq_of_own_mark hi]
        exact fun _ hj => hj
      · exact fun j hj => mem_marks.mpr (.inr ⟨w, hw, ih w hw (h.inside w hw) hi j hj⟩)

/-- What a container does not stand in stays in the store when the container changes. -/
theorem Stored.overwrite_apart (h : Stored T v) (hi : i ∉ v.marks) (changed : Value) :
    Stored (overwrite T i changed) v := by
  refine h.congr fun j hj => ?_
  rw [overwrite, if_neg (ne_of_mem_of_not_mem hj hi)]
  exact put_eq_self (fun hmem => hi (h.marks_subset hj i hmem)) changed

/-- A value stays in the store when a container in it changes. -/
theorem Stored.overwrite (h : Stored T v) (hcontainer : (T i).containerMark = some i)
    (hchanged : Stored (overwrite T i changed) changed) :
    Stored (overwrite T i changed) (put i changed v) := by
  induction v using contents_induction with
  | step v ih =>
      rw [put_eq]
      split
      case isTrue => exact hchanged
      case isFalse hne =>
        refine .intro ((is_identified_rebuild ..).trans h.identified) (fun hthing => ?_) ?_
        · obtain ⟨j, hj, hT⟩ := h.held ((is_thing_rebuild ..).symm.trans hthing)
          -- The one thing with the mark of the container is the container.
          have hji : j ≠ i := by
            rintro rfl
            exact hne (hT ▸ hcontainer)
          refine ⟨j, ?_, ?_⟩
          · rw [own_mark_rebuild, if_pos (is_thing_of_own_mark hj), hj]
          · rw [Value.overwrite, if_neg hji, hT, put_eq, if_neg hne]
        · rw [contents_rebuild (by simp), List.forall_mem_map]
          exact fun w hw => ih w hw (h.inside w hw)

/-- A container with a mark stands in a value when the mark occurs there. -/
theorem Stored.holds_of_mem_marks (h : Stored T v) (hcontainer : (T i).containerMark = some i)
    (hi : i ∈ v.marks) : v.holds i = true := by
  induction v using contents_induction with
  | step v ih =>
      rw [holds_eq, Bool.or_eq_true, List.any_eq_true]
      rcases mem_marks.mp hi with hi | ⟨w, hw, hi⟩
      · rw [h.eq_of_own_mark hi] at hcontainer
        exact .inl (by simp [hcontainer])
      · exact .inr ⟨w, hw, ih w hw (h.inside w hw) hi⟩

end Value

namespace Patch

/-! ## Live documents -/

namespace Live

/-- What a step leads to is part of the document, or the number of a byte. -/
theorem at_step {s : Step} (h : Live T M v) (hat : at? v s = some w) : Live T M w := by
  cases s with
  | member name =>
      obtain ⟨es, hes, hget⟩ := Option.bind_eq_some_iff.mp hat
      exact h.inside (mem_contents_of_get_text hes hget)
  | position n =>
      obtain ⟨xs, hxs, hget⟩ := Option.bind_eq_some_iff.mp hat
      have hmem := List.mem_of_getElem? hget
      cases v with
      | bytes bs =>
          obtain rfl := Option.some.inj hxs
          obtain ⟨b, -, rfl⟩ := List.mem_map.mp hmem
          exact .int _
      | list m ys => exact h.inside (Option.some.inj hxs ▸ hmem)
      | tuple ys => exact h.inside (Option.some.inj hxs ▸ hmem)
      | result u o =>
          obtain rfl : [u, o] = xs := Option.some.inj hxs
          exact h.inside hmem
      | _ => cases hxs
  | pastEnd => cases hat

/-- A pointer ends in a part of the document. -/
theorem last {part : String} {rest : Pointer} {s : Step} (h : Live T M v)
    (hlast : Patch.last v part rest = .ok (container, s)) : Live T M container := by
  induction rest generalizing v part with
  | nil =>
      obtain ⟨s', -, hresult⟩ := bind_eq_ok.mp hlast
      obtain rfl : v = container := congrArg Prod.fst (Except.ok.inj hresult)
      exact h
  | cons next rest ih =>
      obtain ⟨s', -, hresult⟩ := bind_eq_ok.mp hlast
      cases hat : at? v s' with
      | none =>
          rw [hat] at hresult
          cases hresult
      | some w =>
          rw [hat] at hresult
          exact ih (h.at_step hat) hresult

end Live

/-! ## Edits of a container -/

/-- A container that can change after an edit: it is one still, with the same mark, and it holds
what it held, with one more value at most. -/
structure Edits (v container changed : Value) : Prop where
  identified : changed.isIdentified = true
  copiable : ∀ es, changed ≠ .view es
  mark : changed.ownMark = container.containerMark
  contents : ∀ x ∈ changed.contents, x ∈ container.contents ∨ x = v ∨ ∃ s, x = .text s

theorem mem_insert {es : Table} {k : Value} {e : Value × Value} (h : e ∈ es.insert k v) :
    e ∈ es ∨ e.2 = v ∧ (e.1 = k ∨ ∃ d ∈ es, d.1 = e.1) := by
  induction es with
  | nil =>
      obtain rfl : e = (k, v) := List.mem_singleton.mp h
      exact .inr ⟨rfl, .inl rfl⟩
  | cons d es ih =>
      rcases d with ⟨l, w⟩
      rw [Table.insert] at h
      split at h
      · rcases List.mem_cons.mp h with rfl | h
        · exact .inr ⟨rfl, .inr ⟨(l, w), by simp, rfl⟩⟩
        · exact .inl (List.mem_cons_of_mem _ h)
      · rcases List.mem_cons.mp h with rfl | h
        · exact .inl (by simp)
        · rcases ih h with h | ⟨hvalue, hkey | ⟨d, hd, heq⟩⟩
          · exact .inl (List.mem_cons_of_mem _ h)
          · exact .inr ⟨hvalue, .inl hkey⟩
          · exact .inr ⟨hvalue, .inr ⟨d, List.mem_cons_of_mem _ hd, heq⟩⟩

theorem mem_of_mem_erase {es : Table} {k : Value} {e : Value × Value} (h : e ∈ es.erase k) :
    e ∈ es := by
  induction es with
  | nil => exact h
  | cons d es ih =>
      rcases d with ⟨l, w⟩
      rw [Table.erase] at h
      split at h
      · exact List.mem_cons_of_mem _ h
      · exact (List.mem_cons.mp h).elim (fun h => by simp [h]) fun h =>
          List.mem_cons_of_mem _ (ih h)

namespace Edits

theorem list {m : Mark} {xs ys : List Value} (h : ∀ y ∈ ys, y ∈ xs ∨ y = v) :
    Edits v (.list m xs) (.list m ys) :=
  ⟨rfl, by simp, rfl, fun y hy => (h y hy).imp_right .inl⟩

theorem dict {m : Mark} {es ds : Table}
    (h : ∀ d ∈ ds, d ∈ es ∨ d.2 = v ∧ ((∃ s, d.1 = .text s) ∨ ∃ e ∈ es, e.1 = d.1)) :
    Edits v (.dict m es) (.dict m ds) := by
  refine ⟨rfl, by simp, rfl, fun x hx => ?_⟩
  have hentry : ∀ e ∈ es, e.1 ∈ (Value.dict m es).contents ∧ e.2 ∈ (Value.dict m es).contents :=
    fun e he => mem_contents_of_entries rfl he
  obtain ⟨d, hd, hx⟩ := List.mem_flatMap.mp hx
  rcases (by simpa using hx : x = d.1 ∨ x = d.2) with rfl | rfl
  · rcases h d hd with hd | ⟨-, hs | ⟨e, he, heq⟩⟩
    · exact .inl (hentry d hd).1
    · exact .inr (.inr hs)
    · exact .inl (heq ▸ (hentry e he).1)
  · rcases h d hd with hd | ⟨hvalue, -⟩
    · exact .inl (hentry d hd).2
    · exact .inr (.inl hvalue)

theorem dict_insert (m : Mark) (es : Table) (name : String) (v : Value) :
    Edits v (.dict m es) (.dict m (es.insert (.text name) v)) :=
  .dict fun _ hd => (mem_insert hd).imp_right fun h =>
    ⟨h.1, h.2.imp_left fun hkey => ⟨name, hkey⟩⟩

theorem insert_at {s : Step} (h : insertAt v container s = .ok changed) :
    Edits v container changed := by
  cases container with
  | list m xs =>
      cases s with
      | pastEnd =>
          obtain rfl := Except.ok.inj h
          exact .list fun y hy => by simpa using hy
      | position n =>
          rw [insertAt] at h
          split at h
          · obtain rfl := Except.ok.inj h
            refine .list fun y hy => ?_
            rcases List.mem_append.mp hy with hy | hy
            · exact .inl (List.mem_of_mem_take hy)
            · exact (List.mem_cons.mp hy).symm.imp_left List.mem_of_mem_drop
          · cases h
      | member name => cases h
  | dict m es =>
      cases s with
      | member name =>
          obtain rfl := Except.ok.inj h
          exact .dict_insert m es name v
      | _ => cases h
  | _ => cases s <;> cases h

theorem remove_at {s : Step} (h : removeAt container s = .ok changed) :
    Edits .null container changed := by
  cases container with
  | list m xs =>
      cases s with
      | position n =>
          rw [removeAt] at h
          split at h
          · obtain rfl := Except.ok.inj h
            exact .list fun y hy => .inl (List.mem_of_mem_eraseIdx hy)
          · cases h
      | _ => cases h
  | dict m es =>
      cases s with
      | member name =>
          rw [removeAt] at h
          split at h
          · obtain rfl := Except.ok.inj h
            exact .dict fun d hd => .inl (mem_of_mem_erase hd)
          · cases h
      | _ => cases h
  | _ => cases s <;> cases h

theorem replace_at {s : Step} (h : replaceAt v container s = .ok changed) :
    Edits v container changed := by
  cases container with
  | list m xs =>
      cases s with
      | position n =>
          rw [replaceAt] at h
          split at h
          · obtain rfl := Except.ok.inj h
            exact .list fun y hy => (List.mem_or_eq_of_mem_set hy)
          · cases h
      | _ => cases h
  | dict m es =>
      cases s with
      | member name =>
          rw [replaceAt] at h
          split at h
          · obtain rfl := Except.ok.inj h
            exact .dict_insert m es name v
          · cases h
      | _ => cases h
  | _ => cases s <;> cases h

end Edits

/-- A document stays live when a container in it is edited, provided that the container does not
stand in what is put in. So does everything in which the container does not stand. -/
theorem exists_live_edited {doc : Value} (hdoc : Live T M doc) (hcontainer : Live T M container)
    (hv : Live T M v) (hedits : Edits v container changed)
    (hi : container.containerMark = some i) (hiv : i ∉ v.marks) :
    ∃ T', Live T' M (doc.edited container changed) ∧
      ∀ x, Live T M x → i ∉ x.marks → Live T' M x := by
  have hown := own_mark_of_container hi
  have hT : T i = container := hcontainer.stored.eq_of_own_mark hown
  have hkept : ∀ x, Live T M x → i ∉ x.marks → Live (overwrite T i changed) M x :=
    fun x hx hix => ⟨hx.stored.overwrite_apart hix changed, hx.copiable, hx.marks⟩
  -- The container stands neither in what it held before nor in what is put in.
  have hcontents : ∀ x ∈ changed.contents, Live (overwrite T i changed) M x := by
    intro x hx
    rcases hedits.contents x hx with hx | rfl | ⟨s, rfl⟩
    · exact hkept x (hcontainer.inside hx) (hcontainer.stored.not_mem_marks_contents hown hx)
    · exact hkept x hv hiv
    · exact .text s
  have hchanged : Live (overwrite T i changed) M changed := by
    refine ⟨.intro hedits.identified (fun _ => ⟨i, hedits.mark.trans hi, if_pos rfl⟩)
      fun x hx => (hcontents x hx).stored, ?_, fun j hj => ?_⟩
    · exact copiable_iff.mpr ⟨hedits.copiable, fun x hx => (hcontents x hx).copiable⟩
    · rcases mem_marks.mp hj with hj | ⟨x, hx, hj⟩
      · rw [hedits.mark, ← hown.trans hi.symm] at hj
        exact hcontainer.marks j (mem_marks.mpr (.inl hj))
      · exact (hcontents x hx).marks j hj
  refine ⟨overwrite T i changed, ?_, hkept⟩
  rw [edited, hi]
  refine ⟨hdoc.stored.overwrite (hT ▸ hi) hchanged.stored,
    copiable_put hchanged.copiable hdoc.copiable, fun j hj => ?_⟩
  exact (mem_marks_put hj).elim (hchanged.marks j) (hdoc.marks j)

/-! ## Edits at a pointer -/

/-- Whether a pointer ends in no container that stands in a value. -/
def Outside (v doc : Value) : Pointer → Prop
  | [] => True
  | part :: rest => ∀ container s i, last doc part rest = .ok (container, s) →
      container.containerMark = some i → i ∉ v.marks

variable {doc doc' : Value} {path source : Pointer}

theorem outside_of_marks (hdoc : Live T M doc) (hv : ∀ i ∈ v.marks, ¬ M i) :
    Outside v doc path := by
  cases path with
  | nil => trivial
  | cons part rest =>
      intro container s i hlast hi hmem
      have hmark := mem_marks.mpr (.inl (own_mark_of_container hi))
      exact hv i hmem ((hdoc.last hlast).marks i hmark)

theorem outside_of_not_inside (hdoc : Live T M doc) (hv : Live T M v)
    (hinside : isInside v doc path = .ok false) : Outside v doc path := by
  cases path with
  | nil => trivial
  | cons part rest =>
      intro container s i hlast hi hmem
      have hT : T i = container :=
        (hdoc.last hlast).stored.eq_of_own_mark (own_mark_of_container hi)
      have hholds := hv.stored.holds_of_mem_marks (hT ▸ hi) hmem
      simp [isInside, hlast, hi, hholds] at hinside

theorem exists_live_change {f : Value → Step → Except PatchFault Value} {part : String}
    {rest : Pointer} (hdoc : Live T M doc) (hv : Live T M v)
    (hedits : ∀ container s changed, f container s = .ok changed → Edits v container changed)
    (houtside : Outside v doc (part :: rest)) (h : change f doc part rest = .ok doc') :
    ∃ T', Live T' M doc' := by
  obtain ⟨⟨container, s⟩, hlast, h⟩ := bind_eq_ok.mp h
  obtain ⟨changed, hf, h⟩ := bind_eq_ok.mp h
  obtain rfl := Except.ok.inj h
  cases hi : container.containerMark with
  | none =>
      refine ⟨T, ?_⟩
      rwa [edited, hi]
  | some i =>
      obtain ⟨T', hdoc', -⟩ := exists_live_edited hdoc (hdoc.last hlast) hv
        (hedits container s changed hf) hi (houtside container s i hlast hi)
      exact ⟨T', hdoc'⟩

theorem exists_live_added (hdoc : Live T M doc) (hv : Live T M v) (houtside : Outside v doc path)
    (h : addAt v doc path = .ok doc') : ∃ T', Live T' M doc' := by
  cases path with
  | nil =>
      obtain rfl := Except.ok.inj h
      exact ⟨T, hv⟩
  | cons part rest =>
      exact exists_live_change (f := insertAt v) hdoc hv (fun _ _ _ => .insert_at) houtside h

theorem exists_live_removed (hdoc : Live T M doc) (h : removeFrom doc path = .ok doc') :
    ∃ T', Live T' M doc' := by
  cases path with
  | nil => cases h
  | cons part rest =>
      refine exists_live_change (f := removeAt) hdoc .null (fun _ _ _ => .remove_at) ?_ h
      exact outside_of_marks hdoc (by simp [marks_eq, ownMark, contents])

/-- What is reached stands at the step, or the step leads nowhere. -/
theorem reached_eq_ok {α : Type} {found : Value → α} {missing : Step → Except PatchFault α}
    {s : Step} {a : α} (h : reached found missing (container, s) = .ok a) :
    (∃ v, at? container s = some v ∧ found v = a) ∨ missing s = .ok a := by
  rw [reached] at h
  cases hat : at? container s with
  | none =>
      rw [hat] at h
      exact .inr h
  | some v =>
      rw [hat] at h
      exact .inl ⟨v, rfl, Except.ok.inj h⟩

/-- What an operation takes from a document stands at a step of the container in which its pointer
ends. -/
theorem exists_of_taken {part : String} {rest : Pointer} (h : taken doc (part :: rest) = .ok v) :
    ∃ container s, last doc part rest = .ok (container, s) ∧ at? container s = some v := by
  rw [taken_cons] at h
  obtain ⟨⟨container, s⟩, hlast, h⟩ := bind_eq_ok.mp h
  rcases reached_eq_ok h with ⟨w, hat, rfl⟩ | hmissing
  · exact ⟨container, s, hlast, hat⟩
  · cases s <;> cases hmissing

theorem live_taken (hdoc : Live T M doc) (h : taken doc path = .ok v) : Live T M v := by
  cases path with
  | nil =>
      obtain rfl := Except.ok.inj h
      exact hdoc
  | cons part rest =>
      obtain ⟨container, s, hlast, hat⟩ := exists_of_taken h
      exact (hdoc.last hlast).at_step hat

/-- What can be removed from a container stands in it. -/
theorem mem_contents_of_removed {s : Step} (h : removeAt container s = .ok changed)
    (hat : at? container s = some v) : v ∈ container.contents := by
  cases s with
  | pastEnd => cases hat
  | member name =>
      obtain ⟨es, hes, hget⟩ := Option.bind_eq_some_iff.mp hat
      exact mem_contents_of_get_text hes hget
  | position n =>
      obtain ⟨xs, hxs, hget⟩ := Option.bind_eq_some_iff.mp hat
      cases container with
      | list m ys =>
          obtain rfl := Option.some.inj hxs
          exact List.mem_of_getElem? hget
      | _ => cases h

/-- A value that is moved stays in the store of the document that it has been removed from. -/
theorem exists_live_taken_removed (hdoc : Live T M doc) (hv : taken doc path = .ok v)
    (h : removeFrom doc path = .ok doc') : ∃ T', Live T' M doc' ∧ Live T' M v := by
  cases path with
  | nil => cases h
  | cons part rest =>
      obtain ⟨container, s, hlast, hat⟩ := exists_of_taken hv
      obtain ⟨r, hlast', h⟩ := bind_eq_ok.mp h
      obtain rfl : (container, s) = r := Except.ok.inj (hlast.symm.trans hlast')
      obtain ⟨changed, hremoved, h⟩ := bind_eq_ok.mp h
      obtain rfl := Except.ok.inj h
      have hcontainer := hdoc.last hlast
      have hmem := mem_contents_of_removed hremoved hat
      cases hi : container.containerMark with
      | none =>
          refine ⟨T, ?_, hcontainer.inside hmem⟩
          rwa [edited, hi]
      | some i =>
          have hiv := hcontainer.stored.not_mem_marks_contents (own_mark_of_container hi) hmem
          obtain ⟨T', hdoc', hkept⟩ := exists_live_edited hdoc hcontainer .null
            (.remove_at hremoved) hi (by simp [marks_eq, ownMark, contents])
          exact ⟨T', hdoc', hkept v (hcontainer.inside hmem) hiv⟩

theorem exists_live_moved (hdoc : Live T M doc) (h : moveValue doc source path = .ok doc') :
    ∃ T', Live T' M doc' := by
  rw [moveValue] at h
  split at h
  case isTrue => cases h
  case isFalse =>
    obtain ⟨v, hv, h⟩ := bind_eq_ok.mp h
    split at h
    case isTrue =>
      obtain rfl := Except.ok.inj h
      exact ⟨T, hdoc⟩
    case isFalse =>
      obtain ⟨rest, hrest, h⟩ := bind_eq_ok.mp h
      obtain ⟨moved, hmoved, h⟩ := bind_eq_ok.mp h
      obtain ⟨inside, hinside, h⟩ := bind_eq_ok.mp h
      -- The removal has changed the store, and the value is in the changed one.
      obtain ⟨T', hrest', hv'⟩ := exists_live_taken_removed hdoc hv hrest
      cases inside with
      | true => cases h
      | false =>
          obtain rfl := Except.ok.inj h
          exact exists_live_added hrest' hv' (outside_of_not_inside hrest' hv' hinside) hmoved

end Patch

end Statechart
