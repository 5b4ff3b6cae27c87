import Statechart.Proofs.Value.Held
import Statechart.Proofs.Value.Reordered
import Statechart.Proofs.Value.WellFormed

/-!
# Canonical forms of reordered values

A reordered value has the same canonical text and the same digest, unless a table has two keys with
one plain text: `canonical_text_of_reordered`. Then the later of the two entries wins, and
`swapped_entries` is a table where it matters which that is. The canonical forms themselves need not
be equal, since objects and callables stay in them as they are; they are only written alike.
-/

namespace Statechart.Value

variable {v w : Value}

/-- Steady values with canonical forms that are written alike have one canonical text and one
digest, whatever identities the copies of what their records hold get. -/
theorem canonical_text_eq_of_agree (hv : v.steady = true) (hw : w.steady = true)
    (h : Agree Alike v.canonical w.canonical) (c c' : Copies) :
    v.canonicalText c = w.canonicalText c' ∧ v.digest c = w.digest c' := by
  have htext : v.canonicalText c = w.canonicalText c' := by
    rw [canonical_text_of_steady hv, canonical_text_of_steady hw, form_text_eq_of_agree h]
  exact ⟨htext, by rw [digest, digest, htext]⟩

/-- The canonical forms of reordered values are written alike. -/
theorem canonical_agree (h : Reordered v w) (hkeys : v.KeysApart) :
    Agree Alike v.canonical w.canonical :=
  h.varied.canonical_agree (by simp) (by simp) (.inr hkeys) (.inl (by simp))

/-- A reordered value has the same canonical text and the same digest, or the same error, when no
table has two keys with one plain text. No record may hold what shows its address, since each call
copies what records hold. -/
theorem canonical_text_of_reordered (h : Reordered v w) (hkeys : v.KeysApart)
    (hsteady : v.steady = true) (c c' : Copies) :
    v.canonicalText c = w.canonicalText c' ∧ v.digest c = w.digest c' := by
  have hw : w.steady = true := by rw [← hsteady, h.varied.steady_eq (by simp) (by simp)]
  exact canonical_text_eq_of_agree hsteady hw (canonical_agree h hkeys) c c'

/-- Trays whose tables have keys of several kinds. -/
def trays : Value :=
  newList [newTable [(.int 1, .text "cup"), (.null, newTable [(.text "a", .null),
    (.tuple [.int 2], .bool true)])]]

/-- The same trays with the entries of both tables stored the other way round. -/
def turnedTrays : Value :=
  newList [newTable [(.null, newTable [(.tuple [.int 2], .bool true), (.text "a", .null)]),
    (.int 1, .text "cup")]]

/-- Turning the trays does not change their canonical text. -/
theorem turned_trays : trays.Reordered turnedTrays ∧ trays.KeysApart ∧ trays.steady = true ∧
    ∀ c c' : Copies, trays.canonicalText c = turnedTrays.canonicalText c' ∧
      trays.digest c = turnedTrays.digest c' := by
  have hturned : trays.Reordered turnedTrays := by
    have hinner : Reordered
        (newTable [(.text "a", .null), (.tuple [.int 2], .bool true)])
        (newTable [(.tuple [.int 2], .bool true), (.text "a", .null)]) :=
      .dict (.cons (.same _) (.cons (.same _) .nil)) (.swap _ _ _)
    exact .list (.cons (.dict (.cons (.same _) (.cons hinner .nil)) (.swap _ _ _)) .nil)
  have hkeys : trays.KeysApart := by
    refine .list fun x hx => ?_
    obtain rfl := List.mem_singleton.mp hx
    refine .dict (by decide +kernel) (List.forall_mem_cons.mpr ⟨.plain rfl, ?_⟩)
    refine List.forall_mem_singleton.mpr (.dict (by decide +kernel) ?_)
    exact List.forall_mem_cons.mpr ⟨.plain rfl, List.forall_mem_singleton.mpr (.plain rfl)⟩
  have hsteady : trays.steady = true := by decide +kernel
  exact ⟨hturned, hkeys, hsteady, canonical_text_of_reordered hturned hkeys hsteady⟩

/-! ## Keys with one plain text -/

/-- Of two entries under keys with one plain text the one stored later is kept. -/
theorem canonical_of_one_text {m : Mark} {k l x y c d : Value} (hk : k.hasText = true)
    (hl : l.hasText = true) (hkl : k.plainText = l.plainText) (hx : x.canonical = .ok c)
    (hy : y.canonical = .ok d) :
    (dict m [(k, x), (l, y)]).canonical = .ok (table [(l.plainText, d)]) := by
  -- The keys of the two entries do not differ, so sorting leaves them as they are stored.
  have hsort : sortEntries [(l.plainText, x.canonical), (l.plainText, y.canonical)] =
      [(l.plainText, x.canonical), (l.plainText, y.canonical)] :=
    List.mergeSort_of_pairwise (by simp)
  have hkeys : keysHaveText [(k, x), (l, y)] = true := by simp [keysHaveText, hk, hl]
  simp only [canonical, hkeys, if_true, canonicalEntries, hkl, sortedTable, hsort]
  simp [makeEntries, hx, hy, lastOfRuns]

/-- A table with the keys `1` and `"1"`. -/
def numbered : Value :=
  newTable [(.int 1, .text "a"), (.text "1", .text "b")]

/-- The same table with its entries stored the other way round. -/
def renumbered : Value :=
  newTable [(.text "1", .text "b"), (.int 1, .text "a")]

/-- The canonical text of a table depends on the order of entries under keys with one plain text. -/
theorem swapped_entries : numbered.wellFormed = true ∧ numbered.Reordered renumbered ∧
    ∀ c : Copies, numbered.canonicalText c = .ok "\x7b\"1\":\"b\"\x7d" ∧
      renumbered.canonicalText c = .ok "\x7b\"1\":\"a\"\x7d" ∧
      numbered.digest c ≠ renumbered.digest c := by
  have hshort : (Value.int 1).hasText = true := by decide +kernel
  have hone : (Value.int 1).plainText = (Value.text "1").plainText := by decide +kernel
  have hb : numbered.formText = .ok "\x7b\"1\":\"b\"\x7d" := by
    rw [formText, numbered, newTable, canonical_of_one_text hshort rfl hone rfl rfl]
    rfl
  have ha : renumbered.formText = .ok "\x7b\"1\":\"a\"\x7d" := by
    rw [formText, renumbered, newTable, canonical_of_one_text rfl hshort hone.symm rfl rfl,
      show (Value.int 1).plainText = "1" from hone]
    rfl
  have hturned : numbered.Reordered renumbered :=
    .dict (.cons (.same _) (.cons (.same _) .nil)) (.swap _ _ _)
  refine ⟨by decide +kernel, hturned, fun c => ?_⟩
  have hb : numbered.canonicalText c = .ok "\x7b\"1\":\"b\"\x7d" := by
    rw [canonical_text_of_steady (by decide +kernel), hb]
  have ha : renumbered.canonicalText c = .ok "\x7b\"1\":\"a\"\x7d" := by
    rw [canonical_text_of_steady (by decide +kernel), ha]
  refine ⟨hb, ha, ?_⟩
  rw [digest, digest, hb, ha]
  intro h
  exact absurd (Except.ok.inj h) (by decide +kernel)

end Statechart.Value
