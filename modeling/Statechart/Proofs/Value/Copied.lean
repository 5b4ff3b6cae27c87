import Statechart.Proofs.Value.Remarked

/-!
# A deep copy has the same contents under new marks

The marks in a value say which things in it are one. That they do is `Stored`: there is a store with
one thing for each mark, and whatever stands in the value under a mark is that thing. Read
`exists_copy` first: the copy of such a value is the value with other marks, which are new and as
different from each other as the marks of the value are.

A copy in the making has met some things so far. What carries the induction is that it has renamed
them in one way, which is `Copying.Agrees`, and only ever adds to that, which is `Copying.Grows`.
-/

namespace Statechart

/-- Whether an identity is one of those that a supply gives from the given one on. -/
def Identity.From (start i : Identity) : Prop :=
  i.version = start.version ∧ i.call = start.call ∧ start.serial ≤ i.serial

namespace Identity.From

variable {i j k : Identity}

theorem refl (i : Identity) : From i i :=
  ⟨rfl, rfl, le_rfl⟩

theorem trans (h : From i j) (h' : From j k) : From i k :=
  ⟨h'.1.trans h.1, h'.2.1.trans h.2.1, h.2.2.trans h'.2.2⟩

theorem next (i : Identity) : From i i.next :=
  ⟨rfl, rfl, Nat.le_succ _⟩

theorem not_next (i : Identity) : ¬ From i.next i :=
  fun h => Nat.not_succ_le_self _ h.2.2

end Identity.From

namespace Value

variable {T : Identity → Value} {v w : Value} {i j : Identity}

/-! ## Values in a store -/

/-- A value in which everything that can be told apart is, and in which each thing is the one that a
store has under its mark. -/
inductive Stored (T : Identity → Value) : Value → Prop where
  | intro {v : Value} (identified : v.isIdentified = true)
      (held : v.isThing = true → ∃ i, v.ownMark = some i ∧ T i = v)
      (inside : ∀ w ∈ v.contents, Stored T w) : Stored T v

theorem Stored.identified : Stored T v → v.isIdentified = true
  | intro identified _ _ => identified

theorem Stored.held : Stored T v → v.isThing = true → ∃ i, v.ownMark = some i ∧ T i = v
  | intro _ held _ => held

theorem Stored.inside : Stored T v → ∀ w ∈ v.contents, Stored T w
  | intro _ _ inside => inside

/-- Only things have marks. -/
theorem is_thing_of_own_mark (h : v.ownMark = some i) : v.isThing = true := by
  cases v <;> first | rfl | cases h

theorem own_mark_eq_none (h : v.isThing = false) : v.ownMark = none := by
  cases hv : v.ownMark with
  | none => rfl
  | some i => rw [is_thing_of_own_mark hv] at h; cases h

theorem Stored.eq_of_own_mark (h : Stored T v) (hi : v.ownMark = some i) : T i = v := by
  obtain ⟨j, hj, hT⟩ := h.held (is_thing_of_own_mark hi)
  obtain rfl : i = j := Option.some.inj (hi.symm.trans hj)
  exact hT

/-- The thing with a mark that occurs in a value is no larger than the value. -/
theorem Stored.size_le_of_mem_marks (h : Stored T v) (hi : i ∈ v.marks) :
    sizeOf (T i) ≤ sizeOf v := by
  induction v using contents_induction with
  | step v ih =>
      rcases mem_marks.mp hi with hi | ⟨w, hw, hi⟩
      · rw [h.eq_of_own_mark hi]
      · exact (ih w hw (h.inside w hw) hi).trans (size_of_lt_of_mem_contents hw).le

/-- A thing does not stand inside itself. -/
theorem Stored.not_mem_marks_contents (h : Stored T v) (hi : v.ownMark = some i)
    (hw : w ∈ v.contents) : i ∉ w.marks := by
  intro hmem
  have hle := (h.inside w hw).size_le_of_mem_marks hmem
  rw [h.eq_of_own_mark hi] at hle
  exact absurd (size_of_lt_of_mem_contents hw) (by omega)

/-- A value can be copied when it is no view and the values inside it can be copied. -/
theorem copiable_iff : v.copiable = true ↔
    (∀ es, v ≠ .view es) ∧ ∀ w ∈ v.contents, w.copiable = true := by
  cases v <;> simp only [copiable, contents, all_copiable_eq, entries_copiable_eq,
    fields_copiable_eq, List.all_eq_true, Bool.and_eq_true] <;> grind

namespace Copying

variable {c c' c'' : Copying} {g g' g'' : Identity → Identity} {ms ms' : List Identity}

/-- The things that have been copied so far. -/
def met (c : Copying) : List Identity :=
  c.copies.map Prod.fst

/-- The copies made so far are the things met with other marks, which are different for different
things and not new any more. -/
structure Agrees (T : Identity → Value) (g : Identity → Identity) (c : Copying) : Prop where
  copied : ∀ i w, c.copies.lookup i = some w → w = (T i).rename g
  closed : ∀ i ∈ c.met, ∀ j ∈ (T i).marks, j ∈ c.met
  injective : ∀ i ∈ c.met, ∀ j ∈ c.met, g i = g j → i = j
  old : ∀ i ∈ c.met, ¬ Identity.From c.next (g i)

/-- From one state of a copy to another the things with some marks have been met, those met before
have kept their new marks, and the others were given new ones. -/
structure Grows (g : Identity → Identity) (c : Copying) (g' : Identity → Identity) (c' : Copying)
    (ms : List Identity) : Prop where
  kept : ∀ i ∈ c.met, g' i = g i
  met : ∀ i, i ∈ c'.met ↔ i ∈ c.met ∨ i ∈ ms
  later : Identity.From c.next c'.next
  new : ∀ i ∈ c'.met, i ∉ c.met → Identity.From c.next (g' i)

theorem Grows.refl_of_met (hms : ∀ i ∈ ms, i ∈ c.met) : Grows g c g c ms :=
  ⟨fun _ _ => rfl, fun _ => ⟨.inl, (Or.elim · id (hms _))⟩, .refl _,
    fun _ hi hn => absurd hi hn⟩

theorem Grows.trans (h : Grows g c g' c' ms) (h' : Grows g' c' g'' c'' ms') :
    Grows g c g'' c'' (ms ++ ms') where
  kept i hi := (h'.kept i ((h.met i).mpr (.inl hi))).trans (h.kept i hi)
  met i := by rw [h'.met, h.met, List.mem_append, or_assoc]
  later := h.later.trans h'.later
  new i hi hn := by
    by_cases hi' : i ∈ c'.met
    · rw [h'.kept i hi']
      exact h.new i hi' hn
    · exact h.later.trans (h'.new i hi hi')

theorem Agrees.start (T : Identity → Value) (g : Identity → Identity) (start : Identity) :
    Agrees T g ⟨start, []⟩ :=
  ⟨by simp, by simp [met], by simp [met], by simp [met]⟩

/-- Taking a new identity changes nothing else. -/
theorem Agrees.take (h : Agrees T g c) : Agrees T g { c with next := c.next.next } :=
  ⟨h.copied, h.closed, h.injective, fun i hi hlater =>
    h.old i hi ((Identity.From.next _).trans hlater)⟩

theorem mem_met_of_lookup (h : c.copies.lookup i = some w) : i ∈ c.met := by
  obtain ⟨before, after, hcopies, -⟩ := List.lookup_eq_some_iff.mp h
  simp [met, hcopies]

theorem not_mem_met_of_lookup (h : c.copies.lookup i = none) : i ∉ c.met := by
  intro hi
  obtain ⟨e, he, rfl⟩ := List.mem_map.mp hi
  exact absurd (List.lookup_eq_none_iff.mp h e he) (by simp)

/-- The copies made so far with that of one more thing, whose mark is given a new one. -/
theorem Agrees.cons {n : Identity} (h : Agrees T g' c') (hi : g'' i = n)
    (hother : ∀ k ∈ c'.met, g'' k = g' k) (hdiffer : ∀ k ∈ c'.met, g' k ≠ n)
    (hold : ¬ Identity.From c'.next n) (hT : T i = v)
    (hmarks : ∀ k ∈ v.marks, k = i ∨ k ∈ c'.met) :
    Agrees T g'' { c' with copies := (i, v.rename g'') :: c'.copies } := by
  refine .mk ?copied ?closed ?injective ?old
  case copied =>
    intro k w hk
    by_cases hki : k = i
    · subst hki
      obtain rfl : v.rename g'' = w := by simpa using hk
      rw [hT]
    · rw [List.lookup_cons, beq_false_of_ne hki] at hk
      rw [h.copied k w hk]
      exact rename_congr fun j hj => (hother j (h.closed k (mem_met_of_lookup hk) j hj)).symm
  case closed =>
    intro k hk j hj
    rcases List.mem_cons.mp hk with rfl | hk
    · exact List.mem_cons.mpr (hmarks j (hT ▸ hj))
    · exact List.mem_cons_of_mem _ (h.closed k hk j hj)
  case injective =>
    intro k hk l hl heq
    rcases List.mem_cons.mp hk with rfl | hk' <;> rcases List.mem_cons.mp hl with rfl | hl'
    · rfl
    · rw [hi, hother l hl'] at heq
      exact absurd heq.symm (hdiffer l hl')
    · rw [hi, hother k hk'] at heq
      exact absurd heq (hdiffer k hk')
    · rw [hother k hk', hother l hl'] at heq
      exact h.injective k hk' l hl' heq
  case old =>
    intro k hk hlater
    rcases List.mem_cons.mp hk with rfl | hk'
    · exact hold (hi ▸ hlater)
    · exact h.old k hk' (hother k hk' ▸ hlater)

/-- What has been met when one more thing has been copied, whose mark was given what was next before
the values inside it were copied. -/
theorem Grows.cons (h : Grows g { c with next := c.next.next } g' c' ms) (hi : g'' i = c.next)
    (hother : ∀ k ∈ c'.met, g'' k = g' k) (hms : ∀ k, k ∈ ms' ↔ k = i ∨ k ∈ ms) (w : Value) :
    Grows g c g'' { c' with copies := (i, w) :: c'.copies } ms' := by
  refine .mk ?kept ?met ((Identity.From.next _).trans h.later) ?new
  case kept =>
    intro k hk
    rw [hother k ((h.met k).mpr (.inl hk)), h.kept k hk]
  case met =>
    intro k
    show k ∈ i :: c'.met ↔ _
    rw [List.mem_cons, h.met, hms, or_left_comm]
    rfl
  case new =>
    intro k hk hold
    rcases List.mem_cons.mp hk with rfl | hk'
    · rw [hi]
      exact .refl _
    · rw [hother k hk']
      exact (Identity.From.next _).trans (h.new k hk' hold)

/-- A thing that had not been met before is given the identity that was next then. -/
theorem Agrees.add (h : Agrees T g c) (h' : Agrees T g' c')
    (hgrows : Grows g { c with next := c.next.next } g' c' (v.contents.flatMap marks))
    (hv : Stored T v) (hi : v.ownMark = some i) (hnew : i ∉ c.met) :
    ∃ g'', rebuild v (some c.next) (v.contents.map (rename g')) = v.rename g'' ∧
      Agrees T g'' { c' with copies := (i, v.rename g'') :: c'.copies } ∧
      Grows g c g'' { c' with copies := (i, v.rename g'') :: c'.copies } v.marks := by
  have hnotin : i ∉ c'.met := by
    rw [hgrows.met, not_or]
    refine ⟨hnew, fun hmem => ?_⟩
    obtain ⟨w, hw, hiw⟩ := List.mem_flatMap.mp hmem
    exact hv.not_mem_marks_contents hi hw hiw
  -- What was next then is neither one of the marks given before nor one of those given since.
  have hdiffer : ∀ k ∈ c'.met, g' k ≠ c.next := by
    intro k hk heq
    by_cases hold : k ∈ c.met
    · exact h.old k hold (by rw [← hgrows.kept k hold, heq]; exact .refl _)
    · exact Identity.From.not_next c.next (by simpa [heq] using hgrows.new k hk hold)
  obtain ⟨g'', hi'', hother⟩ : ∃ g'' : Identity → Identity, g'' i = c.next ∧
      ∀ k ∈ c'.met, g'' k = g' k :=
    ⟨Function.update g' i c.next, Function.update_self .., fun k hk =>
      Function.update_of_ne (ne_of_mem_of_not_mem hk hnotin) ..⟩
  have hcontents : ∀ k ∈ v.contents.flatMap marks, k ∈ c'.met := fun k hk =>
    (hgrows.met k).mpr (.inr hk)
  have hmarks : ∀ k, k ∈ v.marks ↔ k = i ∨ k ∈ v.contents.flatMap marks := by
    intro k
    simp [marks_eq v, hi, eq_comm]
  refine ⟨g'', ?_, ?_, hgrows.cons hi'' hother hmarks _⟩
  · rw [rename_eq, hi, Option.map_some, hi'']
    exact congrArg _ (List.map_congr_left fun w hw => rename_congr fun k hk =>
      (hother k (hcontents k (List.mem_flatMap.mpr ⟨w, hw, hk⟩))).symm)
  · exact h'.cons hi'' hother hdiffer
      (fun hlater => Identity.From.not_next c.next (hgrows.later.trans hlater))
      (hv.eq_of_own_mark hi) fun k hk => ((hmarks k).mp hk).imp_right (hcontents k)

theorem marks_subset_met (h : Agrees T g c) (hv : Stored T v) (hi : v.ownMark = some i)
    (hmet : i ∈ c.met) : ∀ j ∈ v.marks, j ∈ c.met := by
  rw [← hv.eq_of_own_mark hi]
  exact h.closed i hmet

end Copying

open Copying

/-- What copying does to a value when it does so to the values in it. -/
theorem run_map_m_copy {xs : List Value} {c : Copying} {g : Identity → Identity}
    (hxs : ∀ x ∈ xs, ∀ c g, Agrees T g c → ∃ g' c', x.copy.run c = (x.rename g', c') ∧
      Agrees T g' c' ∧ Grows g c g' c' x.marks) (hc : Agrees T g c) :
    ∃ g' c', (xs.mapM copy).run c = (xs.map (rename g'), c') ∧ Agrees T g' c' ∧
      Grows g c g' c' (xs.flatMap marks) := by
  induction xs generalizing c g with
  | nil => exact ⟨g, c, rfl, hc, .refl_of_met (by simp)⟩
  | cons x xs ih =>
      rw [List.forall_mem_cons] at hxs
      obtain ⟨g₁, c₁, hx, hc₁, hgrows₁⟩ := hxs.1 c g hc
      obtain ⟨g₂, c₂, hxs', hc₂, hgrows₂⟩ := ih hxs.2 hc₁
      refine ⟨g₂, c₂, ?_, hc₂, hgrows₁.trans hgrows₂⟩
      have hkept : x.rename g₁ = x.rename g₂ :=
        rename_congr fun i hi => (hgrows₂.kept i ((hgrows₁.met i).mpr (.inr hi))).symm
      rw [List.mapM_cons, StateT.run_bind, hx]
      show ((xs.mapM copy >>= fun ys => pure (x.rename g₁ :: ys)).run c₁) = _
      rw [StateT.run_bind, hxs', hkept]
      rfl

theorem run_copy (hv : Stored T v) (hcopy : v.copiable = true) :
    ∀ c g, Agrees T g c → ∃ g' c', v.copy.run c = (v.rename g', c') ∧ Agrees T g' c' ∧
      Grows g c g' c' v.marks := by
  induction v using contents_induction with
  | step v ih =>
      intro c g hc
      obtain ⟨hview, hcontents⟩ := copiable_iff.mp hcopy
      have hparts : ∀ c g, Agrees T g c → ∃ g' c', (v.contents.mapM copy).run c =
          (v.contents.map (rename g'), c') ∧ Agrees T g' c' ∧
            Grows g c g' c' (v.contents.flatMap marks) :=
        fun c g => run_map_m_copy fun w hw => ih w hw (hv.inside w hw) (hcontents w hw)
      rw [copy_eq hview hv.identified]
      split
      case isTrue hthing =>
        obtain ⟨i, hi, hT⟩ := hv.held hthing
        rw [hi]
        cases hfound : c.copies.lookup i with
        | some w =>
            have hmet := mem_met_of_lookup hfound
            obtain rfl : w = v.rename g := by rw [hc.copied i w hfound, hT]
            refine ⟨g, c, run_once_of_some hfound, hc, .refl_of_met ?_⟩
            exact marks_subset_met hc hv hi hmet
        | none =>
            obtain ⟨g', c', hrun, hc', hgrows⟩ := hparts _ _ hc.take
            obtain ⟨g'', hmade, hagrees, hgrows⟩ :=
              hc.add hc' hgrows hv hi (not_mem_met_of_lookup hfound)
            refine ⟨g'', _, ?_, hagrees, hgrows⟩
            have hrun : (do
                  let i ← Copying.take
                  let ys ← v.contents.mapM copy
                  return rebuild v (some i) ys : StateM Copying Value).run c =
                (v.rename g'', c') := by
              rw [← hmade]
              show (v.contents.mapM copy >>= fun ys => pure (rebuild v (some c.next) ys)).run
                { c with next := c.next.next } = _
              rw [StateT.run_bind, hrun]
              rfl
            rw [run_once_of_none hfound, hrun]
      case isFalse hthing =>
        obtain ⟨g', c', hrun, hc', hgrows⟩ := hparts c g hc
        refine ⟨g', c', ?_, hc', ?_⟩
        · rw [StateT.run_bind, hrun, rename_eq]
          rw [rebuild_eq_of_not_thing (by simpa using hthing) (v.ownMark.map g') none]
          rfl
        · have hmarks : v.marks = v.contents.flatMap marks := by
            rw [marks_eq, own_mark_eq_none (by simpa using hthing)]
            rfl
          rwa [hmarks]

/-- The copy of a value that can be copied is the value with other marks. These are new, and they
are different for different things. -/
theorem exists_copy (hv : Stored T v) (hcopy : v.copiable = true) (start : Identity) :
    ∃ g next, v.copy? start = some (v.rename g, next) ∧ Identity.From start next ∧
      (∀ i ∈ v.marks, ∀ j ∈ v.marks, g i = g j → i = j) ∧
      ∀ i ∈ v.marks, Identity.From start (g i) ∧ ¬ Identity.From next (g i) := by
  obtain ⟨g, c, hrun, hagrees, hgrows⟩ := run_copy hv hcopy _ id (.start T id start)
  have hmet : ∀ i, i ∈ c.met ↔ i ∈ v.marks := fun i =>
    (hgrows.met i).trans (or_iff_right (by simp [met]))
  refine ⟨g, c.next, ?_, hgrows.later, fun i hi j hj => ?_, fun i hi => ⟨?_, ?_⟩⟩
  · rw [copy?, if_pos hcopy, hrun]
  · exact hagrees.injective i ((hmet i).mpr hi) j ((hmet j).mpr hj)
  · exact hgrows.new i ((hmet i).mpr hi) (by simp [met])
  · exact hagrees.old i ((hmet i).mpr hi)

/-- There is no copy of a value that holds a view. -/
theorem copy_eq_none (hcopy : v.copiable = false) (start : Identity) : v.copy? start = none := by
  rw [copy?, hcopy]
  rfl

end Value

end Statechart
