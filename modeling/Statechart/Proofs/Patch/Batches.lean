import Statechart.Proofs.Interpreter.Trace
import Statechart.Proofs.Patch.Library

/-!
# Patches in batches

`applyEach` applies one patch after the other, as the actions of an event do, each to a copy of what
the one before has left. Read `apply_each_settles` first: with a library that sees no identities it
does what a single patch of all the operations does. The single patch copies the document once and
checks all operations before the first is applied, so it may fail earlier and for another reason,
but it fails in the same cases.
-/

namespace Statechart.Patch

open Value

variable {lib : Library} {T : Identity → Value} {start start' : Identity} {doc u : Value}
  {ops xs ys rest : List Value} {opss : List (List Value)} {us : List Value}
  {τ τ' : Equiv.Perm Identity} {r : Value × Identity}

/-- Applies patches one after the other, the marks of each starting where the calls of the next
action do. -/
def applyEach (lib : Library) : Identity → List Value → Value → Except Error Value
  | _, [], doc => .ok doc
  | start, u :: us, doc => apply lib start doc u >>= applyEach lib start.nextAction us

/-- A value that lists others; null stands for none. -/
inductive Lists : List Value → Value → Prop where
  | null : Lists [] .null
  | list (m : Mark) (xs : List Value) : Lists xs (.list m xs)

/-- A patch that lists given operations, with other marks that the patch itself does not take. -/
def Batch (start : Identity) (ops : List Value) (u : Value) : Prop :=
  ∃ τ : Equiv.Perm Identity, Lists (ops.map (rename τ)) u ∧
    ∀ raw ∈ ops, ∀ i ∈ raw.marks, ¬ Identity.From start (τ i)

/-- Patches that list given operations, each with the marks that it has where it is applied. -/
inductive Batches : Identity → List (List Value) → List Value → Prop where
  | nil {start : Identity} : Batches start [] []
  | cons {start : Identity} {ops : List Value} {opss : List (List Value)} {u : Value}
      {us : List Value} (h : Batch start ops u) (hs : Batches start.nextAction opss us) :
      Batches start (ops :: opss) (u :: us)

/-! ## One patch -/

theorem apply_of_lists_nil (h : Lists [] u) : apply lib start doc u = .ok doc := by
  cases h <;> rfl

/-- A patch that lists operations checks them, copies the document and applies them in turn. -/
theorem apply_of_lists {raws : List Value} (h : Lists raws u) (hraws : raws ≠ []) :
    apply lib start doc u = lib.checkAll raws >>= fun _ =>
      (Making.copied doc).run start >>= fun r => ((lib.stepAll raws r.1).run r.2).map Prod.fst := by
  cases h with
  | null => exact absurd rfl hraws
  | list m => exact apply_list m hraws

theorem twins_rename (ops : List Value) (τ τ' : Equiv.Perm Identity) :
    List.Forall₂ Twin (ops.map (rename τ)) (ops.map (rename τ')) := by
  rw [List.forall₂_map_left_iff, List.forall₂_map_right_iff, List.forall₂_same]
  exact fun op _ => Twin.trans (Twin.symm ⟨τ, rfl⟩) ⟨τ', rfl⟩

theorem twins_renamed (ops : List Value) (τ : Equiv.Perm Identity) :
    List.Forall₂ Twin ops (ops.map (rename τ)) := by
  rw [List.forall₂_map_right_iff, List.forall₂_same]
  exact fun op _ => ⟨τ, rfl⟩

theorem Owned.left (h : Owned (xs ++ ys)) : Owned xs :=
  ⟨fun op hop => h.copiable op (List.mem_append_left _ hop), (List.pairwise_append.mp h.apart).1⟩

theorem Owned.right (h : Owned (xs ++ ys)) : Owned ys :=
  ⟨fun op hop => h.copiable op (List.mem_append_right _ hop),
    (List.pairwise_append.mp h.apart).2.1⟩

/-- Operations that have nothing in common do so with other marks. -/
theorem Owned.rename (h : Owned ops) (τ : Equiv.Perm Identity) :
    Owned (ops.map (Value.rename τ)) := by
  refine ⟨List.forall_mem_map.mpr fun op hop => ?_, List.pairwise_map.mpr (h.apart.imp ?_)⟩
  · rw [copiable_rename, h.copiable op hop]
  · intro op op' happart i hi hi'
    rw [marks_rename] at hi hi'
    obtain ⟨j, hj, rfl⟩ := List.mem_map.mp hi
    obtain ⟨k, hk, heq⟩ := List.mem_map.mp hi'
    exact happart j hj (τ.injective heq ▸ hk)

/-- The operations of a batch are given from elsewhere. -/
theorem given_of_batch (hstored : ∀ raw ∈ ops, ∃ T, Stored T raw)
    (hmarks : ∀ raw ∈ ops, ∀ i ∈ raw.marks, ¬ Identity.From start (τ i))
    (hkept : lib.Copies ∨ Owned ops) : Given lib start (ops.map (rename τ)) := by
  refine ⟨List.forall_mem_map.mpr fun op hop => ?_, List.forall_mem_map.mpr fun op hop i hi => ?_,
    hkept.imp_right fun h => h.rename τ⟩
  · obtain ⟨T, hT⟩ := hstored op hop
    exact ⟨_, hT.rename τ⟩
  · rw [marks_rename] at hi
    obtain ⟨j, hj, rfl⟩ := List.mem_map.mp hi
    exact hmarks op hop j hj

/-! ## Batches beside one patch -/

/-- A document between two patches and the draft of the single patch, which is a twin of it. -/
structure Beside (lib : Library) (start : Identity) (rest : List Value) (doc : Value)
    (r : Value × Identity) : Prop where
  stored : ∃ T, Stored T doc
  copiable : doc.copiable = true
  twin : Twin doc r.1
  draft : Draft lib start rest r

theorem check_all_append (xs ys : List Value) :
    lib.checkAll (xs ++ ys) = lib.checkAll xs >>= fun _ => lib.checkAll ys := by
  induction xs with
  | nil => rfl
  | cons x xs ih =>
      rw [List.cons_append, Library.checkAll, Library.checkAll, ih]
      cases lib.check x <;> rfl

theorem step_all_append (xs ys : List Value) (doc : Value) :
    lib.stepAll (xs ++ ys) doc = lib.stepAll xs doc >>= lib.stepAll ys := by
  induction xs generalizing doc with
  | nil => simp [Library.stepAll]
  | cons x xs ih => simp [Library.stepAll, ih]

theorem exists_copied (hdoc : Stored T doc) (hcopy : doc.copiable = true) (start : Identity) :
    ∃ r, (Making.copied doc).run start = .ok r := by
  obtain ⟨σ, next, hrun, -, -⟩ := exists_copy_twin hdoc hcopy start
  exact ⟨_, by rw [Making.run_copied, hrun]⟩

/-- A patch of one batch does what the single patch does with these operations. -/
theorem apply_beside (hlib : lib.Blind) (hu : Batch start ops u)
    (h : Beside lib start' (ops.map (rename τ') ++ rest) doc r)
    (hstored : ∀ raw ∈ ops, ∃ T, Stored T raw) (hkept : lib.Copies ∨ Owned ops)
    (hcheck : lib.checkAll ops = .ok ()) :
    Agree (Beside lib start' rest) (apply lib start doc u)
      ((lib.stepAll (ops.map (rename τ')) r.1).run r.2) := by
  obtain ⟨τ, hlists, hmarks⟩ := hu
  cases ops with
  | nil =>
      rw [apply_of_lists_nil hlists]
      exact .ok h
  | cons op ops =>
      -- The batch works on a copy, which is a twin of the draft of the single patch as well.
      obtain ⟨T, hdoc⟩ := h.stored
      obtain ⟨copy, hcopy⟩ := exists_copied hdoc h.copiable start
      have htwin := (copied_eq_ok hdoc hcopy).1
      have hdraft : Draft lib start ((op :: ops).map (rename τ) ++ []) copy := by
        rw [List.append_nil]
        exact draft_copied hdoc hcopy (given_of_batch hstored hmarks hkept)
      have hrun := hlib.step_all (twins_rename (op :: ops) τ τ')
        ⟨Twin.trans htwin.symm h.twin, hdraft, h.draft⟩
      rw [apply_of_lists hlists (by simp), ← hlib.check_all (twins_renamed _ τ), hcheck, ok_bind,
        hcopy, ok_bind]
      rcases hrun.settles with ⟨a, b, ha, hb, hab⟩ | ⟨e, ha, hb⟩
      · obtain ⟨T, hlive⟩ := hab.left.live
        rw [ha, hb]
        exact .ok ⟨⟨T, hlive.stored⟩, hlive.copiable, hab.twin, hab.right⟩
      · rw [ha, hb]
        exact .error e

/-- Patches of batches do what the single patch does after it has copied the document. -/
theorem apply_each_beside (hlib : lib.Blind) (hus : Batches start opss us)
    (h : Beside lib start' (opss.flatten.map (rename τ')) doc r)
    (hstored : ∀ raw ∈ opss.flatten, ∃ T, Stored T raw)
    (hkept : lib.Copies ∨ Owned opss.flatten) (hcheck : lib.checkAll opss.flatten = .ok ()) :
    Agree (Beside lib start' []) (applyEach lib start us doc)
      ((lib.stepAll (opss.flatten.map (rename τ')) r.1).run r.2) := by
  induction hus generalizing doc r with
  | nil => exact .ok h
  | @cons start ops opss u us hu _ ih =>
      rw [List.flatten_cons] at h hstored hkept hcheck
      rw [List.map_append] at h
      rw [check_all_append] at hcheck
      obtain ⟨_, hfirst, hrest⟩ := bind_eq_ok.mp hcheck
      rw [List.forall_mem_append] at hstored
      rw [List.flatten_cons, List.map_append, step_all_append, Making.run_bind]
      exact (apply_beside hlib hu h hstored.1 (hkept.imp_right .left) hfirst).bind fun d r' h' =>
        ih h' hstored.2 (hkept.imp_right .right) hrest

/-! ## Batches that fail -/

/-- Without operations nothing changes. -/
theorem apply_each_of_nil (hus : Batches start opss us) (hnil : opss.flatten = []) :
    applyEach lib start us doc = .ok doc := by
  induction hus with
  | nil => rfl
  | cons hu _ ih =>
      obtain ⟨rfl, hnil⟩ := List.append_eq_nil_iff.mp hnil
      obtain ⟨τ, hlists, -⟩ := hu
      rw [applyEach, apply_of_lists_nil hlists]
      exact ih hnil

/-- An operation that is refused is refused when its batch comes. -/
theorem apply_each_refused {error : Error} (hlib : lib.Blind) (hus : Batches start opss us)
    (hcheck : lib.checkAll opss.flatten = .error error) (doc : Value) :
    ∃ error, applyEach lib start us doc = .error error := by
  induction hus generalizing doc with
  | nil => cases hcheck
  | @cons start ops opss u us hu _ ih =>
      obtain ⟨τ, hlists, -⟩ := hu
      rw [List.flatten_cons, check_all_append] at hcheck
      rw [applyEach]
      cases happly : apply lib start doc u with
      | error error => exact ⟨error, rfl⟩
      | ok doc' =>
          rcases bind_eq_error.mp hcheck with hfirst | ⟨_, -, hrest⟩
          · have hops : ops.map (rename τ) ≠ [] := by
              rintro hnil
              rw [List.map_eq_nil_iff] at hnil
              subst hnil
              cases hfirst
            rw [apply_of_lists hlists hops, ← hlib.check_all (twins_renamed ops τ),
              hfirst] at happly
            cases happly
          · exact ih hrest doc'

/-- A document that cannot be copied is refused when the first batch with an operation comes. -/
theorem apply_each_not_copiable (hus : Batches start opss us) (hcopy : doc.copiable = false)
    (hops : opss.flatten ≠ []) : ∃ error, applyEach lib start us doc = .error error := by
  induction hus with
  | nil => exact absurd rfl hops
  | @cons start ops opss u us hu _ ih =>
      obtain ⟨τ, hlists, -⟩ := hu
      rw [applyEach]
      cases ops with
      | nil =>
          rw [apply_of_lists_nil hlists]
          exact ih hops
      | cons op ops =>
          rw [apply_of_lists hlists (by simp), Making.run_copied, copy_eq_none hcopy]
          cases lib.checkAll ((op :: ops).map (rename τ)) with
          | error error => exact ⟨error, rfl⟩
          | ok _ => exact ⟨.wrongType, rfl⟩

/-! ## Batches and one patch -/

/-- Patches in batches and the single patch of all their operations both succeed, with documents
that are twins, or both fail. -/
theorem apply_each_settles (hlib : lib.Blind) (hus : Batches start opss us)
    (hu : Batch start' opss.flatten u) (hdoc : Stored T doc)
    (hstored : ∀ raw ∈ opss.flatten, ∃ T, Stored T raw)
    (hkept : lib.Copies ∨ Owned opss.flatten) :
    (∃ d d', applyEach lib start us doc = .ok d ∧ apply lib start' doc u = .ok d' ∧ Twin d d' ∧
      ∃ T, Stored T d) ∨
    ∃ error error', applyEach lib start us doc = .error error ∧
      apply lib start' doc u = .error error' := by
  obtain ⟨τ, hlists, hmarks⟩ := hu
  by_cases hops : opss.flatten = []
  · rw [hops] at hlists
    exact .inl ⟨doc, doc, apply_each_of_nil hus hops, apply_of_lists_nil hlists, .refl doc, T, hdoc⟩
  rw [apply_of_lists hlists (by simpa using hops), ← hlib.check_all (twins_renamed _ τ)]
  cases hcheck : lib.checkAll opss.flatten with
  | error error =>
      obtain ⟨error', herror⟩ := apply_each_refused hlib hus hcheck doc
      exact .inr ⟨error', error, herror, rfl⟩
  | ok _ =>
      -- All operations are accepted, so the single patch copies the document.
      rw [ok_bind]
      cases hcopy : doc.copiable with
      | false =>
          obtain ⟨error, herror⟩ := apply_each_not_copiable hus hcopy hops
          refine .inr ⟨error, .wrongType, herror, ?_⟩
          rw [Making.run_copied, copy_eq_none hcopy]
          rfl
      | true =>
          obtain ⟨copy, hrun⟩ := exists_copied hdoc hcopy start'
          have hbeside : Beside lib start' (opss.flatten.map (rename τ)) doc copy :=
            ⟨⟨T, hdoc⟩, hcopy, (copied_eq_ok hdoc hrun).1,
              draft_copied hdoc hrun (given_of_batch hstored hmarks hkept)⟩
          rw [hrun, ok_bind]
          rcases (apply_each_beside hlib hus hbeside hstored hkept hcheck).settles with
            ⟨d, r, hd, hr, h⟩ | ⟨error, hd, hr⟩
          · exact .inl ⟨d, r.1, hd, congrArg (Except.map Prod.fst) hr, h.twin, h.stored⟩
          · exact .inr ⟨error, error, hd, congrArg (Except.map Prod.fst) hr⟩

end Statechart.Patch
