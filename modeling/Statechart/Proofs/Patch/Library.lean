import Statechart.Patch.Library
import Statechart.Proofs.Outcome
import Statechart.Proofs.Value.Twin

/-!
# Libraries that see no identities

Operations are about documents, in which identities play no part: `Library.Blind` is this law for a
library, stated for one operation on one document. Read `Blind.step_all` first: what all operations
of a patch make of a document is what twins of them make of a twin of it, wherever the marks of the
one and of the other start.

A library may put a value of an operation into a document as it is, and a later change of the
document is then one of the operation too. Such a library is given operations here that have nothing
in common, as `Owned` says; one that puts in copies may be given any.
-/

namespace Statechart

/-- Whether an identity is one of those that a supply gives from one on and before another. -/
def Identity.Between (start next i : Identity) : Prop :=
  Identity.From start i ∧ ¬ Identity.From next i

namespace Making

variable {α β : Type}

theorem run_bind (x : Making α) (f : α → Making β) (n : Identity) :
    (x >>= f).run n = x.run n >>= fun r => (f r.1).run r.2 := rfl

theorem run_lift (x : Except Error α) (n : Identity) :
    (liftM x : Making α).run n = x.map fun a => (a, n) := by
  cases x <;> rfl

theorem run_copied (v : Value) (n : Identity) :
    (copied v).run n = match v.copy? n with
      | some r => .ok r
      | none => .error .wrongType := by
  cases hcopy : v.copy? n with
  | none =>
      simp [copied, hcopy]
      rfl
  | some r => simp [copied, hcopy]

end Making

namespace Patch

open Value

variable {T T' : Identity → Value} {M M' : Identity → Prop} {lib : Library}
  {start start' n n' : Identity} {v w raw raw' doc doc' : Value}
  {raws raws' rest rest' : List Value} {is : List Identity} {r r' : Value × Identity}

/-- A patch that lists operations checks them, copies the document and applies them in turn. -/
theorem apply_list (m : Mark) (hraws : raws ≠ []) :
    apply lib start doc (.list m raws) = lib.checkAll raws >>= fun _ =>
      (Making.copied doc).run start >>= fun r => ((lib.stepAll raws r.1).run r.2).map Prod.fst := by
  cases raws with
  | nil => exact absurd rfl hraws
  | cons raw raws =>
      show ((liftM (lib.checkAll (raw :: raws)) : Making Unit).run start >>= fun c =>
        (Making.copied doc).run c.2 >>= fun r =>
          (lib.stepAll (raw :: raws) r.1).run r.2).map Prod.fst = _
      rw [Making.run_lift]
      cases lib.checkAll (raw :: raws) with
      | error e => rfl
      | ok _ =>
          show ((Making.copied doc).run start >>= fun r =>
            (lib.stepAll (raw :: raws) r.1).run r.2).map Prod.fst = _
          cases (Making.copied doc).run start <;> rfl

/-! ## Live values -/

/-- A value in a store that can be copied and whose marks are of a given kind. -/
structure Live (T : Identity → Value) (M : Identity → Prop) (v : Value) : Prop where
  stored : Stored T v
  copiable : v.copiable = true
  marks : ∀ i ∈ v.marks, M i

namespace Live

theorem inside (h : Live T M v) (hw : w ∈ v.contents) : Live T M w :=
  ⟨h.stored.inside w hw, (copiable_iff.mp h.copiable).2 w hw,
    fun i hi => h.marks i (mem_marks.mpr (.inr ⟨w, hw, hi⟩))⟩

theorem mono (h : Live T M v) (hM : ∀ i, M i → M' i) : Live T M' v :=
  ⟨h.stored, h.copiable, fun i hi => hM i (h.marks i hi)⟩

/-- A value without parts and without a mark is in every store. -/
theorem plain (hcontents : v.contents = []) (hthing : v.isThing = false)
    (hidentified : v.isIdentified = true) (hview : ∀ es, v ≠ .view es) : Live T M v := by
  refine ⟨.intro hidentified (by simp [hthing]) (by simp [hcontents]), ?_, ?_⟩
  · exact copiable_iff.mpr ⟨hview, by simp [hcontents]⟩
  · simp [marks_eq, hcontents, own_mark_eq_none hthing]

theorem text (s : String) : Live T M (.text s) :=
  plain rfl rfl rfl (by simp)

theorem int (n : Int) : Live T M (.int n) :=
  plain rfl rfl rfl (by simp)

theorem null : Live T M .null :=
  plain rfl rfl rfl (by simp)

/-- Values whose marks are of kinds that exclude each other are in one store. -/
theorem exists_common (hv : Live T M v) (hw : Live T' M' w) (hapart : ∀ i, M i → ¬ M' i) :
    ∃ S, Live S (fun i => M i ∨ M' i) v ∧ Live S (fun i => M i ∨ M' i) w := by
  obtain ⟨S, hSv, hSw, -⟩ := hv.stored.exists_common hw.stored fun i hi hi' =>
    hapart i (hv.marks i hi) (hw.marks i hi')
  exact ⟨S, ⟨hSv, hv.copiable, fun i hi => .inl (hv.marks i hi)⟩,
    ⟨hSw, hw.copiable, fun i hi => .inr (hw.marks i hi)⟩⟩

end Live

/-! ## The law of a step -/

/-- An operation and a document before a step: they are in stores, they have no thing in common, and
their marks come before those that the step gives. -/
structure Ready (n : Identity) (raw doc : Value) : Prop where
  operation : ∃ T, Stored T raw
  document : ∃ T, Live T (fun i => ¬ Identity.From n i) doc
  old : ∀ i ∈ raw.marks, ¬ Identity.From n i
  apart : ∀ i ∈ raw.marks, i ∉ doc.marks

/-- A document after a step, with the identity after those that the step has taken: its marks are
among given ones or new. -/
structure Made (n : Identity) (is : List Identity) (r : Value × Identity) : Prop where
  later : Identity.From n r.2
  live : ∃ T, Live T (fun i => i ∈ is ∨ Identity.Between n r.2 i) r.1

/-- Whether operations are about documents only. Twins of an operation are accepted or refused
alike, and on twins of a document they end in twins or fail alike; what comes about holds things of
the operation, of the document and new ones. -/
structure Library.Blind (lib : Library) : Prop where
  check : ∀ {raw raw' : Value}, Twin raw raw' → lib.check raw = lib.check raw'
  step : ∀ {n n' : Identity} {raw raw' doc doc' : Value}, Ready n raw doc → Ready n' raw' doc' →
    Twin raw raw' → Twin doc doc' →
      Agree (fun r r' => Twin r.1 r'.1) ((lib.step raw doc).run n) ((lib.step raw' doc').run n')
  made : ∀ {n : Identity} {raw doc : Value} {r : Value × Identity}, Ready n raw doc →
    raw.copiable = true → (lib.step raw doc).run n = .ok r → Made n (raw.marks ++ doc.marks) r

/-- Whether a library puts in copies: no thing of an operation gets into the document. -/
def Library.Copies (lib : Library) : Prop :=
  ∀ {n : Identity} {raw doc : Value} {r : Value × Identity}, Ready n raw doc →
    (lib.step raw doc).run n = .ok r → Made n doc.marks r

/-- Operations that can be copied and have no thing in common. -/
structure Owned (raws : List Value) : Prop where
  copiable : ∀ raw ∈ raws, raw.copiable = true
  apart : raws.Pairwise fun raw raw' => ∀ i ∈ raw.marks, i ∉ raw'.marks

/-! ## Drafts -/

/-- Operations of a patch whose marks start at an identity: they come from elsewhere, and what a
step puts into the document stands in none of those after it. -/
structure Given (lib : Library) (start : Identity) (raws : List Value) : Prop where
  stored : ∀ raw ∈ raws, ∃ T, Stored T raw
  old : ∀ raw ∈ raws, ∀ i ∈ raw.marks, ¬ Identity.From start i
  kept : lib.Copies ∨ Owned raws

/-- A document that a patch makes, with the identity after those that it has taken, before the given
operations. -/
structure Draft (lib : Library) (start : Identity) (raws : List Value) (r : Value × Identity) :
    Prop where
  later : Identity.From start r.2
  live : ∃ T, Live T (fun i => ¬ Identity.From r.2 i) r.1
  apart : ∀ raw ∈ raws, ∀ i ∈ raw.marks, i ∉ r.1.marks
  given : Given lib start raws

theorem Owned.tail (h : Owned (raw :: raws)) : Owned raws :=
  ⟨fun raw hraw => h.copiable raw (List.mem_cons_of_mem _ hraw), h.apart.of_cons⟩

theorem Given.tail (h : Given lib start (raw :: raws)) : Given lib start raws :=
  ⟨fun raw hraw => h.stored raw (List.mem_cons_of_mem _ hraw),
    fun raw hraw => h.old raw (List.mem_cons_of_mem _ hraw), h.kept.imp_right Owned.tail⟩

/-- A copy is a twin of its original, and all its marks are new. -/
theorem copied_eq_ok (hv : Stored T v) (h : (Making.copied v).run n = .ok r) :
    Twin v r.1 ∧ Made n [] r := by
  rw [Making.run_copied] at h
  cases hcopy : v.copiable with
  | false => simp [copy_eq_none hcopy] at h
  | true =>
      obtain ⟨σ, next, hrun, hnext, hmarks⟩ := exists_copy_twin hv hcopy n
      rw [hrun] at h
      obtain rfl := Except.ok.inj h
      refine ⟨⟨σ, rfl⟩, hnext, _, hv.rename σ, by rw [copiable_rename, hcopy], fun i hi => ?_⟩
      rw [marks_rename] at hi
      obtain ⟨j, hj, rfl⟩ := List.mem_map.mp hi
      exact .inr (hmarks j hj)

/-- A copy is a document before the first operation. -/
theorem draft_copied (hdoc : Stored T doc) (hcopy : (Making.copied doc).run start = .ok r)
    (hgiven : Given lib start raws) : Draft lib start raws r := by
  obtain ⟨-, hlater, S, hlive⟩ := copied_eq_ok hdoc hcopy
  have hnew : ∀ i ∈ r.1.marks, Identity.Between start r.2 i := fun i hi =>
    (hlive.marks i hi).resolve_left List.not_mem_nil
  exact ⟨hlater, ⟨S, hlive.stored, hlive.copiable, fun i hi => (hnew i hi).2⟩,
    fun raw hraw i hi hmem => hgiven.old raw hraw i hi (hnew i hmem).1, hgiven⟩

namespace Draft

theorem ready (h : Draft lib start (raw :: raws) (doc, n)) : Ready n raw doc :=
  ⟨h.given.stored raw (by simp), h.live,
    fun i hi hfrom => h.given.old raw (by simp) i hi (h.later.trans hfrom),
    h.apart raw (by simp)⟩

/-- What is made of a document is one before the next operation, if what has been put in stands in
none of the operations to come. -/
theorem of_made (h : Draft lib start (raw :: raws) (doc, n)) (hmade : Made n is r)
    (his : ∀ i ∈ is, ¬ Identity.From n i ∧ ∀ raw ∈ raws, i ∉ raw.marks) :
    Draft lib start raws r := by
  obtain ⟨hlater, T, hlive⟩ := hmade
  refine ⟨h.later.trans hlater, ⟨T, hlive.mono fun i hi => ?_⟩, fun raw' hraw' i hi hmem => ?_,
    h.given.tail⟩
  · exact hi.elim (fun hi hfrom => (his i hi).1 (hlater.trans hfrom)) And.right
  · rcases hlive.marks i hmem with hold | hnew
    · exact (his i hold).2 raw' hraw' hi
    · exact h.given.tail.old raw' hraw' i hi (h.later.trans hnew.1)

/-- A step makes a document before the next operation. -/
theorem step (hlib : lib.Blind) (h : Draft lib start (raw :: raws) (doc, n))
    (hstep : (lib.step raw doc).run n = .ok r) : Draft lib start raws r := by
  obtain ⟨T, hlive⟩ := h.live
  have hdoc : ∀ i ∈ doc.marks, ¬ Identity.From n i ∧ ∀ raw ∈ raws, i ∉ raw.marks := fun i hi =>
    ⟨hlive.marks i hi, fun raw hraw hmem => h.apart raw (List.mem_cons_of_mem _ hraw) i hmem hi⟩
  rcases h.given.kept with hcopies | howned
  · exact h.of_made (hcopies h.ready hstep) hdoc
  · refine h.of_made (hlib.made h.ready (howned.copiable raw (by simp)) hstep) fun i hi => ?_
    rcases List.mem_append.mp hi with hi | hi
    · exact ⟨h.ready.old i hi, fun raw' hraw' =>
        List.rel_of_pairwise_cons howned.apart hraw' i hi⟩
    · exact hdoc i hi

end Draft

/-! ## The law of a run -/

/-- Two documents that patches make, which are twins, before the given operations. -/
structure Twins (lib : Library) (start start' : Identity) (raws raws' : List Value)
    (r r' : Value × Identity) : Prop where
  twin : Twin r.1 r'.1
  left : Draft lib start raws r
  right : Draft lib start' raws' r'

/-- An operation and a twin of it make twins of twins, or fail alike. -/
theorem Library.Blind.step_twins (hlib : lib.Blind) (hraw : Twin raw raw')
    (h : Twins lib start start' (raw :: raws) (raw' :: raws') r r') :
    Agree (Twins lib start start' raws raws') ((lib.step raw r.1).run r.2)
      ((lib.step raw' r'.1).run r'.2) := by
  rcases (hlib.step h.left.ready h.right.ready hraw h.twin).settles with
    ⟨a, b, ha, hb, hab⟩ | ⟨e, ha, hb⟩
  · rw [ha, hb]
    exact .ok ⟨hab, h.left.step hlib ha, h.right.step hlib hb⟩
  · rw [ha, hb]
    exact .error e

/-- Operations and twins of them make twins of twins, or fail alike. -/
theorem Library.Blind.step_all (hlib : lib.Blind) (hraws : List.Forall₂ Twin raws raws')
    (h : Twins lib start start' (raws ++ rest) (raws' ++ rest') r r') :
    Agree (Twins lib start start' rest rest') ((lib.stepAll raws r.1).run r.2)
      ((lib.stepAll raws' r'.1).run r'.2) := by
  induction hraws generalizing r r' with
  | nil => exact .ok h
  | cons hraw _ ih => exact (hlib.step_twins hraw h).bind fun _ _ => ih

theorem Library.Blind.check_all (hlib : lib.Blind) (hraws : List.Forall₂ Twin raws raws') :
    lib.checkAll raws = lib.checkAll raws' := by
  induction hraws with
  | nil => rfl
  | cons hraw _ ih => rw [Library.checkAll, Library.checkAll, hlib.check hraw, ih]

end Patch

end Statechart
