import Statechart.Patch.Standard
import Statechart.Proofs.Patch.Live

/-!
# The laws of JSON patch operations

JSON patch operations see no identities, whether a library puts in copies of values or the values
themselves. Read `standard_blind`, `standard_copies` and `sharing_blind`. An operation either takes
a value and puts it in, or only rearranges the document, as `run_apply` says, so each of its
properties is proved for these two cases. `apply_adding` is a patch of one such operation.
-/

namespace Statechart.Patch

open Value

variable {T T' : Identity → Value} {n n' : Identity} {put : Value → Making Value} {o : Operation}
  {doc doc' v w raw : Value} {is js : List Identity} {r : Value × Identity}
  {π : Equiv.Perm Identity}

/-! ## What operations do -/

/-- The value that an operation takes, from what it was given or from the document. -/
def Operation.operand? (o : Operation) (doc : Value) : Option (Except PatchFault Value) :=
  match o.verb with
  | .add => some o.value
  | .replace => some o.value
  | .copy => some do taken doc (← o.source)
  | _ => none

/-- What an operation makes of the value that it takes. -/
def Operation.prepare (put : Value → Making Value) (o : Operation) : Value → Making Value :=
  match o.verb with
  | .copy => Making.copied
  | _ => put

/-- Puts a value where an operation puts what it takes. -/
def Operation.place (o : Operation) (v doc : Value) : Except PatchFault Value :=
  match o.verb, o.path with
  | .replace, [] => .ok v
  | .replace, part :: rest => change (replaceAt v) doc part rest
  | _, path => addAt v doc path

/-- What an operation that takes no value does to a document. -/
def Operation.rearrange (o : Operation) (doc : Value) : Except PatchFault Value :=
  match o.verb with
  | .remove => removeFrom doc o.path
  | .move => do moveValue doc (← o.source) o.path
  | _ => testValue o doc

/-- An operation puts what it makes of the value that it takes into the document, or rearranges
it. -/
theorem run_apply (put : Value → Making Value) (o : Operation) (doc : Value) (n : Identity) :
    (o.apply put doc).run n = match o.operand? doc with
      | some operand => liftPatch operand >>= fun v => (o.prepare put v).run n >>= fun r =>
          (liftPatch (o.place r.1 doc)).map fun doc' => (doc', r.2)
      | none => (liftPatch (o.rearrange doc)).map fun doc' => (doc', n) := by
  rcases o with ⟨verb, path, fields⟩
  cases verb with
  | add =>
      simp only [Operation.apply, Making.run_bind, Making.run_lift, Operation.operand?]
      cases Operation.value ⟨.add, path, fields⟩ <;> rfl
  | replace =>
      simp only [Operation.apply, Making.run_bind, Making.run_lift, Operation.operand?]
      cases Operation.value ⟨.replace, path, fields⟩ with
      | error e => rfl
      | ok v => cases path <;> rfl
  | copy =>
      simp only [Operation.apply, Making.run_bind, Making.run_lift, Operation.operand?]
      cases (Operation.source ⟨.copy, path, fields⟩ >>= taken doc) <;> rfl
  | remove => exact Making.run_lift _ n
  | move => exact Making.run_lift _ n
  | test => exact Making.run_lift _ n

theorem run_step (put : Value → Making Value) (raw doc : Value) (n : Identity) :
    ((Library.putting put).step raw doc).run n =
      operation raw >>= fun o => (o.apply put doc).run n := by
  rw [Library.putting, Making.run_bind, Making.run_lift]
  cases operation raw <;> rfl

theorem lift_patch_eq_ok {α : Type} {x : Except PatchFault α} {a : α}
    (h : liftPatch x = .ok a) : x = .ok a :=
  map_error_eq_ok.mp h

theorem entries_of_operation (h : operation raw = .ok o) : raw.entries? = some o.fields := by
  have hread := lift_patch_eq_ok h
  cases hfields : raw.entries? with
  | none =>
      rw [Operation.read, hfields] at hread
      cases hread
  | some fields =>
      rw [read_of_entries hfields] at hread
      split at hread
      · split at hread
        · cases hread
        · obtain ⟨path, -, hread⟩ := bind_eq_ok.mp hread
          obtain rfl := Except.ok.inj hread
          rfl
      · cases hread

/-- What an operation takes stands in what it was given, or in the document when it is copied. -/
theorem operand_eq_ok (put : Value → Making Value) (ho : operation raw = .ok o)
    (h : o.operand? doc = some (.ok v)) :
    (o.prepare put = put ∧ v ∈ raw.contents) ∨
    (o.prepare put = Making.copied ∧ ∃ path, taken doc path = .ok v) := by
  have hvalue : o.value = .ok v → v ∈ raw.contents := by
    intro hv
    rw [Operation.value] at hv
    cases hget : Table.getText? o.fields "value" with
    | none =>
        rw [hget] at hv
        cases hv
    | some w =>
        rw [hget] at hv
        obtain rfl := Except.ok.inj hv
        exact mem_contents_of_get_text (entries_of_operation ho) hget
  rcases o with ⟨verb, path, fields⟩
  cases verb with
  | add => exact .inl ⟨rfl, hvalue (Option.some.inj h)⟩
  | replace => exact .inl ⟨rfl, hvalue (Option.some.inj h)⟩
  | copy =>
      obtain ⟨source, -, htaken⟩ := bind_eq_ok.mp (Option.some.inj h)
      exact .inr ⟨rfl, source, htaken⟩
  | _ => cases h

/-! ## What comes about -/

theorem Made.mono (h : Made n is r) (his : ∀ i ∈ is, i ∈ js) : Made n js r := by
  obtain ⟨T, hlive⟩ := h.live
  exact ⟨h.later, T, hlive.mono fun i => Or.imp_left (his i)⟩

section

variable {M : Identity → Prop}

theorem exists_live_placed (hdoc : Live T M doc) (hv : Live T M v)
    (houtside : Outside v doc o.path) (h : o.place v doc = .ok doc') : ∃ T', Live T' M doc' := by
  rcases o with ⟨verb, path, fields⟩
  cases verb with
  | replace =>
      cases path with
      | nil =>
          obtain rfl := Except.ok.inj h
          exact ⟨T, hv⟩
      | cons part rest =>
          exact exists_live_change (f := replaceAt v) hdoc hv (fun _ _ _ => .replace_at)
            houtside h
  | _ => exact exists_live_added hdoc hv houtside h

theorem eq_of_test_value (h : testValue o doc = .ok doc') : doc' = doc := by
  obtain ⟨found, -, h⟩ := bind_eq_ok.mp h
  obtain ⟨v, -, h⟩ := bind_eq_ok.mp h
  cases found with
  | none => cases h
  | some w =>
      dsimp only at h
      split at h
      · exact (Except.ok.inj h).symm
      · cases h

theorem exists_live_rearranged (hdoc : Live T M doc) (h : o.rearrange doc = .ok doc') :
    ∃ T', Live T' M doc' := by
  rcases o with ⟨verb, path, fields⟩
  cases verb with
  | remove => exact exists_live_removed hdoc h
  | move =>
      obtain ⟨source, -, h⟩ := bind_eq_ok.mp h
      exact exists_live_moved hdoc h
  | _ => exact ⟨T, eq_of_test_value h ▸ hdoc⟩

end

/-- A document into which a value has been put that has no thing in common with it. -/
theorem made_placed (hdoc : Live T (fun i => ¬ Identity.From n i) doc) (hv : Made n is (v, n'))
    (happart : ∀ i ∈ is, i ∉ doc.marks) (h : o.place v doc = .ok doc') :
    Made n (is ++ doc.marks) (doc', n') := by
  obtain ⟨hlater, T', hv⟩ := hv
  have hown : Live T (fun i => i ∈ doc.marks) doc := ⟨hdoc.stored, hdoc.copiable, fun _ hi => hi⟩
  have hexclude : ∀ i, i ∈ doc.marks → ¬ (i ∈ is ∨ Identity.Between n n' i) := fun i hi hi' =>
    hi'.elim (fun his => happart i his hi) fun hnew => hdoc.marks i hi hnew.1
  obtain ⟨S, hdocS, hvS⟩ := hown.exists_common hv hexclude
  have houtside : Outside v doc o.path := outside_of_marks hown fun i hi hmem =>
    hexclude i hmem (hv.marks i hi)
  obtain ⟨S', hplaced⟩ := exists_live_placed hdocS hvS houtside h
  exact ⟨hlater, S', hplaced.mono fun i hi => by simpa [or_assoc, or_left_comm] using hi⟩

/-- What an operation makes of a document: what it puts in has no thing in common with it. -/
theorem made_apply (hready : Ready n raw doc) (ho : operation raw = .ok o)
    (happart : ∀ i ∈ is, i ∉ doc.marks)
    (hput : ∀ v ∈ raw.contents, ∀ r, (put v).run n = .ok r → Made n is r)
    (h : (o.apply put doc).run n = .ok r) : Made n (is ++ doc.marks) r := by
  obtain ⟨T, hdoc⟩ := hready.document
  rw [run_apply] at h
  cases hoperand : o.operand? doc with
  | none =>
      rw [hoperand] at h
      obtain ⟨doc', hdoc', rfl⟩ := map_eq_ok h
      have hown : Live T (fun i => i ∈ is ++ doc.marks ∨ Identity.Between n n i) doc :=
        ⟨hdoc.stored, hdoc.copiable, fun i hi => .inl (List.mem_append_right _ hi)⟩
      exact ⟨.refl n, exists_live_rearranged hown (lift_patch_eq_ok hdoc')⟩
  | some operand =>
      rw [hoperand] at h
      obtain ⟨v, hv, h⟩ := bind_eq_ok.mp h
      obtain ⟨w, hw, h⟩ := bind_eq_ok.mp h
      obtain ⟨doc', hplaced, rfl⟩ := map_eq_ok h
      rw [lift_patch_eq_ok hv] at hoperand
      refine made_placed hdoc ?_ happart (lift_patch_eq_ok hplaced)
      rcases operand_eq_ok put ho hoperand with ⟨heq, hmem⟩ | ⟨heq, path, htaken⟩
      · exact hput v hmem w (heq ▸ hw)
      · exact (copied_eq_ok (live_taken hdoc htaken).stored (heq ▸ hw)).2.mono (by simp)

/-! ## Operations on twins -/

/-- Whether what is put in beside a document is the same beside the document with other marks. -/
def PutsAlike (put : Value → Making Value) : Prop :=
  ∀ ⦃T : Identity → Value⦄ ⦃v doc : Value⦄ ⦃n n' : Identity⦄ (π : Equiv.Perm Identity),
    Stored T v → (∀ i ∈ doc.marks, ¬ Identity.From n i) →
    (∀ i ∈ doc.marks, ¬ Identity.From n' (π i)) →
      Agree (fun a b => ∃ ρ : Equiv.Perm Identity, doc.rename ρ = doc.rename π ∧
          a.1.rename ρ = b.1)
        ((put v).run n) ((put (v.rename π)).run n')

theorem puts_alike_pure : PutsAlike pure := by
  intro T v doc n n' π _ _ _
  exact .ok ⟨π, rfl, rfl⟩

/-- Copies that are made beside a document and beside this document with other marks differ in their
marks as the documents do. -/
theorem puts_alike_copied : PutsAlike Making.copied := by
  intro T v doc n n' π hv hold hold'
  rw [Making.run_copied, Making.run_copied]
  cases hcopy : v.copiable with
  | false =>
      rw [copy_eq_none hcopy, copy_eq_none (by rw [copiable_rename, hcopy])]
      exact .error _
  | true =>
      obtain ⟨σ, next, hrun, -, hmarks⟩ := exists_copy_twin hv hcopy n
      obtain ⟨σ', next', hrun', -, hmarks'⟩ :=
        exists_copy_twin (hv.rename π) (by rw [copiable_rename, hcopy]) n'
      -- From one copy back to the value, and from there to the other copy.
      obtain ⟨ρ, hρ, hρ'⟩ := exists_common (σ := π) (τ := σ.symm.trans (π.trans σ'))
        doc.marks (v.rename σ).marks (by
          intro i hi hj
          rw [marks_rename] at hj
          obtain ⟨k, hk, rfl⟩ := List.mem_map.mp hj
          exact hold _ hi (hmarks k hk).1) (by
          intro i hi j hj heq
          rw [marks_rename] at hj
          obtain ⟨k, hk, rfl⟩ := List.mem_map.mp hj
          have hnew : Identity.From n' (σ' (π k)) := (hmarks' _ (mem_marks_rename π hk)).1
          exact hold' i hi (heq ▸ by simpa using hnew))
      rw [hrun, hrun']
      refine .ok ⟨ρ, rename_congr hρ, ?_⟩
      rw [rename_congr hρ', rename_rename, rename_rename]
      exact rename_congr fun i _ => by simp

/-- An operation takes what it takes with other marks. -/
theorem operand_rename (π : Equiv.Perm Identity) (o : Operation) (doc : Value) :
    (o.rename π).operand? (doc.rename π) = (o.operand? doc).map (Except.map (Value.rename π)) := by
  rcases o with ⟨verb, path, fields⟩
  cases verb with
  | add => exact congrArg some (value_rename π _)
  | replace => exact congrArg some (value_rename π _)
  | copy =>
      refine congrArg some ?_
      rw [source_rename]
      cases Operation.source ⟨.copy, path, fields⟩ with
      | error e => rfl
      | ok source => exact taken_rename π doc source
  | _ => rfl

theorem place_rename (π τ : Equiv.Perm Identity) (o : Operation) (v doc : Value) :
    (o.rename τ).place (v.rename π) (doc.rename π) = (o.place v doc).map (Value.rename π) := by
  rcases o with ⟨verb, path, fields⟩
  cases verb with
  | replace =>
      cases path with
      | nil => rfl
      | cons part rest => exact change_rename π.injective (renames_replace_at π v) doc part rest
  | _ => exact add_at_rename π.injective v doc path

theorem rearrange_rename (π : Equiv.Perm Identity) (o : Operation) (doc : Value) :
    (o.rename π).rearrange (doc.rename π) = (o.rearrange doc).map (Value.rename π) := by
  rcases o with ⟨verb, path, fields⟩
  cases verb with
  | remove => exact remove_from_rename π.injective doc path
  | move =>
      show (Operation.source _ >>= _) = (Operation.source _ >>= _).map _
      rw [source_rename]
      cases Operation.source ⟨.move, path, fields⟩ with
      | error e => rfl
      | ok source => exact move_value_rename π.injective doc source path
  | _ => exact test_value_rename π.injective _ doc

/-- An operation does with other marks what it does. -/
theorem agree_apply (hput : PutsAlike put) (hraw : Stored T raw) (ho : operation raw = .ok o)
    (hdoc : Live T' (fun i => ¬ Identity.From n i) doc)
    (hdoc' : ∀ i ∈ doc.marks, ¬ Identity.From n' (π i)) :
    Agree (fun a b => Twin a.1 b.1) ((o.apply put doc).run n)
      (((o.rename π).apply put (doc.rename π)).run n') := by
  rw [run_apply, run_apply, operand_rename]
  cases hoperand : o.operand? doc with
  | none =>
      simp only [Option.map_none, rearrange_rename]
      cases o.rearrange doc with
      | error e => exact .error _
      | ok w => exact .ok ⟨π, rfl⟩
  | some operand =>
      cases operand with
      | error e => exact .error _
      | ok v =>
          obtain ⟨hprepare, S, hv⟩ : PutsAlike (o.prepare put) ∧ ∃ T, Stored T v := by
            rcases operand_eq_ok put ho hoperand with ⟨heq, hmem⟩ | ⟨heq, path, htaken⟩
            · exact ⟨by rwa [heq], T, hraw.inside v hmem⟩
            · exact ⟨by rw [heq]; exact puts_alike_copied, T', (live_taken hdoc htaken).stored⟩
          refine (hprepare π hv hdoc.marks hdoc').bind fun a b hab => ?_
          obtain ⟨ρ, hρ, hb⟩ := hab
          rw [← hb, ← hρ, place_rename]
          cases o.place a.1 doc with
          | error e => exact .error _
          | ok w => exact .ok ⟨ρ, rfl⟩

/-! ## The laws -/

theorem operation_rename (π : Equiv.Perm Identity) (raw : Value) :
    operation (raw.rename π) = (operation raw).map (Operation.rename π) := by
  rw [operation, operation, read_rename]
  cases Operation.read raw <;> rfl

/-- Operations on documents that differ in their marks end alike, however values are put in. -/
theorem agree_step (hput : PutsAlike put) {raw' doc' : Value} (h : Ready n raw doc)
    (h' : Ready n' raw' doc') (hraw : Twin raw raw') (hdoc : Twin doc doc') :
    Agree (fun a b => Twin a.1 b.1) (((Library.putting put).step raw doc).run n)
      (((Library.putting put).step raw' doc').run n') := by
  obtain ⟨τ, rfl⟩ := hraw
  obtain ⟨σ, rfl⟩ := hdoc
  obtain ⟨S, hraw⟩ := h.operation
  obtain ⟨T, hdoc⟩ := h.document
  obtain ⟨T', hdoc'⟩ := h'.document
  -- As they have nothing in common, one permutation does for the operation and the document.
  obtain ⟨π, hσ, hτ⟩ := exists_common (σ := σ) (τ := τ) doc.marks raw.marks
    (fun i hi hmem => h.apart i hmem hi) fun i hi j hj heq =>
      h'.apart (τ j) (mem_marks_rename τ hj) (heq ▸ mem_marks_rename σ hi)
  have hold : ∀ i ∈ doc.marks, ¬ Identity.From n' (π i) := fun i hi =>
    hσ i hi ▸ hdoc'.marks _ (mem_marks_rename σ hi)
  rw [← rename_congr hσ, ← rename_congr hτ, run_step, run_step, operation_rename]
  cases ho : operation raw with
  | error e => exact .error e
  | ok o => exact agree_apply hput hraw ho hdoc hold

theorem check_twin {raw' : Value} (h : Twin raw raw') :
    (Library.putting put).check raw = (Library.putting put).check raw' := by
  obtain ⟨τ, rfl⟩ := h
  show (operation raw).map _ = (operation (raw.rename τ)).map _
  rw [operation_rename]
  cases operation raw <;> rfl

theorem standard_copies : Library.standard.Copies := by
  intro n raw doc r hready h
  obtain ⟨T, hraw⟩ := hready.operation
  rw [Library.standard, run_step] at h
  obtain ⟨o, ho, h⟩ := bind_eq_ok.mp h
  have hmade : Made n ([] ++ doc.marks) r := made_apply hready ho (by simp)
    (fun v hv r hr => (copied_eq_ok (hraw.inside v hv) hr).2) h
  exact hmade

theorem standard_blind : Library.standard.Blind where
  check := check_twin
  step := agree_step puts_alike_copied
  made hready _ h := (standard_copies hready h).mono fun _ => List.mem_append_right _

/-- The library that puts in a value itself, which the document then shares with the operation. -/
def Library.sharing : Library :=
  .putting pure

theorem sharing_blind : Library.sharing.Blind where
  check := check_twin
  step := agree_step puts_alike_pure
  made := by
    intro n raw doc r hready hcopiable h
    obtain ⟨T, hraw⟩ := hready.operation
    rw [Library.sharing, run_step] at h
    obtain ⟨o, ho, h⟩ := bind_eq_ok.mp h
    have hlive : Live T (fun i => i ∈ raw.marks) raw := ⟨hraw, hcopiable, fun _ hi => hi⟩
    refine made_apply hready ho hready.apart (fun v hv r hr => ?_) h
    obtain rfl := Except.ok.inj hr
    exact ⟨.refl n, T, (hlive.inside hv).mono fun _ => .inl⟩

/-! ## Adding a member -/

/-- Adding a member to a table stores it under its name. -/
theorem add_member (i : Identity) (es : Table) (name : String) (v : Value) :
    addAt v (.dict (some i) es) [name] = .ok (.dict (some i) (es.insert (.text name) v)) := by
  simp [addAt, change, last, step, insertAt, Value.isMapping, Value.entries?, Value.edited,
    Value.containerMark, Value.put]

/-- A patch that adds one member to a table: the copy of the value is stored in a copy of the
table. -/
theorem apply_adding {start next next' i : Identity} {es fields : Table} {name : String}
    (m : Mark) (ho : operation raw = .ok ⟨.add, [name], fields⟩)
    (hcopy : doc.copy? start = some (.dict (some i) es, next))
    (hv : Table.getText? fields "value" = some v) (hw : v.copy? next = some (w, next')) :
    apply .standard start doc (.list m [raw]) =
      .ok (.dict (some i) (es.insert (.text name) w)) := by
  have hoperand : (⟨.add, [name], fields⟩ : Operation).value = .ok v := by
    simp [Operation.value, hv]
  have hlift : ∀ x : Value, liftPatch (.ok x) = .ok x := fun _ => rfl
  have hcheck : Library.standard.checkAll [raw] = .ok () := by
    simp [Library.checkAll, Library.standard, Library.putting, ho, Except.map]
  have hstep : ((Library.standard.step raw (.dict (some i) es)).run next) =
      .ok (.dict (some i) (es.insert (.text name) w), next') := by
    rw [Library.standard, run_step, ho]
    simp [Operation.apply, hoperand, hlift, Making.run_copied, hw, add_member]
  rw [apply_list m (by simp), hcheck, ok_bind, Making.run_copied, hcopy, ok_bind,
    Library.stepAll, Making.run_bind, hstep]
  rfl

end Statechart.Patch
