import Statechart.Proofs.Interpreter.Reshaped

/-!
# Which factory an action asks for

An action carries an executable, a name, both or neither. An executable that can be called is the
factory; another one that is there is refused; without one, the name leads to the factory that is
registered under it. Read `Finds` and `finds_find` first: `factory_of_action` says the same for a
checked configuration and compares objects with tables, `number_without_text` is the one case in
which an action that is none is not reported as such.
-/

namespace Statechart

namespace Descriptor

variable {raw raw' factories f v : Value} {es : Table} {name other n : String}

/-- What an action has under a name, as a table or as an object; null when there is nothing. -/
def field (raw : Value) (name : String) : Value :=
  (match raw.entries? with
    | some es => Table.getText? es name
    | none => raw.attribute? name).getD .null

/-- The executable that an action carries: the factory of a descriptor, an action that can be called
itself, or what it has under `exec`. Null stands for none. -/
def executable : Value → Value
  | .embedded factory _ => factory
  | raw => if raw.isCallable then raw else field raw "exec"

/-- The name that an action carries: that of a descriptor, a text itself, or what it has under
`type`. -/
def nameOf : Value → Value
  | .text s => .text s
  | .named name _ => name
  | raw => field raw "type"

/-- The factory that an action asks for. -/
def find (raw factories : Value) : Except Error Value := do
  (← read raw).factory factories

/-- A descriptor whose parts are of the types that they are declared with; anything that is no
descriptor is one too. -/
inductive Proper : Value → Prop where
  | embedded {factory name : Value} (h : factory.isCallable = true) : Proper (.embedded factory name)
  | named {name : String} {params : Value} : Proper (.named (.text name) params)
  | other {raw : Value} (h : ofValue? raw = none) : Proper raw

/-- What the search for the factory of an action ends in, told by what the action carries. -/
inductive Finds (factories : Table) (raw : Value) : Except Error Value → Prop where
  | carried (h : (executable raw).isCallable = true) : Finds factories raw (.ok (executable raw))
  | refused (hexec : executable raw ≠ .null) (h : (executable raw).isCallable = false) :
      Finds factories raw (.error (.executableNotCallable raw (executable raw)))
  | registered {n : String} {f : Value} (hexec : executable raw = .null)
      (hname : nameOf raw = .text n) (h : factories.getText? n = some f) :
      Finds factories raw (.ok f)
  | unregistered {n : String} (d : Value) (hexec : executable raw = .null)
      (hname : nameOf raw = .text n) (h : factories.getText? n = none) :
      Finds factories raw (.error (.unresolvedFactory (.text n) d))
  | shapeless (hexec : executable raw = .null) (hname : ∀ n, nameOf raw ≠ .text n) :
      Finds factories raw (.error (.invalidAction raw))

/-! ## The fields of an action -/

/-- The attributes that can be listed are among those that can be read. -/
theorem listed_or_attribute (raw : Value) (name : String) :
    (raw.listedAttributes.lookup name).or (raw.attribute? name) = raw.attribute? name := by
  cases raw with
  | object m kind own shared =>
      rw [Value.listedAttributes]
      cases kind.slotted with
      | true => rfl
      | false =>
          show (own.lookup name).or ((own.lookup name).or (shared.lookup name)) = _
          rw [← Option.or_assoc, Option.or_self]
          rfl
  | record class' fields => exact Option.or_self
  | _ => rfl

/-- The fields of an action hold what it has under `type` and under `exec`. -/
theorem fields_eq_some {fields : Table} (h : fields? raw = some fields) :
    (fields.getText? "exec").getD .null = field raw "exec" ∧
      (fields.getText? "type").getD .null = field raw "type" := by
  unfold fields? at h
  unfold field
  cases hentries : raw.entries? with
  | some es =>
      rw [hentries] at h
      obtain rfl := Option.some.inj h
      exact ⟨rfl, rfl⟩
  | none =>
      rw [hentries] at h
      simp only at h
      split at h
      · obtain rfl := Option.some.inj h
        simp only [get_text_with_attribute, get_text_map, listed_or_attribute,
          if_true, if_false, String.reduceEq, and_self]
      · cases h

/-- An action without fields has nothing under `type` or under `exec`. -/
theorem fields_eq_none (h : fields? raw = none) :
    field raw "exec" = .null ∧ field raw "type" = .null := by
  unfold fields? at h
  unfold field
  cases hentries : raw.entries? with
  | some es =>
      rw [hentries] at h
      cases h
  | none =>
      rw [hentries] at h
      simp only at h
      split at h
      · cases h
      · rename_i hneither
        simp only [Bool.or_eq_true, not_or, Option.not_isSome_iff_eq_none] at hneither
        rw [hneither.1, hneither.2]
        exact ⟨rfl, rfl⟩

/-! ## The search -/

/-- A name is looked up in the table of factories. -/
theorem factory_named (hes : factories.entries? = some es) (n : String) (params : Value) :
    (named (.text n) params).factory factories =
      match es.getText? n with
      | some f => .ok f
      | none => .error (.unresolvedFactory (.text n) (.named (.text n) params)) := by
  have hmember : Value.member (.text n) factories = .ok (es.getText? n).isSome := by
    cases factories with
    | dict m ds =>
        obtain rfl := Option.some.inj hes
        rfl
    | view ds =>
        obtain rfl := Option.some.inj hes
        rfl
    | _ => cases hes
  have hindex : factories.index (.text n) = Value.atKey es (.text n) := by
    cases factories with
    | dict m ds =>
        obtain rfl := Option.some.inj hes
        rfl
    | view ds =>
        obtain rfl := Option.some.inj hes
        rfl
    | _ => cases hes
  have hkey : Value.atKey es (.text n) =
      match es.getText? n with
      | some f => .ok f
      | none => .error .missingKey := rfl
  rw [factory, hmember, ok_bind, hindex, hkey]
  cases es.getText? n <;> rfl

/-- The search among the fields of an action. -/
theorem finds_of_fields {fields : Table} (hes : factories.entries? = some es)
    (hexec : (fields.getText? "exec").getD .null = executable raw)
    (htype : (fields.getText? "type").getD .null = nameOf raw) :
    Finds es raw (ofFields raw fields >>= fun d => d.factory factories) := by
  rw [ofFields, hexec, htype]
  cases hcallable : (executable raw).isCallable with
  | true => exact .carried hcallable
  | false =>
      rw [if_neg Bool.false_ne_true]
      split
      case h_1 hnull hname =>
        rw [ok_bind, factory_named hes]
        split
        case h_1 hf => exact .registered hnull hname hf
        case h_2 hnone => exact .unregistered _ hnull hname hnone
      case h_2 hnull hname => exact .shapeless hnull hname
      case h_3 hnull _ => exact .refused hnull hcallable

/-- An action that is neither a descriptor nor a text is a factory itself or read by its fields. -/
theorem read_otherwise (hdescriptor : ofValue? raw = none) (htext : raw.text? = none) :
    (raw.isCallable = true ∧ ∃ name, read raw = .ok (.embedded raw name)) ∨
      raw.isCallable = false ∧
        read raw = (fields? raw).elim (.error (.invalidAction raw)) (ofFields raw) := by
  have hread : read raw = if raw.isCallable then
      .ok (.embedded raw ((raw.attribute? "__name__").getD .null))
      else (fields? raw).elim (.error (.invalidAction raw)) (ofFields raw) := by
    unfold read
    cases raw with
    | text s => cases htext
    | named name params => cases hdescriptor
    | embedded factory name => cases hdescriptor
    | _ => cases fields? _ <;> rfl
  rw [hread]
  cases raw.isCallable with
  | true => exact Or.inl ⟨rfl, _, rfl⟩
  | false => exact Or.inr ⟨rfl, rfl⟩

/-- What an action carries that is neither a descriptor nor a text. -/
theorem carried_otherwise (hdescriptor : ofValue? raw = none) (htext : raw.text? = none) :
    executable raw = (if raw.isCallable then raw else field raw "exec") ∧
      nameOf raw = field raw "type" := by
  cases raw with
  | text s => cases htext
  | named name params => cases hdescriptor
  | embedded factory name => cases hdescriptor
  | _ => exact ⟨rfl, rfl⟩

/-- The search for the factory of an action ends as what the action carries says. -/
theorem finds_find (hes : factories.entries? = some es) (hraw : Proper raw) :
    Finds es raw (find raw factories) := by
  have hnamed : ∀ {n : String} {params : Value}, executable raw = .null → nameOf raw = .text n →
      Finds es raw ((named (.text n) params).factory factories) := by
    intro n params hexec hname
    rw [factory_named hes]
    split
    case h_1 hf => exact .registered hexec hname hf
    case h_2 hnone => exact .unregistered _ hexec hname hnone
  cases hraw with
  | embedded h => exact .carried h
  | named => exact hnamed rfl rfl
  | other hdescriptor =>
      cases htext : raw.text? with
      | some s =>
          obtain rfl := Value.eq_text_of_text htext
          exact hnamed rfl rfl
      | none =>
          obtain ⟨hexec, hname⟩ := carried_otherwise hdescriptor htext
          rcases read_otherwise hdescriptor htext with ⟨hcallable, name, hread⟩ | ⟨hnot, hread⟩
          · rw [hcallable, if_pos rfl] at hexec
            rw [find, hread]
            have hcarried : Finds es raw (.ok (executable raw)) := .carried (hexec.symm ▸ hcallable)
            rwa [hexec] at hcarried
          · rw [hnot] at hexec
            rw [find, hread]
            cases hfields : fields? raw with
            | some fields =>
                obtain ⟨hexec', htype⟩ := fields_eq_some hfields
                exact finds_of_fields hes (hexec'.trans hexec.symm) (htype.trans hname.symm)
            | none =>
                obtain ⟨hexec', htype⟩ := fields_eq_none hfields
                refine .shapeless (hexec.trans hexec') fun n heq => ?_
                rw [hname, htype] at heq
                cases heq

namespace Finds

variable {found found' : Except Error Value}

theorem eq_of_callable (h : Finds es raw found) (hcallable : (executable raw).isCallable = true) :
    found = .ok (executable raw) := by
  cases h <;> simp_all [Value.isCallable]

theorem eq_of_refused (h : Finds es raw found) (hexec : executable raw ≠ .null)
    (hnot : (executable raw).isCallable = false) :
    found = .error (.executableNotCallable raw (executable raw)) := by
  cases h <;> simp_all

theorem eq_of_registered (h : Finds es raw found) (hexec : executable raw = .null)
    (hname : nameOf raw = .text n) (hf : es.getText? n = some f) : found = .ok f := by
  cases h <;> simp_all [Value.isCallable]

theorem eq_of_unregistered (h : Finds es raw found) (hexec : executable raw = .null)
    (hname : nameOf raw = .text n) (hnone : es.getText? n = none) :
    ∃ d, found = .error (.unresolvedFactory (.text n) d) := by
  cases h <;> simp_all [Value.isCallable]

theorem eq_of_shapeless (h : Finds es raw found) (hexec : executable raw = .null)
    (hname : ∀ n, nameOf raw ≠ .text n) : found = .error (.invalidAction raw) := by
  cases h <;> simp_all [Value.isCallable]

/-- A search that succeeds gives a factory that can be called, when all registered ones can be. -/
theorem callable_of_ok (h : Finds es raw (.ok f))
    (hes : ∀ n f, es.getText? n = some f → f.isCallable = true) : f.isCallable = true := by
  cases h with
  | carried h => exact h
  | registered _ _ h => exact hes _ _ h

/-- A search that fails is reported in one of three ways, or the action cannot be named in the
report. -/
theorem kind_of_error {e : Error} (h : Finds es raw (.error e)) :
    e.worded.kind = "InvalidActionShapeError" ∨ e.worded.kind = "UnexpectedDescriptorError" ∨
      e.worded.kind = "UnresolvedActionFactoryError" ∨
      raw.hasText = false ∧ e.worded.kind = "ValueError" := by
  cases h with
  | refused => exact Or.inr (Or.inl rfl)
  | unregistered => exact Or.inr (Or.inr (Or.inl rfl))
  | shapeless =>
      cases htext : raw.hasText with
      | true => exact Or.inl (by simp [Error.worded, Error.hasText, htext, Error.kind])
      | false =>
          exact Or.inr (Or.inr (Or.inr ⟨rfl, by
            simp [Error.worded, Error.hasText, htext, Error.kind, Fault.kind]⟩))

/-- The search for an action that carries what another one carries ends like that for the other. -/
theorem alike (h : Finds es raw found) (h' : Finds es raw' found')
    (hexec : executable raw' = executable raw) (hname : nameOf raw' = nameOf raw) :
    (∃ f, found = .ok f ∧ found' = .ok f) ∨
      ∃ e e', found = .error e ∧ found' = .error e' ∧ SameKind raw raw' e e' := by
  cases h with
  | carried hcallable =>
      exact Or.inl ⟨_, rfl, hexec ▸ h'.eq_of_callable (hexec ▸ hcallable)⟩
  | refused hnull hnot =>
      exact Or.inr ⟨_, _, rfl, h'.eq_of_refused (hexec ▸ hnull) (hexec ▸ hnot), Or.inl rfl⟩
  | registered hnull htype hf =>
      exact Or.inl ⟨_, rfl, h'.eq_of_registered (hexec.trans hnull) (hname.trans htype) hf⟩
  | unregistered _ hnull htype hnone =>
      obtain ⟨d, hd⟩ := h'.eq_of_unregistered (hexec.trans hnull) (hname.trans htype) hnone
      exact Or.inr ⟨_, _, rfl, hd, Or.inl rfl⟩
  | shapeless hnull htype =>
      exact Or.inr ⟨_, _, rfl, h'.eq_of_shapeless (hexec.trans hnull) (hname ▸ htype),
        same_kind_invalid raw raw'⟩

end Finds

/-- What an object has under a name: its own attribute, or else that of its class. -/
theorem field_object (m : Mark) (kind : ObjectClass) (own shared : List (String × Value))
    (name : String) : field (.object m kind own shared) name =
      ((own.lookup name).or (shared.lookup name)).getD .null := rfl

/-- What a table has under a name. -/
theorem field_of_maps {fields : List (String × Value)} (h : raw.Maps fields) (name : String) :
    field raw name = (fields.lookup name).getD .null := by
  rw [field, h]
  exact congrArg (Option.getD · .null) (get_text_map fields name)

/-- A table carries what stands in it under `exec` and under `type`. -/
theorem carried_of_maps {fields : List (String × Value)} (h : raw.Maps fields) :
    Proper raw ∧ executable raw = field raw "exec" ∧ nameOf raw = field raw "type" := by
  cases raw with
  | dict m es => exact ⟨.other rfl, rfl, rfl⟩
  | view es => exact ⟨.other rfl, rfl, rfl⟩
  | _ => cases h

end Descriptor

/-! ## Checked configurations -/

namespace Config

/-- The factory that is registered under a name. -/
def registered (c : Config) (n : String) : Option Value :=
  c.factories.entries?.bind fun es => Table.getText? es n

/-- The factories of a checked configuration form a table, and all of them can be called. -/
theorem factories_of_check {c c' : Config} (hc : c.check = .ok c') :
    ∃ es, c.factories.entries? = some es ∧ ∀ e ∈ es, e.2.isCallable = true := by
  unfold check at hc
  split at hc
  · cases hc
  · split at hc
    · cases hc
    · split at hc
      · cases hc
      · rename_i es hes
        split at hc
        · cases hc
        · rename_i hnone
          refine ⟨es, hes, fun e he => ?_⟩
          simpa using List.find?_eq_none.mp hnone e he

end Config

namespace Descriptor

open Finds

/-- In a checked configuration the search for the factory of an action ends as the action says: an
executable that can be called comes first, any other executable is refused, and a name leads to what
is registered under it. An object asks for what a table asks for that has its attributes, those of
its class behind its own. -/
theorem factory_of_action {c : Config} (hc : c.check = .ok c) :
    (∀ raw, Proper raw →
      ((executable raw).isCallable = true →
        find raw c.factories = .ok (executable raw)) ∧
      (executable raw ≠ .null → (executable raw).isCallable = false →
        find raw c.factories = .error (.executableNotCallable raw (executable raw))) ∧
      (executable raw = .null → ∀ n, nameOf raw = .text n →
        (∀ f, find raw c.factories = .ok f ↔ c.registered n = some f) ∧
        ((∃ d, find raw c.factories = .error (.unresolvedFactory (.text n) d)) ↔
          c.registered n = none)) ∧
      (executable raw = .null → (∀ n, nameOf raw ≠ .text n) →
        find raw c.factories = .error (.invalidAction raw)) ∧
      (∀ f, find raw c.factories = .ok f → f.isCallable = true) ∧
      ∀ e, find raw c.factories = .error e →
        e.worded.kind = "InvalidActionShapeError" ∨ e.worded.kind = "UnexpectedDescriptorError" ∨
          e.worded.kind = "UnresolvedActionFactoryError" ∨
          raw.hasText = false ∧ e.worded.kind = "ValueError") ∧
    ∀ (m : Mark) (kind : ObjectClass) (own shared fields : List (String × Value)) (raw : Value),
      raw.Maps fields →
      (∀ name, name = "type" ∨ name = "exec" →
        fields.lookup name = (own.lookup name).or (shared.lookup name)) →
      (∃ f, find raw c.factories = .ok f ∧
        find (.object m kind own shared) c.factories = .ok f) ∨
      ∃ e e', find raw c.factories = .error e ∧
        find (.object m kind own shared) c.factories = .error e' ∧
        SameKind raw (.object m kind own shared) e e' := by
  obtain ⟨es, hes, hcallable⟩ := Config.factories_of_check hc
  have hregistered : c.registered = Table.getText? es := by
    funext n
    rw [Config.registered, hes]
    rfl
  have hfactory : ∀ n f, Table.getText? es n = some f → f.isCallable = true := by
    intro n f hf
    obtain ⟨e, he, rfl⟩ := Option.map_eq_some_iff.mp hf
    exact hcallable e (List.mem_of_find?_eq_some he)
  rw [hregistered]
  refine ⟨fun raw hraw => ?_, fun m kind own shared fields raw hmaps hfields => ?_⟩
  · have hfinds := finds_find hes hraw
    refine ⟨hfinds.eq_of_callable, hfinds.eq_of_refused, fun hexec n hname => ?_,
      hfinds.eq_of_shapeless, fun f hf => (hf ▸ hfinds).callable_of_ok hfactory,
      fun e he => (he ▸ hfinds).kind_of_error⟩
    cases hn : Table.getText? es n with
    | some g =>
        have hfound := hfinds.eq_of_registered hexec hname hn
        simp [hfound]
    | none =>
        obtain ⟨d, hfound⟩ := hfinds.eq_of_unregistered hexec hname hn
        simp [hfound]
  · obtain ⟨hproper, hexec, hname⟩ := carried_of_maps hmaps
    have hsame : ∀ name, name = "type" ∨ name = "exec" →
        field (.object m kind own shared) name = field raw name := by
      intro name h
      rw [field_object, field_of_maps hmaps, hfields name h]
    exact (finds_find hes hproper).alike (finds_find hes (.other rfl))
      ((hsame "exec" (Or.inr rfl)).trans hexec.symm) ((hsame "type" (Or.inl rfl)).trans hname.symm)

/-! ## Some actions -/

/-- A configuration with one factory. -/
def ringing : Config :=
  ⟨.builtin .copyOnWrite, .builtin .concat, .table [("ring", .callable none none 0 [])], .null⟩

/-- The attributes of a bell. -/
def bellOwn : List (String × Value) :=
  [("exec", .null), ("volume", .int 3)]

/-- The attributes of the class of bells. Its executable is hidden by that of a bell. -/
def bellShared : List (String × Value) :=
  [("exec", .callable none none 1 []), ("type", .text "ring")]

/-- The fields that a bell has as an action. -/
def bellFields : List (String × Value) :=
  [("type", .text "ring"), ("exec", .null)]

/-- A bell asks for the registered factory, as a table does that has its fields. -/
theorem bell_rings : ringing.check = .ok ringing ∧
    Proper (.object none slottedClass bellOwn bellShared) ∧
    (Value.table bellFields).Maps bellFields ∧
    find (.object none slottedClass bellOwn bellShared) ringing.factories =
      .ok (.callable none none 0 []) ∧
    find (.table bellFields) ringing.factories = .ok (.callable none none 0 []) := by
  have hcheck : ringing.check = .ok ringing := by with_unfolding_all rfl
  have hregistered : ringing.registered "ring" = some (.callable none none 0 []) := by
    with_unfolding_all rfl
  have hfields : ∀ name, name = "type" ∨ name = "exec" →
      bellFields.lookup name = (bellOwn.lookup name).or (bellShared.lookup name) := by
    intro name h
    rcases h with rfl | rfl <;> rfl
  obtain ⟨hfind, halike⟩ := factory_of_action hcheck
  obtain ⟨-, -, hnamed, -⟩ := hfind (.object none slottedClass bellOwn bellShared) (.other rfl)
  have hbell := ((hnamed rfl "ring" rfl).1 _).mpr hregistered
  refine ⟨hcheck, .other rfl, rfl, hbell, ?_⟩
  rcases halike none slottedClass _ _ _ (.table bellFields) rfl hfields with
    ⟨f, htable, hobject⟩ | ⟨e, e', -, hobject, -⟩
  · rw [htable, ← hobject, hbell]
  · rw [hobject] at hbell
    cases hbell

/-- A number that is too long to be shown is no action, and the report of that fails. -/
theorem number_without_text : ringing.check = .ok ringing ∧ Proper (.int (tenPow 4300)) ∧
    executable (.int (tenPow 4300)) = .null ∧ (∀ n, nameOf (.int (tenPow 4300)) ≠ .text n) ∧
    ∃ e, find (.int (tenPow 4300)) ringing.factories = .error e ∧ e.worded.kind = "ValueError" := by
  have hlong : (Value.int (tenPow 4300)).hasText = false := by decide +kernel
  have hworded : ∀ raw : Value, raw.hasText = false →
      (Error.invalidAction raw).worded.kind = "ValueError" := by
    intro raw hraw
    simp [Error.worded, Error.hasText, hraw, Error.kind, Fault.kind]
  refine ⟨by with_unfolding_all rfl, .other rfl, rfl, fun n h => ?_, _, rfl, hworded _ hlong⟩
  cases h

end Descriptor

end Statechart
