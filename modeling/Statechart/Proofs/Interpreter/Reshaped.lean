import Mathlib.Data.List.Forall2
import Statechart.Patch.Standard
import Statechart.Proofs.Interpreter.Atomicity
import Statechart.Proofs.Value.WellFormed

/-!
# Shapes of actions and of answers

An action can be emitted in several shapes, and so can the answer of a factory be given.
`Descriptor.Reshaped` and `Outcome.Reshaped` relate the shapes that say the same, and
`process_reshaped` shows that an event does the same whichever of them occur. What an object asks
for is told by the attributes that can be listed, so slotted objects with parameters are left out,
and objects whose class adds a type: see `objects_that_differ`.
-/

namespace Statechart

/-- A table, or a view of one, with the given entries under texts. -/
def Value.Maps (v : Value) (fields : List (String × Value)) : Prop :=
  v.entries? = some (fields.map fun f => (.text f.1, f.2))

/-- An object other than a descriptor with the given attributes, to which its class adds neither a
type nor an executable. Attributes in slots cannot be listed, so there they are no others than these
two. -/
inductive Value.Carries : Value → List (String × Value) → Prop where
  | object {m : Mark} {kind : ObjectClass} {own shared : List (String × Value)}
      (htype : (own.lookup "type").or (shared.lookup "type") = own.lookup "type")
      (hexec : (own.lookup "exec").or (shared.lookup "exec") = own.lookup "exec")
      (hslots : kind.slotted = true → ∀ f ∈ own, f.1 = "type" ∨ f.1 = "exec") :
      Carries (.object m kind own shared) own
  | record {name : String} {fields : List (String × Value)} : Carries (.record name fields) fields
  | state {value configuration actions : Value} {changed : Bool} :
      Carries (.state value configuration actions changed)
        [("value", value), ("configuration", configuration), ("actions", actions),
          ("changed", .bool changed)]

namespace Descriptor

/-- The attributes of an action that only has a type, with or without a null executable. -/
def bare (n : String) (fields : List (String × Value)) : Prop :=
  fields = [("type", .text n)] ∨ fields = [("type", .text n), ("exec", .null)]

/-- An action and another shape for it: a text becomes a descriptor without parameters, or a table
or an object with that type; a table becomes an object. -/
inductive Reshaped : Value → Value → Prop where
  | same (raw : Value) : Reshaped raw raw
  | named (n : String) : Reshaped (.text n) (.named (.text n) (.newTable []))
  | table {n : String} {raw' : Value} {fields : List (String × Value)} (hbare : bare n fields)
      (h : raw'.Maps fields) : Reshaped (.text n) raw'
  | typed {n : String} {raw' : Value} {fields : List (String × Value)} (hbare : bare n fields)
      (h : raw'.Carries fields) : Reshaped (.text n) raw'
  | object {raw raw' : Value} {fields : List (String × Value)} (h : raw.Maps fields)
      (h' : raw'.Carries fields) : Reshaped raw raw'

/-! ## Reading actions of both shapes -/

variable {raw raw' : Value} {fields : List (String × Value)}

theorem get_text_map (fields : List (String × Value)) (name : String) :
    Table.getText? (fields.map fun f => (.text f.1, f.2)) name = fields.lookup name := by
  induction fields with
  | nil => rfl
  | cons f fields ih =>
      rw [List.map_cons, Value.get_text_cons, ih, List.lookup_cons]
      by_cases hname : name = f.1
      · simp [hname, Value.text?]
      · have hne : (name == f.1) = false := by simpa using hname
        simp [hne, Value.text?, Ne.symm hname]

/-- A table is read by its fields. -/
theorem read_of_maps (h : raw.Maps fields) :
    read raw = ofFields raw (fields.map fun f => (.text f.1, f.2)) := by
  cases raw with
  | dict m es =>
      obtain rfl := Option.some.inj h
      rfl
  | view es =>
      obtain rfl := Option.some.inj h
      rfl
  | _ => cases h

theorem with_attribute_eq_self {name : String}
    (hattribute : raw.attribute? name = fields.lookup name) :
    withAttribute raw name (fields.map fun f => (.text f.1, f.2)) =
      fields.map fun f => (.text f.1, f.2) := by
  have hcontains : Table.contains (fields.map fun f => (.text f.1, f.2)) (.text name) =
      (fields.lookup name).isSome := congrArg Option.isSome (get_text_map fields name)
  rw [withAttribute, hcontains, hattribute]
  cases fields.lookup name <;> rfl

theorem get_text_insert (es : Table) (name other : String) (v : Value) :
    Table.getText? (es.insert (.text name) v) other =
      if name = other then some v else Table.getText? es other := by
  induction es with
  | nil =>
      rw [Table.insert, Value.get_text_cons]
      simp [Value.text?]
  | cons e es ih =>
      rcases e with ⟨k, w⟩
      rw [Table.insert, Value.same_text_eq]
      by_cases hk : k.text? = some name
      · simp only [hk, decide_true, if_true, Value.get_text_cons, Option.some.injEq]
        split <;> rfl
      · simp only [hk, decide_false, Bool.false_eq_true, if_false, Value.get_text_cons, ih]
        by_cases hother : k.text? = some other
        · have hne : name ≠ other := fun heq => hk (heq ▸ hother)
          simp [hother, hne]
        · simp [hother]

/-- A field that is not there yet is read from the attribute of the action. -/
theorem get_text_with_attribute (raw : Value) (name other : String) (fields : Table) :
    Table.getText? (withAttribute raw name fields) other =
      if name = other then (Table.getText? fields name).or (raw.attribute? name)
      else Table.getText? fields other := by
  by_cases hother : name = other
  · subst hother
    rw [if_pos rfl, withAttribute, Table.contains]
    cases hname : Table.getText? fields name with
    | some w =>
        have hthere : (fields.get? (.text name)).isSome = true := congrArg Option.isSome hname
        rw [if_pos hthere, hname]
        rfl
    | none =>
        have hmissing : ¬ (fields.get? (.text name)).isSome = true := by
          simp [show fields.get? (.text name) = none from hname]
        rw [if_neg hmissing]
        cases raw.attribute? name with
        | none => exact hname
        | some v => rw [get_text_insert, if_pos rfl]; rfl
  · rw [if_neg hother, withAttribute]
    split
    · rfl
    · split
      · rw [get_text_insert, if_neg hother]
      · rfl

/-- Fields without a type and an executable are those of no action. -/
theorem of_fields_untyped (htype : fields.lookup "type" = none)
    (hexec : fields.lookup "exec" = none) :
    ofFields raw (fields.map fun f => (.text f.1, f.2)) = .error (.invalidAction raw) := by
  rw [ofFields, get_text_map, get_text_map, htype, hexec]
  rfl

/-- Only the type, the executable and the parameters of fields count. -/
theorem of_fields_congr {fs gs : Table} (hexec : fs.getText? "exec" = gs.getText? "exec")
    (htype : fs.getText? "type" = gs.getText? "type") (hparams : paramsOf fs = paramsOf gs) :
    ofFields raw fs = ofFields raw gs := by
  rw [ofFields, ofFields, hexec, htype, hparams]

/-- An object has what its attributes say under `type` and under `exec`. -/
theorem attribute_of_carries (h : raw.Carries fields) :
    raw.attribute? "type" = fields.lookup "type" ∧
      raw.attribute? "exec" = fields.lookup "exec" := by
  cases h with
  | object htype hexec => exact ⟨htype, hexec⟩
  | record => exact ⟨rfl, rfl⟩
  | state => exact ⟨rfl, rfl⟩

/-- The attributes of an object can be listed, or they are no others than a type and an
executable. -/
theorem listed_of_carries (h : raw.Carries fields)
    (hboth : ((fields.lookup "type").isSome || (fields.lookup "exec").isSome) = true) :
    raw.listedAttributes = fields ∨
      raw.listedAttributes = [] ∧ ∀ f ∈ fields, f.1 = "type" ∨ f.1 = "exec" := by
  cases h with
  | @object m kind own shared _ _ hslots =>
      cases hkind : kind.slotted with
      | true => exact Or.inr ⟨by simp [Value.listedAttributes, hkind], hslots hkind⟩
      | false => exact Or.inl (by simp [Value.listedAttributes, hkind])
  | record => exact Or.inl rfl
  | state => cases hboth

/-- Of attributes that cannot be listed the type and the executable are read. -/
theorem of_fields_slots (htype : raw.attribute? "type" = fields.lookup "type")
    (hexec : raw.attribute? "exec" = fields.lookup "exec")
    (hslots : ∀ f ∈ fields, f.1 = "type" ∨ f.1 = "exec") :
    ofFields raw (withAttribute raw "exec" (withAttribute raw "type" [])) =
      ofFields raw (fields.map fun f => (.text f.1, f.2)) := by
  have hempty : ∀ name, Table.getText? [] name = none := fun _ => rfl
  refine of_fields_congr ?_ ?_ ?_
  · simp [get_text_with_attribute, get_text_map, hexec, hempty]
  · simp [get_text_with_attribute, get_text_map, htype, hempty]
  · have hfields : paramsOf (fields.map fun f => (.text f.1, f.2)) = [] := by
      rw [paramsOf, List.filter_eq_nil_iff, List.forall_mem_map]
      intro f hf
      rcases hslots f hf with hname | hname <;> simp [hname]
    rw [hfields]
    unfold withAttribute
    cases raw.attribute? "type" <;> cases raw.attribute? "exec" <;>
      simp [paramsOf, Table.contains, Table.get?, Table.insert]

/-- An object is read by its attributes. -/
theorem read_of_carries (h : raw.Carries fields) :
    read raw = ofFields raw (fields.map fun f => (.text f.1, f.2)) := by
  have hread : read raw = (fields? raw).elim (.error (.invalidAction raw)) (ofFields raw) := by
    unfold read
    cases h <;> cases fields? _ <;> rfl
  have hentries : raw.entries? = none := by
    cases h <;> rfl
  obtain ⟨htype, hexec⟩ := attribute_of_carries h
  rw [hread, fields?, hentries, htype, hexec]
  cases hboth : (fields.lookup "type").isSome || (fields.lookup "exec").isSome with
  | false =>
      simp only [Bool.or_eq_false_iff, Option.isSome_eq_false_iff, Option.isNone_iff_eq_none]
        at hboth
      rw [of_fields_untyped hboth.1 hboth.2]
      rfl
  | true =>
      simp only [if_true, Option.elim_some]
      rcases listed_of_carries h hboth with hlisted | ⟨hlisted, hslots⟩
      · rw [hlisted, with_attribute_eq_self htype, with_attribute_eq_self hexec]
      · rw [hlisted]
        exact of_fields_slots htype hexec hslots

/-- Whether the failures of two actions at one stage are of one kind. When neither is an action,
this is reported in a message that shows them, so the failures differ where only one of them has a
text. -/
def SameKind (raw raw' : Value) (error error' : Error) : Prop :=
  error'.worded.kind = error.worded.kind ∨
    raw.hasText ≠ raw'.hasText ∧ error = .invalidAction raw ∧ error' = .invalidAction raw'

/-- Fields make up a descriptor or are refused, whatever action they are those of. -/
theorem of_fields_cases (fields : Table) : (∃ d, ∀ raw, ofFields raw fields = .ok d) ∨
    (∀ raw, ofFields raw fields = .error (.invalidAction raw)) ∨
    ∃ executable, ∀ raw, ofFields raw fields = .error (.executableNotCallable raw executable) := by
  unfold ofFields
  generalize (fields.getText? "exec").getD .null = executable
  generalize (fields.getText? "type").getD .null = name
  cases hcallable : executable.isCallable with
  | true => exact Or.inl ⟨_, fun _ => if_pos hcallable⟩
  | false =>
      have hnot : ¬ executable.isCallable = true := by simp [hcallable]
      simp only [if_neg hnot]
      cases executable with
      | null =>
          cases name with
          | text n => exact Or.inl ⟨_, fun _ => rfl⟩
          | _ => exact Or.inr (Or.inl fun _ => rfl)
      | _ => exact Or.inr (Or.inr ⟨_, fun _ => rfl⟩)

/-- Two values that are no actions are refused in the same way, as far as they have texts. -/
theorem same_kind_invalid (raw raw' : Value) :
    SameKind raw raw' (.invalidAction raw) (.invalidAction raw') := by
  by_cases htext : raw.hasText = raw'.hasText
  · left
    rw [Error.worded, Error.worded, Error.hasText, Error.hasText, htext]
    split <;> rfl
  · exact Or.inr ⟨htext, rfl, rfl⟩

theorem entries_have_text_map (fields : List (String × Value)) :
    Value.entriesHaveText (fields.map fun f => (.text f.1, f.2)) =
      Value.fieldsHaveText fields := by
  induction fields with
  | nil => rfl
  | cons f fields ih =>
      rw [List.map_cons, Value.entriesHaveText, Value.fieldsHaveText, ih]
      rfl

/-- A table has a text when its entries have. -/
theorem has_text_of_maps (h : raw.Maps fields) :
    raw.hasText = Value.fieldsHaveText fields := by
  rw [← entries_have_text_map]
  cases raw with
  | dict m es =>
      obtain rfl := Option.some.inj h
      rfl
  | view es =>
      obtain rfl := Option.some.inj h
      rfl
  | _ => cases h

/-- An object has a text when its attributes have, or when it does not show them. -/
theorem has_text_of_carries (h : raw.Carries fields)
    (hfields : Value.fieldsHaveText fields = true) : raw.hasText = true := by
  cases h with
  | object => simp [Value.hasText, hfields]
  | record => exact hfields
  | state => simpa [Value.fieldsHaveText, Value.hasText, and_assoc] using hfields

theorem has_text_bare {n : String} (h : bare n fields) :
    Value.fieldsHaveText fields = true := by
  rcases h with rfl | rfl <;> rfl

/-- An action has a text in each shape that it is given for the one that it has. -/
theorem has_text_reshaped (h : Reshaped raw raw') (htext : raw.hasText = true) :
    raw'.hasText = true := by
  cases h with
  | same => exact htext
  | named n => rfl
  | table hbare h => exact (has_text_of_maps h).trans (has_text_bare hbare)
  | typed hbare h => exact has_text_of_carries h (has_text_bare hbare)
  | object h h' => exact has_text_of_carries h' ((has_text_of_maps h).symm.trans htext)

/-- A bare type is a name without parameters. -/
theorem of_fields_bare {n : String} (hbare : bare n fields) :
    ofFields raw (fields.map fun f => (.text f.1, f.2)) =
      .ok (.named (.text n) (.newTable [])) := by
  rw [ofFields, get_text_map, get_text_map]
  rcases hbare with rfl | rfl
  · simp [List.lookup_cons, paramsOf, Value.isCallable]
  · simp [List.lookup_cons, paramsOf, Value.isCallable]

/-- Actions of both shapes are read as the same descriptor or fail in the same way. -/
theorem read_reshaped (h : Reshaped raw raw') :
    (∃ d, read raw = .ok d ∧ read raw' = .ok d) ∨
      ∃ error error', read raw = .error error ∧ read raw' = .error error' ∧
        SameKind raw raw' error error' := by
  cases h with
  | same =>
      cases hread : read raw with
      | ok d => exact Or.inl ⟨d, rfl, rfl⟩
      | error error => exact Or.inr ⟨error, error, rfl, rfl, Or.inl rfl⟩
  | named n => exact Or.inl ⟨_, rfl, rfl⟩
  | table hbare h =>
      rw [read_of_maps h, of_fields_bare hbare]
      exact Or.inl ⟨_, rfl, rfl⟩
  | typed hbare h =>
      rw [read_of_carries h, of_fields_bare hbare]
      exact Or.inl ⟨_, rfl, rfl⟩
  | @object _ _ fields h h' =>
      rw [read_of_maps h, read_of_carries h']
      rcases of_fields_cases (fields.map fun f => (.text f.1, f.2)) with
        ⟨d, hd⟩ | hinvalid | ⟨executable, hexecutable⟩
      · exact Or.inl ⟨d, hd raw, hd raw'⟩
      · exact Or.inr ⟨_, _, hinvalid raw, hinvalid raw', same_kind_invalid raw raw'⟩
      · exact Or.inr ⟨_, _, hexecutable raw, hexecutable raw', Or.inl rfl⟩

end Descriptor

namespace Outcome

/-- A part of an answer as an entry of a table; null may be left out. -/
inductive Part (name : String) : Value → List (Value × Value) → Prop where
  | entry (v : Value) : Part name v [(.text name, v)]
  | leftOut : Part name .null []

/-- An answer of a factory and another shape for it: a result becomes a tuple, a list or a table. -/
inductive Reshaped : Value → Value → Prop where
  | same (answer : Value) : Reshaped answer answer
  | tuple (u o : Value) : Reshaped (.result u o) (.tuple [u, o])
  | list (m : Mark) (u o : Value) : Reshaped (.result u o) (.list m [u, o])
  | table {u o answer' : Value} {es ds : List (Value × Value)} (hu : Part "updates" u es)
      (ho : Part "outputs" o ds) (h : answer'.entries? = some (es ++ ds)) :
      Reshaped (.result u o) answer'

/-- Answers of both shapes are read alike. -/
theorem read_reshaped {answer answer' : Value} (h : Reshaped answer answer') (d : Value) :
    read answer' d = read answer d := by
  cases h with
  | same | tuple | list => rfl
  | @table u o _ es ds hu ho h =>
      have hread : read answer' d = .ok ⟨(Table.getText? (es ++ ds) "updates").getD .null,
          (Table.getText? (es ++ ds) "outputs").getD .null⟩ := by
        cases answer' with
        | dict m fs =>
            obtain rfl := Option.some.inj h
            rfl
        | view fs =>
            obtain rfl := Option.some.inj h
            rfl
        | _ => cases h
      have hempty : ∀ name, Table.getText? [] name = none := fun _ => rfl
      rw [hread]
      cases hu <;> cases ho <;> simp [Value.get_text_cons, Value.text?, hempty] <;> rfl

end Outcome

/-! ## Processing an event -/

/-- Two hosts under which factories give answers of shapes that say the same, and under which
reducers do the same. Factories are what is called with three arguments, reducers with two. -/
structure Host.Reshapes (h h' : Host) : Prop where
  factories : ∀ (start : Identity) (f state event d : Value),
    Agree Outcome.Reshaped (h.apply start f [state, event, d]) (h'.apply start f [state, event, d])
  reducers : ∀ (start : Identity) (f x y : Value), h'.apply start f [x, y] = h.apply start f [x, y]

/-- The actions that an engine emits for an event. -/
def Engine.emits (e : Engine) (s : Snapshot) (event : Value) : Except Error (List Value) := do
  Interpreter.emitted (← e.transition ⟨s.version + 1, 0, 0⟩ s.control event s.state)

variable {h h' : Host} {e e' : Engine} {c : Config} {s : Snapshot} {event : Value}
  {start last : Identity} {p p' : Progress} {raw raw' : Value} {raws raws' : List Value}
  {calls : List Call} {stage : Stage} {error : Error}

open Descriptor (SameKind)

/-- What is read from an action is read from it in another shape. -/
theorem read_eq_ok_of_reshaped {d : Descriptor} (hraw : Descriptor.Reshaped raw raw')
    (hread : Descriptor.read raw = .ok d) : Descriptor.read raw' = .ok d := by
  rcases Descriptor.read_reshaped hraw with ⟨d', hd, hd'⟩ | ⟨_, _, herror, -, -⟩
  · rw [hd', ← hd, hread]
  · rw [hread] at herror
    cases herror

/-- An action in another shape does the same. -/
theorem performs_reshaped (hh : h.Reshapes h') (hraw : Descriptor.Reshaped raw raw')
    (hp : Performs h c event start p raw calls p') :
    Performs h' c event start p raw' calls p' := by
  cases hp with
  | intro shape resolution call result outputs update =>
      obtain ⟨answer', call', hanswer⟩ := (hh.factories _ _ _ _ _).exists_of_ok call
      refine .intro (read_eq_ok_of_reshaped hraw shape) resolution call' ?_ ?_ ?_
      · rw [Outcome.read_reshaped hanswer, result]
      · exact (hh.reducers _ _ _ _).trans outputs
      · exact (hh.reducers _ _ _ _).trans update

/-- An action in another shape fails at the same stage after the same calls. -/
theorem fails_reshaped (hh : h.Reshapes h') (hraw : Descriptor.Reshaped raw raw')
    (hf : Fails h c event start p raw stage calls error) :
    ∃ error', Fails h' c event start p raw' stage calls error' ∧
      SameKind raw raw' error error' := by
  cases hf with
  | shape fails =>
      rcases Descriptor.read_reshaped hraw with
        ⟨_, hd, -⟩ | ⟨error₁, error', herror, herror', hkind⟩
      · rw [fails] at hd
        cases hd
      · obtain rfl : error₁ = error := Except.error.inj (herror.symm.trans fails)
        exact ⟨error', .shape herror', hkind⟩
  | resolution shape fails =>
      exact ⟨error, .resolution (read_eq_ok_of_reshaped hraw shape) fails, Or.inl rfl⟩
  | call shape resolution fails =>
      refine ⟨error, .call (read_eq_ok_of_reshaped hraw shape) resolution ?_, Or.inl rfl⟩
      exact (hh.factories _ _ _ _ _).eq_of_error fails
  | result shape resolution call fails =>
      obtain ⟨answer', call', hanswer⟩ := (hh.factories _ _ _ _ _).exists_of_ok call
      refine ⟨error, .result (read_eq_ok_of_reshaped hraw shape) resolution call' ?_, Or.inl rfl⟩
      rw [Outcome.read_reshaped hanswer, fails]
  | outputs shape resolution call result fails =>
      obtain ⟨answer', call', hanswer⟩ := (hh.factories _ _ _ _ _).exists_of_ok call
      refine ⟨error, .outputs (read_eq_ok_of_reshaped hraw shape) resolution call' ?_ ?_,
        Or.inl rfl⟩
      · rw [Outcome.read_reshaped hanswer, result]
      · exact (hh.reducers _ _ _ _).trans fails
  | update shape resolution call result outputs fails =>
      obtain ⟨answer', call', hanswer⟩ := (hh.factories _ _ _ _ _).exists_of_ok call
      refine ⟨error, .update (read_eq_ok_of_reshaped hraw shape) resolution call' ?_
        ((hh.reducers _ _ _ _).trans outputs) ?_, Or.inl rfl⟩
      · rw [Outcome.read_reshaped hanswer, result]
      · exact (hh.reducers _ _ _ _).trans fails

/-- Actions in other shapes do the same. -/
theorem runs_reshaped (hh : h.Reshapes h') (hraws : List.Forall₂ Descriptor.Reshaped raws raws')
    (hr : Runs h c event start p raws calls last p') :
    Runs h' c event start p raws' calls last p' := by
  induction hr generalizing raws' with
  | nil =>
      cases hraws
      exact .nil
  | cons first _ ih =>
      cases hraws with
      | cons hraw hraws => exact .cons (performs_reshaped hh hraw first) (ih hraws)

/-- The processing of an event fails at one of the actions, those before it having succeeded: the
number of those, the action, the stage at which it fails and its error. -/
inductive FailsAt (h : Host) (e : Engine) (c : Config) (s : Snapshot) (event : Value) :
    Nat → Value → Stage → Error → Prop where
  | intro {last : Identity} {p : Progress} {raws rest : List Value} {raw : Value}
      {calls calls' : List Call} {stage : Stage} {error : Error}
      (emits : e.emits s event = .ok (raws ++ raw :: rest))
      (done : Runs h c event ⟨s.version + 1, 1, 0⟩ ⟨s.state, c.noOutput⟩ raws calls last p)
      (fails : Fails h c event last p raw stage calls' error) :
      FailsAt h e c s event raws.length raw stage error

/-- What an event does is told by what its actions do. -/
theorem process_of_emits (hemits : e.emits s event = .ok raws) : ∃ control,
    process h e c s event = do
      let p ← (runActions h c ⟨s.version + 1, 1, 0⟩ event raws ⟨s.state, c.noOutput⟩).mapError
        Error.worded
      return (⟨control, p.state, s.version + 1⟩, p.outputs) := by
  obtain ⟨control, hcontrol, hemitted⟩ := bind_eq_ok.mp hemits
  obtain ⟨actions, hactions, hraws⟩ := bind_eq_ok.mp hemitted
  refine ⟨control, ?_⟩
  rw [process, hcontrol, ok_bind, hactions, ok_bind, hraws, ok_bind]
  rfl

/-- An event whose actions all succeed is taken in. -/
theorem process_of_runs (hemits : e.emits s event = .ok raws)
    (hruns : Runs h c event ⟨s.version + 1, 1, 0⟩ ⟨s.state, c.noOutput⟩ raws calls last p) :
    ∃ control, process h e c s event = .ok (⟨control, p.state, s.version + 1⟩, p.outputs) := by
  obtain ⟨control, hprocess⟩ := process_of_emits (h := h) (c := c) hemits
  refine ⟨control, ?_⟩
  rw [hprocess, run_actions_eq, ← result_actions_run_in, trace_of_runs hruns]
  rfl

/-- An event fails with the error of the action at which it fails. -/
theorem process_of_fails_at {k : Nat} (hf : FailsAt h e c s event k raw stage error) :
    process h e c s event = .error error.worded := by
  cases hf with
  | intro emits done fails =>
      obtain ⟨control, hprocess⟩ := process_of_emits (h := h) (c := c) emits
      rw [hprocess, run_actions_eq, ← result_actions_run_in, trace_of_breaks (.intro done fails)]
      rfl

/-- An event for which the engine emits no actions fails with the error of the engine. -/
theorem process_of_emits_error (hemits : e.emits s event = .error error) :
    process h e c s event = .error error := by
  rw [Engine.emits] at hemits
  rw [process]
  cases hcontrol : e.transition ⟨s.version + 1, 0, 0⟩ s.control event s.state with
  | error error' =>
      rw [hcontrol] at hemits
      cases hemits
      rfl
  | ok control =>
      rw [hcontrol, ok_bind, Interpreter.emitted] at hemits
      rw [ok_bind]
      cases hactions : actionsIn control with
      | error error' =>
          rw [hactions] at hemits
          cases hemits
          rfl
      | ok actions =>
          rw [hactions, ok_bind] at hemits
          rw [ok_bind, hemits]
          rfl

/-- An event does the same for actions and answers of other shapes: it leads to the same extended
state, version and outputs, or the engine fails in the same way, or the same action fails at the
same stage, with an error of the same kind as far as both of its shapes have texts. -/
theorem process_reshaped (hh : h.Reshapes h')
    (he : Agree (List.Forall₂ Descriptor.Reshaped) (e.emits s event) (e'.emits s event)) :
    (∃ next next' outputs, process h e c s event = .ok (next, outputs) ∧
      process h' e' c s event = .ok (next', outputs) ∧ next'.state = next.state ∧
      next'.version = next.version) ∨
    (∃ error, e.emits s event = .error error ∧ process h e c s event = .error error ∧
      process h' e' c s event = .error error) ∨
    ∃ k stage raw raw' error error', FailsAt h e c s event k raw stage error ∧
      FailsAt h' e' c s event k raw' stage error' ∧
      process h e c s event = .error error.worded ∧
      process h' e' c s event = .error error'.worded ∧ SameKind raw raw' error error' ∧
      (raw.hasText = true → raw'.hasText = true) := by
  cases hemits : e.emits s event with
  | error error =>
      exact Or.inr (Or.inl ⟨error, rfl, process_of_emits_error hemits,
        process_of_emits_error (he.eq_of_error hemits)⟩)
  | ok raws =>
      obtain ⟨raws', hemits', hraws⟩ := he.exists_of_ok hemits
      rcases runs_or_breaks h c event ⟨s.version + 1, 1, 0⟩ ⟨s.state, c.noOutput⟩ raws with
        ⟨calls, last, p, hruns⟩ | ⟨calls, error, hbreaks⟩
      · obtain ⟨control, hprocess⟩ := process_of_runs hemits hruns
        obtain ⟨control', hprocess'⟩ := process_of_runs hemits' (runs_reshaped hh hraws hruns)
        exact Or.inl ⟨_, _, _, hprocess, hprocess', rfl, rfl⟩
      · cases hbreaks with
        | @intro last p done rest raw _ _ stage _ runs fails =>
            have hfails : FailsAt h e c s event done.length raw stage error :=
              .intro hemits runs fails
            -- In the other shape as many actions come before the one that fails.
            have hdone := List.forall₂_take done.length hraws
            have hright := List.forall₂_drop done.length hraws
            rw [List.take_left] at hdone
            rw [List.drop_left] at hright
            rw [← List.take_append_drop done.length raws'] at hemits'
            generalize raws'.take done.length = done' at hemits' hdone
            generalize raws'.drop done.length = right' at hemits' hright
            cases hright with
            | cons hraw hrest =>
                obtain ⟨error', fails', hkind⟩ := fails_reshaped hh hraw fails
                have hfails' := FailsAt.intro hemits' (runs_reshaped hh hdone runs) fails'
                rw [← hdone.length_eq] at hfails'
                exact Or.inr (Or.inr ⟨_, _, _, _, _, _, hfails, hfails',
                  process_of_fails_at hfails, process_of_fails_at hfails', hkind,
                  Descriptor.has_text_reshaped hraw⟩)

/-- Hosts under which callables answer alike when they are called like factories, and do the same
otherwise. -/
theorem Host.Reshapes.of_calls (hedit : h'.edit = h.edit) (hpatches : h'.patches = h.patches)
    (hfactories : ∀ (start : Identity) (code : Nat) (captured : List Value) (state event d : Value),
      Agree Outcome.Reshaped (h.call start code captured [state, event, d])
        (h'.call start code captured [state, event, d]))
    (hreducers : ∀ (start : Identity) (code : Nat) (captured : List Value) (x y : Value),
      h'.call start code captured [x, y] = h.call start code captured [x, y]) : h.Reshapes h' := by
  refine ⟨fun start f state event d => ?_, fun start f x y => ?_⟩
  · cases f with
    | callable m name code captured => exact hfactories start code captured state event d
    | builtin b =>
        cases b with
        | stateClass => exact .ok (.same _)
        | _ => exact .error _
    | _ => exact .error _
  · cases f with
    | callable m name code captured => exact hreducers start code captured x y
    | builtin b =>
        cases b with
        | copyOnWrite =>
            have hedited : h'.edited = h.edited := by
              funext start recipe draft
              simp only [Host.edited, hedit]
            simp only [Host.apply, Builtin.apply, Update.copyOnWrite, hedited]
        | jsonPatch => simp only [Host.apply, Builtin.apply, hpatches]
        | _ => rfl
    | _ => rfl

/-! ## Some actions in several shapes -/

/-- The attributes that an object has of its own. -/
def Value.ownAttributes : Value → List (String × Value)
  | .object _ _ own _ => own
  | .record _ fields => fields
  | .named name params => [("name", name), ("params", params)]
  | .embedded factory name => [("factory", factory), ("name", name)]
  | .state value configuration actions changed =>
      [("value", value), ("configuration", configuration), ("actions", actions),
        ("changed", .bool changed)]
  | _ => []

/-- An engine that emits the same actions for every event. -/
def emitting (raws : List Value) : Engine :=
  ⟨.null, fun _ _ _ _ => .ok (.table [("actions", .newList raws)])⟩

/-- A host whose factories give their parameters as outputs. -/
def echo : Host where
  call _ _ _ args :=
    match args with
    | [_, _, .named _ params] => .ok (.result .null (.newList [params]))
    | _ => .error .wrongType
  edit _ _ _ draft := .ok (draft, .null)
  patches := .standard

/-- The same host with answers in pairs. -/
def echoInPairs : Host where
  call _ _ _ args :=
    match args with
    | [_, _, .named _ params] => .ok (.tuple [.null, .newList [params]])
    | _ => .error .wrongType
  edit _ _ _ draft := .ok (draft, .null)
  patches := .standard

/-- A configuration with one factory. -/
def echoing : Config :=
  ⟨.builtin .copyOnWrite, .builtin .concat, .table [("echo", .callable none none 0 [])],
    .newList []⟩

/-- The outputs or the kind of failure when an event comes with actions. -/
def echoed (h : Host) (raws : List Value) : Except String Value :=
  ((process h (emitting raws) echoing ⟨.null, .null, 0⟩ (.text "GO")).map Prod.snd).mapError
    Error.kind

theorem emits_emitting (raws : List Value) : (emitting raws).emits s event = .ok raws := by
  with_unfolding_all rfl

/-- The attributes of an action with a parameter. -/
def sized : List (String × Value) :=
  [("type", .text "echo"), ("size", .int 3)]

/-- Objects that show their attributes. -/
def shownClass : ObjectClass :=
  ⟨"Shown", [.words "Shown(", .attributes, .words ")"], false⟩

/-- Objects that do not show their attributes. -/
def hiddenClass : ObjectClass :=
  ⟨"Hidden", [.words "<hidden>"], false⟩

/-- Objects that have their attributes in slots. -/
def slottedClass : ObjectClass :=
  { hiddenClass with slotted := true }

/-- A text and a table. -/
def plainActions : List Value :=
  [.text "echo", .table sized]

/-- An object with slots in place of the text, and an object in place of the table. -/
def objectActions : List Value :=
  [.object none slottedClass [("type", .text "echo")] [], .object none shownClass sized []]

/-- The actions give the same outputs in both shapes, also when the answers are pairs. -/
theorem echoed_in_pairs : echo.Reshapes echoInPairs ∧
    List.Forall₂ Descriptor.Reshaped plainActions objectActions ∧
    ∃ outputs, echoed echo plainActions = .ok outputs ∧
      echoed echoInPairs objectActions = .ok outputs := by
  have hreshapes : echo.Reshapes echoInPairs := by
    refine .of_calls rfl rfl (fun start code captured state event d => ?_) fun _ _ _ _ _ => rfl
    cases d with
    | named name params => exact .ok (.tuple _ _)
    | _ => exact .error _
  have hraws : List.Forall₂ Descriptor.Reshaped plainActions objectActions :=
    .cons (.typed (Or.inl rfl) (.object rfl rfl fun _ => by simp))
      (.cons (.object rfl (.object rfl rfl nofun)) .nil)
  have hemits : Agree (List.Forall₂ Descriptor.Reshaped)
      ((emitting plainActions).emits ⟨.null, .null, 0⟩ (.text "GO"))
      ((emitting objectActions).emits ⟨.null, .null, 0⟩ (.text "GO")) := by
    rw [emits_emitting, emits_emitting]
    exact .ok hraws
  have hok : (echoed echo plainActions).isOk = true := by decide +kernel
  refine ⟨hreshapes, hraws, ?_⟩
  rcases process_reshaped (c := echoing) hreshapes hemits with
    ⟨next, next', outputs, hprocess, hprocess', -, -⟩ | ⟨error, -, hprocess, -⟩ |
    ⟨_, _, _, _, error, _, -, -, hprocess, -, -⟩
  · exact ⟨outputs, by rw [echoed, hprocess]; rfl, by rw [echoed, hprocess']; rfl⟩
  · rw [echoed, hprocess] at hok
    cases hok
  · rw [echoed, hprocess] at hok
    cases hok

/-- A table, and an object that cannot be called and whose own attributes are its entries. -/
def Value.SameFields (raw raw' : Value) : Prop :=
  raw.Maps raw'.ownAttributes ∧ raw'.isCallable = false

/-- A number that has no text. -/
def huge : List (String × Value) :=
  [("size", .int (tenPow 4300))]

/-- Objects that do not ask for what the tables of their attributes ask for: a slotted one has no
parameters, one has a type from its class, a descriptor is its own, and one has a text where its
table has none; where it shows its attributes, it has no text either. -/
theorem objects_that_differ :
    ((Value.table sized).SameFields (.object none slottedClass sized []) ∧
      echoed echo [.table sized] = .ok (.newList [.table [("size", .int 3)]]) ∧
      echoed echo [.object none slottedClass sized []] = .ok (.newList [.newTable []])) ∧
    ((Value.table []).SameFields (.object none hiddenClass [] [("type", .text "echo")]) ∧
      echoed echo [.table []] = .error "InvalidActionShapeError" ∧
      echoed echo [.object none hiddenClass [] [("type", .text "echo")]] =
        .ok (.newList [.newTable []])) ∧
    ((Value.table [("name", .text "echo"), ("params", .newTable [])]).SameFields
        (.named (.text "echo") (.newTable [])) ∧
      echoed echo [.table [("name", .text "echo"), ("params", .newTable [])]] =
        .error "InvalidActionShapeError" ∧
      echoed echo [.named (.text "echo") (.newTable [])] = .ok (.newList [.newTable []])) ∧
    (Value.table huge).SameFields (.object none hiddenClass huge []) ∧
      echoed echo [.table huge] = .error "ValueError" ∧
      echoed echo [.object none shownClass huge []] = .error "ValueError" ∧
      echoed echo [.object none hiddenClass huge []] = .error "InvalidActionShapeError" := by
  refine ⟨⟨⟨rfl, rfl⟩, ?_, ?_⟩, ⟨⟨rfl, rfl⟩, ?_, ?_⟩, ⟨⟨rfl, rfl⟩, ?_, ?_⟩, ⟨rfl, rfl⟩, ?_, ?_, ?_⟩
  · with_unfolding_all rfl
  · with_unfolding_all rfl
  · with_unfolding_all rfl
  · with_unfolding_all rfl
  · with_unfolding_all rfl
  · with_unfolding_all rfl
  · have hlong : (Value.table huge).hasText = false := by decide +kernel
    have hfails : echoed echo [.table huge] =
        .error (Error.invalidAction (.table huge)).worded.kind := by with_unfolding_all rfl
    rw [hfails, Error.worded, Error.hasText, hlong]
    rfl
  · have hlong : (Value.object none shownClass huge []).hasText = false := by decide +kernel
    have hfails : echoed echo [.object none shownClass huge []] =
        .error (Error.invalidAction (.object none shownClass huge [])).worded.kind := by
      with_unfolding_all rfl
    rw [hfails, Error.worded, Error.hasText, hlong]
    rfl
  · with_unfolding_all rfl

end Statechart
