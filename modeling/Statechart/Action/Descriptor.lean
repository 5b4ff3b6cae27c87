import Statechart.Value.Access

/-!
# Action descriptors

A machine emits actions in many shapes. `Descriptor.read` brings each into one of two: a name to be
looked up among the configured factories, with parameters, or a factory that the action carries
itself. `Descriptor.factory` then finds the factory to call.
-/

namespace Statechart

/-- What an action asks for: the factory registered under a name, or the factory given. -/
inductive Descriptor where
  | named (name params : Value)
  | embedded (factory name : Value)

namespace Descriptor

/-- A descriptor as a value, the form in which factories see it. -/
def toValue : Descriptor → Value
  | .named name params => .named name params
  | .embedded factory name => .embedded factory name

/-- The descriptor that a value is. -/
def ofValue? : Value → Option Descriptor
  | .named name params => some (.named name params)
  | .embedded factory name => some (.embedded factory name)
  | _ => none

/-- A field that stands under a name, or an attribute under that name. -/
def withAttribute (raw : Value) (name : String) (fields : Table) : Table :=
  if fields.contains (.text name) then fields
  else
    match raw.attribute? name with
    | some v => fields.insert (.text name) v
    | none => fields

/-- The fields of an action: the entries of a table, or the attributes of an object that has a
`type` or an `exec`. -/
def fields? (raw : Value) : Option Table :=
  match raw.entries? with
  | some es => some es
  | none =>
      if (raw.attribute? "type").isSome || (raw.attribute? "exec").isSome then
        let own : Table := raw.listedAttributes.map fun f => (.text f.1, f.2)
        some (withAttribute raw "exec" (withAttribute raw "type" own))
      else none

/-- The fields besides the type and the executable. -/
def paramsOf (fields : Table) : Table :=
  fields.filter fun e => !(e.1.same (.text "type") || e.1.same (.text "exec"))

/-- The descriptor that the fields of an action make up. A callable executable comes before the
type; an executable that is there must be callable. -/
def ofFields (raw : Value) (fields : Table) : Except Error Descriptor :=
  let executable := (fields.getText? "exec").getD .null
  let name := (fields.getText? "type").getD .null
  if executable.isCallable then
    .ok (.embedded executable (if name.text?.isSome then name else .null))
  else
    match executable, name with
    | .null, .text n => .ok (.named (.text n) (.newTable (paramsOf fields)))
    | .null, _ => .error (.invalidAction raw)
    | _, _ => .error (.executableNotCallable raw executable)

/-- The descriptor of an action: a descriptor is its own, a text names a factory, a callable is one,
and everything else needs fields. -/
def read (raw : Value) : Except Error Descriptor :=
  match ofValue? raw with
  | some d => .ok d
  | none =>
      match raw with
      | .text _ => .ok (.named raw (.newTable []))
      | _ =>
          if raw.isCallable then .ok (.embedded raw ((raw.attribute? "__name__").getD .null))
          else
            match fields? raw with
            | some fields => ofFields raw fields
            | none => .error (.invalidAction raw)

/-- The factory of a descriptor: its own, or the one that the map has under its name. -/
def factory (d : Descriptor) (factories : Value) : Except Error Value :=
  match d with
  | .embedded f _ => .ok f
  | .named name _ => do
      if ← Value.member name factories then factories.index name
      else .error (.unresolvedFactory name d.toValue)

/-- The factory of a value that has to be a descriptor. -/
def resolve (descriptor factories : Value) : Except Error Value :=
  match ofValue? descriptor with
  | some d => d.factory factories
  | none => .error (.notDescriptor descriptor)

end Descriptor

end Statechart
