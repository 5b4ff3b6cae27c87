import Statechart.Call
import Statechart.Value.Access

/-!
# Events

An event is a text, a table with a `type`, or an object with a `type`. Events are handed on as they
are; only a machine reads their type, and guards see them in the form of a table.
-/

namespace Statechart.Event

/-- The event that asks for the initial control state; never the name of an event of a machine. -/
def initName : String := "@@statefold/init"

/-- The initial event. -/
def init : Value := .text initName

/-- Whether an event is the initial one. -/
def isInit : Value → Bool
  | .text s => s == initName
  | _ => false

/-- The type of an event, before it is known to be a text. -/
def rawType? (event : Value) : Option Value :=
  match event.entries? with
  | some es => Table.getText? es "type"
  | none => event.attribute? "type"

/-- The type of an event. -/
def typeOf (event : Value) : Except Error String :=
  match event with
  | .text s => .ok s
  | _ =>
      match rawType? event with
      | some (.text s) => .ok s
      | _ => .error (.invalidEvent event)

/-- The key and the value that an item of a payload stands for. -/
def entryOf (item : Value) : Except Error (Value × Value) := do
  match ← item.elements with
  | [k, v] => if k.hashable then return (k, v) else .error .wrongType
  | _ => .error (.fault .wrongLength)

/-- The table of a payload that lists its keys by a call: it has to list none, since nothing can be
looked up in the payload itself. -/
def listedEntries (h : Host) (start : Identity) (keys : Value) : Except Error Table := do
  match ← (← h.apply start keys []).elements with
  | [] => return []
  | _ => .error .wrongType

/-- The table that a payload stands for: a table itself, or a series of pairs. Payloads that are
false stand for the empty table. -/
def payloadEntries (h : Host) (start : Identity) (payload : Value) : Except Error Table := do
  if payload.truthy then
    match payload.entries?, payload.attribute? "keys" with
    | some es, _ => return es
    | none, some keys => listedEntries h start keys
    | none, none => return Table.ofList (← (← payload.elements).mapM entryOf)
  else return []

/-- The form of an event that guards see: the table of an event that is one, the payload of an
object, and in either case the type of the event under `type`. -/
def object (h : Host) (start : Identity) (event : Value) : Except Error Value := do
  match event with
  | .text s => return .table [("type", .text s)]
  | _ =>
      let es ← match event.entries? with
        | some es => pure es
        | none => payloadEntries h start ((event.attribute? "payload").getD .null)
      return .newTable (Table.insert es (.text "type") (.text (← typeOf event)))

end Statechart.Event
