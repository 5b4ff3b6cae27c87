import Statechart.Action.Descriptor
import Statechart.Action.Outcome
import Statechart.Call
import Statechart.Engine
import Statechart.Value.Arithmetic

/-!
# Interpreters

An interpreter owns a committed snapshot: a control state, an extended state and a version. To
process an event it asks its engine for the next control state and runs the actions that come with
it in order, each seeing the updates of those before. The snapshot changes only when every action
succeeded: `process` gives either the next snapshot and the outputs or the first error, and
`Interpreter.send` keeps the snapshot in the second case. Every call that is made for an event marks
what it makes by the version to come and the number of the call.
-/

namespace Statechart

/-- What an interpreter is configured with: how updates and outputs are taken in, the factories of
named actions, and the outputs of an event without actions. -/
structure Config where
  updateState : Value
  mergeOutputs : Value
  factories : Value
  noOutput : Value

namespace Config

/-- Refuses a configuration whose parts cannot play their roles. -/
def check (c : Config) : Except Error Config :=
  if !c.updateState.isCallable then .error (.config .updateNotCallable)
  else if !c.mergeOutputs.isCallable then .error (.config .mergeNotCallable)
  else
    match c.factories.entries? with
    | none => .error (.config .factoriesNotMapping)
    | some es =>
        match es.find? fun e => !e.2.isCallable with
        | some e => .error (.config (.factoryNotCallable e.1))
        | none => .ok c

/-- The names of the factories, sorted. -/
def factoryNames (c : Config) : Except Error (List Value) :=
  Value.sorted ((c.factories.entries?.getD []).map Prod.fst)

end Config

/-- A committed state. -/
structure Snapshot where
  control : Value
  state : Value
  version : Nat

/-- What an event has done so far. -/
structure Progress where
  state : Value
  outputs : Value

/-- The actions that come with a control state: its attribute, or its entry if it is a table. -/
def actionsIn (control : Value) : Except Error Value :=
  match (control.attribute? "actions").getD .null with
  | .null =>
      match (control.entries?.bind fun es => Table.getText? es "actions").getD .null with
      | .null => .error (.noActions control)
      | actions => .ok actions
  | actions => .ok actions

/-- The identity at which the marks of the next call start. -/
def Identity.nextCall (i : Identity) : Identity :=
  ⟨i.version, i.call + 1, 0⟩

/-- Runs one action: its descriptor is read, its factory found and called, and what it declares is
taken in, the outputs before the update. The marks of its three calls start at `start` and the two
identities for calls that follow. -/
def runAction (h : Host) (c : Config) (start : Identity) (event : Value) (p : Progress)
    (raw : Value) : Except Error Progress := do
  let d ← Descriptor.read raw
  let factory ← d.factory c.factories
  let answer ← h.apply start factory [p.state, event, d.toValue]
  let outcome ← Outcome.read answer d.toValue
  let outputs ← h.apply start.nextCall c.mergeOutputs [p.outputs, outcome.outputs]
  let state ← h.apply start.nextCall.nextCall c.updateState [p.state, outcome.updates]
  return ⟨state, outputs⟩

/-- Runs actions in order. -/
def runActions (h : Host) (c : Config) (start : Identity) (event : Value) :
    List Value → Progress → Except Error Progress
  | [], p => .ok p
  | raw :: raws, p => do
      let p ← runAction h c start event p raw
      runActions h c start.nextCall.nextCall.nextCall event raws p

/-- Processes an event from a snapshot: the next snapshot and the outputs of the event. -/
def process (h : Host) (e : Engine) (c : Config) (s : Snapshot) (event : Value) :
    Except Error (Snapshot × Value) := do
  let start : Identity := ⟨s.version + 1, 0, 0⟩
  let control ← e.transition start s.control event s.state
  let raws ← (← actionsIn control).elements
  let p ← (runActions h c start.nextCall event raws ⟨s.state, c.noOutput⟩).mapError Error.worded
  return (⟨control, p.state, s.version + 1⟩, p.outputs)

/-- An interpreter: an engine and a configuration with the committed snapshot. -/
structure Interpreter where
  engine : Engine
  config : Config
  snapshot : Snapshot

namespace Interpreter

/-- An interpreter that has processed nothing. -/
def new (e : Engine) (c : Config) (state : Value) : Interpreter :=
  ⟨e, c, ⟨e.initial, state, 0⟩⟩

/-- Submits an event: the interpreter afterwards, and the outputs or the error. -/
def send (h : Host) (i : Interpreter) (event : Value) : Interpreter × Except Error Value :=
  match process h i.engine i.config i.snapshot event with
  | .ok (s, outputs) => ({ i with snapshot := s }, .ok outputs)
  | .error e => (i, .error e)

/-- Submits the initial event. -/
def start (h : Host) (i : Interpreter) : Interpreter × Except Error Value :=
  i.send h Event.init

/-- The text that stands for an interpreter. -/
def display (i : Interpreter) : String :=
  "Interpreter(control_state=" ++ i.snapshot.control.display ++ ", version="
    ++ toString i.snapshot.version ++ ")"

/-- The extended state to start with: the one given, or the `context` of the configuration. -/
def initialContext (machine context : Value) : Value :=
  match context with
  | .null => (machine.entries?.bind fun es => Table.getText? es "context").getD .null
  | _ => context

/-- The interpreter of a machine configuration. -/
def ofMachine (h : Host) (machine : Value) (c : Config) (context : Value) :
    Except Error Interpreter := do
  let e ← Engine.ofMachine h (← Machine.define machine)
  return new e c (initialContext machine context)

end Interpreter

end Statechart
