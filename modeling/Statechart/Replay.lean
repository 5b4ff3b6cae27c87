import Statechart.Interpreter
import Statechart.Log.Record
import Statechart.Value.Canonical

/-!
# Replaying events

`Replay.run` sends events to an interpreter in order and stops at the first that fails; the events
before it stay committed. Each event leaves a log record.
-/

namespace Statechart.Replay

/-- What a run left behind: the interpreter, the outputs of each event that succeeded, the number of
events that were applied, the log, and the error that ended the run early. -/
structure Trace where
  interpreter : Interpreter
  outputs : List Value
  applied : Nat
  logs : List Log.Record
  failure : Option Error

/-- The logger of runs. -/
def loggerName : String := "statefold.replay.runner"

/-- The record of an event that was processed. -/
def processed (run : String) (index : Nat) (event : Value) (version : Nat) : Log.Record :=
  ⟨loggerName, .debug, "Event " ++ toString index ++ " processed: " ++ event.display ++ " (version "
    ++ toString version ++ ")", run⟩

/-- The record of an event that failed. -/
def failed (run : String) (index : Nat) (event : Value) : Log.Record :=
  ⟨loggerName, .error, "Event processing failed at index " ++ toString index ++ ": "
    ++ event.display, run⟩

/-- Sends events in order; `index` counts those sent before. -/
def sendAll (h : Host) (run : String) (index : Nat) (i : Interpreter) : List Value → Trace
  | [] => ⟨i, [], 0, [], none⟩
  | event :: events =>
      match i.send h event with
      | (next, .ok outputs) =>
          let rest := sendAll h run (index + 1) next events
          { rest with
            outputs := outputs :: rest.outputs
            applied := rest.applied + 1
            logs := processed run index event next.snapshot.version :: rest.logs }
      | (next, .error e) => ⟨next, [], 0, [failed run index event], some e⟩

/-- The events of a run: the initial event first when the interpreter is to be started. -/
def eventsOf (start : Bool) (events : List Value) : List Value :=
  if start then Event.init :: events else events

/-- Sends the events that a value lists. -/
def run (h : Host) (i : Interpreter) (events : Value) (start : Bool) (run : Option String) :
    Trace :=
  match events.elements with
  | .error e => ⟨i, [], 0, [], some e⟩
  | .ok es => sendAll h (Log.runName run) 0 i (eventsOf start es)

/-- The digest of the outputs of a run. -/
def outputsDigest (c : Copies) (outputs : List Value) : Except Error String :=
  (Value.newList outputs).digest c

end Statechart.Replay
