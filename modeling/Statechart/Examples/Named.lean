import Statechart.Examples.Door
import Statechart.Examples.Intersection
import Statechart.Examples.TrafficLight
import Statechart.Script.Eval

/-!
# The example interpreters by name

Each example has a machine configuration and an interpreter configuration; all of their handles are
run by one host.
-/

namespace Statechart.Examples

/-- An example: the configuration of its machine and that of its interpreter. -/
structure Example where
  name : String
  machine : Value
  config : Config

/-- The examples. -/
def all : List Example :=
  [⟨"door", Door.machine, Door.config⟩,
    ⟨"intersection", Intersection.machine, Intersection.config⟩,
    ⟨"traffic_light", TrafficLight.machine, TrafficLight.config⟩]

/-- The example with the given name. -/
def find? (name : String) : Option Example :=
  all.find? fun e => e.name == name

/-- The host of the examples. -/
def host : Host :=
  Script.host programs

/-- The interpreter of an example, started with the given extended state or its own. -/
def Example.build (e : Example) (h : Host) (context : Value) : Except Error Interpreter := do
  Interpreter.ofMachine h e.machine (← e.config.check) context

end Statechart.Examples
