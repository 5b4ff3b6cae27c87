import Statechart.Tree
import Statechart.Value.Basic

/-!
# Nodes of a chart

What a node of a chart declares: its kind, its identity, its default child, the actions on entry and
exit, and the transitions that leave it for each type of event.
-/

namespace Statechart

/-- How many children of an active node are active: none, exactly one, or all. -/
inductive Kind where
  | atomic
  | compound
  | parallel
deriving DecidableEq

/-- The name of a kind. -/
def Kind.name : Kind → String
  | .atomic => "atomic"
  | .compound => "compound"
  | .parallel => "parallel"

/-- A candidate transition of the node at `source`. One without targets runs its actions and moves
nowhere; an internal one does not exit a source whose descendants it targets. -/
structure Transition where
  source : Path
  targets : List Path
  guard : Option Value
  actions : List Value
  internal : Bool

/-- What a node declares; `τ` is the form of its transitions. -/
structure Node (τ : Type) where
  id : Value
  kind : Kind
  initial : Value
  entry : List Value
  exit : List Value
  on : τ

/-- The candidates for each type of event, in order. -/
abbrev Handlers := List (Value × List Transition)

/-- The candidates for a type of event. -/
def handlersFor (on : Handlers) (type : String) : List Transition :=
  match on.find? fun e => e.1.text? == some type with
  | some e => e.2
  | none => []

/-- A chart as declared: the transitions are not yet read. -/
abbrev Draft := Tree (Node Value)

/-- A chart. -/
abbrev Chart := Tree (Node Handlers)

namespace Tree

variable {τ : Type}

/-- The kind of the node at a path. -/
def kind? (t : Tree (Node τ)) (p : Path) : Option Kind :=
  (t.get? p).map Node.kind

/-- The identities of the nodes in document order. -/
def ids (t : Tree (Node τ)) : List (Value × Path) :=
  t.nodes.map fun e => (e.2.id, e.1)

end Tree

end Statechart
