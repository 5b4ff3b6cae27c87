import Statechart.Call
import Statechart.Configuration
import Statechart.Event

/-!
# Taking transitions

`Machine.transition` selects for each active atomic node the first enabled candidate on the way to
the root, leaves out those that would exit what an earlier one exits, and takes the rest together:
the exited nodes go from the deepest up, the entered ones from the outermost down, and the actions
of the transitions run in between.
-/

namespace Statechart

namespace Tree

variable {τ : Type}

/-- The node below which a transition moves: its source, when it is internal and moves below it, or
else the nearest node above the source that is no parallel region and has all targets below it, or
the root. A transition without targets has none. -/
def domain? (root : Tree (Node τ)) (t : Transition) : Option Path :=
  let covers (p : Path) : Bool := t.targets.all fun q => q.isBelow p
  if t.targets.isEmpty then none
  else if t.internal && root.kind? t.source == some .compound && covers t.source then some t.source
  else
    let fits (p : Path) : Bool := (p.isEmpty || root.kind? p != some .parallel) && covers p
    some ((t.source.ancestors.find? fits).getD [])

/-- The active nodes properly below the domain. -/
def exitSet (active : List Path) (domain : Path) : List Path :=
  active.filter fun p => p.isBelow domain

/-- Adds a target, the nodes between it and the domain, its default descendants, and the other
regions of the parallel nodes between. -/
def enterTarget (root : Tree (Node τ)) (domain : Path) (entered : List Path) (target : Path) :
    List Path :=
  let chain := target.ancestors.filter fun p => p.isBelow domain
  root.enterAllRegions (entered ++ root.defaultsAt target ++ chain) chain

/-- The nodes that a transition enters below its domain, one target after the other. -/
def entrySet (root : Tree (Node τ)) (domain : Path) (targets : List Path) : List Path :=
  targets.foldl (root.enterTarget domain) []

/-- The active nodes that a transition exits. -/
def exitsOf (root : Tree (Node τ)) (active : List Path) (t : Transition) : List Path :=
  match root.domain? t with
  | some d => exitSet active d
  | none => []

/-- The nodes that a transition enters. -/
def entriesOf (root : Tree (Node τ)) (t : Transition) : List Path :=
  match root.domain? t with
  | some d => root.entrySet d t.targets
  | none => []

/-- The active atomic nodes, in document order. -/
def leaves (root : Tree (Node τ)) (active : List Path) : List Path :=
  (root.ordered active).filter fun p => root.kind? p == some .atomic

/-- The candidates that the node at a path declares for a type of event. -/
def declared (root : Chart) (type : String) (p : Path) : List Transition :=
  match root.get? p with
  | some a => handlersFor a.on type
  | none => []

/-- The candidates on the way from a node to the root, the nearest first. -/
def candidatesFrom (root : Chart) (type : String) (p : Path) : List Transition :=
  (p :: p.ancestors).flatMap (root.declared type)

/-- The first candidate that is enabled. -/
def firstEnabled (enabled : Transition → Except Error Bool) :
    List Transition → Except Error (Option Transition)
  | [] => .ok none
  | t :: ts => do if ← enabled t then return some t else firstEnabled enabled ts

/-- The transitions selected so far and the nodes that they exit. -/
structure Selection where
  taken : List Transition
  exited : List Path

/-- Adds a candidate, unless one of its source is there or an exited node would be exited again. -/
def Selection.add (root : Chart) (active : List Path) (s : Selection) (t : Transition) :
    Selection :=
  if s.taken.any fun u => u.source == t.source then s
  else
    let exits := root.exitsOf active t
    if exits.any fun p => s.exited.contains p then s
    else ⟨s.taken ++ [t], s.exited ++ exits⟩

/-- Goes through active atomic nodes and selects the first enabled candidate of each. -/
def selectFrom (root : Chart) (enabled : Transition → Except Error Bool) (type : String)
    (active : List Path) : List Path → Selection → Except Error Selection
  | [], s => .ok s
  | leaf :: leaves, s => do
      match ← firstEnabled enabled (root.candidatesFrom type leaf) with
      | none => selectFrom root enabled type active leaves s
      | some t => selectFrom root enabled type active leaves (s.add root active t)

/-- The transitions selected for a type of event, in document order of the atomic nodes that they
were found from. -/
def select (root : Chart) (enabled : Transition → Except Error Bool) (type : String)
    (active : List Path) : Except Error (List Transition) := do
  return (← selectFrom root enabled type active (root.leaves active) ⟨[], []⟩).taken

end Tree

namespace Machine

/-- Whether the guard of a transition lets it through. -/
def enabled (h : Host) (start : Identity) (context event : Value) (t : Transition) :
    Except Error Bool :=
  match t.guard with
  | none => .ok true
  | some g => do return (← h.apply start g [context, event]).truthy

/-- The nodes active after transitions are taken together. -/
def activeAfter (m : Machine) (active : List Path) (ts : List Transition) : List Path :=
  let exited := ts.flatMap (m.root.exitsOf active)
  (active.filter fun p => !exited.contains p) ++ ts.flatMap m.root.entriesOf

/-- The actions of transitions that are taken together: those of the exited nodes, the deepest
first, then those of the transitions, then those of the entered nodes, the outermost first. -/
def actionsOf (m : Machine) (active : List Path) (ts : List Transition) : List Value :=
  m.exitActions (m.root.ordered (ts.flatMap (m.root.exitsOf active))).reverse
    ++ ts.flatMap Transition.actions
    ++ m.entryActions (m.root.ordered (ts.flatMap m.root.entriesOf))

/-- The control state after an event. Without an enabled transition it has the same nodes and no
actions; the initial event leads to the initial state from everywhere. -/
def transition (m : Machine) (h : Host) (start : Identity) (state event context : Value) :
    Except Error Value := do
  if Event.isInit event then m.initialState
  else
    let active ← m.activeNodes state
    let type ← Event.typeOf event
    let object ← Event.object h start event
    if !m.root.knows active then .error .missingKey
    match ← m.root.select (enabled h start context object) type active with
    | [] => m.control active [] false
    | ts => m.control (m.activeAfter active ts) (m.actionsOf active ts) true

end Machine

end Statechart
