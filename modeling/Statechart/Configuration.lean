import Statechart.Definition

/-!
# Configurations

The active nodes of a chart are a set of paths, kept as a list. `defaults` activates a node with its
default descendants, `enterRegions` activates the regions of a parallel node that have nothing
active yet, and `value` shows which children are active. The paths of a control state are the
dotted forms of the active nodes below the root, in document order.
-/

namespace Statechart

namespace Tree

variable {τ : Type}

mutual

/-- A node and its default descendants, relative to it. -/
def defaults : Tree (Node τ) → List Path
  | .node a cs =>
      [] :: match a.kind with
        | .atomic => []
        | .compound => defaultsOf a.initial cs
        | .parallel => forestDefaults cs

/-- The default descendants by way of one child. -/
def defaultsOf (initial : Value) : List (String × Tree (Node τ)) → List Path
  | [] => []
  | (k, t) :: cs =>
      if initial.text? = some k then t.defaults.map (k :: ·) else defaultsOf initial cs

/-- The default descendants by way of all children. -/
def forestDefaults : List (String × Tree (Node τ)) → List Path
  | [] => []
  | (k, t) :: cs => t.defaults.map (k :: ·) ++ forestDefaults cs

end

/-- The node at a path and its default descendants. -/
def defaultsAt (root : Tree (Node τ)) (p : Path) : List Path :=
  match root.at? p with
  | some t => t.defaults.map (p ++ ·)
  | none => []

/-- Whether a set of paths holds one at or below the given path. -/
def reaches (active : List Path) (p : Path) : Bool :=
  active.any fun q => p.isPrefixOf q

/-- Activates the regions of a parallel node that have nothing active yet. -/
def enterRegions (root : Tree (Node τ)) (active : List Path) (p : Path) : List Path :=
  match root.at? p with
  | some (.node a cs) =>
      match a.kind with
      | .parallel =>
          cs.foldl (fun active c =>
            if reaches active (p ++ [c.1]) then active
            else active ++ c.2.defaults.map (fun q => p ++ c.1 :: q)) active
      | _ => active
  | none => active

/-- Activates the regions of several nodes in turn. -/
def enterAllRegions (root : Tree (Node τ)) (active : List Path) (ps : List Path) : List Path :=
  ps.foldl root.enterRegions active

/-- The active nodes when a chart is started at a node: the nodes above it, its default descendants,
and the other regions of the parallel nodes above it. -/
def startAt (root : Tree (Node τ)) (p : Path) : List Path :=
  root.enterAllRegions (p.ancestors ++ root.defaultsAt p) p.ancestors

/-- The paths of a set that start with a key, without it. -/
def inside (k : String) (active : List Path) : List Path :=
  active.filterMap fun p =>
    match p with
    | l :: ks => if l = k then some ks else none
    | [] => none

mutual

/-- The value of a node: the key of its only active child, or a table from the keys of the active
children to their values, unless the node is atomic, when it is the key given. The paths of the
active nodes are relative to the node. -/
def shown (key : Value) (active : List Path) : Tree (Node τ) → Except Error Value
  | .node a cs =>
      match a.kind with
      | .atomic => .ok key
      | .compound => shownChild active cs
      | .parallel => do return .newTable (← shownRegions active cs)

/-- The value of the first active child. -/
def shownChild (active : List Path) : List (String × Tree (Node τ)) → Except Error Value
  | [] => .error (.fault .noActiveChild)
  | (k, t) :: cs =>
      if active.contains [k] then
        match t.value.kind with
        | .atomic => .ok (.text k)
        | _ => do return .newTable [(.text k, ← shown (.text k) (inside k active) t)]
      else shownChild active cs

/-- The values of all children; that of an atomic one is an empty table. -/
def shownRegions (active : List Path) :
    List (String × Tree (Node τ)) → Except Error (List (Value × Value))
  | [] => .ok []
  | (k, t) :: cs => do
      let v ← match t.value.kind with
        | .atomic => pure (.newTable [])
        | _ => shown (.text k) (inside k active) t
      return (.text k, v) :: (← shownRegions active cs)

end

/-- The dotted forms of the active nodes below the root, in document order. -/
def configuration (root : Tree (Node τ)) (active : List Path) : List String :=
  ((root.ordered active).filter fun p => !p.isEmpty).map Path.dotted

/-- Whether all paths of a set lead to nodes. -/
def knows (root : Tree (Node τ)) (active : List Path) : Bool :=
  active.all fun p => (root.at? p).isSome

end Tree

namespace Machine

/-- The path with the given dotted form, if a node is there. -/
def locate (m : Machine) (dotted : String) : Except Error Path :=
  let p := Path.ofDotted dotted
  if (m.root.at? p).isSome then .ok p else .error .missingKey

/-- The dotted paths of the nodes below the root, in document order. -/
def statePaths (m : Machine) : List String :=
  (m.root.paths.filter fun p => !p.isEmpty).map Path.dotted

/-- The control state in which the given nodes are active. -/
def control (m : Machine) (active : List Path) (actions : List Value) (changed : Bool) :
    Except Error Value := do
  let names := (m.root.configuration active).map .text
  return .state (← m.root.shown m.id active) (.tuple names) (.tuple actions) changed

/-- The entry actions of nodes, in the order given. -/
def entryActions (m : Machine) (ps : List Path) : List Value :=
  ps.flatMap fun p => ((m.root.get? p).map Node.entry).getD []

/-- The exit actions of nodes, in the order given. -/
def exitActions (m : Machine) (ps : List Path) : List Value :=
  ps.flatMap fun p => ((m.root.get? p).map Node.exit).getD []

/-- The initial control state, together with the entry actions of its nodes. -/
def initialState (m : Machine) : Except Error Value :=
  let active := m.root.defaults
  m.control active (m.entryActions (m.root.ordered active)) true

/-- The dotted paths that the configuration of a control state lists. -/
def listedPaths (configuration : Value) : List String :=
  (configuration.elements?.getD []).filterMap Value.text?

/-- The active nodes of a control state, which may also be given as the dotted path of a node to
start at. Paths of a control state are not looked up here. -/
def activeNodes (m : Machine) (state : Value) : Except Error (List Path) :=
  match state with
  | .state _ configuration _ _ => .ok ([] :: (listedPaths configuration).map Path.keysOf)
  | .text s => do return m.root.startAt (← m.locate s)
  | _ => .error (.unsupportedState state)

/-- Whether a control state has the node with the given dotted path among its active ones. -/
def isActive (state : Value) (dotted : String) : Bool :=
  match state with
  | .state _ configuration _ _ => (listedPaths configuration).contains dotted
  | _ => false

end Machine

end Statechart
