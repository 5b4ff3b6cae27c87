import Statechart.Target
import Statechart.Value.Access

/-!
# Machines from configurations

`Machine.define` builds a machine from a configuration in two passes over its nodes in document
order. The first reads the nodes and checks keys, identities and defaults; the second reads the
transitions and resolves their targets, so a target may name a node that is declared later. Each
pass stops at its first fault.
-/

namespace Statechart

/-- A machine: a chart under a name. -/
structure Machine where
  id : Value
  root : Chart

namespace Machine

/-- A value as a list of items: null is none, a list or a tuple is its items, and anything else is
one item. -/
def items : Value → List Value
  | .null => []
  | .list _ xs => xs
  | .tuple xs => xs
  | .result u o => [u, o]
  | v => [v]

/-- The value under a key, or null. -/
def field (es : Table) (name : String) : Value :=
  (es.getText? name).getD .null

/-- The value under the first of two keys that is there, or null. -/
def fieldOr (es : Table) (name other : String) : Value :=
  (es.getText? name).getD (field es other)

/-- The first value if it is true, or the second. -/
def orElse (v w : Value) : Value :=
  if v.truthy then v else w

/-- The kind that a node's fields make it. -/
def kindOf (es : Table) : Kind :=
  if (field es "type").eq (.text "parallel") || (field es "parallel").truthy then .parallel
  else if (field es "states").truthy then .compound
  else .atomic

/-- Refuses a key below the root that holds a dot. -/
def checkKey (isRoot : Bool) (key : Value) : Except Error Unit := do
  if (← Value.member (.text ".") key) && !isRoot then .error (.definition (.dottedKey key))

/-- The identity of a node that declares none: the name of the machine and the keys that lead to the
node, joined by dots. -/
def defaultId (machine : Value) (path : Path) : Except Error Value :=
  match path with
  | [] => .ok machine
  | _ =>
      match machine with
      | .text name => .ok (.text (Path.dotted (name :: path)))
      | _ => .error .wrongType

/-- The node that fields declare, apart from its transitions, which are left as they are. -/
def readNode (machine : Value) (path : Path) (es : Table) : Except Error (Node Value) := do
  return {
    id := orElse (field es "id") (← defaultId machine path)
    kind := kindOf es
    initial := field es "initial"
    entry := items (fieldOr es "entry" "onEntry")
    exit := items (fieldOr es "exit" "onExit")
    on := field es "on" }

/-- Refuses an identity that another node has. -/
def checkId (ids : List Value) (id : Value) : Except Error Unit :=
  if !id.hashable then .error .wrongType
  else if id.isIn ids then .error (.definition (.duplicateId id))
  else .ok ()

/-- Refuses a compound node whose default is none of its children. -/
def checkInitial (node : Node Value) (keys : List String) : Except Error Unit :=
  match node.kind with
  | .compound =>
      match node.initial with
      | .null => .error (.definition (.noInitial node.id))
      | initial =>
          if !initial.hashable then .error .wrongType
          else if initial.isIn (keys.map .text) then .ok ()
          else .error (.definition (.initialNotChild initial node.id))
  | _ => .ok ()

/-- The key of a child, and whether it is a text. Only texts can be joined to a path. -/
def keyText (key : Value) : Except Error String :=
  match key with
  | .text s => .ok s
  | _ => .error .wrongType

/-- The subtrees read so far, and the identities in use. -/
abbrev Reading (α : Type) := List Value → Except Error (α × List Value)

mutual

/-- Reads the node at a path and everything below it. A node other than the root may be declared by
anything false, which stands for no fields. -/
def readTree (machine : Value) (path : Path) : Value → Reading Draft
  | .dict _ es => fun ids => do
      let node ← readNode machine path es
      checkId ids node.id
      let (children, ids) ← readStates machine path es (node.id :: ids)
      checkInitial node (children.map Prod.fst)
      return (.node node children, ids)
  | .view es => fun ids => do
      let node ← readNode machine path es
      checkId ids node.id
      let (children, ids) ← readStates machine path es (node.id :: ids)
      checkInitial node (children.map Prod.fst)
      return (.node node children, ids)
  | v => fun ids => do
      if v.truthy then .error .missingAttribute
      let node ← readNode machine path []
      checkId ids node.id
      return (.node node [], node.id :: ids)

/-- Reads the children that the field `states` declares. -/
def readStates (machine : Value) (path : Path) :
    List (Value × Value) → Reading (List (String × Draft))
  | [] => fun ids => .ok ([], ids)
  | (k, v) :: es =>
      if k.text? = some "states" then readForest machine path v
      else readStates machine path es

/-- Reads the children that a table declares; anything false declares none. -/
def readForest (machine : Value) (path : Path) : Value → Reading (List (String × Draft))
  | .dict _ cs => readChildren machine path cs
  | .view cs => readChildren machine path cs
  | v => fun ids => if v.truthy then .error .missingAttribute else .ok ([], ids)

/-- Reads children in order. -/
def readChildren (machine : Value) (path : Path) :
    List (Value × Value) → Reading (List (String × Draft))
  | [] => fun ids => .ok ([], ids)
  | (key, cfg) :: cs => fun ids => do
      checkKey false key
      if cfg.truthy && !cfg.isMapping then .error .missingAttribute
      let k ← keyText key
      let (t, ids) ← readTree machine (path ++ [k]) cfg ids
      let (ts, ids) ← readChildren machine path cs ids
      return ((k, t) :: ts, ids)

end

/-- The candidates that an entry of `on` lists: one alone, or those of a list. A text stands for a
target. -/
def candidates (spec : Value) : Except Error (List Table) :=
  let one (item : Value) : Except Error Table :=
    match item with
    | .text _ => .ok [(.text "target", item)]
    | .dict _ es => .ok es
    | _ => .error (.definition (.invalidTransition item))
  match spec with
  | .list _ xs => xs.mapM one
  | _ => do return [← one spec]

/-- Whether all targets are relative to the source. -/
def allRelative : List Value → Except Error Bool
  | [] => .ok true
  | .text s :: vs => if s.toList.head? = some '.' then allRelative vs else .ok false
  | .bytes _ :: _ => .error .wrongType
  | _ :: _ => .error .missingAttribute

/-- Whether a transition is internal: as it says itself, or when it has targets and all of them are
relative to the source. -/
def isInternal (es : Table) (targets : List Value) : Except Error Bool :=
  match field es "internal" with
  | .null => if targets.isEmpty then .ok false else allRelative targets
  | v => .ok v.truthy

/-- The guard of a transition. -/
def readGuard (id : Value) (es : Table) : Except Error (Option Value) :=
  match field es "cond" with
  | .null => .ok none
  | v => if v.isCallable then .ok (some v) else .error (.definition (.guardNotCallable id))

/-- The path of the node that a target names. -/
def readTarget (root : Draft) (source : Path) : Value → Except Error Path
  | .text s => root.resolve source s
  | .bytes _ => .error .wrongType
  | _ => .error .missingAttribute

/-- Reads a candidate of the node at `source`. -/
def readTransition (root : Draft) (source : Path) (id : Value) (es : Table) :
    Except Error Transition := do
  let targets := items (field es "target")
  let internal ← isInternal es targets
  let guard ← readGuard id es
  let paths ← targets.mapM (readTarget root source)
  return ⟨source, paths, guard, items (field es "actions"), internal⟩

/-- Reads the transitions of the node at `source`. -/
def readHandlers (root : Draft) (source : Path) (node : Node Value) : Except Error Handlers :=
  match node.on.entries? with
  | some es => es.mapM fun e => do
      let candidates ← candidates e.2
      return (e.1, ← candidates.mapM (readTransition root source node.id))
  | none => if node.on.truthy then .error .missingAttribute else .ok []

mutual

/-- Reads the transitions of a node and of everything below it. -/
def readTransitions (root : Draft) (path : Path) : Draft → Except Error Chart
  | .node a cs => do
      let handlers ← readHandlers root path a
      return .node { a with on := handlers } (← readTransitionsBelow root path cs)

/-- Reads the transitions of the trees of a forest. -/
def readTransitionsBelow (root : Draft) (path : Path) :
    List (String × Draft) → Except Error (List (String × Chart))
  | [] => .ok []
  | (k, t) :: cs => do
      let t ← readTransitions root (path ++ [k]) t
      return (k, t) :: (← readTransitionsBelow root path cs)

end

/-- The name of a machine. -/
def nameOf (es : Table) : Value :=
  orElse (field es "id") (orElse (field es "key") (.text "machine"))

/-- Reads the machine of a configuration, which has to be a table, up to the first fault. -/
def assemble (config : Value) : Except Error Machine :=
  match config with
  | .dict _ es => do
      let id := nameOf es
      checkKey true id
      let (draft, _) ← readTree id [] config []
      return ⟨id, ← readTransitions draft [] draft⟩
  | _ => .error (.definition .notTable)

/-- The machine of a configuration, or its first fault as it is reported. -/
def define (config : Value) : Except Error Machine :=
  (assemble config).mapError Error.worded

end Machine

end Statechart
