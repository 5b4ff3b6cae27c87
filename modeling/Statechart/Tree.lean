import Statechart.Path

/-!
# Ordered trees

A tree carries a value at each node, and its children are ordered and have keys. `Tree.nodes` lists
the nodes in document order, each before its children, with their paths from the root.
-/

namespace Statechart

/-- A tree whose nodes carry values of type `α`. -/
inductive Tree (α : Type) where
  | node (value : α) (children : List (String × Tree α))

namespace Tree

variable {α : Type}

/-- The value at the root. -/
def value : Tree α → α
  | .node a _ => a

/-- The children of the root. -/
def children : Tree α → List (String × Tree α)
  | .node _ cs => cs

/-- The subtree at a path. -/
def at? : Tree α → Path → Option (Tree α)
  | t, [] => some t
  | .node _ cs, k :: ks => (cs.lookup k).bind fun t => at? t ks

/-- The value at a path. -/
def get? (t : Tree α) (p : Path) : Option α :=
  (t.at? p).map value

/-- Puts a key in front of the path of each entry. -/
def under {β : Type} (k : String) (es : List (Path × β)) : List (Path × β) :=
  es.map fun e => (k :: e.1, e.2)

mutual

/-- The nodes in document order. -/
def nodes : Tree α → List (Path × α)
  | .node a cs => ([], a) :: forestNodes cs

/-- The nodes of the trees of a forest, in document order. -/
def forestNodes : List (String × Tree α) → List (Path × α)
  | [] => []
  | (k, t) :: cs => under k t.nodes ++ forestNodes cs

end

/-- The paths in document order. -/
def paths (t : Tree α) : List Path :=
  t.nodes.map Prod.fst

/-- The members of a set of paths, in document order and each once. -/
def ordered (t : Tree α) (ps : List Path) : List Path :=
  t.paths.filter fun p => ps.contains p

end Tree

end Statechart
