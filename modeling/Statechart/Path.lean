import Statechart.Text.Split

/-!
# Paths

A node of a chart is addressed by the keys that lead to it from the root. The dotted form joins the
keys by dots; the root is the empty path.
-/

namespace Statechart

/-- The keys that lead from the root to a node. -/
abbrev Path := List String

namespace Path

/-- The dotted form of a path. -/
def dotted (p : Path) : String :=
  String.ofList (Text.joinWith '.' (p.map String.toList))

/-- The keys between the dots of a text. -/
def keysOf (s : String) : Path :=
  (Text.splitOn '.' s.toList).map String.ofList

/-- The path with the given dotted form; the empty text is the root. -/
def ofDotted (s : String) : Path :=
  if s.isEmpty then [] else keysOf s

/-- Whether a path leads to a node properly below another. -/
def isBelow (p q : Path) : Bool :=
  q.isPrefixOf p && q.length < p.length

/-- The paths of the nodes properly above a node, the root first. -/
def above : Path → List Path
  | [] => []
  | k :: ks => [] :: (above ks).map (k :: ·)

/-- The paths of the nodes properly above a node, the nearest first. -/
def ancestors (p : Path) : List Path :=
  (above p).reverse

/-- The path of the node directly above, for nodes other than the root. -/
def parent? (p : Path) : Option Path :=
  (ancestors p).head?

end Path

end Statechart
