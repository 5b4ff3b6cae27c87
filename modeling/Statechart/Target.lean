import Statechart.Error
import Statechart.Node

/-!
# Targets

A target names a node from the place where it is written: `#id` followed by a dotted path starts at
the node with that identity, a leading dot starts at the source, and everything else starts at the
source's parent.
-/

namespace Statechart.Tree

variable {τ : Type}

/-- The path of the node with the given identity. -/
def pathOfId? (root : Tree (Node τ)) (id : String) : Option Path :=
  (root.ids.find? fun e => e.1.text? == some id).map Prod.snd

/-- Follows keys down from a node. The identity of the last node reached is reported when a key
leads nowhere. -/
def descend (target : String) : (path : Path) → (t : Tree (Node τ)) → Path → Except Error Path
  | path, _, [] => .ok path
  | path, .node a cs, k :: ks =>
      match cs.lookup k with
      | some t => descend target (path ++ [k]) t ks
      | none => .error (.definition (.unknownTarget target a.id))

/-- Follows a dotted path down from the node at a path. -/
def descendFrom (root : Tree (Node τ)) (target : String) (path : Path) (dotted : List Char) :
    Except Error Path :=
  match root.at? path with
  | some t => descend target path t (Path.ofDotted (String.ofList dotted))
  | none => .error .missingKey

/-- The path of the node that a target names, seen from the node at `source`. -/
def resolve (root : Tree (Node τ)) (source : Path) (target : String) : Except Error Path :=
  match target.toList with
  | '#' :: cs =>
      match root.pathOfId? (String.ofList (cs.takeWhile (· ≠ '.'))) with
      | some path => root.descendFrom target path ((cs.dropWhile (· ≠ '.')).drop 1)
      | none => .error (.definition (.unknownId target))
  | '.' :: cs => root.descendFrom target source cs
  | cs => root.descendFrom target ((Path.parent? source).getD source) cs

end Statechart.Tree
