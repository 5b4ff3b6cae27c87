import Statechart.Configuration

/-!
# Sites

A node knows where it stands in three ways: by its path, by its number, which is that of the nodes
read before it, and by a link to the site of the node above it. `Tree.register` gives all nodes
their sites in one walk that carries the next number along; `Site.ancestors` follows the links.
-/

namespace Statechart

/-- A node where it stands. Only the root has no site above it. -/
structure Site (α : Type) where
  value : α
  path : Path
  order : Nat
  parent : Option (Site α)

/-- The sites of the nodes read so far, under different paths, and the next number. -/
structure Register (α : Type) where
  next : Nat
  sites : List (Site α)

variable {α : Type}

namespace Site

/-- The sites on the way to the root, the nearest first. -/
def ancestors : Site α → List (Site α)
  | ⟨_, _, _, none⟩ => []
  | ⟨_, _, _, some s⟩ => s :: s.ancestors

/-- Whether a node stands properly below another. -/
def isBelow (s a : Site α) : Bool :=
  s.path.isBelow a.path

end Site

namespace Register

/-- Puts a site under its path, in the place of one that is there. -/
def put (r : Register α) (s : Site α) : Register α where
  next := r.next + 1
  sites :=
    if r.sites.any fun o => o.path == s.path then
      r.sites.map fun o => if o.path == s.path then s else o
    else r.sites ++ [s]

mutual

/-- Registers the node at a path and everything below it. -/
def addTree (path : Path) (parent : Option (Site α)) : Tree α → Register α → Register α
  | .node a cs, r =>
      let s : Site α := ⟨a, path, r.next, parent⟩
      addChildren s cs (r.put s)

/-- Registers the children of a node, in order, and everything below them. -/
def addChildren (s : Site α) : List (String × Tree α) → Register α → Register α
  | [], r => r
  | (k, t) :: cs, r => addChildren s cs (addTree (s.path ++ [k]) (some s) t r)

end

end Register

/-- The register of the nodes of a tree. -/
def Tree.register (t : Tree α) : Register α :=
  Register.addTree [] none t ⟨0, []⟩

namespace Machine

/-- The sites of the nodes of a machine. -/
def sites (m : Machine) : List (Site (Node Handlers)) :=
  m.root.register.sites

/-- The site of the node with the given dotted path. -/
def site (m : Machine) (dotted : String) : Except Error (Site (Node Handlers)) :=
  match m.sites.find? fun s => s.path == Path.ofDotted dotted with
  | some s => .ok s
  | none => .error .missingKey

end Machine

end Statechart
