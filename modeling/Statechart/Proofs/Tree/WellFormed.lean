import Statechart.Node
import Statechart.Proofs.Path
import Mathlib.Data.List.Nodup

/-!
# Well-formed charts

A chart is well-formed when siblings have different keys without dots, atomic nodes have no
children, and compound nodes have a default child. In a well-formed chart a path leads to at most
one node and document order lists each node once: see `mem_nodes` and `nodup_paths`.
-/

namespace Statechart.Tree

variable {α τ : Type}

/-- Induction over trees: a node may use the statement for each of its children. -/
@[elab_as_elim]
theorem node_induction {motive : Tree α → Prop}
    (node : ∀ a cs, (∀ c ∈ cs, motive c.2) → motive (.node a cs)) : ∀ t, motive t
  | .node a cs => node a cs fun c hc =>
      have : sizeOf c.2 < 1 + sizeOf a + sizeOf cs := by
        have hmem := List.sizeOf_lt_of_mem hc
        have hsnd : sizeOf c.2 < sizeOf c := by
          rcases c with ⟨k, t⟩
          simp only [Prod.mk.sizeOf_spec]
          omega
        omega
      node_induction node c.2

/-- A key leads to a child exactly when the child stands under it. -/
theorem lookup_iff {cs : List (String × Tree α)} (hkeys : (cs.map Prod.fst).Nodup) {k : String}
    {t : Tree α} : cs.lookup k = some t ↔ (k, t) ∈ cs := by
  induction cs with
  | nil => simp
  | cons c cs ih =>
      rcases c with ⟨l, s⟩
      obtain ⟨hfresh, hkeys⟩ := List.nodup_cons.mp hkeys
      by_cases hk : k = l
      · subst hk
        have hnot : (k, t) ∉ cs := fun hmem => hfresh (List.mem_map.mpr ⟨_, hmem, rfl⟩)
        simp [hnot, eq_comm]
      · have hbeq : (k == l) = false := by simpa using hk
        simp [List.lookup_cons, hbeq, ih hkeys, hk]

@[simp] theorem at_nil (t : Tree α) : t.at? [] = some t := by
  cases t; rfl

theorem at_cons (a : α) (cs : List (String × Tree α)) (k : String) (ks : Path) :
    (Tree.node a cs).at? (k :: ks) = (cs.lookup k).bind fun t => t.at? ks := rfl

/-- The subtree at a path followed by another is found in two steps. -/
theorem at_append (t : Tree α) (p q : Path) :
    t.at? (p ++ q) = (t.at? p).bind fun s => s.at? q := by
  induction p generalizing t with
  | nil => simp
  | cons k p ih =>
      cases t with
      | node a cs =>
          rw [List.cons_append, at_cons, at_cons]
          cases cs.lookup k with
          | none => rfl
          | some s => simpa using ih s

/-- The subtree of a child is found among the children of its parent. -/
theorem at_concat (t : Tree α) (p : Path) (k : String) :
    t.at? (p ++ [k]) = (t.at? p).bind fun s => s.children.lookup k := by
  rw [at_append]
  congr 1
  funext s
  cases s with
  | node a cs => cases h : cs.lookup k <;> simp [at_cons, children, h]

/-- The nodes on the way to a node are there. -/
theorem at_isSome_above {t : Tree α} {p q : Path} (hp : (t.at? p).isSome)
    (hpre : q <+: p) : (t.at? q).isSome := by
  obtain ⟨rest, rfl⟩ := hpre
  rw [at_append] at hp
  cases hq : t.at? q with
  | none => simp [hq] at hp
  | some s => rfl

/-- There is a node wherever one can be read. -/
theorem known_of_get {t : Tree α} {p : Path} {a : α} (h : t.get? p = some a) :
    (t.at? p).isSome := by
  simpa [get?] using congrArg Option.isSome h

/-- A chart without repeated or dotted keys whose nodes have the children that their kinds need. -/
inductive WellFormed : Tree (Node τ) → Prop where
  | node {a : Node τ} {cs : List (String × Tree (Node τ))}
      (keys : (cs.map Prod.fst).Nodup)
      (dots : ∀ c ∈ cs, '.' ∉ c.1.toList)
      (atomic : a.kind = .atomic → cs = [])
      (compound : a.kind = .compound → ∃ c ∈ cs, a.initial = .text c.1)
      (below : ∀ c ∈ cs, WellFormed c.2) : WellFormed (.node a cs)

section

variable {a : Node τ} {cs : List (String × Tree (Node τ))}

/-- Siblings have different keys. -/
theorem WellFormed.keys (h : WellFormed (.node a cs)) : (cs.map Prod.fst).Nodup := by
  cases h with
  | node keys _ _ _ _ => exact keys

/-- A key leads to a child of a well-formed node exactly when the child stands under it. -/
theorem WellFormed.lookup (h : WellFormed (.node a cs)) {k : String} {t : Tree (Node τ)} :
    cs.lookup k = some t ↔ (k, t) ∈ cs :=
  lookup_iff h.keys

/-- A child of a well-formed chart is well-formed. -/
theorem WellFormed.child (h : WellFormed (.node a cs)) {k : String} {t : Tree (Node τ)}
    (hk : cs.lookup k = some t) : t.WellFormed := by
  cases h with
  | node keys _ _ _ below => exact below _ ((lookup_iff keys).mp hk)

/-- An atomic node has no children. -/
theorem WellFormed.no_children (h : WellFormed (.node a cs)) (hkind : a.kind = .atomic) :
    cs = [] := by
  cases h with
  | node _ _ atomic _ _ => exact atomic hkind

/-- The default of a compound node leads to a child. -/
theorem WellFormed.default_child (h : WellFormed (.node a cs)) (hkind : a.kind = .compound) :
    ∃ k t, cs.lookup k = some t ∧ a.initial = .text k := by
  cases h with
  | node keys _ _ compound _ =>
      obtain ⟨⟨k, t⟩, hmem, hinitial⟩ := compound hkind
      exact ⟨k, t, (lookup_iff keys).mpr hmem, hinitial⟩

end

/-- The parts of a well-formed chart are well-formed. -/
theorem WellFormed.at {root s : Tree (Node τ)} (h : root.WellFormed) {p : Path}
    (hp : root.at? p = some s) : s.WellFormed := by
  induction p generalizing root with
  | nil =>
      obtain rfl : root = s := by simpa using hp
      exact h
  | cons k p ih =>
      cases root with
      | node a cs =>
          obtain ⟨t, hk, ht⟩ := Option.bind_eq_some_iff.mp (at_cons a cs k p ▸ hp)
          exact ih (h.child hk) ht

/-- The paths of a well-formed chart have no dots in their keys. -/
theorem WellFormed.dot_free {root : Tree (Node τ)} (h : root.WellFormed) {p : Path}
    (hp : (root.at? p).isSome) : p.DotFree := by
  induction p generalizing root with
  | nil => simp [Path.DotFree]
  | cons k p ih =>
      cases root with
      | node a cs =>
          obtain ⟨s, hs⟩ := Option.isSome_iff_exists.mp hp
          obtain ⟨t, hk, ht⟩ := Option.bind_eq_some_iff.mp (at_cons a cs k p ▸ hs)
          have hbelow : Path.DotFree p := ih (h.child hk) (by simp [ht])
          have hmem := h.lookup.mp hk
          cases h with
          | node _ dots _ _ _ => simpa [Path.DotFree] using ⟨dots _ hmem, hbelow⟩

/-! ## Kinds -/

/-- The kind of a node that is there. -/
theorem kind_of_at {root : Tree (Node τ)} {p : Path} {a : Node τ}
    {cs : List (String × Tree (Node τ))} (hp : root.at? p = some (.node a cs)) :
    root.kind? p = some a.kind := by
  simp [kind?, get?, hp, value]

/-- A kind is known only of nodes that are there. -/
theorem at_of_kind {root : Tree (Node τ)} {p : Path} {kind : Kind}
    (hp : root.kind? p = some kind) :
    ∃ a cs, root.at? p = some (.node a cs) ∧ a.kind = kind := by
  cases h : root.at? p with
  | none => simp [kind?, get?, h] at hp
  | some s =>
      rcases s with ⟨a, cs⟩
      exact ⟨a, cs, rfl, by simpa [kind_of_at h] using hp⟩

/-- The kind of a node below another, seen from that other one. -/
theorem kind_append {root s : Tree (Node τ)} {p : Path} (hp : root.at? p = some s) (q : Path) :
    root.kind? (p ++ q) = s.kind? q := by
  simp [kind?, get?, at_append, hp]

/-- An atomic node has nothing below it. -/
theorem WellFormed.not_atomic {root : Tree (Node τ)} (h : root.WellFormed) {p : Path} {k : String}
    (hk : (root.at? (p ++ [k])).isSome) : root.kind? p ≠ some .atomic := by
  intro hkind
  obtain ⟨a, cs, hp, hatomic⟩ := at_of_kind hkind
  simp [at_concat, hp, children, (h.at hp).no_children hatomic] at hk

/-! ## Document order -/

theorem forest_nodes_eq (cs : List (String × Tree α)) :
    forestNodes cs = cs.flatMap fun c => under c.1 c.2.nodes := by
  induction cs with
  | nil => rfl
  | cons c cs ih => simp [forestNodes, ih]

theorem paths_node (a : α) (cs : List (String × Tree α)) :
    (Tree.node a cs).paths = [] :: cs.flatMap fun c => c.2.paths.map (c.1 :: ·) := by
  simp [paths, nodes, forest_nodes_eq, List.map_flatMap, under, Function.comp_def]

/-- Document order lists exactly the nodes of a well-formed chart. -/
theorem mem_nodes {root : Tree (Node τ)} (h : root.WellFormed) {p : Path} {a : Node τ} :
    (p, a) ∈ root.nodes ↔ root.get? p = some a := by
  induction root using node_induction generalizing p with
  | node b cs ih =>
      cases p with
      | nil => simp [nodes, forest_nodes_eq, under, get?, value, eq_comm]
      | cons k ks =>
          have hchild : ∀ t, (k, t) ∈ cs → ((ks, a) ∈ t.nodes ↔ t.get? ks = some a) :=
            fun t hmem => ih _ hmem (h.child (h.lookup.mpr hmem))
          have hnodes : (k :: ks, a) ∈ (Tree.node b cs).nodes ↔
              ∃ t, (k, t) ∈ cs ∧ (ks, a) ∈ t.nodes := by
            simp [nodes, forest_nodes_eq, under]
          rw [hnodes]
          constructor
          · intro hp
            obtain ⟨t, hmem, hks⟩ := hp
            simpa [get?, at_cons, h.lookup.mpr hmem] using (hchild t hmem).mp hks
          · intro hget
            obtain ⟨s, hs, rfl⟩ := Option.map_eq_some_iff.mp hget
            obtain ⟨t, hk, ht⟩ := Option.bind_eq_some_iff.mp (at_cons b cs k ks ▸ hs)
            have hmem := h.lookup.mp hk
            exact ⟨t, hmem, (hchild t hmem).mpr (by simp [get?, ht])⟩

/-- Document order lists the paths of all nodes of a well-formed chart. -/
theorem mem_paths {root : Tree (Node τ)} (h : root.WellFormed) {p : Path} :
    p ∈ root.paths ↔ (root.at? p).isSome := by
  simp only [paths, List.mem_map, Prod.exists, exists_and_right, exists_eq_right, mem_nodes h,
    get?, Option.map_eq_some_iff]
  constructor
  · intro hmem
    obtain ⟨a, s, hs, -⟩ := hmem
    simp [hs]
  · intro hp
    obtain ⟨s, hs⟩ := Option.isSome_iff_exists.mp hp
    exact ⟨s.value, s, hs, rfl⟩

/-- Document order lists each node of a well-formed chart once. -/
theorem nodup_paths {root : Tree (Node τ)} (h : root.WellFormed) : root.paths.Nodup := by
  induction root using node_induction with
  | node a cs ih =>
      rw [paths_node, List.nodup_cons, List.nodup_flatMap]
      refine ⟨by simp, fun c hc => ?_, (List.pairwise_map.mp h.keys).imp ?_⟩
      · exact (ih c hc (h.child (h.lookup.mpr hc))).map List.cons_injective
      · intro c d hne p hp hq
        simp only [List.mem_map] at hp hq
        obtain ⟨q, -, rfl⟩ := hp
        obtain ⟨r, -, heq⟩ := hq
        exact hne (List.cons.inj heq).1.symm

/-- The members of a set of paths that are nodes, in document order. -/
@[simp] theorem mem_ordered {root : Tree (Node τ)} (h : root.WellFormed) {active : List Path}
    {p : Path} : p ∈ root.ordered active ↔ (root.at? p).isSome ∧ p ∈ active := by
  simp [ordered, mem_paths h]

end Statechart.Tree
