import Statechart.Proofs.Tree.WellFormed

/-!
# Document order goes from the outside in

In document order a node stands before everything that lies below it: `pairwise_paths`. So the nodes
of a set that is put in document order come after those of them that they lie below, which is
`above_before_ordered`; the other way round, each comes before them. A node and what lies below it
stand together: `paths_eq_append`.
-/

namespace Statechart

/-- Of two members of a list one stands before the other. -/
theorem pair_sublist_or {α : Type} {xs : List α} {a b : α} (ha : a ∈ xs) (hb : b ∈ xs)
    (hne : a ≠ b) : [a, b].Sublist xs ∨ [b, a].Sublist xs := by
  obtain ⟨before, after, rfl⟩ := List.append_of_mem ha
  rcases List.mem_append.mp hb with hb | hb
  · have hpair : ([b] ++ [a]).Sublist (before ++ a :: after) :=
      (List.singleton_sublist.mpr hb).append (List.singleton_sublist.mpr List.mem_cons_self)
    exact Or.inr hpair
  · have hb : b ∈ after := (List.mem_cons.mp hb).resolve_left hne.symm
    have hpair : [a, b].Sublist (a :: after) := (List.singleton_sublist.mpr hb).cons_cons a
    exact Or.inl (hpair.trans (List.sublist_append_right before (a :: after)))

namespace Tree

variable {τ : Type} {root : Tree (Node τ)}

/-- In document order no node stands after one that lies below it. -/
theorem pairwise_paths (hwf : root.WellFormed) :
    root.paths.Pairwise fun p q => p.isBelow q = false := by
  induction root using node_induction with
  | node a cs ih =>
      rw [paths_node, List.pairwise_cons, List.pairwise_flatMap]
      refine ⟨fun q _ => by simp [Path.isBelow], fun c hc => ?_, ?_⟩
      · have hchild := ih c hc (hwf.child (hwf.lookup.mpr hc))
        refine List.pairwise_map.mpr (hchild.imp fun {p q} hpq => ?_)
        rw [Bool.eq_false_iff] at hpq ⊢
        exact fun hbelow => hpq (Path.cons_is_below_cons.mp hbelow).2
      · -- What is below one child is below no other, since their keys differ.
        refine (List.pairwise_map.mp hwf.keys).imp fun {c d} hne p hp q hq => ?_
        obtain ⟨ps, -, rfl⟩ := List.mem_map.mp hp
        obtain ⟨qs, -, rfl⟩ := List.mem_map.mp hq
        rw [Bool.eq_false_iff]
        exact fun hbelow => hne (Path.cons_is_below_cons.mp hbelow).1

/-- Among nodes in document order each stands after those that it lies below. -/
theorem above_before_ordered (hwf : root.WellFormed) {ps : List Path} {p q : Path}
    (hp : p ∈ root.ordered ps) (hq : q ∈ root.ordered ps) (hbelow : p.isBelow q = true) :
    [q, p].Sublist (root.ordered ps) := by
  have hne : p ≠ q := by
    intro heq
    simp [heq] at hbelow
  rcases pair_sublist_or hp hq hne with h | h
  · have hnot := List.pairwise_iff_forall_sublist.mp (pairwise_paths hwf)
      (h.trans List.filter_sublist)
    rw [hbelow] at hnot
    cases hnot
  · exact h

/-- The nodes of a subtree stand together in document order. -/
theorem paths_eq_append {α : Type} {root t : Tree α} {p : Path} (hp : root.at? p = some t) :
    ∃ before after, root.paths = before ++ t.paths.map (p ++ ·) ++ after := by
  induction p generalizing root with
  | nil =>
      obtain rfl : root = t := by simpa using hp
      exact ⟨[], [], by simp⟩
  | cons k p ih =>
      rcases root with ⟨a, cs⟩
      obtain ⟨s, hs, ht⟩ := Option.bind_eq_some_iff.mp (at_cons a cs k p ▸ hp)
      obtain ⟨cs₁, cs₂, rfl, -⟩ := List.lookup_eq_some_iff.mp hs
      obtain ⟨before, after, hpaths⟩ := ih ht
      refine ⟨[] :: (cs₁.flatMap fun c => c.2.paths.map (c.1 :: ·)) ++ before.map (k :: ·),
        after.map (k :: ·) ++ cs₂.flatMap fun c => c.2.paths.map (c.1 :: ·), ?_⟩
      simp [paths_node, hpaths]

end Tree

end Statechart
