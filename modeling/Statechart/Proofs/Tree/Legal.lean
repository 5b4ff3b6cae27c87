import Statechart.Proofs.Tree.WellFormed
import Mathlib.Data.List.Induction
import Mathlib.Data.Set.Basic

/-!
# Legal configurations

A set of nodes is complete when it has the root, the parents of its nodes, a child of each of its
compound nodes and all children of its parallel nodes; it is legal when no compound node has two of
its children in it. Read `Legal.splice` first: what lies below a common node may be taken from
another legal configuration. `Legal.splice_all` does so at several nodes none of which is above
another, and `Legal.eq_of_subset` says that no legal configuration lies inside another.
-/

namespace Statechart.Tree

variable {τ : Type}

/-- Every node of the set has its parent and enough children in the set. -/
structure Complete (root : Tree (Node τ)) (A : Set Path) : Prop where
  known : ∀ p ∈ A, (root.at? p).isSome
  root_mem : [] ∈ A
  parent : ∀ p k, p ++ [k] ∈ A → p ∈ A
  compound : ∀ p ∈ A, root.kind? p = some .compound → ∃ k, p ++ [k] ∈ A
  parallel : ∀ p ∈ A, root.kind? p = some .parallel →
    ∀ k, (root.at? (p ++ [k])).isSome → p ++ [k] ∈ A

/-- A legal configuration: the root, the parent of each node, exactly one child of each compound
node and all children of each parallel node. -/
structure Legal (root : Tree (Node τ)) (A : Set Path) : Prop extends Complete root A where
  unique : ∀ p ∈ A, root.kind? p = some .compound →
    ∀ k l, p ++ [k] ∈ A → p ++ [l] ∈ A → k = l

variable {root : Tree (Node τ)} {A B C : Set Path}

/-- A complete set has everything above its nodes. -/
theorem Complete.prefix_mem (hA : root.Complete A) {p q : Path} (hp : p ∈ A) (hq : q <+: p) :
    q ∈ A := by
  obtain ⟨rest, rfl⟩ := hq
  induction rest using List.reverseRecOn with
  | nil => simpa using hp
  | append_singleton rest k ih =>
      exact ih (hA.parent _ k (by simpa using hp))

/-- A complete set that lies in a legal configuration is all of it. -/
theorem Legal.eq_of_subset (hwf : root.WellFormed) (hA : root.Complete A) (hB : root.Legal B)
    (hsub : A ⊆ B) : A = B := by
  refine Set.Subset.antisymm hsub fun p hp => ?_
  induction p using List.reverseRecOn with
  | nil => exact hA.root_mem
  | append_singleton p k ih =>
      have hparent : p ∈ A := ih (hB.parent p k hp)
      have hknown := hB.known _ hp
      cases hkind : root.kind? p with
      | none =>
          have hsome := at_isSome_above hknown (List.prefix_append p [k])
          simp [kind?, get?, Option.isSome_iff_ne_none.mp hsome] at hkind
      | some kind =>
          cases kind with
          | atomic => exact absurd hkind (hwf.not_atomic hknown)
          | compound =>
              obtain ⟨l, hl⟩ := hA.compound p hparent hkind
              rwa [hB.unique p (hsub hparent) hkind k l hp (hsub hl)]
          | parallel => exact hA.parallel p hparent hkind k hknown

/-! ## Splicing -/

/-- The configuration `A` with what lies below `d` taken from `C`. -/
def splice (A C : Set Path) (d : Path) : Set Path :=
  {p | (p ∈ A ∧ p.isBelow d = false) ∨ (p ∈ C ∧ p.isBelow d = true)}

theorem mem_splice {d p : Path} :
    p ∈ splice A C d ↔ (p ∈ A ∧ p.isBelow d = false) ∨ (p ∈ C ∧ p.isBelow d = true) :=
  Iff.rfl

/-- Children of nodes at or below the place of a splice come from the new part. -/
theorem splice_child_inside {d p : Path} {k : String} (hd : d <+: p) :
    p ++ [k] ∈ splice A C d ↔ p ++ [k] ∈ C := by
  simp [mem_splice, Path.is_below_concat.mpr hd]

/-- Children of other nodes come from the old part. -/
theorem splice_child_outside {d p : Path} {k : String} (hd : ¬ d <+: p) :
    p ++ [k] ∈ splice A C d ↔ p ++ [k] ∈ A := by
  have hout : (p ++ [k]).isBelow d = false := by
    simpa using fun h => hd (Path.is_below_concat.mp h)
  simp [mem_splice, hout]

/-- A node of a splice at or below its place is in the new part. -/
theorem mem_of_splice_inside {d p : Path} (hdC : d ∈ C) (hp : p ∈ splice A C d)
    (hd : d <+: p) : p ∈ C := by
  rcases hp with ⟨-, hout⟩ | ⟨hC, -⟩
  · by_cases heq : d = p
    · exact heq ▸ hdC
    · simp [Path.is_below_of_ne hd heq] at hout
  · exact hC

/-- A node of a splice that is not at or below its place is in the old part. -/
theorem mem_of_splice_outside {d p : Path} (hp : p ∈ splice A C d) (hd : ¬ d <+: p) : p ∈ A := by
  rcases hp with ⟨hA, -⟩ | ⟨-, hin⟩
  · exact hA
  · exact absurd (Path.is_below_iff_ne.mp hin).1 hd

/-- Splicing complete sets at a common node gives a complete set. -/
theorem Complete.splice (hA : root.Complete A) (hC : root.Complete C) {d : Path} (hdA : d ∈ A)
    (hdC : d ∈ C) : root.Complete (splice A C d) where
  known := by
    rintro p (⟨hp, -⟩ | ⟨hp, -⟩)
    · exact hA.known p hp
    · exact hC.known p hp
  root_mem := Or.inl ⟨hA.root_mem, by simp [Path.isBelow]⟩
  parent := by
    intro p k hpk
    by_cases hd : d <+: p
    · have hpC := hC.parent p k ((splice_child_inside hd).mp hpk)
      by_cases heq : d = p
      · subst heq
        exact Or.inl ⟨hdA, by simp⟩
      · exact Or.inr ⟨hpC, Path.is_below_of_ne hd heq⟩
    · have hpA := hA.parent p k ((splice_child_outside hd).mp hpk)
      exact Or.inl ⟨hpA, by simpa using fun h => hd (Path.is_below_iff_ne.mp h).1⟩
  compound := by
    intro p hp hkind
    by_cases hd : d <+: p
    · obtain ⟨k, hk⟩ := hC.compound p (mem_of_splice_inside hdC hp hd) hkind
      exact ⟨k, (splice_child_inside hd).mpr hk⟩
    · obtain ⟨k, hk⟩ := hA.compound p (mem_of_splice_outside hp hd) hkind
      exact ⟨k, (splice_child_outside hd).mpr hk⟩
  parallel := by
    intro p hp hkind k hk
    by_cases hd : d <+: p
    · exact (splice_child_inside hd).mpr
        (hC.parallel p (mem_of_splice_inside hdC hp hd) hkind k hk)
    · exact (splice_child_outside hd).mpr
        (hA.parallel p (mem_of_splice_outside hp hd) hkind k hk)

/-- Splicing legal configurations at a common node gives a legal configuration. -/
theorem Legal.splice (hA : root.Legal A) (hC : root.Legal C) {d : Path} (hdA : d ∈ A)
    (hdC : d ∈ C) : root.Legal (splice A C d) where
  toComplete := hA.toComplete.splice hC.toComplete hdA hdC
  unique := by
    intro p hp hkind k l hk hl
    by_cases hd : d <+: p
    · rw [splice_child_inside hd] at hk hl
      exact hC.unique p (mem_of_splice_inside hdC hp hd) hkind k l hk hl
    · rw [splice_child_outside hd] at hk hl
      exact hA.unique p (mem_of_splice_outside hp hd) hkind k l hk hl

/-- Neither of two paths lies at or below the other. -/
def Apart (p q : Path) : Prop :=
  ¬ p <+: q ∧ ¬ q <+: p

/-- Nothing lies below two paths that are apart. -/
theorem Apart.not_below {p q r : Path} (h : Apart p q) (hp : r.isBelow p = true) :
    r.isBelow q = false := by
  by_contra hq
  have hq : r.isBelow q = true := by simpa using hq
  rcases List.prefix_or_prefix_of_prefix (Path.is_below_iff_ne.mp hp).1
    (Path.is_below_iff_ne.mp hq).1 with hpq | hqp
  · exact h.1 hpq
  · exact h.2 hqp

/-- The configuration `A` with what lies below the first component of each move taken from its
second component. -/
def spliceAll (A : Set Path) (moves : List (Path × Set Path)) : Set Path :=
  {p | (p ∈ A ∧ ∀ m ∈ moves, p.isBelow m.1 = false) ∨
    ∃ m ∈ moves, p ∈ m.2 ∧ p.isBelow m.1 = true}

@[simp] theorem splice_all_nil : spliceAll A [] = A := by
  simp [spliceAll]

/-- Moves below nodes that are apart can be made one after the other. -/
theorem splice_all_cons {m : Path × Set Path} {moves : List (Path × Set Path)}
    (hapart : ∀ n ∈ moves, Apart m.1 n.1) :
    spliceAll A (m :: moves) = spliceAll (splice A m.2 m.1) moves := by
  ext p
  simp only [spliceAll, Set.mem_ofPred_eq, List.mem_cons, forall_eq_or_imp, exists_eq_or_imp,
    mem_splice]
  constructor
  · intro h
    rcases h with ⟨hA, hm, hrest⟩ | ⟨hC, hm⟩ | hrest
    · exact Or.inl ⟨Or.inl ⟨hA, hm⟩, hrest⟩
    · exact Or.inl ⟨Or.inr ⟨hC, hm⟩, fun n hn => (hapart n hn).not_below hm⟩
    · exact Or.inr hrest
  · intro h
    rcases h with ⟨⟨hA, hm⟩ | ⟨hC, hm⟩, hrest⟩ | hrest
    · exact Or.inl ⟨hA, hm, hrest⟩
    · exact Or.inr (Or.inl ⟨hC, hm⟩)
    · exact Or.inr (Or.inr hrest)

/-- A property of configurations that splicing keeps is kept by moves below nodes that are apart. -/
theorem splice_all_induction {P : Set Path → Prop}
    (hsplice : ∀ A C d, P A → P C → d ∈ A → d ∈ C → P (Tree.splice A C d))
    {moves : List (Path × Set Path)} (hA : P A) (hmoves : ∀ m ∈ moves, P m.2 ∧ m.1 ∈ A ∧ m.1 ∈ m.2)
    (hapart : moves.Pairwise fun m n => Apart m.1 n.1) : P (spliceAll A moves) := by
  induction moves generalizing A with
  | nil => simpa using hA
  | cons m moves ih =>
      obtain ⟨hfirst, hrest⟩ := List.pairwise_cons.mp hapart
      obtain ⟨hC, hmA, hmC⟩ := hmoves m (by simp)
      rw [splice_all_cons hfirst]
      refine ih (hsplice A m.2 m.1 hA hC hmA hmC) (fun n hn => ?_) hrest
      obtain ⟨hPn, hnA, hnC⟩ := hmoves n (by simp [hn])
      have hout : n.1.isBelow m.1 = false := by
        simpa using fun h => (hfirst n hn).1 (Path.is_below_iff_ne.mp h).1
      exact ⟨hPn, Or.inl ⟨hnA, hout⟩, hnC⟩

/-- Moves to legal configurations below nodes that are apart keep a configuration legal. -/
theorem Legal.splice_all (hA : root.Legal A) {moves : List (Path × Set Path)}
    (hmoves : ∀ m ∈ moves, root.Legal m.2 ∧ m.1 ∈ A ∧ m.1 ∈ m.2)
    (hapart : moves.Pairwise fun m n => Apart m.1 n.1) : root.Legal (spliceAll A moves) :=
  splice_all_induction (fun _ _ _ hA hC hdA hdC => hA.splice hC hdA hdC) hA hmoves hapart

/-- Moves to complete sets below nodes that are apart keep a set complete. -/
theorem Complete.splice_all (hA : root.Complete A) {moves : List (Path × Set Path)}
    (hmoves : ∀ m ∈ moves, root.Complete m.2 ∧ m.1 ∈ A ∧ m.1 ∈ m.2)
    (hapart : moves.Pairwise fun m n => Apart m.1 n.1) : root.Complete (spliceAll A moves) :=
  splice_all_induction (fun _ _ _ hA hC hdA hdC => hA.splice hC hdA hdC) hA hmoves hapart

end Statechart.Tree
