import Statechart.Configuration
import Statechart.Proofs.Tree.Legal

/-!
# Default configurations

`legal_defaults` says that a node and its default descendants are a legal configuration of its
subtree. It goes through `legal_node` and `Legal.child`, which take a legal configuration apart
into those of the children and put it together again.
-/

namespace Statechart.Tree

variable {τ : Type}

/-! ## A node and its children -/

theorem kind_nil (a : Node τ) (cs : List (String × Tree (Node τ))) :
    (Tree.node a cs).kind? [] = some a.kind := rfl

theorem kind_cons (a : Node τ) (cs : List (String × Tree (Node τ))) (k : String) (ks : Path) :
    (Tree.node a cs).kind? (k :: ks) = (cs.lookup k).bind fun t => t.kind? ks := by
  simp only [kind?, get?, at_cons]
  cases cs.lookup k <;> rfl

variable {a : Node τ} {cs : List (String × Tree (Node τ))} {A : Set Path}

/-- What a complete set has at and below a child is complete for the subtree of the child. -/
theorem Complete.child (hA : (Tree.node a cs).Complete A) {k : String} {t : Tree (Node τ)}
    (hk : cs.lookup k = some t) (hmem : [k] ∈ A) : t.Complete {p | k :: p ∈ A} where
  known := fun p hp => by simpa [at_cons, hk] using hA.known _ hp
  root_mem := hmem
  parent := fun p l hp => hA.parent (k :: p) l hp
  compound := fun p hp hkind => hA.compound (k :: p) hp (by simpa [kind_cons, hk] using hkind)
  parallel := fun p hp hkind l hl =>
    hA.parallel (k :: p) hp (by simpa [kind_cons, hk] using hkind) l
      (by simpa [at_cons, hk] using hl)

/-- What a legal configuration has at and below a child is legal for the subtree of the child. -/
theorem Legal.child (hA : (Tree.node a cs).Legal A) {k : String} {t : Tree (Node τ)}
    (hk : cs.lookup k = some t) (hmem : [k] ∈ A) : t.Legal {p | k :: p ∈ A} where
  toComplete := hA.toComplete.child hk hmem
  unique := fun p hp hkind =>
    hA.unique (k :: p) hp (by simpa [kind_cons, hk] using hkind)

/-- Legal configurations of active children make up one of their parent, if the parent has as many
active children as its kind asks for. -/
theorem legal_node (hroot : [] ∈ A)
    (hchild : ∀ k ks, k :: ks ∈ A → ∃ t, cs.lookup k = some t ∧ t.Legal {p | k :: p ∈ A})
    (hcompound : a.kind = .compound → ∃ k, [k] ∈ A ∧ ∀ l, [l] ∈ A → l = k)
    (hparallel : a.kind = .parallel → ∀ k, (cs.lookup k).isSome → [k] ∈ A) :
    (Tree.node a cs).Legal A where
  known := by
    intro p hp
    cases p with
    | nil => rfl
    | cons k ks =>
        obtain ⟨t, hk, ht⟩ := hchild k ks hp
        simpa [at_cons, hk] using ht.known ks hp
  root_mem := hroot
  parent := by
    intro p k hp
    cases p with
    | nil => exact hroot
    | cons l ls =>
        obtain ⟨t, -, ht⟩ := hchild l _ hp
        exact ht.parent ls k hp
  compound := by
    intro p hp hkind
    cases p with
    | nil =>
        obtain ⟨k, hk, -⟩ := hcompound (by simpa [kind_nil] using hkind)
        exact ⟨k, hk⟩
    | cons l ls =>
        obtain ⟨t, hl, ht⟩ := hchild l ls hp
        exact ht.compound ls hp (by simpa [kind_cons, hl] using hkind)
  parallel := by
    intro p hp hkind k hk
    cases p with
    | nil =>
        refine hparallel (by simpa [kind_nil] using hkind) k ?_
        cases hl : cs.lookup k with
        | none => simp [at_cons, hl] at hk
        | some t => rfl
    | cons l ls =>
        obtain ⟨t, hl, ht⟩ := hchild l ls hp
        exact ht.parallel ls hp (by simpa [kind_cons, hl] using hkind) k
          (by simpa [at_cons, hl] using hk)
  unique := by
    intro p hp hkind k l hk hl
    cases p with
    | nil =>
        obtain ⟨m, -, hm⟩ := hcompound (by simpa [kind_nil] using hkind)
        exact (hm k hk).trans (hm l hl).symm
    | cons m ms =>
        obtain ⟨t, hm, ht⟩ := hchild m ms hp
        exact ht.unique ms hp (by simpa [kind_cons, hm] using hkind) k l hk hl

/-! ## Default descendants -/

theorem forest_defaults_eq (cs : List (String × Tree (Node τ))) :
    forestDefaults cs = cs.flatMap fun c => c.2.defaults.map (c.1 :: ·) := by
  induction cs with
  | nil => rfl
  | cons c cs ih => simp [forestDefaults, ih]

theorem defaults_of_eq (k : String) (cs : List (String × Tree (Node τ))) :
    defaultsOf (.text k) cs = ((cs.lookup k).map fun t => t.defaults.map (k :: ·)).getD [] := by
  induction cs with
  | nil => rfl
  | cons c cs ih =>
      rcases c with ⟨l, t⟩
      by_cases hk : k = l
      · subst hk
        simp [defaultsOf, Value.text?]
      · have hbeq : (k == l) = false := by simpa using hk
        simpa [defaultsOf, Value.text?, hk, List.lookup_cons, hbeq] using ih

/-- A node is among its own defaults. -/
@[simp] theorem nil_mem_defaults (t : Tree (Node τ)) : [] ∈ t.defaults := by
  cases t; simp [defaults]

/-- The children among the defaults of a node, and what is below them: the default child of a
compound node and all children of a parallel one. -/
theorem cons_mem_defaults (hwf : (Tree.node a cs).WellFormed) {k : String} {p : Path} :
    k :: p ∈ (Tree.node a cs).defaults ↔ ∃ t, cs.lookup k = some t ∧ p ∈ t.defaults ∧
      (a.kind = .parallel ∨ a.kind = .compound ∧ a.initial = .text k) := by
  cases hkind : a.kind with
  | atomic => simp [defaults, hkind, hwf.no_children hkind]
  | compound =>
      obtain ⟨l, t, hl, hinitial⟩ := hwf.default_child hkind
      simp only [defaults, hkind, hinitial, defaults_of_eq, hl, Option.map_some, Option.getD_some,
        List.mem_cons, reduceCtorEq, false_or, List.mem_map, List.cons.injEq, Value.text.injEq,
        true_and]
      constructor
      · intro h
        obtain ⟨q, hq, rfl, rfl⟩ := h
        exact ⟨t, hl, hq, rfl⟩
      · intro h
        obtain ⟨s, hs, hp, rfl⟩ := h
        obtain rfl : t = s := Option.some.inj (hl.symm.trans hs)
        exact ⟨p, hp, rfl, rfl⟩
  | parallel =>
      simp only [defaults, hkind, forest_defaults_eq, List.mem_cons, reduceCtorEq, false_or,
        List.mem_flatMap, List.mem_map, List.cons.injEq, Prod.exists, hwf.lookup, true_or,
        and_true]
      constructor
      · intro h
        obtain ⟨l, t, hmem, q, hq, rfl, rfl⟩ := h
        exact ⟨t, hmem, hq⟩
      · intro h
        obtain ⟨t, hmem, hp⟩ := h
        exact ⟨k, t, hmem, p, hp, rfl, rfl⟩

/-- A node and its default descendants are a legal configuration of its subtree. -/
theorem legal_defaults {t : Tree (Node τ)} (hwf : t.WellFormed) :
    t.Legal {p | p ∈ t.defaults} := by
  induction t using node_induction with
  | node a cs ih =>
      refine legal_node (nil_mem_defaults _) ?_ ?_ ?_
      · intro k ks hk
        obtain ⟨t, ht, -, hactive⟩ := (cons_mem_defaults hwf).mp hk
        have heq : {p | k :: p ∈ (Tree.node a cs).defaults} = {p | p ∈ t.defaults} := by
          ext p
          rw [Set.mem_ofPred_eq, Set.mem_ofPred_eq, cons_mem_defaults hwf]
          constructor
          · intro h
            obtain ⟨s, hs, hp, -⟩ := h
            rwa [Option.some.inj (ht.symm.trans hs)]
          · exact fun hp => ⟨t, ht, hp, hactive⟩
        exact ⟨t, ht, heq ▸ ih _ (hwf.lookup.mp ht) (hwf.child ht)⟩
      · intro hkind
        obtain ⟨l, t, hl, hinitial⟩ := hwf.default_child hkind
        refine ⟨l, (cons_mem_defaults hwf).mpr
          ⟨t, hl, nil_mem_defaults t, Or.inr ⟨hkind, hinitial⟩⟩, fun k hk => ?_⟩
        obtain ⟨s, -, -, hparallel | ⟨-, htext⟩⟩ := (cons_mem_defaults hwf).mp hk
        · exact absurd (hkind.symm.trans hparallel) (by decide)
        · exact Value.text.inj (htext.symm.trans hinitial)
      · intro hkind k hk
        obtain ⟨t, ht⟩ := Option.isSome_iff_exists.mp hk
        exact (cons_mem_defaults hwf).mpr ⟨t, ht, nil_mem_defaults t, Or.inl hkind⟩

/-- The defaults of a default descendant are defaults. -/
theorem append_mem_defaults {t s : Tree (Node τ)} (hwf : t.WellFormed) {p q : Path}
    (hp : p ∈ t.defaults) (hs : t.at? p = some s) (hq : q ∈ s.defaults) : p ++ q ∈ t.defaults := by
  induction p generalizing t with
  | nil =>
      obtain rfl : t = s := by simpa using hs
      exact hq
  | cons k p ih =>
      cases t with
      | node a cs =>
          obtain ⟨u, hu, hpu, hactive⟩ := (cons_mem_defaults hwf).mp hp
          have hsu : u.at? p = some s := by simpa [at_cons, hu] using hs
          exact (cons_mem_defaults hwf).mpr ⟨u, hu, ih (hwf.child hu) hpu hsu, hactive⟩

/-- The defaults of a node are paths that continue its own by a default descendant. -/
theorem mem_defaults_at {root s : Tree (Node τ)} {p q : Path} (hp : root.at? p = some s) :
    q ∈ root.defaultsAt p ↔ ∃ r ∈ s.defaults, q = p ++ r := by
  simp [defaultsAt, hp, eq_comm]

/-- A default descendant of a node continues the path of the node. -/
theorem exists_of_mem_defaults_at {root : Tree (Node τ)} {p q : Path}
    (hq : q ∈ root.defaultsAt p) :
    ∃ s r, root.at? p = some s ∧ r ∈ s.defaults ∧ q = p ++ r := by
  cases hp : root.at? p with
  | none => simp [defaultsAt, hp] at hq
  | some s =>
      obtain ⟨r, hr, heq⟩ := (mem_defaults_at hp).mp hq
      exact ⟨s, r, rfl, hr, heq⟩

/-- The defaults of a node lie at or below it. -/
theorem prefix_of_mem_defaults_at {root : Tree (Node τ)} {p q : Path}
    (hq : q ∈ root.defaultsAt p) : p <+: q := by
  obtain ⟨s, r, -, -, rfl⟩ := exists_of_mem_defaults_at hq
  exact List.prefix_append p r

section

variable {root : Tree (Node τ)} {x y : Path}

/-- Default descendants are nodes. -/
theorem known_of_mem_defaults_at (hwf : root.WellFormed) (hy : y ∈ root.defaultsAt x) :
    (root.at? y).isSome := by
  obtain ⟨s, r, hx, hr, rfl⟩ := exists_of_mem_defaults_at hy
  have hknown := (legal_defaults (hwf.at hx)).known r hr
  simpa [at_append, hx] using hknown

/-- The parent of a default descendant is one, unless it is above the node. -/
theorem parent_mem_defaults_at (hwf : root.WellFormed) {k : String}
    (hy : y ++ [k] ∈ root.defaultsAt x) : y ++ [k] = x ∨ y ∈ root.defaultsAt x := by
  obtain ⟨s, r, hx, hr, heq⟩ := exists_of_mem_defaults_at hy
  rcases List.eq_nil_or_concat' r with rfl | ⟨r, l, rfl⟩
  · exact Or.inl (by simpa using heq)
  · rw [← List.append_assoc] at heq
    obtain ⟨rfl, -⟩ := List.append_inj' heq rfl
    have hparent := (legal_defaults (hwf.at hx)).parent r l hr
    exact Or.inr ((mem_defaults_at hx).mpr ⟨r, hparent, rfl⟩)

/-- What lies above a default descendant of a node is one or lies above the node. -/
theorem above_mem_defaults_at (hwf : root.WellFormed) {z : Path} (hy : y ∈ root.defaultsAt x)
    (hz : z <+: y) : z ∈ root.defaultsAt x ∨ x.isBelow z = true := by
  obtain ⟨s, r, hx, hr, rfl⟩ := exists_of_mem_defaults_at hy
  rcases List.prefix_or_prefix_of_prefix hz (List.prefix_append x r) with h | h
  · by_cases heq : z = x
    · exact Or.inl ((mem_defaults_at hx).mpr ⟨[], nil_mem_defaults s, by simpa using heq⟩)
    · exact Or.inr (Path.is_below_of_ne h heq)
  · obtain ⟨v, rfl⟩ := h
    have hv : v <+: r := (List.prefix_append_right_inj x).mp hz
    have hmem := (legal_defaults (hwf.at hx)).prefix_mem hr hv
    exact Or.inl ((mem_defaults_at hx).mpr ⟨v, hmem, rfl⟩)

/-- A compound default descendant has a child among the defaults. -/
theorem compound_mem_defaults_at (hwf : root.WellFormed) (hy : y ∈ root.defaultsAt x)
    (hkind : root.kind? y = some .compound) : ∃ k, y ++ [k] ∈ root.defaultsAt x := by
  obtain ⟨s, r, hx, hr, rfl⟩ := exists_of_mem_defaults_at hy
  rw [kind_append hx] at hkind
  obtain ⟨k, hk⟩ := (legal_defaults (hwf.at hx)).compound r hr hkind
  exact ⟨k, (mem_defaults_at hx).mpr ⟨r ++ [k], hk, by simp⟩⟩

/-- A parallel default descendant has all its children among the defaults. -/
theorem parallel_mem_defaults_at (hwf : root.WellFormed) (hy : y ∈ root.defaultsAt x)
    (hkind : root.kind? y = some .parallel) {k : String} (hk : (root.at? (y ++ [k])).isSome) :
    y ++ [k] ∈ root.defaultsAt x := by
  obtain ⟨s, r, hx, hr, rfl⟩ := exists_of_mem_defaults_at hy
  rw [kind_append hx] at hkind
  have hsome : (s.at? (r ++ [k])).isSome := by simpa [at_append, hx] using hk
  have hmem := (legal_defaults (hwf.at hx)).parallel r hr hkind k hsome
  exact (mem_defaults_at hx).mpr ⟨r ++ [k], hmem, by simp⟩

/-- The defaults of a default descendant are default descendants. -/
theorem defaults_at_trans (hwf : root.WellFormed) {z : Path} (hy : y ∈ root.defaultsAt x)
    (hz : z ∈ root.defaultsAt y) : z ∈ root.defaultsAt x := by
  obtain ⟨s, r, hx, hr, rfl⟩ := exists_of_mem_defaults_at hy
  obtain ⟨u, v, hu, hv, rfl⟩ := exists_of_mem_defaults_at hz
  have hsu : s.at? r = some u := by simpa [at_append, hx] using hu
  have hmem := append_mem_defaults (hwf.at hx) hr hsu hv
  exact (mem_defaults_at hx).mpr ⟨r ++ v, hmem, by simp⟩

end

/-- A node that is there is among its defaults. -/
theorem self_mem_defaults_at {root : Tree (Node τ)} {p : Path} (hp : (root.at? p).isSome) :
    p ∈ root.defaultsAt p := by
  obtain ⟨s, hs⟩ := Option.isSome_iff_exists.mp hp
  exact (mem_defaults_at hs).mpr ⟨[], nil_mem_defaults s, by simp⟩

end Statechart.Tree
