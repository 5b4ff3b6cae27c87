import Statechart.Proofs.Selection
import Statechart.Proofs.Tree.DocumentOrder
import Statechart.Site
import Mathlib.Data.Set.Function
import Mathlib.Order.Bounds.Defs
import Mathlib.Order.Interval.Set.Defs

/-!
# Where a node stands

The path, the number and the link of a site agree on where its node stands. Read `Register.Sound`
and `Extends` first: one more site keeps a register sound, by `Sound.extends_put`, and so does a
walk over a tree, by `extends_add_tree`, which registers the nodes in document order. A node lies
below another exactly when its number is among those of the other's subtree, which follow each
other: `below_iff_order`. What the search for a domain finds is said of sites by `Turns`, and
`sites_agree` puts all of it together.
-/

namespace Statechart

variable {α : Type}

/-- Whether a link fits a path: the root has none, and that of any other node leads to the site,
among those given, of the node one key above it. -/
def Linked (sites : List (Site α)) (p : Path) : Option (Site α) → Prop
  | none => p = []
  | some o => o ∈ sites ∧ ∃ k, p = o.path ++ [k]

/-- A link still fits when there are more sites. -/
theorem Linked.mono {xs ys : List (Site α)} {p : Path} {parent : Option (Site α)}
    (h : Linked xs p parent) (hsub : xs ⊆ ys) : Linked ys p parent := by
  cases parent with
  | none => exact h
  | some o => exact ⟨hsub h.1, h.2⟩

namespace Site

/-- Above a site with a link are the site that it leads to and what is above that. -/
theorem ancestors_of_parent {s o : Site α} (h : s.parent = some o) :
    s.ancestors = o :: o.ancestors := by
  rcases s with ⟨a, p, i, parent⟩
  obtain rfl : parent = some o := h
  rfl

/-- Nothing is above a site without a link. -/
theorem ancestors_of_no_parent {s : Site α} (h : s.parent = none) : s.ancestors = [] := by
  rcases s with ⟨a, p, i, parent⟩
  obtain rfl : parent = none := h
  rfl

end Site

namespace Register

variable {r r' r'' : Register α} {s a n : Site α}

/-- The paths of the sites with what their nodes declare. -/
def entries (r : Register α) : List (Path × α) :=
  r.sites.map fun s => (s.path, s.value)

/-- The sites have different paths, their numbers count them, and their links fit their paths. -/
structure Sound (r : Register α) : Prop where
  next : r.next = r.sites.length
  orders : r.sites.map Site.order = List.range r.sites.length
  paths : (r.entries.map Prod.fst).Nodup
  linked : ∀ s ∈ r.sites, Linked r.sites s.path s.parent

/-! ## The walk -/

/-- What a walk does to a register: it stays sound, keeps its sites and gets new ones behind
them. -/
structure Extends (r r' : Register α) (es : List (Path × α)) : Prop where
  sound : r'.Sound
  kept : r.sites ⊆ r'.sites
  entries : r'.entries = r.entries ++ es

theorem Extends.refl (h : r.Sound) : Extends r r [] where
  sound := h
  kept := List.Subset.refl _
  entries := by simp

theorem Extends.trans {es es' : List (Path × α)} (h : Extends r r' es)
    (h' : Extends r' r'' es') : Extends r r'' (es ++ es') where
  sound := h'.sound
  kept := List.Subset.trans h.kept h'.kept
  entries := by rw [h'.entries, h.entries, List.append_assoc]

/-- A site that is put in a register is there. -/
theorem mem_put (r : Register α) (s : Site α) : s ∈ (r.put s).sites := by
  unfold put
  split
  · rename_i hany
    obtain ⟨o, ho, hpath⟩ := List.any_eq_true.mp hany
    exact List.mem_map.mpr ⟨o, ho, by simp [hpath]⟩
  · simp

/-- A site with a new path is put behind the others. -/
theorem put_of_fresh (hfresh : s.path ∉ r.entries.map Prod.fst) :
    r.put s = ⟨r.next + 1, r.sites ++ [s]⟩ := by
  have hnone : (r.sites.any fun o => o.path == s.path) = false := by
    rw [List.any_eq_false]
    intro o ho heq
    refine hfresh ?_
    simp only [entries, List.map_map, List.mem_map]
    exact ⟨o, ho, by simpa using heq⟩
  simp [put, hnone]

/-- A site with a new path, the next number and a link that fits may be put in a register. -/
theorem Sound.extends_put (h : r.Sound)
    (hnodup : ((r.entries ++ [(s.path, s.value)]).map Prod.fst).Nodup)
    (horder : s.order = r.next) (hlinked : Linked r.sites s.path s.parent) :
    Extends r (r.put s) [(s.path, s.value)] := by
  have hfresh : s.path ∉ r.entries.map Prod.fst := by
    rw [List.map_append, List.nodup_append] at hnodup
    exact fun hmem => hnodup.2.2 _ hmem _ (by simp) rfl
  have hkept : r.sites ⊆ r.sites ++ [s] := List.subset_append_left _ _
  have hentries : entries ⟨r.next + 1, r.sites ++ [s]⟩ = r.entries ++ [(s.path, s.value)] := by
    simp [entries]
  rw [put_of_fresh hfresh]
  refine ⟨⟨?next, ?orders, ?paths, ?linked⟩, hkept, hentries⟩
  case next => simp [h.next]
  case orders => simp [h.orders, horder, h.next, List.range_succ]
  case paths => exact hentries ▸ hnodup
  case linked =>
    intro o ho
    rcases List.mem_append.mp ho with ho | ho
    · exact (h.linked o ho).mono hkept
    · obtain rfl := List.mem_singleton.mp ho
      exact hlinked.mono hkept

/-- Entries below a path, seen from the root. -/
def below (path : Path) (es : List (Path × α)) : List (Path × α) :=
  es.map fun e => (path ++ e.1, e.2)

/-- What is below a child is below its parent. -/
theorem below_under (path : Path) (k : String) (es : List (Path × α)) :
    below path (Tree.under k es) = below (path ++ [k]) es := by
  simp [below, Tree.under, Function.comp_def]

/-- Registering the children of a node registers each of their trees, when no path to come is there
yet. -/
theorem extends_add_children {cs : List (String × Tree α)}
    (ih : ∀ c ∈ cs, ∀ {path : Path} {parent : Option (Site α)} {r : Register α}, r.Sound →
      Linked r.sites path parent → ((r.entries ++ below path c.2.nodes).map Prod.fst).Nodup →
      Extends r (addTree path parent c.2 r) (below path c.2.nodes))
    (h : r.Sound) (hs : s ∈ r.sites)
    (hnodup : ((r.entries ++ below s.path (Tree.forestNodes cs)).map Prod.fst).Nodup) :
    Extends r (addChildren s cs r) (below s.path (Tree.forestNodes cs)) := by
  induction cs generalizing r with
  | nil => exact Extends.refl h
  | cons c cs ihcs =>
      rcases c with ⟨k, t⟩
      have hsplit : below s.path (Tree.forestNodes ((k, t) :: cs)) =
          below (s.path ++ [k]) t.nodes ++ below s.path (Tree.forestNodes cs) := by
        rw [← below_under]
        simp [below, Tree.forestNodes]
      rw [hsplit, ← List.append_assoc] at hnodup
      -- The paths of the other children stay new while the tree of the first one is registered.
      have hfirst : Extends r (addTree (s.path ++ [k]) (some s) t r)
          (below (s.path ++ [k]) t.nodes) := by
        refine ih (k, t) (by simp) h ⟨hs, k, rfl⟩ ?_
        rw [List.map_append] at hnodup
        exact hnodup.of_append_left
      have hrest := ihcs (fun c hc => ih c (List.mem_cons_of_mem _ hc)) hfirst.sound
        (hfirst.kept hs) (hfirst.entries ▸ hnodup)
      exact hsplit ▸ hfirst.trans hrest

/-- Registering a tree registers its nodes in document order, when no path to come is there yet. -/
theorem extends_add_tree (t : Tree α) {path : Path} {parent : Option (Site α)} {r : Register α}
    (h : r.Sound) (hlinked : Linked r.sites path parent)
    (hnodup : ((r.entries ++ below path t.nodes).map Prod.fst).Nodup) :
    Extends r (addTree path parent t r) (below path t.nodes) := by
  induction t using Tree.node_induction generalizing path parent r with
  | node a cs ih =>
      have hsplit : below path (Tree.node a cs).nodes =
          [(path, a)] ++ below path (Tree.forestNodes cs) := by
        simp [below, Tree.nodes]
      rw [hsplit, ← List.append_assoc] at hnodup
      have hself : Extends r (r.put ⟨a, path, r.next, parent⟩) [(path, a)] := by
        refine h.extends_put ?_ rfl hlinked
        rw [List.map_append] at hnodup
        exact hnodup.of_append_left
      have hbelow := extends_add_children ih hself.sound (mem_put r _) (hself.entries ▸ hnodup)
      exact hsplit ▸ hself.trans hbelow

/-! ## What a sound register says -/

/-- The paths of a register are those of its sites. -/
theorem mem_paths {p : Path} : p ∈ r.entries.map Prod.fst ↔ ∃ s ∈ r.sites, s.path = p := by
  simp [entries]

/-- A site is known by its path. -/
theorem Sound.eq_of_path (h : r.Sound) (ha : a ∈ r.sites) (hn : n ∈ r.sites)
    (hpath : a.path = n.path) : a = n := by
  have hnodup : (r.sites.map Site.path).Nodup := by
    simpa [entries, Function.comp_def] using h.paths
  exact List.inj_on_of_nodup_map hnodup ha hn hpath

/-- The number of a site is where it stands in the register. -/
theorem Sound.get_iff (h : r.Sound) {i : Nat} :
    r.sites[i]? = some s ↔ s ∈ r.sites ∧ s.order = i := by
  have horder : ∀ {j}, r.sites[j]? = some s → s.order = j := by
    intro j hj
    have hat : (r.sites.map Site.order)[j]? = (List.range r.sites.length)[j]? := by rw [h.orders]
    obtain ⟨hlt, -⟩ := List.getElem?_eq_some_iff.mp hj
    rw [List.getElem?_map, hj, List.getElem?_range hlt] at hat
    exact Option.some.inj hat
  constructor
  · exact fun hi => ⟨List.mem_of_getElem? hi, horder hi⟩
  · intro hs
    obtain ⟨j, hj⟩ := List.mem_iff_getElem?.mp hs.1
    rw [← hs.2, horder hj, hj]

/-- The numbers of the sites count from zero. -/
theorem Sound.bij_on_order (h : r.Sound) :
    Set.BijOn Site.order {s | s ∈ r.sites} {i | i < r.sites.length} := by
  refine ⟨fun s hs => ?maps, fun a ha n hn heq => ?inj, fun i hi => ?surj⟩
  case maps => exact (List.getElem?_eq_some_iff.mp (h.get_iff.mpr ⟨hs, rfl⟩)).1
  case inj =>
    have hsame := (h.get_iff.mpr ⟨ha, heq⟩).symm.trans (h.get_iff.mpr ⟨hn, rfl⟩)
    exact Option.some.inj hsame
  case surj =>
    obtain ⟨s, hs⟩ : ∃ s, r.sites[i]? = some s := ⟨_, List.getElem?_eq_getElem hi⟩
    exact ⟨s, h.get_iff.mp hs⟩

/-- A site without a link is that of the root. -/
theorem Sound.path_of_no_parent (h : r.Sound) (hs : s ∈ r.sites) (hparent : s.parent = none) :
    s.path = [] := by
  have hlinked := h.linked s hs
  rw [hparent] at hlinked
  exact hlinked

/-- The link of a site leads to the site one key above it. -/
theorem Sound.path_of_parent (h : r.Sound) (hs : s ∈ r.sites) {o : Site α}
    (hparent : s.parent = some o) : o ∈ r.sites ∧ ∃ k, s.path = o.path ++ [k] := by
  have hlinked := h.linked s hs
  rw [hparent] at hlinked
  exact hlinked

/-- The links of a site lead up along its path, from site to site. -/
theorem Sound.ancestors (h : r.Sound) (hs : s ∈ r.sites) :
    s.ancestors.map Site.path = s.path.ancestors ∧ s.ancestors ⊆ r.sites := by
  generalize hp : s.path = p
  induction p using List.reverseRecOn generalizing s with
  | nil =>
      cases hparent : s.parent with
      | none => simp [Site.ancestors_of_no_parent hparent, Path.ancestors, Path.above]
      | some o =>
          obtain ⟨-, k, hk⟩ := h.path_of_parent hs hparent
          simp [hp] at hk
  | append_singleton p l ih =>
      cases hparent : s.parent with
      | none => simp [h.path_of_no_parent hs hparent] at hp
      | some o =>
          obtain ⟨ho, k, hk⟩ := h.path_of_parent hs hparent
          obtain ⟨rfl, -⟩ := List.append_inj' (hp.symm.trans hk) rfl
          obtain ⟨hpaths, hsub⟩ := ih ho rfl
          rw [Site.ancestors_of_parent hparent, Path.ancestors_concat]
          exact ⟨by simp [hpaths], List.cons_subset.mpr ⟨ho, hsub⟩⟩

/-- The sites above a site are those that it stands below. -/
theorem Sound.mem_ancestors (h : r.Sound) (ha : a ∈ r.sites) (hn : n ∈ r.sites) :
    a ∈ n.ancestors ↔ n.isBelow a = true := by
  obtain ⟨hpaths, hsub⟩ := h.ancestors hn
  rw [Site.isBelow, ← Path.mem_ancestors, ← hpaths, List.mem_map]
  constructor
  · exact fun hmem => ⟨a, hmem, rfl⟩
  · intro hmem
    obtain ⟨o, ho, hpath⟩ := hmem
    exact h.eq_of_path (hsub ho) ha hpath ▸ ho

/-- Every prefix of the path of a site is the path of a site. -/
theorem Sound.exists_of_prefix (h : r.Sound) (hn : n ∈ r.sites) {p : Path} (hp : p <+: n.path) :
    ∃ a ∈ r.sites, a.path = p := by
  obtain ⟨hpaths, hsub⟩ := h.ancestors hn
  rcases List.mem_cons.mp (Path.mem_self_or_ancestors.mpr hp) with rfl | hp
  · exact ⟨n, hn, rfl⟩
  · rw [← hpaths, List.mem_map] at hp
    obtain ⟨a, ha, hpath⟩ := hp
    exact ⟨a, hsub ha, hpath⟩

/-- Only the root has no link. -/
theorem Sound.parent_eq_none_iff (h : r.Sound) (hs : s ∈ r.sites) :
    s.parent = none ↔ s.path = [] := by
  refine ⟨h.path_of_no_parent hs, fun hnil => ?_⟩
  cases hparent : s.parent with
  | none => rfl
  | some o =>
      obtain ⟨-, k, hk⟩ := h.path_of_parent hs hparent
      simp [hnil] at hk

end Register

namespace Tree

variable {τ : Type} {root : Tree (Node τ)} {a n : Site (Node τ)}

/-! ## The register of a chart -/

/-- The register of a well-formed chart is sound and lists its nodes in document order. -/
theorem extends_register (hwf : root.WellFormed) :
    Register.Extends ⟨0, []⟩ root.register root.nodes := by
  have hempty : Register.Sound (⟨0, []⟩ : Register (Node τ)) := by
    constructor <;> simp [Register.entries]
  have hbelow : Register.below [] root.nodes = root.nodes := by simp [Register.below]
  have hnodup : ((Register.entries ⟨0, []⟩ ++ Register.below [] root.nodes).map
      Prod.fst).Nodup := by
    rw [hbelow]
    exact nodup_paths hwf
  exact hbelow ▸ Register.extends_add_tree root hempty rfl hnodup

theorem sound_register (hwf : root.WellFormed) : root.register.Sound :=
  (extends_register hwf).sound

theorem entries_register (hwf : root.WellFormed) : root.register.entries = root.nodes :=
  (extends_register hwf).entries

/-- A site stands for a node of the chart. -/
theorem get_of_site (hwf : root.WellFormed) (ha : a ∈ root.register.sites) :
    root.get? a.path = some a.value := by
  rw [← mem_nodes hwf, ← entries_register hwf]
  exact List.mem_map.mpr ⟨a, ha, rfl⟩

/-- There is a node where a site stands. -/
theorem known_of_site (hwf : root.WellFormed) (ha : a ∈ root.register.sites) :
    (root.at? a.path).isSome :=
  known_of_get (get_of_site hwf ha)

/-- Each node of a chart has a site. -/
theorem exists_site (hwf : root.WellFormed) {p : Path} (hp : (root.at? p).isSome) :
    ∃ s ∈ root.register.sites, s.path = p := by
  rw [← Register.mem_paths, entries_register hwf]
  exact (mem_paths hwf).mpr hp

/-! ## Numbers -/

/-- The number of a site is the place of its node in document order. -/
theorem path_of_order (hwf : root.WellFormed) (ha : a ∈ root.register.sites) :
    root.paths[a.order]? = some a.path := by
  have hget := (sound_register hwf).get_iff.mpr ⟨ha, rfl⟩
  simp [paths, ← entries_register hwf, Register.entries, hget]

/-- A subtree is numbered from its root on as it is in its own document order. -/
theorem path_eq_iff_order (hwf : root.WellFormed) {t : Tree (Node τ)}
    (ha : a ∈ root.register.sites) (ht : root.at? a.path = some t)
    (hn : n ∈ root.register.sites) {j : Nat} {q : Path} (hq : t.paths[j]? = some q) :
    n.path = a.path ++ q ↔ n.order = a.order + j := by
  -- Both numbers are places in document order, where the subtree stands in one piece.
  obtain ⟨before, after, hpaths⟩ := paths_eq_append ht
  have hplace : ∀ {i : Nat} {p : Path}, t.paths[i]? = some p →
      root.paths[before.length + i]? = some (a.path ++ p) := by
    intro i p hp
    obtain ⟨hlt, -⟩ := List.getElem?_eq_some_iff.mp hp
    rw [hpaths, List.append_assoc, List.getElem?_append_right (by omega),
      List.getElem?_append_left (by simpa using hlt)]
    simp [hp]
  have horder : ∀ {m : Site (Node τ)} {i : Nat} {p : Path}, m ∈ root.register.sites →
      t.paths[i]? = some p → (m.path = a.path ++ p ↔ m.order = before.length + i) := by
    intro m i p hm hp
    have hget := path_of_order hwf hm
    obtain ⟨hlt, -⟩ := List.getElem?_eq_some_iff.mp hget
    constructor
    · intro heq
      refine (List.getElem?_inj hlt (nodup_paths hwf)).mp ?_
      rw [hget, hplace hp, heq]
    · intro heq
      rw [heq, hplace hp] at hget
      exact (Option.some.inj hget).symm
  have hfirst : t.paths[0]? = some [] := by
    rcases t with ⟨b, cs⟩
    simp [paths_node]
  have hstart : a.order = before.length := by simpa using horder ha hfirst
  rw [horder hn hq, hstart]

/-- The numbers of the nodes of the subtree at a path. -/
def subtreeOrders (root : Tree α) (p : Path) : Set Nat :=
  {i | ∃ t, root.at? p = some t ∧ ∃ q ∈ t.paths,
    ∃ s ∈ root.register.sites, s.path = p ++ q ∧ s.order = i}

/-- The numbers of a subtree follow each other. -/
theorem subtree_orders_eq (hwf : root.WellFormed) {t : Tree (Node τ)}
    (ha : a ∈ root.register.sites) (ht : root.at? a.path = some t) :
    root.subtreeOrders a.path = Set.Ico a.order (a.order + t.paths.length) := by
  ext i
  constructor
  · intro hi
    obtain ⟨t', ht', q, hq, s, hs, hpath, rfl⟩ := hi
    obtain rfl : t = t' := Option.some.inj (ht.symm.trans ht')
    obtain ⟨j, hj⟩ := List.mem_iff_getElem?.mp hq
    obtain ⟨hlt, -⟩ := List.getElem?_eq_some_iff.mp hj
    have horder := (path_eq_iff_order hwf ha ht hs hj).mp hpath
    exact ⟨by omega, by omega⟩
  · intro hi
    obtain ⟨hle, hlt⟩ := hi
    obtain ⟨j, rfl⟩ := Nat.exists_eq_add_of_le hle
    have hlt : j < t.paths.length := by omega
    obtain ⟨q, hj⟩ : ∃ q, t.paths[j]? = some q := ⟨_, List.getElem?_eq_getElem hlt⟩
    have hq := List.mem_of_getElem? hj
    have hknown : (root.at? (a.path ++ q)).isSome := by
      simpa [at_append, ht] using (mem_paths (hwf.at ht)).mp hq
    obtain ⟨s, hs, hpath⟩ := exists_site hwf hknown
    exact ⟨t, ht, q, hq, s, hs, hpath, (path_eq_iff_order hwf ha ht hs hj).mp hpath⟩

/-- A site stands at or below another when its number is one of the subtree of the other. -/
theorem mem_subtree_orders_iff (hwf : root.WellFormed) (ha : a ∈ root.register.sites)
    (hn : n ∈ root.register.sites) : n.order ∈ root.subtreeOrders a.path ↔ a.path <+: n.path := by
  have hsound := sound_register hwf
  constructor
  · intro hmem
    obtain ⟨t, -, q, -, s, hs, hpath, horder⟩ := hmem
    obtain rfl : s = n := hsound.bij_on_order.injOn hs hn horder
    exact hpath ▸ List.prefix_append _ _
  · intro hpre
    obtain ⟨q, hq⟩ := hpre
    obtain ⟨t, ht⟩ := Option.isSome_iff_exists.mp (known_of_site hwf ha)
    have hknown : (t.at? q).isSome := by
      simpa [← hq, at_append, ht] using known_of_site hwf hn
    exact ⟨t, ht, q, (mem_paths (hwf.at ht)).mpr hknown, n, hn, hq.symm, rfl⟩

/-- What stands below a site has the numbers that follow its own, up to the largest one in its
subtree. -/
theorem below_iff_order (hwf : root.WellFormed) (ha : a ∈ root.register.sites) :
    ∃ last, IsGreatest (root.subtreeOrders a.path) last ∧ ∀ n ∈ root.register.sites,
      (n.isBelow a = true ↔ a.order < n.order ∧ n.order ≤ last) := by
  obtain ⟨t, ht⟩ := Option.isSome_iff_exists.mp (known_of_site hwf ha)
  have hpos : 0 < t.paths.length := by
    rcases t with ⟨b, cs⟩
    simp [paths_node]
  have horders := subtree_orders_eq hwf ha ht
  refine ⟨a.order + t.paths.length - 1, ⟨?_, fun i hi => ?_⟩, fun n hn => ?_⟩
  · rw [horders, Set.mem_Ico]
    omega
  · rw [horders, Set.mem_Ico] at hi
    omega
  · have hsame : a.path = n.path ↔ a.order = n.order :=
      ⟨fun h => congrArg _ ((sound_register hwf).eq_of_path ha hn h),
        fun h => congrArg _ ((sound_register hwf).bij_on_order.injOn ha hn h)⟩
    rw [Site.isBelow, Path.is_below_iff_ne, ← mem_subtree_orders_iff hwf ha hn, horders,
      Set.mem_Ico, ne_eq, hsame]
    omega

end Tree

namespace Site

/-! ## Domains -/

variable {τ : Type} {sites : List (Site (Node τ))} {t : Transition}

/-- The targets of a transition stand properly below a site. -/
def Covers (sites : List (Site (Node τ))) (t : Transition) (a : Site (Node τ)) : Prop :=
  ∀ q ∈ t.targets, ∃ n ∈ sites, n.path = q ∧ n.isBelow a = true

/-- A transition stays inside its source: it is internal and moves below it, and the source is
compound. -/
structure Keeps (sites : List (Site (Node τ))) (t : Transition) (s : Site (Node τ)) : Prop where
  internal : t.internal = true
  kind : s.value.kind = .compound
  covers : Covers sites t s

/-- A site above the source of a transition at which it can turn: it is no parallel node, unless it
is the root, and has all targets below it. -/
structure Spans (sites : List (Site (Node τ))) (t : Transition) (s a : Site (Node τ)) : Prop where
  above : a ∈ s.ancestors
  kind : a.value.kind ≠ .parallel ∨ a.parent = none
  covers : Covers sites t a

/-- The site at which a transition turns, seen from its source `s`: the source if it stays inside,
or else the deepest site that spans it, or the root for want of one. -/
inductive Turns (sites : List (Site (Node τ))) (t : Transition) (s : Site (Node τ)) :
    Site (Node τ) → Prop where
  | inside (keeps : Keeps sites t s) : Turns sites t s s
  | above {a : Site (Node τ)} (leaves : ¬ Keeps sites t s) (spans : Spans sites t s a)
      (deepest : ∀ b, Spans sites t s b → b = a ∨ a.isBelow b = true) : Turns sites t s a
  | root {a : Site (Node τ)} (leaves : ¬ Keeps sites t s) (none : ∀ b, ¬ Spans sites t s b)
      (path : a.path = []) : Turns sites t s a

/-- A transition turns at one site only. -/
theorem Turns.unique {r : Register (Node τ)} (h : r.Sound) {s a b : Site (Node τ)}
    (hmem : a ∈ r.sites) (hmem' : b ∈ r.sites) (ha : Turns r.sites t s a)
    (hb : Turns r.sites t s b) : a = b := by
  cases ha with
  | inside keeps =>
      cases hb with
      | inside => rfl
      | above leaves | root leaves => exact absurd keeps leaves
  | above leaves spans deepest =>
      cases hb with
      | inside keeps => exact absurd keeps leaves
      | above _ spans' deepest' =>
          rcases deepest b spans' with rfl | hbelow
          · rfl
          · refine (deepest' a spans).resolve_right fun hbelow' => ?_
            have hself := Path.is_below_trans hbelow (Path.is_below_iff_ne.mp hbelow').1
            simp at hself
      | root _ none => exact absurd spans (none a)
  | root leaves none path =>
      cases hb with
      | inside keeps => exact absurd keeps leaves
      | above _ spans => exact absurd spans (none b)
      | root _ _ path' => exact h.eq_of_path hmem hmem' (path.trans path'.symm)

end Site

namespace Tree

variable {τ : Type} {root : Tree (Node τ)} {a s : Site (Node τ)} {t : Transition} {d : Path}

/-- The kind of a node is the one that its site has. -/
theorem kind_of_site (hwf : root.WellFormed) (ha : a ∈ root.register.sites) :
    root.kind? a.path = some a.value.kind := by
  simp [kind?, get_of_site hwf ha]

/-- A site covers a transition between nodes of the chart when its path is above the targets. -/
theorem covers_iff (hwf : root.WellFormed) (htargets : ∀ q ∈ t.targets, (root.at? q).isSome) :
    Site.Covers root.register.sites t a ↔ ∀ q ∈ t.targets, q.isBelow a.path = true := by
  refine forall₂_congr fun q hq => ⟨fun hn => ?_, fun hbelow => ?_⟩
  · obtain ⟨n, -, rfl, hbelow⟩ := hn
    exact hbelow
  · obtain ⟨n, hn, rfl⟩ := exists_site hwf (htargets q hq)
    exact ⟨n, hn, rfl, hbelow⟩

/-- Seen from its sites, a transition stays inside its source when it does so by its paths. -/
theorem keeps_iff (hwf : root.WellFormed) (htargets : ∀ q ∈ t.targets, (root.at? q).isSome)
    (hs : s ∈ root.register.sites) (hsource : s.path = t.source) :
    Site.Keeps root.register.sites t s ↔ root.StaysInside t := by
  have hkind := kind_of_site hwf hs
  rw [hsource] at hkind
  have hcovers := covers_iff (a := s) hwf htargets
  rw [hsource] at hcovers
  constructor
  · exact fun h => ⟨h.internal, by rw [hkind, h.kind], hcovers.mp h.covers⟩
  · exact fun h => ⟨h.1, Option.some.inj (hkind.symm.trans h.2.1), hcovers.mpr h.2.2⟩

/-- The sites that span a transition are those above its source that fit as a domain. -/
theorem spans_iff (hwf : root.WellFormed) (htargets : ∀ q ∈ t.targets, (root.at? q).isSome)
    (hs : s ∈ root.register.sites) (ha : a ∈ root.register.sites) :
    Site.Spans root.register.sites t s a ↔ s.isBelow a = true ∧ root.fits t a.path = true := by
  have hsound := sound_register hwf
  rw [fits_iff, kind_of_site hwf ha, ← covers_iff hwf htargets, ← hsound.mem_ancestors ha hs,
    ← hsound.parent_eq_none_iff ha, ne_eq, Option.some.injEq, or_comm]
  exact ⟨fun h => ⟨h.above, h.kind, h.covers⟩, fun h => ⟨h.1, h.2.1, h.2.2⟩⟩

/-- The domain of a transition between nodes of the chart has a site, at which the transition
turns. -/
theorem exists_turns (hwf : root.WellFormed) (htargets : ∀ q ∈ t.targets, (root.at? q).isSome)
    (hs : s ∈ root.register.sites) (hsource : s.path = t.source) (hd : root.domain? t = some d) :
    ∃ a ∈ root.register.sites, a.path = d ∧ Site.Turns root.register.sites t s a := by
  have hsound := sound_register hwf
  have hkeeps := keeps_iff hwf htargets hs hsource
  have hspans : ∀ {b}, Site.Spans root.register.sites t s b →
      b ∈ root.register.sites ∧ s.isBelow b = true ∧ root.fits t b.path = true := by
    intro b hb
    have hmem := (hsound.ancestors hs).2 hb.above
    exact ⟨hmem, (spans_iff hwf htargets hs hmem).mp hb⟩
  obtain ⟨-, ⟨hin, rfl⟩ | ⟨hout, hfind⟩ | ⟨hout, hfind, rfl⟩⟩ := domain_cases hd
  · exact ⟨s, hs, hsource, .inside (hkeeps.mpr hin)⟩
  · rw [← hsource] at hfind
    have hbelow := Path.mem_ancestors.mp (List.mem_of_find?_eq_some hfind)
    obtain ⟨a, ha, rfl⟩ := hsound.exists_of_prefix hs (Path.is_below_iff_ne.mp hbelow).1
    have hspan := (spans_iff hwf htargets hs ha).mpr ⟨hbelow, List.find?_some hfind⟩
    refine ⟨a, ha, rfl, .above (fun h => hout (hkeeps.mp h)) hspan fun b hb => ?_⟩
    obtain ⟨hmem, hbs, hfits⟩ := hspans hb
    have hpre := Path.prefix_of_find_ancestors hfind hbs hfits
    by_cases heq : b.path = a.path
    · exact Or.inl (hsound.eq_of_path hmem ha heq)
    · exact Or.inr (Path.is_below_of_ne hpre heq)
  · have hroot : (root.at? []).isSome := by simp
    obtain ⟨a, ha, hpath⟩ := exists_site hwf hroot
    refine ⟨a, ha, hpath, .root (fun h => hout (hkeeps.mp h)) (fun b hb => ?_) hpath⟩
    obtain ⟨-, hbs, hfits⟩ := hspans hb
    rw [← hsource] at hfind
    exact List.find?_eq_none.mp hfind _ (Path.mem_ancestors.mpr hbs) hfits

end Tree

namespace Machine

variable {m : Machine}

/-- The links, the paths and the numbers of the nodes of a machine agree. The sites stand for the
nodes in document order. The links of a site lead to another exactly when it lies below the other by
its path, and exactly when its number is larger than that of the other, but no larger than the
largest in the subtree of the other. They lead along the proper prefixes of its path, the longest
first, and every prefix is the path of exactly one site. The numbers are those from zero up to the
number of sites. A transition with targets has a domain, which is the site at which it turns. -/
theorem sites_agree {config : Value} (hconfig : config.wellFormed = true)
    (hm : define config = .ok m) :
    (m.sites.map fun s => (s.path, s.value)) = m.root.nodes ∧
    (∀ a ∈ m.sites, ∃ last, IsGreatest (m.root.subtreeOrders a.path) last ∧
      ∀ n ∈ m.sites, (a ∈ n.ancestors ↔ n.isBelow a = true) ∧
        (n.isBelow a = true ↔ a.order < n.order ∧ n.order ≤ last)) ∧
    (∀ n ∈ m.sites, n.ancestors.map Site.path = n.path.inits.dropLast.reverse) ∧
    (∀ n ∈ m.sites, ∀ p, p <+: n.path → ∃! a, a ∈ m.sites ∧ a.path = p) ∧
    Set.BijOn Site.order {s | s ∈ m.sites} {i | i < m.sites.length} ∧
    ∀ t ∈ m.root.transitions, t.targets ≠ [] → ∃ s ∈ m.sites, s.path = t.source ∧
      ∃ d ∈ m.sites, m.root.domain? t = some d.path ∧
        ∀ a ∈ m.sites, a = d ↔ Site.Turns m.sites t s a := by
  have hwf := well_formed_of_define hconfig hm
  have hsound := Tree.sound_register hwf.root
  refine ⟨Tree.entries_register hwf.root, fun a ha => ?below, fun n hn => ?above,
    fun n hn p hp => ?closed, hsound.bij_on_order, fun t ht htargets => ?turns⟩
  case below =>
    obtain ⟨last, hlast, horder⟩ := Tree.below_iff_order hwf.root ha
    exact ⟨last, hlast, fun n hn => ⟨hsound.mem_ancestors ha hn, horder n hn⟩⟩
  case above => rw [(hsound.ancestors hn).1, Path.ancestors_eq_inits]
  case closed =>
    obtain ⟨a, ha, rfl⟩ := hsound.exists_of_prefix hn hp
    exact ⟨a, ⟨ha, rfl⟩, fun b hb => hsound.eq_of_path hb.1 ha hb.2⟩
  case turns =>
    obtain ⟨p, b, hb, e, he, hte⟩ := (Tree.mem_transitions hwf.root).mp ht
    obtain ⟨s, hs, hpath⟩ := Tree.exists_site hwf.root (Tree.known_of_get hb)
    have hsource : s.path = t.source := hpath.trans (hwf.source p b hb e he t hte).symm
    have hknown := hwf.targets t ht
    obtain ⟨q, hq⟩ := List.exists_mem_of_ne_nil _ htargets
    obtain ⟨p, hp⟩ := Tree.exists_domain m.root hq
    obtain ⟨d, hd, rfl, hturns⟩ := Tree.exists_turns hwf.root hknown hs hsource hp
    refine ⟨s, hs, hsource, d, hd, hp, fun a ha => ⟨fun heq => heq ▸ hturns, fun h => ?_⟩⟩
    exact h.unique hsound ha hd hturns

/-- The configuration of a studio with a lamp and a fan, in which the fan can light the lamp. -/
def studioConfig : Value :=
  .table
    [("id", .text "studio"), ("initial", .text "work"),
      ("states", .table
        [("work", .table
          [("type", .text "parallel"),
            ("states", .table
              [("lamp", .table
                  [("initial", .text "off"), ("on", .table [("RESET", .text ".off")]),
                    ("states", .table [("off", .null), ("lit", .null)])]),
                ("fan", .table
                  [("initial", .text "still"),
                    ("states", .table
                      [("still", .table [("on", .table [("GLOW", .text "#studio.work.lamp.lit")])]),
                        ("spin", .null)])])])])])]

/-- The sites of the studio agree. When the fan lights the lamp, the transition turns at the root,
since the work, which is nearer, is parallel. -/
theorem studio_sites_agree : ∃ m, define studioConfig = .ok m ∧ m.sites.length = 8 ∧
    (∃ a ∈ m.sites, ∃ n ∈ m.sites, a.path = ["work"] ∧ n.path = ["work", "fan", "still"] ∧
      a ∈ n.ancestors ∧ a.order < n.order) ∧
    ∃ t ∈ m.root.transitions, t.targets = [["work", "lamp", "lit"]] ∧ ∃ s ∈ m.sites,
      s.path = ["work", "fan", "still"] ∧ ∃ d ∈ m.sites, d.path = [] ∧
        Site.Turns m.sites t s d := by
  obtain ⟨m, hm, hcheck⟩ := exists_of_any (x := define studioConfig) (P := fun m =>
      m.sites.length == 8 && m.sites.any (fun a => a.path == ["work"]) &&
        m.sites.any (fun n => n.path == ["work", "fan", "still"]) &&
          m.root.transitions.any fun t => t.targets == [["work", "lamp", "lit"]] &&
            t.source == ["work", "fan", "still"] && m.root.domain? t == some [])
    (by decide +kernel)
  simp only [Bool.and_eq_true, List.any_eq_true, beq_iff_eq] at hcheck
  obtain ⟨⟨⟨hlen, a, ha, hwork⟩, n, hn, hstill⟩, t, ht, ⟨htargets, hsource⟩, hdomain⟩ := hcheck
  obtain ⟨-, hbelow, -, -, -, hturns⟩ := sites_agree (by decide +kernel) hm
  refine ⟨m, hm, hlen, ⟨a, ha, n, hn, hwork, hstill, ?_⟩, t, ht, htargets, ?_⟩
  · obtain ⟨last, -, hlast⟩ := hbelow a ha
    have hfan : n.isBelow a = true := by
      rw [Site.isBelow, hwork, hstill]
      decide
    exact ⟨(hlast n hn).1.mpr hfan, ((hlast n hn).2.mp hfan).1⟩
  · obtain ⟨s, hs, hpath, d, hd, hroot, hsame⟩ := hturns t ht (by simp [htargets])
    rw [hdomain] at hroot
    exact ⟨s, hs, hpath.trans hsource, d, hd, (Option.some.inj hroot).symm, (hsame d hd).mp rfl⟩

end Machine

end Statechart
