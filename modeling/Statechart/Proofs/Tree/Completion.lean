import Statechart.Proofs.Tree.Defaults
import Statechart.Step

/-!
# Completing a partial configuration

Starting at a node activates the nodes above it, its defaults and the other regions of the parallel
nodes above it. `legal_start_at` says that this is a legal configuration. It goes through
`mem_enter_all_regions`, which says what completing regions adds, and `cons_mem_start_at`, which
says what starting below a child activates in each of the children.
-/

namespace Statechart.Tree

variable {τ : Type} {root : Tree (Node τ)}

/-! ## Regions -/

/-- A set reaches a node when it has one at or below it. -/
theorem reaches_iff {active : List Path} {p : Path} :
    reaches active p = true ↔ ∃ q ∈ active, p <+: q := by
  simp [reaches, List.isPrefixOf_iff_prefix]

theorem reaches_eq_false_iff {active : List Path} {p : Path} :
    reaches active p = false ↔ ∀ q ∈ active, ¬ p <+: q := by
  rw [← Bool.not_eq_true, reaches_iff]
  simp

/-- Going through siblings adds the defaults of those that were not reached before. -/
theorem mem_fold_regions {cs : List (String × Tree (Node τ))} (hkeys : (cs.map Prod.fst).Nodup)
    {p q : Path} (active : List Path) :
    q ∈ cs.foldl (fun active c =>
        if reaches active (p ++ [c.1]) then active
        else active ++ c.2.defaults.map fun r => p ++ c.1 :: r) active ↔
      q ∈ active ∨ ∃ c ∈ cs, reaches active (p ++ [c.1]) = false ∧
        ∃ r ∈ c.2.defaults, q = p ++ c.1 :: r := by
  induction cs generalizing active with
  | nil => simp
  | cons c cs ih =>
      obtain ⟨hfresh, hkeys⟩ := List.nodup_cons.mp hkeys
      rw [List.foldl_cons, ih hkeys]
      cases hc : reaches active (p ++ [c.1]) with
      | true => simp [hc]
      | false =>
          -- The defaults of one sibling are below none of the others.
          have hother : ∀ d ∈ cs, reaches (active ++ c.2.defaults.map fun r => p ++ c.1 :: r)
              (p ++ [d.1]) = reaches active (p ++ [d.1]) := by
            intro d hd
            have hne : d.1 ≠ c.1 := fun h => hfresh (h ▸ List.mem_map_of_mem hd)
            rw [Bool.eq_iff_iff, reaches_iff, reaches_iff]
            constructor
            · intro hp
              obtain ⟨x, hx, hpre⟩ := hp
              rcases List.mem_append.mp hx with hx | hx
              · exact ⟨x, hx, hpre⟩
              · obtain ⟨r, -, rfl⟩ := List.mem_map.mp hx
                rw [List.prefix_append_right_inj, List.cons_prefix_cons] at hpre
                exact absurd hpre.1 hne
            · intro hp
              obtain ⟨x, hx, hpre⟩ := hp
              exact ⟨x, List.mem_append_left _ hx, hpre⟩
          simp only [Bool.false_eq_true, if_false, List.mem_append, List.mem_map, List.mem_cons,
            exists_eq_or_imp, hc, true_and, or_assoc, eq_comm (a := q)]
          refine or_congr_right (or_congr_right (exists_congr fun d => ?_))
          refine and_congr_right fun hd => ?_
          rw [hother d hd]

/-- Activating the regions of a parallel node adds the defaults of those that nothing reaches. -/
theorem mem_enter_regions (hwf : root.WellFormed) {active : List Path} {p q : Path} :
    q ∈ root.enterRegions active p ↔ q ∈ active ∨ ∃ k, root.kind? p = some .parallel ∧
      reaches active (p ++ [k]) = false ∧ q ∈ root.defaultsAt (p ++ [k]) := by
  unfold enterRegions
  cases hp : root.at? p with
  | none => simp [kind?, get?, hp]
  | some s =>
      rcases s with ⟨a, cs⟩
      have hat : ∀ k, root.at? (p ++ [k]) = cs.lookup k := fun k => by
        simp [at_concat, hp, children]
      have hs := hwf.at hp
      rw [kind_of_at hp]
      cases hkind : a.kind with
      | atomic => simp [hkind]
      | compound => simp [hkind]
      | parallel =>
          simp only [hkind, mem_fold_regions hs.keys, true_and]
          refine or_congr_right ⟨?_, ?_⟩
          · intro h
            obtain ⟨⟨k, t⟩, hmem, hreach, r, hr, rfl⟩ := h
            refine ⟨k, hreach, (mem_defaults_at ((hat k).trans (hs.lookup.mpr hmem))).mpr ?_⟩
            exact ⟨r, hr, by simp⟩
          · intro h
            obtain ⟨k, hreach, hq⟩ := h
            cases hk : cs.lookup k with
            | none => simp [defaultsAt, hat, hk] at hq
            | some t =>
                obtain ⟨r, hr, rfl⟩ := (mem_defaults_at ((hat k).trans hk)).mp hq
                exact ⟨(k, t), hs.lookup.mp hk, hreach, r, hr, by simp⟩

/-- Activating the regions of several active nodes in turn adds the defaults of those that nothing
reached to begin with. -/
theorem mem_enter_all_regions (hwf : root.WellFormed) {active ps : List Path}
    (hsub : ∀ p ∈ ps, p ∈ active) (hnodup : ps.Nodup) {q : Path} :
    q ∈ root.enterAllRegions active ps ↔ q ∈ active ∨ ∃ p ∈ ps, ∃ k,
      root.kind? p = some .parallel ∧ reaches active (p ++ [k]) = false ∧
        q ∈ root.defaultsAt (p ++ [k]) := by
  unfold enterAllRegions
  induction ps generalizing active with
  | nil => simp
  | cons p ps ih =>
      obtain ⟨hfresh, hnodup⟩ := List.nodup_cons.mp hnodup
      have hgrow : ∀ x ∈ active, x ∈ root.enterRegions active p := fun x hx =>
        (mem_enter_regions hwf).mpr (Or.inl hx)
      rw [List.foldl_cons, ih (fun x hx => hgrow x (hsub x (by simp [hx]))) hnodup]
      -- What is added for `p` is below none of the regions of the nodes that follow.
      have hother : ∀ x ∈ ps, ∀ k, reaches (root.enterRegions active p) (x ++ [k]) =
          reaches active (x ++ [k]) := by
        intro x hx k
        have hxp : x ≠ p := fun h => hfresh (h ▸ hx)
        have hxa : x ∈ active := hsub x (by simp [hx])
        rw [Bool.eq_iff_iff]
        refine ⟨fun h => ?_, fun h => ?_⟩
        · obtain ⟨y, hy, hpre⟩ := reaches_iff.mp h
          rcases (mem_enter_regions hwf).mp hy with hy | ⟨l, -, hreach, hy⟩
          · exact reaches_iff.mpr ⟨y, hy, hpre⟩
          · -- `y` lies below both `x ++ [k]` and `p ++ [l]`, so one of these is above the other.
            rcases List.prefix_or_prefix_of_prefix hpre (prefix_of_mem_defaults_at hy) with h | h
            · rcases List.prefix_concat_iff.mp h with h | h
              · exact absurd (List.append_inj_left' h rfl) hxp
              · exact reaches_iff.mpr ⟨p, hsub p (by simp), h⟩
            · rcases List.prefix_concat_iff.mp h with h | h
              · exact absurd (List.append_inj_left' h rfl).symm hxp
              · exact absurd h (reaches_eq_false_iff.mp hreach x hxa)
        · obtain ⟨y, hy, hpre⟩ := reaches_iff.mp h
          exact reaches_iff.mpr ⟨y, hgrow y hy, hpre⟩
      simp only [mem_enter_regions hwf, List.mem_cons, exists_eq_or_imp, or_assoc]
      refine or_congr_right (or_congr_right (exists_congr fun x => and_congr_right fun hx => ?_))
      simp only [hother x hx]

/-! ## Starting at a node -/

/-- A set whose members all lie on one line with a node reaches a child of one of its ancestors
exactly when the child is on the way to the node. -/
theorem reaches_line {active : List Path} {q c : Path} {k : String} (hq : q ∈ active)
    (hline : ∀ x ∈ active, x <+: q ∨ q <+: x) (hc : q.isBelow c = true) :
    reaches active (c ++ [k]) = true ↔ c ++ [k] <+: q := by
  rw [reaches_iff]
  refine ⟨?_, fun h => ⟨q, hq, h⟩⟩
  intro hp
  obtain ⟨x, hx, hpre⟩ := hp
  rcases hline x hx with hxq | hqx
  · exact hpre.trans hxq
  · exact Path.first_step hpre hqx hc

/-- Starting at a node activates what is above it, its defaults, and the defaults of the regions
beside the way to it. -/
theorem mem_start_at (hwf : root.WellFormed) {p q : Path} (hq : (root.at? q).isSome) :
    p ∈ root.startAt q ↔ q.isBelow p = true ∨ p ∈ root.defaultsAt q ∨
      ∃ c k, q.isBelow c = true ∧ root.kind? c = some .parallel ∧ ¬ c ++ [k] <+: q ∧
        p ∈ root.defaultsAt (c ++ [k]) := by
  have hsub : ∀ c ∈ q.ancestors, c ∈ q.ancestors ++ root.defaultsAt q := fun c hc =>
    List.mem_append_left _ hc
  have hline : ∀ x ∈ q.ancestors ++ root.defaultsAt q, x <+: q ∨ q <+: x := by
    intro x hx
    rcases List.mem_append.mp hx with hx | hx
    · exact Or.inl (Path.is_below_iff_ne.mp (Path.mem_ancestors.mp hx)).1
    · exact Or.inr (prefix_of_mem_defaults_at hx)
  have hself := List.mem_append_right q.ancestors (self_mem_defaults_at hq)
  rw [startAt, mem_enter_all_regions hwf hsub (Path.nodup_ancestors q), List.mem_append,
    Path.mem_ancestors, or_assoc]
  refine or_congr_right (or_congr_right (exists_congr fun c => ?_))
  rw [Path.mem_ancestors, ← exists_and_left]
  refine exists_congr fun k => and_congr_right fun hc => ?_
  rw [← reaches_line hself hline hc, Bool.not_eq_true]

/-- The defaults of a node below a child, seen from the child. -/
theorem defaults_at_cons {a : Node τ} {cs : List (String × Tree (Node τ))} {k : String}
    {t : Tree (Node τ)} (hk : cs.lookup k = some t) (ks : Path) :
    (Tree.node a cs).defaultsAt (k :: ks) = (t.defaultsAt ks).map (k :: ·) := by
  simp only [defaultsAt, at_cons, hk, Option.bind_some]
  cases t.at? ks <;> simp

/-- The defaults of a child begin with its key. -/
theorem cons_mem_defaults_at {a : Node τ} {cs : List (String × Tree (Node τ))} {k l : String}
    {p : Path} : l :: p ∈ (Tree.node a cs).defaultsAt [k] ↔
      l = k ∧ ∃ s, cs.lookup l = some s ∧ p ∈ s.defaults := by
  cases hk : cs.lookup k with
  | none =>
      have hnone : (Tree.node a cs).at? [k] = none := by simp [at_cons, hk]
      simp only [defaultsAt, hnone, List.not_mem_nil, false_iff, not_and, not_exists]
      rintro rfl s hs
      simp [hk] at hs
  | some s =>
      rw [defaults_at_cons hk]
      simp only [defaultsAt, at_nil, List.nil_append, List.map_id', List.mem_map, List.cons.injEq]
      constructor
      · intro h
        obtain ⟨r, hr, rfl, rfl⟩ := h
        exact ⟨rfl, s, hk, hr⟩
      · intro h
        obtain ⟨rfl, u, hu, hp⟩ := h
        obtain rfl : s = u := Option.some.inj (hk.symm.trans hu)
        exact ⟨p, hp, rfl, rfl⟩

/-- Starting at the root activates its defaults. -/
theorem start_at_nil (hwf : root.WellFormed) {p : Path} :
    p ∈ root.startAt [] ↔ p ∈ root.defaults := by
  rw [mem_start_at hwf (by simp)]
  simp [Path.isBelow, defaultsAt]

/-- Starting below a child: the child is entered on the way, the other children only if the node is
parallel. -/
theorem cons_mem_start_at {a : Node τ} {cs : List (String × Tree (Node τ))}
    (hwf : (Tree.node a cs).WellFormed) {k : String} {t : Tree (Node τ)}
    (hk : cs.lookup k = some t) {ks : Path} (hks : (t.at? ks).isSome) {l : String} {p : Path} :
    l :: p ∈ (Tree.node a cs).startAt (k :: ks) ↔ (l = k ∧ p ∈ t.startAt ks) ∨
      (l ≠ k ∧ a.kind = .parallel ∧ ∃ s, cs.lookup l = some s ∧ p ∈ s.defaults) := by
  have hat : ((Tree.node a cs).at? (k :: ks)).isSome := by simpa [at_cons, hk] using hks
  rw [mem_start_at hwf hat, mem_start_at (hwf.child hk) hks, Path.cons_is_below_cons,
    defaults_at_cons hk]
  constructor
  · intro hmem
    rcases hmem with ⟨rfl, hp⟩ | hp | ⟨c, m, hc, hkind, hoff, hp⟩
    · exact Or.inl ⟨rfl, Or.inl hp⟩
    · obtain ⟨r, hr, heq⟩ := List.mem_map.mp hp
      obtain ⟨rfl, rfl⟩ := List.cons.inj heq
      exact Or.inl ⟨rfl, Or.inr (Or.inl hr)⟩
    · cases c with
      | nil =>
          -- A region of the node itself, beside the child.
          obtain ⟨rfl, s, hs, hp⟩ := cons_mem_defaults_at.mp hp
          refine Or.inr ⟨fun h => hoff ?_, by simpa [kind_nil] using hkind, s, hs, hp⟩
          simp [h]
      | cons j c =>
          -- A region inside the child.
          obtain ⟨rfl, hbelow⟩ := Path.cons_is_below_cons.mp hc
          rw [List.cons_append, defaults_at_cons hk] at hp
          obtain ⟨r, hr, heq⟩ := List.mem_map.mp hp
          obtain ⟨rfl, rfl⟩ := List.cons.inj heq
          refine Or.inl ⟨rfl, Or.inr (Or.inr ⟨c, m, hbelow, ?_, ?_, hr⟩)⟩
          · simpa [kind_cons, hk] using hkind
          · simpa using hoff
  · intro hmem
    rcases hmem with ⟨rfl, hp | hp | ⟨c, m, hc, hkind, hoff, hp⟩⟩ | ⟨hne, hkind, hp⟩
    · exact Or.inl ⟨rfl, hp⟩
    · exact Or.inr (Or.inl (List.mem_map_of_mem hp))
    · refine Or.inr (Or.inr ⟨l :: c, m, Path.cons_is_below_cons.mpr ⟨rfl, hc⟩, ?_, ?_, ?_⟩)
      · simpa [kind_cons, hk] using hkind
      · simpa using hoff
      · rw [List.cons_append, defaults_at_cons hk]
        exact List.mem_map_of_mem hp
    · refine Or.inr (Or.inr ⟨[], l, by simp, by simpa [kind_nil] using hkind, ?_, ?_⟩)
      · simpa using hne
      · exact cons_mem_defaults_at.mpr ⟨rfl, hp⟩

/-- Starting at a node gives a legal configuration. -/
theorem legal_start_at (hwf : root.WellFormed) {q : Path} (hq : (root.at? q).isSome) :
    root.Legal {p | p ∈ root.startAt q} := by
  induction q generalizing root with
  | nil => simpa only [start_at_nil hwf] using legal_defaults hwf
  | cons k ks ih =>
      rcases root with ⟨a, cs⟩
      obtain ⟨t, hk, hks⟩ : ∃ t, cs.lookup k = some t ∧ (t.at? ks).isSome := by
        obtain ⟨s, hs⟩ := Option.isSome_iff_exists.mp hq
        obtain ⟨t, hk, ht⟩ := Option.bind_eq_some_iff.mp (at_cons a cs k ks ▸ hs)
        exact ⟨t, hk, by simp [ht]⟩
      have hmem : ∀ l p, l :: p ∈ (Tree.node a cs).startAt (k :: ks) ↔ _ := fun l p =>
        cons_mem_start_at hwf hk hks
      have hnil : [] ∈ t.startAt ks := (ih (hwf.child hk) hks).root_mem
      refine legal_node ((mem_start_at hwf hq).mpr (Or.inl (by simp))) ?_ ?_ ?_
      · intro l ls hl
        rcases (hmem l ls).mp hl with ⟨rfl, -⟩ | ⟨hne, hkind, s, hs, -⟩
        · refine ⟨t, hk, ?_⟩
          simpa [hmem] using ih (hwf.child hk) hks
        · refine ⟨s, hs, ?_⟩
          simpa [hmem, hne, hkind, hs] using legal_defaults (hwf.child hs)
      · intro hkind
        refine ⟨k, (hmem k []).mpr (Or.inl ⟨rfl, hnil⟩), fun l hl => ?_⟩
        rcases (hmem l []).mp hl with ⟨rfl, -⟩ | ⟨-, hparallel, -⟩
        · rfl
        · exact absurd (hkind.symm.trans hparallel) (by decide)
      · intro hkind l hl
        obtain ⟨s, hs⟩ := Option.isSome_iff_exists.mp hl
        by_cases hlk : l = k
        · exact hlk ▸ (hmem k []).mpr (Or.inl ⟨rfl, hnil⟩)
        · exact (hmem l []).mpr (Or.inr ⟨hlk, hkind, s, hs, nil_mem_defaults s⟩)

/-- A node that a chart is started at becomes active. -/
theorem self_mem_start_at (hwf : root.WellFormed) {q : Path} (hq : (root.at? q).isSome) :
    q ∈ root.startAt q :=
  (mem_start_at hwf hq).mpr (Or.inr (Or.inl (self_mem_defaults_at hq)))

end Statechart.Tree
