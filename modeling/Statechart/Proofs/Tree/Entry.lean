import Statechart.Proofs.Tree.Completion

/-!
# Entry sets

What a transition enters below its domain. `mem_entry_set_below` says that one target activates what
starting at it activates there; `complete_entry_set` that several targets leave no node below the
domain without enough active children, and `entry_set_eq_of_mem` that targets which the first one
activates anyway change nothing.
-/

namespace Statechart.Tree

variable {τ : Type} {root : Tree (Node τ)}

/-- What is active before the regions beside the way to a target are looked at. -/
def onTheWay (root : Tree (Node τ)) (d : Path) (entered : List Path) (q : Path) : List Path :=
  entered ++ root.defaultsAt q ++ q.ancestors.filter fun p => p.isBelow d

theorem mem_on_the_way {d p q : Path} {entered : List Path} :
    p ∈ root.onTheWay d entered q ↔ p ∈ entered ∨ p ∈ root.defaultsAt q ∨
      (q.isBelow p = true ∧ p.isBelow d = true) := by
  simp [onTheWay, Path.mem_ancestors]

/-- Adding a target adds what is on the way to it, its defaults, and the defaults of the regions
beside the way that nothing reaches. -/
theorem mem_enter_target (hwf : root.WellFormed) {d p q : Path} {entered : List Path} :
    p ∈ root.enterTarget d entered q ↔ p ∈ root.onTheWay d entered q ∨
      ∃ c k, q.isBelow c = true ∧ c.isBelow d = true ∧ root.kind? c = some .parallel ∧
        reaches (root.onTheWay d entered q) (c ++ [k]) = false ∧
        p ∈ root.defaultsAt (c ++ [k]) := by
  have hsub : ∀ c ∈ q.ancestors.filter (fun p => p.isBelow d), c ∈ root.onTheWay d entered q :=
    fun c hc => List.mem_append_right _ hc
  have hnodup := (Path.nodup_ancestors q).filter fun p => p.isBelow d
  rw [enterTarget, ← onTheWay, mem_enter_all_regions hwf hsub hnodup]
  simp only [List.mem_filter, Path.mem_ancestors, ← exists_and_left, and_assoc]

/-- A target adds to what is entered. -/
theorem subset_enter_target (hwf : root.WellFormed) {d p q : Path} {entered : List Path}
    (hp : p ∈ entered) : p ∈ root.enterTarget d entered q :=
  (mem_enter_target hwf).mpr (Or.inl (mem_on_the_way.mpr (Or.inl hp)))

/-- A target is entered. -/
theorem self_mem_enter_target (hwf : root.WellFormed) {d q : Path} {entered : List Path}
    (hq : (root.at? q).isSome) : q ∈ root.enterTarget d entered q :=
  (mem_enter_target hwf).mpr
    (Or.inl (mem_on_the_way.mpr (Or.inr (Or.inl (self_mem_defaults_at hq)))))

/-- A node that is entered for a target was entered before, is on the way, or is a default of the
target or of a region beside the way, all of whose defaults are entered. -/
theorem cases_of_mem_enter_target (hwf : root.WellFormed) {d p q : Path} {entered : List Path}
    (hp : p ∈ root.enterTarget d entered q) :
    p ∈ entered ∨ (q.isBelow p = true ∧ p.isBelow d = true) ∨
      ∃ x, (∀ r ∈ root.defaultsAt x, r ∈ root.enterTarget d entered q) ∧ p ∈ root.defaultsAt x ∧
        (x = q ∨ ∃ c k, x = c ++ [k] ∧ q.isBelow c = true ∧ c.isBelow d = true) := by
  rcases (mem_enter_target hwf).mp hp with hway | ⟨c, k, hcq, hcd, hkind, hoff, hdefault⟩
  · rcases mem_on_the_way.mp hway with hentered | hdefault | habove
    · exact Or.inl hentered
    · refine Or.inr (Or.inr ⟨q, fun r hr => ?_, hdefault, Or.inl rfl⟩)
      exact (mem_enter_target hwf).mpr (Or.inl (mem_on_the_way.mpr (Or.inr (Or.inl hr))))
    · exact Or.inr (Or.inl habove)
  · refine Or.inr (Or.inr ⟨c ++ [k], fun r hr => ?_, hdefault, Or.inr ⟨c, k, rfl, hcq, hcd⟩⟩)
    exact (mem_enter_target hwf).mpr (Or.inr ⟨c, k, hcq, hcd, hkind, hoff, hr⟩)

theorem subset_fold_targets (hwf : root.WellFormed) {d p : Path} (targets : List Path)
    {entered : List Path} (hp : p ∈ entered) :
    p ∈ targets.foldl (root.enterTarget d) entered := by
  induction targets generalizing entered with
  | nil => exact hp
  | cons q targets ih => exact ih (subset_enter_target hwf hp)

/-- Every target is entered. -/
theorem target_mem_entry_set (hwf : root.WellFormed) {d q : Path} {targets : List Path}
    (hq : q ∈ targets) (hknown : (root.at? q).isSome) : q ∈ root.entrySet d targets := by
  obtain ⟨before, after, rfl⟩ := List.append_of_mem hq
  rw [entrySet, List.foldl_append, List.foldl_cons]
  exact subset_fold_targets hwf after (self_mem_enter_target hwf hknown)

/-- What the first target activates stays. -/
theorem subset_entry_set_cons (hwf : root.WellFormed) {d p q : Path} {targets : List Path}
    (hp : p ∈ root.entrySet d [q]) : p ∈ root.entrySet d (q :: targets) :=
  subset_fold_targets hwf targets hp

/-! ## One target -/

/-- Below its domain, a single target activates what starting at it activates in the same child. -/
theorem mem_entry_set_singleton (hwf : root.WellFormed) {d p : Path} {k : String} {ks : Path}
    (hq : (root.at? (d ++ k :: ks)).isSome) :
    p ∈ root.entrySet d [d ++ k :: ks] ↔ d ++ [k] <+: p ∧ p ∈ root.startAt (d ++ k :: ks) := by
  have hstep : d ++ [k] <+: d ++ k :: ks := by simp
  have hself : d ++ k :: ks ∈ root.onTheWay d [] (d ++ k :: ks) :=
    mem_on_the_way.mpr (Or.inr (Or.inl (self_mem_defaults_at hq)))
  have hline : ∀ x ∈ root.onTheWay d [] (d ++ k :: ks),
      x <+: d ++ k :: ks ∨ d ++ k :: ks <+: x := by
    intro x hx
    rcases mem_on_the_way.mp hx with hx | hx | ⟨hx, -⟩
    · simp at hx
    · exact Or.inr (prefix_of_mem_defaults_at hx)
    · exact Or.inl (Path.is_below_iff_ne.mp hx).1
  have hreach : ∀ {c : Path} {l : String}, (d ++ k :: ks).isBelow c = true →
      (reaches (root.onTheWay d [] (d ++ k :: ks)) (c ++ [l]) = false ↔
        ¬ c ++ [l] <+: d ++ k :: ks) := fun hc => by
    rw [← reaches_line hself hline hc, Bool.not_eq_true]
  change p ∈ root.enterTarget d [] (d ++ k :: ks) ↔ _
  rw [mem_enter_target hwf, mem_on_the_way, mem_start_at hwf hq]
  constructor
  · intro hmem
    rcases hmem with (hp | hp | ⟨hp, hd⟩) | ⟨c, l, hc, hd, hkind, hoff, hp⟩
    · simp at hp
    · exact ⟨hstep.trans (prefix_of_mem_defaults_at hp), Or.inr (Or.inl hp)⟩
    · exact ⟨Path.first_step hstep (Path.is_below_iff_ne.mp hp).1 hd, Or.inl hp⟩
    · refine ⟨?_, Or.inr (Or.inr ⟨c, l, hc, hkind, (hreach hc).mp hoff, hp⟩)⟩
      exact (Path.first_step hstep (Path.is_below_iff_ne.mp hc).1 hd).trans
        ((List.prefix_append c [l]).trans (prefix_of_mem_defaults_at hp))
  · intro hmem
    rcases hmem with ⟨hpre, hp | hp | ⟨c, l, hc, hkind, hoff, hp⟩⟩
    · exact Or.inl (Or.inr (Or.inr ⟨hp, Path.is_below_of_step hpre⟩))
    · exact Or.inl (Or.inr (Or.inl hp))
    · refine Or.inr ⟨c, l, hc, ?_, hkind, (hreach hc).mpr hoff, hp⟩
      -- The region lies beside the way to the target, so its parent is below the domain.
      rcases List.prefix_or_prefix_of_prefix hpre (prefix_of_mem_defaults_at hp) with h | h
      · rcases List.prefix_concat_iff.mp h with h | h
        · exact absurd (h ▸ hstep) hoff
        · exact Path.is_below_of_step h
      · exact absurd (h.trans hstep) hoff

/-- Below a domain that is not parallel, a single target activates what starting at it activates. -/
theorem mem_entry_set_below (hwf : root.WellFormed) {d p q : Path}
    (hd : root.kind? d ≠ some .parallel) (hq : (root.at? q).isSome) (hbelow : q.isBelow d = true) :
    p ∈ root.entrySet d [q] ↔ p ∈ root.startAt q ∧ p.isBelow d = true := by
  obtain ⟨k, ks, rfl⟩ := Path.is_below_iff.mp hbelow
  rw [mem_entry_set_singleton hwf hq]
  refine ⟨fun h => ⟨h.2, Path.is_below_of_step h.1⟩, fun h => ⟨?_, h.1⟩⟩
  obtain ⟨hp, hpd⟩ := h
  obtain ⟨l, ls, rfl⟩ := Path.is_below_iff.mp hpd
  have hlegal := legal_start_at hwf hq
  have hk : d ++ [k] ∈ root.startAt (d ++ k :: ks) :=
    hlegal.prefix_mem (self_mem_start_at hwf hq) (by simp)
  have hl : d ++ [l] ∈ root.startAt (d ++ k :: ks) := hlegal.prefix_mem hp (by simp)
  have hkind : root.kind? d = some .compound := by
    obtain ⟨s, hs⟩ := Option.isSome_iff_exists.mp (at_isSome_above hq (List.prefix_append d _))
    have hknown := hlegal.known _ hk
    cases h : root.kind? d with
    | none => simp [kind?, get?, hs] at h
    | some kind =>
        cases kind with
        | atomic => exact absurd h (hwf.not_atomic hknown)
        | compound => rfl
        | parallel => exact absurd h hd
  obtain rfl := hlegal.unique d (hlegal.parent d k hk) hkind k l hk hl
  simp

/-! ## Several targets -/

/-- What lies above a node that is on the way to a target below the domain is there already or on
the way too. -/
theorem above_mem_on_the_way {C : Set Path} (hC : root.Complete C) (hwf : root.WellFormed)
    {d q x y : Path} {entered : List Path} (hd : d ∈ C) (hsub : ∀ p ∈ entered, p ∈ C)
    (hq : q.isBelow d = true) (hx : x ∈ root.onTheWay d entered q) (hy : y <+: x) :
    y ∈ C ∨ y ∈ root.onTheWay d entered q := by
  have habove : ∀ z, q.isBelow z = true → z ∈ C ∨ z ∈ root.onTheWay d entered q := by
    intro z hz
    by_cases hzd : z.isBelow d = true
    · exact Or.inr (mem_on_the_way.mpr (Or.inr (Or.inr ⟨hz, hzd⟩)))
    · refine Or.inl (hC.prefix_mem hd ?_)
      have hdq := (Path.is_below_iff_ne.mp hq).1
      rcases List.prefix_or_prefix_of_prefix (Path.is_below_iff_ne.mp hz).1 hdq with h | h
      · exact h
      · by_cases heq : d = z
        · exact heq ▸ List.prefix_refl d
        · exact absurd (Path.is_below_of_ne h heq) hzd
  rcases mem_on_the_way.mp hx with hx | hx | ⟨hx, -⟩
  · exact Or.inl (hC.prefix_mem (hsub x hx) hy)
  · rcases above_mem_defaults_at hwf hx hy with h | h
    · exact Or.inr (mem_on_the_way.mpr (Or.inr (Or.inl h)))
    · exact habove y h
  · by_cases heq : y = q
    · exact absurd (hy.eq_of_length_le (heq ▸ (Path.is_below_iff_ne.mp hx).1.length_le))
        (fun h => (Path.is_below_iff_ne.mp hx).2 (h.symm.trans heq))
    · exact habove y (Path.is_below_of_ne (hy.trans (Path.is_below_iff_ne.mp hx).1) heq)

/-- Adding a target below a node of a complete set keeps the set complete. -/
theorem Complete.enter_target {C : Set Path} (hC : root.Complete C) (hwf : root.WellFormed)
    {d q : Path} {entered : List Path} (hd : d ∈ C) (hsub : ∀ p ∈ entered, p ∈ C)
    (hq : (root.at? q).isSome) (hbelow : q.isBelow d = true) :
    root.Complete (C ∪ {p | p ∈ root.enterTarget d entered q}) := by
  have hway : ∀ {p}, p ∈ root.onTheWay d entered q → p ∈ root.enterTarget d entered q :=
    fun hp => (mem_enter_target hwf).mpr (Or.inl hp)
  have hself : q ∈ root.onTheWay d entered q :=
    mem_on_the_way.mpr (Or.inr (Or.inl (self_mem_defaults_at hq)))
  have habove : ∀ {x y}, x ∈ root.onTheWay d entered q → y <+: x →
      y ∈ C ∪ {p | p ∈ root.enterTarget d entered q} := fun hx hy =>
    (above_mem_on_the_way hC hwf hd hsub hbelow hx hy).imp id hway
  have hcases : ∀ {p}, p ∈ C ∪ {p | p ∈ root.enterTarget d entered q} → p ∈ C ∨
      (q.isBelow p = true ∧ p.isBelow d = true) ∨
      ∃ x, (∀ r ∈ root.defaultsAt x, r ∈ root.enterTarget d entered q) ∧ p ∈ root.defaultsAt x ∧
        (x = q ∨ ∃ c k, x = c ++ [k] ∧ q.isBelow c = true ∧ c.isBelow d = true) := by
    intro p hp
    rcases hp with hp | hp
    · exact Or.inl hp
    · exact (cases_of_mem_enter_target hwf hp).imp_left (hsub p)
  constructor
  case known =>
    intro p hp
    rcases hcases hp with hp | ⟨hp, -⟩ | ⟨x, -, hp, -⟩
    · exact hC.known p hp
    · exact at_isSome_above hq (Path.is_below_iff_ne.mp hp).1
    · exact known_of_mem_defaults_at hwf hp
  case root_mem => exact Or.inl hC.root_mem
  case parent =>
    intro p k hp
    rcases hcases hp with hp | ⟨hp, -⟩ | ⟨x, hx, hp, hplace⟩
    · exact Or.inl (hC.parent p k hp)
    · exact habove hself ((List.prefix_append p [k]).trans (Path.is_below_iff_ne.mp hp).1)
    · rcases parent_mem_defaults_at hwf hp with rfl | hparent
      · rcases hplace with heq | ⟨c, l, heq, hcq, hcd⟩
        · exact habove hself (heq ▸ List.prefix_append p [k])
        · obtain ⟨rfl, -⟩ := List.append_inj' heq rfl
          exact habove hself (Path.is_below_iff_ne.mp hcq).1
      · exact Or.inr (hx _ hparent)
  case compound =>
    intro p hp hkind
    rcases hcases hp with hp | ⟨hp, -⟩ | ⟨x, hx, hp, -⟩
    · obtain ⟨k, hk⟩ := hC.compound p hp hkind
      exact ⟨k, Or.inl hk⟩
    · obtain ⟨k, ks, rfl⟩ := Path.is_below_iff.mp hp
      exact ⟨k, habove hself (by simp)⟩
    · obtain ⟨k, hk⟩ := compound_mem_defaults_at hwf hp hkind
      exact ⟨k, Or.inr (hx _ hk)⟩
  case parallel =>
    intro p hp hkind k hk
    rcases hcases hp with hp | ⟨hpq, hpd⟩ | ⟨x, hx, hp, -⟩
    · exact Or.inl (hC.parallel p hp hkind k hk)
    · cases hreach : reaches (root.onTheWay d entered q) (p ++ [k]) with
      | true =>
          obtain ⟨x, hx, hpre⟩ := reaches_iff.mp hreach
          exact habove hx hpre
      | false => exact Or.inr ((mem_enter_target hwf).mpr
          (Or.inr ⟨p, k, hpq, hpd, hkind, hreach, self_mem_defaults_at hk⟩))
    · exact Or.inr (hx _ (parallel_mem_defaults_at hwf hp hkind hk))

/-- What is entered for a target lies below the domain. -/
theorem below_of_mem_enter_target (hwf : root.WellFormed) {d p q : Path} {entered : List Path}
    (hentered : ∀ x ∈ entered, x.isBelow d = true) (hq : q.isBelow d = true)
    (hp : p ∈ root.enterTarget d entered q) : p.isBelow d = true := by
  rcases cases_of_mem_enter_target hwf hp with hp | ⟨-, hpd⟩ | ⟨x, -, hp, hplace⟩
  · exact hentered p hp
  · exact hpd
  · have hpre := prefix_of_mem_defaults_at hp
    rcases hplace with rfl | ⟨c, k, rfl, -, hcd⟩
    · exact Path.is_below_mono hq hpre
    · exact Path.is_below_mono hcd ((List.prefix_append c [k]).trans hpre)

/-- What is entered for targets lies below the domain. -/
theorem below_of_mem_fold_targets (hwf : root.WellFormed) {d p : Path} {targets entered : List Path}
    (hentered : ∀ x ∈ entered, x.isBelow d = true) (htargets : ∀ q ∈ targets, q.isBelow d = true)
    (hp : p ∈ targets.foldl (root.enterTarget d) entered) : p.isBelow d = true := by
  induction targets generalizing entered with
  | nil => exact hentered p hp
  | cons q targets ih =>
      obtain ⟨hq, htargets⟩ := List.forall_mem_cons.mp htargets
      exact ih (fun x hx => below_of_mem_enter_target hwf hentered hq hx) htargets hp

/-- What is entered for targets are nodes. -/
theorem known_of_mem_fold_targets (hwf : root.WellFormed) {d p : Path} {targets entered : List Path}
    (hentered : ∀ x ∈ entered, (root.at? x).isSome)
    (htargets : ∀ q ∈ targets, (root.at? q).isSome)
    (hp : p ∈ targets.foldl (root.enterTarget d) entered) : (root.at? p).isSome := by
  induction targets generalizing entered with
  | nil => exact hentered p hp
  | cons q targets ih =>
      obtain ⟨hq, htargets⟩ := List.forall_mem_cons.mp htargets
      refine ih (fun x hx => ?_) htargets hp
      rcases cases_of_mem_enter_target hwf hx with hx | ⟨hx, -⟩ | ⟨y, -, hx, -⟩
      · exact hentered x hx
      · exact at_isSome_above hq (Path.is_below_iff_ne.mp hx).1
      · exact known_of_mem_defaults_at hwf hx

/-- Adding targets below a node of a complete set keeps the set complete, and all that is entered
lies below the node. -/
theorem Complete.fold_targets {C : Set Path} (hwf : root.WellFormed) {d : Path} (hd : d ∈ C)
    {targets : List Path} (htargets : ∀ q ∈ targets, (root.at? q).isSome ∧ q.isBelow d = true)
    {entered : List Path} (hC : root.Complete (C ∪ {p | p ∈ entered}))
    (hentered : ∀ p ∈ entered, p.isBelow d = true) :
    root.Complete (C ∪ {p | p ∈ targets.foldl (root.enterTarget d) entered}) ∧
      ∀ p ∈ targets.foldl (root.enterTarget d) entered, p.isBelow d = true := by
  induction targets generalizing entered with
  | nil => exact ⟨hC, hentered⟩
  | cons q targets ih =>
      obtain ⟨hq, hbelow⟩ := htargets q (by simp)
      have hgrow : C ∪ {p | p ∈ entered} ∪ {p | p ∈ root.enterTarget d entered q} =
          C ∪ {p | p ∈ root.enterTarget d entered q} := by
        rw [Set.union_assoc]
        congr 1
        exact Set.union_eq_self_of_subset_left fun p hp => subset_enter_target hwf hp
      have hstep := hC.enter_target hwf (Or.inl hd) (fun p hp => Or.inr hp) hq hbelow
      exact ih (fun r hr => htargets r (by simp [hr])) (hgrow ▸ hstep)
        fun p hp => below_of_mem_enter_target hwf hentered hbelow hp

/-- Starting at the first of several targets and entering them all gives a complete set, and all
that is entered lies below the domain. -/
theorem complete_entry_set (hwf : root.WellFormed) {d q : Path} {targets : List Path}
    (htargets : ∀ r ∈ q :: targets, (root.at? r).isSome ∧ r.isBelow d = true) :
    root.Complete ({p | p ∈ root.startAt q} ∪ {p | p ∈ root.entrySet d (q :: targets)}) ∧
      ∀ p ∈ root.entrySet d (q :: targets), p.isBelow d = true := by
  obtain ⟨hq, hbelow⟩ := htargets q List.mem_cons_self
  have hstart := legal_start_at hwf hq
  have hd : d ∈ {p | p ∈ root.startAt q} :=
    hstart.prefix_mem (self_mem_start_at hwf hq) (Path.is_below_iff_ne.mp hbelow).1
  have hempty : root.Complete ({p | p ∈ root.startAt q} ∪ {p | p ∈ ([] : List Path)}) := by
    simpa using hstart.toComplete
  exact hempty.fold_targets hwf hd htargets (by simp)

/-! ## Targets that are entered anyway -/

/-- The defaults of a node that starting at another activates are activated too, unless the node is
on the way to the other. -/
theorem defaults_at_subset_start_at (hwf : root.WellFormed) {p q r : Path}
    (hq : (root.at? q).isSome) (hr : r ∈ root.startAt q) (hoff : ¬ r <+: q)
    (hp : p ∈ root.defaultsAt r) : p ∈ root.startAt q := by
  rcases (mem_start_at hwf hq).mp hr with h | h | ⟨c, k, hcq, hkind, hcoff, h⟩
  · exact absurd (Path.is_below_iff_ne.mp h).1 hoff
  · exact (mem_start_at hwf hq).mpr (Or.inr (Or.inl (defaults_at_trans hwf h hp)))
  · exact (mem_start_at hwf hq).mpr
      (Or.inr (Or.inr ⟨c, k, hcq, hkind, hcoff, defaults_at_trans hwf h hp⟩))

/-- A target that starting at another activates anyway adds nothing to what is entered for the
other. -/
theorem enter_target_of_mem (hwf : root.WellFormed) {d q r : Path} {entered : List Path}
    (hq : (root.at? q).isSome)
    (hentered : ∀ p, p ∈ entered ↔ p ∈ root.startAt q ∧ p.isBelow d = true)
    (hr : r ∈ root.startAt q) (hoff : ¬ r <+: q) (hbelow : r.isBelow d = true) (p : Path) :
    p ∈ root.enterTarget d entered r ↔ p ∈ root.startAt q ∧ p.isBelow d = true := by
  have hlegal := legal_start_at hwf hq
  refine ⟨fun hp => ⟨?_, ?_⟩, fun hp => subset_enter_target hwf ((hentered p).mpr hp)⟩
  · rcases (mem_enter_target hwf).mp hp with hp | ⟨c, k, hcr, hcd, hkind, hreach, hp⟩
    · rcases mem_on_the_way.mp hp with hp | hp | ⟨hp, -⟩
      · exact ((hentered p).mp hp).1
      · exact defaults_at_subset_start_at hwf hq hr hoff hp
      · exact hlegal.prefix_mem hr (Path.is_below_iff_ne.mp hp).1
    · -- All regions of a parallel node on the way are active already.
      have hc : c ∈ {p | p ∈ root.startAt q} :=
        hlegal.prefix_mem hr (Path.is_below_iff_ne.mp hcr).1
      have hck := at_isSome_above (known_of_mem_defaults_at hwf hp) (prefix_of_mem_defaults_at hp)
      have hmem := hlegal.parallel c hc hkind k hck
      have hin : c ++ [k] ∈ entered := (hentered _).mpr
        ⟨hmem, Path.is_below_concat.mpr (Path.is_below_iff_ne.mp hcd).1⟩
      exact absurd (List.prefix_refl _)
        (reaches_eq_false_iff.mp hreach _ (mem_on_the_way.mpr (Or.inl hin)))
  · exact below_of_mem_enter_target hwf (fun x hx => ((hentered x).mp hx).2) hbelow hp

/-- Further targets that the first one activates anyway change nothing. -/
theorem entry_set_eq_of_mem (hwf : root.WellFormed) {d q : Path} {targets : List Path}
    (hd : root.kind? d ≠ some .parallel) (hq : (root.at? q).isSome) (hqd : q.isBelow d = true)
    (htargets : ∀ r ∈ targets, r ∈ root.startAt q ∧ ¬ r <+: q ∧ r.isBelow d = true) (p : Path) :
    p ∈ root.entrySet d (q :: targets) ↔ p ∈ root.startAt q ∧ p.isBelow d = true := by
  suffices ∀ entered, (∀ p, p ∈ entered ↔ p ∈ root.startAt q ∧ p.isBelow d = true) →
      (p ∈ targets.foldl (root.enterTarget d) entered ↔
        p ∈ root.startAt q ∧ p.isBelow d = true) from
    this _ fun p => mem_entry_set_below hwf hd hq hqd
  induction targets with
  | nil => exact fun entered hentered => hentered p
  | cons r targets ih =>
      intro entered hentered
      obtain ⟨hr, hoff, hbelow⟩ := htargets r (by simp)
      exact ih (fun s hs => htargets s (by simp [hs])) _
        (enter_target_of_mem hwf hq hentered hr hoff hbelow)

end Statechart.Tree
