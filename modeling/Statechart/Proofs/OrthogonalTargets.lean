import Statechart.Proofs.Legality

/-!
# Several targets

The targets of a transition may lie in different regions of parallel nodes. They are entered one
after the other, and the first one activates the other regions by their defaults, so a later target
adds a second child to a compound node unless it was activated anyway. `legal_iff_activated` says
so; `two_children` is a machine where it happens.
-/

namespace Statechart

namespace Tree

variable {τ : Type} {root : Tree (Node τ)} {p q : Path}

/-- Two nodes are orthogonal when they lie in different regions of a parallel node. -/
def Orthogonal (root : Tree (Node τ)) (p q : Path) : Prop :=
  ∃ n k l, root.kind? n = some .parallel ∧ k ≠ l ∧ n ++ [k] <+: p ∧ n ++ [l] <+: q

/-- Of two orthogonal nodes the second is not above the first. -/
theorem Orthogonal.not_above (h : root.Orthogonal p q) : ¬ q <+: p := by
  obtain ⟨n, k, l, -, hne, hp, hq⟩ := h
  intro hpre
  have hsame : n ++ [k] = n ++ [l] := by
    rcases List.prefix_or_prefix_of_prefix hp (hq.trans hpre) with h | h
    · exact h.eq_of_length (by simp)
    · exact (h.eq_of_length (by simp)).symm
  exact hne (by simpa using hsame)

/-- The root is orthogonal to no node. -/
theorem Orthogonal.ne_nil (h : root.Orthogonal p q) : p ≠ [] ∧ q ≠ [] := by
  obtain ⟨n, k, l, -, -, hp, hq⟩ := h
  constructor
  · intro heq
    simp [heq] at hp
  · intro heq
    simp [heq] at hq

/-- A transition with orthogonal targets is proper when the root is compound. -/
theorem proper_of_orthogonal (hroot : root.kind? [] = some .compound) {t : Transition} {d : Path}
    (hd : root.domain? t = some d) (htargets : t.targets.Pairwise root.Orthogonal) :
    root.Proper t d := by
  have hdomain := domain_of_eq_some hd
  rcases hdomain.covers with hcovers | ⟨-, hmem⟩
  · refine Or.inr ⟨fun hkind => ?_, hcovers⟩
    rcases hdomain.kind with rfl | hnot
    · rw [hroot] at hkind
      cases hkind
    · exact hnot hkind
  · refine Or.inl ?_
    cases htargs : t.targets with
    | nil => exact absurd htargs hdomain.targeted
    | cons q rest =>
        rw [htargs] at hmem htargets
        obtain ⟨hfirst, -⟩ := List.pairwise_cons.mp htargets
        rcases List.mem_cons.mp hmem with rfl | hmem
        · cases rest with
          | nil => rfl
          | cons r rest => exact absurd rfl (hfirst r List.mem_cons_self).ne_nil.1
        · exact absurd rfl (hfirst [] hmem).ne_nil.2

end Tree

namespace Machine

variable {m : Machine} {h : Host} {start : Identity} {state event context : Value} {A : Set Path}
  {active : List Path} {ts : List Transition} {type : String}

/-- Selected transitions activate their targets. -/
theorem target_mem_active_after (hwf : m.WellFormed) (hts : m.root.Chosen type active ts)
    {t : Transition} (ht : t ∈ ts) {q : Path} (hq : q ∈ t.targets) :
    q ∈ m.activeAfter active ts := by
  obtain ⟨d, hd⟩ := Tree.exists_domain m.root hq
  have hknown := known_of_chosen hwf hts ht q hq
  have hentered : q ∈ m.root.entriesOf t := by
    simpa [Tree.entriesOf, hd] using Tree.target_mem_entry_set hwf.root hq hknown
  exact List.mem_append_right _ (List.mem_flatMap.mpr ⟨t, ht, hentered⟩)

/-- What the transitions aim at is part of what they lead to. -/
theorem aim_moves_subset (goal : Transition → Set Path) (hsub : ∀ t, m.root.aim t ⊆ goal t) :
    Tree.spliceAll A (m.root.moves m.root.aim ts) ⊆ Tree.spliceAll A (m.root.moves goal ts) := by
  intro p hp
  rcases hp with ⟨hA, hout⟩ | ⟨x, hx, hpx, hbelow⟩
  · refine Or.inl ⟨hA, fun y hy => ?_⟩
    obtain ⟨t, ht, hd, -⟩ := Tree.mem_moves.mp hy
    exact hout (y.1, m.root.aim t) (Tree.mem_moves.mpr ⟨t, ht, hd, rfl⟩)
  · obtain ⟨t, ht, hd, haim⟩ := Tree.mem_moves.mp hx
    exact Or.inr ⟨(x.1, goal t), Tree.mem_moves.mpr ⟨t, ht, hd, rfl⟩, hsub t (haim ▸ hpx), hbelow⟩

/-- A node below the domain of a selected transition that the moves activate is part of what the
transition aims at. -/
theorem mem_aim_of_moves (hwf : m.WellFormed) (hA : m.root.Complete A)
    (hmem : ∀ p, p ∈ active ↔ p ∈ A) (hts : m.root.Chosen type active ts) {t : Transition}
    (ht : t ∈ ts) {d q : Path} (hd : m.root.domain? t = some d) (hbelow : q.isBelow d = true)
    (hq : q ∈ Tree.spliceAll A (m.root.moves m.root.aim ts)) : q ∈ m.root.aim t := by
  rcases hq with ⟨-, hout⟩ | ⟨x, hx, hqx, hqbelow⟩
  · have hnot := hout (d, m.root.aim t) (Tree.mem_moves.mpr ⟨t, ht, hd, rfl⟩)
    rw [hbelow] at hnot
    cases hnot
  · obtain ⟨u, hu, he, haim⟩ := Tree.mem_moves.mp hx
    by_cases heq : t = u
    · exact heq ▸ haim ▸ hqx
    · have hapart := apart_of_chosen hwf hA hmem hts ht hu (hts.compatible.forall ht hu heq) hd he
      rw [hapart.not_below hbelow] at hqbelow
      cases hqbelow

/-- The configuration after transitions with orthogonal targets is legal exactly when starting at
the first target of each activates the others. -/
theorem legal_active_after_iff (hwf : m.WellFormed) (hA : m.root.Legal A)
    (hmem : ∀ p, p ∈ active ↔ p ∈ A) (hts : m.root.Chosen type active ts)
    (hroot : m.root.kind? [] = some .compound)
    (htargets : ∀ t ∈ ts, t.targets.Pairwise m.root.Orthogonal) :
    m.root.Legal {p | p ∈ m.activeAfter active ts} ↔
      ∀ t ∈ ts, ∀ q ∈ t.targets, q ∈ m.root.startAt (t.targets.headD []) := by
  have hproper : ∀ t ∈ ts, ∀ d, m.root.domain? t = some d → m.root.Proper t d :=
    fun t ht d hd => Tree.proper_of_orthogonal hroot hd (htargets t ht)
  constructor
  · intro hlegal t ht q hq
    -- What the transitions aim at is legal and lies in the configuration, so it is all of it.
    have haim := legal_aim_moves hwf hA hmem hts hproper
    have hsub : Tree.spliceAll A (m.root.moves m.root.aim ts) ⊆
        {p | p ∈ m.activeAfter active ts} := by
      rw [(complete_active_after hwf hA.toComplete hmem hts hproper).1]
      exact aim_moves_subset _ fun t => Set.subset_union_left
    have heq := Tree.Legal.eq_of_subset hwf.root haim.toComplete hlegal hsub
    have hactive : q ∈ {p | p ∈ m.activeAfter active ts} :=
      target_mem_active_after hwf hts ht hq
    obtain ⟨d, hd⟩ := Tree.exists_domain m.root hq
    rcases hproper t ht d hd with hnil | ⟨-, hbelow⟩
    · rw [hnil] at hq ⊢
      rw [List.mem_singleton.mp hq]
      exact Tree.self_mem_start_at hwf.root (by simp)
    · exact mem_aim_of_moves hwf hA.toComplete hmem hts ht hd (hbelow q hq) (heq ▸ hactive)
  · intro hactivated
    refine legal_active_after hwf hA hmem hts hproper fun t ht d hd => ?_
    obtain ⟨q, rest, hcons⟩ := List.exists_cons_of_ne_nil (Tree.domain_of_eq_some hd).targeted
    have hq := known_of_chosen hwf hts ht q (by simp [hcons])
    refine Tree.goal_eq_aim hwf.root hd (hproper t ht d hd) hcons hq fun r hr => ⟨?_, ?_⟩
    · simpa [hcons] using hactivated t ht r (by simp [hcons, hr])
    · have hpairwise := htargets t ht
      rw [hcons] at hpairwise
      exact ((List.pairwise_cons.mp hpairwise).1 r hr).not_above

/-- Transitions with orthogonal targets lead to an answer in which all targets are active. It is
legal exactly when starting at the first target of each transition activates the others. -/
theorem legal_iff_activated {config : Value} (hconfig : config.wellFormed = true)
    (hm : define config = .ok m) (hroot : m.root.kind? [] = some .compound)
    (hA : m.root.Legal A) (hstate : m.Denotes A state) (hinit : Event.isInit event = false)
    (hts : m.selected h start state event context = .ok (active, ts))
    (htargets : ∀ t ∈ ts, t.targets.Pairwise m.root.Orthogonal) :
    ∃ s B, m.transition h start state event context = .ok s ∧ m.Denotes B s ∧
      (∀ t ∈ ts, ∀ q ∈ t.targets, q ∈ B) ∧
      (m.root.Legal B ↔ ∀ t ∈ ts, ∀ q ∈ t.targets, q ∈ m.root.startAt (t.targets.headD [])) := by
  have hwf := well_formed_of_define hconfig hm
  obtain ⟨hmem, type, hchosen⟩ := of_selected hwf hA.toComplete hstate hts
  obtain ⟨-, hcomplete⟩ := complete_active_after hwf hA.toComplete hmem hchosen
    fun t ht d hd => Tree.proper_of_orthogonal hroot hd (htargets t ht)
  obtain ⟨s, hs, hdenotes⟩ := denotes_of_complete hwf hcomplete
    (m.actionsOf active ts) !ts.isEmpty
  refine ⟨s, _, by rw [transition_eq hinit, hts, ok_bind, hs], hdenotes, fun t ht q hq => ?_,
    legal_active_after_iff hwf hA hmem hchosen hroot htargets⟩
  exact target_mem_active_after hwf hchosen ht hq

/-! ## Two active children -/

/-- The configuration of a job with two workers, which starts with both of them busy. -/
def jobConfig : Value :=
  let worker : Value := .table
    [("initial", .text "free"), ("states", .table [("free", .table []), ("busy", .table [])])]
  let targets : Value := .newList [.text "work.left.busy", .text "work.right.busy"]
  .table
    [("id", .text "job"), ("initial", .text "idle"),
      ("states", .table
        [("idle", .table [("on", .table [("GO", .table [("target", targets)])])]),
          ("work", .table
            [("type", .text "parallel"),
              ("states", .table [("left", worker), ("right", worker)])])])]

/-- The workers are in different regions, and starting at one of them does not make the other
busy, but the event that names both activates both children of the second. -/
theorem job_go : ∃ m s active ts, define jobConfig = .ok m ∧
    m.root.kind? [] = some .compound ∧ m.root.kind? ["work"] = some .parallel ∧
    m.root.kind? ["work", "right"] = some .compound ∧ m.initialState = .ok s ∧
    m.selected Examples.host ⟨1, 0, 0⟩ s (.text "GO") .null = .ok (active, ts) ∧
    ts.map Transition.targets = [[["work", "left", "busy"], ["work", "right", "busy"]]] ∧
    ["work", "right", "busy"] ∉ m.root.startAt ["work", "left", "busy"] ∧
    ∃ s', m.transition Examples.host ⟨1, 0, 0⟩ s (.text "GO") .null = .ok s' ∧
      isActive s' "work.right.free" = true ∧ isActive s' "work.right.busy" = true := by
  obtain ⟨m, hm, hcheck⟩ := exists_of_any (x := define jobConfig) (P := fun m =>
      m.root.kind? [] == some .compound && m.root.kind? ["work"] == some .parallel &&
        m.root.kind? ["work", "right"] == some .compound &&
        !(m.root.startAt ["work", "left", "busy"]).contains ["work", "right", "busy"] &&
        m.initialState.toOption.any fun s =>
          (m.selected Examples.host ⟨1, 0, 0⟩ s (.text "GO") .null).toOption.any (fun x =>
            x.2.map Transition.targets ==
              [[["work", "left", "busy"], ["work", "right", "busy"]]]) &&
          (m.transition Examples.host ⟨1, 0, 0⟩ s (.text "GO") .null).toOption.any fun s' =>
            isActive s' "work.right.free" && isActive s' "work.right.busy")
    (by decide +kernel)
  simp only [Bool.and_eq_true, beq_iff_eq, Bool.not_eq_true', List.contains_eq_mem,
    decide_eq_false_iff_not] at hcheck
  obtain ⟨⟨⟨⟨hroot, hwork⟩, hright⟩, hstart⟩, hcheck⟩ := hcheck
  obtain ⟨s, hs, hcheck⟩ := exists_of_any hcheck
  rw [Bool.and_eq_true] at hcheck
  obtain ⟨⟨active, ts⟩, hts, htargets⟩ := exists_of_any hcheck.1
  obtain ⟨s', hs', hboth⟩ := exists_of_any hcheck.2
  rw [Bool.and_eq_true] at hboth
  exact ⟨m, s, active, ts, hm, hroot, hwork, hright, hs, hts, by simpa using htargets, hstart, s',
    hs', hboth⟩

/-- The answer to the event of the job has both targets, but it is not legal. -/
theorem job_go_not_legal : ∃ m s s' B, define jobConfig = .ok m ∧
    m.root.kind? [] = some .compound ∧ m.initialState = .ok s ∧ m.LegalState s ∧
    m.transition Examples.host ⟨1, 0, 0⟩ s (.text "GO") .null = .ok s' ∧ m.Denotes B s' ∧
    ["work", "left", "busy"] ∈ B ∧ ["work", "right", "busy"] ∈ B ∧ ¬ m.root.Legal B := by
  obtain ⟨m, s, active, ts, hm, hroot, hwork, -, hs, hts, htargets, hstart, -⟩ := job_go
  have hconfig : jobConfig.wellFormed = true := by decide +kernel
  have hwf := well_formed_of_define hconfig hm
  obtain ⟨t, rfl, htarget⟩ := List.map_eq_singleton_iff.mp htargets
  have hlegal := Tree.legal_defaults hwf.root
  have hdenotes := denotes_of_initial hwf hs
  obtain ⟨s', B, hs', hB, hmem, hiff⟩ := legal_iff_activated hconfig hm hroot hlegal hdenotes rfl
    hts (by simpa [htarget] using ⟨["work"], "left", "right", hwork, by decide, by decide, by decide⟩)
  have hall : ∀ q ∈ t.targets, q ∈ B := hmem t List.mem_cons_self
  refine ⟨m, s, s', B, hm, hroot, hs, ⟨_, hlegal, hdenotes⟩, hs', hB, hall _ (by simp [htarget]),
    hall _ (by simp [htarget]), fun hBlegal => hstart ?_⟩
  simpa [htarget] using hiff.mp hBlegal t List.mem_cons_self _ (by simp [htarget] : _ ∈ t.targets)

/-- Two targets in different regions of a parallel node lead to an answer that denotes no legal
configuration, since both children of a compound node are active in it. -/
theorem two_children : ∃ m s active t s', define jobConfig = .ok m ∧
    m.root.kind? [] = some .compound ∧ m.initialState = .ok s ∧ m.LegalState s ∧
    m.selected Examples.host ⟨1, 0, 0⟩ s (.text "GO") .null = .ok (active, [t]) ∧
    t.targets.Pairwise m.root.Orthogonal ∧
    m.transition Examples.host ⟨1, 0, 0⟩ s (.text "GO") .null = .ok s' ∧ ¬ m.LegalState s' := by
  obtain ⟨m, s, active, ts, hm, hroot, hwork, hright, hs, hts, htargets, -, s', hs', hfree,
    hbusy⟩ := job_go
  have hwf := well_formed_of_define (by decide +kernel) hm
  obtain ⟨t, rfl, htarget⟩ := List.map_eq_singleton_iff.mp htargets
  refine ⟨m, s, active, t, s', hm, hroot, hs, legal_initial hwf hs, hts, ?_, hs', ?_⟩
  · simpa [htarget] using ⟨["work"], "left", "right", hwork, by decide, by decide, by decide⟩
  · intro h
    obtain ⟨B, hB, hdenotesB⟩ := h
    have hfreeB : ["work", "right"] ++ ["free"] ∈ B :=
      mem_of_is_active hwf hB.known hdenotesB hfree
    have hbusyB : ["work", "right"] ++ ["busy"] ∈ B :=
      mem_of_is_active hwf hB.known hdenotesB hbusy
    have hsame := hB.unique _ (hB.parent _ _ hfreeB) hright "free" "busy" hfreeB hbusyB
    exact absurd hsame (by decide)

end Machine

end Statechart
