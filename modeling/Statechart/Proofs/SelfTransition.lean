import Statechart.Proofs.ActionOrder
import Statechart.Proofs.Revealed
import Statechart.Proofs.RootRegions

/-!
# Self transitions

A transition that leads back to its source exits the source and enters it again, wherever the source
is, and leaves it with its default descendants. Read `self_transition_external` first. It has two
exceptions. The root is entered again without being exited: `root_not_exited`. And below a parallel
root only the region of the source is entered, so that there is an answer only when no node of the
other regions needs an active child, which is what `FlatBeside` says.
-/

namespace Statechart

namespace Tree

variable {τ : Type} {root : Tree (Node τ)}

/-! ## What a node shows when nothing is active -/

section

variable {a : Node τ} {cs : List (String × Tree (Node τ))} {active : List Path}

/-- No node is compound. -/
def Flat (t : Tree (Node τ)) : Prop :=
  ∀ p, t.kind? p ≠ some .compound

/-- A node is flat when it is not compound and its children are flat. -/
theorem flat_node_iff (hwf : (Tree.node a cs).WellFormed) :
    (Tree.node a cs).Flat ↔ a.kind ≠ .compound ∧ ∀ c ∈ cs, c.2.Flat := by
  constructor
  · refine fun h => ⟨by simpa [kind_nil] using h [], fun c hc p => ?_⟩
    simpa [kind_cons, hwf.lookup.mpr hc] using h (c.1 :: p)
  · intro h p
    cases p with
    | nil => simpa [kind_nil] using h.1
    | cons k p =>
        cases hk : cs.lookup k with
        | none => simp [kind_cons, hk]
        | some t => simpa [kind_cons, hk] using h.2 _ (hwf.lookup.mp hk) p

/-- Whether a node can be shown does not depend on the key that it is given. -/
theorem shown_with_key {t : Tree (Node τ)} {key v : Value} (h : t.shown key active = .ok v)
    (key' : Value) : ∃ w, t.shown key' active = .ok w := by
  rcases t with ⟨a, cs⟩
  cases hkind : a.kind with
  | atomic => exact ⟨key', by simp [shown, hkind]⟩
  | compound => exact ⟨v, by simpa [shown, hkind] using h⟩
  | parallel => exact ⟨v, by simpa [shown, hkind] using h⟩

/-- A parallel node can be shown when all its children can. -/
theorem shown_parallel_iff (hkind : a.kind = .parallel) (key : Value) :
    (∃ v, (Tree.node a cs).shown key active = .ok v) ↔
      ∀ c ∈ cs, ∃ v, c.2.shown (.text c.1) (inside c.1 active) = .ok v := by
  constructor
  · intro h c hc
    obtain ⟨v, hv⟩ := h
    simp only [shown, hkind] at hv
    obtain ⟨es, hes, -⟩ := bind_eq_ok.mp hv
    obtain ⟨e, -, -, key', -, hshown⟩ :=
      exists_of_mem_forall₂ (entries_of_shown_regions hes).flip hc
    exact shown_with_key hshown _
  · intro h
    obtain ⟨es, hes⟩ := shown_regions_eq_ok h
    exact ⟨.newTable es, by simp [shown, hkind, hes]⟩

/-- With nothing active below it, a node can be shown exactly when it is flat. -/
theorem shown_nothing_iff {t : Tree (Node τ)} (hwf : t.WellFormed)
    (hnone : ∀ p ∈ active, p = []) (key : Value) :
    (∃ v, t.shown key active = .ok v) ↔ t.Flat := by
  induction t using node_induction generalizing active key with
  | node a cs ih =>
      rw [flat_node_iff hwf]
      cases hkind : a.kind with
      | atomic =>
          exact iff_of_true ⟨key, by simp [shown, hkind]⟩ (by simp [hwf.no_children hkind])
      | compound =>
          refine iff_of_false (fun h => ?_) (by simp)
          obtain ⟨v, hv⟩ := h
          obtain ⟨k, t, -, hk, -⟩ := shown_child_cases (by simpa [shown, hkind] using hv)
          cases hnone _ hk
      | parallel =>
          have hinside : ∀ k, ∀ p ∈ inside k active, p = [] := by
            intro k p hp
            cases hnone _ (mem_inside.mp hp)
          simp only [ne_eq, reduceCtorEq, not_false_eq_true, true_and, shown_parallel_iff hkind]
          exact forall₂_congr fun c hc =>
            ih c hc (hwf.child (hwf.lookup.mpr hc)) (hinside c.1) (.text c.1)

end

/-- The children of the root beside the one that a path leads through are flat. -/
def FlatBeside (root : Tree (Node τ)) (p : Path) : Prop :=
  ∀ k ks, p = k :: ks → ∀ c ∈ root.children, c.1 ≠ k → c.2.Flat

/-- When only one region of a parallel root is active, the root can be shown exactly when the other
regions are flat. -/
theorem shown_region_iff (hwf : root.WellFormed) (hroot : root.kind? [] = some .parallel)
    {k : String} {ks : Path} (hq : (root.at? (k :: ks)).isSome) {active : List Path}
    (hactive : ∀ p, p ∈ active ↔ p = [] ∨ [k] <+: p ∧ p ∈ root.startAt (k :: ks)) (key : Value) :
    (∃ v, root.shown key active = .ok v) ↔ root.FlatBeside (k :: ks) := by
  have hstart := legal_start_at hwf hq
  have hmem : [k] ∈ root.startAt (k :: ks) :=
    hstart.prefix_mem (self_mem_start_at hwf hq) (by simp)
  rcases root with ⟨a, cs⟩
  have hregion : ∀ c ∈ cs, c.1 = k → ∃ v, c.2.shown (.text c.1) (inside c.1 active) = .ok v := by
    rintro ⟨_, t⟩ hc rfl
    have ht := hwf.lookup.mpr hc
    refine (hstart.child ht hmem).toComplete.shown_eq_ok (hwf.child ht) (fun p => ?_) _
    simp [mem_inside, hactive]
  have hother : ∀ c ∈ cs, c.1 ≠ k →
      ((∃ v, c.2.shown (.text c.1) (inside c.1 active) = .ok v) ↔ c.2.Flat) := by
    intro c hc hne
    refine shown_nothing_iff (hwf.child (hwf.lookup.mpr hc)) (fun p hp => ?_) _
    obtain ⟨hpre, -⟩ := ((hactive _).mp (mem_inside.mp hp)).resolve_left (by simp)
    exact absurd (List.cons_prefix_cons.mp hpre).1.symm hne
  rw [shown_parallel_iff (by simpa [kind_nil] using hroot)]
  constructor
  · intro h l ls heq c hc hne
    obtain ⟨rfl, rfl⟩ := List.cons.inj heq
    exact (hother c hc hne).mp (h c hc)
  · intro h c hc
    by_cases heq : c.1 = k
    · exact hregion c hc heq
    · exact (hother c hc heq).mpr (h k ks rfl c hc heq)

/-! ## Where a self transition moves -/

/-- At and below a node, starting at it activates its defaults. -/
theorem mem_start_at_inside (hwf : root.WellFormed) {p q : Path} (hq : (root.at? q).isSome)
    (hp : q <+: p) : p ∈ root.startAt q ↔ p ∈ root.defaultsAt q := by
  rw [mem_start_at hwf hq]
  refine ⟨fun h => ?_, fun h => Or.inr (Or.inl h)⟩
  rcases h with h | h | ⟨c, k, hc, -, hoff, h⟩
  · obtain ⟨hpre, hne⟩ := Path.is_below_iff_ne.mp h
    exact absurd (hpre.eq_of_length_le hp.length_le) hne
  · exact h
  · -- A region beside the way to the node has nothing at or below the node.
    rcases List.prefix_or_prefix_of_prefix (prefix_of_mem_defaults_at h) hp with hpre | hpre
    · exact absurd hpre hoff
    · rcases List.prefix_concat_iff.mp hpre with heq | hpre
      · exact absurd (heq ▸ List.prefix_refl q) hoff
      · obtain ⟨hcq, hne⟩ := Path.is_below_iff_ne.mp hc
        exact absurd (hcq.eq_of_length_le hpre.length_le) hne

/-- A self transition moves below a node above its source, or else leads from the root to the
root. -/
theorem domain_of_self (root : Tree (Node τ)) {t : Transition} (hself : t.targets = [t.source]) :
    ∃ d, root.domain? t = some d ∧
      (t.source.isBelow d = true ∨ t.source = [] ∧ d = []) := by
  have hmem : t.source ∈ t.targets := by simp [hself]
  obtain ⟨d, hd⟩ := exists_domain root hmem
  have hdomain := domain_of_eq_some hd
  refine ⟨d, hd, ?_⟩
  by_cases hroot : t.source = []
  · exact Or.inr ⟨hroot, hdomain.eq_nil (hroot ▸ hmem)⟩
  · exact Or.inl (hdomain.targets_below (by simpa [hself] using Ne.symm hroot) _ hmem)

end Tree

namespace Machine

variable {m : Machine} {h : Host} {start : Identity} {state event context : Value}
  {active : List Path} {ts : List Transition} {t : Transition}

/-- A node is exited by a self transition, unless it is the root, and it is entered. -/
theorem Schedule.count_self {exited entered : List Path} (hs : m.Schedule active ts exited entered)
    (hwf : m.WellFormed) (hactive : m.root.Complete {p | p ∈ active}) {type : String}
    (hts : m.root.Chosen type active ts) (ht : t ∈ ts) (hself : t.targets = [t.source]) :
    exited.count t.source = (if t.source = [] then 0 else 1) ∧ entered.count t.source = 1 := by
  obtain ⟨hsource, -⟩ := source_mem_of_chosen hwf hactive (fun _ => Iff.rfl) hts ht
  obtain ⟨d, hd, hbelow⟩ := Tree.domain_of_self m.root hself
  constructor
  · by_cases hroot : t.source = []
    · -- The root lies below nothing.
      rw [if_pos hroot, List.count_eq_zero, hs.exits, hroot]
      simp [Path.is_below_iff]
    · rw [if_neg hroot]
      refine List.count_eq_one_of_mem hs.exited_once ((hs.exits _).mpr ⟨hsource, t, ht, d, hd, ?_⟩)
      exact hbelow.resolve_right fun h => hroot h.1
  · refine List.count_eq_one_of_mem hs.entered_once ((hs.enters _).mpr ⟨t, ht, ?_⟩)
    have hknown := hactive.known _ hsource
    rw [Tree.entriesOf, hd, hself]
    exact Tree.target_mem_entry_set hwf.root List.mem_cons_self hknown

/-- After a self transition the source has its defaults active and nothing else. -/
theorem mem_active_after_self (hwf : m.WellFormed) (hactive : m.root.Complete {p | p ∈ active})
    {type : String} (hts : m.root.Chosen type active ts) (ht : t ∈ ts)
    (hself : t.targets = [t.source]) {p : Path} (hp : t.source <+: p) :
    p ∈ m.activeAfter active ts ↔ p ∈ m.root.defaultsAt t.source := by
  obtain ⟨d, hd, hbelow⟩ := Tree.domain_of_self m.root hself
  have hknown : (m.root.at? t.source).isSome :=
    known_of_chosen hwf hts ht _ (by simp [hself])
  rw [← Tree.mem_start_at_inside hwf.root hknown hp]
  rcases hbelow with hbelow | ⟨hroot, rfl⟩
  · have hpd : p.isBelow d = true := Path.is_below_mono hbelow hp
    obtain ⟨k, ks, hsource⟩ := Path.is_below_iff.mp hbelow
    rw [mem_active_after_below hwf hactive (fun _ => Iff.rfl) hts ht hd hpd, Tree.entriesOf, hd,
      hself]
    rw [hsource] at hknown hp ⊢
    refine (Tree.mem_entry_set_singleton hwf.root hknown).trans (and_iff_right ?_)
    exact List.IsPrefix.trans (by simp) hp
  · rw [mem_active_after_below_root hwf hactive (fun _ => Iff.rfl) hts ht hd,
      Tree.mem_entries_of_root hwf.root hd (by rw [hself, hroot]), hroot]
    have hnil := (Tree.legal_start_at hwf.root (q := []) (by simp)).root_mem
    exact or_iff_right_of_imp fun heq => heq ▸ hnil

/-- There is a control state of a set of nodes when the root can be shown. -/
theorem control_eq_ok_iff {actions : List Value} {changed : Bool} :
    (∃ s, m.control active actions changed = .ok s) ↔ ∃ v, m.root.shown m.id active = .ok v := by
  constructor
  · intro h
    obtain ⟨s, hs⟩ := h
    obtain ⟨v, hv, -⟩ := bind_eq_ok.mp hs
    exact ⟨v, hv⟩
  · intro h
    obtain ⟨v, hv⟩ := h
    exact ⟨.state v _ (.tuple actions) changed, by simp [control, hv]; rfl⟩

/-- A self transition has an answer, unless it moves below a parallel root and a region beside that
of the source is not flat. -/
theorem self_answer_iff (hwf : m.WellFormed) (hactive : m.root.Complete {p | p ∈ active})
    (hinit : Event.isInit event = false)
    (hts : m.selected h start state event context = .ok (active, ts)) (ht : t ∈ ts)
    (hself : t.targets = [t.source]) :
    (∃ s, m.transition h start state event context = .ok s) ↔
      (m.root.kind? [] = some .parallel → m.root.domain? t = some [] →
        m.root.FlatBeside t.source) := by
  obtain ⟨type, hchosen⟩ := chosen_of_selected hts
  have hknown : (m.root.at? t.source).isSome :=
    known_of_chosen hwf hchosen ht _ (by simp [hself])
  obtain ⟨d, hd, hbelow⟩ := Tree.domain_of_self m.root hself
  by_cases hproper : m.root.Proper t d
  · have hall := proper_of_chosen hwf hactive (fun _ => Iff.rfl) hchosen ht hd hproper
    obtain ⟨-, hcomplete⟩ := complete_active_after hwf hactive (fun _ => Iff.rfl) hchosen hall
    obtain ⟨s, hs, -⟩ := exists_answer hwf hinit hts hcomplete
    refine iff_of_true ⟨s, hs⟩ fun hkind hdomain k ks hsource => ?_
    -- Below a parallel root only a transition to the root is proper.
    obtain rfl : d = [] := Option.some.inj (hd.symm.trans hdomain)
    rcases hproper with hroot | ⟨hnot, -⟩
    · simp [hself, hsource] at hroot
    · exact absurd hkind hnot
  · -- The only other domain is a parallel root, with the source in one of the regions.
    have hsource : t.source.isBelow d = true := by
      refine hbelow.resolve_right fun hroot => hproper (Or.inl ?_)
      rw [hself, hroot.1]
    have hkind : m.root.kind? d = some .parallel := by
      by_contra hnot
      exact hproper (Or.inr ⟨hnot, by simpa [hself] using hsource⟩)
    obtain rfl : d = [] := (Tree.domain_of_eq_some hd).kind.resolve_right fun hnot => hnot hkind
    obtain ⟨k, ks, heq⟩ := List.exists_cons_of_ne_nil (Path.is_below_nil.mp hsource)
    have hafter := mem_active_after_region hwf hactive (fun _ => Iff.rfl) hchosen ht hd
      (hself.trans (by rw [heq]))
    rw [transition_eq hinit, hts, ok_bind, control_eq_ok_iff, heq,
      Tree.shown_region_iff hwf.root hkind (heq ▸ hknown) hafter]
    exact ⟨fun hflat _ _ => hflat, fun hflat => hflat hkind hd⟩

/-- When a transition that leads back to its source is selected, the source is exited once, unless
it is the root, and entered once, along a schedule of all that is exited and entered. There is an
answer unless the transition moves below a parallel root and there is a compound node in another
region than that of the source. The answer comes with the exit actions, the actions of the
transitions and the entry actions, in that order, and at and below the source its defaults are
active in it. -/
theorem self_transition_external {config : Value} (hconfig : config.wellFormed = true)
    (hm : define config = .ok m) (hinit : Event.isInit event = false)
    (hts : m.selected h start state event context = .ok (active, ts))
    (hactive : m.root.Legal {p | p ∈ active}) (ht : t ∈ ts) (hself : t.targets = [t.source]) :
    ∃ exited entered, m.Schedule active ts exited entered ∧
      exited.count t.source = (if t.source = [] then 0 else 1) ∧ entered.count t.source = 1 ∧
      ((∃ s, m.transition h start state event context = .ok s) ↔
        (m.root.kind? [] = some .parallel → m.root.domain? t = some [] →
          m.root.FlatBeside t.source)) ∧
      ∀ s, m.transition h start state event context = .ok s →
        ∃ value configuration B, s = .state value configuration (.tuple (m.exitActions exited ++
          ts.flatMap Transition.actions ++ m.entryActions entered)) true ∧
          m.Denotes B s ∧ ∀ p, t.source <+: p → (p ∈ B ↔ p ∈ m.root.defaultsAt t.source) := by
  have hwf := well_formed_of_define hconfig hm
  obtain ⟨type, hchosen⟩ := chosen_of_selected hts
  obtain ⟨exited, entered, hschedule, hactions⟩ := exists_schedule hwf hactive.known hchosen
  obtain ⟨hexited, hentered⟩ := hschedule.count_self hwf hactive.toComplete hchosen ht hself
  refine ⟨exited, entered, hschedule, hexited, hentered,
    self_answer_iff hwf hactive.toComplete hinit hts ht hself, fun s hs => ?_⟩
  obtain ⟨value, configuration, hstate⟩ := eq_state_of_transition hinit hts hs
  have hsome : (!ts.isEmpty) = true := by simpa using List.ne_nil_of_mem ht
  rw [hactions, hsome] at hstate
  have hdenotes := denotes_of_transition hwf hinit hts
    (known_of_mem_active_after hwf hactive.known hchosen) hs
  exact ⟨value, configuration, _, hstate, hdenotes,
    fun p hp => mem_active_after_self hwf hactive.toComplete hchosen ht hself hp⟩

/-- Resetting the booth while its lamp is bright exits and enters it once, and leaves the lamp
dim. -/
theorem booth_reset_external : ∃ m active ts s exited entered value configuration B,
    define boothConfig = .ok m ∧
    m.selected Examples.host ⟨1, 0, 0⟩ (.text "open.lamp.bright") (.text "RESET") .null =
      .ok (active, ts) ∧ ["open", "lamp", "bright"] ∈ active ∧
    m.transition Examples.host ⟨1, 0, 0⟩ (.text "open.lamp.bright") (.text "RESET") .null = .ok s ∧
    m.Schedule active ts exited entered ∧ exited.count ["open"] = 1 ∧
    entered.count ["open"] = 1 ∧
    s = .state value configuration (.tuple (m.exitActions exited ++
      ts.flatMap Transition.actions ++ m.entryActions entered)) true ∧
    m.Denotes B s ∧ ["open", "lamp", "dim"] ∈ B ∧ ["open", "lamp", "bright"] ∉ B := by
  obtain ⟨m, hm, hcheck⟩ := exists_of_any (x := define boothConfig) (P := fun m =>
      (m.selected Examples.host ⟨1, 0, 0⟩ (.text "open.lamp.bright") (.text "RESET")
          .null).toOption.any (fun x => x.1.contains ["open", "lamp", "bright"] &&
            x.2.any fun t => t.source == ["open"] && t.targets == [["open"]]) &&
        m.root.kind? [] == some .compound &&
        (m.root.defaultsAt ["open"]).contains ["open", "lamp", "dim"] &&
        !(m.root.defaultsAt ["open"]).contains ["open", "lamp", "bright"])
    (by decide +kernel)
  simp only [Bool.and_eq_true, beq_iff_eq, List.contains_eq_mem, decide_eq_true_eq,
    Bool.not_eq_true', decide_eq_false_iff_not] at hcheck
  obtain ⟨⟨⟨hselected, hroot⟩, hdim⟩, hbright⟩ := hcheck
  obtain ⟨⟨active, ts⟩, hts, hmoves⟩ := exists_of_any hselected
  simp only [Bool.and_eq_true, decide_eq_true_eq, List.any_eq_true, beq_iff_eq] at hmoves
  obtain ⟨hmem, t, ht, hsource, htargets⟩ := hmoves
  have hconfig : boothConfig.wellFormed = true := by decide +kernel
  have hactive := legal_of_text (well_formed_of_define hconfig hm) (select_of_selected hts).1
  obtain ⟨exited, entered, hschedule, hexited, hentered, hanswer, hafter⟩ :=
    self_transition_external hconfig hm rfl hts hactive ht (by rw [htargets, hsource])
  rw [hsource] at hexited hentered hafter
  obtain ⟨s, hs⟩ := hanswer.mpr fun hkind => by simp [hroot] at hkind
  obtain ⟨value, configuration, B, hstate, hB, hdefaults⟩ := hafter s hs
  exact ⟨m, active, ts, s, exited, entered, value, configuration, B, hm, hts, hmem, hs, hschedule,
    hexited, hentered, hstate, hB, (hdefaults _ (by simp)).mpr hdim,
    fun h => hbright ((hdefaults _ (by simp)).mp h)⟩

/-- The configuration of an application that can be reset as a whole. -/
def appConfig : Value :=
  .table
    [("id", .text "app"), ("initial", .text "on"), ("entry", .text "hello"), ("exit", .text "bye"),
      ("on", .table [("RESET", .table
        [("target", .text "."), ("actions", .text "reset")])]),
      ("states", .table
        [("on", .table [("entry", .text "enterOn"), ("exit", .text "exitOn")]),
          ("off", .table [])])]

/-- The reset of the application leads from the root to the root, but the exit action of the root
does not come with the answer, while its entry action does. -/
theorem root_not_exited : ∃ m a active ts t s, define appConfig = .ok m ∧
    m.root.get? [] = some a ∧ a.exit.map Value.text? = [some "bye"] ∧
    a.entry.map Value.text? = [some "hello"] ∧
    m.selected Examples.host ⟨1, 0, 0⟩ (.text "on") (.text "RESET") .null = .ok (active, ts) ∧
    t ∈ ts ∧ t.source = [] ∧ t.targets = [[]] ∧
    m.transition Examples.host ⟨1, 0, 0⟩ (.text "on") (.text "RESET") .null = .ok s ∧
    (emitted s).map Value.text? =
      [some "exitOn", some "reset", some "hello", some "enterOn"] := by
  obtain ⟨m, hm, hcheck⟩ := exists_of_any (x := define appConfig) (P := fun m =>
      (m.root.get? []).any (fun a => a.exit.map Value.text? == [some "bye"] &&
        a.entry.map Value.text? == [some "hello"]) &&
        (m.selected Examples.host ⟨1, 0, 0⟩ (.text "on") (.text "RESET") .null).toOption.any
          (fun x => x.2.any fun t => t.source == [] && t.targets == [[]]) &&
        (m.transition Examples.host ⟨1, 0, 0⟩ (.text "on") (.text "RESET") .null).toOption.any
          fun s => (emitted s).map Value.text? ==
            [some "exitOn", some "reset", some "hello", some "enterOn"])
    (by decide +kernel)
  simp only [Bool.and_eq_true] at hcheck
  obtain ⟨⟨hroot, hselected⟩, hanswer⟩ := hcheck
  obtain ⟨a, ha, hlists⟩ := (Option.any_eq_true _ _).mp hroot
  obtain ⟨⟨active, ts⟩, hts, hmoves⟩ := exists_of_any hselected
  obtain ⟨s, hs, hactions⟩ := exists_of_any hanswer
  simp only [List.any_eq_true, Bool.and_eq_true, beq_iff_eq] at hlists hmoves hactions
  obtain ⟨t, ht, hsource, htargets⟩ := hmoves
  exact ⟨m, a, active, ts, t, s, hm, ha, hlists.1, hlists.2, hts, ht, hsource, htargets, hs,
    hactions⟩

end Machine

end Statechart
