import Statechart.Proofs.Legality
import Mathlib.Data.List.Perm.Subperm

/-!
# Accepted events

An event is accepted by a node that declares an enabled candidate for its type. Candidates are
looked for at the active atomic nodes and above them, so an event changes a machine exactly when
some node there accepts it: read `changed_iff_accepted` first. Every active node has an active
atomic node at or below it unless a parallel node has no regions, by `exists_leaf_at`;
`ignored_event` is a machine where an active node of that kind accepts an event in vain.
-/

namespace Statechart

namespace Tree

variable {τ : Type}

/-! ## Active atomic nodes -/

/-- A complete set whose parallel nodes have children has an atomic node. -/
theorem Complete.exists_leaf {t : Tree (Node τ)} (hwf : t.WellFormed) {A : Set Path}
    (hA : t.Complete A)
    (hregions : ∀ p ∈ A, t.kind? p = some .parallel → ∃ k, (t.at? (p ++ [k])).isSome) :
    ∃ leaf ∈ A, t.kind? leaf = some .atomic := by
  induction t using node_induction generalizing A with
  | node a cs ih =>
      -- It is enough to find an active child, since the rest is below it.
      have hbelow : ∀ k, [k] ∈ A → ∃ leaf ∈ A, (Tree.node a cs).kind? leaf = some .atomic := by
        intro k hk
        obtain ⟨s, hs⟩ := Option.isSome_iff_exists.mp (hA.known _ hk)
        obtain ⟨t, ht, -⟩ := Option.bind_eq_some_iff.mp (at_cons a cs k [] ▸ hs)
        have hsub : ∀ p, k :: p ∈ A → t.kind? p = some .parallel →
            ∃ l, (t.at? (p ++ [l])).isSome := by
          intro p hp hkind
          obtain ⟨l, hl⟩ := hregions (k :: p) hp (by simpa [kind_cons, ht] using hkind)
          exact ⟨l, by simpa [at_cons, ht] using hl⟩
        obtain ⟨leaf, hleaf, hatomic⟩ :=
          ih _ (hwf.lookup.mp ht) (hwf.child ht) (hA.child ht hk) hsub
        exact ⟨k :: leaf, hleaf, by simpa [kind_cons, ht] using hatomic⟩
      cases hkind : a.kind with
      | atomic => exact ⟨[], hA.root_mem, by rw [kind_nil, hkind]⟩
      | compound =>
          obtain ⟨k, hk⟩ := hA.compound [] hA.root_mem (by rw [kind_nil, hkind])
          exact hbelow k hk
      | parallel =>
          have hroot : (Tree.node a cs).kind? [] = some .parallel := by rw [kind_nil, hkind]
          obtain ⟨k, hk⟩ := hregions [] hA.root_mem hroot
          exact hbelow k (hA.parallel [] hA.root_mem hroot k hk)

/-- What a complete set has at and below one of its nodes is complete for the subtree there. -/
theorem Complete.at {root s : Tree (Node τ)} {A : Set Path} (hA : root.Complete A) {p : Path}
    (hp : root.at? p = some s) (hmem : p ∈ A) : s.Complete {q | p ++ q ∈ A} := by
  induction p generalizing root A with
  | nil =>
      obtain rfl : root = s := by simpa using hp
      simpa using hA
  | cons k p ih =>
      cases root with
      | node a cs =>
          obtain ⟨t, hk, ht⟩ := Option.bind_eq_some_iff.mp (at_cons a cs k p ▸ hp)
          exact ih (hA.child hk (hA.prefix_mem hmem (by simp))) ht hmem

/-- Every node of a complete set whose parallel nodes have children has an atomic node of the set at
or below it. -/
theorem Complete.exists_leaf_at {root : Tree (Node τ)} (hwf : root.WellFormed) {A : Set Path}
    (hA : root.Complete A)
    (hregions : ∀ p ∈ A, root.kind? p = some .parallel → ∃ k, (root.at? (p ++ [k])).isSome)
    {p : Path} (hp : p ∈ A) : ∃ leaf ∈ A, root.kind? leaf = some .atomic ∧ p <+: leaf := by
  obtain ⟨s, hs⟩ := Option.isSome_iff_exists.mp (hA.known p hp)
  obtain ⟨leaf, hleaf, hatomic⟩ := (hA.at hs hp).exists_leaf (hwf.at hs) fun q hq hkind => by
    obtain ⟨k, hk⟩ := hregions (p ++ q) hq (by rwa [kind_append hs])
    exact ⟨k, by simpa [at_append, hs] using hk⟩
  exact ⟨p ++ leaf, hleaf, by rwa [kind_append hs], List.prefix_append p leaf⟩

/-! ## Finding candidates -/

section

variable {root : Chart} {type : String} {active : List Path}
  {enabled : Transition → Except Error Bool}

/-- A search that ends finds a candidate exactly when one of them is enabled. -/
theorem isSome_first_enabled {ts : List Transition} {found : Option Transition}
    (h : firstEnabled enabled ts = .ok found) :
    found.isSome ↔ ∃ t ∈ ts, enabled t = .ok true := by
  induction ts with
  | nil =>
      obtain rfl : none = found := Except.ok.inj h
      simp
  | cons t ts ih =>
      obtain ⟨b, hb, h⟩ := bind_eq_ok.mp h
      cases b with
      | true =>
          obtain rfl : some t = found := by simpa [pure_eq_ok] using h
          simp [hb]
      | false => simpa [hb] using ih h

/-- Whether one of the candidates on the way from a node to the root is enabled. -/
def Accepts (root : Chart) (enabled : Transition → Except Error Bool) (type : String)
    (leaf : Path) : Prop :=
  ∃ t ∈ root.candidatesFrom type leaf, enabled t = .ok true

/-- The first candidate of a selection is always taken. -/
theorem Selection.taken_add_ne_nil {s : Selection} (hs : s.taken = [] → s.exited = [])
    (t : Transition) : (s.add root active t).taken ≠ [] := by
  rcases s.add_cases root active t with ⟨⟨u, hu, -⟩, heq⟩ | ⟨⟨p, -, hp⟩, heq⟩ | ⟨-, -, heq⟩
  · rw [heq]
    exact List.ne_nil_of_mem hu
  · rw [heq]
    intro hnil
    simp [hs hnil] at hp
  · simp [heq]

/-- Going through nodes selects something exactly when something was selected before or one of them
accepts the event. -/
theorem taken_ne_nil_of_select_from {leaves : List Path} {s s' : Selection}
    (hs : s.taken = [] → s.exited = [])
    (h : root.selectFrom enabled type active leaves s = .ok s') :
    s'.taken ≠ [] ↔ s.taken ≠ [] ∨ ∃ leaf ∈ leaves, root.Accepts enabled type leaf := by
  induction leaves generalizing s with
  | nil =>
      obtain rfl : s = s' := by simpa [selectFrom] using h
      simp
  | cons leaf leaves ih =>
      obtain ⟨found, hfound, h⟩ := bind_eq_ok.mp h
      have haccepts : root.Accepts enabled type leaf ↔ found.isSome :=
        (isSome_first_enabled hfound).symm
      cases found with
      | none => simpa [haccepts] using ih hs h
      | some t =>
          have hne : (s.add root active t).taken ≠ [] := Selection.taken_add_ne_nil hs t
          have htaken := (ih (fun hnil => absurd hnil hne) h).mpr (Or.inl hne)
          exact iff_of_true htaken (Or.inr ⟨leaf, by simp, haccepts.mpr rfl⟩)

/-- Something is selected exactly when an active atomic node or one above it accepts the event. -/
theorem select_ne_nil_iff {ts : List Transition} (h : root.select enabled type active = .ok ts) :
    ts ≠ [] ↔ ∃ leaf ∈ root.leaves active, root.Accepts enabled type leaf := by
  obtain ⟨s, hs, h⟩ := bind_eq_ok.mp h
  obtain rfl := Except.ok.inj h
  simpa using taken_ne_nil_of_select_from (fun _ => rfl) hs

/-- The active atomic nodes. -/
theorem mem_leaves (hwf : root.WellFormed) {leaf : Path} :
    leaf ∈ root.leaves active ↔ leaf ∈ active ∧ root.kind? leaf = some .atomic := by
  have hknown : root.kind? leaf = some .atomic → (root.at? leaf).isSome := by
    intro hkind
    obtain ⟨a, cs, hat, -⟩ := at_of_kind hkind
    simp [hat]
  simp only [leaves, List.mem_filter, mem_ordered hwf, beq_iff_eq]
  constructor
  · intro h
    exact ⟨h.1.2, h.2⟩
  · intro h
    exact ⟨⟨hknown h.2, h.1⟩, h.2⟩

end

/-! ## Equal sets of active nodes -/

/-- The keys inside a child depend only on which nodes are active. -/
theorem inside_congr {active active' : List Path} (h : ∀ p, p ∈ active ↔ p ∈ active') (k : String)
    (p : Path) : p ∈ inside k active ↔ p ∈ inside k active' := by
  rw [mem_inside, mem_inside, h]

/-- The value of a node depends only on which nodes are active. -/
theorem shown_congr (t : Tree (Node τ)) {active active' : List Path}
    (h : ∀ p, p ∈ active ↔ p ∈ active') (key : Value) :
    t.shown key active = t.shown key active' := by
  induction t using node_induction generalizing active active' key with
  | node a cs ih =>
      have hshown : ∀ c ∈ cs, c.2.shown (.text c.1) (inside c.1 active) =
          c.2.shown (.text c.1) (inside c.1 active') := fun c hc =>
        ih c hc (inside_congr h c.1) _
      -- The children are gone through twice, once for each kind of node that has some.
      have hchild : shownChild active cs = shownChild active' cs := by
        clear ih
        induction cs with
        | nil => rfl
        | cons c cs ihcs =>
            rcases c with ⟨k, t⟩
            have hk : active.contains [k] = active'.contains [k] :=
              Bool.eq_iff_iff.mpr (by simpa using h [k])
            have hfirst := hshown (k, t) List.mem_cons_self
            have hrest := ihcs fun c hc => hshown c (List.mem_cons_of_mem _ hc)
            simp only [shownChild, hk, hfirst, hrest]
      have hregions : shownRegions active cs = shownRegions active' cs := by
        clear ih hchild
        induction cs with
        | nil => rfl
        | cons c cs ihcs =>
            rcases c with ⟨k, t⟩
            have hfirst := hshown (k, t) List.mem_cons_self
            have hrest := ihcs fun c hc => hshown c (List.mem_cons_of_mem _ hc)
            simp only [shownRegions, hfirst, hrest]
      cases hkind : a.kind <;> simp [shown, hkind, hchild, hregions]

/-- A part of document order is what its members are filtered to. -/
theorem eq_filter_of_sublist {root : Tree (Node τ)} (hwf : root.WellFormed) {paths : List Path}
    (hsub : paths.Sublist root.paths) {P : Path → Bool}
    (hmem : ∀ p ∈ root.paths, p ∈ paths ↔ P p = true) : paths = root.paths.filter P := by
  have hself : paths.filter P = paths :=
    List.filter_eq_self.mpr fun p hp => (hmem p (hsub.subset hp)).mp hp
  have hleft : paths.Sublist (root.paths.filter P) := hself ▸ hsub.filter P
  have hright : root.paths.filter P ⊆ paths := fun p hp =>
    (hmem p (List.mem_filter.mp hp).1).mpr (List.mem_filter.mp hp).2
  exact hleft.eq_of_length_le
    (List.subperm_of_subset ((nodup_paths hwf).filter P) hright).length_le

end Tree

namespace Machine

variable {m : Machine} {h : Host} {start : Identity} {state event context : Value} {A : Set Path}

/-- A control state that denotes a set of nodes shows what any list of them shows. -/
theorem control_of_denotes (hwf : m.WellFormed) (hstate : m.Denotes A state) {active : List Path}
    (hmem : ∀ p, p ∈ active ↔ p ∈ A) (actions : List Value) (changed : Bool) :
    ∃ value configuration actions' changed',
      state = .state value configuration (.tuple actions') changed' ∧
        m.control active actions changed =
          .ok (.state value configuration (.tuple actions) changed) := by
  cases hstate with
  | @intro active' paths value actions' changed' mem value_eq listed order nodup =>
      refine ⟨value, _, actions', changed', rfl, ?_⟩
      have hvalue : m.root.shown m.id active = .ok value := by
        rw [← value_eq]
        exact Tree.shown_congr m.root (fun p => (hmem p).trans (mem p).symm) m.id
      have hpaths : paths = (m.root.ordered active).filter fun p => !p.isEmpty := by
        rw [Tree.ordered, List.filter_filter]
        refine Tree.eq_filter_of_sublist hwf.root order fun p hp => ?_
        rw [listed, ← hmem]
        cases p <;> simp
      simp [control, hvalue, Tree.configuration, ← hpaths, Function.comp_def]

/-- An event is accepted by a node that declares a candidate for its type that is enabled. -/
def AcceptedBy (m : Machine) (h : Host) (start : Identity) (event context : Value) (p : Path) :
    Prop :=
  ∃ type object, Event.typeOf event = .ok type ∧ Event.object h start event = .ok object ∧
    ∃ t ∈ m.root.declared type p, enabled h start context object t = .ok true

/-- Transitions are selected exactly when an active atomic node or one above it accepts the
event. -/
theorem selected_ne_nil_iff (hwf : m.WellFormed) (hA : m.root.Complete A)
    (hstate : m.Denotes A state) {active : List Path} {ts : List Transition}
    (hts : m.selected h start state event context = .ok (active, ts)) :
    ts ≠ [] ↔ ∃ leaf ∈ A, m.root.kind? leaf = some .atomic ∧
      ∃ p, p <+: leaf ∧ m.AcceptedBy h start event context p := by
  obtain ⟨hmem, -⟩ := of_selected hwf hA hstate hts
  obtain ⟨-, -, type, object, htype, hobject, hselect⟩ := select_of_selected hts
  have haccepted : ∀ p, m.AcceptedBy h start event context p ↔
      ∃ t ∈ m.root.declared type p, enabled h start context object t = .ok true := by
    intro p
    simp [AcceptedBy, htype, hobject]
  rw [Tree.select_ne_nil_iff hselect]
  simp only [Tree.mem_leaves hwf.root, hmem, haccepted, Tree.Accepts, Tree.mem_candidates_from]
  constructor
  · intro hleaf
    obtain ⟨leaf, ⟨hA, hatomic⟩, t, ⟨p, hp, ht⟩, henabled⟩ := hleaf
    exact ⟨leaf, hA, hatomic, p, hp, t, ht, henabled⟩
  · intro hleaf
    obtain ⟨leaf, hA, hatomic, p, hp, t, ht, henabled⟩ := hleaf
    exact ⟨leaf, ⟨hA, hatomic⟩, t, ⟨p, hp, ht⟩, henabled⟩

/-- An answer says that it changed exactly when an active atomic node or one above it accepts the
event, which may be any active node unless a parallel one has no regions; an answer that did not
change shows what the control state showed and has no actions. -/
theorem changed_iff_accepted {config : Value} (hconfig : config.wellFormed = true)
    (hm : define config = .ok m) (hA : m.root.Legal A) (hstate : m.Denotes A state)
    (hinit : Event.isInit event = false) {s : Value}
    (hs : m.transition h start state event context = .ok s) :
    ∃ value configuration actions changed,
      s = .state value configuration (.tuple actions) changed ∧
      (changed = true ↔ ∃ leaf ∈ A, m.root.kind? leaf = some .atomic ∧
        ∃ p, p <+: leaf ∧ m.AcceptedBy h start event context p) ∧
      ((∀ p ∈ A, m.root.kind? p = some .parallel → ∃ k, (m.root.at? (p ++ [k])).isSome) →
        (changed = true ↔ ∃ p ∈ A, m.AcceptedBy h start event context p)) ∧
      (changed = false → actions = [] ∧ ∃ actions' changed',
        state = .state value configuration (.tuple actions') changed') := by
  have hwf := well_formed_of_define hconfig hm
  rw [transition_eq hinit] at hs
  obtain ⟨⟨active, ts⟩, hts, hs⟩ := bind_eq_ok.mp hs
  have hiff := selected_ne_nil_iff hwf hA.toComplete hstate hts
  obtain ⟨hmem, -⟩ := of_selected hwf hA.toComplete hstate hts
  obtain ⟨value, configuration, rfl⟩ := eq_state_of_control hs
  refine ⟨value, configuration, _, _, rfl, ?_, fun hregions => ?_, fun hchanged => ?_⟩
  · simpa using hiff
  · have hchanged : (!ts.isEmpty) = true ↔ ts ≠ [] := by simp
    rw [hchanged, hiff]
    constructor
    · intro hleaf
      obtain ⟨leaf, hleaf, -, p, hp, haccepted⟩ := hleaf
      exact ⟨p, hA.prefix_mem hleaf hp, haccepted⟩
    · intro hnode
      obtain ⟨p, hp, haccepted⟩ := hnode
      -- Selection starts at atomic nodes only, so one has to be found below the node.
      obtain ⟨leaf, hleaf, hatomic, hpre⟩ := hA.exists_leaf_at hwf.root hregions hp
      exact ⟨leaf, hleaf, hatomic, p, hpre, haccepted⟩
  · obtain rfl : ts = [] := by simpa using hchanged
    have hafter : ∀ p, p ∈ m.activeAfter active [] ↔ p ∈ A := fun p => by
      rw [active_after_nil, hmem]
    obtain ⟨value', configuration', actions', changed', hsame, hcontrol⟩ :=
      control_of_denotes hwf hstate hafter (m.actionsOf active []) false
    obtain ⟨rfl, rfl, -, -⟩ := Value.state.inj (Except.ok.inj (hcontrol.symm.trans hs))
    exact ⟨actions_of_nil active, actions', changed', hsame⟩

/-- A node accepts an event of a type when it declares a candidate for it that has no guard. -/
theorem accepted_of_unguarded {p : Path} {type : String}
    (hdeclared : ((m.root.declared type p).any fun t => t.guard.isNone) = true) :
    m.AcceptedBy h start (.text type) context p := by
  obtain ⟨t, ht, hguard⟩ := List.any_eq_true.mp hdeclared
  refine ⟨type, _, rfl, rfl, t, ht, ?_⟩
  simp [enabled, Option.isNone_iff_eq_none.mp hguard]

/-- A player that is off accepts the event that turns it on, and its answer says that it changed. -/
theorem player_changes : ∃ m s s', define playerConfig = .ok m ∧ m.initialState = .ok s ∧
    m.LegalState s ∧ m.AcceptedBy Examples.host ⟨1, 0, 0⟩ (.text "POWER") .null ["off"] ∧
    m.transition Examples.host ⟨1, 0, 0⟩ s (.text "POWER") .null = .ok s' ∧
    ∃ value configuration actions, s' = .state value configuration (.tuple actions) true := by
  obtain ⟨m, hm, hcheck⟩ := exists_of_any (x := define playerConfig) (P := fun m =>
      m.root.defaults.contains ["off"] &&
        (m.root.declared "POWER" ["off"]).any (fun t => t.guard.isNone) &&
        m.root.paths.all (fun p => m.root.kind? p != some .parallel ||
          m.root.paths.any fun q => q.dropLast == p && !q.isEmpty) &&
        m.initialState.toOption.any fun s =>
          (m.transition Examples.host ⟨1, 0, 0⟩ s (.text "POWER") .null).toOption.any fun _ => true)
    (by decide +kernel)
  simp only [Bool.and_eq_true, List.contains_eq_mem, decide_eq_true_eq] at hcheck
  obtain ⟨⟨⟨hoff, hdeclared⟩, hregions⟩, hcheck⟩ := hcheck
  obtain ⟨s, hs, hanswer⟩ := exists_of_any hcheck
  obtain ⟨s', hs', -⟩ := exists_of_any hanswer
  have hconfig : playerConfig.wellFormed = true := by decide +kernel
  have hwf := well_formed_of_define hconfig hm
  have hlegal := Tree.legal_defaults hwf.root
  have haccepted : m.AcceptedBy Examples.host ⟨1, 0, 0⟩ (.text "POWER") .null ["off"] :=
    accepted_of_unguarded hdeclared
  obtain ⟨value, configuration, actions, changed, rfl, -, hiff, -⟩ :=
    changed_iff_accepted hconfig hm hlegal (denotes_of_initial hwf hs) rfl hs'
  have hchildren : ∀ p ∈ {p | p ∈ m.root.defaults}, m.root.kind? p = some .parallel →
      ∃ k, (m.root.at? (p ++ [k])).isSome := by
    intro p hp hkind
    have hknown := (Tree.mem_paths hwf.root).mpr (hlegal.known p hp)
    have hchild := List.all_eq_true.mp hregions p hknown
    simp only [hkind, bne_self_eq_false, Bool.false_or, List.any_eq_true, Bool.and_eq_true,
      beq_iff_eq, Bool.not_eq_true', List.isEmpty_eq_false_iff] at hchild
    obtain ⟨q, hq, rfl, hne⟩ := hchild
    refine ⟨q.getLast hne, ?_⟩
    rw [List.dropLast_append_getLast hne]
    exact (Tree.mem_paths hwf.root).mp hq
  obtain rfl := (hiff hchildren).mpr ⟨["off"], hoff, haccepted⟩
  exact ⟨m, s, _, hm, hs, legal_initial hwf hs, haccepted, hs', value, configuration, actions, rfl⟩

/-! ## An event that is accepted in vain -/

/-- The configuration of a clip that waits in a parallel node without regions. -/
def clipConfig : Value :=
  .table
    [("id", .text "clip"), ("initial", .text "waiting"),
      ("states", .table
        [("waiting", .table
            [("type", .text "parallel"), ("on", .table [("PLAY", .text "playing")])]),
          ("playing", .table [])])]

/-- An active parallel node without regions accepts an event, and the answer says that nothing
changed. -/
theorem ignored_event : ∃ m s A value configuration, define clipConfig = .ok m ∧
    m.initialState = .ok s ∧ m.root.Legal A ∧ m.Denotes A s ∧ ["waiting"] ∈ A ∧
    m.AcceptedBy Examples.host ⟨1, 0, 0⟩ (.text "PLAY") .null ["waiting"] ∧
    m.transition Examples.host ⟨1, 0, 0⟩ s (.text "PLAY") .null =
      .ok (.state value configuration (.tuple []) false) := by
  obtain ⟨m, hm, hcheck⟩ := exists_of_any (x := define clipConfig) (P := fun m =>
      m.root.defaults.contains ["waiting"] &&
        (m.root.declared "PLAY" ["waiting"]).any (fun t => t.guard.isNone) &&
        m.initialState.toOption.any fun s =>
          (m.selected Examples.host ⟨1, 0, 0⟩ s (.text "PLAY") .null).toOption.any fun x =>
            x.2.isEmpty && (m.control (m.activeAfter x.1 x.2) [] false).toOption.any fun _ => true)
    (by decide +kernel)
  simp only [Bool.and_eq_true, List.contains_eq_mem, decide_eq_true_eq] at hcheck
  obtain ⟨⟨hwaiting, hdeclared⟩, hcheck⟩ := hcheck
  obtain ⟨s, hs, hcheck⟩ := exists_of_any hcheck
  obtain ⟨⟨active, ts⟩, hts, hcheck⟩ := exists_of_any hcheck
  rw [Bool.and_eq_true, List.isEmpty_iff] at hcheck
  obtain ⟨rfl, hcheck⟩ := hcheck
  obtain ⟨s', hs', -⟩ := exists_of_any hcheck
  have hwf := well_formed_of_define (by decide +kernel) hm
  obtain ⟨value, configuration, rfl⟩ := eq_state_of_control hs'
  refine ⟨m, s, _, value, configuration, hm, hs, Tree.legal_defaults hwf.root,
    denotes_of_initial hwf hs, hwaiting, accepted_of_unguarded hdeclared, ?_⟩
  rw [transition_eq rfl, hts, ok_bind, actions_of_nil]
  exact hs'

end Machine

end Statechart
