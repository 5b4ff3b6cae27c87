import Statechart.Proofs.Configuration
import Statechart.Proofs.Selection
import Statechart.Proofs.Tree.Entry

/-!
# Taking transitions together

Transitions that are taken together move a configuration below their domains. Read
`mem_active_after` first: the nodes that are active afterwards are those of `Tree.spliceAll`, with
one move for each transition that has targets. `transition_eq` takes a step of a machine apart into
the selection of transitions and the move.
-/

namespace Statechart

namespace Tree

variable {τ : Type} {root : Tree (Node τ)}

/-- A transition spares the nodes that do not lie below its domain. -/
def Spares (root : Tree (Node τ)) (t : Transition) (p : Path) : Prop :=
  ∀ d, root.domain? t = some d → p.isBelow d = false

/-- A transition exits the active nodes that it does not spare. -/
theorem not_mem_exits_iff {active : List Path} {t : Transition} {p : Path} (hp : p ∈ active) :
    p ∉ root.exitsOf active t ↔ root.Spares t p := by
  simp [mem_exits_iff, Spares, hp]

/-- The moves of transitions: one below each domain, to the configuration that is the goal. -/
def moves (root : Tree (Node τ)) (goal : Transition → Set Path) (ts : List Transition) :
    List (Path × Set Path) :=
  ts.filterMap fun t => (root.domain? t).map fun d => (d, goal t)

theorem mem_moves {goal : Transition → Set Path} {ts : List Transition} {x : Path × Set Path} :
    x ∈ root.moves goal ts ↔ ∃ t ∈ ts, root.domain? t = some x.1 ∧ goal t = x.2 := by
  rcases x with ⟨d, C⟩
  simp only [moves, List.mem_filterMap, Option.map_eq_some_iff, Prod.mk.injEq]
  constructor
  · intro h
    obtain ⟨t, ht, e, he, hd, hC⟩ := h
    exact ⟨t, ht, hd ▸ he, hC⟩
  · intro h
    obtain ⟨t, ht, hd, hC⟩ := h
    exact ⟨t, ht, d, hd, rfl, hC⟩

/-- What starting at the first target of a transition activates. -/
def aim (root : Tree (Node τ)) (t : Transition) : Set Path :=
  {p | p ∈ root.startAt (t.targets.headD [])}

/-- The nodes that a transition leads to: what starting at its first target activates, and what it
enters for the others. -/
def goal (root : Tree (Node τ)) (t : Transition) : Set Path :=
  root.aim t ∪ {p | p ∈ root.entriesOf t}

/-- A transition is proper when it moves below a node that is not parallel, or to the root. -/
def Proper (root : Tree (Node τ)) (t : Transition) (d : Path) : Prop :=
  t.targets = [[]] ∨ root.kind? d ≠ some .parallel ∧ ∀ q ∈ t.targets, q.isBelow d = true

section

variable {t : Transition} {d : Path}

/-- The domain of a transition to the root is the root. -/
theorem Domain.eq_nil (hd : root.Domain t d) (hroot : [] ∈ t.targets) : d = [] := by
  rcases hd.covers with hcovers | ⟨hnil, -⟩
  · have hbelow := hcovers [] hroot
    simp [Path.is_below_iff] at hbelow
  · exact hnil

/-- The targets of a transition that does not lead to the root lie below its domain. -/
theorem Domain.targets_below (hd : root.Domain t d) (hroot : [] ∉ t.targets) :
    ∀ q ∈ t.targets, q.isBelow d = true := by
  rcases hd.covers with hcovers | ⟨-, hmem⟩
  · exact hcovers
  · exact absurd hmem hroot

/-- A transition that moves below a node other than the root is proper. -/
theorem Domain.proper (hd : root.Domain t d) (hne : d ≠ []) : root.Proper t d :=
  Or.inr ⟨hd.kind.resolve_left hne, hd.targets_below fun hroot => hne (hd.eq_nil hroot)⟩

/-- A transition that does not lead to the root enters nodes below its domain only. -/
theorem below_of_mem_entries (hwf : root.WellFormed) {p : Path} (hd : root.domain? t = some d)
    (hroot : [] ∉ t.targets) (hp : p ∈ root.entriesOf t) : p.isBelow d = true := by
  rw [entriesOf, hd] at hp
  exact below_of_mem_fold_targets hwf (by simp) ((domain_of_eq_some hd).targets_below hroot) hp

/-- A transition spares what another one enters when their domains are apart. -/
theorem spares_of_apart (hwf : root.WellFormed) {u : Transition} {p : Path}
    (hapart : ∀ d e, root.domain? t = some d → root.domain? u = some e → Apart d e)
    (hp : p ∈ root.entriesOf t) : root.Spares u p := by
  intro e he
  cases hd : root.domain? t with
  | none => simp [entriesOf, hd] at hp
  | some d =>
      have hde := hapart d e hd he
      by_cases hroot : [] ∈ t.targets
      · -- A transition to the root moves below the root, which is apart from nothing.
        rw [(domain_of_eq_some hd).eq_nil hroot] at hde
        exact absurd List.nil_prefix hde.1
      · exact hde.not_below (below_of_mem_entries hwf hd hroot hp)

/-- What a transition enters are nodes. -/
theorem known_of_mem_entries (hwf : root.WellFormed) {p : Path}
    (htargets : ∀ q ∈ t.targets, (root.at? q).isSome) (hp : p ∈ root.entriesOf t) :
    (root.at? p).isSome := by
  cases hd : root.domain? t with
  | none => simp [entriesOf, hd] at hp
  | some d =>
      rw [entriesOf, hd] at hp
      exact known_of_mem_fold_targets hwf (by simp) htargets hp

/-- A transition to the root enters the defaults of the root. -/
theorem mem_entries_of_root (hwf : root.WellFormed) (hd : root.domain? t = some d)
    (htargets : t.targets = [[]]) {p : Path} : p ∈ root.entriesOf t ↔ p ∈ root.startAt [] := by
  obtain rfl := (domain_of_eq_some hd).eq_nil (by simp [htargets])
  have hentries : root.entriesOf t = root.enterTarget [] [] [] := by
    simp [entriesOf, hd, htargets, entrySet]
  rw [hentries, mem_enter_target hwf, mem_on_the_way, start_at_nil hwf]
  simp [Path.is_below_iff, defaultsAt]

/-- The goal of a proper transition is complete, and the transition enters what lies below its
domain in its goal. -/
theorem complete_goal (hwf : root.WellFormed) (hd : root.domain? t = some d)
    (hproper : root.Proper t d) (hknown : ∀ q ∈ t.targets, (root.at? q).isSome) :
    root.Complete (root.goal t) ∧ d ∈ root.goal t ∧
      ∀ p : Path, p ≠ [] → (p ∈ root.entriesOf t ↔ p ∈ root.goal t ∧ p.isBelow d = true) := by
  rcases hproper with htargets | ⟨hkind, hbelow⟩
  · obtain rfl := (domain_of_eq_some hd).eq_nil (by simp [htargets])
    have hgoal : root.goal t = {p | p ∈ root.startAt []} := by
      ext p
      simp [goal, aim, htargets, mem_entries_of_root hwf hd htargets]
    have hlegal := legal_start_at hwf (q := []) (by simp)
    rw [hgoal]
    refine ⟨hlegal.toComplete, hlegal.root_mem, fun p hp => ?_⟩
    rw [mem_entries_of_root hwf hd htargets, Path.is_below_nil]
    exact ⟨fun hstart => ⟨hstart, hp⟩, fun hstart => hstart.1⟩
  · obtain ⟨q, targets, htargets⟩ := List.exists_cons_of_ne_nil (domain_of_eq_some hd).targeted
    have hentries : root.entriesOf t = root.entrySet d (q :: targets) := by
      simp [entriesOf, hd, htargets]
    have hgoal : root.goal t =
        {p | p ∈ root.startAt q} ∪ {p | p ∈ root.entrySet d (q :: targets)} := by
      simp [goal, aim, htargets, hentries]
    have hq : (root.at? q).isSome ∧ q.isBelow d = true :=
      ⟨hknown q (by simp [htargets]), hbelow q (by simp [htargets])⟩
    have hall : ∀ r ∈ q :: targets, (root.at? r).isSome ∧ r.isBelow d = true :=
      fun r hr => ⟨hknown r (htargets ▸ hr), hbelow r (htargets ▸ hr)⟩
    obtain ⟨hcomplete, hin⟩ := complete_entry_set hwf hall
    rw [hgoal, hentries]
    refine ⟨hcomplete, Or.inl ?_, fun p _ => ⟨fun hp => ⟨Or.inr hp, hin p hp⟩, ?_⟩⟩
    · exact (legal_start_at hwf hq.1).prefix_mem (self_mem_start_at hwf hq.1)
        (Path.is_below_iff_ne.mp hq.2).1
    · intro h
      obtain ⟨hp, hpd⟩ := h
      rcases hp with hp | hp
      · exact subset_entry_set_cons hwf ((mem_entry_set_below hwf hkind hq.1 hq.2).mpr ⟨hp, hpd⟩)
      · exact hp

/-- A proper transition whose further targets are activated by starting at the first one aims at
what that activates. -/
theorem goal_eq_aim (hwf : root.WellFormed) (hd : root.domain? t = some d)
    (hproper : root.Proper t d) {q : Path} {targets : List Path}
    (htargets : t.targets = q :: targets)
    (hq : (root.at? q).isSome) (hrest : ∀ r ∈ targets, r ∈ root.startAt q ∧ ¬ r <+: q) :
    root.goal t = root.aim t := by
  have hentries : ∀ p ∈ root.entriesOf t, p ∈ root.startAt q := by
    intro p hp
    rcases hproper with hroot | ⟨hkind, hbelow⟩
    · obtain rfl : q = [] := by simpa [htargets] using congrArg List.head? hroot
      exact (mem_entries_of_root hwf hd hroot).mp hp
    · rw [htargets] at hbelow
      have heq : root.entriesOf t = root.entrySet d (q :: targets) := by
        simp [entriesOf, hd, htargets]
      rw [heq, entry_set_eq_of_mem hwf hkind hq (hbelow q List.mem_cons_self) fun r hr =>
        ⟨(hrest r hr).1, (hrest r hr).2, hbelow r (List.mem_cons_of_mem _ hr)⟩] at hp
      exact hp.1
  ext p
  simp only [goal, aim, htargets, List.headD_cons, Set.mem_union, Set.mem_ofPred_eq]
  exact ⟨fun hp => hp.elim id (hentries p), Or.inl⟩

end

end Tree

namespace Machine

variable {m : Machine} {h : Host} {start : Identity} {state event context : Value}

/-- The active nodes of a control state and the transitions that are selected for an event. -/
def selected (m : Machine) (h : Host) (start : Identity) (state event context : Value) :
    Except Error (List Path × List Transition) := do
  let active ← m.activeNodes state
  let type ← Event.typeOf event
  let object ← Event.object h start event
  if !m.root.knows active then .error .missingKey
  return (active, ← m.root.select (enabled h start context object) type active)

/-- Without transitions the same nodes stay active. -/
@[simp] theorem active_after_nil (active : List Path) : m.activeAfter active [] = active := by
  simp [activeAfter]

/-- Without transitions there are no actions. -/
@[simp] theorem actions_of_nil (active : List Path) : m.actionsOf active [] = [] := by
  simp [actionsOf, exitActions, entryActions, Tree.ordered]

/-- The initial event leads to the initial control state. -/
theorem transition_of_init (hinit : Event.isInit event = true) :
    m.transition h start state event context = m.initialState := by
  simp [transition, hinit]

/-- An event other than the initial one leads to the control state of the nodes that are active
after the selected transitions are taken. -/
theorem transition_eq (hinit : Event.isInit event = false) :
    m.transition h start state event context =
      m.selected h start state event context >>= fun s =>
        m.control (m.activeAfter s.1 s.2) (m.actionsOf s.1 s.2) (!s.2.isEmpty) := by
  have hnone : ∀ active, m.control active [] false =
      m.control (m.activeAfter active []) (m.actionsOf active []) false := by
    intro active
    rw [active_after_nil, actions_of_nil]
  simp only [transition, hinit, selected]
  cases m.activeNodes state with
  | error e => rfl
  | ok active =>
      cases Event.typeOf event with
      | error e => rfl
      | ok type =>
          cases Event.object h start event with
          | error e => rfl
          | ok object =>
              cases hknows : m.root.knows active with
              | false => simp [hknows]
              | true =>
                  cases hts : m.root.select (enabled h start context object) type active with
                  | error e => simp [hknows, hts]
                  | ok ts =>
                      cases ts with
                      | nil => simp [hknows, hts, hnone]
                      | cons t ts => simp [hknows, hts]

/-- Transitions are selected from active nodes that are all nodes of the machine, for an event that
has a type and the form of a table. -/
theorem select_of_selected {active : List Path} {ts : List Transition}
    (hselected : m.selected h start state event context = .ok (active, ts)) :
    m.activeNodes state = .ok active ∧ (∀ p ∈ active, (m.root.at? p).isSome) ∧ ∃ type object,
      Event.typeOf event = .ok type ∧ Event.object h start event = .ok object ∧
        m.root.select (enabled h start context object) type active = .ok ts := by
  obtain ⟨active', hactive, hselected⟩ := bind_eq_ok.mp hselected
  obtain ⟨type, htype, hselected⟩ := bind_eq_ok.mp hselected
  obtain ⟨object, hobject, hselected⟩ := bind_eq_ok.mp hselected
  split at hselected
  · cases hselected
  · rename_i hknows
    obtain ⟨ts', hts, hselected⟩ := bind_eq_ok.mp hselected
    obtain ⟨rfl, rfl⟩ := Prod.mk.inj (Except.ok.inj hselected)
    have hknown : ∀ p ∈ active', (m.root.at? p).isSome := by
      simpa [Tree.knows, Option.isSome_iff_ne_none] using hknows
    exact ⟨hactive, hknown, type, object, htype, hobject, hts⟩

/-- Transitions that are selected for an event are candidates of active nodes and can be taken
together. -/
theorem chosen_of_selected {active : List Path} {ts : List Transition}
    (hselected : m.selected h start state event context = .ok (active, ts)) :
    ∃ type, m.root.Chosen type active ts := by
  obtain ⟨-, -, type, object, -, -, hts⟩ := select_of_selected hselected
  exact ⟨type, Tree.chosen_of_select hts⟩

/-- With one active atomic node the first enabled candidate on the way to the root is selected. -/
theorem selected_of_leaf {active : List Path} {leaf : Path} {type : String} {object : Value}
    (hactive : m.activeNodes state = .ok active) (hknows : m.root.knows active = true)
    (hleaves : m.root.leaves active = [leaf]) (htype : Event.typeOf event = .ok type)
    (hobject : Event.object h start event = .ok object) :
    m.selected h start state event context =
      (Tree.firstEnabled (enabled h start context object)
        (m.root.candidatesFrom type leaf)).map fun t => (active, t.toList) := by
  simp only [selected, hactive, htype, hobject, hknows, Tree.select_of_leaf hleaves, ok_bind]
  cases Tree.firstEnabled (enabled h start context object)
    (m.root.candidatesFrom type leaf) <;> rfl

/-! ## Answers -/

section

variable {active : List Path} {ts : List Transition} {s : Value}

/-- The answer to an event for which transitions are selected comes with their actions and says
whether there are any. -/
theorem eq_state_of_transition (hinit : Event.isInit event = false)
    (hselected : m.selected h start state event context = .ok (active, ts))
    (hs : m.transition h start state event context = .ok s) :
    ∃ value configuration,
      s = .state value configuration (.tuple (m.actionsOf active ts)) (!ts.isEmpty) := by
  rw [transition_eq hinit, hselected, ok_bind] at hs
  exact eq_state_of_control hs

/-- The answer to an event denotes what is active after the selected transitions are taken. -/
theorem denotes_of_transition (hwf : m.WellFormed) (hinit : Event.isInit event = false)
    (hselected : m.selected h start state event context = .ok (active, ts))
    (hknown : ∀ p ∈ m.activeAfter active ts, (m.root.at? p).isSome)
    (hs : m.transition h start state event context = .ok s) :
    m.Denotes {p | p ∈ m.activeAfter active ts} s := by
  rw [transition_eq hinit, hselected, ok_bind] at hs
  exact denotes_of_control hwf hknown hs

/-- There is an answer when what is active after the selected transitions are taken is complete. -/
theorem exists_answer (hwf : m.WellFormed) (hinit : Event.isInit event = false)
    (hselected : m.selected h start state event context = .ok (active, ts))
    (hcomplete : m.root.Complete {p | p ∈ m.activeAfter active ts}) :
    ∃ s, m.transition h start state event context = .ok s ∧
      m.Denotes {p | p ∈ m.activeAfter active ts} s := by
  rw [transition_eq hinit, hselected, ok_bind]
  exact denotes_of_complete hwf hcomplete _ _

end

/-! ## Moves -/

section

variable {A : Set Path} {active : List Path} {ts : List Transition} {type : String}

/-- Selected transitions belong to the machine and leave active nodes. -/
theorem source_mem_of_chosen (hwf : m.WellFormed) (hA : m.root.Complete A)
    (hmem : ∀ p, p ∈ active ↔ p ∈ A) (hts : m.root.Chosen type active ts) {t : Transition}
    (ht : t ∈ ts) : t.source ∈ A ∧ t ∈ m.root.transitions := by
  obtain ⟨p, hp, hcandidate⟩ := hts.candidates t ht
  obtain ⟨q, hq, hdeclared⟩ := Tree.mem_candidates_from.mp hcandidate
  obtain ⟨a, ha, e, he, hte⟩ := Tree.mem_of_declared hdeclared
  have hsource : t.source = q := hwf.source q a ha e he t hte
  refine ⟨?_, (Tree.mem_transitions hwf.root).mpr ⟨q, a, ha, e, he, hte⟩⟩
  rw [hsource]
  exact hA.prefix_mem ((hmem p).mp hp) hq

/-- Selected transitions have targets that are there. -/
theorem known_of_chosen (hwf : m.WellFormed) (hts : m.root.Chosen type active ts) {t : Transition}
    (ht : t ∈ ts) : ∀ q ∈ t.targets, (m.root.at? q).isSome :=
  hwf.targets t (hts.mem_transitions hwf.root ht)

/-- The domains of selected transitions are apart. -/
theorem apart_of_chosen (hwf : m.WellFormed) (hA : m.root.Complete A)
    (hmem : ∀ p, p ∈ active ↔ p ∈ A) (hts : m.root.Chosen type active ts) {t u : Transition}
    (ht : t ∈ ts) (hu : u ∈ ts) (hcompatible : m.root.Compatible active t u) {d e : Path}
    (hd : m.root.domain? t = some d) (he : m.root.domain? u = some e) : Tree.Apart d e := by
  obtain ⟨hsource, -⟩ := source_mem_of_chosen hwf hA hmem hts ht
  obtain ⟨hsource', -⟩ := source_mem_of_chosen hwf hA hmem hts hu
  refine Tree.apart_of_disjoint hA hsource hsource' hcompatible.1
    (Tree.domain_of_eq_some hd) (Tree.domain_of_eq_some he) fun p hp hpd => ?_
  have hexit := (Tree.mem_exits_of hd).mpr ⟨(hmem p).mpr hp, hpd⟩
  have hnot := hcompatible.2 p hexit
  rw [Tree.mem_exits_of he, hmem] at hnot
  exact Bool.eq_false_iff.mpr fun hpe => hnot ⟨hp, hpe⟩

/-- A proper transition is selected together with proper ones only. -/
theorem proper_of_chosen (hwf : m.WellFormed) (hA : m.root.Complete A)
    (hmem : ∀ p, p ∈ active ↔ p ∈ A) (hts : m.root.Chosen type active ts) {t : Transition}
    (ht : t ∈ ts) {d : Path} (hd : m.root.domain? t = some d) (hproper : m.root.Proper t d) :
    ∀ u ∈ ts, ∀ e, m.root.domain? u = some e → m.root.Proper u e := by
  intro u hu e he
  by_cases heq : u = t
  · subst heq
    obtain rfl : d = e := Option.some.inj (hd.symm.trans he)
    exact hproper
  · -- The other domain is apart from `d`, so it is not the root.
    have hcompatible : m.root.Compatible active u t := hts.compatible.forall hu ht heq
    have hapart : Tree.Apart e d := apart_of_chosen hwf hA hmem hts hu ht hcompatible he hd
    refine (Tree.domain_of_eq_some he).proper fun hnil => hapart.1 ?_
    rw [hnil]
    exact List.nil_prefix

/-- The moves of selected transitions are made below active nodes that are apart. -/
theorem moves_of_chosen (hwf : m.WellFormed) (hA : m.root.Complete A)
    (hmem : ∀ p, p ∈ active ↔ p ∈ A) (hts : m.root.Chosen type active ts)
    (goal : Transition → Set Path) :
    (∀ x ∈ m.root.moves goal ts, x.1 ∈ A) ∧
      (m.root.moves goal ts).Pairwise fun x y => Tree.Apart x.1 y.1 := by
  constructor
  · intro x hx
    obtain ⟨t, ht, hd, -⟩ := Tree.mem_moves.mp hx
    exact hA.prefix_mem (source_mem_of_chosen hwf hA hmem hts ht).1
      (Tree.domain_of_eq_some hd).above
  · rw [Tree.moves, List.pairwise_filterMap]
    refine hts.compatible.imp_of_mem fun {t u} ht hu hcompatible x hx y hy => ?_
    obtain ⟨d, hd, rfl⟩ := Option.map_eq_some_iff.mp hx
    obtain ⟨e, he, rfl⟩ := Option.map_eq_some_iff.mp hy
    exact apart_of_chosen hwf hA hmem hts ht hu hcompatible hd he

/-- After transitions are taken, the nodes are active that were active and are spared by all of
them, and those that one of them enters. -/
theorem mem_active_after_iff {p : Path} : p ∈ m.activeAfter active ts ↔
    (p ∈ active ∧ ∀ t ∈ ts, m.root.Spares t p) ∨ ∃ t ∈ ts, p ∈ m.root.entriesOf t := by
  have hkept : p ∈ active → (p ∉ ts.flatMap (m.root.exitsOf active) ↔
      ∀ t ∈ ts, m.root.Spares t p) := by
    intro hp
    simp only [List.mem_flatMap, not_exists, not_and, Tree.not_mem_exits_iff hp]
  rw [activeAfter, List.mem_append, List.mem_filter, List.mem_flatMap]
  exact or_congr_left (and_congr_right fun hp => by simpa using hkept hp)

/-- Transitions that are taken keep the root active. -/
theorem nil_mem_active_after (hroot : [] ∈ active) : [] ∈ m.activeAfter active ts :=
  mem_active_after_iff.mpr (Or.inl ⟨hroot, fun _ _ _ _ => by simp [Path.isBelow]⟩)

/-- Selected transitions lead from nodes to nodes. -/
theorem known_of_mem_active_after (hwf : m.WellFormed) (hknown : ∀ p ∈ active, (m.root.at? p).isSome)
    (hts : m.root.Chosen type active ts) : ∀ p ∈ m.activeAfter active ts, (m.root.at? p).isSome := by
  intro p hp
  rcases mem_active_after_iff.mp hp with ⟨hp, -⟩ | ⟨t, ht, hp⟩
  · exact hknown p hp
  · exact Tree.known_of_mem_entries hwf.root (known_of_chosen hwf hts ht) hp

/-- Below the domain of a selected transition the nodes are active afterwards that it enters. -/
theorem mem_active_after_below (hwf : m.WellFormed) (hA : m.root.Complete A)
    (hmem : ∀ p, p ∈ active ↔ p ∈ A) (hts : m.root.Chosen type active ts) {t : Transition}
    (ht : t ∈ ts) {d p : Path} (hd : m.root.domain? t = some d) (hp : p.isBelow d = true) :
    p ∈ m.activeAfter active ts ↔ p ∈ m.root.entriesOf t := by
  have hexited : ¬ m.root.Spares t p := by
    intro hspared
    simp [hspared d hd] at hp
  rw [mem_active_after_iff]
  constructor
  · intro h
    rcases h with ⟨-, hspared⟩ | ⟨u, hu, hentered⟩
    · exact absurd (hspared t ht) hexited
    · by_cases heq : u = t
      · exact heq ▸ hentered
      · have hcompatible : m.root.Compatible active u t := hts.compatible.forall hu ht heq
        refine absurd (Tree.spares_of_apart hwf.root (fun e d he hd => ?_) hentered) hexited
        exact apart_of_chosen hwf hA hmem hts hu ht hcompatible he hd
  · exact fun h => Or.inr ⟨t, ht, h⟩

/-- Taking transitions moves a configuration below their domains. -/
theorem mem_active_after (hA : m.root.Complete A) (hmem : ∀ p, p ∈ active ↔ p ∈ A)
    {goal : Transition → Set Path}
    (hgoal : ∀ t ∈ ts, ∀ d, m.root.domain? t = some d → ∀ p : Path, p ≠ [] →
      (p ∈ m.root.entriesOf t ↔ p ∈ goal t ∧ p.isBelow d = true)) (p : Path) :
    p ∈ m.activeAfter active ts ↔ p ∈ Tree.spliceAll A (m.root.moves goal ts) := by
  have hspared : (∀ t ∈ ts, m.root.Spares t p) ↔
      ∀ x ∈ m.root.moves goal ts, p.isBelow x.1 = false := by
    constructor
    · intro h x hx
      obtain ⟨t, ht, hd, -⟩ := Tree.mem_moves.mp hx
      exact h t ht x.1 hd
    · intro h t ht d hd
      exact h (d, goal t) (Tree.mem_moves.mpr ⟨t, ht, hd, rfl⟩)
  rw [mem_active_after_iff, hspared, hmem]
  by_cases hroot : p = []
  · subst hroot
    have hstays : ∀ x ∈ m.root.moves goal ts, Path.isBelow [] x.1 = false := by simp [Path.isBelow]
    exact iff_of_true (Or.inl ⟨hA.root_mem, hstays⟩) (Or.inl ⟨hA.root_mem, hstays⟩)
  · refine or_congr_right ⟨fun h => ?_, fun h => ?_⟩
    · obtain ⟨t, ht, hp⟩ := h
      cases hd : m.root.domain? t with
      | none => simp [Tree.entriesOf, hd] at hp
      | some d => exact ⟨(d, goal t), Tree.mem_moves.mpr ⟨t, ht, hd, rfl⟩,
          (hgoal t ht d hd p hroot).mp hp⟩
    · obtain ⟨x, hx, hp⟩ := h
      obtain ⟨t, ht, hd, heq⟩ := Tree.mem_moves.mp hx
      exact ⟨t, ht, (hgoal t ht _ hd p hroot).mpr (heq ▸ hp)⟩

/-- Taking proper transitions together keeps a configuration complete. -/
theorem complete_active_after (hwf : m.WellFormed) (hA : m.root.Complete A)
    (hmem : ∀ p, p ∈ active ↔ p ∈ A) (hts : m.root.Chosen type active ts)
    (hproper : ∀ t ∈ ts, ∀ d, m.root.domain? t = some d → m.root.Proper t d) :
    {p | p ∈ m.activeAfter active ts} = Tree.spliceAll A (m.root.moves m.root.goal ts) ∧
      m.root.Complete {p | p ∈ m.activeAfter active ts} := by
  have hgoal : ∀ t ∈ ts, ∀ d, m.root.domain? t = some d → _ := fun t ht d hd =>
    Tree.complete_goal hwf.root hd (hproper t ht d hd)
      (known_of_chosen hwf hts ht)
  have heq : {p | p ∈ m.activeAfter active ts} =
      Tree.spliceAll A (m.root.moves m.root.goal ts) :=
    Set.ext fun p => mem_active_after hA hmem (fun t ht d hd => (hgoal t ht d hd).2.2) p
  obtain ⟨hactive, hapart⟩ := moves_of_chosen hwf hA hmem hts m.root.goal
  refine ⟨heq, heq ▸ hA.splice_all (fun x hx => ?_) hapart⟩
  obtain ⟨t, ht, hd, hx2⟩ := Tree.mem_moves.mp hx
  obtain ⟨hcomplete, hmemd, -⟩ := hgoal t ht _ hd
  exact ⟨hx2 ▸ hcomplete, hactive x hx, hx2 ▸ hmemd⟩

/-- Moving a legal configuration to what the transitions aim at keeps it legal. -/
theorem legal_aim_moves (hwf : m.WellFormed) (hA : m.root.Legal A)
    (hmem : ∀ p, p ∈ active ↔ p ∈ A) (hts : m.root.Chosen type active ts)
    (hproper : ∀ t ∈ ts, ∀ d, m.root.domain? t = some d → m.root.Proper t d) :
    m.root.Legal (Tree.spliceAll A (m.root.moves m.root.aim ts)) := by
  obtain ⟨hactive, hapart⟩ := moves_of_chosen hwf hA.toComplete hmem hts m.root.aim
  refine hA.splice_all (fun x hx => ?_) hapart
  obtain ⟨t, ht, hd, haim⟩ := Tree.mem_moves.mp hx
  have hdomain := Tree.domain_of_eq_some hd
  obtain ⟨q, targets, htargets⟩ := List.exists_cons_of_ne_nil hdomain.targeted
  have hq : (m.root.at? q).isSome :=
    known_of_chosen hwf hts ht q (by simp [htargets])
  have hlegal : m.root.Legal (m.root.aim t) := by
    simpa [Tree.aim, htargets] using Tree.legal_start_at hwf.root hq
  have hself : q ∈ m.root.aim t := by
    simpa [Tree.aim, htargets] using Tree.self_mem_start_at hwf.root hq
  refine ⟨haim ▸ hlegal, hactive x hx, haim ▸ ?_⟩
  rcases hproper t ht _ hd with hroot | ⟨-, hbelow⟩
  · rw [hdomain.eq_nil (by simp [hroot])]
    exact hlegal.root_mem
  · exact hlegal.prefix_mem hself (Path.is_below_iff_ne.mp (hbelow q (by simp [htargets]))).1

/-- Taking proper transitions that lead to what they aim at keeps a configuration legal. -/
theorem legal_active_after (hwf : m.WellFormed) (hA : m.root.Legal A)
    (hmem : ∀ p, p ∈ active ↔ p ∈ A) (hts : m.root.Chosen type active ts)
    (hproper : ∀ t ∈ ts, ∀ d, m.root.domain? t = some d → m.root.Proper t d)
    (haim : ∀ t ∈ ts, ∀ d, m.root.domain? t = some d → m.root.goal t = m.root.aim t) :
    m.root.Legal {p | p ∈ m.activeAfter active ts} := by
  have hmoves : m.root.moves m.root.goal ts = m.root.moves m.root.aim ts := by
    refine List.filterMap_congr fun t ht => ?_
    cases hd : m.root.domain? t with
    | none => rfl
    | some d => rw [Option.map_some, Option.map_some, haim t ht d hd]
  rw [(complete_active_after hwf hA.toComplete hmem hts hproper).1, hmoves]
  exact legal_aim_moves hwf hA hmem hts hproper

end

end Machine

end Statechart
