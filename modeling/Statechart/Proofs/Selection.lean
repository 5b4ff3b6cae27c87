import Statechart.Proofs.Definition
import Statechart.Proofs.Tree.Legal
import Statechart.Step
import Mathlib.Data.List.Pairwise

/-!
# Selected transitions

Selected transitions exit different nodes. Read `chosen_of_select` first: each of them is declared
on the way from an active node to the root, and no node is exited by two of them. What the search
for a domain finds is said by `domain_cases`. It follows with `Domain` that the domains of two of
them are apart, which is `apart_of_disjoint`.
-/

namespace Statechart

namespace Tree

variable {τ : Type} {root : Tree (Node τ)} {A : Set Path} {t u : Transition} {d e : Path}

/-! ## Domains -/

/-- A transition stays inside its source when it is internal and all its targets lie below the
source, which is compound. -/
def StaysInside (root : Tree (Node τ)) (t : Transition) : Prop :=
  t.internal = true ∧ root.kind? t.source = some .compound ∧
    ∀ q ∈ t.targets, q.isBelow t.source = true

/-- Whether a node above the source fits as a domain: it is no parallel region and all targets lie
below it. -/
def fits (root : Tree (Node τ)) (t : Transition) (p : Path) : Bool :=
  (p.isEmpty || root.kind? p != some .parallel) && t.targets.all fun q => q.isBelow p

theorem fits_iff {p : Path} : root.fits t p = true ↔
    (p = [] ∨ root.kind? p ≠ some .parallel) ∧ ∀ q ∈ t.targets, q.isBelow p = true := by
  simp [fits]

/-- The domain of a transition with targets is the source, when the transition stays inside it, or
else the nearest node above the source that fits, or the root for want of one. -/
theorem domain_cases (h : root.domain? t = some d) : t.targets ≠ [] ∧
    (root.StaysInside t ∧ d = t.source ∨
      ¬ root.StaysInside t ∧ t.source.ancestors.find? (root.fits t) = some d ∨
      ¬ root.StaysInside t ∧ t.source.ancestors.find? (root.fits t) = none ∧ d = []) := by
  have hinside : (t.internal && root.kind? t.source == some .compound &&
      t.targets.all fun q => q.isBelow t.source) = true ↔ root.StaysInside t := by
    simp [StaysInside, and_assoc]
  simp only [domain?] at h
  split at h
  · cases h
  · rename_i hempty
    refine ⟨by simpa using hempty, ?_⟩
    split at h
    · rename_i hown
      exact Or.inl ⟨hinside.mp hown, (Option.some.inj h).symm⟩
    · rename_i hown
      have hout : ¬ root.StaysInside t := fun hin => hown (hinside.mpr hin)
      have hd : (t.source.ancestors.find? (root.fits t)).getD [] = d := Option.some.inj h
      cases hfind : t.source.ancestors.find? (root.fits t) with
      | some p => exact Or.inr (Or.inl ⟨hout, by simpa [hfind] using hd⟩)
      | none => exact Or.inr (Or.inr ⟨hout, rfl, by simpa [hfind] using hd.symm⟩)

/-- What is known of the domain of a transition: it lies at or above the source and above the
targets, unless it is the root and the root is a target, and it is no parallel node but the root. -/
structure Domain (root : Tree (Node τ)) (t : Transition) (d : Path) : Prop where
  targeted : t.targets ≠ []
  above : d <+: t.source
  covers : (∀ q ∈ t.targets, q.isBelow d = true) ∨ d = [] ∧ [] ∈ t.targets
  kind : d = [] ∨ root.kind? d ≠ some .parallel
  own : d = t.source → d = [] ∨ root.kind? d = some .compound

/-- The search for a domain finds one. -/
theorem domain_of_eq_some (h : root.domain? t = some d) : root.Domain t d := by
  obtain ⟨htargeted, ⟨⟨-, hkind, hall⟩, rfl⟩ | ⟨-, hfind⟩ | ⟨-, -, rfl⟩⟩ := domain_cases h
  · have hnot : root.kind? t.source ≠ some .parallel := by simp [hkind]
    exact ⟨htargeted, List.prefix_refl _, Or.inl hall, Or.inr hnot, fun _ => Or.inr hkind⟩
  · obtain ⟨hkind, hall⟩ := fits_iff.mp (List.find?_some hfind)
    obtain ⟨hpre, hne⟩ :=
      Path.is_below_iff_ne.mp (Path.mem_ancestors.mp (List.mem_of_find?_eq_some hfind))
    exact ⟨htargeted, hpre, Or.inl hall, hkind, fun heq => absurd heq hne⟩
  · refine ⟨htargeted, List.nil_prefix, ?_, Or.inl rfl, fun _ => Or.inl rfl⟩
    by_cases hroot : [] ∈ t.targets
    · exact Or.inr ⟨rfl, hroot⟩
    · exact Or.inl fun q hq => Path.is_below_nil.mpr fun heq => hroot (heq ▸ hq)

/-- A transition with a target has a domain. -/
theorem exists_domain (root : Tree (Node τ)) {t : Transition} {q : Path} (hq : q ∈ t.targets) :
    ∃ d, root.domain? t = some d := by
  have hne : t.targets.isEmpty = false := List.isEmpty_eq_false_iff.mpr (List.ne_nil_of_mem hq)
  simp only [domain?, hne, Bool.false_eq_true, if_false]
  split <;> exact ⟨_, rfl⟩

/-- A transition exits the active nodes below its domain. -/
theorem mem_exits_of {active : List Path} {p : Path} (h : root.domain? t = some d) :
    p ∈ root.exitsOf active t ↔ p ∈ active ∧ p.isBelow d = true := by
  simp [exitsOf, h, exitSet]

/-- What a transition exits is active and lies below a domain that the transition has. -/
theorem mem_exits_iff {active : List Path} {p : Path} :
    p ∈ root.exitsOf active t ↔
      p ∈ active ∧ ∃ d, root.domain? t = some d ∧ p.isBelow d = true := by
  cases hd : root.domain? t with
  | none => simp [exitsOf, hd]
  | some d => simp [mem_exits_of hd]

/-- A transition with an active source exits a node, unless only the root is active. -/
theorem exists_exit (hA : root.Complete A) (hsource : t.source ∈ A) (hd : root.Domain t d) :
    (∃ p ∈ A, p.isBelow d = true) ∨ t.source = [] ∧ ∀ p ∈ A, p = [] := by
  by_cases hown : d = t.source
  · rcases hd.own hown with hroot | hkind
    · by_cases hex : ∃ p ∈ A, p ≠ []
      · obtain ⟨p, hp, hne⟩ := hex
        exact Or.inl ⟨p, hp, hroot ▸ Path.is_below_nil.mpr hne⟩
      · exact Or.inr ⟨hown ▸ hroot, fun p hp => by_contra fun hne => hex ⟨p, hp, hne⟩⟩
    · obtain ⟨k, hk⟩ := hA.compound d (hown ▸ hsource) hkind
      exact Or.inl ⟨d ++ [k], hk, Path.is_below_concat.mpr (List.prefix_refl d)⟩
  · exact Or.inl ⟨t.source, hsource, Path.is_below_of_ne hd.above hown⟩

/-- The domains of transitions of different active sources are apart when no node is exited by
both. -/
theorem apart_of_disjoint (hA : root.Complete A) (ht : t.source ∈ A) (hu : u.source ∈ A)
    (hsources : t.source ≠ u.source) (hd : root.Domain t d) (he : root.Domain u e)
    (hdisjoint : ∀ p ∈ A, p.isBelow d = true → p.isBelow e = false) : Apart d e := by
  constructor
  · intro hpre
    rcases exists_exit hA hu he with ⟨p, hp, hbelow⟩ | ⟨hroot, hall⟩
    · have hout := hdisjoint p hp (Path.is_below_trans hbelow hpre)
      rw [hbelow] at hout
      cases hout
    · exact hsources ((hall _ ht).trans hroot.symm)
  · intro hpre
    rcases exists_exit hA ht hd with ⟨p, hp, hbelow⟩ | ⟨hroot, hall⟩
    · have hout := hdisjoint p hp hbelow
      rw [Path.is_below_trans hbelow hpre] at hout
      cases hout
    · exact hsources (hroot.trans (hall _ hu).symm)

/-! ## Candidates -/

section

variable {root : Chart} {type : String} {active : List Path}
  {enabled : Transition → Except Error Bool}

/-- The candidates of a node are declared there or above. -/
theorem mem_candidates_from {p : Path} :
    t ∈ root.candidatesFrom type p ↔ ∃ q, q <+: p ∧ t ∈ root.declared type q := by
  simp only [candidatesFrom, List.mem_flatMap, Path.mem_self_or_ancestors]

/-- A candidate of a node is one of its transitions. -/
theorem mem_of_declared {q : Path} (ht : t ∈ root.declared type q) :
    ∃ a, root.get? q = some a ∧ ∃ e ∈ a.on, t ∈ e.2 := by
  unfold declared at ht
  cases ha : root.get? q with
  | none => simp [ha] at ht
  | some a =>
      rw [ha] at ht
      simp only [handlersFor] at ht
      split at ht
      · rename_i e he
        exact ⟨a, rfl, e, List.mem_of_find?_eq_some he, ht⟩
      · cases ht

/-- The candidates of a node that declares some for one type only. -/
theorem handlers_for_singleton (type type' : String) (ts : List Transition) :
    handlersFor [(.text type', ts)] type = if type = type' then ts else [] := by
  by_cases heq : type = type'
  · simp [handlersFor, Value.text?, heq]
  · simp [handlersFor, Value.text?, heq, Ne.symm heq]

/-- A candidate on the way from a node to the root is a transition of the chart. -/
theorem mem_transitions_of_candidate (hwf : root.WellFormed) {p : Path}
    (ht : t ∈ root.candidatesFrom type p) : t ∈ root.transitions := by
  obtain ⟨q, -, ht⟩ := mem_candidates_from.mp ht
  obtain ⟨a, ha, e, he, ht⟩ := mem_of_declared ht
  exact (mem_transitions hwf).mpr ⟨q, a, ha, e, he, ht⟩

/-- The first enabled candidate is one of the candidates. -/
theorem mem_of_first_enabled {ts : List Transition}
    (h : firstEnabled enabled ts = .ok (some t)) : t ∈ ts := by
  induction ts with
  | nil => cases h
  | cons u ts ih =>
      obtain ⟨b, -, h⟩ := bind_eq_ok.mp h
      cases b with
      | true =>
          obtain rfl : u = t := by simpa [pure_eq_ok] using h
          exact List.mem_cons_self
      | false => exact List.mem_cons_of_mem _ (ih h)

/-- The search for an enabled candidate ends when the guards of all candidates return. -/
theorem first_enabled_eq_ok {ts : List Transition}
    (hguards : ∀ t ∈ ts, ∃ b, enabled t = .ok b) :
    ∃ found, firstEnabled enabled ts = .ok found := by
  induction ts with
  | nil => exact ⟨none, rfl⟩
  | cons t ts ih =>
      obtain ⟨b, hb⟩ := hguards t List.mem_cons_self
      obtain ⟨found, hfound⟩ := ih fun u hu => hguards u (List.mem_cons_of_mem _ hu)
      cases b with
      | true => exact ⟨some t, by simp [firstEnabled, hb]⟩
      | false => exact ⟨found, by simp [firstEnabled, hb, hfound]⟩

/-! ## Selection -/

/-- Whether two transitions can be taken together: they have different sources, and no node is
exited by both. -/
def Compatible (root : Chart) (active : List Path) (t u : Transition) : Prop :=
  t.source ≠ u.source ∧ ∀ p ∈ root.exitsOf active t, p ∉ root.exitsOf active u

instance (root : Chart) (active : List Path) : Std.Symm (root.Compatible active) where
  symm := fun _ _ h => ⟨h.1.symm, fun p hp hp' => h.2 p hp' hp⟩

/-- Transitions that are candidates of active nodes and can be taken together. -/
structure Chosen (root : Chart) (type : String) (active : List Path) (ts : List Transition) :
    Prop where
  candidates : ∀ t ∈ ts, ∃ p ∈ active, t ∈ root.candidatesFrom type p
  compatible : ts.Pairwise (root.Compatible active)

/-- Chosen transitions belong to the chart. -/
theorem Chosen.mem_transitions (hwf : root.WellFormed) {ts : List Transition}
    (hts : root.Chosen type active ts) (ht : t ∈ ts) : t ∈ root.transitions := by
  obtain ⟨p, -, hcandidate⟩ := hts.candidates t ht
  exact mem_transitions_of_candidate hwf hcandidate

/-- Transitions of a selection, with the nodes that they exit. -/
structure Selection.Sound (root : Chart) (type : String) (active : List Path) (s : Selection) :
    Prop extends Chosen root type active s.taken where
  exited : s.exited = s.taken.flatMap (root.exitsOf active)

/-- A candidate is left out because one of its source is there or because it would exit a node that
is exited already, or else it is added. -/
theorem Selection.add_cases (root : Chart) (active : List Path) (s : Selection) (t : Transition) :
    ((∃ u ∈ s.taken, u.source = t.source) ∧ s.add root active t = s) ∨
    ((∃ p ∈ root.exitsOf active t, p ∈ s.exited) ∧ s.add root active t = s) ∨
    ((∀ u ∈ s.taken, u.source ≠ t.source) ∧ (∀ p ∈ root.exitsOf active t, p ∉ s.exited) ∧
      s.add root active t = ⟨s.taken ++ [t], s.exited ++ root.exitsOf active t⟩) := by
  by_cases hsource : ∃ u ∈ s.taken, u.source = t.source
  · exact Or.inl ⟨hsource, if_pos (by simpa using hsource)⟩
  · have hother : (s.taken.any fun u => u.source == t.source) = false := by simpa using hsource
    by_cases hexits : ∃ p ∈ root.exitsOf active t, p ∈ s.exited
    · refine Or.inr (Or.inl ⟨hexits, ?_⟩)
      simp only [add, hother, Bool.false_eq_true, if_false]
      exact if_pos (by simpa using hexits)
    · have hnone : ((root.exitsOf active t).any fun p => s.exited.contains p) = false := by
        simpa using hexits
      refine Or.inr (Or.inr ⟨by simpa using hsource, by simpa using hexits, ?_⟩)
      simp only [add, hother, hnone, Bool.false_eq_true, if_false]

/-- Adding a candidate keeps a selection sound. -/
theorem Selection.Sound.add {s : Selection} (hs : s.Sound root type active) {p : Path}
    (hp : p ∈ active) (ht : t ∈ root.candidatesFrom type p) :
    (s.add root active t).Sound root type active := by
  rcases s.add_cases root active t with ⟨-, heq⟩ | ⟨-, heq⟩ | ⟨hsource, hexits, heq⟩
  · rwa [heq]
  · rwa [heq]
  · have hcompatible : ∀ u ∈ s.taken, root.Compatible active u t := fun u hu =>
      ⟨hsource u hu, fun q hqu hqt =>
        hexits q hqt (hs.exited ▸ List.mem_flatMap.mpr ⟨u, hu, hqu⟩)⟩
    rw [heq]
    refine ⟨⟨fun u hu => ?_, ?_⟩, by simp [hs.exited]⟩
    · rcases List.mem_append.mp hu with hu | hu
      · exact hs.candidates u hu
      · obtain rfl := List.mem_singleton.mp hu
        exact ⟨p, hp, ht⟩
    · refine List.pairwise_append.mpr ⟨hs.compatible, List.pairwise_singleton _ _, ?_⟩
      intro u hu v hv
      obtain rfl := List.mem_singleton.mp hv
      exact hcompatible u hu

/-- Going through active nodes keeps a selection sound. -/
theorem Selection.Sound.select_from {leaves : List Path} {s s' : Selection}
    (hs : s.Sound root type active) (hleaves : ∀ p ∈ leaves, p ∈ active)
    (h : root.selectFrom enabled type active leaves s = .ok s') : s'.Sound root type active := by
  induction leaves generalizing s with
  | nil =>
      obtain rfl : s = s' := by simpa [selectFrom] using h
      exact hs
  | cons p leaves ih =>
      obtain ⟨hp, hleaves⟩ := List.forall_mem_cons.mp hleaves
      obtain ⟨found, hfound, h⟩ := bind_eq_ok.mp h
      cases found with
      | none => exact ih hs hleaves h
      | some t => exact ih (hs.add hp (mem_of_first_enabled hfound)) hleaves h

/-- Selected transitions are candidates of active nodes and can be taken together. -/
theorem chosen_of_select {ts : List Transition} (h : root.select enabled type active = .ok ts) :
    root.Chosen type active ts := by
  obtain ⟨s, hs, h⟩ := bind_eq_ok.mp h
  obtain rfl := Except.ok.inj h
  have hempty : Selection.Sound root type active ⟨[], []⟩ :=
    ⟨⟨by simp, List.Pairwise.nil⟩, rfl⟩
  refine (hempty.select_from (fun p hp => ?_) hs).toChosen
  have hordered := (List.mem_filter.mp hp).1
  simpa using (List.mem_filter.mp hordered).2

/-- Going through nodes ends when an enabled candidate is searched for at each of them. -/
theorem select_from_eq_ok {leaves : List Path}
    (hfound : ∀ p ∈ leaves, ∃ found, firstEnabled enabled (root.candidatesFrom type p) = .ok found)
    (s : Selection) : ∃ s', root.selectFrom enabled type active leaves s = .ok s' := by
  induction leaves generalizing s with
  | nil => exact ⟨s, rfl⟩
  | cons p leaves ih =>
      obtain ⟨hp, hleaves⟩ := List.forall_mem_cons.mp hfound
      obtain ⟨found, hfound⟩ := hp
      cases found with
      | none =>
          obtain ⟨s', hs'⟩ := ih hleaves s
          exact ⟨s', by simp [selectFrom, hfound, hs']⟩
      | some t =>
          obtain ⟨s', hs'⟩ := ih hleaves (s.add root active t)
          exact ⟨s', by simp [selectFrom, hfound, hs']⟩

/-- Transitions are selected when the guards of all transitions return. -/
theorem select_eq_ok (hwf : root.WellFormed)
    (hguards : ∀ t ∈ root.transitions, ∃ b, enabled t = .ok b) (type : String)
    (active : List Path) : ∃ ts, root.select enabled type active = .ok ts := by
  have hfound : ∀ p ∈ root.leaves active, ∃ found,
      firstEnabled enabled (root.candidatesFrom type p) = .ok found := by
    intro p hp
    exact first_enabled_eq_ok fun t ht => hguards t (mem_transitions_of_candidate hwf ht)
  obtain ⟨s, hs⟩ : ∃ s, root.selectFrom enabled type active (root.leaves active) ⟨[], []⟩ = .ok s :=
    select_from_eq_ok hfound ⟨[], []⟩
  exact ⟨s.taken, by simp [select, hs]⟩

/-- Without candidates nothing is selected. -/
theorem select_eq_nil (hnone : ∀ p ∈ root.leaves active, root.candidatesFrom type p = []) :
    root.select enabled type active = .ok [] := by
  have hfrom : ∀ leaves : List Path, (∀ p ∈ leaves, root.candidatesFrom type p = []) →
      root.selectFrom enabled type active leaves ⟨[], []⟩ = .ok ⟨[], []⟩ := by
    intro leaves hleaves
    induction leaves with
    | nil => rfl
    | cons p leaves ih =>
        obtain ⟨hp, hleaves⟩ := List.forall_mem_cons.mp hleaves
        rw [selectFrom, hp]
        exact ih hleaves
  rw [select, hfrom _ hnone]
  rfl

/-- From one active atomic node the first enabled candidate on the way to the root is selected. -/
theorem select_of_leaf {leaf : Path} (hleaves : root.leaves active = [leaf]) :
    root.select enabled type active =
      (firstEnabled enabled (root.candidatesFrom type leaf)).map Option.toList := by
  rw [select, hleaves]
  cases hfound : firstEnabled enabled (root.candidatesFrom type leaf) with
  | error e => simp [selectFrom, hfound, Except.map]
  | ok t =>
      cases t with
      | none => simp [selectFrom, hfound, Except.map]
      | some t => simp [selectFrom, hfound, Selection.add, Except.map]

end

end Tree

end Statechart
