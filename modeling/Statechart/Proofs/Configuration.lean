import Statechart.Proofs.Definition
import Statechart.Proofs.Tree.Defaults

/-!
# Control states denote sets of nodes

`Machine.Denotes` relates a control state to the set of nodes that are active in it. Complete sets
have a control state by `denotes_of_complete`, and `active_nodes_of_denotes` reads the set back from
the dotted paths of its control state.
-/

namespace Statechart

namespace Tree

variable {τ : Type}

/-! ## The value of a complete set -/

/-- The paths inside a child are those that follow its key. -/
theorem mem_inside {k : String} {active : List Path} {p : Path} :
    p ∈ inside k active ↔ k :: p ∈ active := by
  simp only [inside, List.mem_filterMap]
  constructor
  · intro hmem
    obtain ⟨q, hq, h⟩ := hmem
    cases q with
    | nil => cases h
    | cons l q =>
        by_cases hl : l = k
        · subst hl
          obtain rfl : q = p := by simpa using h
          exact hq
        · simp [hl] at h
  · exact fun hp => ⟨k :: p, hp, by simp⟩

/-- A child is shown when one is active and all active ones can be shown. -/
theorem shown_child_eq_ok {active : List Path} {cs : List (String × Tree (Node τ))}
    (hactive : ∃ c ∈ cs, [c.1] ∈ active)
    (hshown : ∀ c ∈ cs, [c.1] ∈ active →
      ∃ v, c.2.shown (.text c.1) (inside c.1 active) = .ok v) :
    ∃ v, shownChild active cs = .ok v := by
  induction cs with
  | nil => simp at hactive
  | cons c cs ih =>
      rcases c with ⟨k, t⟩
      by_cases hk : [k] ∈ active
      · obtain ⟨v, hv⟩ := hshown (k, t) (by simp) hk
        cases hkind : t.value.kind <;>
          simp [shownChild, hk, hkind, hv]
      · obtain ⟨c, hc, hmem⟩ := hactive
        have hne : c ≠ (k, t) := fun heq => hk (by simpa [heq] using hmem)
        have hrest : c ∈ cs := by simpa [hne] using hc
        simpa [shownChild, hk] using
          ih ⟨c, hrest, hmem⟩ fun d hd => hshown d (List.mem_cons_of_mem _ hd)

/-- Regions are shown when all of them can be shown. -/
theorem shown_regions_eq_ok {active : List Path} {cs : List (String × Tree (Node τ))}
    (hshown : ∀ c ∈ cs, ∃ v, c.2.shown (.text c.1) (inside c.1 active) = .ok v) :
    ∃ es, shownRegions active cs = .ok es := by
  induction cs with
  | nil => exact ⟨[], rfl⟩
  | cons c cs ih =>
      rcases c with ⟨k, t⟩
      obtain ⟨v, hv⟩ := hshown (k, t) (by simp)
      obtain ⟨es, hes⟩ := ih fun d hd => hshown d (List.mem_cons_of_mem _ hd)
      cases hkind : t.value.kind <;>
        simp [shownRegions, hkind, hv, hes]

/-- A complete set has a value. -/
theorem Complete.shown_eq_ok {t : Tree (Node τ)} (hwf : t.WellFormed) {A : Set Path}
    (hA : t.Complete A) {active : List Path} (hmem : ∀ p, p ∈ active ↔ p ∈ A) (key : Value) :
    ∃ v, t.shown key active = .ok v := by
  induction t using node_induction generalizing A active key with
  | node a cs ih =>
      have hchild : ∀ c ∈ cs, [c.1] ∈ A →
          ∃ v, c.2.shown (.text c.1) (inside c.1 active) = .ok v := by
        rintro ⟨k, t⟩ hc hk
        have hlookup := hwf.lookup.mpr hc
        exact ih _ hc (hwf.child hlookup) (hA.child hlookup hk)
          (fun p => mem_inside.trans (hmem _)) _
      cases hkind : a.kind with
      | atomic => exact ⟨key, by simp [shown, hkind]⟩
      | compound =>
          obtain ⟨k, hk⟩ := hA.compound [] hA.root_mem (by simp [kind_nil, hkind])
          obtain ⟨s, hs⟩ := Option.isSome_iff_exists.mp (hA.known _ hk)
          obtain ⟨t, ht, -⟩ := Option.bind_eq_some_iff.mp (at_cons a cs k [] ▸ hs)
          have hshown := shown_child_eq_ok ⟨(k, t), hwf.lookup.mp ht, (hmem [k]).mpr hk⟩
            fun c hc hk => hchild c hc ((hmem _).mp hk)
          simpa [shown, hkind] using hshown
      | parallel =>
          have hall : ∀ c ∈ cs, [c.1] ∈ A := fun c hc =>
            hA.parallel [] hA.root_mem (by simp [kind_nil, hkind]) c.1
              (by simp [at_cons, hwf.lookup.mpr hc])
          obtain ⟨es, hes⟩ := shown_regions_eq_ok fun c hc => hchild c hc (hall c hc)
          exact ⟨.newTable es, by simp [shown, hkind, hes]⟩

end Tree

namespace Machine

/-! ## Control states -/

/-- A control state denotes a set of nodes: its value shows which of them are active, and its
configuration lists those below the root by their dotted paths, once each and in document order. -/
inductive Denotes (m : Machine) (A : Set Path) : Value → Prop where
  | intro {active paths : List Path} {value : Value} {actions : List Value} {changed : Bool}
      (mem : ∀ p, p ∈ active ↔ p ∈ A)
      (value_eq : m.root.shown m.id active = .ok value)
      (listed : ∀ p, p ∈ paths ↔ p ∈ A ∧ p ≠ [])
      (order : paths.Sublist m.root.paths)
      (nodup : (paths.map Path.dotted).Nodup) :
      Denotes m A
        (.state value (.tuple (paths.map fun p => .text p.dotted)) (.tuple actions) changed)

variable {m : Machine} {A : Set Path}

/-- A control state is made with the given actions and says whether anything changed. -/
theorem eq_state_of_control {active : List Path} {actions : List Value} {changed : Bool} {s : Value}
    (hs : m.control active actions changed = .ok s) :
    ∃ value configuration, s = .state value configuration (.tuple actions) changed := by
  obtain ⟨value, -, hs⟩ := bind_eq_ok.mp hs
  exact ⟨value, _, (Except.ok.inj hs).symm⟩

/-- The control state of a set of nodes denotes it. -/
theorem denotes_of_control (hwf : m.WellFormed) {active : List Path}
    (hknown : ∀ p ∈ active, (m.root.at? p).isSome) {actions : List Value} {changed : Bool}
    {s : Value} (hs : m.control active actions changed = .ok s) :
    m.Denotes {p | p ∈ active} s := by
  obtain ⟨value, hvalue, hs⟩ := bind_eq_ok.mp hs
  let paths := (m.root.ordered active).filter fun p => !p.isEmpty
  have hpaths : ∀ p, p ∈ paths ↔ p ∈ active ∧ p ≠ [] := by
    intro p
    have hp := hknown p
    simp only [paths, List.mem_filter, Tree.mem_ordered hwf.root]
    cases p <;> simp_all
  have horder : paths.Sublist m.root.paths :=
    List.filter_sublist.trans List.filter_sublist
  have hnodup : (paths.map Path.dotted).Nodup := by
    -- Keys have no dots, so different nodes are listed differently.
    refine ((Tree.nodup_paths hwf.root).sublist horder).map_on fun p hp q hq heq => ?_
    obtain ⟨hp, hpne⟩ := (hpaths p).mp hp
    obtain ⟨hq, hqne⟩ := (hpaths q).mp hq
    exact (Path.dotted_inj hpne hqne (hwf.root.dot_free (hknown p hp))
      (hwf.root.dot_free (hknown q hq))).mp heq
  have hdenotes : m.Denotes {p | p ∈ active}
      (.state value (.tuple (paths.map fun p => .text p.dotted)) (.tuple actions) changed) :=
    .intro (fun _ => Iff.rfl) hvalue hpaths horder hnodup
  have heq : s =
      .state value (.tuple (paths.map fun p => .text p.dotted)) (.tuple actions) changed := by
    rw [← Except.ok.inj hs, Tree.configuration, List.map_map]
    rfl
  exact heq ▸ hdenotes

/-- A complete set of nodes has a control state. -/
theorem denotes_of_complete (hwf : m.WellFormed) {active : List Path}
    (hA : m.root.Complete {p | p ∈ active}) (actions : List Value) (changed : Bool) :
    ∃ s, m.control active actions changed = .ok s ∧ m.Denotes {p | p ∈ active} s := by
  obtain ⟨value, hvalue⟩ := hA.shown_eq_ok hwf.root (fun _ => Iff.rfl) m.id
  have hs : m.control active actions changed = .ok (.state value
      (.tuple ((m.root.configuration active).map .text)) (.tuple actions) changed) := by
    simp [control, hvalue]
  exact ⟨_, hs, denotes_of_control hwf hA.known hs⟩

/-- The active nodes of a control state are those of the set that it denotes. -/
theorem active_nodes_of_denotes (hwf : m.WellFormed) (hroot : [] ∈ A)
    (hknown : ∀ p ∈ A, (m.root.at? p).isSome) {s : Value} (hs : m.Denotes A s) :
    ∃ active, m.activeNodes s = .ok active ∧ ∀ p, p ∈ active ↔ p ∈ A := by
  cases hs with
  | @intro active paths value actions changed _ _ listed _ _ =>
      have hkeys : (listedPaths (.tuple (paths.map fun p => .text p.dotted))).map Path.keysOf =
          paths := by
        have hmap : ∀ p ∈ paths, Path.keysOf p.dotted = p := fun p hp =>
          Path.keys_of_dotted ((listed p).mp hp).2
            (hwf.root.dot_free (hknown p ((listed p).mp hp).1))
        simpa [listedPaths, Value.elements?, Value.text?, List.filterMap_map, Function.comp_def]
          using List.map_congr_left hmap
      refine ⟨[] :: paths, by simp [activeNodes, hkeys], fun p => ?_⟩
      rw [List.mem_cons, listed]
      by_cases hp : p = []
      · simp [hp, hroot]
      · simp [hp]

/-- A control state denotes one set of nodes that has the root. -/
theorem Denotes.unique (hwf : m.WellFormed) {B : Set Path} {s : Value} (hA : m.Denotes A s)
    (hB : m.Denotes B s) (hrootA : [] ∈ A) (hrootB : [] ∈ B)
    (hknownA : ∀ p ∈ A, (m.root.at? p).isSome) (hknownB : ∀ p ∈ B, (m.root.at? p).isSome) :
    A = B := by
  obtain ⟨active, hactive, hmemA⟩ := active_nodes_of_denotes hwf hrootA hknownA hA
  obtain ⟨active', hactive', hmemB⟩ := active_nodes_of_denotes hwf hrootB hknownB hB
  obtain rfl : active = active' := Except.ok.inj (hactive.symm.trans hactive')
  exact Set.ext fun p => (hmemA p).symm.trans (hmemB p)

/-- A node that is active in a control state belongs to the set that it denotes. -/
theorem mem_of_is_active (hwf : m.WellFormed) (hknown : ∀ p ∈ A, (m.root.at? p).isSome) {s : Value}
    (hs : m.Denotes A s) {dotted : String} (hactive : isActive s dotted = true) :
    Path.keysOf dotted ∈ A := by
  cases hs with
  | @intro active paths value actions changed _ _ listed _ _ =>
      have hmem : dotted ∈ paths.map Path.dotted := by
        simpa [isActive, listedPaths, Value.elements?, Value.text?, List.filterMap_map,
          Function.comp_def] using hactive
      obtain ⟨p, hp, rfl⟩ := List.mem_map.mp hmem
      obtain ⟨hp, hne⟩ := (listed p).mp hp
      rwa [Path.keys_of_dotted hne (hwf.root.dot_free (hknown p hp))]

end Machine

end Statechart
