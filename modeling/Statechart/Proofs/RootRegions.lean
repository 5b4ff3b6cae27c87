import Statechart.Proofs.Legality

/-!
# Moves below a parallel root

A transition that moves below a parallel root exits every region, but enters only the one that its
target lies in. Read `mem_active_after_below_root` first. The answer is therefore legal exactly when
there is no other region, by `legal_iff_single_region`; `lost_region` is a machine that has no
answer.
-/

namespace Statechart

namespace Tree

variable {τ : Type} {root : Tree (Node τ)}

/-- The first key on the way to a node is that of a child. -/
theorem child_of_at {k : String} {ks : Path} (h : (root.at? (k :: ks)).isSome) :
    ∃ t, root.children.lookup k = some t := by
  rcases root with ⟨a, cs⟩
  obtain ⟨s, hs⟩ := Option.isSome_iff_exists.mp h
  obtain ⟨t, ht, -⟩ := Option.bind_eq_some_iff.mp (at_cons a cs k ks ▸ hs)
  exact ⟨t, ht⟩

/-- A node has a single child when all its children have the same key. -/
theorem length_children_eq_one (hwf : root.WellFormed) {k : String} {t : Tree (Node τ)}
    (hk : root.children.lookup k = some t) :
    root.children.length = 1 ↔ ∀ l, (root.at? [l]).isSome → l = k := by
  rcases root with ⟨a, cs⟩
  have hat : ∀ l, ((Tree.node a cs).at? [l]).isSome ↔ ∃ s, (l, s) ∈ cs := by
    intro l
    simp [at_cons, ← hwf.lookup, Option.isSome_iff_exists]
  have hmem : (k, t) ∈ cs := hwf.lookup.mp hk
  show cs.length = 1 ↔ _
  constructor
  · intro hlen l hl
    obtain ⟨s, hs⟩ := (hat l).mp hl
    obtain ⟨c, rfl⟩ := List.length_eq_one_iff.mp hlen
    rw [List.mem_singleton] at hmem hs
    exact congrArg Prod.fst (hs.trans hmem.symm)
  · intro hall
    have hkeys := hwf.keys
    cases cs with
    | nil => cases hmem
    | cons c cs =>
        cases cs with
        | nil => rfl
        | cons d cs =>
            have hc : c.1 = k := hall c.1 ((hat _).mpr ⟨c.2, by simp⟩)
            have hd : d.1 = k := hall d.1 ((hat _).mpr ⟨d.2, by simp⟩)
            simp [hc, hd] at hkeys

end Tree

namespace Machine

variable {m : Machine} {h : Host} {start : Identity} {state event context : Value} {A : Set Path}
  {active : List Path} {ts : List Transition} {t : Transition}

/-- After a transition that moves below the root, the root is active and what the transition
enters. -/
theorem mem_active_after_below_root (hwf : m.WellFormed) (hA : m.root.Complete A)
    (hmem : ∀ p, p ∈ active ↔ p ∈ A) {type : String} (hts : m.root.Chosen type active ts)
    (ht : t ∈ ts) (hd : m.root.domain? t = some []) (p : Path) :
    p ∈ m.activeAfter active ts ↔ p = [] ∨ p ∈ m.root.entriesOf t := by
  by_cases hroot : p = []
  · subst hroot
    exact iff_of_true (nil_mem_active_after ((hmem []).mpr hA.root_mem)) (Or.inl rfl)
  · rw [mem_active_after_below hwf hA hmem hts ht hd (Path.is_below_nil.mpr hroot)]
    simp [hroot]

/-- After a transition that moves below the root to a target, the root is active and what starting
at the target activates in the child that it lies in. -/
theorem mem_active_after_region (hwf : m.WellFormed) (hA : m.root.Complete A)
    (hmem : ∀ p, p ∈ active ↔ p ∈ A) {type : String} (hts : m.root.Chosen type active ts)
    (ht : t ∈ ts) (hd : m.root.domain? t = some []) {k : String} {ks : Path}
    (htargets : t.targets = [k :: ks]) (p : Path) :
    p ∈ m.activeAfter active ts ↔ p = [] ∨ [k] <+: p ∧ p ∈ m.root.startAt (k :: ks) := by
  have hq : (m.root.at? (k :: ks)).isSome :=
    known_of_chosen hwf hts ht _ (by simp [htargets])
  have hentries : m.root.entriesOf t = m.root.entrySet [] [[] ++ k :: ks] := by
    simp [Tree.entriesOf, hd, htargets]
  rw [mem_active_after_below_root hwf hA hmem hts ht hd, hentries,
    Tree.mem_entry_set_singleton hwf.root hq]
  rfl

/-- The configuration after a transition that moves below a parallel root is legal exactly when the
root has a single child. -/
theorem legal_below_root_iff (hwf : m.WellFormed) (hroot : m.root.kind? [] = some .parallel)
    {k : String} {ks : Path} (hq : (m.root.at? (k :: ks)).isSome) {active' : List Path}
    (hafter : ∀ p, p ∈ active' ↔ p = [] ∨ [k] <+: p ∧ p ∈ m.root.startAt (k :: ks)) :
    m.root.Legal {p | p ∈ active'} ↔ m.root.children.length = 1 := by
  obtain ⟨s, hs⟩ := Tree.child_of_at hq
  rw [Tree.length_children_eq_one hwf.root hs]
  constructor
  · intro hlegal l hl
    -- Every child of the root is active, and all that is active lies at or below `[k]`.
    have hactive := (hafter [l]).mp (hlegal.parallel [] hlegal.root_mem hroot l hl)
    have hkl : k = l ∧ [l] ∈ m.root.startAt (k :: ks) := by simpa using hactive
    exact hkl.1.symm
  · intro hsingle
    have hstart := Tree.legal_start_at hwf.root hq
    have heq : {p | p ∈ active'} = {p | p ∈ m.root.startAt (k :: ks)} := by
      ext p
      rw [Set.mem_ofPred_eq, hafter]
      cases p with
      | nil => exact iff_of_true (Or.inl rfl) hstart.root_mem
      | cons l ls =>
          have hl : (l :: ls) ∈ m.root.startAt (k :: ks) → k = l := by
            intro hp
            have hknown := Tree.at_isSome_above (hstart.known _ hp) (q := [l]) (by simp)
            exact (hsingle l hknown).symm
          simpa using hl
    exact heq ▸ hstart

/-- A transition that moves below a parallel root, but not to the root, has a legal answer exactly
when the root has a single child. -/
theorem legal_answer_iff_single_region {config : Value} (hconfig : config.wellFormed = true)
    (hm : define config = .ok m) (hroot : m.root.kind? [] = some .parallel)
    (hA : m.root.Legal A) (hstate : m.Denotes A state) (hinit : Event.isInit event = false)
    (hts : m.selected h start state event context = .ok (active, ts)) (ht : t ∈ ts)
    (hd : m.root.domain? t = some []) {q : Path} (htargets : t.targets = [q]) (hq : q ≠ []) :
    (∃ s B, m.transition h start state event context = .ok s ∧ m.Denotes B s ∧
      m.root.Legal B ∧ q ∈ B) ↔ m.root.children.length = 1 := by
  have hwf := well_formed_of_define hconfig hm
  obtain ⟨hmem, type, hchosen⟩ := of_selected hwf hA.toComplete hstate hts
  obtain ⟨k, ks, rfl⟩ := List.exists_cons_of_ne_nil hq
  have hknown : (m.root.at? (k :: ks)).isSome :=
    known_of_chosen hwf hchosen ht _ (by simp [htargets])
  have hstart := Tree.legal_start_at hwf.root hknown
  have hafter := mem_active_after_region hwf hA.toComplete hmem hchosen ht hd htargets
  have hiff := legal_below_root_iff hwf hroot hknown hafter
  rw [← hiff, transition_eq hinit, hts, ok_bind]
  constructor
  · intro hanswer
    obtain ⟨s, B, hs, hB, hlegal, -⟩ := hanswer
    have hnodes : ∀ p ∈ m.activeAfter active ts, (m.root.at? p).isSome := by
      intro p hp
      rcases (hafter p).mp hp with rfl | ⟨-, hp⟩
      · simp
      · exact hstart.known p hp
    have heq := Denotes.unique hwf (denotes_of_control hwf hnodes hs) hB
      ((hafter []).mpr (Or.inl rfl)) hlegal.root_mem hnodes hlegal.known
    exact heq ▸ hlegal
  · intro hlegal
    obtain ⟨s, hs, hdenotes⟩ := denotes_of_complete hwf hlegal.toComplete
      (m.actionsOf active ts) !ts.isEmpty
    refine ⟨s, _, hs, hdenotes, hlegal, (hafter _).mpr (Or.inr ⟨by simp, ?_⟩)⟩
    exact Tree.self_mem_start_at hwf.root hknown

/-! ## A lost region -/

/-- The fault that a computation ends with. -/
def faultOf (x : Except Error Value) : Option Fault :=
  match x with
  | .error (.fault f) => some f
  | _ => none

theorem eq_error_of_fault {x : Except Error Value} {f : Fault} (h : faultOf x = some f) :
    x = .error (.fault f) := by
  unfold faultOf at h
  split at h
  · rw [Option.some.inj h]
  · cases h

/-- The configuration of two lamps side by side, of which the left one can be reset from outside. -/
def lampsConfig : Value :=
  let lamp (on : List (String × Value)) : Value := .table
    [("initial", .text "off"), ("on", .table on),
      ("states", .table [("off", .table []), ("lit", .table [])])]
  .table
    [("id", .text "lamps"), ("type", .text "parallel"),
      ("states", .table [("left", lamp [("RESET", .text "left.lit")]), ("right", lamp [])])]

/-- The reset of the left lamp moves below the root. -/
theorem lamps_reset : ∃ m s active ts t, define lampsConfig = .ok m ∧
    m.root.kind? [] = some .parallel ∧ m.initialState = .ok s ∧
    m.selected Examples.host ⟨1, 0, 0⟩ s (.text "RESET") .null = .ok (active, ts) ∧ t ∈ ts ∧
    m.root.domain? t = some [] ∧ t.targets = [["left", "lit"]] ∧
    m.root.children.length = 2 ∧
    m.control (m.activeAfter active ts) (m.actionsOf active ts) (!ts.isEmpty) =
      .error (.fault .noActiveChild) := by
  obtain ⟨m, hm, hcheck⟩ := exists_of_any (x := define lampsConfig) (P := fun m =>
      m.root.kind? [] == some .parallel && m.root.children.length == 2 &&
        m.initialState.toOption.any fun s =>
          (m.selected Examples.host ⟨1, 0, 0⟩ s (.text "RESET") .null).toOption.any fun x =>
            x.2.any (fun t => m.root.domain? t == some [] && t.targets == [["left", "lit"]]) &&
              faultOf (m.control (m.activeAfter x.1 x.2) (m.actionsOf x.1 x.2) (!x.2.isEmpty)) ==
                some .noActiveChild)
    (by decide +kernel)
  simp only [Bool.and_eq_true, beq_iff_eq] at hcheck
  obtain ⟨⟨hkind, hlen⟩, hcheck⟩ := hcheck
  obtain ⟨s, hs, hcheck⟩ := exists_of_any hcheck
  obtain ⟨⟨active, ts⟩, hts, hcheck⟩ := exists_of_any hcheck
  simp only [Bool.and_eq_true, List.any_eq_true, beq_iff_eq] at hcheck
  obtain ⟨⟨t, ht, hd, htargets⟩, hcheck⟩ := hcheck
  exact ⟨m, s, active, ts, t, hm, hkind, hs, hts, ht, hd, htargets, hlen, eq_error_of_fault hcheck⟩

/-- The answer to the reset of a lamp is not legal, since there are two lamps. -/
theorem lamps_reset_not_legal : ∃ m s t, define lampsConfig = .ok m ∧
    m.root.kind? [] = some .parallel ∧ m.initialState = .ok s ∧ m.LegalState s ∧
    m.root.domain? t = some [] ∧ t.targets = [["left", "lit"]] ∧
    ¬ ∃ s' B, m.transition Examples.host ⟨1, 0, 0⟩ s (.text "RESET") .null = .ok s' ∧
      m.Denotes B s' ∧ m.root.Legal B ∧ ["left", "lit"] ∈ B := by
  obtain ⟨m, s, active, ts, t, hm, hkind, hs, hts, ht, hd, htargets, hlen, -⟩ := lamps_reset
  have hconfig : lampsConfig.wellFormed = true := by decide +kernel
  have hwf := well_formed_of_define hconfig hm
  have hlegal := Tree.legal_defaults hwf.root
  have hdenotes := denotes_of_initial hwf hs
  refine ⟨m, s, t, hm, hkind, hs, ⟨_, hlegal, hdenotes⟩, hd, htargets, fun hanswer => ?_⟩
  have hone := (legal_answer_iff_single_region hconfig hm hkind hlegal hdenotes rfl hts ht hd
    htargets (by simp)).mp hanswer
  omega

/-- A machine with a parallel root has no answer to an event that moves below the root. -/
theorem lost_region : ∃ m s active ts t, define lampsConfig = .ok m ∧
    m.root.kind? [] = some .parallel ∧ m.initialState = .ok s ∧ m.LegalState s ∧
    m.selected Examples.host ⟨1, 0, 0⟩ s (.text "RESET") .null = .ok (active, ts) ∧ t ∈ ts ∧
    m.root.domain? t = some [] ∧ t.targets = [["left", "lit"]] ∧
    m.transition Examples.host ⟨1, 0, 0⟩ s (.text "RESET") .null =
      .error (.fault .noActiveChild) := by
  obtain ⟨m, s, active, ts, t, hm, hkind, hs, hts, ht, hd, htargets, -, herror⟩ := lamps_reset
  have hwf := well_formed_of_define (by decide +kernel) hm
  refine ⟨m, s, active, ts, t, hm, hkind, hs, legal_initial hwf hs, hts, ht, hd, htargets, ?_⟩
  rw [transition_eq rfl, hts, ok_bind, herror]

end Machine

end Statechart
