import Statechart.Proofs.ActionOrder

/-!
# Regions move on their own

A step whose transitions move inside a compound node changes nothing outside it, however deep inside
they lead and whatever is nested there; the other regions of a parallel node above it stay as they
are. Read `Transition.Inside` first. The search for a domain does not pass the node, by
`prefix_of_inside`; `region_isolated` is the statement about a step and its actions.
-/

namespace Statechart

/-- A transition moves inside a node when it leads to nodes below it, and from below it or, if it is
internal, from the node itself. -/
structure Transition.Inside (t : Transition) (r : Path) : Prop where
  source : t.source.isBelow r = true ∨ t.source = r ∧ t.internal = true
  targets : ∀ q ∈ t.targets, q.isBelow r = true

instance (t : Transition) (r : Path) : Decidable (t.Inside r) :=
  decidable_of_iff
    ((t.source.isBelow r = true ∨ t.source = r ∧ t.internal = true) ∧
      ∀ q ∈ t.targets, q.isBelow r = true)
    ⟨fun h => ⟨h.1, h.2⟩, fun h => ⟨h.source, h.targets⟩⟩

/-- A transition that moves inside a node does not lead to the root. -/
theorem Transition.Inside.nil_not_target {t : Transition} {r : Path} (h : t.Inside r) :
    [] ∉ t.targets := by
  intro hmem
  simpa [Path.isBelow] using h.targets [] hmem

namespace Tree

variable {τ : Type} {root : Tree (Node τ)} {t : Transition} {r d : Path}

/-- A transition that moves inside a compound node has its domain there or below. -/
theorem prefix_of_inside (hr : root.kind? r = some .compound) (ht : t.Inside r)
    (hd : root.domain? t = some d) : r <+: d := by
  -- The node passes the test for a domain, so the nearest one that does is not above it.
  have hfits : root.fits t r = true := fits_iff.mpr ⟨Or.inr (by simp [hr]), ht.targets⟩
  have hbelow : ¬ root.StaysInside t → t.source.isBelow r = true := by
    intro hout
    refine ht.source.resolve_right fun hself => hout ?_
    obtain ⟨rfl, hinternal⟩ := hself
    exact ⟨hinternal, hr, ht.targets⟩
  obtain ⟨-, ⟨-, rfl⟩ | ⟨hout, hfind⟩ | ⟨hout, hfind, -⟩⟩ := domain_cases hd
  · rcases ht.source with hsource | ⟨rfl, -⟩
    · exact (Path.is_below_iff_ne.mp hsource).1
    · exact List.prefix_refl _
  · exact Path.prefix_of_find_ancestors hfind (hbelow hout) hfits
  · have hmem := Path.mem_ancestors.mpr (hbelow hout)
    exact absurd hfits (List.find?_eq_none.mp hfind r hmem)

/-- A transition that moves inside a compound node is proper. -/
theorem proper_of_inside (hr : root.kind? r = some .compound) (ht : t.Inside r)
    (hd : root.domain? t = some d) : root.Proper t d := by
  have hdomain := domain_of_eq_some hd
  refine Or.inr ⟨fun hkind => ?_, hdomain.targets_below ht.nil_not_target⟩
  rcases hdomain.kind with rfl | hnot
  · have heq : r = [] := List.prefix_nil.mp (prefix_of_inside hr ht hd)
    rw [← heq, hr] at hkind
    cases hkind
  · exact hnot hkind

end Tree

namespace Machine

variable {m : Machine} {h : Host} {start : Identity} {state event context : Value}
  {active : List Path} {ts : List Transition} {r : Path}

/-- What is exited and entered by transitions that move inside a compound node lies below it. -/
theorem Schedule.below_of_inside (hwf : m.WellFormed) {exited entered : List Path}
    (hs : m.Schedule active ts exited entered) (hr : m.root.kind? r = some .compound)
    (hinside : ∀ t ∈ ts, t.targets ≠ [] → t.Inside r) :
    ∀ p ∈ exited ++ entered, p.isBelow r = true := by
  have habove : ∀ t ∈ ts, ∀ d, m.root.domain? t = some d → t.Inside r ∧ r <+: d := by
    intro t ht d hd
    have hin := hinside t ht (Tree.domain_of_eq_some hd).targeted
    exact ⟨hin, Tree.prefix_of_inside hr hin hd⟩
  intro p hp
  rcases List.mem_append.mp hp with hp | hp
  · obtain ⟨-, t, ht, d, hd, hbelow⟩ := (hs.exits p).mp hp
    exact Path.is_below_trans hbelow (habove t ht d hd).2
  · obtain ⟨t, ht, hp⟩ := (hs.enters p).mp hp
    cases hd : m.root.domain? t with
    | none => simp [Tree.entriesOf, hd] at hp
    | some d =>
        obtain ⟨hin, hpre⟩ := habove t ht d hd
        have hbelow := Tree.below_of_mem_entries hwf.root hd hin.nil_not_target hp
        exact Path.is_below_trans hbelow hpre

/-- When all transitions that are selected and have targets move inside a compound node, there is an
answer in which the same nodes are active outside it as before, and all nodes whose exit and entry
actions come with the answer lie inside. The node may be a region of any parallel node, and there
may be other parallel nodes inside. -/
theorem region_isolated {config : Value} (hconfig : config.wellFormed = true)
    (hm : define config = .ok m) (hinit : Event.isInit event = false)
    (hts : m.selected h start state event context = .ok (active, ts))
    (hactive : m.root.Legal {p | p ∈ active}) (hr : m.root.kind? r = some .compound)
    (hinside : ∀ t ∈ ts, t.targets ≠ [] → t.Inside r) :
    ∃ s B exited entered value configuration,
      m.transition h start state event context = .ok s ∧ m.Denotes B s ∧
      (∀ p : Path, p.isBelow r = false → (p ∈ B ↔ p ∈ active)) ∧
      m.Schedule active ts exited entered ∧
      s = .state value configuration (.tuple (m.exitActions exited ++
        ts.flatMap Transition.actions ++ m.entryActions entered)) (!ts.isEmpty) ∧
      ∀ p ∈ exited ++ entered, p.isBelow r = true := by
  have hwf := well_formed_of_define hconfig hm
  obtain ⟨type, hchosen⟩ := chosen_of_selected hts
  have hproper : ∀ t ∈ ts, ∀ d, m.root.domain? t = some d → m.root.Proper t d := by
    intro t ht d hd
    exact Tree.proper_of_inside hr (hinside t ht (Tree.domain_of_eq_some hd).targeted) hd
  obtain ⟨-, hcomplete⟩ :=
    complete_active_after hwf hactive.toComplete (fun _ => Iff.rfl) hchosen hproper
  obtain ⟨exited, entered, hschedule, hactions⟩ := exists_schedule hwf hactive.known hchosen
  have hbelow := hschedule.below_of_inside hwf hr hinside
  obtain ⟨s, hs, hdenotes⟩ := exists_answer hwf hinit hts hcomplete
  obtain ⟨value, configuration, hstate⟩ := eq_state_of_transition hinit hts hs
  rw [hactions] at hstate
  refine ⟨s, _, exited, entered, value, configuration, hs, hdenotes, fun p hp => ?_, hschedule,
    hstate, hbelow⟩
  have hkept : p ∉ exited ++ entered := fun hmem => by simp [hbelow p hmem] at hp
  rw [List.mem_append, not_or] at hkept
  rw [Set.mem_ofPred_eq, hschedule.mem_active_after]
  simp [hkept]

/-- The configuration of a desk with a lamp and a radio. Tuning leads into the channels of the radio
and makes the lamp flicker. -/
def deskConfig : Value :=
  let channel : Value := .table
    [("initial", .text "quiet"), ("states", .table [("quiet", .null), ("loud", .null)])]
  .table
    [("id", .text "desk"), ("type", .text "parallel"),
      ("states", .table
        [("lamp", .table
            [("initial", .text "off"), ("exit", .text "unplug"),
              ("on", .table [("TUNE", .table [("actions", .text "flicker")])]),
              ("states", .table [("off", .null), ("lit", .table [("exit", .text "dim")])])]),
          ("radio", .table
            [("initial", .text "idle"), ("exit", .text "unplug"),
              ("on", .table [("TUNE", .text ".playing.right.loud")]),
              ("states", .table
                [("idle", .null),
                  ("playing", .table
                    [("type", .text "parallel"),
                      ("states", .table [("left", channel), ("right", channel)])])])])])]

/-- Tuning the radio keeps the lamp lit, while one of the channels of the radio becomes loud. -/
theorem desk_lamp_isolated : ∃ m active ts s B, define deskConfig = .ok m ∧
    m.root.kind? [] = some .parallel ∧ m.root.kind? ["radio"] = some .compound ∧
    m.selected Examples.host ⟨1, 0, 0⟩ (.text "lamp.lit") (.text "TUNE") .null =
      .ok (active, ts) ∧ ts.length = 2 ∧
    m.transition Examples.host ⟨1, 0, 0⟩ (.text "lamp.lit") (.text "TUNE") .null = .ok s ∧
    m.Denotes B s ∧ ["lamp", "lit"] ∈ B ∧ isActive s "radio.playing.right.loud" = true := by
  obtain ⟨m, hm, hcheck⟩ := exists_of_any (x := define deskConfig) (P := fun m =>
      m.root.kind? [] == some .parallel && m.root.kind? ["radio"] == some .compound &&
        ((m.selected Examples.host ⟨1, 0, 0⟩ (.text "lamp.lit") (.text "TUNE") .null).toOption.any
          fun x => x.2.length == 2 && x.1.contains ["lamp", "lit"] &&
            x.2.all fun t => t.targets.isEmpty || decide (t.Inside ["radio"])) &&
        (m.transition Examples.host ⟨1, 0, 0⟩ (.text "lamp.lit") (.text "TUNE") .null).toOption.any
          fun s => isActive s "radio.playing.right.loud")
    (by decide +kernel)
  simp only [Bool.and_eq_true, beq_iff_eq] at hcheck
  obtain ⟨⟨⟨hroot, hradio⟩, hselected⟩, hanswer⟩ := hcheck
  obtain ⟨⟨active, ts⟩, hts, hselected⟩ := exists_of_any hselected
  obtain ⟨s, hs, hloud⟩ := exists_of_any hanswer
  simp only [Bool.and_eq_true, beq_iff_eq, List.contains_eq_mem, decide_eq_true_eq,
    List.all_eq_true, Bool.or_eq_true, List.isEmpty_iff] at hselected
  obtain ⟨⟨hlen, hlit⟩, hinside⟩ := hselected
  have hconfig : deskConfig.wellFormed = true := by decide +kernel
  have hactive := legal_of_text (well_formed_of_define hconfig hm) (select_of_selected hts).1
  obtain ⟨s', B, -, -, -, -, hs', hB, hsame, -⟩ :=
    region_isolated hconfig hm rfl hts hactive hradio
      fun t ht hne => (hinside t ht).resolve_left hne
  obtain rfl : s' = s := Except.ok.inj (hs'.symm.trans hs)
  exact ⟨m, active, ts, s', B, hm, hroot, hradio, hts, hlen, hs, hB,
    (hsame _ (by decide)).mpr hlit, hloud⟩

end Machine

end Statechart
