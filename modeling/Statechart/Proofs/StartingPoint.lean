import Statechart.Proofs.Legality

/-!
# Starting at a node and entering it

A chart may be started at a node, and a transition may lead to it. Both complete what is on the way
to the node, one from the root and the other from the domain of the transition. Read
`start_agrees_with_entry` first: below a compound node above the target the same nodes are active in
the end.
-/

namespace Statechart.Machine

variable {m : Machine} {active : List Path} {ts : List Transition} {t : Transition}
  {type : String} {n d p : Path}

/-- A transition that moves below a compound node is taken together with proper ones only. -/
theorem proper_of_compound_domain (hwf : m.WellFormed) (hactive : m.root.Complete {p | p ∈ active})
    (hts : m.root.Chosen type active ts) (ht : t ∈ ts) (hd : m.root.domain? t = some d)
    (hkind : m.root.kind? d = some .compound) (hbelow : ∀ q ∈ t.targets, q.isBelow d = true) :
    ∀ u ∈ ts, ∀ e, m.root.domain? u = some e → m.root.Proper u e :=
  proper_of_chosen hwf hactive (fun _ => Iff.rfl) hts ht hd (Or.inr ⟨by simp [hkind], hbelow⟩)

/-- Below a compound node that a transition moves below, the nodes are active afterwards that
starting at its only target activates. -/
theorem mem_active_after_target (hwf : m.WellFormed) (hactive : m.root.Complete {p | p ∈ active})
    (hts : m.root.Chosen type active ts) (ht : t ∈ ts) (hd : m.root.domain? t = some d)
    (hkind : m.root.kind? d = some .compound) (htargets : t.targets = [n])
    (hbelow : n.isBelow d = true) (hp : p.isBelow d = true) :
    p ∈ m.activeAfter active ts ↔ p ∈ m.root.startAt n := by
  have hn : (m.root.at? n).isSome := known_of_chosen hwf hts ht n (by simp [htargets])
  have hentries : m.root.entriesOf t = m.root.entrySet d [n] := by
    simp [Tree.entriesOf, hd, htargets]
  have hnot : m.root.kind? d ≠ some .parallel := by simp [hkind]
  rw [mem_active_after_below hwf hactive (fun _ => Iff.rfl) hts ht hd hp, hentries,
    Tree.mem_entry_set_below hwf.root hnot hn hbelow]
  exact and_iff_left hp

/-- Starting at the node that a dotted path leads to activates the node in a legal configuration.
Below a compound node above it, this is what is entered for the node as a target there; so whenever
a selected transition moves below that compound node to the target, the nodes that are active there
in the answer are those that starting at the target activates. -/
theorem start_agrees_with_entry {config : Value} (hconfig : config.wellFormed = true)
    (hm : define config = .ok m) (hn : m.locate n.dotted = .ok n) :
    ∃ started, m.activeNodes (.text n.dotted) = .ok started ∧
      m.root.Legal {p | p ∈ started} ∧ n ∈ started ∧
      ∀ d, n.isBelow d = true → m.root.kind? d = some .compound →
        (∀ p, p ∈ m.root.entrySet d [n] ↔ p ∈ started ∧ p.isBelow d = true) ∧
        ∀ (h : Host) (start : Identity) (state event context : Value) (active : List Path)
          (ts : List Transition) (t : Transition), Event.isInit event = false →
          m.selected h start state event context = .ok (active, ts) →
          m.root.Legal {p | p ∈ active} → t ∈ ts → m.root.domain? t = some d →
          t.targets = [n] →
          ∃ s B, m.transition h start state event context = .ok s ∧ m.Denotes B s ∧
            ∀ p : Path, p.isBelow d = true → (p ∈ B ↔ p ∈ started) := by
  have hwf := well_formed_of_define hconfig hm
  have hstart : m.activeNodes (.text n.dotted) = .ok (m.root.startAt n) := by
    simp [activeNodes, hn]
  obtain ⟨q, hq, hknown, -⟩ := active_nodes_of_text hstart
  obtain rfl : q = n := Except.ok.inj (hq.symm.trans hn)
  refine ⟨m.root.startAt q, hstart, Tree.legal_start_at hwf.root hknown,
    Tree.self_mem_start_at hwf.root hknown, fun d hbelow hkind => ⟨fun p => ?_, ?_⟩⟩
  · exact Tree.mem_entry_set_below hwf.root (by simp [hkind]) hknown hbelow
  · intro h start state event context active ts t hinit hts hactive ht hd htargets
    obtain ⟨type, hchosen⟩ := chosen_of_selected hts
    have hproper := proper_of_compound_domain hwf hactive.toComplete hchosen ht hd hkind
      (by simpa [htargets] using hbelow)
    obtain ⟨-, hcomplete⟩ :=
      complete_active_after hwf hactive.toComplete (fun _ => Iff.rfl) hchosen hproper
    obtain ⟨s, hs, hdenotes⟩ := exists_answer hwf hinit hts hcomplete
    refine ⟨s, _, hs, hdenotes, fun p hp => ?_⟩
    exact mem_active_after_target hwf hactive.toComplete hchosen ht hd hkind htargets hbelow hp

/-- The sound of the player is the same after a tick as after a start at its left channel. -/
theorem player_tick_agrees_with_start : ∃ m started s B, define playerConfig = .ok m ∧
    m.activeNodes (.text (Path.dotted ["on", "sound", "play", "left"])) = .ok started ∧
    m.transition Examples.host ⟨1, 0, 0⟩ (.text "on") (.text "TICK") .null = .ok s ∧
    m.Denotes B s ∧ ["on", "sound", "play", "left"] ∈ started ∧
    ∀ p : Path, p.isBelow ["on", "sound"] = true → (p ∈ B ↔ p ∈ started) := by
  obtain ⟨m, hm, hcheck⟩ := exists_of_any (x := define playerConfig) (P := fun m =>
      m.root.kind? ["on", "sound"] == some .compound &&
        ((m.locate (Path.dotted ["on", "sound", "play", "left"])).toOption.any
          fun p => p == ["on", "sound", "play", "left"]) &&
        (m.selected Examples.host ⟨1, 0, 0⟩ (.text "on") (.text "TICK") .null).toOption.any
          fun x => x.2.any fun t => m.root.domain? t == some ["on", "sound"] &&
            t.targets == [["on", "sound", "play", "left"]])
    (by decide +kernel)
  simp only [Bool.and_eq_true, beq_iff_eq] at hcheck
  obtain ⟨⟨hkind, hn⟩, hselected⟩ := hcheck
  obtain ⟨n, hlocate, hn⟩ := exists_of_any hn
  obtain rfl : n = ["on", "sound", "play", "left"] := by simpa using hn
  obtain ⟨⟨active, ts⟩, hts, hmoves⟩ := exists_of_any hselected
  simp only [List.any_eq_true, Bool.and_eq_true, beq_iff_eq] at hmoves
  obtain ⟨t, ht, hd, htargets⟩ := hmoves
  have hconfig : playerConfig.wellFormed = true := by decide +kernel
  have hactive := legal_of_text (well_formed_of_define hconfig hm) (select_of_selected hts).1
  obtain ⟨started, hstarted, -, hmem, hagree⟩ := start_agrees_with_entry hconfig hm hlocate
  obtain ⟨s, B, hs, hB, hsame⟩ := (hagree ["on", "sound"] (by decide) hkind).2 Examples.host
    ⟨1, 0, 0⟩ _ _ _ active ts t rfl hts hactive ht hd htargets
  exact ⟨m, started, s, B, hm, hstarted, hs, hB, hmem, hsame⟩

end Statechart.Machine
