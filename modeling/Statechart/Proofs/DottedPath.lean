import Statechart.Proofs.Legality

/-!
# Dotted paths name nodes

A control state lists its active nodes by their dotted paths, and a machine may be started at a node
by its dotted path. Read `dotted_paths_identify` first: the list of a control state is read back as
the nodes that it was made from, whatever the keys are, and a dotted path leads to the node that has
it, unless that is a child of the root under the empty key. Such a child shares the empty dotted
path with the root, which is what the empty text leads to: `hidden_child`.
-/

namespace Statechart.Machine

variable {m : Machine} {active : List Path} {s : Value}

/-- The dotted path of a node leads to it, unless the node is the child of the root under the empty
key. -/
theorem locate_dotted_iff (hwf : m.WellFormed) {p : Path} (hp : (m.root.at? p).isSome) :
    m.locate p.dotted = .ok p ↔ p ≠ [""] := by
  rw [← Path.of_dotted_dotted_iff (hwf.root.dot_free hp)]
  constructor
  · intro h
    simp only [locate] at h
    split at h
    · exact Except.ok.inj h
    · cases h
  · intro h
    simp [locate, h, hp]

/-- The nodes that a control state is read back as are those that it was made from. -/
theorem active_nodes_of_control (hwf : m.WellFormed) (hroot : [] ∈ active)
    (hknown : ∀ p ∈ active, (m.root.at? p).isSome) {actions : List Value} {changed : Bool}
    (hs : m.control active actions changed = .ok s) :
    ∃ read, m.activeNodes s = .ok read ∧ ∀ p, p ∈ read ↔ p ∈ active :=
  active_nodes_of_denotes hwf hroot hknown (denotes_of_control hwf hknown hs)

/-- The control states that a machine produces: the initial one, and the answers to events. -/
inductive Produces (m : Machine) : Value → Prop where
  | initial {s : Value} (h : m.initialState = .ok s) : Produces m s
  | answer {host : Host} {start : Identity} {state event context s : Value}
      (h : m.transition host start state event context = .ok s) : Produces m s

/-- The root is active in every control state, and at whatever node a machine is started. -/
theorem nil_mem_of_active_nodes (hwf : m.WellFormed) {state : Value}
    (h : m.activeNodes state = .ok active) : [] ∈ active := by
  cases state with
  | state value configuration actions changed =>
      obtain rfl := Except.ok.inj h
      exact List.mem_cons_self
  | text dotted => exact (legal_of_text hwf h).root_mem
  | _ => cases h

/-- A control state that a machine produces is made from nodes of the machine, the root among
them. -/
theorem Produces.exists_active (hwf : m.WellFormed) (h : m.Produces s) :
    ∃ active actions changed, m.control active actions changed = .ok s ∧ [] ∈ active ∧
      ∀ p ∈ active, (m.root.at? p).isSome := by
  have hinitial : ∀ {s}, m.initialState = .ok s → ∃ active actions changed,
      m.control active actions changed = .ok s ∧ [] ∈ active ∧
        ∀ p ∈ active, (m.root.at? p).isSome := by
    intro s hs
    have hlegal := Tree.legal_defaults hwf.root
    exact ⟨_, _, _, hs, hlegal.root_mem, hlegal.known⟩
  cases h with
  | initial hs => exact hinitial hs
  | @answer host start state event context s hs =>
      cases hinit : Event.isInit event with
      | true => exact hinitial ((transition_of_init hinit).symm.trans hs)
      | false =>
          rw [transition_eq hinit] at hs
          obtain ⟨⟨active, ts⟩, hts, hs⟩ := bind_eq_ok.mp hs
          obtain ⟨hactive, hknown, -⟩ := select_of_selected hts
          obtain ⟨type, hchosen⟩ := chosen_of_selected hts
          exact ⟨_, _, _, hs, nil_mem_active_after (nil_mem_of_active_nodes hwf hactive),
            known_of_mem_active_after hwf hknown hchosen⟩

/-- The dotted path of a node leads to it, unless it is the child of the root under the empty key;
no two nodes but that child and the root have the same one; and a control state is read back as the
nodes that it is made from, as every control state is that the machine produces. -/
theorem dotted_paths_identify {config : Value} (hconfig : config.wellFormed = true)
    (hm : define config = .ok m) :
    (∀ p, (m.root.at? p).isSome → (m.locate p.dotted = .ok p ↔ p ≠ [""])) ∧
    (∀ p q, (m.root.at? p).isSome → (m.root.at? q).isSome →
      (p.dotted = q.dotted ↔ p = q ∨ (p = [] ∧ q = [""]) ∨ (p = [""] ∧ q = []))) ∧
    (∀ active actions changed s, [] ∈ active → (∀ p ∈ active, (m.root.at? p).isSome) →
      m.control active actions changed = .ok s →
      ∃ read, m.activeNodes s = .ok read ∧ ∀ p, p ∈ read ↔ p ∈ active) ∧
    ∀ s, m.Produces s → ∃ active actions changed, m.control active actions changed = .ok s ∧
      [] ∈ active ∧ ∀ p ∈ active, (m.root.at? p).isSome := by
  have hwf := well_formed_of_define hconfig hm
  refine ⟨fun p hp => locate_dotted_iff hwf hp, fun p q hp hq => ?_,
    fun active actions changed s hroot hknown hs => active_nodes_of_control hwf hroot hknown hs,
    fun s hs => hs.exists_active hwf⟩
  exact Path.dotted_eq_dotted_iff (hwf.root.dot_free hp) (hwf.root.dot_free hq)

/-! ## The empty key -/

/-- The configuration of a form whose only page has the empty key, and so has the first field of
the page. -/
def formConfig : Value :=
  .table
    [("id", .text "form"), ("initial", .text ""),
      ("states", .table
        [("", .table
            [("initial", .text ""),
              ("states", .table [("", .table [("on", .table [("NEXT", .text "a b")])]),
                ("a b", .table [])])])])]

/-- The fields of the form are found by their dotted paths, and after an event the control state is
read back as the nodes that it was made from. -/
theorem form_fields_found : ∃ m s read, define formConfig = .ok m ∧
    m.locate (Path.dotted ["", ""]) = .ok ["", ""] ∧
    Path.dotted ["", ""] ≠ Path.dotted ["", "a b"] ∧
    m.transition Examples.host ⟨1, 0, 0⟩ (.text ".") (.text "NEXT") .null = .ok s ∧
    m.activeNodes s = .ok read ∧ ["", "a b"] ∈ read ∧ [""] ∈ read := by
  obtain ⟨m, hm, hcheck⟩ := exists_of_any (x := define formConfig) (P := fun m =>
      (m.root.at? ["", ""]).isSome && (m.root.at? ["", "a b"]).isSome &&
        (m.transition Examples.host ⟨1, 0, 0⟩ (.text ".") (.text "NEXT") .null).toOption.any
          fun s => isActive s ".a b" && isActive s "")
    (by decide +kernel)
  simp only [Bool.and_eq_true] at hcheck
  obtain ⟨⟨hfirst, hsecond⟩, hcheck⟩ := hcheck
  obtain ⟨s, hs, hactive⟩ := exists_of_any hcheck
  rw [Bool.and_eq_true] at hactive
  have hconfig : formConfig.wellFormed = true := by decide +kernel
  have hwf := well_formed_of_define hconfig hm
  obtain ⟨hlocate, hdotted, hread, hproduced⟩ := dotted_paths_identify hconfig hm
  obtain ⟨active, actions, changed, hcontrol, hroot, hknown⟩ := hproduced s (.answer hs)
  obtain ⟨read, hnodes, hmem⟩ := hread active actions changed s hroot hknown hcontrol
  have hlisted : ∀ {dotted}, isActive s dotted = true → Path.keysOf dotted ∈ read :=
    fun hdotted => (hmem _).mpr
      (mem_of_is_active hwf hknown (denotes_of_control hwf hknown hcontrol) hdotted)
  refine ⟨m, s, read, hm, (hlocate _ hfirst).mpr (by decide), ?_, hs, hnodes,
    hlisted hactive.1, hlisted hactive.2⟩
  rw [Ne, hdotted _ _ hfirst hsecond]
  decide

/-- The page of the form is a node, but its dotted path is that of the root and leads to the
root. -/
theorem hidden_child : ∃ m, define formConfig = .ok m ∧ (m.root.at? [""]).isSome = true ∧
    Path.dotted [""] = Path.dotted [] ∧ m.locate (Path.dotted [""]) = .ok [] := by
  obtain ⟨m, hm, hpage⟩ := exists_of_any (x := define formConfig)
    (P := fun m => (m.root.at? [""]).isSome) (by decide +kernel)
  refine ⟨m, hm, hpage, rfl, ?_⟩
  have hempty : Path.ofDotted (Path.dotted [""]) = [] := by decide
  simp [locate, hempty]

end Statechart.Machine
