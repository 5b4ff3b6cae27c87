import Statechart.Proofs.EntryAndExit
import Statechart.Proofs.Tree.DocumentOrder

/-!
# The order of the actions of a step

A step runs the exit actions of the nodes that it exits, then the actions of its transitions, then
the entry actions of the nodes that it enters. Read `Schedule` first: no node is exited or entered
twice, each node is exited before those above it and entered after those above it. `exists_schedule`
says that transitions which are taken together follow a schedule, and `actions_in_order` that an
answer comes with the actions of one.
-/

namespace Statechart.Machine

variable {m : Machine} {h : Host} {start : Identity} {state event context : Value}
  {active : List Path} {ts : List Transition}

/-- The nodes that transitions exit and enter when they are taken together, each once. What lies
below another node is exited before it and entered after it. -/
structure Schedule (m : Machine) (active : List Path) (ts : List Transition)
    (exited entered : List Path) : Prop where
  exits : ∀ p, p ∈ exited ↔
    p ∈ active ∧ ∃ t ∈ ts, ∃ d, m.root.domain? t = some d ∧ p.isBelow d = true
  enters : ∀ p, p ∈ entered ↔ ∃ t ∈ ts, p ∈ m.root.entriesOf t
  known : ∀ p ∈ exited ++ entered, (m.root.at? p).isSome
  exited_once : exited.Nodup
  entered_once : entered.Nodup
  inner_first : ∀ p ∈ exited, ∀ q ∈ exited, p.isBelow q = true → [p, q].Sublist exited
  outer_first : ∀ p ∈ entered, ∀ q ∈ entered, p.isBelow q = true → [q, p].Sublist entered

/-- The actions of transitions that are taken together follow a schedule. -/
theorem exists_schedule (hwf : m.WellFormed) (hknown : ∀ p ∈ active, (m.root.at? p).isSome)
    {type : String} (hts : m.root.Chosen type active ts) :
    ∃ exited entered, m.Schedule active ts exited entered ∧
      m.actionsOf active ts =
        m.exitActions exited ++ ts.flatMap Transition.actions ++ m.entryActions entered := by
  have hnodup : ∀ ps, (m.root.ordered ps).Nodup := fun ps =>
    (Tree.nodup_paths hwf.root).filter _
  have hexits : ∀ p, p ∈ (m.root.ordered (ts.flatMap (m.root.exitsOf active))).reverse ↔
      p ∈ active ∧ ∃ t ∈ ts, ∃ d, m.root.domain? t = some d ∧ p.isBelow d = true := by
    intro p
    simp only [List.mem_reverse, Tree.mem_ordered hwf.root, List.mem_flatMap, Tree.mem_exits_iff]
    constructor
    · intro hp
      obtain ⟨-, t, ht, hactive, hbelow⟩ := hp
      exact ⟨hactive, t, ht, hbelow⟩
    · intro hp
      obtain ⟨hactive, t, ht, hbelow⟩ := hp
      exact ⟨hknown p hactive, t, ht, hactive, hbelow⟩
  have henters : ∀ p, p ∈ m.root.ordered (ts.flatMap m.root.entriesOf) ↔
      ∃ t ∈ ts, p ∈ m.root.entriesOf t := by
    intro p
    simp only [Tree.mem_ordered hwf.root, List.mem_flatMap, and_iff_right_iff_imp]
    intro hp
    obtain ⟨t, ht, hp⟩ := hp
    exact Tree.known_of_mem_entries hwf.root (known_of_chosen hwf hts ht) hp
  refine ⟨_, _, ⟨hexits, henters, fun p hp => ?_, List.nodup_reverse.mpr (hnodup _), hnodup _,
    fun p hp q hq hbelow => ?_, fun p hp q hq hbelow => ?_⟩, rfl⟩
  · rcases List.mem_append.mp hp with hp | hp
    · exact hknown p ((hexits p).mp hp).1
    · exact ((Tree.mem_ordered hwf.root).mp hp).1
  · -- Exits go through document order backwards.
    exact (Tree.above_before_ordered hwf.root (List.mem_reverse.mp hp) (List.mem_reverse.mp hq)
      hbelow).reverse
  · exact Tree.above_before_ordered hwf.root hp hq hbelow

/-- After a schedule the nodes are active that were active and are not exited, and those that are
entered. -/
theorem Schedule.mem_active_after {exited entered : List Path}
    (hs : m.Schedule active ts exited entered) (p : Path) :
    p ∈ m.activeAfter active ts ↔ (p ∈ active ∧ p ∉ exited) ∨ p ∈ entered := by
  rw [mem_active_after_iff, hs.exits, hs.enters]
  refine or_congr_left (and_congr_right fun hp => ?_)
  simp [Tree.Spares, hp]

/-- An answer comes with the exit actions of the exited nodes, the actions of the selected
transitions and the entry actions of the entered nodes, in this order and in that of a schedule.
Those nodes are active in it that were active and are not exited, and those that are entered. -/
theorem actions_in_order {config : Value} (hconfig : config.wellFormed = true)
    (hm : define config = .ok m) (hinit : Event.isInit event = false)
    (hts : m.selected h start state event context = .ok (active, ts)) {s : Value}
    (hs : m.transition h start state event context = .ok s) :
    ∃ exited entered value configuration, m.Schedule active ts exited entered ∧
      s = .state value configuration (.tuple (m.exitActions exited ++
        ts.flatMap Transition.actions ++ m.entryActions entered)) (!ts.isEmpty) ∧
      m.Denotes {p | (p ∈ active ∧ p ∉ exited) ∨ p ∈ entered} s := by
  have hwf := well_formed_of_define hconfig hm
  obtain ⟨-, hknown, -⟩ := select_of_selected hts
  obtain ⟨type, hchosen⟩ := chosen_of_selected hts
  obtain ⟨exited, entered, hschedule, hactions⟩ := exists_schedule hwf hknown hchosen
  have hnodes := known_of_mem_active_after hwf hknown hchosen
  have hdenotes := denotes_of_transition hwf hinit hts hnodes hs
  simp only [hschedule.mem_active_after] at hdenotes
  obtain ⟨value, configuration, hstate⟩ := eq_state_of_transition hinit hts hs
  rw [hactions] at hstate
  exact ⟨exited, entered, value, configuration, hschedule, hstate, hdenotes⟩

/-- Resetting the booth exits its lamp from the bulb outwards and enters it the other way. -/
theorem booth_reset_in_order : ∃ m active ts s exited entered value configuration,
    define boothConfig = .ok m ∧
    m.selected Examples.host ⟨1, 0, 0⟩ (.text "open") (.text "RESET") .null = .ok (active, ts) ∧
    m.transition Examples.host ⟨1, 0, 0⟩ (.text "open") (.text "RESET") .null = .ok s ∧
    [["open", "lamp", "dim"], ["open", "lamp"]].Sublist exited ∧
    [["open"], ["open", "lamp"]].Sublist entered ∧
    s = .state value configuration (.tuple (m.exitActions exited ++
      ts.flatMap Transition.actions ++ m.entryActions entered)) (!ts.isEmpty) := by
  obtain ⟨m, hm, hcheck⟩ := exists_of_any (x := define boothConfig) (P := fun m =>
      (m.selected Examples.host ⟨1, 0, 0⟩ (.text "open") (.text "RESET") .null).toOption.any
          (fun x => x.1.contains ["open", "lamp", "dim"] && x.1.contains ["open", "lamp"] &&
            x.2.any fun t => m.root.domain? t == some [] &&
              (m.root.entriesOf t).contains ["open"] &&
              (m.root.entriesOf t).contains ["open", "lamp"]) &&
        (m.transition Examples.host ⟨1, 0, 0⟩ (.text "open") (.text "RESET") .null).toOption.any
          fun _ => true)
    (by decide +kernel)
  rw [Bool.and_eq_true] at hcheck
  obtain ⟨⟨active, ts⟩, hts, hmoves⟩ := exists_of_any hcheck.1
  obtain ⟨s, hs, -⟩ := exists_of_any hcheck.2
  simp only [Bool.and_eq_true, List.contains_eq_mem, decide_eq_true_eq, List.any_eq_true,
    beq_iff_eq] at hmoves
  obtain ⟨⟨hdim, hlamp⟩, t, ht, ⟨hd, hopen⟩, hlampEntered⟩ := hmoves
  have hconfig : boothConfig.wellFormed = true := by decide +kernel
  obtain ⟨exited, entered, value, configuration, hschedule, hstate, -⟩ :=
    actions_in_order hconfig hm rfl hts hs
  have hexited : ∀ {p : Path}, p ∈ active → p ≠ [] → p ∈ exited := fun hp hne =>
    (hschedule.exits _).mpr ⟨hp, t, ht, [], hd, Path.is_below_nil.mpr hne⟩
  have hentered : ∀ {p}, p ∈ m.root.entriesOf t → p ∈ entered := fun hp =>
    (hschedule.enters _).mpr ⟨t, ht, hp⟩
  refine ⟨m, active, ts, s, exited, entered, value, configuration, hm, hts, hs, ?_, ?_, hstate⟩
  · exact hschedule.inner_first _ (hexited hdim (by simp)) _ (hexited hlamp (by simp)) (by decide)
  · exact hschedule.outer_first _ (hentered hlampEntered) _ (hentered hopen) (by decide)

end Statechart.Machine
