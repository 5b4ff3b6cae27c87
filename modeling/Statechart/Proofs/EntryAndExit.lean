import Statechart.Proofs.Legality

/-!
# Entry and exit actions alternate

When every node is labelled by an entry and an exit action of its own, the actions of a run say
which nodes are active: the two actions of a node are emitted in turn, the entry action first, and
the node is active when the last of them is its entry action. Read `Toggles.step` first, which says
what one step emits for a node; `entry_and_exit_alternate` is the statement about runs. A step may
exit and enter a node again, but it enters no active node that it does not exit:
`kept_not_entered`.
-/

namespace Statechart

variable {α : Type}

/-! ## Alternating lists -/

/-- The first `n` items of `a, b, a, b, …`. -/
def alternating (a b : α) : Nat → List α
  | 0 => []
  | n + 1 => a :: alternating b a n

/-- One item more of an alternating list. -/
theorem alternating_succ (a b : α) (n : Nat) :
    alternating a b (n + 1) = alternating a b n ++ [if n % 2 = 0 then a else b] := by
  induction n generalizing a b with
  | zero => rfl
  | succ n ih =>
      rw [alternating, ih b a]
      rcases Nat.mod_two_eq_zero_or_one n with h | h <;> simp [alternating, h, Nat.add_mod]

open Classical in
/-- The occurrences of two items in a list. -/
noncomputable def occurrences (a b : α) (xs : List α) : List α :=
  xs.filter fun x => x = a ∨ x = b

theorem occurrences_append (a b : α) (xs ys : List α) :
    occurrences a b (xs ++ ys) = occurrences a b xs ++ occurrences a b ys := by
  simp [occurrences]

/-- The occurrences of two items alternate, the first one being the first, and the last one is the
first item exactly when `on` holds. -/
def Toggles (a b : α) (xs : List α) (on : Prop) : Prop :=
  ∃ n, occurrences a b xs = alternating a b n ∧ (on ↔ n % 2 = 1)

variable {a b : α} {xs ys : List α} {on on' : Prop}

/-- A step adds the second item only when `on` holds, and then the first item only when `on` does
not hold or the second item was added. -/
theorem Toggles.step (h : Toggles a b xs on) {exited entered : Prop}
    [Decidable exited] [Decidable entered]
    (hys : occurrences a b ys =
      (if exited then [b] else []) ++ (if entered then [a] else []))
    (hexit : exited → on) (henter : entered → on → exited) :
    Toggles a b (xs ++ ys) ((on ∧ ¬ exited) ∨ entered) := by
  obtain ⟨n, hn, hon⟩ := h
  unfold Toggles
  rw [occurrences_append, hn, hys]
  -- The parity of `n` says which item comes next; `hexit` and `henter` make the added ones fit.
  by_cases hexited : exited
  · have hodd : n % 2 = 1 := hon.mp (hexit hexited)
    by_cases hentered : entered
    · exact ⟨n + 2, by simp [alternating_succ, hexited, hentered, hodd, Nat.add_mod], by
        simp [hexited, hentered, hodd]⟩
    · exact ⟨n + 1, by simp [alternating_succ, hexited, hentered, hodd], by
        simp [hexited, hentered, Nat.add_mod, hodd]⟩
  · by_cases hentered : entered
    · have heven : n % 2 = 0 := by
        rcases Nat.mod_two_eq_zero_or_one n with h | h
        · exact h
        · exact absurd (henter hentered (hon.mpr h)) hexited
      exact ⟨n + 1, by simp [alternating_succ, hexited, hentered, heven], by
        simp [hexited, hentered, Nat.add_mod, heven]⟩
    · exact ⟨n, by simp [hexited, hentered], by simp [hexited, hentered, hon]⟩

/-- The last occurrence tells whether `on` holds. -/
theorem Toggles.last (h : Toggles a b xs on) (hne : a ≠ b) :
    on ↔ (occurrences a b xs).getLast? = some a := by
  obtain ⟨n, hn, hon⟩ := h
  rw [hn, hon]
  cases n with
  | zero => simp [alternating]
  | succ n =>
      rw [alternating_succ, List.getLast?_concat]
      rcases Nat.mod_two_eq_zero_or_one n with h | h <;>
        simp [h, Nat.add_mod, hne.symm]

namespace Tree

variable {root : Chart} {t : Transition} {p : Path}

/-- A transition that does not lead to the root enters no active node that it does not exit. -/
theorem kept_not_entered (hwf : root.WellFormed) {active : List Path} (hroot : [] ∉ t.targets)
    (hp : p ∈ root.entriesOf t) (hactive : p ∈ active) : p ∈ root.exitsOf active t := by
  cases hd : root.domain? t with
  | none => simp [entriesOf, hd] at hp
  | some d => exact (mem_exits_of hd).mpr ⟨hactive, below_of_mem_entries hwf hd hroot hp⟩

end Tree

namespace Machine

variable {m : Machine} {enter exit : Path → Value} {p : Path}

/-! ## Labelled machines -/

/-- Every node has one entry and one exit action, which differ from those of the other nodes and
from the actions of the transitions. -/
structure Labelled (m : Machine) (enter exit : Path → Value) : Prop where
  entry_eq : ∀ p a, m.root.get? p = some a → a.entry = [enter p]
  exit_eq : ∀ p a, m.root.get? p = some a → a.exit = [exit p]
  enter_inj : ∀ p q, (m.root.at? p).isSome → (m.root.at? q).isSome → enter p = enter q → p = q
  exit_inj : ∀ p q, (m.root.at? p).isSome → (m.root.at? q).isSome → exit p = exit q → p = q
  apart : ∀ p q, (m.root.at? p).isSome → (m.root.at? q).isSome → enter p ≠ exit q
  free : ∀ t ∈ m.root.transitions, ∀ p, (m.root.at? p).isSome →
    enter p ∉ t.actions ∧ exit p ∉ t.actions

/-- Among the actions of different nodes that have one each, of which at most that of the node `p`
is looked for, that one occurs once if at all. -/
theorem occurrences_node_actions {a b : Value} {label : Path → Value}
    {select : Node Handlers → List Value} {ps : List Path}
    (hlabel : ∀ q x, m.root.get? q = some x → select x = [label q])
    (hknown : ∀ q ∈ ps, (m.root.at? q).isSome) (hnodup : ps.Nodup)
    (honly : ∀ q ∈ ps, label q = a ∨ label q = b ↔ q = p) :
    occurrences a b (ps.flatMap fun q => ((m.root.get? q).map select).getD []) =
      if p ∈ ps then [label p] else [] := by
  have hlabels : (ps.flatMap fun q => ((m.root.get? q).map select).getD []) = ps.map label := by
    rw [List.map_eq_flatMap]
    refine List.flatMap_congr fun q hq => ?_
    obtain ⟨s, hs⟩ := Option.isSome_iff_exists.mp (hknown q hq)
    have hget : m.root.get? q = some s.value := by simp [Tree.get?, hs]
    simp [hget, hlabel q _ hget]
  have hfilter : occurrences a b (ps.map label) = (ps.filter (· = p)).map label := by
    rw [occurrences, List.filter_map]
    congr 1
    exact List.filter_congr fun q hq => by simpa using honly q hq
  rw [hlabels, hfilter, List.filter_eq, List.map_replicate, hnodup.count]
  split <;> rfl

/-- Nodes are listed once each in document order. -/
theorem mem_ordered_of_known (hwf : m.WellFormed) {ps : List Path}
    (hknown : ∀ q ∈ ps, (m.root.at? q).isSome) (q : Path) : q ∈ m.root.ordered ps ↔ q ∈ ps := by
  simpa [Tree.mem_ordered hwf.root] using hknown q

/-- The occurrences of the labels of a node among entry actions. -/
theorem occurrences_entry (hwf : m.WellFormed) (hm : m.Labelled enter exit)
    (hp : (m.root.at? p).isSome) (ps : List Path) (hknown : ∀ q ∈ ps, (m.root.at? q).isSome) :
    occurrences (enter p) (exit p) (m.entryActions (m.root.ordered ps)) =
      if p ∈ ps then [enter p] else [] := by
  have hordered := mem_ordered_of_known hwf hknown
  have hnodes : ∀ q ∈ m.root.ordered ps, (m.root.at? q).isSome := fun q hq =>
    hknown q ((hordered q).mp hq)
  have honly : ∀ q ∈ m.root.ordered ps, enter q = enter p ∨ enter q = exit p ↔ q = p := by
    intro q hq
    have hne : enter q ≠ exit p := hm.apart q p (hnodes q hq) hp
    simp only [hne, or_false]
    exact ⟨hm.enter_inj q p (hnodes q hq) hp, fun h => h ▸ rfl⟩
  rw [entryActions,
    occurrences_node_actions hm.entry_eq hnodes ((Tree.nodup_paths hwf.root).filter _) honly]
  simp only [hordered]

/-- The occurrences of the labels of a node among exit actions. -/
theorem occurrences_exit (hwf : m.WellFormed) (hm : m.Labelled enter exit)
    (hp : (m.root.at? p).isSome) (ps : List Path) (hknown : ∀ q ∈ ps, (m.root.at? q).isSome) :
    occurrences (enter p) (exit p) (m.exitActions (m.root.ordered ps).reverse) =
      if p ∈ ps then [exit p] else [] := by
  have hordered : ∀ q, q ∈ (m.root.ordered ps).reverse ↔ q ∈ ps := fun q =>
    List.mem_reverse.trans (mem_ordered_of_known hwf hknown q)
  have hnodes : ∀ q ∈ (m.root.ordered ps).reverse, (m.root.at? q).isSome := fun q hq =>
    hknown q ((hordered q).mp hq)
  have hnodup : (m.root.ordered ps).reverse.Nodup :=
    List.nodup_reverse.mpr ((Tree.nodup_paths hwf.root).filter _)
  have honly : ∀ q ∈ (m.root.ordered ps).reverse, exit q = enter p ∨ exit q = exit p ↔ q = p := by
    intro q hq
    have hne : exit q ≠ enter p := (hm.apart p q hp (hnodes q hq)).symm
    simp only [hne, false_or]
    exact ⟨hm.exit_inj q p (hnodes q hq) hp, fun h => h ▸ rfl⟩
  rw [exitActions, occurrences_node_actions hm.exit_eq hnodes hnodup honly]
  simp only [hordered]

/-- No label of a node occurs among the actions of transitions. -/
theorem occurrences_transitions (hm : m.Labelled enter exit) (hp : (m.root.at? p).isSome)
    {ts : List Transition} (hts : ∀ t ∈ ts, t ∈ m.root.transitions) :
    occurrences (enter p) (exit p) (ts.flatMap Transition.actions) = [] := by
  simp only [occurrences, List.filter_eq_nil_iff, List.mem_flatMap, decide_eq_true_eq, not_or]
  intro v hv
  obtain ⟨t, ht, hv⟩ := hv
  obtain ⟨henter, hexit⟩ := hm.free t (hts t ht) p hp
  exact ⟨fun h => henter (h ▸ hv), fun h => hexit (h ▸ hv)⟩

/-! ## Runs -/

/-- What is put to a machine in one step: the host that runs its guards, where the marks of what
they make start, the event and the extended state. -/
structure Input where
  host : Host
  start : Identity
  event : Value
  context : Value

/-- The actions that come with a control state. -/
def emitted (state : Value) : List Value :=
  match state with
  | .state _ _ actions _ => (actions.elements?).getD []
  | _ => []

/-- A step of a run: the next control state, and all actions so far. -/
def proceed (m : Machine) (r : Value × List Value) (i : Input) :
    Except Error (Value × List Value) := do
  let s ← m.transition i.host i.start r.1 i.event i.context
  return (s, r.2 ++ emitted s)

/-- A run from the initial control state: the last control state, and all actions. -/
def history (m : Machine) (inputs : List Input) : Except Error (Value × List Value) := do
  let s ← m.initialState
  inputs.foldlM m.proceed (s, emitted s)

/-- The actions so far tell for each node whether it is active: the control state denotes a set of
nodes, and the actions of each node toggle with its membership. -/
def Tracks (m : Machine) (enter exit : Path → Value) (r : Value × List Value) : Prop :=
  ∃ A : Set Path, m.Denotes A r.1 ∧ [] ∈ A ∧ (∀ p ∈ A, (m.root.at? p).isSome) ∧
    ∀ p, (m.root.at? p).isSome → Toggles (enter p) (exit p) r.2 (p ∈ A)

/-- A control state comes with the actions that it is made with. -/
theorem emitted_of_control {active : List Path} {actions : List Value} {changed : Bool} {s : Value}
    (hs : m.control active actions changed = .ok s) : emitted s = actions := by
  obtain ⟨value, configuration, rfl⟩ := eq_state_of_control hs
  rfl

/-- The initial actions enter the default nodes. -/
theorem tracks_initial (hwf : m.WellFormed) (hm : m.Labelled enter exit) {s : Value}
    (hs : m.initialState = .ok s) : m.Tracks enter exit (s, emitted s) := by
  have hlegal := Tree.legal_defaults hwf.root
  refine ⟨_, denotes_of_initial hwf hs, hlegal.root_mem, hlegal.known, fun p hp => ?_⟩
  have hbefore : Toggles (enter p) (exit p) [] False := ⟨0, rfl, by simp⟩
  have hoccurs : occurrences (enter p) (exit p) (emitted s) =
      (if False then [exit p] else []) ++ if p ∈ m.root.defaults then [enter p] else [] := by
    rw [emitted_of_control hs, occurrences_entry hwf hm hp _ hlegal.known]
    simp
  simpa using hbefore.step hoccurs (by simp) (by simp)

/-- A step keeps track of the active nodes when no transition leads to the root. -/
theorem Tracks.proceed (hwf : m.WellFormed) (hroot : ∀ t ∈ m.root.transitions, [] ∉ t.targets)
    (hm : m.Labelled enter exit) {r r' : Value × List Value} (hr : m.Tracks enter exit r)
    {i : Input} (hinit : Event.isInit i.event = false) (h : m.proceed r i = .ok r') :
    m.Tracks enter exit r' := by
  obtain ⟨A, hdenotes, hnil, hknown, htoggles⟩ := hr
  obtain ⟨s, hs, h⟩ := bind_eq_ok.mp h
  obtain rfl := Except.ok.inj h
  rw [transition_eq hinit] at hs
  obtain ⟨⟨active, ts⟩, hts, hs⟩ := bind_eq_ok.mp hs
  obtain ⟨hmem, type, hchosen⟩ := active_of_selected hwf hnil hknown hdenotes hts
  have hmine : ∀ t ∈ ts, t ∈ m.root.transitions := fun t ht =>
    hchosen.mem_transitions hwf.root ht
  -- Exited nodes are active, and entered ones are nodes that are not kept.
  have hexits : ∀ q ∈ ts.flatMap (m.root.exitsOf active), q ∈ A := by
    intro q hq
    obtain ⟨t, -, hq⟩ := List.mem_flatMap.mp hq
    exact (hmem q).mp (Tree.mem_exits_iff.mp hq).1
  have hentries : ∀ q ∈ ts.flatMap m.root.entriesOf, (m.root.at? q).isSome := by
    intro q hq
    obtain ⟨t, ht, hq⟩ := List.mem_flatMap.mp hq
    exact Tree.known_of_mem_entries hwf.root (known_of_chosen hwf hchosen ht) hq
  have hkept : ∀ q ∈ ts.flatMap m.root.entriesOf, q ∈ A →
      q ∈ ts.flatMap (m.root.exitsOf active) := by
    intro q hq hA
    obtain ⟨t, ht, hq⟩ := List.mem_flatMap.mp hq
    exact List.mem_flatMap.mpr
      ⟨t, ht, Tree.kept_not_entered hwf.root (hroot t (hmine t ht)) hq ((hmem q).mpr hA)⟩
  have hafter : ∀ q, q ∈ m.activeAfter active ts ↔
      (q ∈ A ∧ ¬ q ∈ ts.flatMap (m.root.exitsOf active)) ∨ q ∈ ts.flatMap m.root.entriesOf := by
    intro q
    rw [activeAfter, List.mem_append, List.mem_filter, hmem]
    simp
  have hnodes : ∀ q ∈ m.activeAfter active ts, (m.root.at? q).isSome :=
    known_of_mem_active_after hwf (fun q hq => hknown q ((hmem q).mp hq)) hchosen
  refine ⟨_, denotes_of_control hwf hnodes hs, nil_mem_active_after ((hmem []).mpr hnil), hnodes,
    fun p hp => ?_⟩
  have hoccurs : occurrences (enter p) (exit p) (emitted s) =
      (if p ∈ ts.flatMap (m.root.exitsOf active) then [exit p] else []) ++
        if p ∈ ts.flatMap m.root.entriesOf then [enter p] else [] := by
    rw [emitted_of_control hs, actionsOf, occurrences_append, occurrences_append,
      occurrences_exit hwf hm hp _ fun q hq => hknown q (hexits q hq),
      occurrences_transitions hm hp hmine, occurrences_entry hwf hm hp _ hentries,
      List.append_nil]
  have hstep := (htoggles p hp).step hoccurs (hexits p) (hkept p)
  simpa only [Set.mem_ofPred_eq, hafter] using hstep

/-- Any steps keep track of the active nodes. -/
theorem Tracks.proceed_all (hwf : m.WellFormed)
    (hroot : ∀ t ∈ m.root.transitions, [] ∉ t.targets) (hm : m.Labelled enter exit)
    {inputs : List Input} (hinit : ∀ i ∈ inputs, Event.isInit i.event = false)
    {r r' : Value × List Value} (hr : m.Tracks enter exit r)
    (h : inputs.foldlM m.proceed r = .ok r') : m.Tracks enter exit r' := by
  induction inputs generalizing r with
  | nil =>
      obtain rfl : r = r' := by simpa using h
      exact hr
  | cons i inputs ih =>
      obtain ⟨hi, hinit⟩ := List.forall_mem_cons.mp hinit
      rw [List.foldlM_cons] at h
      obtain ⟨next, hnext, h⟩ := bind_eq_ok.mp h
      exact ih hinit (hr.proceed hwf hroot hm hi hnext) h

/-- In a run of a labelled machine without transitions to the root, the entry and the exit action of
each node are emitted in turn, the entry action first, and the node is active in the end exactly
when the last of them is its entry action. -/
theorem entry_and_exit_alternate {config : Value} (hconfig : config.wellFormed = true)
    (hdefine : define config = .ok m) (hroot : ∀ t ∈ m.root.transitions, [] ∉ t.targets)
    (hm : m.Labelled enter exit) {inputs : List Input}
    (hinit : ∀ i ∈ inputs, Event.isInit i.event = false) {s : Value} {actions : List Value}
    (hrun : m.history inputs = .ok (s, actions)) :
    ∃ active, m.activeNodes s = .ok active ∧ ∀ p, (m.root.at? p).isSome →
      (∃ n, occurrences (enter p) (exit p) actions = alternating (enter p) (exit p) n) ∧
        (p ∈ active ↔ (occurrences (enter p) (exit p) actions).getLast? = some (enter p)) := by
  have hwf := well_formed_of_define hconfig hdefine
  obtain ⟨first, hfirst, hrun⟩ := bind_eq_ok.mp hrun
  obtain ⟨A, hdenotes, hnil, hknown, htoggles⟩ :=
    (tracks_initial hwf hm hfirst).proceed_all hwf hroot hm hinit hrun
  obtain ⟨active, hactive, hmem⟩ := active_nodes_of_denotes hwf hnil hknown hdenotes
  refine ⟨active, hactive, fun p hp => ⟨?_, ?_⟩⟩
  · obtain ⟨n, hn, -⟩ := htoggles p hp
    exact ⟨n, hn⟩
  · rw [hmem]
    exact (htoggles p hp).last (hm.apart p p hp hp)

/-! ## A labelled machine -/

/-- Labels that are texts can be checked on a list of the nodes. -/
theorem labelled_of_texts (hwf : m.WellFormed) {enter exit : Path → String}
    (hentry : m.root.nodes.all fun e => e.2.entry.map Value.text? == [some (enter e.1)])
    (hexit : m.root.nodes.all fun e => e.2.exit.map Value.text? == [some (exit e.1)])
    (hnodup : (m.root.paths.map enter ++ m.root.paths.map exit).Nodup)
    (hfree : m.root.transitions.all fun t => t.actions.all fun v =>
      m.root.paths.all fun p => v.text? != some (enter p) && v.text? != some (exit p)) :
    m.Labelled (fun p => .text (enter p)) (fun p => .text (exit p)) := by
  obtain ⟨henterNodup, hexitNodup, hapart⟩ := List.nodup_append.mp hnodup
  have hpaths : ∀ {p}, (m.root.at? p).isSome → p ∈ m.root.paths := (Tree.mem_paths hwf.root).mpr
  have hsingle : ∀ {vs : List Value} {s : String},
      vs.map Value.text? = [some s] → vs = [.text s] := by
    intro vs s hvs
    obtain ⟨v, rfl, hv⟩ := List.map_eq_singleton_iff.mp hvs
    rw [Value.eq_text_of_text hv]
  refine ⟨fun p a hp => ?_, fun p a hp => ?_, fun p q hp hq h => ?_, fun p q hp hq h => ?_,
    fun p q hp hq h => ?_, fun t ht p hp => ?_⟩
  · exact hsingle (by simpa using List.all_eq_true.mp hentry _ ((Tree.mem_nodes hwf.root).mpr hp))
  · exact hsingle (by simpa using List.all_eq_true.mp hexit _ ((Tree.mem_nodes hwf.root).mpr hp))
  · exact List.inj_on_of_nodup_map henterNodup (hpaths hp) (hpaths hq) (Value.text.inj h)
  · exact List.inj_on_of_nodup_map hexitNodup (hpaths hp) (hpaths hq) (Value.text.inj h)
  · exact hapart _ (List.mem_map_of_mem (hpaths hp)) _ (List.mem_map_of_mem (hpaths hq))
      (Value.text.inj h)
  · have hactions : ∀ v ∈ t.actions, v.text? ≠ some (enter p) ∧ v.text? ≠ some (exit p) := by
      intro v hv
      have hv := List.all_eq_true.mp (List.all_eq_true.mp hfree t ht) v hv
      simpa using List.all_eq_true.mp hv p (hpaths hp)
    exact ⟨fun hmem => (hactions _ hmem).1 rfl, fun hmem => (hactions _ hmem).2 rfl⟩

/-- The entry action of the node at a path of the booth. -/
def boothEnter (p : Path) : String :=
  "enter " ++ Path.dotted p

/-- The exit action of the node at a path of the booth. -/
def boothExit (p : Path) : String :=
  "exit " ++ Path.dotted p

/-- The configuration of a booth whose lamp and fan are regions of one node, with an entry and an
exit action at each node. -/
def boothConfig : Value :=
  let node (p : Path) (fields : List (String × Value)) : Value :=
    .table ([("entry", .text (boothEnter p)), ("exit", .text (boothExit p))] ++ fields)
  let ticking (p : Path) (target : String) : Value :=
    node p [("on", .table [("TICK", .table
      [("target", .text target), ("actions", .text "click")])])]
  node []
    [("id", .text "booth"), ("initial", .text "closed"),
      ("states", .table
        [("closed", node ["closed"] [("on", .table [("OPEN", .text "open")])]),
          ("open", node ["open"]
            [("type", .text "parallel"),
              ("on", .table [("CLOSE", .text "closed"), ("RESET", .text "open")]),
              ("states", .table
                [("lamp", node ["open", "lamp"]
                    [("initial", .text "dim"),
                      ("states", .table
                        [("dim", ticking ["open", "lamp", "dim"] "bright"),
                          ("bright", ticking ["open", "lamp", "bright"] "dim")])]),
                  ("fan", node ["open", "fan"]
                    [("initial", .text "slow"),
                      ("states", .table
                        [("slow", ticking ["open", "fan", "slow"] "fast"),
                          ("fast", ticking ["open", "fan", "fast"] "slow")])])])])])]

/-- The events of a visit to the booth. -/
def boothInputs : List Input :=
  ["OPEN", "TICK", "RESET", "TICK"].map fun e => ⟨Examples.host, ⟨1, 0, 0⟩, .text e, .null⟩

/-- After a visit to the booth the actions tell which of its nodes are active. -/
theorem booth_alternates : ∃ m s actions active, define boothConfig = .ok m ∧
    m.history boothInputs = .ok (s, actions) ∧ m.activeNodes s = .ok active ∧
    ∀ p, (m.root.at? p).isSome →
      (p ∈ active ↔ (occurrences (.text (boothEnter p)) (.text (boothExit p)) actions).getLast? =
        some (.text (boothEnter p))) := by
  obtain ⟨m, hm, hcheck⟩ := exists_of_any (x := define boothConfig) (P := fun m =>
      m.root.nodes.all (fun e => e.2.entry.map Value.text? == [some (boothEnter e.1)]) &&
        m.root.nodes.all (fun e => e.2.exit.map Value.text? == [some (boothExit e.1)]) &&
        decide (m.root.paths.map boothEnter ++ m.root.paths.map boothExit).Nodup &&
        (m.root.transitions.all fun t => t.actions.all fun v => m.root.paths.all fun p =>
          v.text? != some (boothEnter p) && v.text? != some (boothExit p)) &&
        m.root.transitions.all (fun t => !t.targets.contains []) &&
        (m.history boothInputs).toOption.any fun _ => true)
    (by decide +kernel)
  simp only [Bool.and_eq_true, decide_eq_true_eq] at hcheck
  obtain ⟨⟨⟨⟨⟨hentry, hexit⟩, hnodup⟩, hfree⟩, hroot⟩, hrun⟩ := hcheck
  obtain ⟨⟨s, actions⟩, hrun, -⟩ := exists_of_any hrun
  have hconfig : boothConfig.wellFormed = true := by decide +kernel
  have hinit : ∀ i ∈ boothInputs, Event.isInit i.event = false := by
    simp [boothInputs, Event.isInit, Event.initName]
  obtain ⟨active, hactive, hall⟩ := entry_and_exit_alternate hconfig hm (by simpa using hroot)
    (labelled_of_texts (well_formed_of_define hconfig hm) hentry hexit hnodup hfree) hinit hrun
  exact ⟨m, s, actions, active, hm, hrun, hactive, fun p hp => (hall p hp).2⟩

end Machine

end Statechart
