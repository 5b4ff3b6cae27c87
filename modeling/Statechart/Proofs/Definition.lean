import Statechart.Definition
import Statechart.Proofs.Outcome
import Statechart.Proofs.Tree.WellFormed
import Statechart.Proofs.Value.WellFormed

/-!
# Machines are well-formed

`well_formed_of_define` says what reading a configuration checks: the chart of a machine is
well-formed, and each of its transitions leaves the node that declares it for nodes that are there.
-/

namespace Statechart

namespace Tree

/-- The transitions that the nodes of a chart declare, in document order. -/
def transitions (root : Chart) : List Transition :=
  root.nodes.flatMap fun e => e.2.on.flatMap Prod.snd

theorem mem_transitions {root : Chart} (h : root.WellFormed) {t : Transition} :
    t ∈ root.transitions ↔ ∃ p a, root.get? p = some a ∧ ∃ e ∈ a.on, t ∈ e.2 := by
  simp [transitions, mem_nodes h]

section

variable {τ : Type} {root : Tree (Node τ)} {path p : Path}

/-- Keys lead down from a node when there is a node where they lead. -/
theorem descend_eq_ok {target : String} {ks : Path} {t : Tree (Node τ)} :
    t.descend target path ks = .ok p ↔ p = path ++ ks ∧ (t.at? ks).isSome := by
  induction ks generalizing path t with
  | nil => simp [descend, eq_comm]
  | cons k ks ih =>
      rcases t with ⟨a, cs⟩
      rw [at_cons, descend]
      cases cs.lookup k with
      | none => simp
      | some s => simp [ih]

/-- A dotted path leads down from a node that is there to any node below it. -/
theorem descend_from_eq_ok {target : String} {dotted : List Char}
    (hpath : (root.at? path).isSome) :
    root.descendFrom target path dotted = .ok p ↔
      p = path ++ Path.ofDotted (String.ofList dotted) ∧ (root.at? p).isSome := by
  obtain ⟨t, ht⟩ := Option.isSome_iff_exists.mp hpath
  simp only [descendFrom, ht]
  refine descend_eq_ok.trans (and_congr_right fun heq => ?_)
  simp [heq, at_append, ht]

end

end Tree

namespace Machine

/-- A machine with a well-formed chart whose transitions lead from the node that declares them to
nodes of the chart. -/
structure WellFormed (m : Machine) : Prop where
  root : m.root.WellFormed
  source : ∀ p a, m.root.get? p = some a → ∀ e ∈ a.on, ∀ t ∈ e.2, t.source = p
  targets : ∀ t ∈ m.root.transitions, ∀ q ∈ t.targets, (m.root.at? q).isSome

/-! ## Nodes -/

/-- A key of one character is found in a text exactly when the text holds the character. -/
theorem occurs_in_singleton (c : Char) (cs : List Char) :
    Value.occursIn [c] cs = true ↔ c ∈ cs := by
  induction cs with
  | nil => simp [Value.occursIn]
  | cons d cs ih => simp [Value.occursIn, ih, List.isPrefixOf]

/-- A key that passes its check and is a text holds no dot. -/
theorem dot_free_of_check_key {key : Value} {k : String} (hcheck : checkKey false key = .ok ())
    (hk : keyText key = .ok k) : '.' ∉ k.toList ∧ key = .text k := by
  cases key with
  | text s =>
      obtain rfl : s = k := by simpa [keyText] using hk
      refine ⟨fun hdot => ?_, rfl⟩
      have hmem : Value.member (.text ".") (.text s) = .ok true := by
        simpa [Value.member] using (occurs_in_singleton '.' s.toList).mpr hdot
      simp [checkKey, hmem] at hcheck
  | _ => simp [keyText] at hk

/-- Reading a node takes its kind and its default from its fields. -/
theorem read_node_eq_ok {machine : Value} {path : Path} {es : Table} {a : Node Value}
    (h : readNode machine path es = .ok a) :
    a.kind = kindOf es ∧ a.initial = field es "initial" := by
  obtain ⟨id, -, h⟩ := bind_eq_ok.mp h
  obtain rfl := Except.ok.inj h
  exact ⟨rfl, rfl⟩

/-- The fields of an atomic node declare no children. -/
theorem states_of_atomic {es : Table} (h : kindOf es = .atomic) :
    (field es "states").truthy = false := by
  unfold kindOf at h
  split at h
  · cases h
  · split at h
    · cases h
    · rename_i hstates
      exact Bool.eq_false_iff.mpr hstates

/-- The default of a compound node that passes its check is a child. -/
theorem default_of_check_initial {a : Node Value} {keys : List String}
    (h : checkInitial a keys = .ok ()) (hkind : a.kind = .compound) :
    ∃ k ∈ keys, a.initial = .text k := by
  simp only [checkInitial, hkind] at h
  split at h
  · cases h
  · split at h
    · cases h
    · split at h
      · rename_i hin
        simp only [Value.isIn, List.any_map, List.any_eq_true, Function.comp_apply] at hin
        obtain ⟨k, hk, hsame⟩ := hin
        exact ⟨k, hk, Value.text_of_same hsame⟩
      · cases h

/-! ## The first pass -/

/-- Children with different keys without dots, all well-formed. -/
def GoodChildren (cs : List (String × Draft)) : Prop :=
  (cs.map Prod.fst).Nodup ∧ ∀ c ∈ cs, '.' ∉ c.1.toList ∧ c.2.WellFormed

/-- A node that passes its checks is well-formed when its children are. -/
theorem well_formed_node {machine : Value} {path : Path} {es : Table} {a : Node Value}
    {cs : List (String × Draft)} (ha : readNode machine path es = .ok a) (hcs : GoodChildren cs)
    (hnone : (field es "states").truthy = false → cs = [])
    (hinitial : checkInitial a (cs.map Prod.fst) = .ok ()) : (Tree.node a cs).WellFormed := by
  constructor
  case keys => exact hcs.1
  case dots => exact fun c hc => (hcs.2 c hc).1
  case atomic => exact fun hkind => hnone (states_of_atomic ((read_node_eq_ok ha).1 ▸ hkind))
  case compound =>
    intro hkind
    obtain ⟨k, hk, htext⟩ := default_of_check_initial hinitial hkind
    obtain ⟨c, hc, rfl⟩ := List.mem_map.mp hk
    exact ⟨c, hc, htext⟩
  case below => exact fun c hc => (hcs.2 c hc).2

/-- A node without fields is atomic. -/
theorem well_formed_leaf {machine : Value} {path : Path} {a : Node Value}
    (ha : readNode machine path [] = .ok a) : (Tree.node a []).WellFormed := by
  have hatomic : a.kind = .atomic := by
    simp [(read_node_eq_ok ha).1, kindOf, field, Table.getText?, Table.get?, Value.eq, Value.same,
      Value.place?, Value.truthy]
  constructor
  case keys => simp
  case dots => simp
  case atomic => exact fun _ => rfl
  case compound =>
    intro hkind
    rw [hatomic] at hkind
    cases hkind
  case below => simp

/-- What is read from fields is well-formed when the children that they declare are. -/
theorem well_formed_of_fields {machine : Value} {path : Path} {es : Table} {ids ids' : List Value}
    {t : Draft}
    (hstates : ∀ {ids ids' cs}, readStates machine path es ids = .ok (cs, ids') →
      GoodChildren cs ∧ ((field es "states").truthy = false → cs = []))
    (h : readTree machine path (.view es) ids = .ok (t, ids')) : t.WellFormed := by
  simp only [readTree] at h
  obtain ⟨a, ha, h⟩ := bind_eq_ok.mp h
  obtain ⟨-, -, h⟩ := bind_eq_ok.mp h
  obtain ⟨⟨cs, ids''⟩, hcs, h⟩ := bind_eq_ok.mp h
  obtain ⟨⟨⟩, hinitial, h⟩ := bind_eq_ok.mp h
  obtain ⟨rfl, -⟩ := Prod.mk.inj (Except.ok.inj h)
  obtain ⟨hgood, hnone⟩ := hstates hcs
  exact well_formed_node ha hgood hnone hinitial

/-- Children that are read under the different keys of a table are well-formed when each of them
is. -/
theorem good_of_keys {es : Table} {cs : List (String × Draft)}
    (hdistinct : Value.allDistinct (es.map Prod.fst) = true)
    (hkeys : es.map Prod.fst = cs.map (fun c => .text c.1))
    (hchildren : ∀ c ∈ cs, '.' ∉ c.1.toList ∧ c.2.WellFormed) :
    GoodChildren cs ∧ ((!es.isEmpty) = false → cs = []) := by
  rw [hkeys] at hdistinct
  refine ⟨⟨?_, hchildren⟩, fun hempty => ?_⟩
  · exact Value.nodup_of_all_distinct (by simpa [Function.comp_def] using hdistinct)
  · obtain rfl : es = [] := by simpa using hempty
    simpa using hkeys

mutual

/-- Whatever is read as a tree is well-formed. -/
theorem read_tree_well_formed {machine : Value} : ∀ (v : Value) {path : Path}
    {ids ids' : List Value} {t : Draft}, v.wellFormed = true →
    readTree machine path v ids = .ok (t, ids') → t.WellFormed
  | v, path, ids, ids', t, hv, h => by
      cases v with
      | dict m es =>
          simp only [Value.wellFormed, Bool.and_eq_true] at hv
          have hview : readTree machine path (.view es) ids = .ok (t, ids') := by
            simpa only [readTree] using h
          exact well_formed_of_fields (fun hcs => read_states_good es hv.2 hcs) hview
      | view es =>
          simp only [Value.wellFormed, Bool.and_eq_true] at hv
          exact well_formed_of_fields (fun hcs => read_states_good es hv.2 hcs) h
      | _ =>
          simp only [readTree] at h
          split at h
          · cases h
          · obtain ⟨a, ha, h⟩ := bind_eq_ok.mp h
            obtain ⟨-, -, h⟩ := bind_eq_ok.mp h
            obtain ⟨rfl, -⟩ := Prod.mk.inj (Except.ok.inj h)
            exact well_formed_leaf ha

/-- The children that fields declare are well-formed, and there are none unless `states` is true. -/
theorem read_states_good {machine : Value} : ∀ (es : List (Value × Value)) {path : Path}
    {ids ids' : List Value} {cs : List (String × Draft)}, Value.entriesWellFormed es = true →
    readStates machine path es ids = .ok (cs, ids') →
    GoodChildren cs ∧ ((field es "states").truthy = false → cs = [])
  | [], path, ids, ids', cs, _, h => by
      obtain ⟨rfl, -⟩ := Prod.mk.inj (Except.ok.inj h)
      exact ⟨⟨by simp, by simp⟩, fun _ => rfl⟩
  | (k, v) :: es, path, ids, ids', cs, hes, h => by
      simp only [Value.entriesWellFormed, Bool.and_eq_true] at hes
      simp only [readStates] at h
      split at h
      · rename_i hk
        have hfield : field ((k, v) :: es) "states" = v := by
          simp [field, Value.get_text_cons, hk]
        rw [hfield]
        exact read_forest_good v hes.1.2 h
      · rename_i hk
        have hfield : field ((k, v) :: es) "states" = field es "states" := by
          simp [field, Value.get_text_cons, hk]
        rw [hfield]
        exact read_states_good es hes.2 h

/-- The children that a table declares are well-formed, and there are none unless it is true. -/
theorem read_forest_good {machine : Value} : ∀ (v : Value) {path : Path}
    {ids ids' : List Value} {cs : List (String × Draft)}, v.wellFormed = true →
    readForest machine path v ids = .ok (cs, ids') →
    GoodChildren cs ∧ (v.truthy = false → cs = [])
  | v, path, ids, ids', cs, hv, h => by
      cases v with
      | dict m es =>
          simp only [Value.wellFormed, Bool.and_eq_true] at hv
          obtain ⟨hkeys, hchildren⟩ := read_children_good es hv.2 h
          exact good_of_keys hv.1 hkeys hchildren
      | view es =>
          simp only [Value.wellFormed, Bool.and_eq_true] at hv
          obtain ⟨hkeys, hchildren⟩ := read_children_good es hv.2 h
          exact good_of_keys hv.1 hkeys hchildren
      | _ =>
          simp only [readForest] at h
          split at h
          · cases h
          · obtain ⟨rfl, -⟩ := Prod.mk.inj (Except.ok.inj h)
            exact ⟨⟨by simp, by simp⟩, fun _ => rfl⟩

/-- Children are read under the texts that are their keys. -/
theorem read_children_good {machine : Value} : ∀ (es : List (Value × Value)) {path : Path}
    {ids ids' : List Value} {cs : List (String × Draft)}, Value.entriesWellFormed es = true →
    readChildren machine path es ids = .ok (cs, ids') →
    es.map Prod.fst = cs.map (fun c => .text c.1) ∧
      ∀ c ∈ cs, '.' ∉ c.1.toList ∧ c.2.WellFormed
  | [], path, ids, ids', cs, _, h => by
      obtain ⟨rfl, -⟩ := Prod.mk.inj (Except.ok.inj h)
      simp
  | (key, v) :: es, path, ids, ids', cs, hes, h => by
      simp only [Value.entriesWellFormed, Bool.and_eq_true] at hes
      simp only [readChildren] at h
      obtain ⟨⟨⟩, hcheck, h⟩ := bind_eq_ok.mp h
      split at h
      · cases h
      · obtain ⟨k, hk, h⟩ := bind_eq_ok.mp h
        obtain ⟨⟨t, ids''⟩, ht, h⟩ := bind_eq_ok.mp h
        obtain ⟨⟨ts, ids'''⟩, hts, h⟩ := bind_eq_ok.mp h
        obtain ⟨rfl, -⟩ := Prod.mk.inj (Except.ok.inj h)
        obtain ⟨hdot, rfl⟩ := dot_free_of_check_key hcheck hk
        obtain ⟨hkeys, hchildren⟩ := read_children_good es hes.2 hts
        refine ⟨by simp [hkeys], fun c hc => ?_⟩
        rcases List.mem_cons.mp hc with rfl | hc
        · exact ⟨hdot, read_tree_well_formed v hes.1.2 ht⟩
        · exact hchildren c hc

end

/-! ## The second pass -/

/-- A target names a node. -/
theorem known_of_read_target {root : Draft} {source q : Path} {v : Value}
    (h : readTarget root source v = .ok q) : (root.at? q).isSome := by
  have hfrom : ∀ {target : String} {path : Path} {dotted : List Char},
      root.descendFrom target path dotted = .ok q → (root.at? q).isSome := by
    intro target path dotted h
    cases hs : root.at? path with
    | none => simp [Tree.descendFrom, hs] at h
    | some s => exact ((Tree.descend_from_eq_ok (by simp [hs])).mp h).2
  cases v with
  | text target =>
      simp only [readTarget, Tree.resolve] at h
      split at h
      · split at h
        · exact hfrom h
        · cases h
      · exact hfrom h
      · exact hfrom h
  | _ => simp [readTarget] at h

/-- The transitions of a node leave it for nodes of a chart. -/
def Leads (root : Draft) (p : Path) (on : Handlers) : Prop :=
  ∀ e ∈ on, ∀ t ∈ e.2, t.source = p ∧ ∀ q ∈ t.targets, (root.at? q).isSome

/-- Reading the transitions of a node gives transitions that leave it for nodes of the chart. -/
theorem leads_of_read_handlers {root : Draft} {p : Path} {a : Node Value} {on : Handlers}
    (h : readHandlers root p a = .ok on) : Leads root p on := by
  unfold readHandlers at h
  split at h
  · intro e he t ht
    obtain ⟨d, -, hd⟩ := mem_of_map_m_eq_ok h e he
    obtain ⟨specs, -, hd⟩ := bind_eq_ok.mp hd
    obtain ⟨ts, hts, hd⟩ := bind_eq_ok.mp hd
    obtain rfl := Except.ok.inj hd
    obtain ⟨spec, -, hspec⟩ := mem_of_map_m_eq_ok hts t ht
    obtain ⟨internal, -, hspec⟩ := bind_eq_ok.mp hspec
    obtain ⟨guard, -, hspec⟩ := bind_eq_ok.mp hspec
    obtain ⟨paths, hpaths, hspec⟩ := bind_eq_ok.mp hspec
    obtain rfl := Except.ok.inj hspec
    refine ⟨rfl, fun q hq => ?_⟩
    obtain ⟨v, -, hv⟩ := mem_of_map_m_eq_ok hpaths q hq
    exact known_of_read_target hv
  · split at h
    · cases h
    · obtain rfl := Except.ok.inj h
      simp [Leads]

/-- Reading the transitions of a node and of what is below it. -/
theorem read_transitions_eq_ok {root : Draft} {path : Path} {a : Node Value}
    {cs : List (String × Draft)} {c : Chart}
    (h : readTransitions root path (.node a cs) = .ok c) : ∃ on ds,
      Leads root path on ∧ readTransitionsBelow root path cs = .ok ds ∧
        c = .node { a with on := on } ds := by
  simp only [readTransitions] at h
  obtain ⟨on, hon, h⟩ := bind_eq_ok.mp h
  obtain ⟨ds, hds, h⟩ := bind_eq_ok.mp h
  exact ⟨on, ds, leads_of_read_handlers hon, hds, (Except.ok.inj h).symm⟩

/-- Reading the transitions of children keeps their keys. -/
theorem keys_of_read_transitions {root : Draft} {path : Path} {cs : List (String × Draft)}
    {ds : List (String × Chart)} (h : readTransitionsBelow root path cs = .ok ds) :
    ds.map Prod.fst = cs.map Prod.fst := by
  induction cs generalizing ds with
  | nil =>
      obtain rfl := Except.ok.inj h
      rfl
  | cons c cs ih =>
      rcases c with ⟨k, t⟩
      simp only [readTransitionsBelow] at h
      obtain ⟨s, -, h⟩ := bind_eq_ok.mp h
      obtain ⟨ss, hss, h⟩ := bind_eq_ok.mp h
      obtain rfl := Except.ok.inj h
      simp [ih hss]

/-- Reading the transitions of children reads those of the child under each key. -/
theorem lookup_read_transitions {root : Draft} {path : Path} {cs : List (String × Draft)}
    {ds : List (String × Chart)} (h : readTransitionsBelow root path cs = .ok ds) (k : String) :
    Option.Rel (fun t s => readTransitions root (path ++ [k]) t = .ok s) (cs.lookup k)
      (ds.lookup k) := by
  induction cs generalizing ds with
  | nil =>
      obtain rfl := Except.ok.inj h
      exact .none
  | cons c cs ih =>
      rcases c with ⟨l, t⟩
      simp only [readTransitionsBelow] at h
      obtain ⟨s, hs, h⟩ := bind_eq_ok.mp h
      obtain ⟨ss, hss, h⟩ := bind_eq_ok.mp h
      obtain rfl := Except.ok.inj h
      by_cases hk : k = l
      · subst hk
        simpa using Option.Rel.some hs
      · have hbeq : (k == l) = false := by simpa using hk
        simpa [List.lookup_cons, hbeq] using ih hss

/-- Reading the transitions of a tree reads those of the subtree at each path. -/
theorem at_read_transitions {root t : Draft} {path : Path} {c : Chart}
    (h : readTransitions root path t = .ok c) (p : Path) :
    Option.Rel (fun u s => readTransitions root (path ++ p) u = .ok s) (t.at? p) (c.at? p) := by
  induction p generalizing path t c with
  | nil => simpa using Option.Rel.some h
  | cons k p ih =>
      rcases t with ⟨a, cs⟩
      obtain ⟨on, ds, -, hds, rfl⟩ := read_transitions_eq_ok h
      have hrel := lookup_read_transitions hds k
      rw [Tree.at_cons, Tree.at_cons]
      generalize cs.lookup k = o at hrel
      generalize ds.lookup k = o' at hrel
      cases hrel with
      | none => exact .none
      | some hs => simpa using ih hs

/-- Reading transitions keeps a chart well-formed. -/
theorem well_formed_of_read_transitions {root t : Draft} (hwf : t.WellFormed) {path : Path}
    {c : Chart} (h : readTransitions root path t = .ok c) : c.WellFormed := by
  induction hwf generalizing path c with
  | @node a cs keys dots atomic compound below ih =>
      obtain ⟨on, ds, -, hds, rfl⟩ := read_transitions_eq_ok h
      have hkeys := keys_of_read_transitions hds
      have hkey : ∀ k, k ∈ cs.map Prod.fst ↔ k ∈ ds.map Prod.fst := by simp [hkeys]
      constructor
      case keys => exact hkeys ▸ keys
      case dots =>
        intro d hd
        obtain ⟨c, hc, heq⟩ := List.mem_map.mp ((hkey d.1).mpr (List.mem_map_of_mem hd))
        exact heq ▸ dots c hc
      case atomic =>
        intro hkind
        obtain rfl := atomic hkind
        simpa using hkeys
      case compound =>
        intro hkind
        obtain ⟨c, hc, hinitial⟩ := compound hkind
        obtain ⟨d, hd, heq⟩ := List.mem_map.mp ((hkey c.1).mp (List.mem_map_of_mem hc))
        exact ⟨d, hd, heq ▸ hinitial⟩
      case below =>
        rintro ⟨k, s⟩ hs
        have hlookup := (Tree.lookup_iff (hkeys ▸ keys)).mpr hs
        have hrel := lookup_read_transitions hds k
        rw [hlookup] at hrel
        generalize hc : cs.lookup k = o at hrel
        cases hrel with
        | some ht => exact ih _ ((Tree.lookup_iff keys).mp hc) ht

/-- Defining a machine reads its configuration twice. -/
theorem define_eq_ok {config : Value} {m : Machine} (hm : define config = .ok m) :
    ∃ mark es draft ids, config = .dict mark es ∧ m.id = nameOf es ∧
      readTree m.id [] config [] = .ok (draft, ids) ∧
      readTransitions draft [] draft = .ok m.root := by
  rw [define, map_error_eq_ok] at hm
  unfold assemble at hm
  split at hm
  · obtain ⟨-, -, hm⟩ := bind_eq_ok.mp hm
    obtain ⟨⟨draft, ids⟩, hdraft, hm⟩ := bind_eq_ok.mp hm
    obtain ⟨root, hroot, hm⟩ := bind_eq_ok.mp hm
    obtain rfl := Except.ok.inj hm
    exact ⟨_, _, draft, ids, rfl, rfl, hdraft, hroot⟩
  · cases hm

/-- The chart of a machine is well-formed, and its transitions lead between its nodes. -/
theorem well_formed_of_define {config : Value} {m : Machine} (hconfig : config.wellFormed = true)
    (hm : define config = .ok m) : m.WellFormed := by
  obtain ⟨-, -, draft, ids, -, -, hdraft, hroot⟩ := define_eq_ok hm
  have hwf := well_formed_of_read_transitions (read_tree_well_formed _ hconfig hdraft) hroot
  -- Targets are looked up in what the first pass read, which has the nodes of the chart.
  have hat : ∀ q, (draft.at? q).isSome → (m.root.at? q).isSome := by
    intro q hq
    have hrel := at_read_transitions hroot q
    generalize draft.at? q = o at hrel hq
    generalize m.root.at? q = o' at hrel
    cases hrel with
    | none => exact hq
    | some _ => rfl
  have hleads : ∀ p a, m.root.get? p = some a → Leads draft p a.on := by
    intro p a ha
    obtain ⟨s, hs, rfl⟩ := Option.map_eq_some_iff.mp ha
    have hrel := at_read_transitions hroot p
    rw [hs] at hrel
    generalize draft.at? p = o at hrel
    cases hrel with
    | @some u _ hu =>
        rcases u with ⟨b, cs⟩
        obtain ⟨on, ds, hon, -, rfl⟩ := read_transitions_eq_ok hu
        simpa [Tree.value] using hon
  refine ⟨hwf, fun p a ha e he t ht => (hleads p a ha e he t ht).1, fun t ht q hq => ?_⟩
  obtain ⟨p, a, ha, e, he, ht⟩ := (Tree.mem_transitions hwf).mp ht
  exact hat q ((hleads p a ha e he t ht).2 q hq)

end Machine

end Statechart
