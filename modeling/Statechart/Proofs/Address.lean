import Statechart.Proofs.Definition
import Mathlib.Data.List.Pairwise
import Mathlib.Data.List.TakeWhile

/-!
# Absolute targets

An absolute target is `#`, an identity, and perhaps a dot and the dotted path of a descendant. The
first dot ends the identity, wherever that dot comes from. Read `absolute_addresses` first: it says
which nodes are reached by their identities, and which of their descendants are. Identities without
dots reach their nodes. The ones that nodes have by default reach theirs through the root when the
name of the machine holds no dot. The remaining ones reach their nodes only when the part before the
first dot is an identity too, and the rest leads on from there to the node.
-/

namespace Statechart

/-! ## Identities -/

namespace Tree

variable {τ : Type} {root : Tree (Node τ)}

/-- No two nodes have one text as their identity. -/
def DistinctIds (root : Tree (Node τ)) : Prop :=
  ∀ p q a b s, root.get? p = some a → root.get? q = some b → a.id = .text s → b.id = .text s →
    p = q

/-- A text is found among the identities exactly when it is that of a node. -/
theorem path_of_id_iff (hwf : root.WellFormed) (hids : root.DistinctIds) {s : String} {p : Path} :
    root.pathOfId? s = some p ↔ ∃ a, root.get? p = some a ∧ a.id = .text s := by
  have hmem : ∀ {v q}, (v, q) ∈ root.ids ↔ ∃ a, root.get? q = some a ∧ a.id = v := by
    intro v q
    simp [ids, mem_nodes hwf, and_comm]
  constructor
  · intro h
    obtain ⟨⟨v, q⟩, hfind, rfl⟩ := Option.map_eq_some_iff.mp h
    obtain ⟨a, ha, rfl⟩ := hmem.mp (List.mem_of_find?_eq_some hfind)
    have htext := List.find?_some hfind
    exact ⟨a, ha, Value.eq_text_of_text (by simpa using htext)⟩
  · intro h
    obtain ⟨a, ha, hid⟩ := h
    have hsome : (root.ids.find? fun e => e.1.text? == some s).isSome := by
      rw [List.find?_isSome]
      exact ⟨(a.id, p), hmem.mpr ⟨a, ha, rfl⟩, by simp [hid, Value.text?]⟩
    obtain ⟨⟨v, q⟩, hfind⟩ := Option.isSome_iff_exists.mp hsome
    obtain ⟨b, hb, rfl⟩ := hmem.mp (List.mem_of_find?_eq_some hfind)
    have htext := List.find?_some hfind
    obtain rfl := hids _ _ _ _ _ ha hb hid (Value.eq_text_of_text (by simpa using htext))
    simp [pathOfId?, hfind]

end Tree

namespace Machine

/-- No two values of a list are the same. -/
def Different (ids : List Value) : Prop :=
  ids.Pairwise fun v w => Value.same w v = false

/-- What reading nodes with the given identities does to the list of identities in use. -/
structure Reads (ids ids' read : List Value) : Prop where
  eq_append : ids' = read.reverse ++ ids
  different : Different ids → Different ids'

theorem Reads.nil (ids : List Value) : Reads ids ids [] :=
  ⟨rfl, fun hids => hids⟩

theorem Reads.append {ids ids' ids'' vs ws : List Value} (h : Reads ids ids' vs)
    (h' : Reads ids' ids'' ws) : Reads ids ids'' (vs ++ ws) := by
  obtain ⟨rfl, hvs⟩ := h
  obtain ⟨rfl, hws⟩ := h'
  exact ⟨by simp, fun hids => hws (hvs hids)⟩

/-- An identity that passes its check differs from those in use. -/
theorem reads_of_check_id {ids : List Value} {v : Value} (h : checkId ids v = .ok ()) :
    Reads ids (v :: ids) [v] := by
  refine ⟨rfl, fun hids => List.pairwise_cons.mpr ⟨fun w hw => ?_, hids⟩⟩
  have hin : v.isIn ids = false := by
    simp only [checkId] at h
    split at h
    · cases h
    · split at h
      · cases h
      · rename_i hin
        exact Bool.eq_false_iff.mpr hin
  exact Bool.eq_false_iff.mpr (List.any_eq_false.mp hin w hw)

/-- The identities of a tree, in document order. -/
def treeIds (t : Draft) : List Value :=
  t.nodes.map fun e => e.2.id

/-- The identities of the trees of a forest, in document order. -/
def forestIds (cs : List (String × Draft)) : List Value :=
  (Tree.forestNodes cs).map fun e => e.2.id

theorem tree_ids_node (a : Node Value) (cs : List (String × Draft)) :
    treeIds (.node a cs) = [a.id] ++ forestIds cs := rfl

theorem forest_ids_cons (k : String) (t : Draft) (cs : List (String × Draft)) :
    forestIds ((k, t) :: cs) = treeIds t ++ forestIds cs := by
  simp [forestIds, treeIds, Tree.forestNodes, Tree.under, Function.comp_def]

mutual

/-- Reading a tree reads the identities of its nodes. -/
theorem reads_of_read_tree {machine : Value} : ∀ (v : Value) {path : Path} {ids ids' : List Value}
    {t : Draft}, readTree machine path v ids = .ok (t, ids') → Reads ids ids' (treeIds t)
  | v, path, ids, ids', t, h => by
      have hfields : ∀ {es : Table}, (∀ {ids ids' cs},
          readStates machine path es ids = .ok (cs, ids') → Reads ids ids' (forestIds cs)) →
          readTree machine path (.view es) ids = .ok (t, ids') → Reads ids ids' (treeIds t) := by
        intro es hstates h
        simp only [readTree] at h
        obtain ⟨a, -, h⟩ := bind_eq_ok.mp h
        obtain ⟨⟨⟩, hid, h⟩ := bind_eq_ok.mp h
        obtain ⟨⟨cs, ids''⟩, hcs, h⟩ := bind_eq_ok.mp h
        obtain ⟨-, -, h⟩ := bind_eq_ok.mp h
        obtain ⟨rfl, rfl⟩ := Prod.mk.inj (Except.ok.inj h)
        rw [tree_ids_node]
        exact (reads_of_check_id hid).append (hstates hcs)
      cases v with
      | dict mark es =>
          exact hfields (fun hcs => reads_of_read_states es hcs) (by simpa only [readTree] using h)
      | view es => exact hfields (fun hcs => reads_of_read_states es hcs) h
      | _ =>
          simp only [readTree] at h
          split at h
          · cases h
          · obtain ⟨a, -, h⟩ := bind_eq_ok.mp h
            obtain ⟨⟨⟩, hid, h⟩ := bind_eq_ok.mp h
            obtain ⟨rfl, rfl⟩ := Prod.mk.inj (Except.ok.inj h)
            exact reads_of_check_id hid

/-- Reading the children that fields declare reads the identities of what is below them. -/
theorem reads_of_read_states {machine : Value} : ∀ (es : List (Value × Value)) {path : Path}
    {ids ids' : List Value} {cs : List (String × Draft)},
    readStates machine path es ids = .ok (cs, ids') → Reads ids ids' (forestIds cs)
  | [], path, ids, ids', cs, h => by
      obtain ⟨rfl, rfl⟩ := Prod.mk.inj (Except.ok.inj h)
      exact .nil ids
  | (k, v) :: es, path, ids, ids', cs, h => by
      simp only [readStates] at h
      split at h
      · exact reads_of_read_forest v h
      · exact reads_of_read_states es h

/-- Reading the children that a table declares reads the identities of what is below them. -/
theorem reads_of_read_forest {machine : Value} : ∀ (v : Value) {path : Path}
    {ids ids' : List Value} {cs : List (String × Draft)},
    readForest machine path v ids = .ok (cs, ids') → Reads ids ids' (forestIds cs)
  | v, path, ids, ids', cs, h => by
      cases v with
      | dict mark es => exact reads_of_read_children es h
      | view es => exact reads_of_read_children es h
      | _ =>
          simp only [readForest] at h
          split at h
          · cases h
          · obtain ⟨rfl, rfl⟩ := Prod.mk.inj (Except.ok.inj h)
            exact .nil ids

/-- Reading children in order reads the identities of what is below them in order. -/
theorem reads_of_read_children {machine : Value} : ∀ (es : List (Value × Value)) {path : Path}
    {ids ids' : List Value} {cs : List (String × Draft)},
    readChildren machine path es ids = .ok (cs, ids') → Reads ids ids' (forestIds cs)
  | [], path, ids, ids', cs, h => by
      obtain ⟨rfl, rfl⟩ := Prod.mk.inj (Except.ok.inj h)
      exact .nil ids
  | (key, v) :: es, path, ids, ids', cs, h => by
      simp only [readChildren] at h
      obtain ⟨-, -, h⟩ := bind_eq_ok.mp h
      split at h
      · cases h
      · obtain ⟨k, -, h⟩ := bind_eq_ok.mp h
        obtain ⟨⟨t, ids''⟩, ht, h⟩ := bind_eq_ok.mp h
        obtain ⟨⟨ts, ids'''⟩, hts, h⟩ := bind_eq_ok.mp h
        obtain ⟨rfl, rfl⟩ := Prod.mk.inj (Except.ok.inj h)
        rw [forest_ids_cons]
        exact (reads_of_read_tree v ht).append (reads_of_read_children es hts)

end

/-- The nodes of a tree that was read have different identities. -/
theorem distinct_ids_of_read_tree {machine v : Value} {path : Path} {ids : List Value} {t : Draft}
    (hwf : t.WellFormed) (h : readTree machine path v [] = .ok (t, ids)) : t.DistinctIds := by
  obtain ⟨rfl, hdifferent⟩ := reads_of_read_tree v h
  have hpairwise : t.nodes.Pairwise fun e f => Value.same e.2.id f.2.id = false := by
    simpa [Different, treeIds, List.pairwise_reverse, List.pairwise_map] using
      hdifferent List.Pairwise.nil
  intro p q a b s ha hb hid hid'
  by_contra hne
  -- Which of the two nodes comes first does not matter, since the relation is symmetric.
  have hapart : t.nodes.Pairwise fun e f => ¬ (e.2.id = .text s ∧ f.2.id = .text s) := by
    refine hpairwise.imp fun hsame heq => ?_
    rw [heq.1, heq.2, Value.same_text, beq_self_eq_true] at hsame
    cases hsame
  have hsymm : Std.Symm fun e f : Path × Node Value =>
      ¬ (e.2.id = .text s ∧ f.2.id = .text s) := ⟨fun _ _ hef hfe => hef hfe.symm⟩
  exact hapart.forall ((Tree.mem_nodes hwf).mpr ha) ((Tree.mem_nodes hwf).mpr hb)
    (fun heq => hne (Prod.mk.inj heq).1) ⟨hid, hid'⟩

/-- Reading transitions keeps the identities of the nodes. -/
theorem id_of_read_transitions {root t : Draft} {path : Path} {c : Chart}
    (h : readTransitions root path t = .ok c) {p : Path} {a : Node Handlers}
    (ha : c.get? p = some a) : ∃ b, t.get? p = some b ∧ b.id = a.id := by
  obtain ⟨s, hs, rfl⟩ := Option.map_eq_some_iff.mp ha
  have hrel := at_read_transitions h p
  rw [hs] at hrel
  generalize hu : t.at? p = o at hrel
  cases hrel with
  | @some u _ hread =>
      rcases u with ⟨b, cs⟩
      obtain ⟨on, ds, -, -, rfl⟩ := read_transitions_eq_ok hread
      exact ⟨b, by simp [Tree.get?, hu, Tree.value], rfl⟩

/-- The node that reading gives has the identity that its fields and its path give it. -/
theorem id_of_read_tree {machine : Value} {mark : Mark} {es : Table} {path : Path}
    {ids ids' : List Value} {t : Draft}
    (h : readTree machine path (.dict mark es) ids = .ok (t, ids')) :
    ∃ v, defaultId machine path = .ok v ∧ t.value.id = orElse (field es "id") v := by
  simp only [readTree] at h
  obtain ⟨a, ha, h⟩ := bind_eq_ok.mp h
  obtain ⟨-, -, h⟩ := bind_eq_ok.mp h
  obtain ⟨⟨cs, ids''⟩, -, h⟩ := bind_eq_ok.mp h
  obtain ⟨-, -, h⟩ := bind_eq_ok.mp h
  obtain ⟨rfl, -⟩ := Prod.mk.inj (Except.ok.inj h)
  obtain ⟨v, hv, ha⟩ := bind_eq_ok.mp ha
  obtain rfl := Except.ok.inj ha
  exact ⟨v, hv, rfl⟩

variable {m : Machine} {config : Value}

/-- The root of a machine has the name of the machine as its identity. -/
theorem id_of_root (hm : define config = .ok m) : m.root.value.id = m.id := by
  obtain ⟨mark, es, draft, ids, rfl, hname, hdraft, hroot⟩ := define_eq_ok hm
  obtain ⟨b, hb, hid⟩ := id_of_read_transitions hroot (p := []) (a := m.root.value)
    (by simp [Tree.get?])
  obtain rfl : draft.value = b := by simpa [Tree.get?] using hb
  obtain ⟨v, hv, hv'⟩ := id_of_read_tree hdraft
  obtain rfl : m.id = v := Except.ok.inj hv
  rw [← hid, hv', hname, nameOf]
  cases hdeclared : (field es "id").truthy <;> simp [orElse, hdeclared]

/-- No two nodes of a machine have one text as their identity. -/
theorem distinct_ids_of_define (hconfig : config.wellFormed = true)
    (hm : define config = .ok m) : m.root.DistinctIds := by
  obtain ⟨-, -, draft, ids, -, -, hdraft, hroot⟩ := define_eq_ok hm
  have hdistinct := distinct_ids_of_read_tree (read_tree_well_formed _ hconfig hdraft) hdraft
  intro p q a b s ha hb hid hid'
  obtain ⟨a', ha', heq⟩ := id_of_read_transitions hroot ha
  obtain ⟨b', hb', heq'⟩ := id_of_read_transitions hroot hb
  exact hdistinct p q a' b' s ha' hb' (heq.trans hid) (heq'.trans hid')

end Machine

/-! ## Targets -/

namespace Tree

variable {τ : Type} {root : Tree (Node τ)}

/-- An absolute target leads down from the node with the identity before its first dot, by the
dotted path after it. -/
theorem resolve_absolute_iff (hwf : root.WellFormed) (hids : root.DistinctIds) {source p : Path}
    {s : String} : root.resolve source ("#" ++ s) = .ok p ↔ ∃ b a, root.get? b = some a ∧
      a.id = .text (String.ofList (s.toList.takeWhile (· ≠ '.'))) ∧
      p = b ++ Path.ofDotted (String.ofList ((s.toList.dropWhile (· ≠ '.')).drop 1)) ∧
      (root.at? p).isSome := by
  have htarget : ("#" ++ s).toList = '#' :: s.toList := by simp [String.toList_append]
  simp only [resolve, htarget]
  cases hb : root.pathOfId? (String.ofList (s.toList.takeWhile (· ≠ '.'))) with
  | none =>
      simp only [reduceCtorEq, false_iff, not_exists]
      intro b a h
      rw [(path_of_id_iff hwf hids).mpr ⟨a, h.1, h.2.1⟩] at hb
      cases hb
  | some b =>
      obtain ⟨a, ha, hid⟩ := (path_of_id_iff hwf hids).mp hb
      refine (descend_from_eq_ok (known_of_get ha)).trans ⟨fun h => ⟨b, a, ha, hid, h⟩, fun h => ?_⟩
      obtain ⟨b', a', ha', hid', h⟩ := h
      obtain rfl := hids _ _ _ _ _ ha' ha hid' hid
      exact h

/-- A text without a dot is cut at its end. -/
theorem cut_of_dot_free {name : List Char} (hname : '.' ∉ name) :
    name.takeWhile (· ≠ '.') = name ∧ (name.dropWhile (· ≠ '.')).drop 1 = [] := by
  have hall : ∀ c ∈ name, decide (c ≠ '.') = true := fun c hc =>
    decide_eq_true fun heq => hname (heq ▸ hc)
  rw [List.takeWhile_eq_self_iff.mpr hall, List.dropWhile_eq_nil_iff.mpr hall]
  exact ⟨rfl, rfl⟩

/-- A text is cut at its first dot. -/
theorem cut_of_dot {name rest : List Char} (hname : '.' ∉ name) :
    (name ++ '.' :: rest).takeWhile (· ≠ '.') = name ∧
      ((name ++ '.' :: rest).dropWhile (· ≠ '.')).drop 1 = rest := by
  have hall : ∀ c ∈ name, decide (c ≠ '.') = true := fun c hc =>
    decide_eq_true fun heq => hname (heq ▸ hc)
  rw [List.takeWhile_append_of_pos hall, List.dropWhile_append_of_pos hall]
  simp

/-- A target without a dot leads to the node that has it as its identity. -/
theorem resolve_id_iff (hwf : root.WellFormed) (hids : root.DistinctIds) {source p : Path}
    {name : String} (hname : '.' ∉ name.toList) : root.resolve source ("#" ++ name) = .ok p ↔
      ∃ a, root.get? p = some a ∧ a.id = .text name := by
  have hself : Path.ofDotted (String.ofList []) = [] := rfl
  rw [resolve_absolute_iff hwf hids, (cut_of_dot_free hname).1, (cut_of_dot_free hname).2,
    String.ofList_toList, hself]
  constructor
  · intro h
    obtain ⟨b, a, hb, hid, hp, -⟩ := h
    obtain rfl : p = b := by simpa using hp
    exact ⟨a, hb, hid⟩
  · intro h
    obtain ⟨a, ha, hid⟩ := h
    exact ⟨p, a, ha, hid, by simp, known_of_get ha⟩

/-- A target with a dot leads down from the node that has the part before the first dot as its
identity. -/
theorem resolve_path_iff (hwf : root.WellFormed) (hids : root.DistinctIds) {source p : Path}
    {name rest : String} (hname : '.' ∉ name.toList) :
    root.resolve source ("#" ++ (name ++ "." ++ rest)) = .ok p ↔ ∃ b a, root.get? b = some a ∧
      a.id = .text name ∧ p = b ++ Path.ofDotted rest ∧ (root.at? p).isSome := by
  have htext : (name ++ "." ++ rest).toList = name.toList ++ '.' :: rest.toList := by
    simp [String.toList_append]
  rw [resolve_absolute_iff hwf hids, htext, (cut_of_dot hname).1, (cut_of_dot hname).2,
    String.ofList_toList, String.ofList_toList]

/-- Whether an identity with a dot leads to a node: the part before the first dot is the identity of
a node, from which the rest of it, read as a path, leads on. -/
def LeadsBy (root : Tree (Node τ)) (read : String → Path) (id : String) (p : Path) : Prop :=
  ∃ name rest b a, id = name ++ "." ++ rest ∧ '.' ∉ name.toList ∧ root.get? b = some a ∧
    a.id = .text name ∧ p = b ++ read rest

/-- An identity without a dot leads to nothing. -/
theorem not_leads_by {read : String → Path} {id : String} {p : Path} (hid : '.' ∉ id.toList) :
    ¬ root.LeadsBy read id p := by
  intro h
  obtain ⟨name, rest, b, a, rfl, -⟩ := h
  exact hid (by simp [String.toList_append])

/-- A text with a dot has a part before its first dot. -/
theorem exists_first_dot {s : String} (h : '.' ∈ s.toList) :
    ∃ name rest, s = name ++ "." ++ rest ∧ '.' ∉ name.toList := by
  obtain ⟨as, bs, hs, has⟩ := List.eq_append_cons_of_mem h
  refine ⟨String.ofList as, String.ofList bs, String.ext ?_, by simpa using has⟩
  simp [String.toList_append, hs]

section

variable {source p : Path} {a : Node τ} {id : String}

/-- The identity of a node reaches the node when it holds no dot, or when it leads there. -/
theorem resolve_own_id_iff (hwf : root.WellFormed) (hids : root.DistinctIds)
    (ha : root.get? p = some a) (hid : a.id = .text id) :
    root.resolve source ("#" ++ id) = .ok p ↔
      '.' ∉ id.toList ∨ root.LeadsBy Path.ofDotted id p := by
  have hknown : (root.at? p).isSome := known_of_get ha
  by_cases hdot : '.' ∈ id.toList
  · simp only [hdot, not_true_eq_false, false_or]
    constructor
    · intro h
      obtain ⟨name, rest, rfl, hname⟩ := exists_first_dot hdot
      obtain ⟨b, c, hb, hc, hp, -⟩ := (resolve_path_iff hwf hids hname).mp h
      exact ⟨name, rest, b, c, rfl, hname, hb, hc, hp⟩
    · intro h
      obtain ⟨name, rest, b, c, rfl, hname, hb, hc, hp⟩ := h
      exact (resolve_path_iff hwf hids hname).mpr ⟨b, c, hb, hc, hp, hknown⟩
  · exact iff_of_true ((resolve_id_iff hwf hids hdot).mpr ⟨a, ha, hid⟩) (Or.inl hdot)

/-- The identity of a node, a dot and the dotted path of a node below it reach that node when the
identity holds no dot and the path is not that of the empty key alone, or when the identity leads to
the first node. -/
theorem resolve_below_iff (hwf : root.WellFormed) (hids : root.DistinctIds)
    (ha : root.get? p = some a) (hid : a.id = .text id) {q : Path} (hne : q ≠ [])
    (hq : (root.at? (p ++ q)).isSome) :
    root.resolve source ("#" ++ (id ++ "." ++ q.dotted)) = .ok (p ++ q) ↔
      ('.' ∉ id.toList ∧ q ≠ [""]) ∨ root.LeadsBy Path.keysOf id p := by
  have hdots : q.DotFree := fun k hk => hwf.dot_free hq k (List.mem_append_right p hk)
  by_cases hdot : '.' ∈ id.toList
  · -- The path goes on where the identity ends, so the keys after the first dot are those of both.
    have htext : ∀ name rest : String,
        name ++ "." ++ rest ++ "." ++ q.dotted = name ++ "." ++ (rest ++ "." ++ q.dotted) := by
      intro name rest
      simp only [String.append_assoc]
    have hkeys : ∀ b rest, p ++ q = b ++ Path.ofDotted (rest ++ "." ++ q.dotted) ↔
        p = b ++ Path.keysOf rest := by
      intro b rest
      rw [Path.of_dotted_append hne hdots, ← List.append_assoc, List.append_left_inj]
    simp only [hdot, not_true_eq_false, false_and, false_or]
    constructor
    · intro h
      obtain ⟨name, rest, rfl, hname⟩ := exists_first_dot hdot
      obtain ⟨b, c, hb, hc, hpq, -⟩ := (resolve_path_iff hwf hids hname).mp (htext name rest ▸ h)
      exact ⟨name, rest, b, c, rfl, hname, hb, hc, (hkeys b rest).mp hpq⟩
    · intro h
      obtain ⟨name, rest, b, c, rfl, hname, hb, hc, hp⟩ := h
      rw [htext]
      exact (resolve_path_iff hwf hids hname).mpr ⟨b, c, hb, hc, (hkeys b rest).mpr hp, hq⟩
  · simp only [hdot, not_false_eq_true, true_and, not_leads_by hdot, or_false]
    rw [resolve_path_iff hwf hids hdot, ← Path.of_dotted_dotted_iff hdots]
    constructor
    · intro h
      obtain ⟨b, c, hb, hc, hpq, -⟩ := h
      obtain rfl := hids _ _ _ _ _ ha hb hid hc
      exact (List.append_cancel_left hpq).symm
    · intro h
      exact ⟨p, a, ha, hid, by rw [h], hq⟩

/-- From the root, any node is reached by its dotted path, except the child under the empty key. -/
theorem resolve_from_root_iff (hwf : root.WellFormed) (hids : root.DistinctIds) {name : String}
    (hroot : root.value.id = .text name) (hname : '.' ∉ name.toList) (hne : p ≠ [])
    (hp : (root.at? p).isSome) :
    root.resolve source ("#" ++ Path.dotted (name :: p)) = .ok p ↔ p ≠ [""] := by
  have hbelow : root.resolve source ("#" ++ (name ++ "." ++ p.dotted)) = .ok ([] ++ p) ↔ _ :=
    resolve_below_iff hwf hids (by simp [get?]) hroot hne hp
  rw [Path.dotted_cons name hne]
  simpa [hname, not_leads_by hname] using hbelow

end

end Tree

namespace Machine

variable {m : Machine} {config : Value}

/-- The identity that a node has by default is the name of the machine and the keys that lead to the
node. -/
theorem default_id_eq_ok {name : String} {p : Path} {v : Value}
    (h : defaultId (.text name) p = .ok v) : v = .text (Path.dotted (name :: p)) := by
  cases p with
  | nil =>
      obtain rfl := Except.ok.inj h
      rw [Path.dotted_singleton]
  | cons k ks => exact (Except.ok.inj h).symm

/-- A node is reached by its identity when the identity holds no dot, or when the part of it before
the first dot is an identity from which the rest leads to the node; and so is what is below the
node, by the identity, a dot and the dotted path from the node, except for the child under the empty
key behind an identity without dots. When the name of the machine holds no dot, a node with the
identity that it has by default is reached, and so is what is below it, except for the child of the
root under the empty key. -/
theorem absolute_addresses (hconfig : config.wellFormed = true) (hm : define config = .ok m)
    (source : Path) {p : Path} {a : Node Handlers} {id : String} (hp : m.root.get? p = some a)
    (hid : a.id = .text id) :
    (m.root.resolve source ("#" ++ id) = .ok p ↔
      '.' ∉ id.toList ∨ m.root.LeadsBy Path.ofDotted id p) ∧
    (∀ q : Path, q ≠ [] → (m.root.at? (p ++ q)).isSome →
      (m.root.resolve source ("#" ++ (id ++ "." ++ q.dotted)) = .ok (p ++ q) ↔
        ('.' ∉ id.toList ∧ q ≠ [""]) ∨ m.root.LeadsBy Path.keysOf id p)) ∧
    ∀ name, m.id = .text name → '.' ∉ name.toList → defaultId m.id p = .ok (.text id) →
      (m.root.resolve source ("#" ++ id) = .ok p ↔ p ≠ [""]) ∧
      ∀ q : Path, q ≠ [] → (m.root.at? (p ++ q)).isSome →
        (m.root.resolve source ("#" ++ (id ++ "." ++ q.dotted)) = .ok (p ++ q) ↔
          p ++ q ≠ [""]) := by
  have hwf := (well_formed_of_define hconfig hm).root
  have hids := distinct_ids_of_define hconfig hm
  refine ⟨Tree.resolve_own_id_iff hwf hids hp hid,
    fun q hne hq => Tree.resolve_below_iff hwf hids hp hid hne hq,
    fun name hname hdot hdefault => ?_⟩
  have hroot : m.root.value.id = .text name := (id_of_root hm).trans hname
  obtain rfl : id = Path.dotted (name :: p) :=
    Value.text.inj (default_id_eq_ok (hname ▸ hdefault))
  constructor
  · by_cases hnil : p = []
    · subst hnil
      rw [Path.dotted_singleton] at hid ⊢
      exact iff_of_true ((Tree.resolve_id_iff hwf hids hdot).mpr ⟨a, hp, hid⟩) (by simp)
    · exact Tree.resolve_from_root_iff hwf hids hroot hdot hnil (Tree.known_of_get hp)
  · intro q hne hq
    rw [← Path.dotted_append (by simp) hne, List.cons_append]
    exact Tree.resolve_from_root_iff hwf hids hroot hdot (by simp [hne]) hq

/-! ## Identities with dots -/

/-- The configuration of a hotel in which one floor has an identity of its own. -/
def hotelConfig : Value :=
  .table
    [("id", .text "hotel"), ("initial", .text "lobby"),
      ("states", .table
        [("lobby", .table []),
          ("floor", .table
            [("id", .text "first"), ("initial", .text "hall"),
              ("states", .table
                [("hall", .table
                    [("initial", .text "desk"), ("states", .table [("desk", .table [])])]),
                  ("room", .table [])])])])]

/-- The floor and its hall are reached by their identities, and so is the desk below either. -/
theorem hotel_addresses : ∃ m, define hotelConfig = .ok m ∧
    m.root.resolve ["lobby"] "#first" = .ok ["floor"] ∧
    m.root.resolve ["lobby"] "#first.hall.desk" = .ok ["floor", "hall", "desk"] ∧
    m.root.resolve ["lobby"] "#hotel.floor.hall" = .ok ["floor", "hall"] ∧
    m.root.resolve ["lobby"] "#hotel.floor.hall.desk" = .ok ["floor", "hall", "desk"] := by
  have hasId : ∀ {m : Machine} {p : Path} {s : String},
      (m.root.get? p).any (fun a => a.id.text? == some s) = true →
      ∃ a, m.root.get? p = some a ∧ a.id = .text s := by
    intro m p s h
    obtain ⟨a, ha, hid⟩ := (Option.any_eq_true _ _).mp h
    exact ⟨a, ha, Value.eq_text_of_text (by simpa using hid)⟩
  obtain ⟨m, hm, hcheck⟩ := exists_of_any (x := define hotelConfig) (P := fun m =>
      (m.root.get? ["floor"]).any (fun a => a.id.text? == some "first") &&
        (m.root.get? ["floor", "hall"]).any (fun a => a.id.text? == some "hotel.floor.hall") &&
        m.id.text? == some "hotel" && (m.root.at? ["floor", "hall", "desk"]).isSome)
    (by decide +kernel)
  simp only [Bool.and_eq_true, beq_iff_eq] at hcheck
  obtain ⟨⟨⟨hfloor, hhall⟩, hname⟩, hdesk⟩ := hcheck
  obtain ⟨a, ha, hfirst⟩ := hasId hfloor
  obtain ⟨b, hb, hdefault⟩ := hasId hhall
  have hhotel : m.id = .text "hotel" := Value.eq_text_of_text hname
  have hconfig : hotelConfig.wellFormed = true := by decide +kernel
  obtain ⟨hown, hbelow, -⟩ := absolute_addresses hconfig hm ["lobby"] ha hfirst
  obtain ⟨-, -, hdefaults⟩ := absolute_addresses hconfig hm ["lobby"] hb hdefault
  obtain ⟨hown', hbelow'⟩ := hdefaults "hotel" hhotel (by decide) (by rw [hhotel]; rfl)
  exact ⟨m, hm, hown.mpr (Or.inl (by decide)),
    (hbelow ["hall", "desk"] (by decide) hdesk).mpr (Or.inl (by decide)),
    hown'.mpr (by decide), (hbelow' ["desk"] (by decide) hdesk).mpr (by decide)⟩

/-- The configuration of a sign whose name holds a dot. -/
def signConfig : Value :=
  .table
    [("id", .text "sign.v1"), ("initial", .text "on"),
      ("states", .table [("on", .table []), ("off", .table [])])]

/-- The name of the sign is the identity of its root, but as a target it is an unknown identity. -/
theorem unreached_sign : ∃ m a, define signConfig = .ok m ∧ m.root.get? [] = some a ∧
    a.id = .text "sign.v1" ∧
    m.root.resolve ["on"] "#sign.v1" = .error (.definition (.unknownId "#sign.v1")) := by
  obtain ⟨m, hm, hcheck⟩ := exists_of_any (x := define signConfig) (P := fun m =>
      (m.root.get? []).any (fun a => a.id.text? == some "sign.v1") &&
        (m.root.pathOfId? "sign").isNone)
    (by decide +kernel)
  simp only [Bool.and_eq_true, Option.any_eq_true, beq_iff_eq, Option.isNone_iff_eq_none] at hcheck
  obtain ⟨⟨a, ha, hid⟩, hnone⟩ := hcheck
  exact ⟨m, a, hm, ha, Value.eq_text_of_text hid, by simp [Tree.resolve, hnone]⟩

end Machine

end Statechart
