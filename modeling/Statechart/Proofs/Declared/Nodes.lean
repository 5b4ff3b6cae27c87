import Statechart.Proofs.Address
import Statechart.Proofs.Legality

/-!
# What configurations declare

`declared` follows a path through a configuration, and `Names`, `Faulty` and `Documented` speak of
what it finds there. Read `explained_of_read_tree` last: the first pass over a documented
configuration fails only for a fault of it. Before that, `get_of_read_tree` says that what the pass
reads at a path is what is declared there.
-/

namespace Statechart

namespace Machine

/-! ## What a configuration declares -/

/-- The entries of a table; anything else stands for none. -/
def fieldsOf (v : Value) : Table :=
  v.entries?.getD []

/-- The children that a node declares. -/
def statesOf (cfg : Value) : Table :=
  fieldsOf (field (fieldsOf cfg) "states")

/-- The configuration of the node that keys lead to. -/
def declared (cfg : Value) : Path → Option Value
  | [] => some cfg
  | k :: ks => (Table.getText? (statesOf cfg) k).bind fun sub => declared sub ks

/-- A text that is not empty, or else the other one. -/
def textOr (v : Value) (other : String) : String :=
  match v with
  | .text s => if s.isEmpty then other else s
  | _ => other

/-- The name of the machine that a configuration declares. -/
def machineName (config : Value) : String :=
  textOr (field (fieldsOf config) "id") (textOr (field (fieldsOf config) "key") "machine")

/-- The identity of the node at a path: its own, or the name of the machine and the keys that lead
to the node, joined by dots. -/
def identity (machine : String) (p : Path) (cfg : Value) : String :=
  textOr (field (fieldsOf cfg) "id") (Path.dotted (machine :: p))

/-- The candidates that an entry of `on` lists: those of a list, or one alone. -/
def listed : Value → List Value
  | .list _ xs => xs
  | v => [v]

/-- The candidates of a node, for all types of events. -/
def offers (cfg : Value) : List Value :=
  (fieldsOf (field (fieldsOf cfg) "on")).flatMap fun e => listed e.2

/-- Whether a candidate is a text or a table. -/
def isCandidate : Value → Bool
  | .text _ => true
  | .dict .. => true
  | _ => false

/-- The targets of a candidate. A text is its own target. -/
def targetsOf : Value → List Value
  | .text s => [.text s]
  | v => items (field (fieldsOf v) "target")

/-- The guard of a candidate, or null. -/
def guardOf (item : Value) : Value :=
  field (fieldsOf item) "cond"

/-- What a target names, seen from the node at `source`: a node by its identity, which ends at the
first dot, or a node below that one, below the source, or below the parent of the source. -/
inductive Names (config : Value) (source : Path) : String → Path → Prop where
  | identified {p : Path} {cfg : Value} (hp : declared config p = some cfg)
      (hdot : '.' ∉ (identity (machineName config) p cfg).toList) :
      Names config source ("#" ++ identity (machineName config) p cfg) p
  | below {p : Path} {cfg : Value} {rest : String} (hp : declared config p = some cfg)
      (hdot : '.' ∉ (identity (machineName config) p cfg).toList)
      (known : (declared config (p ++ Path.ofDotted rest)).isSome) :
      Names config source ("#" ++ (identity (machineName config) p cfg ++ "." ++ rest))
        (p ++ Path.ofDotted rest)
  | inside {rest : String} (known : (declared config (source ++ Path.ofDotted rest)).isSome) :
      Names config source ("." ++ rest) (source ++ Path.ofDotted rest)
  | beside {target : String} (hashless : target.toList.head? ≠ some '#')
      (dotless : target.toList.head? ≠ some '.')
      (known : (declared config (source.dropLast ++ Path.ofDotted target)).isSome) :
      Names config source target (source.dropLast ++ Path.ofDotted target)

/-- What is wrong with a configuration. -/
inductive Faulty (config : Value) : Prop where
  | dottedKey {p : Path} {k : String} (known : (declared config (p ++ [k])).isSome)
      (hdot : '.' ∈ k.toList)
  | sharedId {p q : Path} {cfg cfg' : Value} (hp : declared config p = some cfg)
      (hq : declared config q = some cfg') (apart : p ≠ q)
      (shared : identity (machineName config) p cfg = identity (machineName config) q cfg')
  | noInitial {p : Path} {cfg : Value} (hp : declared config p = some cfg)
      (compound : kindOf (fieldsOf cfg) = .compound)
      (none : field (fieldsOf cfg) "initial" = .null)
  | strayInitial {p : Path} {cfg : Value} (hp : declared config p = some cfg)
      (compound : kindOf (fieldsOf cfg) = .compound)
      (some : field (fieldsOf cfg) "initial" ≠ .null)
      (stray : ∀ k, (declared cfg [k]).isSome → field (fieldsOf cfg) "initial" ≠ .text k)
  | invalidCandidate {p : Path} {cfg item : Value} (hp : declared config p = some cfg)
      (offered : item ∈ offers cfg) (invalid : isCandidate item = false)
  | guardNotCallable {p : Path} {cfg item : Value} (hp : declared config p = some cfg)
      (offered : item ∈ offers cfg) (some : guardOf item ≠ .null)
      (not : (guardOf item).isCallable = false)
  | unknownTarget {p : Path} {cfg item : Value} {target : String}
      (hp : declared config p = some cfg) (offered : item ∈ offers cfg)
      (aimed : .text target ∈ targetsOf item) (unknown : ∀ q, ¬ Names config p target q)

/-- A text, or something false, which stands for none. -/
def TextOrNone (v : Value) : Prop :=
  v.truthy = false ∨ ∃ s, v = .text s

/-- A table, or something false, which stands for none. -/
def TableOrNone (v : Value) : Prop :=
  v.truthy = false ∨ v.isMapping = true

/-- The configuration of a node that is put together as documented: nodes, their children and their
handlers are tables, and keys, identities and targets are texts. -/
inductive DocumentedNode : Value → Prop where
  | node {cfg : Value} (table : TableOrNone cfg)
      (id : TextOrNone (field (fieldsOf cfg) "id"))
      (on : TableOrNone (field (fieldsOf cfg) "on"))
      (targets : ∀ item ∈ offers cfg, ∀ v ∈ targetsOf item, ∃ s, v = .text s)
      (states : TableOrNone (field (fieldsOf cfg) "states"))
      (keys : ∀ e ∈ statesOf cfg, ∃ k, e.1 = .text k)
      (below : ∀ e ∈ statesOf cfg, DocumentedNode e.2) : DocumentedNode cfg

/-- The configuration of a machine that is put together as documented. -/
structure Documented (config : Value) : Prop where
  table : ∃ mark es, config = .dict mark es
  key : TextOrNone (field (fieldsOf config) "key")
  root : DocumentedNode config

/-- A compound node has a default that cannot be looked up among keys. -/
def UnhashableDefault (config : Value) : Prop :=
  ∃ p cfg, declared config p = some cfg ∧ kindOf (fieldsOf cfg) = .compound ∧
    (field (fieldsOf cfg) "initial").hashable = false

/-- A compound node has a default, or a node has a candidate that is none, without a text. -/
def UnnamableFault (config : Value) : Prop :=
  ∃ p cfg, declared config p = some cfg ∧
    ((kindOf (fieldsOf cfg) = .compound ∧ (field (fieldsOf cfg) "initial").hasText = false) ∨
      ∃ item ∈ offers cfg, isCandidate item = false ∧ item.hasText = false)

/-- A failure to read a configuration that a fault of the configuration explains. A default may not
even be looked up, and what is at fault may have no text to be named by. -/
def Explained (config : Value) (e : Error) : Prop :=
  Faulty config ∧ ((∃ f, e = .definition f ∧ (f.hasText = false → UnnamableFault config)) ∨
    e = .wrongType ∧ UnhashableDefault config)

variable {config cfg sub : Value} {name : String} {path p q : Path} {ids ids' : List Value}
  {t : Draft} {e : Error}

/-! ## Nodes -/

/-- A fault that is named in the report explains it. -/
theorem Faulty.explains {f : DefinitionFault} (h : Faulty config) (hf : f.hasText = true) :
    Explained config (.definition f) :=
  ⟨h, Or.inl ⟨f, rfl, fun hnone => by simp [hf] at hnone⟩⟩

theorem declared_cons (cfg : Value) (k : String) (ks : Path) : declared cfg (k :: ks) =
    (Table.getText? (statesOf cfg) k).bind fun sub => declared sub ks := rfl

theorem declared_append (cfg : Value) (p q : Path) :
    declared cfg (p ++ q) = (declared cfg p).bind fun sub => declared sub q := by
  induction p generalizing cfg with
  | nil => rfl
  | cons k p ih =>
      rw [List.cons_append, declared_cons, declared_cons]
      cases Table.getText? (statesOf cfg) k with
      | none => rfl
      | some sub => exact ih sub

/-- What a child declares is declared. -/
theorem declared_concat {k : String} (hp : declared config path = some cfg)
    (hk : Table.getText? (statesOf cfg) k = some sub) :
    declared config (path ++ [k]) = some sub := by
  rw [declared_append, hp, Option.bind_some, declared_cons, hk]
  rfl

theorem mem_of_get_text {es : Table} {k : String} {v : Value} (h : es.getText? k = some v) :
    ∃ e ∈ es, e.2 = v := by
  obtain ⟨e, he, hv⟩ := Option.map_eq_some_iff.mp h
  exact ⟨e, List.mem_of_find?_eq_some he, hv⟩

/-- The nodes below a documented one are documented. -/
theorem DocumentedNode.declared (h : DocumentedNode cfg) (hp : declared cfg p = some sub) :
    DocumentedNode sub := by
  induction p generalizing cfg with
  | nil =>
      obtain rfl : cfg = sub := Option.some.inj hp
      exact h
  | cons k p ih =>
      obtain ⟨v, hv, hp⟩ := Option.bind_eq_some_iff.mp hp
      obtain ⟨e, he, rfl⟩ := mem_of_get_text hv
      cases h with
      | node _ _ _ _ _ _ below => exact ih (below e he) hp

theorem or_else_eq_text {v : Value} (h : TextOrNone v) (other : String) :
    orElse v (.text other) = .text (textOr v other) := by
  rcases h with h | ⟨s, rfl⟩
  · rw [orElse, h, if_neg Bool.false_ne_true]
    cases v with
    | text s =>
        have hs : s.isEmpty = true := by simpa [Value.truthy] using h
        rw [textOr, if_pos hs]
    | _ => rfl
  · rw [orElse, textOr, Value.truthy]
    cases s.isEmpty <;> rfl

/-- The node that a documented configuration declares, apart from its transitions. -/
def nodeOf (name : String) (p : Path) (cfg : Value) : Node Value where
  id := .text (identity name p cfg)
  kind := kindOf (fieldsOf cfg)
  initial := field (fieldsOf cfg) "initial"
  entry := items (fieldOr (fieldsOf cfg) "entry" "onEntry")
  exit := items (fieldOr (fieldsOf cfg) "exit" "onExit")
  on := field (fieldsOf cfg) "on"

@[simp] theorem node_of_id (name : String) (p : Path) (cfg : Value) :
    (nodeOf name p cfg).id = .text (identity name p cfg) := rfl

theorem read_node_eq (hid : TextOrNone (field (fieldsOf cfg) "id")) :
    readNode (.text name) p (fieldsOf cfg) = .ok (nodeOf name p cfg) := by
  have hdefault : defaultId (.text name) p = .ok (.text (Path.dotted (name :: p))) := by
    cases p with
    | nil => rw [Path.dotted_singleton]; rfl
    | cons k ks => rfl
  rw [readNode, hdefault, ok_bind, or_else_eq_text hid]
  rfl

theorem read_states_eq (machine : Value) (path : Path) (es : Table) :
    readStates machine path es = readForest machine path (field es "states") := by
  induction es with
  | nil => rfl
  | cons e es ih =>
      rcases e with ⟨k, v⟩
      rw [readStates, field, Value.get_text_cons]
      by_cases hk : k.text? = some "states"
      · rw [if_pos hk, if_pos hk]
        rfl
      · rw [if_neg hk, if_neg hk, ih]
        rfl

theorem read_forest_eq {v : Value} (h : TableOrNone v) (machine : Value) (path : Path) :
    readForest machine path v = readChildren machine path (fieldsOf v) := by
  cases v with
  | dict m es => rfl
  | view es => rfl
  | _ =>
      have hfalse := h.resolve_right (by simp [Value.isMapping, Value.entries?])
      simp [readForest, readChildren, fieldsOf, Value.entries?, hfalse]

/-- A configuration is read by its entries, and one that is false by none. -/
theorem read_tree_of_fields (h : TableOrNone cfg) (machine : Value) (path : Path)
    (ids : List Value) :
    readTree machine path cfg ids = readTree machine path (.view (fieldsOf cfg)) ids ∨
      fieldsOf cfg = [] ∧ readTree machine path cfg ids = do
        let node ← readNode machine path []
        checkId ids node.id
        return (.node node [], node.id :: ids) := by
  cases cfg with
  | dict m es => exact Or.inl (by simp only [readTree, fieldsOf, Value.entries?, Option.getD_some])
  | view es => exact Or.inl rfl
  | _ =>
      have hfalse := h.resolve_right (by simp [Value.isMapping, Value.entries?])
      exact Or.inr ⟨rfl, by simp [readTree, hfalse]⟩

/-- Reading a documented node reads its children between the checks of its identity and of its
default. -/
theorem read_tree_eq (h : DocumentedNode cfg) (name : String) (path : Path) (ids : List Value) :
    readTree (.text name) path cfg ids = do
      checkId ids (.text (identity name path cfg))
      let (cs, ids) ← readChildren (.text name) path (statesOf cfg)
        (.text (identity name path cfg) :: ids)
      checkInitial (nodeOf name path cfg) (cs.map Prod.fst)
      return (.node (nodeOf name path cfg) cs, ids) := by
  cases h with
  | node table id _ _ states _ _ =>
      have hnode : readNode (.text name) path (fieldsOf cfg) = .ok (nodeOf name path cfg) :=
        read_node_eq id
      have hstates : readStates (.text name) path (fieldsOf cfg) =
          readChildren (.text name) path (statesOf cfg) := by
        rw [read_states_eq, read_forest_eq states, statesOf]
      rcases read_tree_of_fields table (.text name) path ids with hread | ⟨hnone, hread⟩
      · rw [hread]
        simp only [readTree, hnode, ok_bind, hstates]
        rfl
      · rw [hnone] at hnode hstates
        have hchildren : statesOf cfg = [] := by
          rw [statesOf, hnone]
          rfl
        have hinitial : checkInitial (nodeOf name path cfg) [] = .ok () := by
          simp [checkInitial, nodeOf, hnone, kindOf, field, Table.getText?, Table.get?, Value.eq,
            Value.same, Value.place?, Value.truthy]
        rw [hread, hnode, hchildren]
        simp [readChildren, hinitial]

/-! ## The first pass -/

/-- Children are read under the keys that lead to what they declare. -/
theorem lookup_read_children {machine : Value} {es : Table} {cs : List (String × Draft)}
    (h : readChildren machine path es ids = .ok (cs, ids')) (k : String) :
    Option.Rel (fun sub t => ∃ ids ids', readTree machine (path ++ [k]) sub ids = .ok (t, ids'))
      (es.getText? k) (cs.lookup k) := by
  induction es generalizing ids cs with
  | nil =>
      obtain ⟨rfl, -⟩ := Prod.mk.inj (Except.ok.inj h)
      exact .none
  | cons e es ih =>
      rcases e with ⟨key, v⟩
      simp only [readChildren] at h
      obtain ⟨⟨⟩, hcheck, h⟩ := bind_eq_ok.mp h
      split at h
      · cases h
      · obtain ⟨l, hl, h⟩ := bind_eq_ok.mp h
        obtain ⟨⟨t, ids₁⟩, ht, h⟩ := bind_eq_ok.mp h
        obtain ⟨⟨ts, ids₂⟩, hts, h⟩ := bind_eq_ok.mp h
        obtain ⟨rfl, rfl⟩ := Prod.mk.inj (Except.ok.inj h)
        obtain ⟨-, rfl⟩ := dot_free_of_check_key hcheck hl
        rw [Value.get_text_cons]
        by_cases hk : l = k
        · subst hk
          rw [Value.text?, if_pos rfl, List.lookup_cons_self]
          exact .some ⟨ids, ids₁, ht⟩
        · have hbeq : (k == l) = false := by simpa using Ne.symm hk
          simpa [Value.text?, hk, List.lookup_cons, hbeq] using ih hts

/-- Reading a documented configuration gives the nodes that it declares. -/
theorem get_of_read_tree (hcfg : DocumentedNode cfg)
    (h : readTree (.text name) path cfg ids = .ok (t, ids')) (p : Path) :
    t.get? p = (declared cfg p).map (nodeOf name (path ++ p)) := by
  induction p generalizing cfg path t ids ids' with
  | nil =>
      rw [read_tree_eq hcfg] at h
      obtain ⟨-, -, h⟩ := bind_eq_ok.mp h
      obtain ⟨⟨cs, ids₁⟩, -, h⟩ := bind_eq_ok.mp h
      obtain ⟨-, -, h⟩ := bind_eq_ok.mp h
      obtain ⟨rfl, -⟩ := Prod.mk.inj (Except.ok.inj h)
      simp [Tree.get?, Tree.value, declared]
  | cons k p ih =>
      rw [read_tree_eq hcfg] at h
      obtain ⟨-, -, h⟩ := bind_eq_ok.mp h
      obtain ⟨⟨cs, ids₁⟩, hcs, h⟩ := bind_eq_ok.mp h
      obtain ⟨-, -, h⟩ := bind_eq_ok.mp h
      obtain ⟨rfl, -⟩ := Prod.mk.inj (Except.ok.inj h)
      rw [Tree.get?, Tree.at_cons, declared_cons]
      have hrel := lookup_read_children hcs k
      generalize hsub : Table.getText? (statesOf cfg) k = o at hrel
      generalize cs.lookup k = o' at hrel
      cases hrel with
      | none => rfl
      | some hread =>
          obtain ⟨ids₂, ids₃, hread⟩ := hread
          have hdoc := hcfg.declared (p := [k]) (by rw [declared_cons, hsub]; rfl)
          simpa [Tree.get?] using ih hdoc hread

/-- The keys of a table are different, and its values are well-formed. -/
theorem well_formed_fields {v : Value} (h : v.wellFormed = true) :
    Value.allDistinct ((fieldsOf v).map Prod.fst) = true ∧
      ∀ e ∈ fieldsOf v, e.2.wellFormed = true := by
  cases v with
  | dict m es =>
      simp only [Value.wellFormed, Bool.and_eq_true, Value.entries_well_formed_iff] at h
      exact ⟨h.1, fun e he => (h.2 e he).2⟩
  | view es =>
      simp only [Value.wellFormed, Bool.and_eq_true, Value.entries_well_formed_iff] at h
      exact ⟨h.1, fun e he => (h.2 e he).2⟩
  | _ => exact ⟨rfl, by simp [fieldsOf, Value.entries?]⟩

theorem well_formed_states (h : cfg.wellFormed = true) :
    Value.allDistinct ((statesOf cfg).map Prod.fst) = true ∧
      ∀ e ∈ statesOf cfg, e.2.wellFormed = true := by
  refine well_formed_fields ?_
  rw [field]
  cases hv : (fieldsOf cfg).getText? "states" with
  | none => rfl
  | some v =>
      obtain ⟨e, he, rfl⟩ := mem_of_get_text hv
      exact (well_formed_fields h).2 e he

/-- A table with different keys has what stands in it under a text. -/
theorem get_text_of_mem {es : Table} (h : Value.allDistinct (es.map Prod.fst) = true) {k : String}
    {v : Value} (hmem : (.text k, v) ∈ es) : es.getText? k = some v := by
  induction es with
  | nil => cases hmem
  | cons e es ih =>
      rcases e with ⟨l, w⟩
      simp only [List.map_cons, Value.allDistinct, Bool.and_eq_true, List.all_eq_true] at h
      rw [Value.get_text_cons]
      rcases List.mem_cons.mp hmem with heq | hmem
      · obtain ⟨rfl, rfl⟩ := Prod.mk.inj heq
        rw [Value.text?, if_pos rfl]
      · have hne : l.text? ≠ some k := by
          intro hl
          have hsame := h.1 (.text k) (List.mem_map_of_mem hmem)
          simp [Value.same_text_eq, hl] at hsame
        rw [if_neg hne, ih h.2 hmem]

/-- The identities of the nodes that were read are those of the nodes declared. -/
theorem mem_ids_of_read_tree (hcfg : DocumentedNode cfg) (hwf : cfg.wellFormed = true)
    (h : readTree (.text name) path cfg ids = .ok (t, ids')) {v : Value} (hv : v ∈ ids') :
    v ∈ ids ∨ ∃ p sub, declared cfg p = some sub ∧ v = .text (identity name (path ++ p) sub) := by
  obtain ⟨rfl, -⟩ := reads_of_read_tree cfg h
  rcases List.mem_append.mp hv with hv | hv
  · obtain ⟨⟨p, a⟩, hmem, rfl⟩ := List.mem_map.mp (List.mem_reverse.mp hv)
    have hget := (Tree.mem_nodes (read_tree_well_formed cfg hwf h)).mp hmem
    rw [get_of_read_tree hcfg h] at hget
    obtain ⟨sub, hsub, rfl⟩ := Option.map_eq_some_iff.mp hget
    exact Or.inr ⟨p, sub, hsub, rfl⟩
  · exact Or.inl hv

/-- The identities in use are those of declared nodes away from the node at a path. -/
def Apart (config : Value) (path : Path) (ids : List Value) : Prop :=
  ∀ v ∈ ids, ∃ q sub, declared config q = some sub ∧ ¬ path <+: q ∧
    v = .text (identity (machineName config) q sub)

/-- A key with a dot is a fault. -/
theorem explained_of_check_key {k : String} (hk : declared config (path ++ [k]) = some sub)
    (h : checkKey false (.text k) = .error e) : Explained config e := by
  have hmember : Value.member (.text ".") (.text k) = .ok (Value.occursIn ['.'] k.toList) := rfl
  rw [checkKey, hmember, ok_bind] at h
  split at h
  · rename_i hdot
    obtain rfl := Except.error.inj h
    refine Faulty.explains (.dottedKey (p := path) (k := k) (by simp [hk]) ?_) rfl
    exact (occurs_in_singleton '.' k.toList).mp (by simpa using hdot)
  · cases h

/-- An identity in use is a fault. -/
theorem explained_of_check_id (hids : Apart config path ids) (hp : declared config path = some cfg)
    (h : checkId ids (.text (identity (machineName config) path cfg)) = .error e) :
    Explained config e := by
  have hhashable : ∀ s, (!(Value.text s).hashable) = false := fun _ => rfl
  rw [checkId, hhashable, if_neg Bool.false_ne_true] at h
  split at h
  · rename_i hin
    obtain rfl := Except.error.inj h
    obtain ⟨v, hv, hsame⟩ := List.any_eq_true.mp hin
    obtain ⟨q, sub, hq, haway, rfl⟩ := hids v hv
    refine Faulty.explains (.sharedId hq hp (fun heq => haway (heq ▸ List.prefix_rfl)) ?_) rfl
    simpa using hsame
  · cases h

/-- A compound node without a default child is a fault. -/
theorem explained_of_check_initial (hp : declared config path = some cfg)
    {keys : List String} (hkeys : ∀ k, (declared cfg [k]).isSome → k ∈ keys)
    (h : checkInitial (nodeOf name path cfg) keys = .error e) : Explained config e := by
  unfold checkInitial at h
  split at h
  case h_2 => cases h
  case h_1 hcompound =>
      split at h
      case h_1 hnull =>
          obtain rfl := Except.error.inj h
          exact Faulty.explains (.noInitial hp hcompound hnull) rfl
      case h_2 hsome =>
          split at h
          · rename_i hnot
            obtain rfl := Except.error.inj h
            have hunhashable : (field (fieldsOf cfg) "initial").hashable = false := by
              simpa [nodeOf] using hnot
            refine ⟨.strayInitial hp hcompound hsome fun k _ hinitial => ?_,
              Or.inr ⟨rfl, path, cfg, hp, hcompound, hunhashable⟩⟩
            rw [hinitial] at hunhashable
            cases hunhashable
          · split at h
            · cases h
            · rename_i hin
              obtain rfl := Except.error.inj h
              refine ⟨.strayInitial hp hcompound hsome fun k hk hinitial => hin ?_,
                Or.inl ⟨_, rfl, fun hnone => ⟨path, cfg, hp, Or.inl ⟨hcompound, ?_⟩⟩⟩⟩
              · simp only [nodeOf, hinitial, Value.isIn, List.any_map, List.any_eq_true]
                exact ⟨k, hkeys k hk, by simp⟩
              · simpa [DefinitionFault.hasText, nodeOf, Value.hasText] using hnone

/-- A failure to read some of the children of a node comes from a fault, when a failure to read each
of them does. The identities in use are away from the children that are left. -/
theorem explained_of_read_children (hcfg : DocumentedNode cfg) (hwf : cfg.wellFormed = true)
    (hpath : declared config path = some cfg)
    (ih : ∀ e ∈ statesOf cfg, e.2.wellFormed = true → ∀ path ids fault,
      declared config path = some e.2 → Apart config path ids →
      readTree (.text (machineName config)) path e.2 ids = .error fault → Explained config fault)
    {es : Table} (hes : es ⊆ statesOf cfg)
    (hdistinct : Value.allDistinct (es.map Prod.fst) = true)
    (hids : ∀ e ∈ es, ∀ k, e.1 = .text k → Apart config (path ++ [k]) ids)
    (h : readChildren (.text (machineName config)) path es ids = .error e) :
    Explained config e := by
  induction es generalizing ids with
  | nil => cases h
  | cons entry es ihes =>
      have hmem : entry ∈ statesOf cfg := hes (by simp)
      obtain ⟨hkeys, hwfs⟩ := well_formed_states hwf
      simp only [List.map_cons, Value.allDistinct, Bool.and_eq_true, List.all_eq_true] at hdistinct
      have hdoc : DocumentedNode entry.2 ∧ ∃ k, entry.1 = .text k := by
        cases hcfg with
        | node _ _ _ _ _ keys below => exact ⟨below entry hmem, keys entry hmem⟩
      rcases entry with ⟨key, v⟩
      obtain ⟨hdoc, k, rfl⟩ := hdoc
      have hk := declared_concat hpath (get_text_of_mem hkeys hmem)
      have htable : (v.truthy && !v.isMapping) = false := by
        cases hdoc with
        | node table _ _ _ _ _ _ => rcases table with h | h <;> simp [h]
      simp only [readChildren, htable, Bool.false_eq_true, if_false] at h
      rcases bind_eq_error.mp h with h | ⟨⟨⟩, -, h⟩
      · exact explained_of_check_key hk h
      · rw [keyText, ok_bind] at h
        rcases bind_eq_error.mp h with h | ⟨⟨t, ids'⟩, ht, h⟩
        · exact ih _ hmem (hwfs _ hmem) _ _ _ hk (hids (.text k, v) (by simp) k rfl) h
        · rcases bind_eq_error.mp h with h | ⟨⟨ts, ids''⟩, -, h⟩
          · refine ihes (fun e he => hes (List.mem_cons_of_mem _ he)) hdistinct.2
              (fun e he l hl w hw => ?_) h
            rcases mem_ids_of_read_tree hdoc (hwfs _ hmem) ht hw with hw | ⟨p, sub, hp, rfl⟩
            · exact hids e (List.mem_cons_of_mem _ he) l hl w hw
            · -- The keys of siblings are different, so what was just read is not below this one.
              refine ⟨path ++ [k] ++ p, sub, ?_, fun hprefix => ?_, rfl⟩
              · rw [declared_append, hk, Option.bind_some, hp]
              · have hkl : l = k := by
                  rw [List.append_assoc, List.prefix_append_right_inj] at hprefix
                  simpa using hprefix
                have hsame := hdistinct.1 e.1 (List.mem_map_of_mem he)
                simp [hl, hkl] at hsame
          · cases h

/-- A failure of the first pass comes from a fault. -/
theorem explained_of_read_tree (hcfg : DocumentedNode cfg) (hwf : cfg.wellFormed = true)
    (hpath : declared config path = some cfg) (hids : Apart config path ids)
    (h : readTree (.text (machineName config)) path cfg ids = .error e) : Explained config e := by
  induction hcfg generalizing path ids e with
  | @node cfg table id on targets states keys below ih =>
      have hcfg := DocumentedNode.node table id on targets states keys below
      rw [read_tree_eq hcfg] at h
      rcases bind_eq_error.mp h with h | ⟨⟨⟩, -, h⟩
      · exact explained_of_check_id hids hpath h
      · rcases bind_eq_error.mp h with h | ⟨⟨cs, ids'⟩, hcs, h⟩
        · refine explained_of_read_children hcfg hwf hpath
            (fun e he hwf path ids fault hp hids h => ih e he hwf hp hids h)
            (List.Subset.refl _) (well_formed_states hwf).1 (fun e _ k _ v hv => ?_) h
          rcases List.mem_cons.mp hv with rfl | hv
          · refine ⟨path, cfg, hpath, fun hprefix => ?_, rfl⟩
            have hlength := hprefix.length_le
            rw [List.length_append, List.length_singleton] at hlength
            omega
          · obtain ⟨q, sub, hq, haway, rfl⟩ := hids v hv
            exact ⟨q, sub, hq, fun hprefix => haway ((List.prefix_append _ _).trans hprefix), rfl⟩
        · rcases bind_eq_error.mp h with h | ⟨⟨⟩, -, h⟩
          · refine explained_of_check_initial hpath (fun k hk => ?_) h
            have hrel := lookup_read_children hcs k
            cases hlookup : cs.lookup k with
            | none =>
                rw [hlookup] at hrel
                generalize hsub : Table.getText? (statesOf cfg) k = o at hrel
                cases hrel
                simp [declared_cons, hsub] at hk
            | some t =>
                obtain ⟨before, after, rfl, -⟩ := List.lookup_eq_some_iff.mp hlookup
                simp
          · cases h

end Machine

end Statechart
